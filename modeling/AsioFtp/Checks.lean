-- The start with the checks of its tables (src/main.cpp). While the program is stopped, the owner
-- can put any database in the data directory. A start that finds another table in its way throws.
import AsioFtp.Schema

namespace asio_ftp.checks

open helpers fs_objects base_session server main config schema

/-! ## The program -/

def init_sql_db : Program Unit := modify fun fs => fs.write STORAGE fs.storage

/-- The number of the backup. One is always free. -/
def backupNumber (fs : Files) : Nat := (backupLoop fs.disk (fs.files.length + 1) 1).getD 0

def put_aside : Program Unit := do
  modify fun fs => fs.rename_file STORAGE (old_storage (backupNumber fs))
  init_sql_db

/-- The second half of `init_user_table`. -/
def add_users (uuid : Bytes → Uuid) (config_users : UserMap) : Program Unit := do
  check_table_exists .users
  modify fun fs => fs.write STORAGE (fs.storage.withUsers (create_users uuid · config_users))

def init_user_table (uuid : Bytes → Uuid) (config_users : UserMap) : Program Unit := do
  check_table_exists .users
  if any_users_changed (db_users_of (usersOf (← get).disk)) config_users then put_aside
  add_users uuid config_users

def main (uuid : Bytes → Uuid) (cfg : parsed_config) : Program Unit := do
  init_sql_db
  init_user_table uuid cfg.users
  check_table_exists .fs_objects

/-! ## The machine -/

/-- The data directory with its databases and its blobs, and the server that runs on it. -/
structure Machine where
  files : Files
  blobs : Bytes → Option Bytes
  server : Option Server

def Machine.new : Machine := ⟨⟨[]⟩, fun _ => none, none⟩

/-- A start that throws leaves no server. -/
def Machine.start (m : Machine) (uuid : Bytes → Uuid) (cfg : parsed_config) : Machine :=
  match (main uuid cfg).run m.files with
  | .error _ fs => { m with files := fs }
  | .ok _ fs =>
    { m with
      files := fs
      server := some ⟨lifetimes.session_class_of cfg, usersOf fs.disk,
        ⟨lifetimes.objectsIn fs.disk.storage, m.blobs⟩, []⟩ }

def Machine.save (m : Machine) (sv : Server) : Machine where
  files := m.files.write STORAGE (m.files.storage.withObjects sv.m_fs_objects_table.table)
  blobs := sv.m_fs_objects_table.blobs
  server := some sv

inductive Change
  | lifetime (c : lifetimes.Change)
  /-- The owner puts a file in the data directory, or removes one. -/
  | put (name : Bytes) (file : Option File)

/-- The owner keeps his hands off the files of a server that runs. -/
def step (m : Machine) : Change → Option Machine
  | .lifetime (.start uuid file) =>
    if m.server.isSome then none
    else
      match read_json_config file with
      | .error _ => some m
      | .ok cfg => some (m.start uuid cfg)
  | .lifetime (.serve e) => m.server.bind fun sv => (sv.step e).map m.save
  | .lifetime .stop => some { m with server := none }
  | .put name file =>
    if m.server.isSome then none
    else some { m with files := file.elim (m.files.remove name) (m.files.write name) }

/-! ## The start -/

theorem read_rename_file {fs : Files} {a b : Bytes} {file : File} (h : fs.read a = some file)
    (m : Bytes) : (fs.rename_file a b).read m =
      if m = b then some file else if m = a then none else fs.read m := by
  unfold Files.rename_file
  rw [h]
  simp only [Files.read_write]
  by_cases hb : m = b
  · rw [if_pos hb, if_pos hb]
  · rw [if_neg hb, if_neg hb]
    by_cases ha : m = a
    · rw [if_pos ha, ha]
      exact members.lookup_filter_self
    · rw [if_neg ha]
      exact members.lookup_filter_ne ha

/-- The database goes to a free name, with all that its catalog tells, and a new one begins. -/
theorem put_aside_spec {fs : Files} {file : File} (h : fs.read STORAGE = some file) :
    ∃ i fs', put_aside.run fs = .ok () fs' ∧ main.put_aside fs.disk = some fs'.disk ∧
      fs'.storage = File.new ∧ Settled fs' ∧ fs.read (old_storage i) = none ∧
      ∀ name, name ≠ STORAGE →
        fs'.read name = if name = old_storage i then some file else fs.read name := by
  obtain ⟨i, hi, hfree⟩ := exists_free_name fs.disk
  have hlen : fs.disk.files.length = fs.files.length := List.length_map _
  have hnumber : backupNumber fs = i := by
    rw [backupNumber, ← hlen, hi]
    rfl
  have hrename := read_rename_file (b := old_storage i) h
  let fs₁ := fs.rename_file STORAGE (old_storage i)
  have hnew : fs₁.storage = File.new := by
    rw [Files.storage, hrename, if_neg (old_storage_ne i).symm, if_pos rfl]
    rfl
  refine ⟨i, fs₁.write STORAGE fs₁.storage, ?_, ?_, ?_, settled_write .., ?_, ?_⟩
  · unfold put_aside init_sql_db
    rw [EStateM.run_bind, EStateM.run_modify, hnumber]
    rfl
  · rw [main.put_aside, hi, Files.disk_write, Files.disk_rename_file, ← Files.storage_disk,
      Files.disk_rename_file]
    rfl
  · rw [Files.storage_write, hnew]
  · rw [Files.read_disk, Option.map_eq_none_iff] at hfree
    exact hfree
  · intro name hname
    rw [Files.read_write, if_neg hname, hrename, if_neg hname]

theorem accepts_new (t : TableName) : Accepts t File.new :=
  Or.inr ⟨fun ⟨_, hx, _⟩ => absurd hx List.not_mem_nil, fun _ hx => absurd hx List.not_mem_nil⟩

theorem add_users_spec {fs : Files} (hs : Settled fs) (h : Accepts .users fs.storage)
    (uuid : Bytes → Uuid) (config_users : UserMap) :
    ∃ f, (add_users uuid config_users).run fs = .ok () (fs.write STORAGE f) ∧
      (fs.write STORAGE f).disk = fs.disk.write STORAGE { initialize_users fs.disk.storage with
        users := some (create_users uuid (usersOf fs.disk) config_users) } ∧
      Own .users f ∧ (Accepts .fs_objects f ↔ Accepts .fs_objects fs.storage) := by
  obtain ⟨f, hrun, hdb, hown, hother⟩ := check_table_exists_ok hs h
  refine ⟨f.withUsers (create_users uuid · config_users), ?_, ?_, hown,
    (hother .fs_objects (by decide)).2⟩
  · rw [add_users, EStateM.run_bind, hrun]
    simp only [EStateM.run_modify, Files.storage_write, Files.write_write]
  · rw [Files.disk_write, usersOf, Files.storage_disk]
    simp only [File.withUsers, hdb, TableName.make, initialize_users, Option.map_some]

/-- The start finds other users than the configured ones. -/
def Changed (fs : Files) (config_users : UserMap) : Prop :=
  ¬ ConfiguredAsRead (usersOf fs.disk) config_users

theorem any_users_changed_iff {fs : Files} {config_users : UserMap} :
    any_users_changed (db_users_of (usersOf fs.disk)) config_users = true ↔
      Changed fs config_users := by
  rw [Changed, ← any_users_changed_eq_false_iff, Bool.not_eq_false]

/-- What the first check of the users leaves. -/
structure Checked (fs fs' : Files) : Prop where
  disk : fs'.disk = fs.disk.write STORAGE (initialize_users fs.disk.storage)
  settled : Settled fs'
  own : Own .users fs'.storage
  accepts_iff : Accepts .fs_objects fs'.storage ↔ Accepts .fs_objects fs.storage
  others : ∀ name, name ≠ STORAGE → fs'.read name = fs.read name

/-- The database is kept under a name that was free. -/
def PutAside (fs fs' : Files) : Prop :=
  ∃ i file, fs.read (old_storage i) = none ∧ fs'.read (old_storage i) = some file ∧
    SameRows fs.storage.database file.database

/-- What `init_user_table` leaves. -/
structure Initialized (uuid : Bytes → Uuid) (config_users : UserMap) (fs fs' : Files) : Prop where
  same : main.init_user_table uuid fs.disk config_users = some fs'.disk
  settled : Settled fs'
  own : Own .users fs'.storage
  accepts_iff : Accepts .fs_objects fs'.storage ↔
    Changed fs config_users ∨ Accepts .fs_objects fs.storage
  others : ∀ name file, name ≠ STORAGE → fs.read name = some file → fs'.read name = some file
  unchanged : ¬ Changed fs config_users → ∀ name, name ≠ STORAGE → fs'.read name = fs.read name
  backup : Changed fs config_users → PutAside fs fs'

section
variable {fs : Files} (hs : Settled fs) (uuid : Bytes → Uuid) (config_users : UserMap)

include hs in
theorem users_checked (h : Accepts .users fs.storage) :
    ∃ fs', (check_table_exists .users).run fs = .ok () fs' ∧ Checked fs fs' := by
  obtain ⟨f, hrun, hdb, hown, hother⟩ := check_table_exists_ok hs h
  refine ⟨_, hrun, ?_, settled_write .., ?_, ?_, fun name hname => ?_⟩
  · rw [Files.disk_write, hdb, Files.storage_disk]
    rfl
  · rwa [Files.storage_write]
  · rw [Files.storage_write]
    exact (hother .fs_objects (by decide)).2
  · rw [Files.read_write, if_neg hname]

section
variable {fs₁ : Files} (hc : Checked fs fs₁)
include hc

theorem Checked.users : usersOf fs₁.disk = usersOf fs.disk := by
  rw [usersOf, hc.disk, Disk.storage_write]
  rfl

theorem Checked.init_user_table : main.init_user_table uuid fs.disk config_users =
    (if any_users_changed (db_users_of (usersOf fs.disk)) config_users then main.put_aside fs₁.disk
    else some fs₁.disk).map fun d => d.write STORAGE { initialize_users d.storage with
      users := some (create_users uuid (usersOf d) config_users) } := by
  unfold main.init_user_table
  simp only [← hc.disk]
  rw [← hc.users]
  rfl

theorem Checked.sameRows : SameRows fs.storage.database fs₁.storage.database := by
  rw [← Files.storage_disk fs₁, hc.disk, Disk.storage_write, Files.storage_disk]
  exact sameRows_make .users _

theorem initialized_of_changed (hchanged : Changed fs config_users) :
    ∃ fs', (put_aside >>= fun _ => add_users uuid config_users).run fs₁ = .ok () fs' ∧
      Initialized uuid config_users fs fs' := by
  have hread : fs₁.read STORAGE = some fs₁.storage := by
    have hwrite : (fs₁.write STORAGE fs₁.storage).read STORAGE = some fs₁.storage := by
      rw [Files.read_write, if_pos rfl]
    rwa [hc.settled] at hwrite
  obtain ⟨i, fs₂, hrun₂, hsame₂, hnew, hs₂, hfree, hfs₂⟩ := put_aside_spec hread
  have haccepts : ∀ t, Accepts t fs₂.storage := fun t => hnew ▸ accepts_new t
  obtain ⟨f, hrun₃, hdisk, hown, haccept⟩ := add_users_spec hs₂ (haccepts .users) uuid config_users
  have hfree' : fs.read (old_storage i) = none := by rwa [← hc.others _ (old_storage_ne i)]
  refine ⟨fs₂.write STORAGE f, ?_, ?_, settled_write .., ?_, ?_, ?_, fun hno => absurd hchanged hno,
    fun _ => ⟨i, fs₁.storage, hfree', ?_, hc.sameRows⟩⟩
  · rw [EStateM.run_bind, hrun₂]
    exact hrun₃
  · rw [hc.init_user_table, if_pos (any_users_changed_iff.mpr hchanged), hsame₂, Option.map_some,
      hdisk]
  · rwa [Files.storage_write]
  · rw [Files.storage_write, haccept]
    exact iff_of_true (haccepts _) (Or.inl hchanged)
  · intro name file hname hfile
    have hne : name ≠ old_storage i := by
      rintro rfl
      cases hfree'.symm.trans hfile
    rw [Files.read_write, if_neg hname, hfs₂ name hname, if_neg hne, hc.others name hname, hfile]
  · rw [Files.read_write, if_neg (old_storage_ne i), hfs₂ _ (old_storage_ne i), if_pos rfl]

theorem initialized_of_unchanged (hsame : ¬ Changed fs config_users) :
    ∃ fs', (add_users uuid config_users).run fs₁ = .ok () fs' ∧
      Initialized uuid config_users fs fs' := by
  obtain ⟨f, hrun, hdisk, hown, haccept⟩ := add_users_spec hc.settled (Or.inl hc.own) uuid
    config_users
  have hothers : ∀ name, name ≠ STORAGE → (fs₁.write STORAGE f).read name = fs.read name := by
    intro name hname
    rw [Files.read_write, if_neg hname, hc.others name hname]
  refine ⟨_, hrun, ?_, settled_write .., ?_, ?_, ?_, fun _ => hothers, fun h => absurd h hsame⟩
  · rw [hc.init_user_table, if_neg (mt any_users_changed_iff.mp hsame), Option.map_some, hdisk]
  · rwa [Files.storage_write]
  · rw [Files.storage_write, haccept, hc.accepts_iff]
    exact (or_iff_right hsame).symm
  · intro name file hname hfile
    rw [hothers name hname, hfile]

end

include hs

theorem init_user_table_error (h : ¬ Accepts .users fs.storage) :
    ∃ e f, (init_user_table uuid config_users).run fs = .error e (fs.write STORAGE f) ∧
      SameRows fs.storage.database f.database := by
  obtain ⟨e, f, hrun, hrows⟩ := check_table_exists_error hs h
  refine ⟨e, f, ?_, hrows⟩
  rw [init_user_table, EStateM.run_bind, hrun]

theorem init_user_table_ok (h : Accepts .users fs.storage) :
    ∃ fs', (init_user_table uuid config_users).run fs = .ok () fs' ∧
      Initialized uuid config_users fs fs' := by
  obtain ⟨fs₁, hrun, hc⟩ := users_checked hs h
  have hleft : (init_user_table uuid config_users).run fs =
      if any_users_changed (db_users_of (usersOf fs.disk)) config_users then
        (put_aside >>= fun _ => add_users uuid config_users).run fs₁
      else (add_users uuid config_users).run fs₁ := by
    rw [init_user_table, EStateM.run_bind, hrun]
    simp only
    rw [EStateM.run_bind, EStateM.run_get]
    simp only [hc.users]
    split <;> rfl
  rw [hleft]
  by_cases hchanged : Changed fs config_users
  · rw [if_pos (any_users_changed_iff.mpr hchanged)]
    exact initialized_of_changed uuid config_users hc hchanged
  · rw [if_neg (mt any_users_changed_iff.mp hchanged)]
    exact initialized_of_unchanged uuid config_users hc hchanged

end

/-- What a start finds in its way. The table of the objects is checked in the database that the
start goes on with, which is a new one when the users changed. -/
def Refused (fs : Files) (config_users : UserMap) : Prop :=
  ¬ Accepts .users fs.storage ∨
    ¬ Changed fs config_users ∧ ¬ Accepts .fs_objects fs.storage

/-- Every file and every row is still there, and no file is new. -/
structure LosesNothing (fs fs' : Files) : Prop where
  others : ∀ name, name ≠ STORAGE → fs'.read name = fs.read name
  users : ∀ r ∈ (usersOf fs.disk).rows, r ∈ (usersOf fs'.disk).rows
  objects : lifetimes.objectsIn fs'.disk.storage = lifetimes.objectsIn fs.disk.storage

theorem losesNothing_of_sameRows {fs : Files} {f : File}
    (h : SameRows fs.storage.database f.database) : LosesNothing fs (fs.write STORAGE f) where
  others name hname := by rw [Files.read_write, if_neg hname]
  users r hr := by
    have husers : usersOf (fs.write STORAGE f).disk = usersOf fs.disk := by
      rw [usersOf, usersOf, Files.storage_disk, Files.storage_disk, Files.storage_write]
      exact h.1
    rwa [husers]
  objects := by
    rw [Files.storage_disk, Files.storage_disk, Files.storage_write]
    exact h.2

theorem LosesNothing.trans {fs fs' fs'' : Files} (h : LosesNothing fs fs')
    (h' : LosesNothing fs' fs'') : LosesNothing fs fs'' where
  others name hname := (h'.others name hname).trans (h.others name hname)
  users r hr := h'.users r (h.users r hr)
  objects := h'.objects.trans h.objects

/-- With the configured users, `init_user_table` adds rows only. -/
theorem Initialized.losesNothing {uuid : Bytes → Uuid} {config_users : UserMap} {fs fs' : Files}
    (h : Initialized uuid config_users fs fs') (hsame : ¬ Changed fs config_users) :
    LosesNothing fs fs' := by
  obtain ⟨d, hd, husers, hobjects, -⟩ :=
    @main.init_user_table_unchanged uuid fs.disk config_users (not_not.mp hsame)
  obtain rfl := Option.some.inj (h.same.symm.trans hd)
  refine ⟨h.unchanged hsame, fun r hr => ?_, ?_⟩
  · rw [usersOf, husers, Option.getD_some]
    exact lifetimes.mem_create_users_of_mem hr
  · rw [lifetimes.objectsIn, lifetimes.objectsIn, hobjects]

section
variable (fs : Files) (uuid : Bytes → Uuid) (cfg : parsed_config)

/-- The database as `init_sql_db` leaves it. -/
def opened : Files := fs.write STORAGE fs.storage

theorem main_run : (main uuid cfg).run fs =
    (init_user_table uuid cfg.users >>= fun _ => check_table_exists .fs_objects).run (opened fs) :=
  rfl

theorem opened_spec : (opened fs).storage = fs.storage ∧ (opened fs).disk = fs.disk.init_sql_db ∧
    Settled (opened fs) ∧ (Changed (opened fs) cfg.users ↔ Changed fs cfg.users) ∧
    LosesNothing fs (opened fs) := by
  refine ⟨Files.storage_write .., ?_, settled_write .., ?_, losesNothing_of_sameRows ⟨rfl, rfl⟩⟩
  · rw [opened, Files.disk_write, Disk.init_sql_db, Files.storage_disk]
  · unfold Changed opened
    rw [usersOf, usersOf, Files.storage_disk, Files.storage_disk, Files.storage_write]

theorem main_error (h : Refused fs cfg.users) :
    ∃ e fs', (main uuid cfg).run fs = .error e fs' ∧ LosesNothing fs fs' := by
  obtain ⟨hstorage, -, hs, hchanged, hopened⟩ := opened_spec fs cfg
  rw [main_run, EStateM.run_bind]
  by_cases husers : Accepts .users fs.storage
  · obtain ⟨hsame, hno⟩ := h.resolve_left (not_not.mpr husers)
    obtain ⟨fs₁, hrun, hi⟩ := init_user_table_ok hs uuid cfg.users (hstorage.symm ▸ husers)
    have hrefused : ¬ Accepts .fs_objects fs₁.storage := by
      rw [hi.accepts_iff, hchanged, hstorage]
      exact not_or.mpr ⟨hsame, hno⟩
    obtain ⟨e, f, hrun₁, hrows⟩ := check_table_exists_error hi.settled hrefused
    refine ⟨e, _, ?_, (hopened.trans (hi.losesNothing (mt hchanged.mp hsame))).trans
      (losesNothing_of_sameRows hrows)⟩
    rw [hrun]
    exact hrun₁
  · obtain ⟨e, f, hrun, hrows⟩ := init_user_table_error hs uuid cfg.users (hstorage.symm ▸ husers)
    refine ⟨e, _, ?_, hopened.trans (losesNothing_of_sameRows hrows)⟩
    rw [hrun]

theorem main_ok (h : ¬ Refused fs cfg.users) :
    ∃ fs', (main uuid cfg).run fs = .ok () fs' ∧ lifetimes.main uuid cfg fs.disk = some fs'.disk ∧
      (∀ t, Own t fs'.storage) ∧
      (∀ name file, name ≠ STORAGE → fs.read name = some file → fs'.read name = some file) ∧
      (¬ Changed fs cfg.users → LosesNothing fs fs') ∧
      (Changed fs cfg.users → PutAside fs fs') := by
  obtain ⟨hstorage, hdisk, hs, hchanged, hopened⟩ := opened_spec fs cfg
  obtain ⟨husers, hobjects⟩ := not_or.mp h
  obtain ⟨fs₁, hrun, hi⟩ := init_user_table_ok hs uuid cfg.users (hstorage.symm ▸ not_not.mp husers)
  have haccepts : Accepts .fs_objects fs₁.storage := by
    rw [hi.accepts_iff, hchanged, hstorage]
    exact or_iff_not_imp_left.mpr fun hsame => not_not.mp fun hno => hobjects ⟨hsame, hno⟩
  obtain ⟨f, hrun₁, hdb, hown, hother⟩ := check_table_exists_ok hi.settled haccepts
  refine ⟨fs₁.write STORAGE f, ?_, ?_, ?_, ?_, fun hsame => ?_, fun hc => ?_⟩
  · rw [main_run, EStateM.run_bind, hrun]
    exact hrun₁
  · rw [lifetimes.main, ← hdisk, hi.same, Option.map_some, Files.disk_write, hdb,
      lifetimes.init_fs_objects_table, Files.storage_disk]
    rfl
  · intro t
    rw [Files.storage_write]
    cases t with
    | users => exact (hother .users (by decide)).1.mpr hi.own
    | fs_objects => exact hown
  · intro name file hname hfile
    rw [Files.read_write, if_neg hname]
    exact hi.others name file hname ((hopened.others name hname).trans hfile)
  · refine (hopened.trans (hi.losesNothing (mt hchanged.mp hsame))).trans
      (losesNothing_of_sameRows ?_)
    rw [hdb]
    exact sameRows_make .fs_objects _
  · obtain ⟨i, file, hfree, hfile, hrows⟩ := hi.backup (hchanged.mpr hc)
    rw [hopened.others _ (old_storage_ne i)] at hfree
    rw [hstorage] at hrows
    refine ⟨i, file, hfree, ?_, hrows⟩
    rw [Files.read_write, if_neg (old_storage_ne i), hfile]

end

/-! ## The law of the checks -/

/-- A server runs on tables that its own queries made. -/
def RunsOnItsOwn (m : Machine) : Prop := ∀ _ ∈ m.server, ∀ t, Own t m.files.storage

/-- What a start does with a configuration. -/
structure Starts (cfg : parsed_config) (m m' : Machine) : Prop where
  refused_iff : m'.server = none ↔ Refused m.files cfg.users
  kept : m'.server = none ∨ ¬ Changed m.files cfg.users → LosesNothing m.files m'.files
  backup : m'.server ≠ none → Changed m.files cfg.users → PutAside m.files m'.files
  others : ∀ name file, name ≠ STORAGE → m.files.read name = some file →
    m'.files.read name = some file

/-- What holds after each change. -/
def Checks (m : Machine) (c : Change) (m' : Machine) : Prop :=
  RunsOnItsOwn m' ∧ ∀ uuid file cfg, c = .lifetime (.start uuid file) →
    read_json_config file = .ok cfg → Starts cfg m m'

theorem starts_start {m : Machine} (hm : m.server = none) (uuid : Bytes → Uuid)
    (cfg : parsed_config) : RunsOnItsOwn (m.start uuid cfg) ∧ Starts cfg m (m.start uuid cfg) := by
  by_cases h : Refused m.files cfg.users
  · obtain ⟨e, fs', hrun, hkept⟩ := main_error m.files uuid cfg h
    have hstart : m.start uuid cfg = { m with files := fs' } := by rw [Machine.start, hrun]
    rw [hstart]
    refine ⟨fun sv hsv => ?_, ⟨iff_of_true hm h, fun _ => hkept, fun hne => absurd hm hne,
      fun name file hname hfile => ?_⟩⟩
    · cases hm.symm.trans hsv
    · exact (hkept.others name hname).trans hfile
  · obtain ⟨fs', hrun, -, hown, hothers, hkept, hbackup⟩ := main_ok m.files uuid cfg h
    unfold Machine.start
    rw [hrun]
    refine ⟨fun _ _ => hown, ⟨iff_of_false (Option.some_ne_none _) h, ?_, fun _ => hbackup,
      hothers⟩⟩
    rintro (hnone | hsame)
    · exact absurd hnone (Option.some_ne_none _)
    · exact hkept hsame

theorem own_save {m : Machine} (h : ∀ t, Own t m.files.storage) (sv : Server) (t : TableName) :
    Own t (m.save sv).files.storage := by
  rw [Machine.save, Files.storage_write]
  exact h t

theorem checks_step {m m' : Machine} {c : Change} (h : RunsOnItsOwn m) (hs : step m c = some m') :
    Checks m c m' := by
  cases c with
  | lifetime c =>
    cases c with
    | start uuid file =>
      simp only [step, Option.ite_none_left_eq_some] at hs
      obtain ⟨hm, hs⟩ := hs
      have hm : m.server = none := by simpa using hm
      cases hr : read_json_config file with
      | error e =>
        simp only [hr, Option.some.injEq] at hs
        subst hs
        refine ⟨h, fun uuid' file' cfg hc hr' => ?_⟩
        cases hc
        cases hr.symm.trans hr'
      | ok cfg =>
        simp only [hr, Option.some.injEq] at hs
        subst hs
        obtain ⟨hown, hstarts⟩ := starts_start hm uuid cfg
        refine ⟨hown, fun uuid' file' cfg' hc hr' => ?_⟩
        cases hc
        cases hr.symm.trans hr'
        exact hstarts
    | serve e =>
      simp only [step, Option.bind_eq_some_iff, Option.map_eq_some_iff] at hs
      obtain ⟨sv, hsv, sv', -, rfl⟩ := hs
      refine ⟨fun _ _ t => own_save (h sv hsv) sv' t, fun _ _ _ hc => ?_⟩
      cases hc
    | stop =>
      simp only [step, Option.some.injEq] at hs
      subst hs
      refine ⟨fun sv hsv => ?_, fun _ _ _ hc => ?_⟩
      · cases hsv
      · cases hc
  | put name file =>
    simp only [step, Option.ite_none_left_eq_some, Option.some.injEq] at hs
    obtain ⟨hm, rfl⟩ := hs
    have hm : m.server = none := by simpa using hm
    refine ⟨fun sv hsv => ?_, fun _ _ _ hc => ?_⟩
    · cases hm.symm.trans hsv
    · cases hc

/-- What the rest of the development knows of the machine. -/
def Machine.known (m : Machine) : lifetimes.Machine := ⟨m.files.disk, m.blobs, m.server⟩

/-- A machine in whose database only the program made tables. -/
structure OwnMachine (m : Machine) : Prop where
  accepts : ∀ t, Accepts t m.files.storage
  running : RunsOnItsOwn m

theorem known_start {m : Machine} (h : OwnMachine m) (uuid : Bytes → Uuid) (cfg : parsed_config) :
    some (m.start uuid cfg).known = m.known.start uuid cfg ∧ OwnMachine (m.start uuid cfg) := by
  have hno : ¬ Refused m.files cfg.users := by
    rintro (hno | ⟨-, hno⟩)
    · exact hno (h.accepts .users)
    · exact hno (h.accepts .fs_objects)
  obtain ⟨fs', hrun, hmain, hown, -⟩ := main_ok m.files uuid cfg hno
  have hstart : m.start uuid cfg = { m with
      files := fs'
      server := some ⟨lifetimes.session_class_of cfg, usersOf fs'.disk,
        ⟨lifetimes.objectsIn fs'.disk.storage, m.blobs⟩, []⟩ } := by
    rw [Machine.start, hrun]
  rw [hstart]
  refine ⟨?_, fun t => Or.inl (hown t), fun _ _ => hown⟩
  unfold lifetimes.Machine.start Machine.known
  simp only
  rw [hmain]
  rfl

theorem known_save {m : Machine} (h : ∀ t, Own t m.files.storage) (sv : Server) :
    (m.save sv).known = m.known.save sv := by
  have hin := (m.files.storage.tables .fs_objects).mpr (mem_of_own (h .fs_objects))
  obtain ⟨objects, hobjects⟩ := Option.isSome_iff_exists.mp hin
  unfold Machine.save lifetimes.Machine.save Machine.known
  simp only [Files.disk_write, Files.storage_disk, File.withObjects, hobjects, Option.map_some]

theorem known_step {m : Machine} (h : OwnMachine m) (c : lifetimes.Change) :
    (step m (.lifetime c)).map Machine.known = lifetimes.step m.known c := by
  cases c with
  | start uuid file =>
    simp only [step, lifetimes.step]
    by_cases hm : m.server.isSome = true
    · rw [if_pos hm, if_pos (show m.known.server.isSome = true from hm)]
      rfl
    · rw [if_neg hm, if_neg (show ¬ m.known.server.isSome = true from hm)]
      cases read_json_config file with
      | error e => rfl
      | ok cfg => exact (known_start h uuid cfg).1
  | serve e =>
    simp only [step, lifetimes.step]
    cases hsv : m.server with
    | none => simp [Machine.known, hsv]
    | some sv =>
      have hknown : m.known.server = some sv := hsv
      rw [hknown, Option.bind_some, Option.bind_some, Option.map_map]
      refine Option.map_congr fun sv' _ => ?_
      exact known_save (h.running sv hsv) sv'
  | stop => rfl

theorem own_step {m m' : Machine} {c : lifetimes.Change} (h : OwnMachine m)
    (hs : step m (.lifetime c) = some m') : OwnMachine m' := by
  refine ⟨?_, (checks_step h.running hs).1⟩
  cases c with
  | start uuid file =>
    simp only [step, Option.ite_none_left_eq_some] at hs
    obtain ⟨-, hs⟩ := hs
    cases hr : read_json_config file with
    | error e =>
      simp only [hr, Option.some.injEq] at hs
      exact hs ▸ h.accepts
    | ok cfg =>
      simp only [hr, Option.some.injEq] at hs
      exact hs ▸ (known_start h uuid cfg).2.accepts
  | serve e =>
    simp only [step, Option.bind_eq_some_iff, Option.map_eq_some_iff] at hs
    obtain ⟨sv, hsv, sv', -, rfl⟩ := hs
    exact fun t => Or.inl (own_save (h.running sv hsv) sv' t)
  | stop =>
    simp only [step, Option.some.injEq] at hs
    exact hs ▸ h.accepts

/-- In a data directory that nobody else writes to, the checks never end a start: over any number of
lifetimes the machine with its catalogs and checks does what the machine without them does. -/
theorem the_program_never_refuses_its_own_files (changes : List lifetimes.Change) :
    (runs.run (fun m c => step m (.lifetime c)) Machine.new changes).map Machine.known =
      runs.run lifetimes.step lifetimes.Machine.new changes := by
  refine runs.run_map (J := OwnMachine) (s := Machine.new) (fun m c h => known_step h c)
    (fun m c m' h => own_step h) ⟨accepts_new, fun sv hsv => ?_⟩ changes
  cases hsv

end asio_ftp.checks
