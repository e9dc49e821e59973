-- The lifetimes of the server (src/main.cpp). The program starts with a configuration, serves, and
-- can be stopped between any two events. The data directory stays, and a start with other users
-- puts the database aside.
import AsioFtp.Config
import AsioFtp.Server

namespace asio_ftp.lifetimes

open helpers fs_objects histories base_session server main config

/-! ## The program -/

/-- `fs_objects::initialize`, which makes the table that is not there. -/
def init_fs_objects_table (d : Disk) : Disk :=
  d.write STORAGE { d.storage with
    fs_objects := some (d.storage.fs_objects.getD Table.empty) }

/-- What `main` does with the data directory, before it makes the server. -/
def main (uuid : Bytes → Uuid) (cfg : parsed_config) (d : Disk) : Option Disk :=
  (init_user_table uuid d.init_sql_db cfg.users).map init_fs_objects_table

/-- The constructor of the server starts to accept sessions of one class. -/
def session_class_of (cfg : parsed_config) : SessionClass :=
  if cfg.secure then .secure_session else .session

def objectsIn (db : Database) : Table := db.fs_objects.getD Table.empty

/-- The data directory with its databases and its blobs, and the server that runs on it. -/
structure Machine where
  disk : Disk
  blobs : Bytes → Option Bytes
  server : Option Server

def Machine.new : Machine := ⟨⟨[]⟩, fun _ => none, none⟩

/-- The server opens the database that `main` left. -/
def Machine.start (m : Machine) (uuid : Bytes → Uuid) (cfg : parsed_config) : Option Machine :=
  (main uuid cfg m.disk).map fun d =>
    { m with
      disk := d
      server := some ⟨session_class_of cfg, usersOf d, ⟨objectsIn d.storage, m.blobs⟩, []⟩ }

/-- Each statement of a session is in the database when it returns. -/
def Machine.save (m : Machine) (sv : Server) : Machine where
  disk := m.disk.write STORAGE { m.disk.storage with
    fs_objects := some sv.m_fs_objects_table.table }
  blobs := sv.m_fs_objects_table.blobs
  server := some sv

inductive Change
  /-- The program starts, with what there is of the configuration. -/
  | start (uuid : Bytes → Uuid) (file : ConfigFile)
  | serve (e : ServerEvent)
  /-- The process ends, with its start and each event of its sessions either done or not begun. -/
  | stop

/-- A configuration that throws ends the program before it opens the data directory. -/
def step (m : Machine) : Change → Option Machine
  | .start uuid file =>
    if m.server.isSome then none
    else
      match read_json_config file with
      | .error _ => some m
      | .ok cfg => m.start uuid cfg
  | .serve e => m.server.bind fun sv => (sv.step e).map m.save
  | .stop => some { m with server := none }

/-! ## The start -/

theorem storage_init_sql_db (d : Disk) : d.init_sql_db.storage = d.storage :=
  Disk.storage_write ..

theorem read_init_sql_db (d : Disk) {name : Bytes} (h : name ≠ STORAGE) :
    d.init_sql_db.read name = d.read name := by
  rw [Disk.init_sql_db, Disk.read_write, if_neg h]

/-- The table of the objects is there after the start, with the rows that it had. -/
theorem init_fs_objects_table_spec (d : Disk) :
    usersOf (init_fs_objects_table d) = usersOf d ∧
      objectsIn (init_fs_objects_table d).storage = objectsIn d.storage ∧
      ∀ name, name ≠ STORAGE → (init_fs_objects_table d).read name = d.read name := by
  unfold init_fs_objects_table
  refine ⟨?_, ?_, fun name hname => ?_⟩
  · rw [usersOf, Disk.storage_write]
    rfl
  · rw [objectsIn, Disk.storage_write]
    rfl
  · rw [Disk.read_write, if_neg hname]

/-- A search that ends at `j` passed the names before it. -/
theorem backupLoop_sound {d : Disk} {fuel i j : Nat} (h : backupLoop d fuel i = some j) :
    i ≤ j ∧ d.file_exists (old_storage j) = false ∧
      ∀ k, i ≤ k → k < j → d.file_exists (old_storage k) = true := by
  induction fuel generalizing i with
  | zero => cases h
  | succ fuel ih =>
    unfold backupLoop at h
    cases he : d.file_exists (old_storage i) with
    | false =>
      rw [he, if_neg Bool.false_ne_true, Option.some.injEq] at h
      subst h
      exact ⟨le_refl i, he, fun k h1 h2 => absurd h1 (Nat.not_le.mpr h2)⟩
    | true =>
      rw [he, if_pos rfl] at h
      obtain ⟨hle, hfree, htaken⟩ := ih h
      refine ⟨by omega, hfree, fun k h1 h2 => ?_⟩
      by_cases hk : k = i
      · rw [hk, he]
      · exact htaken k (by omega) h2

/-- The backups have the numbers from 1 to `n`. -/
structure Numbered (d : Disk) (n : Nat) : Prop where
  taken : ∀ k, 1 ≤ k → k ≤ n → d.file_exists (old_storage k) = true
  free : ∀ k, n < k → d.read (old_storage k) = none

theorem put_aside_of_numbered {d : Disk} {n : Nat} (h : Numbered d n) : put_aside d =
    some ((d.rename_file STORAGE (old_storage (n + 1))).init_sql_db) := by
  obtain ⟨i, hi, -⟩ := exists_free_name d
  obtain ⟨hpos, hfree, htaken⟩ := backupLoop_sound hi
  have hn : i = n + 1 := by
    by_contra hne
    rcases Nat.lt_or_gt_of_ne hne with hlt | hgt
    · exact absurd (h.taken i hpos (by omega)) (by simp [hfree])
    · have hex := htaken (n + 1) (by omega) hgt
      simp [Disk.file_exists, h.free (n + 1) (by omega)] at hex
  unfold put_aside
  rw [hi, hn]
  rfl

section
variable {uuid : Bytes → Uuid} {d : Disk} {cfg : parsed_config}

/-- A start with the stored users keeps the rows of the users and the objects. -/
theorem main_of_unchanged
    (h : any_users_changed (db_users_of (usersOf d)) cfg.users = false) :
    ∃ d', main uuid cfg d = some d' ∧ usersOf d' = create_users uuid (usersOf d) cfg.users ∧
      objectsIn d'.storage = objectsIn d.storage ∧
      ∀ name, name ≠ STORAGE → d'.read name = d.read name := by
  have husers : usersOf d.init_sql_db = usersOf d := by
    rw [usersOf, storage_init_sql_db, usersOf]
  have hread := any_users_changed_eq_false_iff.mp h
  rw [← husers] at hread
  obtain ⟨d₂, hd₂, hu, ho, hothers⟩ := @init_user_table_unchanged uuid _ _ hread
  obtain ⟨h1, h2, h3⟩ := init_fs_objects_table_spec d₂
  refine ⟨init_fs_objects_table d₂, ?_, ?_, ?_, fun name hname => ?_⟩
  · unfold main
    rw [hd₂]
    rfl
  · rw [h1, usersOf, hu, Option.getD_some, husers]
  · rw [h2, objectsIn, ho, storage_init_sql_db, objectsIn]
  · rw [h3 name hname, hothers name hname, read_init_sql_db d hname]

/-- A start with other users begins a new database and keeps the old one under the next number. -/
theorem main_of_changed {n : Nat} (hn : Numbered d n)
    (h : any_users_changed (db_users_of (usersOf d)) cfg.users = true) :
    ∃ d', main uuid cfg d = some d' ∧
      usersOf d' = create_users uuid users.Table.empty cfg.users ∧
      objectsIn d'.storage = Table.empty ∧
      ∀ name, name ≠ STORAGE → d'.read name =
        if name = old_storage (n + 1) then some (initialize_users d.storage) else d.read name := by
  let d₁ := d.init_sql_db.write STORAGE (initialize_users d.init_sql_db.storage)
  have hread : ∀ name, name ≠ STORAGE → d₁.read name = d.read name := by
    intro name hname
    rw [Disk.read_write, if_neg hname, read_init_sql_db d hname]
  have hn₁ : Numbered d₁ n := by
    constructor
    · intro k h1 h2
      rw [Disk.file_exists, hread _ (old_storage_ne k)]
      exact hn.taken k h1 h2
    · intro k hk
      rw [hread _ (old_storage_ne k)]
      exact hn.free k hk
  have hdb : d₁.read STORAGE = some (initialize_users d.storage) := by
    rw [Disk.read_write, if_pos rfl, storage_init_sql_db]
  have hrename := Disk.read_rename_file (b := old_storage (n + 1)) hdb
  let d₂ := (d₁.rename_file STORAGE (old_storage (n + 1))).init_sql_db
  have hnew : d₂.storage = Database.new := by
    rw [storage_init_sql_db, Disk.storage, hrename, if_neg (old_storage_ne (n + 1)).symm,
      if_pos rfl]
    rfl
  let d₃ := d₂.write STORAGE { initialize_users d₂.storage with
    users := some (create_users uuid users.Table.empty cfg.users) }
  have hinit : init_user_table uuid d.init_sql_db cfg.users = some d₃ := by
    have hstored : d₁.storage.users.getD users.Table.empty = usersOf d := by
      rw [Disk.storage_write, storage_init_sql_db]
      rfl
    unfold init_user_table
    simp only
    rw [hstored, h, if_pos rfl, put_aside_of_numbered hn₁, Option.map_some]
    simp only [d₃]
    rw [show (initialize_users d₂.storage).users = some users.Table.empty by rw [hnew]; rfl]
    rfl
  obtain ⟨h1, h2, h3⟩ := init_fs_objects_table_spec d₃
  refine ⟨init_fs_objects_table d₃, ?_, ?_, ?_, fun name hname => ?_⟩
  · unfold main
    rw [hinit]
    rfl
  · rw [h1, usersOf, Disk.storage_write]
    rfl
  · rw [h2, objectsIn, Disk.storage_write, hnew]
    rfl
  · rw [h3 name hname, Disk.read_write, if_neg hname, read_init_sql_db _ hname, hrename,
      if_neg hname, hread name hname]

end

/-! ## The epochs -/

/-- The calls since the database began, and before that the users and the calls of each database
that was put aside. -/
structure Epochs where
  past : List (users.Table × List Op)
  current : List Op

def Epochs.new : Epochs := ⟨[], []⟩

/-- A start with other users ends an epoch. -/
def Epochs.follow (x : Epochs) (m : Machine) : Change → Epochs
  | .start _ file =>
    match read_json_config file with
    | .error _ => x
    | .ok cfg =>
      if any_users_changed (db_users_of (usersOf m.disk)) cfg.users then
        ⟨x.past ++ [(usersOf m.disk, x.current)], []⟩
      else x
  | .serve e => { x with current := x.current ++ (m.server.bind (·.callOf e)).toList }
  | .stop => x

/-- A change of the machine whose calls are recorded. -/
def recorded (x : Machine × Epochs) (c : Change) : Option (Machine × Epochs) :=
  (step x.1 c).map fun m => (m, x.2.follow x.1 c)

/-- The objects that a history leaves in an empty table. -/
def objectsAfter (ops : List Op) : Table := (after Store.empty ops).table

/-- The backups are the past epochs, in order, and the database is the epoch of today. -/
structure Archived (x : Machine × Epochs) : Prop where
  past : ∀ i epoch, x.2.past[i]? = some epoch → ∃ db,
    x.1.disk.read (old_storage (i + 1)) = some db ∧ db.users = some epoch.1 ∧
      objectsIn db = objectsAfter epoch.2
  no_other : ∀ k, x.2.past.length < k → x.1.disk.read (old_storage k) = none
  current : objectsIn x.1.disk.storage = objectsAfter x.2.current
  running : ∀ sv ∈ x.1.server, sv.m_fs_objects_table.table = objectsIn x.1.disk.storage

theorem Archived.numbered {x : Machine × Epochs} (h : Archived x) :
    Numbered x.1.disk x.2.past.length where
  taken := by
    intro k h1 h2
    have hlt : k - 1 < x.2.past.length := by omega
    obtain ⟨db, hdb, -⟩ := h.past (k - 1) _ (List.getElem?_eq_getElem hlt)
    rw [Nat.sub_add_cancel h1] at hdb
    rw [Disk.file_exists, hdb]
    rfl
  free := h.no_other

theorem archived_start {x : Machine × Epochs} (h : Archived x) (uuid : Bytes → Uuid)
    (cfg : parsed_config) {m : Machine} (hm : x.1.start uuid cfg = some m) :
    Archived (m, if any_users_changed (db_users_of (usersOf x.1.disk)) cfg.users then
      ⟨x.2.past ++ [(usersOf x.1.disk, x.2.current)], []⟩ else x.2) := by
  simp only [Machine.start, Option.map_eq_some_iff] at hm
  obtain ⟨d, hd, rfl⟩ := hm
  cases hc : any_users_changed (db_users_of (usersOf x.1.disk)) cfg.users with
  | false =>
    obtain ⟨d', hd', -, hobjects, hothers⟩ := @main_of_unchanged uuid _ _ hc
    obtain rfl := Option.some.inj (hd.symm.trans hd')
    rw [if_neg Bool.false_ne_true]
    refine ⟨fun i epoch hi => ?_, fun k hk => ?_, hobjects.trans h.current, ?_⟩
    · simp only [hothers _ (old_storage_ne (i + 1))]
      exact h.past i epoch hi
    · simp only [hothers _ (old_storage_ne k)]
      exact h.no_other k hk
    · rintro sv ⟨⟩
      rfl
  | true =>
    obtain ⟨d', hd', -, hobjects, hothers⟩ := @main_of_changed uuid _ _ _ h.numbered hc
    obtain rfl := Option.some.inj (hd.symm.trans hd')
    rw [if_pos rfl]
    refine ⟨fun i epoch hi => ?_, fun k hk => ?_, hobjects, ?_⟩
    · simp only [hothers _ (old_storage_ne (i + 1))]
      by_cases hlast : i = x.2.past.length
      · subst hlast
        simp only [List.getElem?_concat_length, Option.some.injEq] at hi
        subst hi
        refine ⟨initialize_users x.1.disk.storage, if_pos rfl, rfl, h.current⟩
      · have hne : old_storage (i + 1) ≠ old_storage (x.2.past.length + 1) := by
          intro he
          have := old_storage_inj he
          omega
        rw [if_neg hne]
        have hlt : i < x.2.past.length := by
          have := (List.getElem?_eq_some_iff.mp hi).1
          simp only [List.length_append, List.length_singleton] at this
          omega
        rw [List.getElem?_append_left hlt] at hi
        exact h.past i epoch hi
    · simp only [List.length_append, List.length_singleton] at hk
      have hne : old_storage k ≠ old_storage (x.2.past.length + 1) := by
        intro he
        have := old_storage_inj he
        omega
      simp only [hothers _ (old_storage_ne k), if_neg hne]
      exact h.no_other k (by omega)
    · rintro sv ⟨⟩
      rfl

/-- An event of the server makes its call in the database of today. -/
theorem archived_serve {x : Machine × Epochs} (h : Archived x) {sv sv' : Server} {e : ServerEvent}
    (hrun : x.1.server = some sv) (hs : sv.step e = some sv') :
    Archived (x.1.save sv', { x.2 with current := x.2.current ++ (sv.callOf e).toList }) := by
  have hread : ∀ name, name ≠ STORAGE → (x.1.save sv').disk.read name = x.1.disk.read name := by
    intro name hname
    rw [Machine.save, Disk.read_write, if_neg hname]
  have hstored : objectsIn (x.1.save sv').disk.storage = sv'.m_fs_objects_table.table := by
    rw [Machine.save, Disk.storage_write]
    rfl
  have htable : sv'.m_fs_objects_table.table =
      objectsAfter (x.2.current ++ (sv.callOf e).toList) := by
    rw [objectsAfter, after_append, after_toList, Server.table_of_step hs]
    have hsame : sv.m_fs_objects_table.table = (after Store.empty x.2.current).table :=
      (h.running sv hrun).trans h.current
    cases sv.callOf e with
    | none => exact hsame
    | some o => exact apply_table_congr hsame o
  refine ⟨fun i epoch hi => ?_, fun k hk => ?_, hstored.trans htable, ?_⟩
  · simp only [hread _ (old_storage_ne (i + 1))]
    exact h.past i epoch hi
  · simp only [hread _ (old_storage_ne k)]
    exact h.no_other k hk
  · rintro sv₂ ⟨⟩
    exact hstored.symm

theorem archived_step {x x' : Machine × Epochs} {c : Change} (h : Archived x)
    (hs : recorded x c = some x') : Archived x' := by
  simp only [recorded, Option.map_eq_some_iff] at hs
  obtain ⟨m, hm, rfl⟩ := hs
  cases c with
  | start uuid file =>
    simp only [step, Option.ite_none_left_eq_some] at hm
    obtain ⟨-, hm⟩ := hm
    simp only [Epochs.follow]
    cases hr : read_json_config file with
    | error e =>
      simp only [hr, Option.some.injEq] at hm
      subst hm
      exact h
    | ok cfg =>
      simp only [hr] at hm
      exact archived_start h uuid cfg hm
  | serve e =>
    simp only [step, Option.bind_eq_some_iff, Option.map_eq_some_iff] at hm
    obtain ⟨sv, hrun, sv', hs, rfl⟩ := hm
    have hnext := archived_serve h hrun hs
    simp only [Epochs.follow, hrun, Option.bind_some]
    exact hnext
  | stop =>
    simp only [step, Option.some.injEq] at hm
    subst hm
    exact ⟨h.past, h.no_other, h.current, fun sv hsv => nomatch hsv⟩

theorem archived_new : Archived (Machine.new, Epochs.new) where
  past := fun i epoch hi => by simp [Epochs.new] at hi
  no_other := fun _ _ => rfl
  current := rfl
  running := fun sv hsv => nomatch hsv

/-- Over any number of lifetimes from an empty data directory, with any configurations, any events of
any sessions and any stops: the k-th backup has the users and the objects of the k-th epoch, so what
its calls left, there is no other backup, and the database has what the calls since then left. No
start and no stop loses or changes an object. -/
theorem the_data_directory_is_the_archive_of_its_epochs (changes : List Change) :
    runs.Along recorded (fun _ _ x' => Archived x') (Machine.new, Epochs.new) changes :=
  runs.along_of_kept (J := Archived)
    (fun _ _ _ h hs => ⟨archived_step h hs, archived_step h hs⟩) archived_new changes

/-! ## One configuration -/

/-- The loop over the configured users keeps the rows that there are. -/
theorem mem_create_users_of_mem {uuid : Bytes → Uuid} {t : users.Table} {config_users : UserMap}
    {r : users.Row} (h : r ∈ t.rows) : r ∈ (create_users uuid t config_users).rows := by
  unfold create_users
  induction config_users.entries generalizing t with
  | nil => exact h
  | cons e entries ih => exact ih (users.mem_insert.mpr (Or.inl h))

/-- Each other row is one of a configured user, whatever ids come. -/
theorem configured_of_mem_create_users {uuid : Bytes → Uuid} {t : users.Table}
    {config_users : UserMap} {r : users.Row} (h : r ∈ (create_users uuid t config_users).rows) :
    r ∈ t.rows ∨ (r.name, r.password) ∈ config_users.entries := by
  unfold create_users at h
  generalize config_users.entries = entries at h ⊢
  induction entries generalizing t with
  | nil => exact Or.inl h
  | cons e entries ih =>
    rcases ih h with h | h
    · rcases users.mem_insert.mp h with h | ⟨rfl, -⟩
      · exact Or.inl h
      · exact Or.inr List.mem_cons_self
    · exact Or.inr (List.mem_cons_of_mem _ h)

/-- A start of this change has the configured users, in whatever order its map has them. -/
def Configures (config_users : UserMap) : Change → Prop
  | .start _ file => ∀ cfg, read_json_config file = .ok cfg →
    ∀ name, cfg.users.find name = config_users.find name
  | .serve _ => True
  | .stop => True

/-- The first epoch is the only one, and every stored user is configured. -/
structure OneEpoch (config_users : UserMap) (x : Machine × Epochs) : Prop where
  archived : Archived x
  past : x.2.past = []
  users : ∀ r ∈ (usersOf x.1.disk).rows, (r.name, r.password) ∈ config_users.entries

theorem any_users_changed_congr {config_users config_users' : UserMap} (db_users : UserMap)
    (h : ∀ name, config_users.find name = config_users'.find name) :
    any_users_changed db_users config_users = any_users_changed db_users config_users' := by
  unfold any_users_changed
  simp only [h]

/-- A configuration of texts with no NUL reads back as it was. -/
theorem not_changed_of_oneEpoch {config_users : UserMap} {x : Machine × Epochs}
    (h : OneEpoch config_users x)
    (hnul : ∀ e ∈ config_users.entries, c_str e.1 = e.1 ∧ c_str e.2 = e.2) :
    any_users_changed (db_users_of (usersOf x.1.disk)) config_users = false := by
  rw [any_users_changed_eq_false_iff,
    configuredAsRead_iff_of_no_nul (fun r hr => hnul _ (h.users r hr))]
  exact fun r hr => UserMap.find_eq_some_iff.mpr (h.users r hr)

theorem oneEpoch_step {config_users : UserMap} {x x' : Machine × Epochs} {c : Change}
    (hnul : ∀ e ∈ config_users.entries, c_str e.1 = e.1 ∧ c_str e.2 = e.2)
    (h : OneEpoch config_users x) (hs : recorded x c = some x') (hc : Configures config_users c) :
    OneEpoch config_users x' ∧
      ∀ r ∈ (usersOf x.1.disk).rows, r ∈ (usersOf x'.1.disk).rows := by
  have harchived := archived_step h.archived hs
  simp only [recorded, Option.map_eq_some_iff] at hs
  obtain ⟨m, hm, rfl⟩ := hs
  cases c with
  | start uuid file =>
    simp only [step, Option.ite_none_left_eq_some] at hm
    obtain ⟨-, hm⟩ := hm
    cases hr : read_json_config file with
    | error e =>
      simp only [hr, Option.some.injEq] at hm
      subst hm
      simp only [Epochs.follow, hr] at harchived ⊢
      exact ⟨⟨harchived, h.past, h.users⟩, fun r hr => hr⟩
    | ok cfg =>
      have hsame := not_changed_of_oneEpoch h hnul
      rw [← any_users_changed_congr _ (hc cfg hr)] at hsame
      simp only [Epochs.follow, hr, hsame, if_neg Bool.false_ne_true] at harchived ⊢
      simp only [hr, Machine.start, Option.map_eq_some_iff] at hm
      obtain ⟨d, hd, rfl⟩ := hm
      obtain ⟨d', hd', husers, -⟩ := @main_of_unchanged uuid _ _ hsame
      obtain rfl := Option.some.inj (hd.symm.trans hd')
      refine ⟨⟨harchived, h.past, fun r hr' => ?_⟩, fun r hr' => ?_⟩
      · change r ∈ (usersOf d).rows at hr'
        rw [husers] at hr'
        rcases configured_of_mem_create_users hr' with hr' | hr'
        · exact h.users r hr'
        · rw [← UserMap.find_eq_some_iff, ← hc cfg hr]
          exact UserMap.find_eq_some_iff.mpr hr'
      · change r ∈ (usersOf d).rows
        rw [husers]
        exact mem_create_users_of_mem hr'
  | serve e =>
    simp only [step, Option.bind_eq_some_iff, Option.map_eq_some_iff] at hm
    obtain ⟨sv, hrun, sv', -, rfl⟩ := hm
    have husers : usersOf (x.1.save sv').disk = usersOf x.1.disk := by
      rw [Machine.save, usersOf, Disk.storage_write]
      rfl
    refine ⟨⟨harchived, h.past, ?_⟩, ?_⟩
    · simp only [husers]
      exact h.users
    · simp only [husers]
      exact fun r hr => hr
  | stop =>
    simp only [step, Option.some.injEq] at hm
    subst hm
    exact ⟨⟨harchived, h.past, h.users⟩, fun r hr => hr⟩

/-- Over any number of lifetimes that start with the same users, of names and passwords with no NUL:
no database is put aside, every user keeps its row and so its id, and the objects are what all the
calls of all lifetimes left. -/
theorem restarts_with_one_configuration_lose_nothing (config_users : UserMap)
    (hnul : ∀ e ∈ config_users.entries, c_str e.1 = e.1 ∧ c_str e.2 = e.2)
    (changes : List Change) (hone : ∀ c ∈ changes, Configures config_users c) :
    runs.Along recorded (fun x _ x' => x'.2.past = [] ∧
      objectsIn x'.1.disk.storage = objectsAfter x'.2.current ∧
      ∀ r ∈ (usersOf x.1.disk).rows, r ∈ (usersOf x'.1.disk).rows)
      (Machine.new, Epochs.new) changes := by
  have hok : runs.Along recorded (fun _ c _ => Configures config_users c)
      (Machine.new, Epochs.new) changes := runs.along_of_forall fun c hc _ _ => hone c hc
  refine runs.along_of_invariant (J := OneEpoch config_users) ?_ ⟨archived_new, rfl, ?_⟩ hok
  · intro x c x' h hs hc
    obtain ⟨hnext, hrows⟩ := oneEpoch_step hnul h hs hc
    exact ⟨⟨hnext.past, hnext.archived.current, hrows⟩, hnext⟩
  · exact fun r hr => absurd hr List.not_mem_nil

/-- A configuration with these users. -/
def usersFile (config_users : List (Bytes × Bytes)) : ConfigFile :=
  .parsed (.object [(lit "users", .array (config_users.map fun u =>
    .object [(lit "name", .string u.1), (lit "password", .string u.2)]))])

/-- Two lifetimes, the second with the users in the other order. Each makes a directory. -/
def twoLifetimes : List Change :=
  [.start (fun name => .ofRand name.head!.toNat)
      (usersFile [(lit "ann", lit "pw1"), (lit "bob", lit "pw2")]),
    .serve (.connected 0 0),
    .serve (.session 0 (clientLine "USER ann").1 (clientLine "USER ann").2),
    .serve (.session 0 (clientLine "PASS pw1").1 (clientLine "PASS pw1").2),
    .serve (.session 0 (Env.working 1) (clientLine "MKD v").2), .stop,
    .start (fun name => .ofRand (name.head!.toNat + 2))
      (usersFile [(lit "bob", lit "pw2"), (lit "ann", lit "pw1")]),
    .serve (.connected 0 0),
    .serve (.session 0 (clientLine "USER bob").1 (clientLine "USER bob").2),
    .serve (.session 0 (clientLine "PASS pw2").1 (clientLine "PASS pw2").2),
    .serve (.session 0 (Env.working 2) (clientLine "MKD w").2)]

/-- The law at two lifetimes, whose two directories are there at the end. -/
theorem restarts_with_the_users_in_another_order_lose_nothing :
    ((runs.run recorded (Machine.new, Epochs.new) twoLifetimes).map fun x =>
      (objectsIn x.1.disk.storage).rows.map fun r => r.name) = some [lit "v", lit "w"] ∧
    runs.Along recorded (fun x _ x' => x'.2.past = [] ∧
      objectsIn x'.1.disk.storage = objectsAfter x'.2.current ∧
      ∀ r ∈ (usersOf x.1.disk).rows, r ∈ (usersOf x'.1.disk).rows)
      (Machine.new, Epochs.new) twoLifetimes := by
  refine ⟨by decide +kernel, restarts_with_one_configuration_lose_nothing
    ((UserMap.empty.assign (lit "ann") (lit "pw1")).assign (lit "bob") (lit "pw2"))
    (by decide) twoLifetimes ?_⟩
  intro c hc
  simp only [twoLifetimes, List.mem_cons, List.not_mem_nil, or_false] at hc
  rcases hc with rfl | rfl | rfl | rfl | rfl | rfl | rfl | rfl | rfl | rfl | rfl
  · rintro cfg ⟨⟩ name
    rfl
  iterate 5 trivial
  · rintro cfg ⟨⟩ name
    exact UserMap.find_assign_comm UserMap.empty (by decide) name
  iterate 4 trivial

end asio_ftp.lifetimes
