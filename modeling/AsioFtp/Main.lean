-- The start of the server (src/main.cpp): the users of the configuration become the users of the
-- database, and a database with other users is put aside first.
import AsioFtp.FsObjects
import AsioFtp.Users
import AsioFtp.Lib.Members

namespace asio_ftp.main

open helpers sqlite_wrapper members

/-! ## The files -/

/-- A SQLite database, with the tables that were made in it. -/
structure Database where
  users : Option users.Table
  fs_objects : Option fs_objects.Table

def Database.new : Database := ⟨none, none⟩

/-- The database files of the data directory, by their names. -/
structure Disk where
  files : List (Bytes × Database)

def STORAGE : Bytes := lit "data/storage.db"

def old_storage (i : Nat) : Bytes := lit "data/old_storage" ++ to_string i ++ lit ".db"

namespace Disk

def read (d : Disk) (name : Bytes) : Option Database := d.files.lookup name

def file_exists (d : Disk) (name : Bytes) : Bool := (d.read name).isSome

def write (d : Disk) (name : Bytes) (db : Database) : Disk :=
  ⟨(name, db) :: d.files.filter (fun f => f.1 ≠ name)⟩

/-- The new name loses what it named before. -/
def rename_file (d : Disk) (path_to_file new_path_to_file : Bytes) : Disk :=
  match d.read path_to_file with
  | none => d
  | some db => Disk.write ⟨d.files.filter (fun f => f.1 ≠ path_to_file)⟩ new_path_to_file db

/-- The database of a connection: SQLite makes the file that is not there. -/
def storage (d : Disk) : Database := (d.read STORAGE).getD Database.new

def init_sql_db (d : Disk) : Disk := d.write STORAGE d.storage

end Disk

/-! ## The users -/

/-- A `std::map<std::string, std::string>`, with its entries in any order. -/
structure UserMap where
  entries : List (Bytes × Bytes)
  distinct : (entries.map Prod.fst).Nodup

namespace UserMap

def empty : UserMap := ⟨[], List.nodup_nil⟩

def find (m : UserMap) (name : Bytes) : Option Bytes := m.entries.lookup name

/-- `map[name] = password`. -/
def assign (m : UserMap) (name password : Bytes) : UserMap where
  entries := m.entries.filter (fun e => e.1 ≠ name) ++ [(name, password)]
  distinct := nodup_map_snoc (m.distinct.sublist (List.filter_sublist.map _)) (fun e he => by
    simpa using (List.mem_filter.mp he).2)

end UserMap

def any_users_changed (db_users config_users : UserMap) : Bool :=
  db_users.entries.any fun (db_user_name, db_user_password) =>
    match config_users.find db_user_name with
    | none => true
    | some password => decide (password ≠ db_user_password)

/-- `users::initialize`, which makes the table that is not there. -/
def initialize_users (db : Database) : Database :=
  { db with users := some (db.users.getD users.Table.empty) }

/-- The users that the first block of `init_user_table` reads. -/
def db_users_of (t : users.Table) : UserMap :=
  (users.get_all_user_credentials t).foldl (fun m u => m.assign u.name u.password) .empty

/-- The search for a name from `i` on. One of as many names as there are files, and one more, is
free. -/
def backupLoop (d : Disk) : Nat → Nat → Option Nat
  | 0, _ => none
  | fuel + 1, i => if d.file_exists (old_storage i) then backupLoop d fuel (i + 1) else some i

/-- The backup of the database and the new one. -/
def put_aside (d : Disk) : Option Disk :=
  (backupLoop d (d.files.length + 1) 1).map fun i =>
    (d.rename_file STORAGE (old_storage i)).init_sql_db

/-- The loop over `cfg.users`. The value `uuid name` is what `generate_uuid_string(64)` gives in the
turn of this name. -/
def create_users (uuid : Bytes → Uuid) (t : users.Table) (config_users : UserMap) : users.Table :=
  config_users.entries.foldl (fun t e => users.create_user t (uuid e.1) e.1 e.2) t

def init_user_table (uuid : Bytes → Uuid) (d : Disk) (config_users : UserMap) : Option Disk :=
  let d := d.write STORAGE (initialize_users d.storage)
  let db_users := db_users_of (d.storage.users.getD users.Table.empty)
  let d := if any_users_changed db_users config_users then put_aside d else some d
  d.map fun d =>
    let db := initialize_users d.storage
    d.write STORAGE { db with
      users := some (create_users uuid (db.users.getD users.Table.empty) config_users) }

/-! ## What the files hold -/

namespace Disk

@[simp] theorem read_write (d : Disk) (n m : Bytes) (db : Database) :
    (d.write n db).read m = if m = n then some db else d.read m := by
  unfold read write
  rw [lookup_cons_ite]
  by_cases h : m = n
  · rw [if_pos h, if_pos h]
  · rw [if_neg h, if_neg h]
    exact lookup_filter_ne h

theorem read_rename_file {d : Disk} {a b : Bytes} {db : Database} (h : d.read a = some db)
    (m : Bytes) : (d.rename_file a b).read m =
      if m = b then some db else if m = a then none else d.read m := by
  unfold rename_file
  rw [h]
  simp only [read_write]
  by_cases hb : m = b
  · rw [if_pos hb, if_pos hb]
  · rw [if_neg hb, if_neg hb]
    by_cases ha : m = a
    · rw [if_pos ha, ha]
      exact lookup_filter_self
    · rw [if_neg ha]
      exact lookup_filter_ne ha

@[simp] theorem storage_write (d : Disk) (db : Database) : (d.write STORAGE db).storage = db := by
  simp [storage]

end Disk

/-! ## The search for a free name -/

theorem old_storage_inj {i j : Nat} (h : old_storage i = old_storage j) : i = j := by
  have hs : to_string (i : Int) = to_string (j : Int) := by simpa [old_storage] using h
  have hi := congrArg stoll hs
  rw [stoll_to_string, stoll_to_string] at hi
  exact_mod_cast hi

theorem old_storage_ne (i : Nat) : old_storage i ≠ STORAGE := by
  intro h
  have h5 : (some 111 : Option UInt8) = some 115 := congrArg (fun b : Bytes => b[5]?) h
  exact absurd h5 (by decide)

/-- The search ends at a free name, or finds that the names on its way are all taken. -/
theorem backupLoop_cases (d : Disk) (fuel i : Nat) :
    (∃ j, backupLoop d fuel i = some j ∧ d.file_exists (old_storage j) = false) ∨
      backupLoop d fuel i = none ∧ ∀ k < fuel, d.file_exists (old_storage (i + k)) = true := by
  induction fuel generalizing i with
  | zero => exact Or.inr ⟨rfl, fun k hk => absurd hk (Nat.not_lt_zero k)⟩
  | succ fuel ih =>
    unfold backupLoop
    cases he : d.file_exists (old_storage i) with
    | false => exact Or.inl ⟨i, rfl, he⟩
    | true =>
      rw [if_pos rfl]
      refine (ih (i + 1)).imp_right fun ⟨hnone, htaken⟩ => ⟨hnone, ?_⟩
      intro k hk
      cases k with
      | zero => exact he
      | succ k =>
        have := htaken k (by omega)
        rwa [Nat.add_assoc, Nat.add_comm 1 k] at this

/-- There are fewer files than names, so the search ends. -/
theorem exists_free_name (d : Disk) : ∃ i, backupLoop d (d.files.length + 1) 1 = some i ∧
    d.read (old_storage i) = none := by
  rcases backupLoop_cases d (d.files.length + 1) 1 with ⟨i, hi, hfree⟩ | ⟨-, htaken⟩
  · exact ⟨i, hi, by simpa [Disk.file_exists] using hfree⟩
  · exfalso
    let names := (List.range (d.files.length + 1)).map (fun k => old_storage (1 + k))
    have hnodup : names.Nodup := by
      refine List.nodup_range.map ?_
      intro a b hab
      have := old_storage_inj hab
      omega
    have hsub : names ⊆ d.files.map Prod.fst := by
      intro n hn
      obtain ⟨k, hk, rfl⟩ := List.mem_map.mp hn
      have hex := htaken k (List.mem_range.mp hk)
      by_contra hno
      have hnone : d.read (old_storage (1 + k)) = none := by
        rw [Disk.read, List.lookup_eq_none_iff]
        intro f hf
        have hne : old_storage (1 + k) ≠ f.1 := fun h => hno (h ▸ List.mem_map_of_mem hf)
        simpa using hne
      rw [Disk.file_exists, hnone] at hex
      cases hex
    have hle := (hnodup.subperm hsub).length_le
    simp [names] at hle

/-- The database is kept under a free name, and a new one takes its place. -/
theorem put_aside_of_read {d : Disk} {db : Database} (h : d.read STORAGE = some db) :
    ∃ d' i, put_aside d = some d' ∧ d.read (old_storage i) = none ∧ d'.storage = Database.new ∧
      ∀ name, name ≠ STORAGE →
        d'.read name = if name = old_storage i then some db else d.read name := by
  obtain ⟨i, hi, hfree⟩ := exists_free_name d
  have hrename := Disk.read_rename_file (b := old_storage i) h
  have hnew : (d.rename_file STORAGE (old_storage i)).storage = Database.new := by
    unfold Disk.storage
    rw [hrename, if_neg (old_storage_ne i).symm, if_pos rfl]
    rfl
  refine ⟨(d.rename_file STORAGE (old_storage i)).init_sql_db, i, ?_, hfree, ?_, ?_⟩
  · unfold put_aside
    rw [hi]
    rfl
  · unfold Disk.init_sql_db
    rw [Disk.storage_write, hnew]
  · intro name hname
    rw [Disk.init_sql_db, Disk.read_write, if_neg hname, hrename, if_neg hname]

/-! ## The new users -/

/-- The ids of the new users are new, and no two of them are the same. -/
structure Fresh (uuid : Bytes → Uuid) (t : users.Table) (config_users : UserMap) : Prop where
  rows : ∀ e ∈ config_users.entries, ∀ r ∈ t.rows, r.user_id.val ≠ (uuid e.1).val
  distinct : ∀ e ∈ config_users.entries, ∀ f ∈ config_users.entries,
    (uuid e.1).val = (uuid f.1).val → e.1 = f.1

theorem UserMap.find_eq_some_iff {m : UserMap} {name password : Bytes} :
    m.find name = some password ↔ (name, password) ∈ m.entries :=
  lookup_eq_some_iff m.distinct

/-- The new table has the rows of the old one, and a new row for each name that has none. -/
theorem mem_create_users {uuid : Bytes → Uuid} {t : users.Table} {config_users : UserMap}
    (h : Fresh uuid t config_users) {r : users.Row} :
    r ∈ (create_users uuid t config_users).rows ↔ r ∈ t.rows ∨
      (∃ e ∈ config_users.entries, r = ⟨uuid e.1, e.1, e.2⟩) ∧ ∀ x ∈ t.rows, x.name ≠ r.name := by
  obtain ⟨entries, hdistinct⟩ := config_users
  unfold create_users
  induction entries generalizing t with
  | nil => simp
  | cons e entries ih =>
    obtain ⟨hnew, hrest⟩ := List.nodup_cons.mp hdistinct
    have hne : ∀ f ∈ entries, e.1 ≠ f.1 := fun f hf he => hnew (he ▸ List.mem_map_of_mem hf)
    have hconf : t.Conflicts ⟨uuid e.1, e.1, e.2⟩ ↔ ∃ x ∈ t.rows, x.name = e.1 := by
      refine exists_congr (fun x => and_congr_right (fun hx => ?_))
      exact or_iff_right (h.rows e List.mem_cons_self x hx)
    have hnext : Fresh uuid (users.create_user t (uuid e.1) e.1 e.2) ⟨entries, hrest⟩ := by
      constructor
      · intro f hf x hx
        rcases users.mem_insert.mp hx with hx | ⟨rfl, -⟩
        · exact h.rows f (List.mem_cons_of_mem _ hf) x hx
        · exact fun heq =>
            hne f hf (h.distinct e List.mem_cons_self f (List.mem_cons_of_mem _ hf) heq)
      · exact fun f hf g hg =>
          h.distinct f (List.mem_cons_of_mem _ hf) g (List.mem_cons_of_mem _ hg)
    rw [List.foldl_cons, ih hrest hnext]
    constructor
    · rintro (hr | ⟨⟨f, hf, rfl⟩, hnames⟩)
      · rcases users.mem_insert.mp hr with hr | ⟨rfl, hno⟩
        · exact Or.inl hr
        · exact Or.inr ⟨⟨e, List.mem_cons_self, rfl⟩, fun x hx hn => hno (hconf.mpr ⟨x, hx, hn⟩)⟩
      · exact Or.inr ⟨⟨f, List.mem_cons_of_mem _ hf, rfl⟩,
          fun x hx => hnames x (users.mem_insert.mpr (Or.inl hx))⟩
    · rintro (hr | ⟨⟨f, hf, rfl⟩, hnames⟩)
      · exact Or.inl (users.mem_insert.mpr (Or.inl hr))
      · rcases List.mem_cons.mp hf with rfl | hf
        · refine Or.inl (users.mem_insert.mpr (Or.inr ⟨rfl, fun hc => ?_⟩))
          obtain ⟨x, hx, hn⟩ := hconf.mp hc
          exact hnames x hx hn
        · refine Or.inr ⟨⟨f, hf, rfl⟩, fun x hx => ?_⟩
          rcases users.mem_insert.mp hx with hx | ⟨rfl, -⟩
          · exact hnames x hx
          · exact hne f hf

/-! ## The law -/

def usersOf (d : Disk) : users.Table := d.storage.users.getD users.Table.empty

/-- Every stored user is configured with its password. -/
def Configured (t : users.Table) (config_users : UserMap) : Prop :=
  ∀ r ∈ t.rows, config_users.find r.name = some r.password

/-- The same, of the names and the passwords up to their first NUL. Of the rows that have one name
then, the last one counts. -/
def ConfiguredAsRead (t : users.Table) (config_users : UserMap) : Prop :=
  ∀ name r, t.rows.reverse.find? (fun x => decide (c_str x.name = name)) = some r →
    config_users.find name = some (c_str r.password)

structure Reconciled (d : Disk) (config_users : UserMap) (d' : Disk) : Prop where
  /-- The users are the configured ones. -/
  users : ∀ name password, (∃ r ∈ (usersOf d').rows, r.name = name ∧ r.password = password) ↔
    config_users.find name = some password
  /-- When the stored users are configured, their rows and the objects stay. -/
  kept : Configured (usersOf d) config_users →
    (∀ r ∈ (usersOf d).rows, r ∈ (usersOf d').rows) ∧ d'.storage.fs_objects = d.storage.fs_objects
  /-- When they are not, the database is kept under a new name. -/
  backup : ¬ Configured (usersOf d) config_users → ∃ i, d.read (old_storage i) = none ∧
    d'.read (old_storage i) = some d.storage
  /-- No other file is overwritten. -/
  others : ∀ name db, name ≠ STORAGE → d.read name = some db → d'.read name = some db

theorem UserMap.find_assign (m : UserMap) (n password name : Bytes) :
    (m.assign n password).find name = if name = n then some password else m.find name := by
  unfold find assign
  simp only
  rw [List.lookup_append]
  by_cases h : name = n
  · rw [h, lookup_filter_self, if_pos rfl]
    simp
  · rw [lookup_filter_ne h, if_neg h, lookup_cons_ite, if_neg h]
    exact Option.or_none

theorem UserMap.find_assign_comm (m : UserMap) {n n' p p' : Bytes} (h : n ≠ n') (name : Bytes) :
    ((m.assign n p).assign n' p').find name = ((m.assign n' p').assign n p).find name := by
  simp only [UserMap.find_assign]
  by_cases hn : name = n
  · rw [if_pos hn, if_neg (hn ▸ h), if_pos hn]
  · rw [if_neg hn, if_neg hn]

/-- Of the users with one name, the loop keeps the password of the last. -/
theorem find_foldl_assign {α : Type} (name_of password_of : α → Bytes) (us : List α) (m : UserMap)
    (name : Bytes) : (us.foldl (fun m u => m.assign (name_of u) (password_of u)) m).find name =
      ((us.reverse.find? (fun u => decide (name_of u = name))).map password_of).or
        (m.find name) := by
  induction us generalizing m with
  | nil => rfl
  | cons u us ih =>
    rw [List.foldl_cons, ih, UserMap.find_assign, List.reverse_cons, List.find?_append]
    cases us.reverse.find? (fun u => decide (name_of u = name)) with
    | some x => rfl
    | none =>
      by_cases h : name_of u = name
      · simp [h]
      · simp [h, Ne.symm h]

theorem find_db_users_of (t : users.Table) (name : Bytes) : (db_users_of t).find name =
    (t.rows.reverse.find? (fun r => decide (c_str r.name = name))).map
      (fun r => c_str r.password) := by
  unfold db_users_of
  rw [find_foldl_assign users.user.name users.user.password, users.get_all_user_credentials_eq,
    ← List.map_reverse, List.find?_map, Option.map_map]
  exact Option.or_none

theorem any_users_changed_eq_false_iff {t : users.Table} {config_users : UserMap} :
    any_users_changed (db_users_of t) config_users = false ↔ ConfiguredAsRead t config_users := by
  have hentries : any_users_changed (db_users_of t) config_users = false ↔
      ∀ name password, (db_users_of t).find name = some password →
        config_users.find name = some password := by
    unfold any_users_changed
    rw [List.any_eq_false]
    simp only [UserMap.find_eq_some_iff (m := db_users_of t), Prod.forall]
    refine forall_congr' (fun name => forall_congr' (fun stored => imp_congr_right (fun _ => ?_)))
    cases config_users.find name <;> simp
  rw [hentries]
  simp only [find_db_users_of, Option.map_eq_some_iff]
  constructor
  · intro h name r hr
    exact h name _ ⟨r, hr, rfl⟩
  · rintro h name _ ⟨r, hr, rfl⟩
    exact h name r hr

theorem last_read {t : users.Table} {name : Bytes} {r : users.Row}
    (h : t.rows.reverse.find? (fun x => decide (c_str x.name = name)) = some r) :
    r ∈ t.rows ∧ c_str r.name = name := by
  have hname := List.find?_some h
  exact ⟨List.mem_reverse.mp (List.mem_of_find?_eq_some h), by simpa using hname⟩

/-- Texts with no NUL read back as they are. -/
theorem configuredAsRead_iff_of_no_nul {t : users.Table} {config_users : UserMap}
    (h : ∀ r ∈ t.rows, c_str r.name = r.name ∧ c_str r.password = r.password) :
    ConfiguredAsRead t config_users ↔ Configured t config_users := by
  constructor
  · intro hread r hr
    cases hf : t.rows.reverse.find? (fun x => decide (c_str x.name = r.name)) with
    | none =>
      have hno := List.find?_eq_none.mp hf r (List.mem_reverse.mpr hr)
      exact absurd (decide_eq_true (h r hr).1) hno
    | some x =>
      obtain ⟨hx, hname⟩ := last_read hf
      obtain rfl := t.eq_of_name hx hr ((h x hx).1.symm.trans hname)
      rw [hread _ x hf, (h x hx).2]
  · intro hconf name r hf
    obtain ⟨hr, hname⟩ := last_read hf
    rw [← hname, (h r hr).1, (h r hr).2]
    exact hconf r hr

/-- After the loop, a name has the password that it had before, or else the configured one. -/
theorem create_users_iff {uuid : Bytes → Uuid} {t : users.Table} {config_users : UserMap}
    (hfresh : Fresh uuid t config_users) (name password : Bytes) :
    (∃ r ∈ (create_users uuid t config_users).rows, r.name = name ∧ r.password = password) ↔
      (∃ r ∈ t.rows, r.name = name ∧ r.password = password) ∨
        (config_users.find name = some password ∧ ∀ r ∈ t.rows, r.name ≠ name) := by
  constructor
  · rintro ⟨r, hr, rfl, rfl⟩
    rcases (mem_create_users hfresh).mp hr with hr | ⟨⟨e, he, rfl⟩, hno⟩
    · exact Or.inl ⟨r, hr, rfl, rfl⟩
    · exact Or.inr ⟨UserMap.find_eq_some_iff.mpr he, hno⟩
  · rintro (⟨r, hr, hn⟩ | ⟨hf, hno⟩)
    · exact ⟨r, (mem_create_users hfresh).mpr (Or.inl hr), hn⟩
    · exact ⟨⟨uuid name, name, password⟩, (mem_create_users hfresh).mpr
        (Or.inr ⟨⟨_, UserMap.find_eq_some_iff.mp hf, rfl⟩, hno⟩), rfl, rfl⟩

/-- The loop over the configured users gives exactly these when the rows before it are configured,
and only then. -/
theorem create_users_exact_iff {uuid : Bytes → Uuid} {t : users.Table} {config_users : UserMap}
    (hfresh : Fresh uuid t config_users) :
    (∀ name password, (∃ r ∈ (create_users uuid t config_users).rows,
      r.name = name ∧ r.password = password) ↔ config_users.find name = some password) ↔
      Configured t config_users := by
  simp only [create_users_iff hfresh]
  constructor
  · intro h r hr
    exact (h r.name r.password).mp (Or.inl ⟨r, hr, rfl, rfl⟩)
  · intro hconf name password
    constructor
    · rintro (⟨r, hr, rfl, rfl⟩ | ⟨hf, -⟩)
      · exact hconf r hr
      · exact hf
    · intro hf
      by_cases hex : ∃ r ∈ t.rows, r.name = name
      · obtain ⟨r, hr, rfl⟩ := hex
        have hp := (hconf r hr).symm.trans hf
        exact Or.inl ⟨r, hr, rfl, Option.some.inj hp⟩
      · exact Or.inr ⟨hf, fun r hr hn => hex ⟨r, hr, hn⟩⟩

section
variable {uuid : Bytes → Uuid} {d : Disk} {config_users : UserMap}

/-- A database with the configured users stays. -/
theorem init_user_table_unchanged (h : ConfiguredAsRead (usersOf d) config_users) :
    ∃ d', init_user_table uuid d config_users = some d' ∧
      d'.storage.users = some (create_users uuid (usersOf d) config_users) ∧
      d'.storage.fs_objects = d.storage.fs_objects ∧
      ∀ name, name ≠ STORAGE → d'.read name = d.read name := by
  have hsame := any_users_changed_eq_false_iff.mpr h
  refine ⟨(d.write STORAGE (initialize_users d.storage)).write STORAGE
    { initialize_users d.storage with
      users := some (create_users uuid (usersOf d) config_users) }, ?_, ?_, ?_, ?_⟩
  · unfold init_user_table
    simp only [Disk.storage_write, initialize_users, Option.getD_some]
    rw [show any_users_changed (db_users_of (d.storage.users.getD users.Table.empty))
      config_users = false from hsame]
    simp only [Bool.false_eq_true, if_false, Option.map_some, Disk.storage_write,
      Option.getD_some]
    rfl
  · simp
  · simp [initialize_users]
  · intro name hname
    simp [hname]

/-- Another one is put aside. -/
theorem init_user_table_changed (h : ¬ ConfiguredAsRead (usersOf d) config_users) :
    ∃ d' i, init_user_table uuid d config_users = some d' ∧
      d'.storage.users = some (create_users uuid users.Table.empty config_users) ∧
      d.read (old_storage i) = none ∧
      (∀ name, name ≠ STORAGE → name ≠ old_storage i → d'.read name = d.read name) ∧
      d'.read (old_storage i) = some d.storage := by
  have hchanged : any_users_changed (db_users_of (usersOf d)) config_users = true := by
    rw [← Bool.not_eq_false, any_users_changed_eq_false_iff]
    exact h
  -- Only a table that is there can hold other users, so the first block makes no table.
  have hinit : initialize_users d.storage = d.storage := by
    rcases hs : d.storage with ⟨stored, fs⟩
    cases stored with
    | some t => rfl
    | none =>
      refine absurd ?_ h
      intro name r hr
      simp [usersOf, hs, users.Table.empty] at hr
  obtain ⟨d₂, i, haside, hfree, hnew, hread⟩ :=
    @put_aside_of_read (d.write STORAGE d.storage) d.storage (by simp)
  have hne : old_storage i ≠ STORAGE := old_storage_ne i
  refine ⟨d₂.write STORAGE { initialize_users d₂.storage with
      users := some (create_users uuid users.Table.empty config_users) }, i, ?_, ?_, ?_, ?_, ?_⟩
  · unfold init_user_table
    simp only [hinit, Disk.storage_write]
    rw [show any_users_changed (db_users_of (d.storage.users.getD users.Table.empty))
      config_users = true from hchanged, if_pos rfl, haside]
    simp only [Option.map_some, hnew, initialize_users, Database.new, Option.getD_some,
      Option.getD_none]
  · simp
  · rw [Disk.read_write, if_neg hne] at hfree
    exact hfree
  · intro name hname hold
    rw [Disk.read_write, if_neg hname, hread name hname, if_neg hold, Disk.read_write,
      if_neg hname]
  · rw [Disk.read_write, if_neg hne, hread _ hne, if_pos rfl]

theorem reconciled_iff_of_unchanged (hfresh : Fresh uuid (usersOf d) config_users)
    (h : ConfiguredAsRead (usersOf d) config_users) :
    ∃ d', init_user_table uuid d config_users = some d' ∧
      (Reconciled d config_users d' ↔ Configured (usersOf d) config_users) := by
  obtain ⟨d', hd', husers, hfs, hothers⟩ := @init_user_table_unchanged uuid _ _ h
  have hof : usersOf d' = create_users uuid (usersOf d) config_users := by
    rw [usersOf, husers, Option.getD_some]
  have hexact := create_users_exact_iff hfresh
  rw [← hof] at hexact
  refine ⟨d', hd', fun hrec => hexact.mp hrec.users, fun hconf => ?_⟩
  refine ⟨hexact.mpr hconf, fun _ => ⟨fun r hr => ?_, hfs⟩, fun hno => absurd hconf hno, ?_⟩
  · rw [hof, mem_create_users hfresh]
    exact Or.inl hr
  · intro name db hname hdb
    rw [hothers name hname, hdb]

theorem reconciled_iff_of_changed (hfresh : Fresh uuid (usersOf d) config_users)
    (h : ¬ ConfiguredAsRead (usersOf d) config_users) :
    ∃ d', init_user_table uuid d config_users = some d' ∧
      (Reconciled d config_users d' ↔ ¬ Configured (usersOf d) config_users) := by
  obtain ⟨d', i, hd', husers, hfree, hothers, hback⟩ := @init_user_table_changed uuid _ _ h
  have hof : usersOf d' = create_users uuid users.Table.empty config_users := by
    rw [usersOf, husers, Option.getD_some]
  have hempty : Fresh uuid users.Table.empty config_users :=
    ⟨fun _ _ r hr => absurd hr List.not_mem_nil, hfresh.distinct⟩
  refine ⟨d', hd', fun hrec hconf => ?_, fun hconf => ?_⟩
  · -- There was a user, and the new table has new ids only.
    have hrows : ∃ r, r ∈ (usersOf d).rows := by
      by_contra hno
      exact h (fun name r hr => absurd ⟨r, (last_read hr).1⟩ hno)
    obtain ⟨r, hr⟩ := hrows
    have hkept := (hrec.kept hconf).1 r hr
    rw [hof, mem_create_users hempty] at hkept
    rcases hkept with hkept | ⟨⟨e, he, rfl⟩, -⟩
    · exact absurd hkept List.not_mem_nil
    · exact hfresh.rows e he _ hr rfl
  · have hexact := (create_users_exact_iff hempty).mpr (fun r hr => absurd hr List.not_mem_nil)
    rw [← hof] at hexact
    refine ⟨hexact, fun hall => absurd hall hconf, fun _ => ⟨i, hfree, hback⟩, ?_⟩
    intro name db hname hdb
    rw [hothers name hname, hdb]
    rintro rfl
    rw [hfree] at hdb
    cases hdb

end

/-- For any stored users and any configuration, with fresh ids: the start makes the configured users
the stored ones, keeps the rows and the objects of users that are all configured, and puts any other
database aside, if and only if the stored users are configured exactly when they are as they read
back. -/
theorem users_are_reconciled_iff_they_read_back (uuid : Bytes → Uuid) (d : Disk)
    (config_users : UserMap) (hfresh : Fresh uuid (usersOf d) config_users) :
    ∃ d', init_user_table uuid d config_users = some d' ∧ (Reconciled d config_users d' ↔
      (ConfiguredAsRead (usersOf d) config_users ↔ Configured (usersOf d) config_users)) := by
  by_cases hread : ConfiguredAsRead (usersOf d) config_users
  · rw [iff_true_left hread]
    exact reconciled_iff_of_unchanged hfresh hread
  · rw [iff_false_left hread]
    exact reconciled_iff_of_changed hfresh hread

/-- Of "ann" and "bob", only "ann" is configured. The start puts the database aside. -/
theorem a_removed_user_is_reconciled :
    ∃ d', init_user_table (fun _ => .ofRand 3) ⟨[(STORAGE, ⟨some .annAndBob, none⟩)]⟩
        ⟨[(lit "ann", lit "pw1")], by decide⟩ = some d' ∧
      Reconciled ⟨[(STORAGE, ⟨some .annAndBob, none⟩)]⟩ ⟨[(lit "ann", lit "pw1")], by decide⟩
        d' := by
  obtain ⟨d', hd', hiff⟩ := users_are_reconciled_iff_they_read_back (fun _ => .ofRand 3)
    ⟨[(STORAGE, ⟨some .annAndBob, none⟩)]⟩ ⟨[(lit "ann", lit "pw1")], by decide⟩
    ⟨by decide, by decide⟩
  exact ⟨d', hd', hiff.mpr (configuredAsRead_iff_of_no_nul (by decide))⟩

/-- The user with the name 'a', NUL, 'b' and the password "p". -/
def nulUser : users.Table where
  rows := [⟨.ofRand 1, [97, 0, 98], lit "p"⟩]
  primary_key := by decide
  unique_name := by decide

/-- The configuration has the stored user, whose name reads back as "a". The database is put aside
all the same. -/
theorem a_user_with_a_NUL_is_put_aside :
    ¬ ∀ (uuid : Bytes → Uuid) (d : Disk) (config_users : UserMap),
      Fresh uuid (usersOf d) config_users →
        ∃ d', init_user_table uuid d config_users = some d' ∧ Reconciled d config_users d' := by
  intro h
  let d : Disk := ⟨[(STORAGE, ⟨some nulUser, none⟩)]⟩
  let config_users : UserMap := ⟨[([97, 0, 98], lit "p")], by decide⟩
  have hfresh : Fresh (fun _ => .ofRand 2) (usersOf d) config_users := ⟨by decide, by decide⟩
  have hconf : Configured (usersOf d) config_users := by
    unfold Configured
    decide
  have hread : ¬ ConfiguredAsRead (usersOf d) config_users := by
    intro hread
    have ha := hread (lit "a") ⟨.ofRand 1, [97, 0, 98], lit "p"⟩ (by rfl)
    exact absurd ha (by decide)
  obtain ⟨d', hd', hrec⟩ := h _ d config_users hfresh
  obtain ⟨d'', hd'', hiff⟩ := reconciled_iff_of_changed hfresh hread
  obtain rfl := Option.some.inj (hd'.symm.trans hd'')
  exact hiff.mp hrec hconf

end asio_ftp.main
