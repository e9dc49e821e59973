-- The checks of the tables (src/database/users.cpp, src/database/fs_objects.cpp). The program makes
-- the table that is not there, and compares the SQL text of one that is with its own.
import AsioFtp.Lifetimes

namespace asio_ftp.schema

open helpers sqlite_wrapper fs_objects main

/-! ## The catalog of a database -/

inductive ObjectType
  | table
  | index
  | view
  | trigger
  deriving DecidableEq

/-- A row of `sqlite_master`. The text `sql` is what SQLite parsed to make the object. The indexes of
its own making have none. -/
structure Master where
  type : ObjectType
  name : Bytes
  sql : Option Bytes
  deriving DecidableEq

inductive TableName
  | users
  | fs_objects
  deriving DecidableEq

namespace TableName

def name : TableName → Bytes
  | users => lit "users"
  | fs_objects => lit "fs_objects"

/-- `USER_TABLE_CREATION_QUERY` and `FS_OBJECTS_TABLE_CREATION_QUERY`. -/
def creation : TableName → Bytes
  | users =>
    lit "CREATE TABLE users (user_id CHAR(64) PRIMARY KEY NOT NULL, name " ++
      lit "VARCHAR(30) UNIQUE NOT NULL, password VARCHAR(255) NOT NULL)"
  | fs_objects =>
    lit "CREATE TABLE fs_objects (object_id CHAR(64) PRIMARY KEY, name VARCHAR(255) NOT NULL, " ++
      lit "path VARCHAR(1024) NOT NULL, size BIGINT NOT NULL, modified_time DATETIME NOT NULL " ++
      lit "DEFAULT CURRENT_TIMESTAMP, is_directory INTEGER NOT NULL, user_id CHAR(64) NOT NULL, " ++
      lit "FOREIGN KEY (user_id) REFERENCES users (user_id), UNIQUE (name, " ++
      lit "path) ON CONFLICT IGNORE)"

/-- The row of the table in `sqlite_master`, when its own query made it. -/
def row (t : TableName) : Master := ⟨.table, t.name, some t.creation⟩

/-- The index of the `i`-th of the two constraints that have one. -/
def autoindex (t : TableName) (i : Nat) : Master :=
  ⟨.index, lit "sqlite_autoindex_" ++ t.name ++ lit "_" ++ to_string i, none⟩

/-- What the creation adds to `sqlite_master`. -/
def rows (t : TableName) : List Master := [t.row, t.autoindex 1, t.autoindex 2]

/-- The database has the table with the rows that the program knows. -/
def inDatabase (db : Database) : TableName → Bool
  | users => db.users.isSome
  | fs_objects => db.fs_objects.isSome

/-- The database with the table, which is empty when it was not there. -/
def make (db : Database) : TableName → Database
  | users => initialize_users db
  | fs_objects => { db with fs_objects := some (db.fs_objects.getD Table.empty) }

end TableName

theorem inDatabase_make (db : Database) (t t' : TableName) :
    t'.inDatabase (t.make db) = true ↔ t'.inDatabase db = true ∨ t' = t := by
  cases t <;> cases t' <;> simp [TableName.inDatabase, TableName.make, initialize_users]

/-- The names of the catalog fold the case of the ASCII letters. -/
def SameName (a b : Bytes) : Prop :=
  a.map (fun c => foldCase c.toNat) = b.map (fun c => foldCase c.toNat)

instance (a b : Bytes) : Decidable (SameName a b) := inferInstanceAs (Decidable (_ = _))

/-- A creation adds no object with the name of the other table. -/
theorem other_rows {t t' : TableName} (h : t ≠ t') :
    ∀ x ∈ t.rows, x.name ≠ t'.name ∧ ¬ SameName x.name t'.name := by
  cases t <;> cases t' <;> first | exact absurd rfl h | decide

/-- The indexes have other names than the tables. -/
theorem autoindex_name (t t' : TableName) :
    (t.autoindex 1).name ≠ t'.name ∧ (t.autoindex 2).name ≠ t'.name := by
  cases t <;> cases t' <;> decide

theorem row_mem_rows_iff {t t' : TableName} : t'.row ∈ t.rows ↔ t' = t := by
  constructor
  · intro h
    by_contra hne
    exact (other_rows (Ne.symm hne) _ h).1 rfl
  · rintro rfl
    exact List.mem_cons_self

/-- A database file. The rows of a table are known if and only if its text is the one of the
program. -/
structure File where
  sqlite_master : List Master
  database : Database
  tables : ∀ t : TableName, t.inDatabase database = true ↔ t.row ∈ sqlite_master

namespace File

def new : File where
  sqlite_master := []
  database := Database.new
  tables := by
    intro t
    cases t <;> simp [TableName.inDatabase, Database.new]

/-- The creation query of a table succeeded. -/
def make (f : File) (t : TableName) : File where
  sqlite_master := f.sqlite_master ++ t.rows
  database := t.make f.database
  tables := by
    intro t'
    rw [inDatabase_make, f.tables, List.mem_append, row_mem_rows_iff]

/-- The rows of the users change, in a table that is there. -/
def withUsers (f : File) (change : users.Table → users.Table) : File where
  sqlite_master := f.sqlite_master
  database := { f.database with users := f.database.users.map change }
  tables := by
    intro t
    rw [← f.tables]
    cases t <;> simp [TableName.inDatabase]

/-- The rows of the objects change, in a table that is there. -/
def withObjects (f : File) (t : Table) : File where
  sqlite_master := f.sqlite_master
  database := { f.database with fs_objects := f.database.fs_objects.map fun _ => t }
  tables := by
    intro t
    rw [← f.tables]
    cases t <;> simp [TableName.inDatabase]

end File

/-- The files of the data directory that can hold a database, by their names. -/
structure Files where
  files : List (Bytes × File)

namespace Files

def read (fs : Files) (name : Bytes) : Option File := fs.files.lookup name

def remove (fs : Files) (name : Bytes) : Files := ⟨fs.files.filter (fun f => f.1 ≠ name)⟩

def write (fs : Files) (name : Bytes) (file : File) : Files :=
  ⟨(name, file) :: (fs.remove name).files⟩

/-- The new name loses what it named before. -/
def rename_file (fs : Files) (path_to_file new_path_to_file : Bytes) : Files :=
  match fs.read path_to_file with
  | none => fs
  | some file => (fs.remove path_to_file).write new_path_to_file file

/-- The database of a connection: SQLite makes the file that is not there. -/
def storage (fs : Files) : File := (fs.read STORAGE).getD File.new

/-- What the program knows of the files. -/
def disk (fs : Files) : Disk := ⟨fs.files.map fun f => (f.1, f.2.database)⟩

end Files

/-! ## The checks -/

/-- What ends a start. -/
inductive Failure
  | sqlite3_exec_failed
  | unexpected_result
  | different_structure
  deriving DecidableEq

/-- A part of a start. It works on the data directory, and what it did before it throws stays. -/
abbrev Program := EStateM Failure Files

/-- `GET_TABLE_NAME_QUERY` finds a table. -/
def FindsTable (t : TableName) (f : File) : Prop :=
  ∃ x ∈ f.sqlite_master, x.type = .table ∧ x.name = t.name

instance (t : TableName) (f : File) : Decidable (FindsTable t f) :=
  inferInstanceAs (Decidable (∃ x ∈ f.sqlite_master, _))

/-- The name of a table is free when no table, view or index has it. -/
def Taken (t : TableName) (f : File) : Prop :=
  ∃ x ∈ f.sqlite_master, x.type ≠ .trigger ∧ SameName x.name t.name

instance (t : TableName) (f : File) : Decidable (Taken t f) :=
  inferInstanceAs (Decidable (∃ x ∈ f.sqlite_master, _))

/-- `CHECK_USER_TABLE_STRUCTURE_QUERY` and its like ask for objects of any type. -/
def structure_of (t : TableName) (f : File) : List (Option Bytes) :=
  (f.sqlite_master.filter (·.name = t.name)).map (·.sql)

/-- A text that is NULL throws in the callback of the query. -/
def check_table_structure (t : TableName) : Program Unit := do
  match structure_of t (← get).storage with
  | [some sql] => if sql ≠ t.creation then throw .different_structure
  | _ => throw .unexpected_result

def create_table (t : TableName) : Program Unit := do
  let fs ← get
  if Taken t fs.storage then throw .sqlite3_exec_failed
  set (fs.write STORAGE (fs.storage.make t))
  check_table_structure t

def check_table_exists (t : TableName) : Program Unit := do
  if FindsTable t (← get).storage then check_table_structure t else create_table t

/-! ## The files -/

namespace Files

@[simp] theorem read_write (fs : Files) (n m : Bytes) (file : File) :
    (fs.write n file).read m = if m = n then some file else fs.read m := by
  unfold read write
  rw [members.lookup_cons_ite]
  by_cases h : m = n
  · rw [if_pos h, if_pos h]
  · rw [if_neg h, if_neg h]
    exact members.lookup_filter_ne h

@[simp] theorem storage_write (fs : Files) (file : File) :
    (fs.write STORAGE file).storage = file := by
  simp [storage]

theorem disk_write (fs : Files) (n : Bytes) (file : File) :
    (fs.write n file).disk = fs.disk.write n file.database := by
  unfold disk write remove Disk.write
  simp only [List.map_cons, List.filter_map]
  rfl

theorem read_disk (fs : Files) (n : Bytes) : fs.disk.read n = (fs.read n).map (·.database) := by
  unfold disk Disk.read read
  induction fs.files with
  | nil => rfl
  | cons f files ih =>
    rw [List.map_cons, members.lookup_cons_ite, members.lookup_cons_ite, ih]
    split <;> rfl

@[simp] theorem storage_disk (fs : Files) : fs.disk.storage = fs.storage.database := by
  unfold Disk.storage storage
  rw [read_disk]
  cases fs.read STORAGE <;> rfl

theorem disk_rename_file (fs : Files) (a b : Bytes) :
    (fs.rename_file a b).disk = fs.disk.rename_file a b := by
  unfold rename_file Disk.rename_file
  rw [read_disk]
  cases fs.read a with
  | none => rfl
  | some file =>
    rw [Option.map_some]
    simp only [disk_write]
    unfold disk remove
    rw [List.filter_map]
    rfl

end Files

/-! ## The checks of one table -/

section
variable {t : TableName} {fs : Files}

theorem check_table_structure_ok (h : structure_of t fs.storage = [some t.creation]) :
    (check_table_structure t).run fs = .ok () fs := by
  simp [check_table_structure, h]

theorem check_table_structure_error (h : structure_of t fs.storage ≠ [some t.creation]) :
    ∃ e, (check_table_structure t).run fs = .error e fs := by
  unfold check_table_structure
  rw [EStateM.run_bind, EStateM.run_get]
  simp only
  split
  · next sql hsql =>
    have hne : sql ≠ t.creation := fun he => h (he ▸ hsql)
    rw [if_pos hne]
    exact ⟨_, rfl⟩
  · exact ⟨_, rfl⟩

theorem create_table_eq : (create_table t).run fs =
    if Taken t fs.storage then .error .sqlite3_exec_failed fs
    else (check_table_structure t).run (fs.write STORAGE (fs.storage.make t)) := by
  unfold create_table
  rw [EStateM.run_bind, EStateM.run_get]
  simp only
  split <;> rfl

theorem check_table_exists_eq : (check_table_exists t).run fs =
    if FindsTable t fs.storage then (check_table_structure t).run fs
    else (create_table t).run fs := by
  unfold check_table_exists
  rw [EStateM.run_bind, EStateM.run_get]
  simp only
  split <;> rfl

end

/-- The table is the one thing of its name, and its own query made it. -/
def Own (t : TableName) (f : File) : Prop :=
  f.sqlite_master.filter (·.name = t.name) = [t.row]

/-- Nothing has the name of the table. -/
def Free (t : TableName) (f : File) : Prop :=
  ¬ Taken t f ∧ ∀ x ∈ f.sqlite_master, x.name ≠ t.name

instance (t : TableName) (f : File) : Decidable (Own t f) := inferInstanceAs (Decidable (_ = _))

instance (t : TableName) (f : File) : Decidable (Free t f) := inferInstanceAs (Decidable (_ ∧ _))

def Accepts (t : TableName) (f : File) : Prop := Own t f ∨ Free t f

instance (t : TableName) (f : File) : Decidable (Accepts t f) :=
  inferInstanceAs (Decidable (_ ∨ _))

section
variable {t : TableName} {f : File}

theorem mem_of_own (h : Own t f) : t.row ∈ f.sqlite_master := by
  have hm : t.row ∈ f.sqlite_master.filter (·.name = t.name) := by
    rw [show f.sqlite_master.filter (·.name = t.name) = [t.row] from h]
    exact List.mem_singleton_self _
  exact (List.mem_filter.mp hm).1

/-- Of a table that is there, the check of the structure asks what `Own` says. -/
theorem structure_of_iff (h : FindsTable t f) :
    structure_of t f = [some t.creation] ↔ Own t f := by
  obtain ⟨x, hx, htype, hname⟩ := h
  have hmem : x ∈ f.sqlite_master.filter (·.name = t.name) :=
    List.mem_filter.mpr ⟨hx, decide_eq_true hname⟩
  unfold structure_of Own
  constructor
  · intro hs
    obtain ⟨y, hy, hsql⟩ := List.map_eq_singleton_iff.mp hs
    rw [hy] at hmem ⊢
    obtain rfl := List.mem_singleton.mp hmem
    obtain ⟨type, name, sql⟩ := x
    simp only at htype hname hsql
    rw [TableName.row, htype, hname, hsql]
  · intro hs
    rw [hs]
    rfl

/-- A creation adds one thing of the name. -/
theorem filter_rows (t : TableName) : t.rows.filter (·.name = t.name) = [t.row] := by
  obtain ⟨h1, h2⟩ := autoindex_name t t
  have hrow : t.row.name = t.name := rfl
  simp [TableName.rows, hrow, h1, h2]

theorem filter_other {t t' : TableName} (h : t ≠ t') : t.rows.filter (·.name = t'.name) = [] :=
  List.filter_eq_nil_iff.mpr fun x hx => by simpa using (other_rows h x hx).1

theorem filter_make (t t' : TableName) : (f.make t).sqlite_master.filter (·.name = t'.name) =
    f.sqlite_master.filter (·.name = t'.name) ++ if t = t' then [t'.row] else [] := by
  rw [File.make, List.filter_append]
  by_cases h : t = t'
  · subst h
    rw [if_pos rfl, filter_rows]
  · rw [if_neg h, filter_other h]

theorem own_make_iff (ht : ¬ Taken t f) : Own t (f.make t) ↔ Free t f := by
  unfold Own Free
  rw [filter_make, if_pos rfl]
  simp [ht]

theorem structure_of_make_iff (ht : ¬ Taken t f) :
    structure_of t (f.make t) = [some t.creation] ↔ Free t f := by
  rw [structure_of_iff, own_make_iff ht]
  exact ⟨t.row, List.mem_append_right _ List.mem_cons_self, rfl, rfl⟩

end

/-- What is there under the name of another table stays as it is. -/
theorem accepts_make_of_ne {t t' : TableName} {f : File} (h : t ≠ t') :
    (Own t' (f.make t) ↔ Own t' f) ∧ (Accepts t' (f.make t) ↔ Accepts t' f) := by
  have hown : Own t' (f.make t) ↔ Own t' f := by
    unfold Own
    rw [filter_make, if_neg h, List.append_nil]
  have hfree : Free t' (f.make t) ↔ Free t' f := by
    have hrows := other_rows h
    unfold Free Taken
    simp only [File.make, List.mem_append]
    constructor
    · rintro ⟨h1, h2⟩
      exact ⟨fun ⟨x, hx, hsame⟩ => h1 ⟨x, Or.inl hx, hsame⟩, fun x hx => h2 x (Or.inl hx)⟩
    · rintro ⟨h1, h2⟩
      refine ⟨?_, ?_⟩
      · rintro ⟨x, hx | hx, hsame⟩
        · exact h1 ⟨x, hx, hsame⟩
        · exact (hrows x hx).2 hsame.2
      · rintro x (hx | hx)
        · exact h2 x hx
        · exact (hrows x hx).1
  exact ⟨hown, or_congr hown hfree⟩

/-- The two databases have the same users and the same objects. -/
def SameRows (db db' : Database) : Prop :=
  db'.users.getD users.Table.empty = db.users.getD users.Table.empty ∧
    lifetimes.objectsIn db' = lifetimes.objectsIn db

theorem sameRows_make (t : TableName) (db : Database) : SameRows db (t.make db) := by
  cases t <;> exact ⟨rfl, rfl⟩

theorem make_of_inDatabase {t : TableName} {db : Database} (h : t.inDatabase db = true) :
    t.make db = db := by
  obtain ⟨stored, objects⟩ := db
  cases t with
  | users =>
    obtain ⟨rows, rfl⟩ := Option.isSome_iff_exists.mp h
    rfl
  | fs_objects =>
    obtain ⟨rows, rfl⟩ := Option.isSome_iff_exists.mp h
    rfl

/-- The directory has its database in the first place of the list, as a write leaves it. -/
def Settled (fs : Files) : Prop := fs.write STORAGE fs.storage = fs

namespace Files

theorem write_write (fs : Files) (n : Bytes) (a b : File) :
    (fs.write n a).write n b = fs.write n b := by
  unfold write remove
  simp

end Files

theorem settled_write (fs : Files) (f : File) : Settled (fs.write STORAGE f) := by
  unfold Settled
  rw [Files.storage_write, Files.write_write]

section
variable {t : TableName} {fs : Files} (hs : Settled fs)
include hs

/-- A table of the program passes, and one is made where there is none. -/
theorem check_table_exists_ok (h : Accepts t fs.storage) :
    ∃ f, (check_table_exists t).run fs = .ok () (fs.write STORAGE f) ∧
      f.database = t.make fs.storage.database ∧ Own t f ∧
      ∀ t', t ≠ t' → (Own t' f ↔ Own t' fs.storage) ∧ (Accepts t' f ↔ Accepts t' fs.storage) := by
  rw [check_table_exists_eq]
  rcases h with hown | hfree
  · have hrow := mem_of_own hown
    have hfind : FindsTable t fs.storage := ⟨t.row, hrow, rfl, rfl⟩
    refine ⟨fs.storage, ?_, ?_, hown, fun _ _ => ⟨Iff.rfl, Iff.rfl⟩⟩
    · rw [if_pos hfind, check_table_structure_ok ((structure_of_iff hfind).mpr hown), hs]
    · exact (make_of_inDatabase ((fs.storage.tables t).mpr hrow)).symm
  · have hnot : ¬ FindsTable t fs.storage := fun ⟨x, hx, _, hname⟩ => hfree.2 x hx hname
    refine ⟨fs.storage.make t, ?_, rfl, (own_make_iff hfree.1).mpr hfree,
      fun t' h => accepts_make_of_ne h⟩
    rw [if_neg hnot, create_table_eq, if_neg hfree.1]
    refine check_table_structure_ok ?_
    rw [Files.storage_write, structure_of_make_iff hfree.1]
    exact hfree

/-- Anything else of that name ends the start, and no row is lost. -/
theorem check_table_exists_error (h : ¬ Accepts t fs.storage) :
    ∃ e f, (check_table_exists t).run fs = .error e (fs.write STORAGE f) ∧
      SameRows fs.storage.database f.database := by
  obtain ⟨hown, hfree⟩ := not_or.mp h
  rw [check_table_exists_eq]
  by_cases hfind : FindsTable t fs.storage
  · obtain ⟨e, he⟩ := check_table_structure_error (mt (structure_of_iff hfind).mp hown)
    refine ⟨e, fs.storage, ?_, rfl, rfl⟩
    rw [if_pos hfind, he, hs]
  · rw [if_neg hfind, create_table_eq]
    by_cases ht : Taken t fs.storage
    · refine ⟨.sqlite3_exec_failed, fs.storage, ?_, rfl, rfl⟩
      rw [if_pos ht, hs]
    · have hne : structure_of t (fs.write STORAGE (fs.storage.make t)).storage ≠
          [some t.creation] := by
        rw [Files.storage_write]
        exact mt (structure_of_make_iff ht).mp hfree
      obtain ⟨e, he⟩ := check_table_structure_error hne
      refine ⟨e, fs.storage.make t, ?_, sameRows_make t _⟩
      rw [if_neg ht, he]

end

end asio_ftp.schema
