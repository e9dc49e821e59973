-- The `fs_objects` table and its functions (src/database/fs_objects.cpp). The queries run
-- as written, and the table carries the uniqueness that its constraints enforce.
import AsioFtp.Paths
import AsioFtp.Sqlite

namespace asio_ftp.fs_objects

open helpers sqlite_wrapper

/-! ## The table -/

structure Row where
  object_id : Bytes
  name : Bytes
  path : Bytes
  size : Int
  modified_time : Bytes
  is_directory : Bool
  user_id : Bytes
  deriving DecidableEq

/-- `PRIMARY KEY` on the id, and `UNIQUE (name, path)` over the rows of every user. SQLite
leaves the foreign key unchecked, because no pragma turns the check on. -/
structure Table where
  rows : List Row
  primary_key : (rows.map Row.object_id).Nodup
  unique_name_path : (rows.map (fun r => (r.name, r.path))).Nodup

namespace Table

def empty : Table := ⟨[], List.nodup_nil, List.nodup_nil⟩

/-- A row that makes an insert of `r` change nothing: the same id (the insert fails) or the
same name and path (`ON CONFLICT IGNORE`). `run_param_query` reports neither. -/
def Conflicts (t : Table) (r : Row) : Prop :=
  ∃ x ∈ t.rows, x.object_id = r.object_id ∨ (x.name = r.name ∧ x.path = r.path)

instance (t : Table) (r : Row) : Decidable (t.Conflicts r) :=
  inferInstanceAs (Decidable (∃ x ∈ t.rows, _))

/-- `CREATE_OBJECT_QUERY`. -/
def insert (t : Table) (r : Row) : Table :=
  if h : t.Conflicts r then t
  else
    { rows := t.rows ++ [r]
      primary_key := nodup_map_snoc t.primary_key (fun x hx he => h ⟨x, hx, Or.inl he⟩)
      unique_name_path := nodup_map_snoc t.unique_name_path
        (fun x hx he => h ⟨x, hx, Or.inr ⟨(Prod.mk.inj he).1, (Prod.mk.inj he).2⟩⟩) }

/-- The rows that a `SELECT` gives. An error of the WHERE clause ends it, and `run_param_query` has
the rows that came before. -/
def select (found : Row → Option Bool) : List Row → List Row
  | [] => []
  | r :: rows =>
    match found r with
    | none => []
    | some true => r :: select found rows
    | some false => select found rows

/-- The rows that do not meet a WHERE clause that has no errors. -/
def delete (t : Table) (gone : Row → Bool) : Table where
  rows := t.rows.filter (fun r => !gone r)
  primary_key := t.primary_key.sublist (List.filter_sublist.map _)
  unique_name_path := t.unique_name_path.sublist (List.filter_sublist.map _)

/-- A `DELETE` of the rows that meet the WHERE clause. An error of it undoes the statement. -/
def delete_where (t : Table) (gone : Row → Option Bool) : Table :=
  if t.rows.any (fun r => (gone r).isNone) then t else t.delete (fun r => gone r == some true)

/-- The row after `UPDATE_OBJECT_SIZE_QUERY`. -/
def resize (size : Int) (now object_id : Bytes) (r : Row) : Row :=
  if r.object_id = object_id then { r with size, modified_time := now } else r

/-- A size update changes the size and the time of a row at most. -/
theorem resize_eq (size : Int) (now object_id : Bytes) (r : Row) :
    ∃ s m, resize size now object_id r = { r with size := s, modified_time := m } := by
  unfold resize
  split
  · exact ⟨size, now, rfl⟩
  · exact ⟨r.size, r.modified_time, rfl⟩

theorem map_resize {β : Type} (f : Row → β)
    (hf : ∀ (r : Row) (s : Int) (m : Bytes), f { r with size := s, modified_time := m } = f r)
    (size : Int) (now object_id : Bytes) (rows : List Row) :
    (rows.map (resize size now object_id)).map f = rows.map f := by
  rw [List.map_map]
  refine List.map_congr_left (fun r _ => ?_)
  obtain ⟨s, m, h⟩ := resize_eq size now object_id r
  rw [Function.comp, h, hf]

/-- `UPDATE_OBJECT_SIZE_QUERY`. -/
def updateSize (t : Table) (size : Int) (now object_id : Bytes) : Table where
  rows := t.rows.map (resize size now object_id)
  primary_key := by
    rw [map_resize Row.object_id (fun _ _ _ => rfl)]
    exact t.primary_key
  unique_name_path := by
    rw [map_resize (fun r => (r.name, r.path)) (fun _ _ _ => rfl)]
    exact t.unique_name_path

/-- The WHERE clause `user_id = ? AND name = ? AND path = ?`. -/
def isKey (user_id name path : Bytes) (r : Row) : Bool :=
  decide (r.user_id = user_id ∧ r.name = name ∧ r.path = path)

/-- The columns `object_id, name, path, size, modified_time, is_directory` as text. -/
def columns (r : Row) : List Bytes :=
  [r.object_id, r.name, r.path, to_string r.size, r.modified_time,
    if r.is_directory then lit "1" else lit "0"]

end Table

/-! ## The lookups -/

/-- The defaults are those of a new `fs_object`. Its `is_directory` starts with no value of
its own, and the code reads it only after a check of the id. -/
structure fs_object where
  id : Bytes := []
  name : Bytes := []
  path : Bytes := []
  size : Bytes := []
  modified_time : Bytes := []
  is_directory : Bool := false
  deriving DecidableEq

def get_object (t : Table) (user_id object_name object_path : Bytes) : fs_object :=
  let db_output := run_param_query
    ((t.rows.filter (Table.isKey user_id object_name object_path)).map Table.columns)
  match db_output with
  | id :: name :: path :: size :: modified_time :: is_directory :: _ =>
    { id, name, path, size, modified_time, is_directory := decide (is_directory = lit "1") }
  | _ => {}

/-- The stride-6 loop of `get_objects_by_path`. -/
def regroup : List Bytes → List fs_object
  | id :: name :: path :: size :: modified_time :: is_directory :: rest =>
    { id, name, path, size, modified_time, is_directory := decide (is_directory = lit "1") } ::
      regroup rest
  | _ => []

def get_objects_by_path (t : Table) (user_id object_path : Bytes) : List fs_object :=
  regroup (run_param_query
    ((t.rows.filter (fun r => decide (r.user_id = user_id ∧ r.path = object_path))).map
      Table.columns))

/-! ## The table with its data directory -/

/-- The database table and the files `data/<id>`. -/
structure Store where
  table : Table
  blobs : Bytes → Option Bytes

def Store.empty : Store := ⟨Table.empty, fun _ => none⟩

/-- `fs_handler::remove_file("data/" + id)`. -/
def Store.remove_file (st : Store) (id : Bytes) : Store :=
  { st with blobs := fun i => if i = id then none else st.blobs i }

/-- The value `uuid` is what `generate_uuid_string(64)` gives, and `now` is CURRENT_TIMESTAMP. -/
def create_object (st : Store) (uuid : Uuid) (now user_id object_name object_path : Bytes)
    (object_size : Int) (is_directory : Bool) : Store × Bytes :=
  let parent := get_object st.table user_id (get_basename object_path) (get_parent_path object_path)
  if object_path ≠ [slash] ∧ parent.id = [] then (st, [])
  else if object_path ≠ [slash] ∧ parent.is_directory = false then (st, [])
  else if (get_object st.table user_id object_name object_path).id ≠ [] then (st, [])
  else
    let row : Row :=
      { object_id := uuid.val, name := object_name, path := object_path, size := object_size,
        modified_time := now, is_directory, user_id }
    ({ st with table := st.table.insert row }, uuid.val)

def update_object_size (st : Store) (now user_id object_name object_path : Bytes)
    (object_size : Int) : Store × Bytes :=
  let object := get_object st.table user_id object_name object_path
  if object.id = [] then (st, [])
  else ({ st with table := st.table.updateSize object_size now object.id }, object.id)

/-- The LIKE pattern of a directory that is removed. -/
def prefix_pattern (object_path object_name : Bytes) : Bytes :=
  (if object_path ≠ [slash] then object_path ++ [slash] else object_path) ++ object_name ++ [percent]

/-- The WHERE clause `user_id = ? AND path LIKE ?`. -/
def whereBelow (user_id pattern : Bytes) (r : Row) : Option Bool :=
  if r.user_id = user_id then like pattern r.path else some false

/-- The result of `GET_OBJECT_IDS_WITH_PATH_PREFIX_QUERY`. -/
def object_ids_below (t : Table) (user_id pattern : Bytes) : List (List Bytes) :=
  (Table.select (whereBelow user_id pattern) t.rows).map (fun r => [r.object_id])

def remove_fs_object (st : Store) (user_id object_name object_path : Bytes) : Store × Bool :=
  let object := get_object st.table user_id object_name object_path
  if object.id = [] then (st, false)
  else
    let st :=
      if object.is_directory then
        let pattern := prefix_pattern object_path object_name
        let object_ids_for_removal := run_param_query (object_ids_below st.table user_id pattern)
        let st := object_ids_for_removal.foldl Store.remove_file st
        { st with table := st.table.delete_where (whereBelow user_id pattern) }
      else st
    let st := st.remove_file object.id
    ({ st with table := st.table.delete (fun r => decide (r.object_id = object.id)) }, true)

/-! ## The rows below a directory -/

/-- The row meets that WHERE clause, and LIKE has no error. -/
def isBelow (user_id pattern : Bytes) (r : Row) : Bool :=
  decide (r.user_id = user_id) && like pattern r.path == some true

/-- LIKE has an error on every text or on none. -/
theorem like_eq_none_iff (pattern text : Bytes) :
    like pattern text = none ↔ pattern.length > LIKE_PATTERN_LENGTH := by
  unfold like
  split
  · next h => exact iff_of_true rfl h
  · next h => exact iff_of_false (fun h' => by cases h') h

/-- The lookup gives the rows of the user that the pattern matches, and none if it is too long. -/
theorem select_whereBelow (u pattern : Bytes) (rows : List Row) :
    Table.select (whereBelow u pattern) rows = rows.filter (isBelow u pattern) := by
  by_cases hlong : pattern.length > LIKE_PATTERN_LENGTH
  · have hnone := fun text => (like_eq_none_iff pattern text).mpr hlong
    have hbelow : ∀ r, isBelow u pattern r = false := by simp [isBelow, hnone]
    rw [List.filter_eq_nil_iff.mpr (fun r _ => by simp [hbelow])]
    induction rows with
    | nil => rfl
    | cons r rows ih =>
      by_cases hu : r.user_id = u
      · simp [Table.select, whereBelow, hu, hnone]
      · simp [Table.select, whereBelow, hu, ih]
  · induction rows with
    | nil => rfl
    | cons r rows ih =>
      by_cases hu : r.user_id = u
      · obtain ⟨b, hb⟩ := Option.ne_none_iff_exists'.mp
          (fun h => hlong ((like_eq_none_iff pattern r.path).mp h))
        cases b <;> simp [Table.select, whereBelow, isBelow, hu, hb, ih]
      · simp [Table.select, whereBelow, isBelow, hu, ih]

/-- And the deletion deletes those rows. -/
theorem delete_whereBelow (t : Table) (u pattern : Bytes) :
    (t.delete_where (whereBelow u pattern)).rows =
      t.rows.filter (fun r => !isBelow u pattern r) := by
  have hsame : ∀ r, (whereBelow u pattern r == some true) = isBelow u pattern r := by
    intro r
    unfold whereBelow isBelow
    split
    · next hu => simp [hu]
    · next hu => simp [hu]
  unfold Table.delete_where
  split
  · next h =>
    -- Some row of the user has an error, and then none meets the clause.
    obtain ⟨r, -, hr⟩ := List.any_eq_true.mp h
    have hlong : pattern.length > LIKE_PATTERN_LENGTH := by
      unfold whereBelow at hr
      split at hr
      · exact (like_eq_none_iff pattern r.path).mp (Option.isNone_iff_eq_none.mp hr)
      · cases hr
    refine (List.filter_eq_self.mpr fun x _ => ?_).symm
    simp [isBelow, (like_eq_none_iff pattern x.path).mpr hlong]
  · simp only [Table.delete, hsame]

/-! ## What a lookup finds -/

/-- The object that a row reads back as. -/
def Row.toObject (r : Row) : fs_object :=
  { id := c_str r.object_id, name := c_str r.name, path := c_str r.path,
    size := c_str (to_string r.size), modified_time := c_str r.modified_time,
    is_directory := r.is_directory }

theorem flag_eq (b : Bool) : decide (c_str (if b then lit "1" else lit "0") = lit "1") = b := by
  cases b <;> decide

/-- A lookup gives the first row with the key, and the empty object when there is none. -/
theorem get_object_eq (t : Table) (u n p : Bytes) :
    get_object t u n p = ((t.rows.find? (Table.isKey u n p)).map Row.toObject).getD {} := by
  unfold get_object
  rw [← List.head?_filter]
  cases t.rows.filter (Table.isKey u n p) with
  | nil => rfl
  | cons r rest =>
    simp only [List.map_cons, run_param_query, List.flatMap_cons, Table.columns, List.map_nil,
      List.cons_append, flag_eq]
    rfl

theorem regroup_columns (rows : List Row) :
    regroup (run_param_query (rows.map Table.columns)) = rows.map Row.toObject := by
  induction rows with
  | nil => rfl
  | cons r rows ih =>
    simp only [run_param_query] at ih
    simp only [List.map_cons, run_param_query, List.flatMap_cons, Table.columns, List.map_nil,
      List.cons_append, List.nil_append, regroup, flag_eq]
    rw [ih]
    rfl

theorem get_objects_by_path_eq (t : Table) (u p : Bytes) :
    get_objects_by_path t u p =
      (t.rows.filter (fun r => decide (r.user_id = u ∧ r.path = p))).map Row.toObject :=
  regroup_columns _

theorem isKey_iff {u n p : Bytes} {r : Row} :
    Table.isKey u n p r = true ↔ r.user_id = u ∧ r.name = n ∧ r.path = p := by
  simp [Table.isKey]

/-- The ids of the rows come from `generate_uuid_string(64)`. -/
def Generated (t : Table) : Prop := ∀ r ∈ t.rows, ∃ u : Uuid, r.object_id = u.val

theorem Generated.id_ne_nil {t : Table} (h : Generated t) {r : Row} (hr : r ∈ t.rows) :
    r.toObject.id ≠ [] := by
  obtain ⟨u, hu⟩ := h r hr
  simp [Row.toObject, hu, u.ne_nil]

theorem Generated.id_eq {t : Table} (h : Generated t) {r : Row} (hr : r ∈ t.rows) :
    r.toObject.id = r.object_id := by
  obtain ⟨u, hu⟩ := h r hr
  simp [Row.toObject, hu]

theorem Table.eq_of_rows {a b : Table} (h : a.rows = b.rows) : a = b := by
  cases a
  cases b
  cases h
  rfl

/-- Two rows with one name and path are one row. -/
theorem Table.eq_of_name_path (t : Table) {a b : Row} (ha : a ∈ t.rows) (hb : b ∈ t.rows)
    (hn : a.name = b.name) (hp : a.path = b.path) : a = b :=
  List.inj_on_of_nodup_map t.unique_name_path ha hb (by rw [hn, hp])

/-- Two rows with one id are one row. -/
theorem Table.eq_of_id (t : Table) {a b : Row} (ha : a ∈ t.rows) (hb : b ∈ t.rows)
    (h : a.object_id = b.object_id) : a = b :=
  List.inj_on_of_nodup_map t.primary_key ha hb h

/-- A lookup of the key of a row finds that row. -/
theorem get_object_of_mem {t : Table} {r : Row} (hr : r ∈ t.rows) :
    get_object t r.user_id r.name r.path = r.toObject := by
  rw [get_object_eq]
  cases hf : t.rows.find? (Table.isKey r.user_id r.name r.path) with
  | none =>
    have := List.find?_eq_none.mp hf r hr
    exact absurd (isKey_iff.mpr ⟨rfl, rfl, rfl⟩) this
  | some x =>
    obtain ⟨-, hn, hp⟩ := isKey_iff.mp (List.find?_some hf)
    rw [t.eq_of_name_path (List.mem_of_find?_eq_some hf) hr hn hp]
    rfl

/-- A lookup that finds an object finds a row with the key. -/
theorem exists_of_get_object {t : Table} {u n p : Bytes} (h : (get_object t u n p).id ≠ []) :
    ∃ r ∈ t.rows, r.user_id = u ∧ r.name = n ∧ r.path = p ∧ get_object t u n p = r.toObject := by
  rw [get_object_eq] at h ⊢
  cases hf : t.rows.find? (Table.isKey u n p) with
  | none => simp [hf] at h
  | some r =>
    obtain ⟨hu, hn, hp⟩ := isKey_iff.mp (List.find?_some hf)
    exact ⟨r, List.mem_of_find?_eq_some hf, hu, hn, hp, rfl⟩

theorem get_object_id_ne_nil_iff {t : Table} (hg : Generated t) {u n p : Bytes} :
    (get_object t u n p).id ≠ [] ↔ ∃ r ∈ t.rows, r.user_id = u ∧ r.name = n ∧ r.path = p := by
  constructor
  · intro h
    obtain ⟨r, hr, hu, hn, hp, -⟩ := exists_of_get_object h
    exact ⟨r, hr, hu, hn, hp⟩
  · rintro ⟨r, hr, rfl, rfl, rfl⟩
    rw [get_object_of_mem hr]
    exact hg.id_ne_nil hr

/-- The id of a found object is the id of the one row with its key. -/
theorem object_id_eq_iff {t : Table} (hg : Generated t) {u n p : Bytes}
    (h : (get_object t u n p).id ≠ []) {r : Row} (hr : r ∈ t.rows) :
    r.object_id = (get_object t u n p).id ↔ r.user_id = u ∧ r.name = n ∧ r.path = p := by
  obtain ⟨o, ho, hu, hn, hp, hobj⟩ := exists_of_get_object h
  rw [hobj, hg.id_eq ho]
  constructor
  · intro he
    obtain rfl := t.eq_of_id hr ho he
    exact ⟨hu, hn, hp⟩
  · rintro ⟨-, hn', hp'⟩
    rw [t.eq_of_name_path hr ho (hn'.trans hn.symm) (hp'.trans hp.symm)]

/-! ## What each function can do to the table -/

/-- The checks of `create_object` pass: the parent is the root or a directory of the user,
and the user has no such object. -/
def Creatable (t : Table) (user_id object_name object_path : Bytes) : Prop :=
  (object_path ≠ [slash] →
    (get_object t user_id (get_basename object_path) (get_parent_path object_path)).id ≠ [] ∧
    (get_object t user_id (get_basename object_path)
      (get_parent_path object_path)).is_directory = true) ∧
  (get_object t user_id object_name object_path).id = []

instance (t : Table) (u n p : Bytes) : Decidable (Creatable t u n p) :=
  inferInstanceAs (Decidable (_ ∧ _))

/-- The row that `create_object` inserts. -/
def newRow (uuid : Uuid) (now user_id object_name object_path : Bytes) (object_size : Int)
    (is_directory : Bool) : Row :=
  { object_id := uuid.val, name := object_name, path := object_path, size := object_size,
    modified_time := now, is_directory, user_id }

theorem create_object_of_not {st : Store} {u n p : Bytes} (h : ¬ Creatable st.table u n p)
    (uuid : Uuid) (now : Bytes) (size : Int) (d : Bool) :
    create_object st uuid now u n p size d = (st, []) := by
  unfold create_object
  simp only
  split
  · rfl
  · next h1 =>
    split
    · rfl
    · next h2 =>
      rw [if_pos]
      intro h3
      refine h ⟨fun hp => ⟨fun he => h1 ⟨hp, he⟩, ?_⟩, h3⟩
      by_contra hd
      exact h2 ⟨hp, by simpa using hd⟩

theorem create_object_of {st : Store} {u n p : Bytes} (h : Creatable st.table u n p)
    (uuid : Uuid) (now : Bytes) (size : Int) (d : Bool) :
    create_object st uuid now u n p size d =
      ({ st with table := st.table.insert (newRow uuid now u n p size d) }, uuid.val) := by
  unfold create_object
  simp only
  rw [if_neg (fun ⟨hp, he⟩ => (h.1 hp).1 he),
    if_neg (fun ⟨hp, he⟩ => by rw [(h.1 hp).2] at he; cases he), if_neg (fun hne => hne h.2)]
  rfl

/-- A create and a size update change no blob. -/
theorem create_object_blobs (st : Store) (uuid : Uuid) (now u n p : Bytes) (size : Int) (d : Bool) :
    (create_object st uuid now u n p size d).1.blobs = st.blobs := by
  by_cases hc : Creatable st.table u n p
  · rw [create_object_of hc]
  · rw [create_object_of_not hc]

theorem mem_insert {t : Table} {r x : Row} :
    x ∈ (t.insert r).rows ↔ x ∈ t.rows ∨ (x = r ∧ ¬ t.Conflicts r) := by
  unfold Table.insert
  split
  · next h => simp [h]
  · next h => simp [h]

theorem foldl_remove_file_table (ids : List Bytes) (st : Store) :
    (ids.foldl Store.remove_file st).table = st.table := by
  induction ids generalizing st with
  | nil => rfl
  | cons i ids ih => rw [List.foldl_cons, ih]; rfl

/-- The rows that a removal deletes: the object itself, and for a directory every row of the
user that its pattern matches. -/
def Removes (t : Table) (user_id object_name object_path : Bytes) (x : Row) : Prop :=
  (get_object t user_id object_name object_path).id ≠ [] ∧
  (x.object_id = (get_object t user_id object_name object_path).id ∨
    ((get_object t user_id object_name object_path).is_directory = true ∧
      isBelow user_id (prefix_pattern object_path object_name) x = true))

instance (t : Table) (u n p : Bytes) (x : Row) : Decidable (Removes t u n p x) :=
  inferInstanceAs (Decidable (_ ∧ _))

/-- A removal keeps the other rows, in their order. -/
theorem remove_fs_object_rows (st : Store) (u n p : Bytes) :
    (remove_fs_object st u n p).1.table.rows =
      st.table.rows.filter (fun x => decide (¬ Removes st.table u n p x)) := by
  unfold remove_fs_object Removes
  simp only
  split
  · next h => simp [h]
  · next h =>
    split
    · next hd =>
      simp only [Store.remove_file, Table.delete, foldl_remove_file_table, delete_whereBelow,
        List.filter_filter]
      refine List.filter_congr (fun x _ => ?_)
      simp [h, hd]
    · next hd => simp [Store.remove_file, Table.delete, h, hd]

theorem mem_remove_fs_object {st : Store} {u n p : Bytes} {x : Row} :
    x ∈ (remove_fs_object st u n p).1.table.rows ↔
      x ∈ st.table.rows ∧ ¬ Removes st.table u n p x := by
  rw [remove_fs_object_rows, List.mem_filter, decide_eq_true_iff]

/-- A removal that finds the object deletes its row and, for a directory, all below it. -/
theorem remove_fs_object_snd {st : Store} {u n p : Bytes} :
    (remove_fs_object st u n p).2 = true ↔ (get_object st.table u n p).id ≠ [] := by
  unfold remove_fs_object
  simp only
  split
  · next h => simp [h]
  · next h => simp [h]

theorem update_object_size_table (st : Store) (now u n p : Bytes) (size : Int) :
    (update_object_size st now u n p size).1.table =
      if (get_object st.table u n p).id = [] then st.table
      else st.table.updateSize size now (get_object st.table u n p).id := by
  unfold update_object_size
  simp only
  split <;> rfl

theorem update_object_size_blobs (st : Store) (now u n p : Bytes) (size : Int) :
    (update_object_size st now u n p size).1.blobs = st.blobs := by
  unfold update_object_size
  simp only
  split <;> rfl

/-- Every row after a size update is a row before it, with another size and time at most. -/
theorem mem_update_object_size {st : Store} {now u n p : Bytes} {size : Int} {x : Row}
    (h : x ∈ (update_object_size st now u n p size).1.table.rows) :
    ∃ r ∈ st.table.rows, ∃ s m, x = { r with size := s, modified_time := m } := by
  unfold update_object_size at h
  simp only at h
  split at h
  · exact ⟨x, h, x.size, x.modified_time, rfl⟩
  · obtain ⟨r, hr, rfl⟩ := List.mem_map.mp h
    exact ⟨r, hr, Table.resize_eq _ _ _ r⟩

/-- Every row stays in a size update, with another size and time at most. -/
theorem exists_update_object_size {st : Store} {r : Row} (h : r ∈ st.table.rows)
    (now u n p : Bytes) (size : Int) : ∃ s m, { r with size := s, modified_time := m } ∈
      (update_object_size st now u n p size).1.table.rows := by
  unfold update_object_size
  simp only
  split
  · exact ⟨r.size, r.modified_time, h⟩
  · obtain ⟨s, m, he⟩ := Table.resize_eq size now (get_object st.table u n p).id r
    exact ⟨s, m, he ▸ List.mem_map_of_mem h⟩

end asio_ftp.fs_objects
