-- The `users` table and its functions (src/database/users.cpp).
import AsioFtp.Helpers
import AsioFtp.Sqlite

namespace asio_ftp.users

open helpers sqlite_wrapper

/-- The id is a `generate_uuid_string(64)` of `create_user`. -/
structure Row where
  user_id : Uuid
  name : Bytes
  password : Bytes

/-- `PRIMARY KEY` on the id and `UNIQUE` on the name. -/
structure Table where
  rows : List Row
  primary_key : (rows.map (·.user_id.val)).Nodup
  unique_name : (rows.map (·.name)).Nodup

/-- A table with the users "ann" and "bob". -/
def Table.annAndBob : Table where
  rows := [⟨.ofRand 1, lit "ann", lit "pw1"⟩, ⟨.ofRand 2, lit "bob", lit "pw2"⟩]
  primary_key := by decide
  unique_name := by decide

def get_id_by_name (t : Table) (name : Bytes) : Bytes :=
  let result_vector := run_param_query
    ((t.rows.filter (fun r => decide (r.name = name))).map (fun r => [r.user_id.val]))
  match result_vector with
  | [] => []
  | id :: _ => id

def check_password (t : Table) (id password : Bytes) : Bool :=
  let result_vector := run_param_query
    ((t.rows.filter (fun r => decide (r.user_id.val = id))).map (fun r => [r.password]))
  match result_vector with
  | [] => false
  | stored :: _ => decide (stored = password)

structure user where
  id : Bytes := []
  name : Bytes
  password : Bytes

/-- The stride-2 loop of `get_all_user_credentials`. -/
def credentials : List Bytes → List user
  | name :: password :: rest => { name, password } :: credentials rest
  | _ => []

def get_all_user_credentials (t : Table) : List user :=
  credentials (run_query (t.rows.map (fun r => [r.name, r.password])))

/-- A row with the same id or the same name makes an insert fail. `run_param_query` does not
report it. -/
def Table.Conflicts (t : Table) (r : Row) : Prop :=
  ∃ x ∈ t.rows, x.user_id.val = r.user_id.val ∨ x.name = r.name

instance (t : Table) (r : Row) : Decidable (t.Conflicts r) :=
  inferInstanceAs (Decidable (∃ x ∈ t.rows, _))

def Table.empty : Table := ⟨[], List.nodup_nil, List.nodup_nil⟩

/-- `CREATE_USER_QUERY`. -/
def Table.insert (t : Table) (r : Row) : Table :=
  if h : t.Conflicts r then t
  else
    { rows := t.rows ++ [r]
      primary_key := nodup_map_snoc t.primary_key (fun x hx he => h ⟨x, hx, Or.inl he⟩)
      unique_name := nodup_map_snoc t.unique_name (fun x hx he => h ⟨x, hx, Or.inr he⟩) }

/-- The value `uuid` is what `generate_uuid_string(64)` gives. -/
def create_user (t : Table) (uuid : Uuid) (name password : Bytes) : Table :=
  t.insert ⟨uuid, name, password⟩

/-! ## The lookups -/

/-- The query of one column gives that column of the first row that matches. -/
theorem run_param_query_column (rows : List Row) (f : Row → Bytes) :
    run_param_query (rows.map (fun r => [f r])) = rows.map (fun r => c_str (f r)) := by
  induction rows with
  | nil => rfl
  | cons r rows ih =>
    simp only [run_param_query, List.map_cons, List.flatMap_cons] at ih ⊢
    rw [ih]
    rfl

theorem Table.eq_of_name (t : Table) {a b : Row} (ha : a ∈ t.rows) (hb : b ∈ t.rows)
    (h : a.name = b.name) : a = b :=
  List.inj_on_of_nodup_map t.unique_name ha hb h

theorem Table.eq_of_id (t : Table) {a b : Row} (ha : a ∈ t.rows) (hb : b ∈ t.rows)
    (h : a.user_id.val = b.user_id.val) : a = b :=
  List.inj_on_of_nodup_map t.primary_key ha hb h

/-- The id of a name is the id of the row with that name. -/
theorem get_id_by_name_of_mem {t : Table} {r : Row} (hr : r ∈ t.rows) :
    get_id_by_name t r.name = r.user_id.val := by
  unfold get_id_by_name
  rw [run_param_query_column]
  cases hf : t.rows.filter (fun q => decide (q.name = r.name)) with
  | nil => exact absurd (decide_eq_true rfl) (List.filter_eq_nil_iff.mp hf r hr)
  | cons q rest =>
    have hm : q ∈ t.rows.filter (fun q => decide (q.name = r.name)) := by simp [hf]
    obtain ⟨hq, hn⟩ := List.mem_filter.mp hm
    obtain rfl := t.eq_of_name hq hr (of_decide_eq_true hn)
    simp

theorem exists_of_get_id_by_name {t : Table} {name : Bytes} (h : get_id_by_name t name ≠ []) :
    ∃ r ∈ t.rows, r.name = name ∧ get_id_by_name t name = r.user_id.val := by
  cases hf : t.rows.filter (fun q => decide (q.name = name)) with
  | nil =>
    refine absurd ?_ h
    unfold get_id_by_name
    rw [hf]
    rfl
  | cons r rest =>
    have hm : r ∈ t.rows.filter (fun q => decide (q.name = name)) := by simp [hf]
    obtain ⟨hr, hn⟩ := List.mem_filter.mp hm
    obtain rfl := of_decide_eq_true hn
    exact ⟨r, hr, rfl, get_id_by_name_of_mem hr⟩

/-- A password matches an id when the row of the id has that password, as SQLite reads it. -/
theorem check_password_iff {t : Table} {id password : Bytes} :
    check_password t id password = true ↔
      ∃ r ∈ t.rows, r.user_id.val = id ∧ c_str r.password = password := by
  unfold check_password
  rw [run_param_query_column]
  cases hf : t.rows.filter (fun q => decide (q.user_id.val = id)) with
  | nil =>
    have hno := List.filter_eq_nil_iff.mp hf
    simp only [List.map_nil, Bool.false_eq_true, false_iff]
    rintro ⟨r, hr, hid, -⟩
    exact hno r hr (decide_eq_true hid)
  | cons q rest =>
    have hm : q ∈ t.rows.filter (fun q => decide (q.user_id.val = id)) := by simp [hf]
    obtain ⟨hq, hid⟩ := List.mem_filter.mp hm
    simp only [List.map_cons, decide_eq_true_eq]
    constructor
    · intro h
      exact ⟨q, hq, of_decide_eq_true hid, h⟩
    · rintro ⟨r, hr, hr', h⟩
      rw [t.eq_of_id hq hr ((of_decide_eq_true hid).trans hr'.symm)]
      exact h

/-- The credentials of the rows, as SQLite reads them. -/
theorem get_all_user_credentials_eq (t : Table) : get_all_user_credentials t =
    t.rows.map (fun r => { name := c_str r.name, password := c_str r.password }) := by
  unfold get_all_user_credentials
  induction t.rows with
  | nil => rfl
  | cons r rows ih =>
    simp only [run_query, List.map_cons, List.flatMap_cons, List.map_nil, List.cons_append,
      List.nil_append, credentials] at ih ⊢
    rw [ih]

theorem mem_insert {t : Table} {r x : Row} :
    x ∈ (t.insert r).rows ↔ x ∈ t.rows ∨ (x = r ∧ ¬ t.Conflicts r) := by
  unfold Table.insert
  split
  · next h => simp [h]
  · next h => simp [h]

end asio_ftp.users
