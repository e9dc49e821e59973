-- The laws of a query: what `run_param_query` gives for the codes of its calls into SQLite. The
-- loop ends at every code but SQLITE_ROW, and only SQLITE_MISUSE is an error after it.
import AsioFtp.Lookups

namespace asio_ftp.queries

open sqlite_wrapper fs_objects lookups

/-! ## One query -/

def SQLITE_OK : Nat := 0

def SQLITE_BUSY : Nat := 5

def SQLITE_MISUSE : Nat := 21

def SQLITE_ROW : Nat := 100

def SQLITE_DONE : Nat := 101

/-- The codes of one query whose whole result is `answer`: of the prepare, of each bind, and of the
step after the rows that came. SQLite gives the rows in order, and says that it is done only after
the last of them. -/
structure Call (answer : List (List Bytes)) where
  prepared : Nat
  bound : List Nat
  rows : List (List Bytes)
  rc : Nat
  in_order : rows <+: answer
  ended : rc ≠ SQLITE_ROW
  done : rc = SQLITE_DONE → rows = answer
  columns : ∀ row ∈ answer, row ≠ []

/-- The loop over the rows, and in it the loop over the columns. -/
def stepLoop (result : List Bytes) (rows : List (List Bytes)) : List Bytes :=
  rows.foldl (fun result row => row.foldl (fun result text => result ++ [c_str text]) result) result

/-- `run_param_query`. -/
def Call.run {answer : List (List Bytes)} (c : Call answer) : Except Bytes (List Bytes) :=
  if c.prepared ≠ SQLITE_OK then .error (lit "sqlite3_prepare_v2 failed")
  else if ∃ rc ∈ c.bound, rc ≠ SQLITE_OK then .error (lit "sqlite3_bind_text failed")
  else
    let result := stepLoop [] c.rows
    if c.rc = SQLITE_MISUSE then .error (lit "Failed to step through sql query") else .ok result

theorem stepLoop_eq (result : List Bytes) (rows : List (List Bytes)) :
    stepLoop result rows = result ++ run_param_query rows := by
  have hcolumns : ∀ (row result : List Bytes),
      row.foldl (fun result text => result ++ [c_str text]) result = result ++ row.map c_str := by
    intro row
    induction row with
    | nil => simp
    | cons text row ih =>
      intro result
      rw [List.foldl_cons, ih, List.map_cons, List.append_assoc, List.singleton_append]
  induction rows generalizing result with
  | nil => simp [stepLoop, run_param_query]
  | cons row rows ih =>
    have hstep : stepLoop result (row :: rows) = stepLoop (result ++ row.map c_str) rows := by
      rw [stepLoop, List.foldl_cons, hcolumns]
      rfl
    rw [hstep, ih, run_param_query, run_param_query, List.flatMap_cons, List.append_assoc]

/-- A query that ends with SQLITE_DONE gives its whole result, as the other modules take it. -/
theorem run_of_done {answer : List (List Bytes)} (c : Call answer) (hp : c.prepared = SQLITE_OK)
    (hb : ∀ rc ∈ c.bound, rc = SQLITE_OK) (hd : c.rc = SQLITE_DONE) :
    c.run = .ok (run_param_query answer) := by
  have hbound : ¬ ∃ rc ∈ c.bound, rc ≠ SQLITE_OK := by
    rintro ⟨rc, hrc, hne⟩
    exact hne (hb rc hrc)
  have hmisuse : c.rc ≠ SQLITE_MISUSE := by
    rw [hd]
    decide
  rw [Call.run, if_neg (not_not.mpr hp), if_neg hbound]
  simp only
  rw [if_neg hmisuse, stepLoop_eq, c.done hd, List.nil_append]

/-! ## The callers -/

/-- `get_object`, from what its query gave. -/
def objectOf (db_output : List Bytes) : fs_object :=
  match db_output with
  | id :: name :: path :: size :: modified_time :: is_directory :: _ =>
    { id, name, path, size, modified_time, is_directory := decide (is_directory = lit "1") }
  | _ => {}

/-- The result of `GET_OBJECT_QUERY`. -/
def lookupRows (t : Table) (u n p : Bytes) : List (List Bytes) :=
  (t.rows.filter (Table.isKey u n p)).map Table.columns

/-- `remove_fs_object`, from what its two lookups gave. -/
def remove_with (st : Store) (user_id object_name object_path : Bytes)
    (db_output object_ids_for_removal : List Bytes) : Store × Bool :=
  let object := objectOf db_output
  if object.id = [] then (st, false)
  else
    let st :=
      if object.is_directory then
        let st := object_ids_for_removal.foldl Store.remove_file st
        { st with
          table :=
            st.table.delete_where (whereBelow user_id (prefix_pattern object_path object_name)) }
      else st
    let st := st.remove_file object.id
    ({ st with table := st.table.delete (fun r => decide (r.object_id = object.id)) }, true)

theorem remove_with_whole (st : Store) (u n p : Bytes) :
    remove_with st u n p (run_param_query (lookupRows st.table u n p))
      (run_param_query (object_ids_below st.table u (prefix_pattern p n))) =
        remove_fs_object st u n p :=
  rfl

/-! ## The truth of a query -/

/-- A query that fails throws, and every other query gives its whole result, row by row. So a
lookup finds nothing only where there is no row, and a removal gets the ids of all files below the
directory. -/
structure Honest {answer : List (List Bytes)} (c : Call answer) : Prop where
  whole : (∃ e, c.run = .error e) ∨ c.run = .ok (run_param_query answer)
  not_found : ∀ t u n p, answer = lookupRows t u n p → ∀ db_output, c.run = .ok db_output →
    objectOf db_output = {} → ∀ r ∈ t.rows, Table.isKey u n p r = false
  removal : ∀ st u n p, answer = object_ids_below st.table u (prefix_pattern p n) →
    ∀ object_ids, c.run = .ok object_ids →
      remove_with st u n p (run_param_query (lookupRows st.table u n p)) object_ids =
        remove_fs_object st u n p

/-- The query fails before the steps; or SQLite calls the step a misuse; or the loop does not end
before the last row. -/
def EndsWell {answer : List (List Bytes)} (c : Call answer) : Prop :=
  c.prepared ≠ SQLITE_OK ∨ (∃ rc ∈ c.bound, rc ≠ SQLITE_OK) ∨ c.rc = SQLITE_MISUSE ∨
    c.rows = answer

/-- Rows with columns are as many as their texts tell. -/
theorem eq_of_run_param_query {rows answer : List (List Bytes)} (h : rows <+: answer)
    (hcolumns : ∀ row ∈ answer, row ≠ [])
    (he : run_param_query rows = run_param_query answer) : rows = answer := by
  obtain ⟨rest, rfl⟩ := h
  rw [run_param_query, run_param_query, List.flatMap_append, List.self_eq_append_right] at he
  rcases rest with _ | ⟨row, rest⟩
  · rw [List.append_nil]
  · rw [List.flatMap_cons, List.append_eq_nil_iff, List.map_eq_nil_iff] at he
    exact absurd he.1 (hcolumns row (by simp))

theorem whole_iff {answer : List (List Bytes)} (c : Call answer) :
    ((∃ e, c.run = .error e) ∨ c.run = .ok (run_param_query answer)) ↔ EndsWell c := by
  unfold EndsWell Call.run
  by_cases hp : c.prepared ≠ SQLITE_OK
  · rw [if_pos hp]
    exact iff_of_true (Or.inl ⟨_, rfl⟩) (Or.inl hp)
  by_cases hb : ∃ rc ∈ c.bound, rc ≠ SQLITE_OK
  · rw [if_neg hp, if_pos hb]
    exact iff_of_true (Or.inl ⟨_, rfl⟩) (Or.inr (Or.inl hb))
  rw [if_neg hp, if_neg hb, or_iff_right hp, or_iff_right hb]
  simp only
  by_cases hm : c.rc = SQLITE_MISUSE
  · rw [if_pos hm]
    exact iff_of_true (Or.inl ⟨_, rfl⟩) (Or.inl hm)
  · -- The rows that came are the result, whatever ended the loop.
    rw [if_neg hm, or_iff_right hm, stepLoop_eq, List.nil_append]
    constructor
    · rintro (⟨e, he⟩ | he)
      · cases he
      · exact eq_of_run_param_query c.in_order c.columns (Except.ok.inj he)
    · intro h
      exact Or.inr (congrArg _ (congrArg run_param_query h))

/-- A lookup of a whole result finds nothing only where there is no row. -/
theorem not_found_of_whole {t : Table} {u n p : Bytes} (h : get_object t u n p = {}) :
    ∀ r ∈ t.rows, Table.isKey u n p r = false := by
  intro r hr
  by_contra hkey
  obtain ⟨rfl, rfl, rfl⟩ := isKey_iff.mp (Bool.not_eq_false _ ▸ hkey)
  rw [get_object_of_mem hr] at h
  exact toObject_ne_empty r h

/-- For every query and all codes of its calls into SQLite, the query is honest if and only if it
fails before the steps, or a step is a misuse, or no other code ends the loop before the last
row. -/
theorem a_query_is_honest_iff {answer : List (List Bytes)} (c : Call answer) :
    Honest c ↔ EndsWell c := by
  rw [← whole_iff]
  refine ⟨Honest.whole, fun hwhole => ?_⟩
  have hall : ∀ result, c.run = .ok result → result = run_param_query answer := by
    intro result hrun
    rcases hwhole with ⟨e, he⟩ | hok
    · cases he.symm.trans hrun
    · exact Except.ok.inj (hrun.symm.trans hok)
  refine ⟨hwhole, ?_, ?_⟩
  · rintro t u n p rfl db_output hrun hempty
    obtain rfl := hall db_output hrun
    exact not_found_of_whole hempty
  · rintro st u n p rfl object_ids hrun
    obtain rfl := hall object_ids hrun
    exact remove_with_whole st u n p

/-- A store with the directory "a" of the user "u". -/
def storeWithA : Store :=
  (create_object Store.empty (.ofRand 1) [] (lit "u") (lit "a") (lit "/") 0 true).1

/-- The lookup of that directory while another connection holds a lock: the first step gives
SQLITE_BUSY. -/
def busyLookup : Call (lookupRows storeWithA.table (lit "u") (lit "a") (lit "/")) where
  prepared := SQLITE_OK
  bound := [SQLITE_OK, SQLITE_OK, SQLITE_OK]
  rows := []
  rc := SQLITE_BUSY
  in_order := List.nil_prefix
  ended := by decide
  done := fun h => absurd h (by decide)
  columns := by decide

/-- The directory is there, and the lookup says that it is not. -/
theorem a_busy_lookup_finds_nothing : ¬ Honest busyLookup := by
  intro h
  have hrun : busyLookup.run = .ok [] := by decide
  have hnone := h.not_found storeWithA.table (lit "u") (lit "a") (lit "/") rfl [] hrun rfl
  exact absurd hnone (by decide)

end asio_ftp.queries
