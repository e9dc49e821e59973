-- The laws of the lookups: a listing of a directory has each of its objects once, and the lookup of
-- a listed name finds the listed object, as long as no text of these objects holds a NUL.
import AsioFtp.FsObjects

namespace asio_ftp.lookups

open fs_objects

/-! ## A row as an object -/

/-- The object with the fields of the row, each as it is stored. -/
def whole (r : Row) : fs_object :=
  { id := r.object_id, name := r.name, path := r.path, size := to_string r.size,
    modified_time := r.modified_time, is_directory := r.is_directory }

/-- No text of the row has a NUL, which a bind takes with its text and a read stops at. -/
def NulFree (r : Row) : Prop := ∀ text ∈ [r.object_id, r.name, r.path, r.modified_time], 0 ∉ text

instance (r : Row) : Decidable (NulFree r) := inferInstanceAs (Decidable (∀ text ∈ _, _))

theorem c_str_eq_self_iff (b : Bytes) : c_str b = b ↔ 0 ∉ b := by
  unfold c_str
  rw [List.takeWhile_eq_self_iff]
  simp only [decide_eq_true_eq]
  exact ⟨fun h h0 => h 0 h0 rfl, fun h c hc h0 => h (h0 ▸ hc)⟩

/-- A row reads back as it is stored exactly when none of its texts has a NUL. -/
theorem toObject_eq_whole_iff (r : Row) : r.toObject = whole r ↔ NulFree r := by
  unfold Row.toObject whole NulFree
  simp only [fs_object.mk.injEq, c_str_eq_self_iff, c_str_to_string, List.forall_mem_cons,
    List.not_mem_nil, false_implies, implies_true, and_true, true_and]

theorem to_string_ne_nil (n : Int) : to_string n ≠ [] := by
  have hdigits : ∀ m, digits m ≠ [] := by
    intro m
    unfold digits
    split
    · simp
    · next h => simpa using Nat.digits_ne_nil_iff_ne_zero.mpr h
  unfold to_string
  split
  · simp
  · exact hdigits _

/-- A row never reads as the empty object, which is the answer for a missing one. -/
theorem toObject_ne_empty (r : Row) : r.toObject ≠ {} := by
  intro h
  have hsize : c_str (to_string r.size) = [] := congrArg fs_object.size h
  rw [c_str_to_string] at hsize
  exact to_string_ne_nil _ hsize

/-! ## The listing -/

/-- The rows of a directory. -/
def rowsAt (t : Table) (u p : Bytes) : List Row :=
  t.rows.filter (fun r => decide (r.user_id = u ∧ r.path = p))

theorem mem_rowsAt {t : Table} {u p : Bytes} {r : Row} :
    r ∈ rowsAt t u p ↔ r ∈ t.rows ∧ r.user_id = u ∧ r.path = p := by
  rw [rowsAt, List.mem_filter, decide_eq_true_iff]

/-- The listing has each row of the directory once, with the fields of that row. -/
structure ListsItsRows (t : Table) (u p : Bytes) : Prop where
  fields : get_objects_by_path t u p = (rowsAt t u p).map whole
  once : (get_objects_by_path t u p).Nodup

/-- The listed objects are those that the lookup of their name finds. The empty object is the
lookup's answer for none. -/
def Agrees (t : Table) (u p : Bytes) : Prop :=
  ∀ o, o ∈ get_objects_by_path t u p ↔ o ≠ {} ∧ get_object t u o.name p = o

theorem nodup_whole (t : Table) (u p : Bytes) : ((rowsAt t u p).map whole).Nodup := by
  have hsub : (rowsAt t u p).Sublist t.rows := List.filter_sublist
  refine List.Nodup.of_map (fun o : fs_object => (o.name, o.path)) ?_
  rw [List.map_map]
  exact t.unique_name_path.sublist (hsub.map _)

theorem listsItsRows_iff (t : Table) (u p : Bytes) :
    ListsItsRows t u p ↔ ∀ r ∈ rowsAt t u p, NulFree r := by
  have hlist : get_objects_by_path t u p = (rowsAt t u p).map Row.toObject :=
    get_objects_by_path_eq t u p
  constructor
  · intro h r hr
    have heq := hlist.symm.trans h.fields
    exact (toObject_eq_whole_iff r).mp (List.map_inj_left.mp heq r hr)
  · intro h
    have heq : get_objects_by_path t u p = (rowsAt t u p).map whole :=
      hlist.trans (List.map_congr_left (fun r hr => (toObject_eq_whole_iff r).mpr (h r hr)))
    exact ⟨heq, heq ▸ nodup_whole t u p⟩

/-- What the lookup finds is in the listing. -/
theorem mem_of_get_object {t : Table} {u p : Bytes} {o : fs_object} (hne : o ≠ {})
    (h : get_object t u o.name p = o) : o ∈ get_objects_by_path t u p := by
  rw [get_object_eq] at h
  cases hf : t.rows.find? (Table.isKey u o.name p) with
  | none =>
    rw [hf] at h
    exact absurd h.symm hne
  | some r =>
    rw [hf] at h
    obtain ⟨hu, -, hp⟩ := isKey_iff.mp (List.find?_some hf)
    rw [get_objects_by_path_eq]
    exact List.mem_map.mpr ⟨r, mem_rowsAt.mpr ⟨List.mem_of_find?_eq_some hf, hu, hp⟩, h⟩

theorem agrees_of_nulFree {t : Table} {u p : Bytes} (h : ∀ r ∈ rowsAt t u p, NulFree r) :
    Agrees t u p := by
  intro o
  refine ⟨fun ho => ?_, fun ⟨hne, ho⟩ => mem_of_get_object hne ho⟩
  rw [get_objects_by_path_eq] at ho
  obtain ⟨r, hr, rfl⟩ := List.mem_map.mp ho
  have hname : c_str r.name = r.name := (c_str_eq_self_iff _).mpr (h r hr _ (by simp))
  obtain ⟨hmem, rfl, rfl⟩ := mem_rowsAt.mp hr
  refine ⟨toObject_ne_empty r, ?_⟩
  have hget : get_object t r.user_id (c_str r.name) r.path = r.toObject := by
    rw [hname, get_object_of_mem hmem]
  exact hget

/-- For every table, user and path, the listing has each row of the directory once with its own
fields, and agrees with the lookup, if and only if no text of these rows has a NUL. -/
theorem the_listing_and_the_lookup_agree_iff (t : Table) (u p : Bytes) :
    (ListsItsRows t u p ∧ Agrees t u p) ↔ ∀ r ∈ rowsAt t u p, NulFree r :=
  ⟨fun h => (listsItsRows_iff t u p).mp h.1,
    fun h => ⟨(listsItsRows_iff t u p).mpr h, agrees_of_nulFree h⟩⟩

/-- The directory 'a', NUL, 'b' in the root, made as MKD makes it. -/
def tableWithNul : Table :=
  (create_object Store.empty (.ofRand 1) [] (lit "u") [97, 0, 98] (lit "/") 0 true).1.table

/-- The directory is listed as "a", and the lookup of "a" finds nothing. -/
theorem a_name_with_a_NUL_is_listed_and_not_found :
    ¬ Agrees tableWithNul (lit "u") (lit "/") := by
  intro h
  have hlisted :
      (get_objects_by_path tableWithNul (lit "u") (lit "/")).map (·.name) = [lit "a"] := by
    decide
  have hmissing : get_object tableWithNul (lit "u") (lit "a") (lit "/") = {} := by decide
  obtain ⟨o, ho, hname⟩ := List.mem_map.mp (hlisted ▸ List.mem_singleton_self (lit "a"))
  obtain ⟨hne, hget⟩ := (h o).mp ho
  rw [hname, hmissing] at hget
  exact hne hget.symm

end asio_ftp.lookups
