-- The laws of the tree of the store: when every object that is not in the root has its directory
-- in the table, after a history of creates, size updates and removals. A removal selects what is
-- in a directory by a LIKE pattern, and LIKE reads a pattern up to its first NUL and takes no long
-- one.
import AsioFtp.Histories

namespace asio_ftp.tree

open helpers paths sqlite_wrapper fs_objects histories

/-! ## The invariant -/

/-- The path of the objects in the directory `d`. -/
def address (d : Row) : Bytes := joinPath d.path d.name

/-- The row of the directory that holds the objects of the path of `r`. -/
def IsParent (r q : Row) : Prop :=
  q.user_id = r.user_id ∧ q.name = get_basename r.path ∧ q.path = get_parent_path r.path ∧
    q.is_directory = true

instance (r q : Row) : Decidable (IsParent r q) := inferInstanceAs (Decidable (_ ∧ _))

/-- The ids are generated, and the places of the objects are well-formed. -/
structure Formed (t : Table) : Prop where
  generated : Generated t
  canonical : ∀ r ∈ t.rows, Canonical r.path
  segment : ∀ r ∈ t.rows, Segment r.name

structure Tree (t : Table) : Prop extends Formed t where
  parent : ∀ r ∈ t.rows, r.path ≠ [slash] → ∃ q ∈ t.rows, IsParent r q

/-- A create at a well-formed place: its path is canonical and its name is a part of a path. -/
def WellFormed : Op → Prop
  | .create_object _ _ _ n p _ _ => Canonical p ∧ Segment n
  | _ => True

instance : (o : Op) → Decidable (WellFormed o)
  | .create_object .. => inferInstanceAs (Decidable (_ ∧ _))
  | .update_object_size .. => inferInstanceAs (Decidable True)
  | .remove_fs_object .. => inferInstanceAs (Decidable True)
  | .get_object .. => inferInstanceAs (Decidable True)
  | .get_objects_by_path .. => inferInstanceAs (Decidable True)

/-- The pattern of a removal takes what it leaves without a directory. A pattern that is too long
takes nothing, so there has to be nothing in the directory. A pattern with a NUL ends there, without
its '%', so it has to match what is in the directories whose path it matches. -/
def Whole (t : Table) : Op → Prop
  | .remove_fs_object u n p => ∀ d ∈ t.rows, d.user_id = u ∧ d.name = n ∧ d.path = p →
      d.is_directory = true →
      (LIKE_PATTERN_LENGTH ≤ (address d).length → ∀ r ∈ t.rows, ¬ IsParent r d) ∧
      ((0 : UInt8) ∈ address d → ∀ q ∈ t.rows, q.user_id = u → Covers (address d) q.path →
        ∀ r ∈ t.rows, IsParent r q → r = d ∨ Covers (address d) r.path)
  | _ => True

/-! ## What a pattern takes -/

theorem prefix_pattern_eq (p n : Bytes) : prefix_pattern p n = joinPath p n ++ [percent] := by
  unfold prefix_pattern joinPath
  by_cases h : p = [slash] <;> simp [h]

theorem covers_self {p : Bytes} (h : p.length < LIKE_PATTERN_LENGTH) : Covers p p := by
  have hself : Covers p (p ++ []) := covers_append h (by simp)
  rwa [List.append_nil] at hself

/-- The path of an object below a directory continues the path of that directory at a new
character, so a pattern that ends in '%' and matches the one matches the other. -/
theorem covers_join {p d : Bytes} (n : Bytes) (hp : (0 : UInt8) ∉ p) (h : Covers p d) :
    Covers p (joinPath d n) := by
  unfold joinPath
  split
  · next hd =>
    subst hd
    exact h.of_decode hp ⟨decode n, (decode_cons n (by decide) (by decide)).symm⟩
  · refine h.append hp fun c hc => ?_
    obtain rfl : slash = c := by simpa using hc
    rfl

theorem joinPath_ne_self {p n : Bytes} (hp : p ≠ [slash]) : joinPath p n ≠ p := by
  intro h
  have hlen := congrArg List.length h
  rw [joinPath, if_neg hp, List.length_append, List.length_cons] at hlen
  omega

theorem isBelow_iff {u n p : Bytes} {r : Row} :
    isBelow u (prefix_pattern p n) r = true ↔ r.user_id = u ∧ Covers (joinPath p n) r.path := by
  rw [isBelow, Bool.and_eq_true, decide_eq_true_iff, beq_iff_eq, prefix_pattern_eq,
    like_percent_iff]

/-- The rows that the removal of a directory deletes. -/
theorem removes_directory_iff {t : Table} (hg : Generated t) {d x : Row} (hd : d ∈ t.rows)
    (hdir : d.is_directory = true) (hx : x ∈ t.rows) :
    Removes t d.user_id d.name d.path x ↔
      x = d ∨ (x.user_id = d.user_id ∧ Covers (address d) x.path) := by
  unfold Removes
  rw [isBelow_iff, get_object_of_mem hd, hg.id_eq hd]
  constructor
  · rintro ⟨-, h | ⟨-, h⟩⟩
    · exact Or.inl (t.eq_of_id hx hd h)
    · exact Or.inr h
  · rintro (rfl | h)
    · exact ⟨hg.id_eq hd ▸ hg.id_ne_nil hd, Or.inl rfl⟩
    · exact ⟨hg.id_eq hd ▸ hg.id_ne_nil hd, Or.inr ⟨hdir, h⟩⟩

/-- A removal takes only the row of a file. -/
theorem eq_of_removes_file {t : Table} (hg : Generated t) {u n p : Bytes} {x : Row}
    (hx : x ∈ t.rows) (h : Removes t u n p x) :
    ∃ d ∈ t.rows, (d.user_id = u ∧ d.name = n ∧ d.path = p) ∧
      (d.is_directory = false → x = d) := by
  obtain ⟨hid, h⟩ := h
  obtain ⟨d, hd, hu, hn, hp, hobj⟩ := exists_of_get_object hid
  refine ⟨d, hd, ⟨hu, hn, hp⟩, fun hfile => ?_⟩
  rcases h with h | ⟨hdir, -⟩
  · exact t.eq_of_id hx hd (by rw [h, hobj, hg.id_eq hd])
  · rw [hobj, show d.toObject.is_directory = d.is_directory from rfl, hfile] at hdir
    cases hdir

section
variable {t : Table} (ht : Tree t) {r q : Row}
include ht

/-- The directory of the root has no name. -/
theorem path_ne_root (hq : q ∈ t.rows) (hp : IsParent r q) : r.path ≠ [slash] := by
  intro hroot
  have hname := hp.2.1
  rw [hroot] at hname
  exact (ht.segment q hq).1 (hname.trans (by decide))

variable (hr : r ∈ t.rows)
include hr

/-- The directory of an object has the path of the object for its address. -/
theorem address_of_isParent (hne : r.path ≠ [slash]) (hp : IsParent r q) : address q = r.path := by
  obtain ⟨-, hn, hp, -⟩ := hp
  obtain ⟨d, n, hd, hseg, he⟩ := (ht.canonical r hr).cases.resolve_left hne
  rw [address, hn, hp, he, get_basename_join d hseg.2, get_parent_path_join hd hseg.2]

/-- A removal that takes the directory of an object takes the object with it, if its pattern is
whole. -/
theorem removes_child {u n p : Bytes} (hw : Whole t (.remove_fs_object u n p)) (hq : q ∈ t.rows)
    (hp : IsParent r q) (h : Removes t u n p q) : Removes t u n p r := by
  have hne := path_ne_root ht hq hp
  obtain ⟨d, hd, ⟨rfl, rfl, rfl⟩, hfile⟩ := eq_of_removes_file ht.generated hq h
  have hdir : d.is_directory = true := by
    by_contra hno
    obtain rfl := hfile (by simpa using hno)
    exact hno hp.2.2.2
  obtain ⟨hlong, hnul⟩ := hw d hd ⟨rfl, rfl, rfl⟩ hdir
  rw [removes_directory_iff ht.generated hd hdir hq] at h
  rw [removes_directory_iff ht.generated hd hdir hr]
  have haddress := address_of_isParent ht hr hne hp
  rcases h with rfl | ⟨hu, hcov⟩
  · -- The object is in the directory itself.
    refine Or.inr ⟨hp.1.symm, haddress ▸ covers_self ?_⟩
    by_contra hle
    exact hlong (Nat.not_lt.mp hle) r hr hp
  · by_cases h0 : (0 : UInt8) ∈ address d
    · exact (hnul h0 q hq hu hcov r hr hp).imp_right fun h => ⟨hp.1.symm.trans hu, h⟩
    · exact Or.inr ⟨hp.1.symm.trans hu, haddress ▸ covers_join q.name h0 hcov⟩

end

/-- And a pattern that is not leaves an object without its directory. -/
theorem whole_of_parents {st : Store} (ht : Tree st.table) {u n p : Bytes}
    (h : ∀ r ∈ (remove_fs_object st u n p).1.table.rows, r.path ≠ [slash] →
      ∃ q ∈ (remove_fs_object st u n p).1.table.rows, IsParent r q) :
    Whole st.table (.remove_fs_object u n p) := by
  rintro d hd ⟨rfl, rfl, rfl⟩ hdir
  have hrem := fun x hx => removes_directory_iff (x := x) ht.generated hd hdir hx
  -- A row that stays has a directory that stays, and it has only one.
  have hstays : ∀ r ∈ st.table.rows, ∀ q ∈ st.table.rows, IsParent r q →
      Removes st.table d.user_id d.name d.path q → Removes st.table d.user_id d.name d.path r := by
    intro r hr q hq hp hgone
    by_contra hstay
    obtain ⟨q', hq', hp'⟩ := h r (mem_remove_fs_object.mpr ⟨hr, hstay⟩) (path_ne_root ht hq hp)
    obtain ⟨hq', hno⟩ := mem_remove_fs_object.mp hq'
    obtain rfl := st.table.eq_of_name_path hq hq' (hp.2.1.trans hp'.2.1.symm)
      (hp.2.2.1.trans hp'.2.2.1.symm)
    exact hno hgone
  constructor
  · intro hlong r hr hp
    rcases (hrem r hr).mp (hstays r hr d hd hp ((hrem d hd).mpr (Or.inl rfl))) with rfl | ⟨-, hcov⟩
    · exact joinPath_ne_self (path_ne_root ht hr hp)
        (address_of_isParent ht hr (path_ne_root ht hr hp) hp)
    · exact absurd hcov.1 (Nat.not_lt.mpr hlong)
  · intro _ q hq hu hcov r hr hp
    exact ((hrem r hr).mp (hstays r hr q hq hp ((hrem q hq).mpr (Or.inr ⟨hu, hcov⟩)))).imp_right
      And.right

/-! ## One call -/

theorem formed_apply {st : Store} {o : Op} (h : Formed st.table) (ho : WellFormed o) :
    Formed (apply st o).table := by
  refine ⟨generated_apply h.generated o, ?_, ?_⟩
  · intro x hx
    rcases mem_apply hx with ⟨r, hr, s, m, rfl⟩ | ⟨uuid, now, u, n, p, size, d, rfl, rfl, -⟩
    · exact h.canonical r hr
    · exact ho.1
  · intro x hx
    rcases mem_apply hx with ⟨r, hr, s, m, rfl⟩ | ⟨uuid, now, u, n, p, size, d, rfl, rfl, -⟩
    · exact h.segment r hr
    · exact ho.2

theorem tree_apply {st : Store} {o : Op} (h : Tree st.table) (ho : WellFormed o)
    (hw : Whole st.table o) : Tree (apply st o).table := by
  refine ⟨formed_apply h.toFormed ho, ?_⟩
  intro x hx hne
  cases o with
  | create_object uuid now u n p size d =>
    simp only [apply] at hx ⊢
    by_cases hc : Creatable st.table u n p
    · rw [create_object_of hc] at hx ⊢
      rcases mem_insert.mp hx with hx | ⟨rfl, -⟩
      · obtain ⟨q, hq, hp⟩ := h.parent x hx hne
        exact ⟨q, mem_insert.mpr (Or.inl hq), hp⟩
      · -- The new row: the checks of the create found its directory.
        obtain ⟨hid, hdir⟩ := hc.1 hne
        obtain ⟨q, hq, hqu, hqn, hqp, hobj⟩ := exists_of_get_object hid
        refine ⟨q, mem_insert.mpr (Or.inl hq), hqu, hqn, hqp, ?_⟩
        rw [hobj] at hdir
        exact hdir
    · rw [create_object_of_not hc] at hx ⊢
      exact h.parent x hx hne
  | update_object_size now u n p size =>
    simp only [apply, update_object_size] at hx ⊢
    split at hx
    · next hid => rw [if_pos hid]; exact h.parent x hx hne
    · next hid =>
      rw [if_neg hid]
      obtain ⟨r, hr, rfl⟩ := List.mem_map.mp hx
      obtain ⟨s, m, he⟩ := Table.resize_eq size now (get_object st.table u n p).id r
      rw [he] at hne ⊢
      obtain ⟨q, hq, hp⟩ := h.parent r hr hne
      obtain ⟨s', m', he'⟩ := Table.resize_eq size now (get_object st.table u n p).id q
      exact ⟨_, List.mem_map_of_mem hq, by rw [he']; exact hp⟩
  | remove_fs_object u n p =>
    simp only [apply] at hx ⊢
    obtain ⟨hx, hnot⟩ := mem_remove_fs_object.mp hx
    obtain ⟨q, hq, hp⟩ := h.parent x hx hne
    refine ⟨q, mem_remove_fs_object.mpr ⟨hq, ?_⟩, hp⟩
    exact fun hrem => hnot (removes_child h hx hw hq hp hrem)
  | get_object u n p => exact h.parent x hx hne
  | get_objects_by_path u p => exact h.parent x hx hne

theorem tree_after {st : Store} {ops : List Op} (h : Tree st.table)
    (hops : ∀ o ∈ ops, WellFormed o ∧ ∀ t, Whole t o) : Tree (after st ops).table := by
  induction ops generalizing st with
  | nil => exact h
  | cons o ops ih =>
    obtain ⟨ho, hw⟩ := hops o List.mem_cons_self
    exact ih (tree_apply h ho (hw st.table)) (fun x hx => hops x (List.mem_cons_of_mem _ hx))

theorem formed_empty : Formed Store.empty.table where
  generated := generated_empty
  canonical := fun _ hr => nomatch hr
  segment := fun _ hr => nomatch hr

theorem tree_empty : Tree Store.empty.table where
  toFormed := formed_empty
  parent := fun _ hr => nomatch hr

/-! ## The law -/

/-- The store after a call, where a create is one at a well-formed place. -/
def placed (st : Store) (o : Op) : Option Store :=
  if WellFormed o then some (apply st o) else none

/-- After the call, no two rows share a name and a path, and every object that is not in the root
has its directory: a row of the same user, with the base name and the parent path of its path. -/
def KeepsTree (_ : Store) (_ : Op) (st' : Store) : Prop :=
  (st'.table.rows.map (fun r => (r.name, r.path))).Nodup ∧
    ∀ r ∈ st'.table.rows, r.path ≠ [slash] → ∃ q ∈ st'.table.rows, IsParent r q

instance (st : Store) (o : Op) (st' : Store) : Decidable (KeepsTree st o st') :=
  inferInstanceAs (Decidable (_ ∧ _))

/-- In every history from an empty table, the table stays a tree if and only if each removal has a
pattern that takes what it leaves without a directory. -/
theorem every_object_keeps_its_directory_iff (ops : List Op) :
    runs.Along placed KeepsTree Store.empty ops ↔
      runs.Along placed (fun st o _ => Whole st.table o) Store.empty ops := by
  refine runs.along_iff_of_invariant (J := fun st => Tree st.table) ?_ ?_ tree_empty
  · intro st o st' ht h
    simp only [placed, Option.ite_none_right_eq_some, Option.some.injEq] at h
    obtain ⟨ho, rfl⟩ := h
    constructor
    · intro hkeeps
      cases o with
      | remove_fs_object u n p => exact whole_of_parents ht hkeeps.2
      | _ => trivial
    · exact fun hw => ⟨(apply st o).table.unique_name_path, (tree_apply ht ho hw).parent⟩
  · intro st o st' ht h hw
    simp only [placed, Option.ite_none_right_eq_some, Option.some.injEq] at h
    obtain ⟨ho, rfl⟩ := h
    exact tree_apply ht ho hw

/-- With "a" and a directory whose name is "a", a NUL and "b", the removal of the second one takes
"/a/s" and leaves "/a/s/g". -/
theorem the_removal_of_a_name_with_a_nul_leaves_an_orphan :
    ¬ runs.Along placed KeepsTree Store.empty
      [.create_object (.ofRand 1) [] (lit "u") (lit "a") (lit "/") 0 true,
        .create_object (.ofRand 2) [] (lit "u") [97, 0, 98] (lit "/") 0 true,
        .create_object (.ofRand 3) [] (lit "u") (lit "s") (lit "/a") 0 true,
        .create_object (.ofRand 4) [] (lit "u") (lit "g") (lit "/a/s") 0 false,
        .remove_fs_object (lit "u") [97, 0, 98] (lit "/")] := by
  decide

end asio_ftp.tree
