-- Canonical paths: "/" or "/s1/.../sn", each part non-empty and with no slash.
-- On these, the two path helpers undo the join of a directory and a name.
import AsioFtp.Helpers

namespace asio_ftp.paths

open helpers

/-- A part of a path: non-empty, with no slash. -/
def Segment (s : Bytes) : Prop := s ≠ [] ∧ slash ∉ s

instance (s : Bytes) : Decidable (Segment s) := inferInstanceAs (Decidable (_ ∧ _))

/-- The path of the parts: "/" for no part, and else "/s1/.../sn". -/
def pathOf (segs : List Bytes) : Bytes :=
  if segs = [] then [slash] else segs.flatMap (slash :: ·)

def Canonical (p : Bytes) : Prop := ∃ segs, (∀ s ∈ segs, Segment s) ∧ p = pathOf segs

/-- The path of the object `n` in the directory `d`. -/
def joinPath (d n : Bytes) : Bytes := if d = [slash] then slash :: n else d ++ slash :: n

theorem canonical_root : Canonical [slash] := ⟨[], by simp, rfl⟩

theorem flatMap_head {segs : List Bytes} (h : segs ≠ []) :
    ∃ rest, segs.flatMap (slash :: ·) = slash :: rest := by
  rcases segs with _ | ⟨s, segs⟩
  · exact absurd rfl h
  · exact ⟨s ++ segs.flatMap (slash :: ·), by simp⟩

theorem pathOf_head (segs : List Bytes) : ∃ rest, pathOf segs = slash :: rest := by
  unfold pathOf
  split
  · exact ⟨[], rfl⟩
  · next h => exact flatMap_head h

theorem Canonical.head {p : Bytes} (h : Canonical p) : ∃ rest, p = slash :: rest := by
  obtain ⟨segs, -, rfl⟩ := h
  exact pathOf_head segs

theorem Canonical.ne_nil {p : Bytes} (h : Canonical p) : p ≠ [] := by
  obtain ⟨rest, rfl⟩ := h.head
  simp

theorem Canonical.getElem?_zero {p : Bytes} (h : Canonical p) : p[0]? = some slash := by
  obtain ⟨rest, rfl⟩ := h.head
  rfl

/-- Only the empty list of parts has the path "/". -/
theorem pathOf_eq_root {segs : List Bytes} (h : ∀ s ∈ segs, Segment s) :
    pathOf segs = [slash] ↔ segs = [] := by
  constructor
  · intro he
    rcases segs with _ | ⟨s, segs⟩
    · rfl
    · have hs := (h s List.mem_cons_self).1
      have := congrArg List.length he
      simp only [pathOf, reduceCtorEq, if_false, List.flatMap_cons, List.cons_append,
        List.length_cons, List.length_append, List.length_nil] at this
      exact absurd (List.length_eq_zero_iff.mp (by omega)) hs
  · rintro rfl
    rfl

/-! ## Canonical paths can be checked -/

theorem intercalate_slash (x : Bytes) (segs : List Bytes) :
    [slash].intercalate (x :: segs) = x ++ segs.flatMap (slash :: ·) := by
  induction segs generalizing x with
  | nil => simp
  | cons s segs ih => simp [List.intercalate_cons_cons, ih]

/-- The parts of a path. -/
def partsOf (p : Bytes) : List Bytes := (p.splitOn slash).tail

theorem partsOf_pathOf {segs : List Bytes} (hne : segs ≠ []) (h : ∀ s ∈ segs, Segment s) :
    partsOf (pathOf segs) = segs := by
  have hi := intercalate_slash [] segs
  rw [List.nil_append] at hi
  unfold partsOf pathOf
  rw [if_neg hne, ← hi, List.splitOn_intercalate]
  · rfl
  · intro s hs
    rcases List.mem_cons.mp hs with rfl | hs
    · simp
    · exact (h s hs).2
  · simp

theorem canonical_iff (p : Bytes) :
    Canonical p ↔ p = [slash] ∨ (∀ s ∈ partsOf p, Segment s) ∧ p = pathOf (partsOf p) := by
  constructor
  · rintro ⟨segs, hs, rfl⟩
    by_cases hne : segs = []
    · exact Or.inl ((pathOf_eq_root hs).mpr hne)
    · rw [partsOf_pathOf hne hs]
      exact Or.inr ⟨hs, rfl⟩
  · rintro (rfl | ⟨hs, hp⟩)
    · exact canonical_root
    · exact ⟨_, hs, hp⟩

instance (p : Bytes) : Decidable (Canonical p) := decidable_of_iff' _ (canonical_iff p)

/-- A canonical path does not begin with two slashes. -/
theorem Canonical.no_double {p : Bytes} (h : Canonical p) : ¬ [slash, slash] <+: p := by
  rintro ⟨rest, hr⟩
  obtain ⟨segs, hs, rfl⟩ := h
  rcases segs with _ | ⟨s, segs⟩
  · simp [pathOf] at hr
  · obtain ⟨hne, hno⟩ := hs s List.mem_cons_self
    rcases s with _ | ⟨c, s⟩
    · exact hne rfl
    · simp only [pathOf, reduceCtorEq, if_false, List.flatMap_cons, List.cons_append,
        List.nil_append, List.cons.injEq, true_and] at hr
      exact hno (hr.1 ▸ List.mem_cons_self)

/-! ## Joins -/

theorem pathOf_snoc {segs : List Bytes} (h : ∀ s ∈ segs, Segment s) (n : Bytes) :
    pathOf (segs ++ [n]) = joinPath (pathOf segs) n := by
  unfold joinPath
  by_cases he : segs = []
  · subst he
    simp [pathOf]
  · rw [if_neg (mt (pathOf_eq_root h).mp he)]
    simp [pathOf, he]

theorem Canonical.join {d n : Bytes} (hd : Canonical d) (hn : Segment n) :
    Canonical (joinPath d n) := by
  obtain ⟨segs, hs, rfl⟩ := hd
  refine ⟨segs ++ [n], ?_, (pathOf_snoc hs n).symm⟩
  intro s h
  rcases List.mem_append.mp h with h | h
  · exact hs s h
  · rwa [List.mem_singleton.mp h]

/-- A canonical path is the root, or the join of a canonical path and a part. -/
theorem Canonical.cases {p : Bytes} (h : Canonical p) :
    p = [slash] ∨ ∃ d n, Canonical d ∧ Segment n ∧ p = joinPath d n := by
  obtain ⟨segs, hs, rfl⟩ := h
  rcases List.eq_nil_or_concat segs with rfl | ⟨init, n, rfl⟩
  · exact Or.inl rfl
  · rw [List.concat_eq_append] at hs ⊢
    have hi : ∀ s ∈ init, Segment s := fun s h => hs s (List.mem_append_left _ h)
    exact Or.inr ⟨pathOf init, n, ⟨init, hi, rfl⟩, hs n (by simp), pathOf_snoc hi n⟩

/-- A join as a text cut at its last slash. -/
theorem joinPath_eq (d n : Bytes) :
    joinPath d n = (if d = [slash] then [] else d) ++ slash :: n := by
  unfold joinPath
  split <;> rfl

theorem joinPath_ne_root (d : Bytes) {n : Bytes} (hn : Segment n) : joinPath d n ≠ [slash] := by
  intro h
  have hl := congrArg List.length h
  have h1 : 1 ≤ n.length := List.length_pos_iff.mpr hn.1
  rw [joinPath_eq, List.length_append, List.length_cons, List.length_singleton] at hl
  omega

/-- The base name undoes the join. -/
theorem get_basename_join (d : Bytes) {n : Bytes} (hn : slash ∉ n) :
    get_basename (joinPath d n) = n := by
  rw [joinPath_eq, get_basename_of_slash hn]

/-- The parent path undoes the join. -/
theorem get_parent_path_join {d n : Bytes} (hd : Canonical d) (hn : slash ∉ n) :
    get_parent_path (joinPath d n) = d := by
  rw [joinPath_eq]
  by_cases he : d = [slash]
  · subst he
    rw [if_pos rfl, get_parent_path_of_slash hn (by simp), if_pos rfl]
  · rw [if_neg he, get_parent_path_of_slash hn (fun _ => hd.getElem?_zero), if_neg hd.ne_nil]

theorem Canonical.parent {p : Bytes} (h : Canonical p) : Canonical (get_parent_path p) := by
  rcases h.cases with rfl | ⟨d, n, hd, hn, rfl⟩
  · exact canonical_root
  · rwa [get_parent_path_join hd hn.2]

/-- An absolute path whose parent is canonical and whose base name is a part is a canonical
join, but for "//n". -/
theorem eq_join_of_parent {p : Bytes} (h0 : p[0]? = some slash)
    (hd : Canonical (get_parent_path p)) :
    p = joinPath (get_parent_path p) (get_basename p) ∨
      p = slash :: slash :: get_basename p := by
  have hs : slash ∈ p := List.mem_of_getElem? h0
  obtain ⟨d, n, rfl, hn⟩ := exists_last_slash hs
  have hd0 : d ≠ [] → d[0]? = some slash := by
    intro hne
    rwa [List.getElem?_append_left (List.length_pos_iff.mpr hne)] at h0
  rw [get_parent_path_of_slash hn hd0] at hd ⊢
  rw [get_basename_of_slash hn]
  by_cases he : d = []
  · subst he
    exact Or.inl (by simp [joinPath])
  · rw [if_neg he] at hd ⊢
    by_cases hr : d = [slash]
    · subst hr
      exact Or.inr rfl
    · exact Or.inl (by rw [joinPath, if_neg hr])

/-! ## The scans -/

/-- The indices that the scan of `get_basename` reads, from index `i` down. -/
def basenameReads (path : Bytes) : Nat → List Nat
  | 0 => [0]
  | i + 1 => (i + 1) :: if path[i + 1]? = some slash then [] else basenameReads path i

/-- The indices that the scan of `get_parent_path` reads. -/
def parentReads (path : Bytes) : Nat → List Nat
  | 0 => []
  | 1 => []
  | i + 2 => (i + 2) :: if path[i + 2]? = some slash then [] else parentReads path (i + 1)

theorem le_of_mem_basenameReads {path : Bytes} {i k : Nat} (h : k ∈ basenameReads path i) :
    k ≤ i := by
  induction i with
  | zero => simpa [basenameReads] using h
  | succ i ih =>
    rcases List.mem_cons.mp h with rfl | h
    · exact Nat.le_refl _
    · split at h
      · cases h
      · exact Nat.le_succ_of_le (ih h)

theorem le_of_mem_parentReads {path : Bytes} {i k : Nat} (h : k ∈ parentReads path i) : k ≤ i := by
  induction i with
  | zero => cases h
  | succ i ih =>
    rcases i with _ | i
    · cases h
    · rcases List.mem_cons.mp h with rfl | h
      · exact Nat.le_refl _
      · split at h
        · cases h
        · exact Nat.le_succ_of_le (ih h)

/-- The scan of `get_basename` stays in the path and stops at a slash: the index does not wrap. -/
theorem basenameScan_in_path {path : Bytes} (h : slash ∈ path) :
    (∃ i, basenameScan path (path.length - 1) = some i ∧ i ≤ path.length) ∧
      ∀ k ∈ basenameReads path (path.length - 1), k < path.length := by
  constructor
  · obtain ⟨d, n, rfl, hn⟩ := exists_last_slash h
    exact ⟨d.length + 1, basenameScan_eq hn _ (by simp), by simp⟩
  · intro k hk
    have hle := le_of_mem_basenameReads hk
    have hpos := List.length_pos_of_mem h
    omega

/-- The scan of `get_parent_path` stays in the path, and above its first byte. -/
theorem parentScan_in_path {path : Bytes} (h : 1 < path.length) :
    1 ≤ parentScan path (path.length - 1) ∧ parentScan path (path.length - 1) < path.length ∧
      ∀ k ∈ parentReads path (path.length - 1), k < path.length := by
  have hle := parentScan_le path (path.length - 1)
  refine ⟨one_le_parentScan _ _ (by omega), by omega, fun k hk => ?_⟩
  have hk' := le_of_mem_parentReads hk
  omega

/-! ## The law -/

/-- The path helpers undo the join of a canonical directory and a name, every canonical path but the
root is the join of what they give, and on every text their scans stay in the text. -/
theorem a_path_is_the_join_of_its_parent_and_its_name :
    (∀ d n : Bytes, Canonical d → n ≠ [] → slash ∉ n →
      get_basename (joinPath d n) = n ∧ get_parent_path (joinPath d n) = d) ∧
    (∀ p : Bytes, Canonical p → p ≠ [slash] →
      p = joinPath (get_parent_path p) (get_basename p) ∧ Canonical (get_parent_path p)) ∧
    (∀ p : Bytes, p ≠ [] → slash ∈ p →
      (∃ i, basenameScan p (p.length - 1) = some i ∧ i ≤ p.length) ∧
        ∀ k ∈ basenameReads p (p.length - 1), k < p.length) ∧
    (∀ p : Bytes, 1 < p.length →
      1 ≤ parentScan p (p.length - 1) ∧ parentScan p (p.length - 1) < p.length ∧
        ∀ k ∈ parentReads p (p.length - 1), k < p.length) := by
  refine ⟨?_, ?_, fun p _ hs => basenameScan_in_path hs, fun p hp => parentScan_in_path hp⟩
  · intro d n hd _ hn
    exact ⟨get_basename_join d hn, get_parent_path_join hd hn⟩
  · intro p hp hroot
    obtain ⟨d, n, hd, hn, rfl⟩ := hp.cases.resolve_left hroot
    rw [get_parent_path_join hd hn.2, get_basename_join d hn.2]
    exact ⟨rfl, hd⟩

/-- The law at a name of one byte in the root, at a deep path, and at a text of slashes. -/
theorem a_path_is_the_join_of_a_one_byte_name :
    (get_basename (lit "/a") = lit "a" ∧ get_parent_path (lit "/a") = lit "/") ∧
      lit "/a/b/c" = joinPath (get_parent_path (lit "/a/b/c")) (get_basename (lit "/a/b/c")) ∧
      (∀ k ∈ basenameReads (lit "//") 1, k < 2) ∧ ∀ k ∈ parentReads (lit "//") 1, k < 2 :=
  ⟨a_path_is_the_join_of_its_parent_and_its_name.1 (lit "/") (lit "a") canonical_root (by decide)
      (by decide),
    (a_path_is_the_join_of_its_parent_and_its_name.2.1 (lit "/a/b/c") (by decide) (by decide)).1,
    (a_path_is_the_join_of_its_parent_and_its_name.2.2.1 (lit "//") (by decide) (by decide)).2,
    (a_path_is_the_join_of_its_parent_and_its_name.2.2.2 (lit "//") (by decide)).2.2⟩

end asio_ftp.paths
