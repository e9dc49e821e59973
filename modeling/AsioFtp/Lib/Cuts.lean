-- Texts cut at a delimiter: the pieces between its occurrences, which are taken from left to
-- right and do not overlap. Joined by the delimiter, the pieces are the text again.
import Mathlib.Data.List.Infix

namespace cuts

variable {α : Type} {d l piece rest : List α} {pieces : List (List α)}

/-! ## The first occurrence -/

/-- The first occurrence of `d` in `piece ++ d ++ rest` is the one after `piece`. -/
def IsFirst (d piece rest : List α) : Prop :=
  ∀ a b, piece ++ d ++ rest = a ++ d ++ b → piece.length ≤ a.length

theorem isFirst_nil (d rest : List α) : IsFirst d [] rest := fun _ _ _ => Nat.zero_le _

/-- The first occurrence stays first behind one more element, if none begins there. -/
theorem IsFirst.cons {x : α} (h : IsFirst d piece rest)
    (hno : ¬ d <+: x :: (piece ++ d ++ rest)) : IsFirst d (x :: piece) rest := by
  intro a b he
  rcases a with _ | ⟨y, a⟩
  · exact absurd ⟨b, he.symm⟩ hno
  · simp only [List.cons_append, List.cons.injEq] at he
    exact Nat.succ_le_succ (h a b he.2)

/-- What stands before the first occurrence does not have the delimiter. -/
theorem IsFirst.not_infix (hd : d ≠ []) (h : IsFirst d piece rest) : ¬ d <:+: piece := by
  rintro ⟨a, b, rfl⟩
  have hle := h a (b ++ d ++ rest) (by simp only [List.append_assoc])
  have hpos := List.length_pos_iff.mpr hd
  simp only [List.length_append] at hle
  omega

/-- The text decides what stands before its first occurrence and after it. -/
theorem IsFirst.unique {piece' rest' : List α} (h : IsFirst d piece rest)
    (h' : IsFirst d piece' rest') (he : piece ++ d ++ rest = piece' ++ d ++ rest') :
    piece = piece' ∧ rest = rest' := by
  have hlen : piece.length = piece'.length := Nat.le_antisymm (h _ _ he) (h' _ _ he.symm)
  rw [List.append_assoc, List.append_assoc] at he
  obtain ⟨hp, he⟩ := List.append_inj he hlen
  exact ⟨hp, List.append_cancel_left he⟩

/-- A piece without the head of the delimiter ends at its first occurrence. -/
theorem isFirst_of_notMem {x : α} (h : x ∉ piece) (d rest : List α) :
    IsFirst (x :: d) piece rest := by
  intro a b he
  by_contra hlt
  -- The occurrence after `a` would begin in the piece.
  have hx : (piece ++ x :: d ++ rest)[a.length]? = some x := by
    rw [he, List.append_assoc, List.getElem?_append_right (Nat.le_refl _)]
    simp
  rw [List.append_assoc, List.getElem?_append_left (Nat.lt_of_not_le hlt)] at hx
  exact h (List.mem_of_getElem? hx)

/-! ## The pieces -/

/-- `pieces` are what stands between the occurrences of `d` in `l`. -/
inductive Cut (d : List α) : List α → List (List α) → Prop
  | last {l : List α} : ¬ d <:+: l → Cut d l [l]
  | next {piece rest : List α} {pieces : List (List α)} :
    IsFirst d piece rest → Cut d rest pieces → Cut d (piece ++ d ++ rest) (piece :: pieces)

theorem Cut.ne_nil (h : Cut d l pieces) : pieces ≠ [] := by
  cases h <;> simp

/-- The pieces joined by the delimiter are the text. -/
theorem Cut.intercalate_eq (h : Cut d l pieces) : d.intercalate pieces = l := by
  induction h with
  | last _ => simp
  | next _ hrest ih =>
    obtain ⟨first, others, rfl⟩ := List.exists_cons_of_ne_nil hrest.ne_nil
    rw [List.intercalate_cons_cons, ih]

/-- No piece has the delimiter. -/
theorem Cut.not_infix (hd : d ≠ []) (h : Cut d l pieces) : ∀ piece ∈ pieces, ¬ d <:+: piece := by
  induction h with
  | last hno =>
    intro piece hmem
    rwa [List.mem_singleton.mp hmem]
  | next hfirst _ ih =>
    intro piece hmem
    rcases List.mem_cons.mp hmem with rfl | hmem
    · exact hfirst.not_infix hd
    · exact ih piece hmem

/-- A text has one cut. -/
theorem Cut.unique {pieces' : List (List α)} (h : Cut d l pieces) (h' : Cut d l pieces') :
    pieces = pieces' := by
  induction h generalizing pieces' with
  | last hno =>
    cases h' with
    | last _ => rfl
    | next _ _ => exact absurd ⟨_, _, rfl⟩ hno
  | @next piece rest pieces hfirst _ ih =>
    generalize ht : piece ++ d ++ rest = text at h'
    cases h' with
    | last hno => exact absurd ⟨_, _, ht⟩ hno
    | next hfirst' hrest' =>
      obtain ⟨rfl, rfl⟩ := hfirst.unique hfirst' ht
      rw [ih hrest']

/-- Texts without the head of the delimiter are the pieces of their join. -/
theorem cut_intercalate {x : α} (d : List α) (hne : pieces ≠ [])
    (h : ∀ piece ∈ pieces, x ∉ piece) : Cut (x :: d) ((x :: d).intercalate pieces) pieces := by
  induction pieces with
  | nil => exact absurd rfl hne
  | cons piece pieces ih =>
    have hpiece : x ∉ piece := h piece List.mem_cons_self
    rcases pieces with _ | ⟨next, pieces⟩
    · rw [List.intercalate_singleton]
      exact .last (fun hin => hpiece (hin.subset List.mem_cons_self))
    · rw [List.intercalate_cons_cons]
      exact .next (isFirst_of_notMem hpiece d _)
        (ih (by simp) (fun p hp => h p (List.mem_cons_of_mem _ hp)))

/-- Texts that each end with the delimiter, as a join. -/
theorem intercalate_snoc_nil (d : List α) (pieces : List (List α)) :
    d.intercalate (pieces ++ [[]]) = pieces.flatMap (· ++ d) := by
  induction pieces with
  | nil => simp
  | cons piece pieces ih =>
    obtain ⟨next, others, h⟩ : ∃ next others, pieces ++ [[]] = next :: others :=
      List.exists_cons_of_ne_nil (by simp)
    rw [List.cons_append, h, List.intercalate_cons_cons, ← h, ih, List.flatMap_cons]

end cuts
