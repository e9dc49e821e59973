-- File trees: which paths of names lead to a directory, and which to a file with what in it. What
-- a name is and what a file holds are parameters.
import Mathlib.Data.List.Infix
import Mathlib.Data.Set.Basic
import Mathlib.Logic.Function.Basic

namespace filetrees

open Classical

variable {ν β : Type*}

inductive Node (β : Type*)
  | directory
  | file (content : β)

/-- The empty path leads to the root, and everything is in a directory. -/
@[ext]
structure FileTree (ν β : Type*) where
  node : List ν → Option (Node β)
  root : node [] = some .directory
  parent : ∀ d n x, node (d ++ [n]) = some x → node d = some .directory

namespace FileTree

/-! ## The parts of a path -/

/-- Above every node there are directories only. -/
theorem directory_above (t : FileTree ν β) {p q : List ν} (hq : q ≠ []) {x : Node β}
    (h : t.node (p ++ q) = some x) : t.node p = some .directory := by
  induction q using List.reverseRecOn generalizing x with
  | nil => exact absurd rfl hq
  | append_singleton q n ih =>
    rw [← List.append_assoc] at h
    have hdir := t.parent _ _ _ h
    by_cases he : q = []
    · rwa [he, List.append_nil] at hdir
    · exact ih he hdir

/-- Below a node that is no directory there is nothing. -/
theorem none_below (t : FileTree ν β) {p q : List ν} (hp : t.node p ≠ some .directory)
    (h : p <+: q) (hne : q ≠ p) : t.node q = none := by
  obtain ⟨rest, rfl⟩ := h
  cases hq : t.node (p ++ rest) with
  | none => rfl
  | some x =>
    refine absurd (t.directory_above (fun he => ?_) hq) hp
    exact hne (by rw [he, List.append_nil])

/-! ## The operations -/

/-- The tree with the root alone. -/
def empty : FileTree ν β where
  node p := if p = [] then some .directory else none
  root := if_pos rfl
  parent := by
    intro d n x h
    rw [if_neg (by simp)] at h
    cases h

/-- A new node `n` in the directory `d`. -/
noncomputable def insert (t : FileTree ν β) (d : List ν) (n : ν) (x : Node β) : FileTree ν β :=
  if h : t.node d = some .directory ∧ t.node (d ++ [n]) = none then
    { node := Function.update t.node (d ++ [n]) (some x)
      root := by rw [Function.update_of_ne (by simp), t.root]
      parent := by
        intro e m y hy
        have hne : e ≠ d ++ [n] := by
          rintro rfl
          rw [Function.update_of_ne (by simp)] at hy
          cases h.2.symm.trans (t.parent _ _ _ hy)
        rw [Function.update_of_ne hne]
        by_cases he : e ++ [m] = d ++ [n]
        · obtain ⟨rfl, -⟩ := List.append_inj' he rfl
          exact h.1
        · rw [Function.update_of_ne he] at hy
          exact t.parent _ _ _ hy }
  else t

/-- The file of a path gets another content. -/
noncomputable def rewrite (t : FileTree ν β) (p : List ν) (f : β → β) : FileTree ν β where
  node q :=
    match t.node q with
    | some (.file content) => some (.file (if q = p then f content else content))
    | x => x
  root := by rw [t.root]
  parent := by
    intro d n x h
    have hx : ∃ y, t.node (d ++ [n]) = some y := by
      cases hy : t.node (d ++ [n]) with
      | none =>
        rw [hy] at h
        cases h
      | some y => exact ⟨y, rfl⟩
    obtain ⟨y, hy⟩ := hx
    rw [t.parent _ _ _ hy]

/-- The node `n` of the directory `d` goes, with all that is below it. -/
noncomputable def erase (t : FileTree ν β) (d : List ν) (n : ν) : FileTree ν β where
  node q := if d ++ [n] <+: q then none else t.node q
  root := by
    have h : ¬ d ++ [n] <+: [] := fun h => absurd (List.prefix_nil.mp h) (by simp)
    rw [if_neg h, t.root]
  parent := by
    intro e m x h
    split at h
    · cases h
    · next hnot =>
      have hnot' : ¬ d ++ [n] <+: e := fun he => hnot (he.trans (List.prefix_append e [m]))
      rw [if_neg hnot']
      exact t.parent _ _ _ h

/-- The names in a directory. -/
def names (t : FileTree ν β) (d : List ν) : Set ν := {n | t.node (d ++ [n]) ≠ none}

/-! ## What the operations do -/

section
variable (t : FileTree ν β) (d : List ν) (n : ν)

theorem insert_of_not {x : Node β}
    (h : ¬ (t.node d = some .directory ∧ t.node (d ++ [n]) = none)) : t.insert d n x = t :=
  dif_neg h

theorem node_insert {x : Node β} (h : t.node d = some .directory ∧ t.node (d ++ [n]) = none)
    (q : List ν) : (t.insert d n x).node q = if q = d ++ [n] then some x else t.node q := by
  rw [insert, dif_pos h]
  by_cases hq : q = d ++ [n]
  · rw [if_pos hq, hq]
    exact Function.update_self ..
  · rw [if_neg hq]
    exact Function.update_of_ne hq ..

theorem node_rewrite (p : List ν) (f : β → β) (q : List ν) : (t.rewrite p f).node q =
    match t.node q with
    | some (.file content) => some (.file (if q = p then f content else content))
    | x => x := rfl

theorem node_erase (q : List ν) :
    (t.erase d n).node q = if d ++ [n] <+: q then none else t.node q := rfl

/-- What is not there goes without a trace. -/
theorem erase_of_none (h : t.node (d ++ [n]) = none) : t.erase d n = t := by
  ext1
  funext q
  rw [node_erase]
  by_cases hq : d ++ [n] <+: q
  · rw [if_pos hq]
    by_cases he : q = d ++ [n]
    · rw [he, h]
    · exact (t.none_below (by rw [h]; simp) hq he).symm
  · rw [if_neg hq]

end

end FileTree

end filetrees
