-- Reads of a fixed size: a reader takes `n` elements at a time, and the read that gets fewer is
-- its last one. So a list whose length is a multiple of `n` ends with an empty read.
import Mathlib.Data.List.Basic

namespace buffered

variable {α : Type*}

/-- What each read gives, the short one last. -/
def reads (n : Nat) (l : List α) : List (List α) :=
  if 0 < n ∧ n ≤ l.length then l.take n :: reads n (l.drop n) else [l]
termination_by l.length
decreasing_by
  rw [List.length_drop]
  omega

theorem reads_short {n : Nat} {l : List α} (h : l.length < n) : reads n l = [l] := by
  rw [reads, if_neg (fun hn => absurd hn.2 (by omega))]

theorem reads_full {n : Nat} {l : List α} (hn : 0 < n) (h : n ≤ l.length) :
    reads n l = l.take n :: reads n (l.drop n) := by
  rw [reads, if_pos ⟨hn, h⟩]

/-- The reads give the whole list. -/
theorem flatten_reads (n : Nat) (l : List α) : (reads n l).flatten = l := by
  induction l using reads.induct n with
  | case1 l h ih => rw [reads_full h.1 h.2, List.flatten_cons, ih, List.take_append_drop]
  | case2 l h => rw [reads, if_neg h, List.flatten_singleton]

/-- There is one read for each `n` elements, and the short one. -/
theorem length_reads {n : Nat} (hn : 0 < n) (l : List α) :
    (reads n l).length = l.length / n + 1 := by
  induction l using reads.induct n with
  | case1 l h ih =>
    rw [reads_full h.1 h.2, List.length_cons, ih, List.length_drop, Nat.div_eq_sub_div hn h.2]
  | case2 l h =>
    have hl : l.length < n := by omega
    rw [reads_short hl, Nat.div_eq_of_lt hl]
    rfl

end buffered
