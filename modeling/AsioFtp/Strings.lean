-- The laws of the split, join and replace helpers: a split gives the one cut of its text, a join
-- undoes it, and a replacement joins the same pieces by another text.
import AsioFtp.Helpers
import AsioFtp.Lib.Cuts

namespace asio_ftp.strings

open helpers cuts

/-! ## The search -/

theorem find_eq_none_iff (d l : Bytes) : find d l = none ↔ ¬ d <:+: l := by
  induction l with
  | nil => simp [find]
  | cons c l ih =>
    rw [List.infix_cons_iff, not_or, ← ih, find, ← List.isPrefixOf_iff_prefix]
    split
    · next h => simp [h]
    · next h => simp [h]

/-- The search stops at the first occurrence. -/
theorem cut_of_find {d l : Bytes} {index : Nat} (h : find d l = some index) :
    ∃ piece rest, l = piece ++ d ++ rest ∧ piece.length = index ∧ IsFirst d piece rest := by
  induction l generalizing index with
  | nil =>
    unfold find at h
    split at h
    · next hd => exact ⟨[], [], by simp [hd], by simpa using h, isFirst_nil d []⟩
    · cases h
  | cons c l ih =>
    unfold find at h
    split at h
    · next hpre =>
      obtain ⟨rest, hrest⟩ := List.isPrefixOf_iff_prefix.mp hpre
      exact ⟨[], rest, by simp [hrest], by simpa using h, isFirst_nil d rest⟩
    · next hpre =>
      obtain ⟨i, hi, rfl⟩ := Option.map_eq_some_iff.mp h
      obtain ⟨piece, rest, rfl, rfl, hfirst⟩ := ih hi
      exact ⟨c :: piece, rest, rfl, rfl,
        hfirst.cons (fun hp => hpre (List.isPrefixOf_iff_prefix.mpr hp))⟩

/-! ## The loops -/

/-- Both loops walk through the pieces of one cut, and end: the first gives the pieces, and the
second the pieces joined by the replacement. -/
theorem loops_cut {d : Bytes} (hd : d ≠ []) (replace : Bytes) (fuel : Nat) (rest : Bytes)
    (h : rest.length < fuel) : ∃ pieces, Cut d rest pieces ∧ splitLoop d fuel rest = some pieces ∧
      replaceLoop d replace fuel rest = some (replace.intercalate pieces) := by
  induction fuel generalizing rest with
  | zero => omega
  | succ fuel ih =>
    unfold splitLoop replaceLoop
    cases hf : find d rest with
    | none => exact ⟨[rest], .last ((find_eq_none_iff d rest).mp hf), rfl, by simp⟩
    | some index =>
      obtain ⟨piece, rest, rfl, rfl, hfirst⟩ := cut_of_find hf
      have hpos := List.length_pos_iff.mpr hd
      simp only [List.length_append] at h
      have hdrop : (piece ++ d ++ rest).drop (piece.length + d.length) = rest :=
        List.drop_left' (List.length_append ..)
      have htake : (piece ++ d ++ rest).take piece.length = piece := by
        rw [List.append_assoc, List.take_left]
      obtain ⟨pieces, hcut, hsplit, hreplace⟩ := ih rest (by omega)
      refine ⟨piece :: pieces, .next hfirst hcut, ?_, ?_⟩
      · simp only [hdrop, htake, hsplit, Option.map_some]
      · obtain ⟨first, others, rfl⟩ := List.exists_cons_of_ne_nil hcut.ne_nil
        simp only [hdrop, htake, hreplace, Option.map_some, List.intercalate_cons_cons]

/-- A text that is shorter than the delimiter has one piece, and the loop would give it too. -/
theorem cut_of_short {d s : Bytes} (h : s.length < d.length) : Cut d s [s] :=
  .last (fun hin => Nat.not_le_of_lt h hin.length_le)

/-- A split gives the pieces of the one cut of its text. -/
theorem cut_string_split {d s : Bytes} (hd : d ≠ []) (hs : s ≠ []) :
    Cut d s (string_split s d) := by
  unfold string_split
  rw [if_neg hs]
  split
  · next h => exact cut_of_short (h.resolve_left hd)
  · obtain ⟨pieces, hcut, hsplit, -⟩ := loops_cut hd [] (s.length + 1) s (Nat.lt_succ_self _)
    rwa [hsplit, Option.getD_some]

/-- A replacement joins the pieces of the one cut of its text by the new text: what it puts in is
not read again. -/
theorem string_replace_of_cut {search s : Bytes} {pieces : List Bytes} (hd : search ≠ [])
    (hcut : Cut search s pieces) (replace : Bytes) :
    string_replace s search replace = replace.intercalate pieces := by
  unfold string_replace
  split
  · next h =>
    -- The shortcuts: there is nothing to replace, or the two texts are the same.
    rcases h with rfl | h | h | rfl
    · have hnil : Cut search [] [[]] := cut_of_short (List.length_pos_iff.mpr hd)
      rw [hcut.unique hnil, List.intercalate_singleton]
    · exact absurd h hd
    · rw [hcut.unique (cut_of_short h), List.intercalate_singleton]
    · exact hcut.intercalate_eq.symm
  · obtain ⟨pieces', hcut', -, hreplace⟩ :=
      loops_cut hd replace (s.length + 1) s (Nat.lt_succ_self _)
    rw [hreplace, Option.getD_some, hcut.unique hcut']

/-! ## The laws -/

/-- For every text and every non-empty delimiter, the loop of a split ends, a join undoes the split,
and no piece has the delimiter. For every vector of texts without the one byte of a delimiter, a
split undoes the join, but for the vector of one empty text. -/
theorem split_and_join_are_inverse :
    (∀ s d : Bytes, d ≠ [] →
      (splitLoop d (s.length + 1) s).isSome ∧ string_join (string_split s d) d = s ∧
        ∀ piece ∈ string_split s d, ¬ d <:+: piece) ∧
    (∀ (v : List Bytes) (c : UInt8), v ≠ [] → v ≠ [[]] → (∀ x ∈ v, c ∉ x) →
      string_split (string_join v [c]) [c] = v) := by
  constructor
  · intro s d hd
    obtain ⟨pieces, -, hsplit, -⟩ := loops_cut hd [] (s.length + 1) s (Nat.lt_succ_self _)
    refine ⟨by simp [hsplit], ?_⟩
    by_cases hs : s = []
    · subst hs
      exact ⟨rfl, by simp [string_split]⟩
    · have hcut := cut_string_split hd hs
      exact ⟨by rw [string_join_eq, hcut.intercalate_eq], hcut.not_infix hd⟩
  · intro v c hv hv' hc
    have hcut : Cut [c] (string_join v [c]) v := string_join_eq v [c] ▸ cut_intercalate [] hv hc
    refine (cut_string_split (by simp) ?_).unique hcut
    intro he
    -- Only the vector of one empty text joins to the empty text.
    rw [he] at hcut
    exact hv' (hcut.unique (.last (by simp)))

/-- The law at a text that begins and ends with a delimiter of two bytes, and at a vector with
empty texts. -/
theorem split_and_join_of_empty_pieces :
    string_join (string_split (lit "::a::") (lit "::")) (lit "::") = lit "::a::" ∧
      string_split (string_join [[], lit "a", []] [58]) [58] = [[], lit "a", []] :=
  ⟨(split_and_join_are_inverse.1 (lit "::a::") (lit "::") (by decide)).2.1,
    split_and_join_are_inverse.2 [[], lit "a", []] 58 (by decide) (by decide) (by decide)⟩

/-- For every text, search and replacement, a replacement is the join of the split by the new text.
For a non-empty search its loop ends, and what stands between the occurrences of the search, taken
from left to right, is joined by the new text. -/
theorem a_replacement_is_the_join_of_the_split (s search replace : Bytes) :
    string_replace s search replace = string_join (string_split s search) replace ∧
      (search ≠ [] → (replaceLoop search replace (s.length + 1) s).isSome ∧
        ∃ pieces, Cut search s pieces ∧
          string_replace s search replace = replace.intercalate pieces) := by
  constructor
  · by_cases hs : s = []
    · subst hs
      rfl
    by_cases hd : search = []
    · subst hd
      simp [string_replace, string_split, hs, string_join_singleton]
    · rw [string_replace_of_cut hd (cut_string_split hd hs), string_join_eq]
  · intro hd
    obtain ⟨pieces, hcut, -, hreplace⟩ :=
      loops_cut hd replace (s.length + 1) s (Nat.lt_succ_self _)
    exact ⟨by simp [hreplace], pieces, hcut, string_replace_of_cut hd hcut replace⟩

/-- A search that overlaps itself, and a new text that has the search in it. -/
example : string_replace (lit "aaa") (lit "aa") (lit "aab") = lit "aaba" := by decide

/-- The law at that search. -/
theorem a_replacement_of_a_search_that_overlaps :
    string_replace (lit "aaa") (lit "aa") (lit "aab") =
        string_join (string_split (lit "aaa") (lit "aa")) (lit "aab") ∧
      ∃ pieces, Cut (lit "aa") (lit "aaa") pieces ∧
        string_replace (lit "aaa") (lit "aa") (lit "aab") = (lit "aab").intercalate pieces :=
  ⟨(a_replacement_is_the_join_of_the_split _ _ _).1,
    ((a_replacement_is_the_join_of_the_split (lit "aaa") (lit "aa") (lit "aab")).2 (by decide)).2⟩

end asio_ftp.strings
