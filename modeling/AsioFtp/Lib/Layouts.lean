-- Texts that are laid out. A text spells its tokens with blanks between them: a writer may put blanks
-- around single symbols, and a reader may drop blanks, and the text spells the same tokens.
import Mathlib.Data.List.Basic

namespace layouts

variable {α σ : Type*}

/-- The text is the tokens in their order, with blanks before each of them and at the end. -/
inductive Spells (blank : α → Prop) : List (List α) → List α → Prop
  | nil {gap : List α} (h : ∀ b ∈ gap, blank b) : Spells blank [] gap
  | cons {gap token : List α} {tokens : List (List α)} {text : List α} (h : ∀ b ∈ gap, blank b)
      (ht : Spells blank tokens text) : Spells blank (token :: tokens) (gap ++ (token ++ text))

section
variable {blank : α → Prop} {tokens : List (List α)} {text : List α}

theorem spells_flatten (blank : α → Prop) (tokens : List (List α)) :
    Spells blank tokens tokens.flatten := by
  have hnone : ∀ b ∈ ([] : List α), blank b := by simp
  induction tokens with
  | nil => exact .nil hnone
  | cons token tokens ih => exact .cons hnone ih

/-- More blanks before a text. -/
theorem Spells.indent {gap : List α} (hgap : ∀ b ∈ gap, blank b) (h : Spells blank tokens text) :
    Spells blank tokens (gap ++ text) := by
  have hboth : ∀ {gap' : List α}, (∀ b ∈ gap', blank b) → ∀ b ∈ gap ++ gap', blank b := by
    intro gap' h' b hb
    exact (List.mem_append.mp hb).elim (hgap b) (h' b)
  cases h with
  | nil h => exact .nil (hboth h)
  | cons h ht =>
    rw [← List.append_assoc]
    exact .cons (hboth h) ht

/-- What is dropped is in no token, so a text spells the same tokens without it. -/
theorem Spells.filter {p : α → Bool} (h : Spells blank tokens text)
    (hp : ∀ token ∈ tokens, ∀ a ∈ token, p a = true) : Spells blank tokens (text.filter p) := by
  have hgap : ∀ {gap : List α}, (∀ b ∈ gap, blank b) → ∀ b ∈ gap.filter p, blank b :=
    fun hgap b hb => hgap b (List.mem_of_mem_filter hb)
  induction h with
  | nil h => exact .nil (hgap h)
  | cons h _ ih =>
    rw [List.filter_append, List.filter_append, List.filter_eq_self.mpr (hp _ List.mem_cons_self)]
    exact .cons (hgap h) (ih fun token ht => hp token (List.mem_cons_of_mem _ ht))

/-- A text without its blanks is its tokens without theirs. -/
theorem Spells.solid {p : α → Bool} (h : Spells blank tokens text) (hp : ∀ b, blank b → p b = false) :
    text.filter p = tokens.flatten.filter p := by
  have hgap : ∀ {gap : List α}, (∀ b ∈ gap, blank b) → gap.filter p = [] := by
    intro gap hgap
    exact List.filter_eq_nil_iff.mpr fun b hb => by simp [hp b (hgap b hb)]
  induction h with
  | nil h => exact hgap h
  | cons h _ ih =>
    rw [List.filter_append, hgap h, List.nil_append, List.filter_append, ih, List.flatten_cons,
      List.filter_append]

end

/-! ## Writers -/

/-- A writer copies a text, and puts something before and after each symbol, as its state has it. -/
def write (lay : σ → α → σ × List α × List α) : σ → List α → List α
  | _, [] => []
  | s, a :: text => (lay s a).2.1 ++ a :: ((lay s a).2.2 ++ write lay (lay s a).1 text)

section
variable {lay : σ → α → σ × List α × List α} {blank mark : α → Prop}

theorem write_plain (hplain : ∀ s a, ¬ mark a → (lay s a).2 = ([], [])) (s : σ) {token : List α}
    (h : ∀ a ∈ token, ¬ mark a) : ∃ s', ∀ text,
      write lay s (token ++ text) = token ++ write lay s' text := by
  induction token generalizing s with
  | nil => exact ⟨s, fun _ => rfl⟩
  | cons a token ih =>
    obtain ⟨s', hs'⟩ := ih (lay s a).1 fun b hb => h b (List.mem_cons_of_mem _ hb)
    refine ⟨s', fun text => ?_⟩
    rw [List.cons_append, write, hplain s a (h a List.mem_cons_self), hs']
    rfl

/-- A writer that puts blanks around marks, and nothing anywhere else, writes a text that spells its
tokens, where every token is a single symbol or has no mark in it. -/
theorem spells_write (hblank : ∀ s a, ∀ b ∈ (lay s a).2.1 ++ (lay s a).2.2, blank b)
    (hplain : ∀ s a, ¬ mark a → (lay s a).2 = ([], [])) {tokens : List (List α)}
    (h : ∀ token ∈ tokens, (∃ a, token = [a]) ∨ ∀ a ∈ token, ¬ mark a) (s : σ) :
    Spells blank tokens (write lay s tokens.flatten) := by
  induction tokens generalizing s with
  | nil => exact .nil (by simp [write])
  | cons token tokens ih =>
    have ih := ih fun t ht => h t (List.mem_cons_of_mem _ ht)
    rw [List.flatten_cons]
    rcases h token List.mem_cons_self with ⟨a, rfl⟩ | hno
    · have hbefore : ∀ b ∈ (lay s a).2.1, blank b :=
        fun b hb => hblank s a b (List.mem_append_left _ hb)
      have hafter : ∀ b ∈ (lay s a).2.2, blank b :=
        fun b hb => hblank s a b (List.mem_append_right _ hb)
      exact .cons hbefore ((ih (lay s a).1).indent hafter)
    · obtain ⟨s', hs'⟩ := write_plain hplain s hno
      rw [hs']
      have hnone : ∀ b ∈ ([] : List α), blank b := by simp
      exact .cons hnone (ih s')

end

end layouts
