-- Wildcard patterns over any alphabet: a run of anything, one letter of anything, or one
-- letter that is the same under a comparison. A pattern has a language, and the
-- matcher decides it.
import Mathlib.Computability.Language

namespace wildcard

variable {α : Type*}

inductive Item (α : Type*)
  | any
  | one
  | char (a : α)

/-- The matcher. A run of anything tries every end of the text. -/
def matchesText (same : α → α → Bool) : List (Item α) → List α → Bool
  | [], s => s.isEmpty
  | .any :: p, s => s.tails.any (matchesText same p)
  | .one :: p, s =>
    match s with
    | [] => false
    | _ :: t => matchesText same p t
  | .char a :: p, s =>
    match s with
    | [] => false
    | c :: t => same a c && matchesText same p t

/-- The texts of one item. -/
def itemLang (same : α → α → Bool) : Item α → Language α
  | .any => (Set.univ : Set (List α))
  | .one => {t : List α | ∃ c, t = [c]}
  | .char a => {t : List α | ∃ c, t = [c] ∧ same a c = true}

/-- The language of a pattern: the texts of its items, one after the other. -/
def lang (same : α → α → Bool) (p : List (Item α)) : Language α :=
  (p.map (itemLang same)).prod

variable {same : α → α → Bool}

theorem lang_nil : lang same ([] : List (Item α)) = 1 := rfl

theorem lang_cons (i : Item α) (p : List (Item α)) :
    lang same (i :: p) = itemLang same i * lang same p := by
  simp [lang]

theorem lang_append (p q : List (Item α)) : lang same (p ++ q) = lang same p * lang same q := by
  simp [lang]

theorem mem_itemLang_any (t : List α) : t ∈ itemLang same .any := Set.mem_univ t

theorem singleton_mem_one (c : α) : [c] ∈ itemLang same .one := ⟨c, rfl⟩

theorem singleton_mem_char {a c : α} (h : same a c = true) : [c] ∈ itemLang same (.char a) :=
  ⟨c, rfl, h⟩

/-- The matcher decides the language. -/
theorem matchesText_iff (p : List (Item α)) (s : List α) :
    matchesText same p s = true ↔ s ∈ lang same p := by
  induction p generalizing s with
  | nil => rw [lang_nil, Language.mem_one, matchesText, List.isEmpty_iff]
  | cons i p ih =>
    rw [lang_cons, Language.mem_mul]
    cases i with
    | any =>
      rw [matchesText, List.any_eq_true]
      constructor
      · rintro ⟨t, ht, hm⟩
        obtain ⟨u, hu⟩ := (List.mem_tails t s).mp ht
        exact ⟨u, mem_itemLang_any u, t, (ih t).mp hm, hu⟩
      · rintro ⟨u, -, t, ht, rfl⟩
        exact ⟨t, (List.mem_tails t _).mpr (List.suffix_append u t), (ih t).mpr ht⟩
    | one =>
      cases s with
      | nil =>
        simp only [matchesText, Bool.false_eq_true, false_iff]
        rintro ⟨u, ⟨c, rfl⟩, t, -, h⟩
        simp at h
      | cons c s =>
        simp only [matchesText, ih]
        constructor
        · intro h
          exact ⟨[c], singleton_mem_one c, s, h, rfl⟩
        · rintro ⟨u, ⟨c', rfl⟩, t, ht, h⟩
          obtain ⟨-, rfl⟩ := List.cons.inj h
          exact ht
    | char a =>
      cases s with
      | nil =>
        simp only [matchesText, Bool.false_eq_true, false_iff]
        rintro ⟨u, ⟨c, rfl, -⟩, t, -, h⟩
        simp at h
      | cons c s =>
        simp only [matchesText, Bool.and_eq_true, ih]
        constructor
        · rintro ⟨hc, h⟩
          exact ⟨[c], singleton_mem_char hc, s, h, rfl⟩
        · rintro ⟨u, ⟨c', rfl, hc⟩, t, ht, h⟩
          obtain ⟨rfl, rfl⟩ := List.cons.inj h
          exact ⟨hc, ht⟩

/-! ## A pattern that was written from a text -/

/-- A pattern that was written letter by letter from a text matches that text, also where a
letter of the text became a wildcard. -/
theorem self_mem_lang (hrefl : ∀ a, same a a = true) {item : α → Item α}
    (hitem : ∀ a b, item a = .char b → b = a) (s : List α) : s ∈ lang same (s.map item) := by
  induction s with
  | nil => rw [List.map_nil, lang_nil]; exact Language.nil_mem_one
  | cons c s ih =>
    rw [List.map_cons, lang_cons]
    refine Language.append_mem_mul (a := [c]) ?_ ih
    cases h : item c with
    | any => exact mem_itemLang_any _
    | one => exact singleton_mem_one c
    | char b => exact singleton_mem_char (by rw [hitem c b h]; exact hrefl c)

end wildcard
