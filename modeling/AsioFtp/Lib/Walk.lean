-- Walks through a tree of names: each part of a path is looked up in the place that the parts
-- before it lead to. What a lookup finds, and how a place and a part make the next place, are
-- parameters.
import Mathlib.Logic.Basic

namespace walk

variable {α β : Type*} (join : α → β → α)

section
variable (found : α → β → Prop)

/-- Every part is found in the place that the parts before it lead to. -/
def Walk : α → List β → Prop
  | _, [] => True
  | place, part :: parts => found place part ∧ Walk (join place part) parts

/-- The last part is found in the place that the parts before it lead to. -/
def AtLast : α → List β → Prop
  | _, [] => True
  | place, [part] => found place part
  | place, part :: next :: parts => AtLast (join place part) (next :: parts)

theorem walk_nil (place : α) : Walk join found place [] := trivial

theorem walk_cons (place : α) (part : β) (parts : List β) :
    Walk join found place (part :: parts) ↔
      found place part ∧ Walk join found (join place part) parts := Iff.rfl

instance decidableWalk [∀ place part, Decidable (found place part)] :
    ∀ place parts, Decidable (Walk join found place parts)
  | _, [] => inferInstanceAs (Decidable True)
  | place, part :: parts =>
    @instDecidableAnd _ _ _ (decidableWalk (join place part) parts)

instance decidableAtLast [∀ place part, Decidable (found place part)] :
    ∀ place parts, Decidable (AtLast join found place parts)
  | _, [] => inferInstanceAs (Decidable True)
  | place, [part] => inferInstanceAs (Decidable (found place part))
  | place, part :: next :: parts => decidableAtLast (join place part) (next :: parts)

end

variable {join} {found good : α → β → Prop} {J : α → Prop}

/-- Where a part with something below it is good, only the last part can make a walk fail to be
good. -/
theorem walk_iff_atLast (hgood : ∀ place part, good place part → found place part)
    (hinv : ∀ place part, J place → found place part → J (join place part))
    (hinner : ∀ place part next, J place → found place part → found (join place part) next →
      good place part) {place : α} {parts : List β} (h : J place) :
    Walk join good place parts ↔ Walk join found place parts ∧ AtLast join good place parts := by
  induction parts generalizing place with
  | nil => exact ⟨fun _ => ⟨trivial, trivial⟩, fun _ => trivial⟩
  | cons part parts ih =>
    cases parts with
    | nil => exact ⟨fun hw => ⟨⟨hgood _ _ hw.1, trivial⟩, hw.1⟩, fun hw => ⟨hw.2, trivial⟩⟩
    | cons next parts =>
      constructor
      · rintro ⟨hp, hw⟩
        have hf := hgood _ _ hp
        obtain ⟨hw, hl⟩ := (ih (hinv _ _ h hf)).mp hw
        exact ⟨⟨hf, hw⟩, hl⟩
      · rintro ⟨⟨hf, hw⟩, hl⟩
        exact ⟨hinner _ _ next h hf hw.1, (ih (hinv _ _ h hf)).mpr ⟨hw, hl⟩⟩

end walk
