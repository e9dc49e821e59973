-- Files that parties write and read at the same time. A party writes at most one file and reads at
-- most one, and what it does it does alone. As long as no file gets two writers, or a writer and a
-- reader, each writer's file has what the writer wrote, and each reader's file is as the reader found
-- it.
import Mathlib.Data.Option.Basic

namespace sharing

/-- The files, and for each party the file that it writes, with what it wrote, and the file that it
reads, with what it found there. -/
structure Shared (π ι α : Type*) where
  file : ι → Option α
  writes : π → Option (ι × α)
  reads : π → Option (ι × α)

variable {π ι α : Type*}

namespace Shared

def WritesTo (s : Shared π ι α) (p : π) (i : ι) : Prop := ∃ a, s.writes p = some (i, a)

def ReadsFrom (s : Shared π ι α) (p : π) (i : ι) : Prop := ∃ a, s.reads p = some (i, a)

/-- A file may be gone, and else has what its writer wrote and what its readers found. No file has
two writers, or a writer and a reader. -/
structure Sound (s : Shared π ι α) : Prop where
  writer : ∀ p i a, s.writes p = some (i, a) → ∀ c ∈ s.file i, c = a
  reader : ∀ p i a, s.reads p = some (i, a) → ∀ c ∈ s.file i, c = a
  alone : ∀ p q i, s.WritesTo p i → s.WritesTo q i → p = q
  apart : ∀ p q i, s.WritesTo p i → ¬ s.ReadsFrom q i

/-- The rule of one party. Where the others keep what they do, and their files stay or go, all that
has to be looked at is what the party does after its act. -/
theorem Sound.act {s t : Shared π ι α} (h : s.Sound) (p : π)
    (others : ∀ q, q ≠ p → t.writes q = s.writes q ∧ t.reads q = s.reads q)
    (kept : ∀ q, q ≠ p → ∀ i, s.WritesTo q i ∨ s.ReadsFrom q i → ∀ c ∈ t.file i, c ∈ s.file i)
    (writer : ∀ i a, t.writes p = some (i, a) →
      (∀ c ∈ t.file i, c = a) ∧ ∀ q, q ≠ p → ¬ s.WritesTo q i ∧ ¬ s.ReadsFrom q i)
    (reader : ∀ i a, t.reads p = some (i, a) →
      (∀ c ∈ t.file i, c = a) ∧ ∀ q, q ≠ p → ¬ s.WritesTo q i)
    (apart : ∀ i, t.WritesTo p i → ¬ t.ReadsFrom p i) : t.Sound := by
  have writes_of : ∀ q, q ≠ p → ∀ i, t.WritesTo q i → s.WritesTo q i := by
    rintro q hq i ⟨a, ha⟩
    exact ⟨a, (others q hq).1 ▸ ha⟩
  have reads_of : ∀ q, q ≠ p → ∀ i, t.ReadsFrom q i → s.ReadsFrom q i := by
    rintro q hq i ⟨a, ha⟩
    exact ⟨a, (others q hq).2 ▸ ha⟩
  constructor
  · intro q i a ha c hc
    by_cases hq : q = p
    · subst hq
      exact (writer i a ha).1 c hc
    · have hs := writes_of q hq i ⟨a, ha⟩
      exact h.writer q i a ((others q hq).1 ▸ ha) c (kept q hq i (Or.inl hs) c hc)
  · intro q i a ha c hc
    by_cases hq : q = p
    · subst hq
      exact (reader i a ha).1 c hc
    · have hs := reads_of q hq i ⟨a, ha⟩
      exact h.reader q i a ((others q hq).2 ▸ ha) c (kept q hq i (Or.inr hs) c hc)
  · rintro q r i hqi hri
    by_cases hq : q = p
    · subst hq
      obtain ⟨a, ha⟩ := hqi
      by_contra hne
      exact ((writer i a ha).2 r (Ne.symm hne)).1 (writes_of r (Ne.symm hne) i hri)
    by_cases hr : r = p
    · subst hr
      obtain ⟨a, ha⟩ := hri
      exact absurd (writes_of q hq i hqi) ((writer i a ha).2 q hq).1
    · exact h.alone q r i (writes_of q hq i hqi) (writes_of r hr i hri)
  · rintro q r i hqi hri
    by_cases hq : q = p
    · subst hq
      by_cases hr : r = q
      · subst hr
        exact apart i hqi hri
      · obtain ⟨a, ha⟩ := hqi
        exact ((writer i a ha).2 r hr).2 (reads_of r hr i hri)
    by_cases hr : r = p
    · subst hr
      obtain ⟨a, ha⟩ := hri
      exact (reader i a ha).2 q hq (writes_of q hq i hqi)
    · exact h.apart q r i (writes_of q hq i hqi) (reads_of r hr i hri)

/-- Nobody writes or reads. -/
theorem sound_of_idle {s : Shared π ι α} (hw : ∀ p, s.writes p = none)
    (hr : ∀ p, s.reads p = none) : s.Sound := by
  have no_writer : ∀ p i, ¬ s.WritesTo p i := by
    rintro p i ⟨a, ha⟩
    rw [hw p] at ha
    cases ha
  constructor
  · intro p i a ha
    exact absurd ⟨a, ha⟩ (no_writer p i)
  · intro p i a ha
    rw [hr p] at ha
    cases ha
  · exact fun p q i hp => absurd hp (no_writer p i)
  · exact fun p q i hp => absurd hp (no_writer p i)

end Shared

end sharing
