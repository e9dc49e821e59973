-- Records that are read from members with keys: when the members of different keys do not meddle
-- with each other, reading them in the order they come is reading the keys in any fixed order.
import Mathlib.Data.List.Pairwise

namespace members

variable {κ β σ : Type} {step : σ → κ → β → Option σ} {keys : List κ}

/-- Two keys can be read in either order. -/
def Swaps (step : σ → κ → β → Option σ) (k k' : κ) : Prop := ∀ s v v',
  (step s k v).bind (fun s => step s k' v') = (step s k' v').bind (fun s => step s k v)

/-- A key that is not read changes nothing, and the others can be read in any order. -/
structure Independent (step : σ → κ → β → Option σ) (keys : List κ) : Prop where
  other : ∀ s k v, k ∉ keys → step s k v = some s
  pairs : keys.Pairwise (Swaps step)

theorem Independent.swaps (h : Independent step keys) {k k' : κ} (hk : k ≠ k') :
    Swaps step k k' := by
  intro s v v'
  by_cases hin : k ∈ keys
  · by_cases hin' : k' ∈ keys
    · have hsymm : Std.Symm (Swaps step) := ⟨fun _ _ h s v v' => (h s v' v).symm⟩
      exact h.pairs.forall hin hin' hk s v v'
    · simp [h.other _ k' v' hin']
  · simp [h.other _ k v hin]

/-! ## The reading -/

variable [BEq κ] {ms ms' : List (κ × β)}

/-- The members are read one by one. -/
def readAll (step : σ → κ → β → Option σ) : σ → List (κ × β) → Option σ
  | s, [] => some s
  | s, m :: ms => (step s m.1 m.2).bind (fun s => readAll step s ms)

/-- The member of one key is read, if there is one. -/
def readKey (step : σ → κ → β → Option σ) (ms : List (κ × β)) (s : σ) (k : κ) : Option σ :=
  match ms.lookup k with
  | none => some s
  | some v => step s k v

/-- The keys are read one by one. -/
def readKeys (step : σ → κ → β → Option σ) (ms : List (κ × β)) : σ → List κ → Option σ
  | s, [] => some s
  | s, k :: keys => (readKey step ms s k).bind (fun s => readKeys step ms s keys)

/-- A step with one key goes through the reading of another. -/
theorem step_bind_readKey (h : Independent step keys) {k k' : κ} (hk : k ≠ k') (s : σ) (v : β) :
    (step s k v).bind (fun s => readKey step ms s k') =
      (readKey step ms s k').bind (fun s => step s k v) := by
  unfold readKey
  cases ms.lookup k' with
  | none => cases hstep : step s k v <;> simp [hstep]
  | some v' => exact h.swaps hk s v v'

/-- What is read depends on the keys only. -/
theorem readKeys_congr (h : ∀ k ∈ keys, ∀ s, readKey step ms s k = readKey step ms' s k) (s : σ) :
    readKeys step ms s keys = readKeys step ms' s keys := by
  induction keys generalizing s with
  | nil => rfl
  | cons k keys ih =>
    simp only [readKeys]
    rw [h k List.mem_cons_self]
    exact congrArg _ (funext fun s => ih (fun k hk => h k (List.mem_cons_of_mem _ hk)) s)

/-- One key that cannot be read stops the reading. -/
theorem readKeys_eq_none {k : κ} (hk : k ∈ keys) (h : ∀ s, readKey step ms s k = none) (s : σ) :
    readKeys step ms s keys = none := by
  induction keys generalizing s with
  | nil => cases hk
  | cons k' keys ih =>
    simp only [readKeys]
    rcases List.mem_cons.mp hk with rfl | hk
    · rw [h, Option.bind_none]
    · cases readKey step ms s k' with
      | none => rfl
      | some s => exact ih hk s

/-! ## The lookups -/

section
variable [DecidableEq κ] [LawfulBEq κ]

theorem lookup_cons_ite (k : κ) (m : κ × β) (ms : List (κ × β)) :
    (m :: ms).lookup k = if k = m.1 then some m.2 else ms.lookup k := by
  rw [List.lookup_cons]
  by_cases h : k = m.1
  · rw [if_pos h, beq_iff_eq.mpr h]
  · rw [if_neg h, beq_eq_false_iff_ne.mpr h]

theorem lookup_eq_none {k : κ} (h : k ∉ ms.map Prod.fst) : ms.lookup k = none := by
  induction ms with
  | nil => rfl
  | cons m ms ih =>
    simp only [List.map_cons, List.mem_cons, not_or] at h
    rw [lookup_cons_ite, if_neg h.1]
    exact ih h.2

theorem mem_of_lookup {k : κ} {v : β} (h : ms.lookup k = some v) : (k, v) ∈ ms := by
  induction ms with
  | nil => cases h
  | cons m ms ih =>
    rw [lookup_cons_ite] at h
    split at h
    · next hk =>
      obtain rfl := Option.some.inj h
      exact hk ▸ List.mem_cons_self
    · exact List.mem_cons_of_mem _ (ih h)

/-- A key that stands once is looked up as its member. -/
theorem lookup_eq_some_iff (hms : (ms.map Prod.fst).Nodup) {k : κ} {v : β} :
    ms.lookup k = some v ↔ (k, v) ∈ ms := by
  refine ⟨mem_of_lookup, fun h => ?_⟩
  induction ms with
  | nil => cases h
  | cons m ms ih =>
    obtain ⟨hnew, hms⟩ := List.nodup_cons.mp hms
    rcases List.mem_cons.mp h with rfl | h
    · simp
    · have hk : k ≠ m.1 := by
        rintro rfl
        exact hnew (List.mem_map.mpr ⟨_, h, rfl⟩)
      rw [lookup_cons_ite, if_neg hk]
      exact ih hms h

section
variable {k : κ}

/-- Members with another key are not in the way of a lookup. -/
theorem lookup_filter_ne {k' : κ} (h : k' ≠ k) :
    (ms.filter (fun m => m.1 ≠ k)).lookup k' = ms.lookup k' := by
  induction ms with
  | nil => rfl
  | cons m ms ih =>
    by_cases hm : m.1 = k
    · rw [List.filter_cons_of_neg (by simpa using hm), ih, lookup_cons_ite, hm, if_neg h]
    · rw [List.filter_cons_of_pos (by simpa using hm), lookup_cons_ite, lookup_cons_ite, ih]

theorem lookup_filter_self : (ms.filter (fun m => m.1 ≠ k)).lookup k = none := by
  refine lookup_eq_none (fun hk => ?_)
  obtain ⟨m, hm, rfl⟩ := List.mem_map.mp hk
  exact absurd (List.mem_filter.mp hm).2 (by simp)

end

/-- A key is missing, or its one member is read. -/
theorem readKey_cases (step : σ → κ → β → Option σ) (hms : (ms.map Prod.fst).Nodup) (s : σ)
    (k : κ) : k ∉ ms.map Prod.fst ∧ readKey step ms s k = some s ∨
      ∃ v, (k, v) ∈ ms ∧ (∀ v', (k, v') ∈ ms → v' = v) ∧ readKey step ms s k = step s k v := by
  unfold readKey
  cases hl : ms.lookup k with
  | none =>
    refine Or.inl ⟨fun hk => ?_, rfl⟩
    obtain ⟨m, hm, rfl⟩ := List.mem_map.mp hk
    cases hl.symm.trans ((lookup_eq_some_iff hms).mpr hm)
  | some v =>
    refine Or.inr ⟨v, mem_of_lookup hl, fun v' hv' => ?_, rfl⟩
    exact Option.some.inj (((lookup_eq_some_iff hms).mpr hv').symm.trans hl)

/-! ## Any order -/

/-- One more member is read with its key. -/
theorem readKeys_cons_member (h : Independent step keys) {others : List κ} (hnodup : others.Nodup)
    {k : κ} {v : β} (hk : ms.lookup k = none) (s : σ) :
    readKeys step ((k, v) :: ms) s others =
      if k ∈ others then (step s k v).bind (fun s => readKeys step ms s others)
      else readKeys step ms s others := by
  induction others generalizing s with
  | nil => rfl
  | cons k' others ih =>
    obtain ⟨hnot, hnodup⟩ := List.nodup_cons.mp hnodup
    simp only [readKeys]
    by_cases hkk : k' = k
    · subst hkk
      have hread : readKey step ((k', v) :: ms) s k' = step s k' v := by
        simp [readKey]
      have hskip : ∀ s, readKey step ms s k' = some s := fun s => by simp [readKey, hk]
      rw [hread, if_pos List.mem_cons_self]
      refine congrArg _ (funext fun s => ?_)
      rw [ih hnodup, if_neg hnot, hskip]
      rfl
    · have hread : ∀ s, readKey step ((k, v) :: ms) s k' = readKey step ms s k' := fun s => by
        rw [readKey, readKey, lookup_cons_ite, if_neg hkk]
      have hmem : k ∈ k' :: others ↔ k ∈ others := by simp [Ne.symm hkk]
      rw [hread]
      simp only [hmem]
      by_cases hin : k ∈ others
      · rw [if_pos hin, ← Option.bind_assoc, step_bind_readKey h (Ne.symm hkk), Option.bind_assoc]
        exact congrArg _ (funext fun s => by rw [ih hnodup, if_pos hin])
      · rw [if_neg hin]
        exact congrArg _ (funext fun s => by rw [ih hnodup, if_neg hin])

/-- Members with different keys can be read by their keys. -/
theorem readAll_eq_readKeys (h : Independent step keys) (hkeys : keys.Nodup)
    (hms : (ms.map Prod.fst).Nodup) (s : σ) : readAll step s ms = readKeys step ms s keys := by
  induction ms generalizing s with
  | nil =>
    have hnil : ∀ keys : List κ, readKeys step [] s keys = some s := by
      intro keys
      induction keys with
      | nil => rfl
      | cons k keys ih => simpa [readKeys, readKey] using ih
    rw [hnil]
    rfl
  | cons m ms ih =>
    obtain ⟨hnew, hms⟩ := List.nodup_cons.mp hms
    rw [readAll, readKeys_cons_member h hkeys (lookup_eq_none hnew)]
    simp only [ih hms]
    split
    · rfl
    · next hno => rw [h.other s m.1 m.2 hno, Option.bind_some]

end

end members
