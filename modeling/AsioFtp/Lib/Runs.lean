-- Runs of a system that takes one event at a time. A law over every run is a
-- law over one step, carried along the run by an invariant.
import Mathlib.Data.List.Basic

namespace runs

variable {σ ε : Type*}

/-- The state after the events, one step for each. A system that cannot take one of them
has no such run. -/
def run (step : σ → ε → Option σ) : σ → List ε → Option σ
  | s, [] => some s
  | s, e :: es => (step s e).bind (run step · es)

/-- The law `Q` holds of every step of the run from `s`. The run ends at the first event
that the system cannot take. -/
def Along (step : σ → ε → Option σ) (Q : σ → ε → σ → Prop) : σ → List ε → Prop
  | _, [] => True
  | s, e :: es =>
    match step s e with
    | none => True
    | some s' => Q s e s' ∧ Along step Q s' es

instance Along.decidable (step : σ → ε → Option σ) (Q : σ → ε → σ → Prop)
    [∀ s e s', Decidable (Q s e s')] : ∀ s es, Decidable (Along step Q s es)
  | _, [] => isTrue trivial
  | s, e :: es => by
    unfold Along
    cases step s e with
    | none => exact isTrue trivial
    | some s' => exact @instDecidableAnd _ _ _ (Along.decidable step Q s' es)

variable {step : σ → ε → Option σ} {Q ok : σ → ε → σ → Prop} {J : σ → Prop}

theorem run_append (s : σ) (es es' : List ε) :
    run step s (es ++ es') = (run step s es).bind (run step · es') := by
  induction es generalizing s with
  | nil => rfl
  | cons e es ih => simp only [List.cons_append, run, Option.bind_assoc, ih]

theorem along_cons {s : σ} {e : ε} {es : List ε} :
    Along step Q s (e :: es) ↔ ∀ s', step s e = some s' → Q s e s' ∧ Along step Q s' es := by
  rw [Along]
  cases step s e with
  | none => simp
  | some t => simp

/-- The law holds of the step that comes after a run. -/
theorem Along.next {s t t' : σ} {e : ε} {es es' : List ε} (h : Along step Q s (es ++ e :: es'))
    (hrun : run step s es = some t) (ht : step t e = some t') : Q t e t' := by
  induction es generalizing s with
  | nil =>
    obtain rfl : s = t := Option.some.inj hrun
    exact (along_cons.mp h t' ht).1
  | cons e₀ es ih =>
    obtain ⟨s', hs', hrun⟩ := Option.bind_eq_some_iff.mp hrun
    exact ih (along_cons.mp h s' hs').2 hrun

/-! ## The rules -/

/-- The invariant rule. Under the condition `ok`, each step keeps `J` and obeys `Q`. -/
theorem along_of_invariant (hstep : ∀ s e s', J s → step s e = some s' → ok s e s' →
      Q s e s' ∧ J s') {s : σ} {es : List ε} (hs : J s) (hok : Along step ok s es) :
    Along step Q s es := by
  induction es generalizing s with
  | nil => trivial
  | cons e es ih =>
    rw [along_cons] at hok ⊢
    intro s' he
    obtain ⟨h1, h2⟩ := hok s' he
    obtain ⟨hq, hj⟩ := hstep s e s' hs he h1
    exact ⟨hq, ih hj h2⟩

/-- A run that obeys a law obeys every weaker one. -/
theorem along_mono {Q' : σ → ε → σ → Prop} (h : ∀ s e s', Q s e s' → Q' s e s') {s : σ}
    {es : List ε} (hs : Along step Q s es) : Along step Q' s es :=
  along_of_invariant (J := fun _ => True) (fun s e s' _ _ hq => ⟨h s e s' hq, trivial⟩) trivial hs

theorem along_true (s : σ) (es : List ε) : Along step (fun _ _ _ => True) s es := by
  induction es generalizing s with
  | nil => trivial
  | cons e es ih => exact along_cons.mpr fun s' _ => ⟨trivial, ih s'⟩

/-- A law that each event obeys in every state holds along the run. -/
theorem along_of_forall {s : σ} {es : List ε} (h : ∀ e ∈ es, ∀ s s', Q s e s') :
    Along step Q s es := by
  induction es generalizing s with
  | nil => trivial
  | cons e es ih =>
    rw [along_cons]
    intro s' _
    exact ⟨h e List.mem_cons_self s s', ih fun e' h' => h e' (List.mem_cons_of_mem _ h')⟩

/-- The invariant rule with no condition. Each step keeps `J` and obeys `Q`. -/
theorem along_of_kept (hstep : ∀ s e s', J s → step s e = some s' → Q s e s' ∧ J s') {s : σ}
    (hs : J s) (es : List ε) : Along step Q s es :=
  along_of_invariant (fun s e s' hj h _ => hstep s e s' hj h) hs (along_true s es)

/-- The exact rule. A step from the invariant obeys `Q` if and only if it meets `ok`, so a
run obeys `Q` if and only if each of its steps meets `ok`. -/
theorem along_iff_of_invariant
    (hiff : ∀ s e s', J s → step s e = some s' → (Q s e s' ↔ ok s e s'))
    (hkeep : ∀ s e s', J s → step s e = some s' → ok s e s' → J s') {s : σ} {es : List ε}
    (hs : J s) : Along step Q s es ↔ Along step ok s es := by
  induction es generalizing s with
  | nil => exact Iff.rfl
  | cons e es ih =>
    rw [along_cons, along_cons]
    constructor
    · intro h s' he
      have hok := (hiff s e s' hs he).mp (h s' he).1
      exact ⟨hok, (ih (hkeep s e s' hs he hok)).mp (h s' he).2⟩
    · intro h s' he
      have hok := (h s' he).1
      exact ⟨(hiff s e s' hs he).mpr hok, (ih (hkeep s e s' hs he hok)).mpr (h s' he).2⟩

/-! ## How often an event comes -/

theorem run_cons {s t : σ} {e : ε} {es : List ε} :
    run step s (e :: es) = some t ↔ ∃ s', step s e = some s' ∧ run step s' es = some t := by
  rw [run, Option.bind_eq_some_iff]

variable {p q good : ε → Bool} {m : σ → Nat}

/-- The measure rule. If each event of `p` takes one from the measure, and only the events of `q`
add one, then a run has no more events of `p` than the measure at its begin and its events of
`q` pay for. -/
theorem count_le_of_measure (hstep : ∀ s e s', J s → good e = true → step s e = some s' →
      J s' ∧ m s' + (if p e then 1 else 0) ≤ m s + (if q e then 1 else 0)) {s t : σ} {es : List ε}
    (hs : J s) (hgood : ∀ e ∈ es, good e = true) (h : run step s es = some t) :
    m t + es.countP p ≤ m s + es.countP q := by
  induction es generalizing s with
  | nil =>
    obtain rfl : s = t := Option.some.inj h
    exact Nat.le_refl _
  | cons e es ih =>
    obtain ⟨s', he, h⟩ := run_cons.mp h
    obtain ⟨hj, hle⟩ := hstep s e s' hs (hgood e List.mem_cons_self) he
    have ih := ih hj (fun e' h' => hgood e' (List.mem_cons_of_mem _ h')) h
    rw [List.countP_cons, List.countP_cons]
    omega

/-- The loop rule. If from each state of `J` an event of `p` leads back to `J`, then runs have as
many events of `p` as one likes. -/
theorem exists_run_of_loop (hstep : ∀ s, J s → ∃ e s', good e = true ∧ p e = true ∧
      step s e = some s' ∧ J s') {s : σ} (hs : J s) (n : Nat) :
    ∃ es t, (∀ e ∈ es, good e = true) ∧ run step s es = some t ∧ es.countP p = n := by
  induction n generalizing s with
  | zero => exact ⟨[], s, by simp, rfl, rfl⟩
  | succ n ih =>
    obtain ⟨e, s', hge, hpe, he, hj⟩ := hstep s hs
    obtain ⟨es, t, hges, hrun, hcount⟩ := ih hj
    refine ⟨e :: es, t, ?_, run_cons.mpr ⟨s', he, hrun⟩, ?_⟩
    · intro e' h'
      rcases List.mem_cons.mp h' with rfl | h'
      · exact hge
      · exact hges e' h'
    · rw [List.countP_cons_of_pos hpe, hcount]

/-! ## A system that follows another -/

section
variable {τ φ : Type*} {step' : τ → φ → Option τ} {R : σ → τ → Prop} {answer : σ → ε → σ → List φ}

/-- What a follower does for the events of a run, for as long as the leader takes them. -/
def follow (step : σ → ε → Option σ) (answer : σ → ε → σ → List φ) : σ → List ε → List φ
  | _, [] => []
  | s, e :: es => (step s e).elim [] fun s' => answer s e s' ++ follow step answer s' es

/-- The simulation rule. If the follower answers each step of the leader by steps that keep `R`, it
follows every run. -/
theorem run_follow (hstep : ∀ s e s' t, R s t → step s e = some s' →
      ∃ t', run step' t (answer s e s') = some t' ∧ R s' t') {s s' : σ} {t : τ} {es : List ε}
    (hR : R s t) (h : run step s es = some s') :
    ∃ t', run step' t (follow step answer s es) = some t' ∧ R s' t' := by
  induction es generalizing s t with
  | nil =>
    obtain rfl : s = s' := Option.some.inj h
    exact ⟨t, rfl, hR⟩
  | cons e es ih =>
    obtain ⟨s₁, he, h⟩ := run_cons.mp h
    obtain ⟨t₁, ht₁, hR₁⟩ := hstep s e s₁ t hR he
    obtain ⟨t', ht', hR'⟩ := ih hR₁ h
    refine ⟨t', ?_, hR'⟩
    simp only [follow, he, Option.elim_some]
    rw [run_append, ht₁, Option.bind_some, ht']

/-- The projection rule. If each step, seen through `f`, is a step of the other system, then so is each
run. -/
theorem run_map {step' : τ → ε → Option τ} {f : σ → τ}
    (hmap : ∀ s e, J s → (step s e).map f = step' (f s) e)
    (hkeep : ∀ s e s', J s → step s e = some s' → J s') {s : σ} (hs : J s) (es : List ε) :
    (run step s es).map f = run step' (f s) es := by
  induction es generalizing s with
  | nil => rfl
  | cons e es ih =>
    rw [run, run, ← hmap s e hs]
    cases he : step s e with
    | none => rfl
    | some s' => exact ih (hkeep s e s' hs he)

/-- What a follower does shows the events of the leader, where each answer shows its own. -/
theorem filter_follow {p : ε → Bool} {answer : σ → ε → σ → List ε}
    (hstep : ∀ s e s', J s → step s e = some s' → J s' ∧ (answer s e s').filter p = [e]) {s s' : σ}
    {es : List ε} (hs : J s) (h : run step s es = some s') :
    (follow step answer s es).filter p = es := by
  induction es generalizing s with
  | nil => rfl
  | cons e es ih =>
    obtain ⟨s₁, he, h⟩ := run_cons.mp h
    obtain ⟨hj, hfilter⟩ := hstep s e s₁ hs he
    simp only [follow, he, Option.elim_some]
    rw [List.filter_append, hfilter, ih hj h]
    rfl

end

end runs
