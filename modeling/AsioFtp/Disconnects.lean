-- The law of the disconnect: when a read of the control connection that fails is the end of the
-- session, and when the session answers it and reads again.
import AsioFtp.ControlChannel

namespace asio_ftp.disconnects

open base_session base_session.Session control_channel runs

/-- A read of the control connection fails. -/
def readFails : Event → Bool
  | .control_received ec _ => decide (ec ≠ .success)
  | .probe_received ec _ => decide (ec ≠ .success)
  | _ => false

/-- The read was started by `control_receive`, and its end runs `handle_command`. -/
def onCommandPath : Event → Bool
  | .control_received .. => true
  | _ => false

/-- What can come after the client has gone: no read and no handshake on the control connection
succeeds. The events of the data channel and of other sessions are as they were. -/
def gone : Env × Event → Bool
  | (_, .control_received ec _) => decide (ec ≠ .success)
  | (_, .probe_received ec _) => decide (ec ≠ .success)
  | (_, .handshaken ec _) => decide (ec ≠ .success)
  | _ => true

/-- A read or a handshake of the control connection ends. -/
def endsRead : Env × Event → Bool
  | (_, .control_received ..) => true
  | (_, .probe_received ..) => true
  | (_, .handshaken ..) => true
  | _ => false

/-- The failed read is the last word of the control connection: it starts no read, no write and no
handshake. What is outstanding then still ends, and each event of another kind adds one reply at
most, so only so many events of the control connection come. -/
structure EndsTheSession (s s' : Session) : Prop where
  no_read : reads s' + 1 = reads s
  no_write : writes s' = writes s
  finite : ∃ n, ∀ es t, (∀ e ∈ es, gone e = true) → run step s' es = some t →
    es.countP endsRead ≤ n ∧
      es.countP (fun e => onControl e.2) ≤ n + es.countP (fun e => !onControl e.2)

/-! ## The command path -/

/-- No read of the plain socket of a TLS session is outstanding, and none will be. -/
def Unprobed (s : Session) : Prop := s.probe_reads = 0 ∧ s.timer_waits = 0

instance (s : Session) : Decidable (Unprobed s) := inferInstanceAs (Decidable (_ ∧ _))

/-- A failed read of a command is dropped. -/
theorem handle_command_of_error (env : Env) (s : Session) {ec : ErrorCode} (h : ec ≠ .success)
    (received : Bytes) :
    s.handle_command env (handle_control_receive_callback ec received).1
      (handle_control_receive_callback ec received).2 = s := by
  rw [handle_control_receive_callback, if_pos h]
  rfl

/-- Each read that ends is one less, and an event of another kind starts none. -/
theorem gone_step {s s' : Session} {e : Env × Event} (hu : Unprobed s) (hg : gone e = true)
    (h : s.step e = some s') :
    Unprobed s' ∧ reads s' + (if endsRead e then 1 else 0) ≤ reads s ∧
      reads s' + writes s' + (if onControl e.2 then 1 else 0) ≤
        reads s + writes s + (if !onControl e.2 then 1 else 0) := by
  obtain ⟨env, e⟩ := e
  obtain ⟨-, hst⟩ := step_stepped h
  obtain ⟨hp, ht⟩ := hu
  unfold Unprobed reads writes
  by_cases he : onControl e = true
  · cases hst with
    | control_sent ec hw =>
      simp [onControl, endsRead, hp, ht]
      omega
    | control_received ec received hr =>
      rw [handle_command_of_error env _ (by simpa [gone] using hg)]
      simp [onControl, endsRead, hp, ht]
      omega
    | timer lap available hw => exact absurd ht hw
    | probe_sent ec hw =>
      simp [onControl, endsRead, hp, ht]
      omega
    | probe_received ec received hr => exact absurd hp hr
    | handshaken ec i hi =>
      have hl := List.length_erase_of_mem hi
      have hpos := List.length_pos_of_mem hi
      rw [handle_handshake, if_pos (by simpa [gone] using hg)]
      simp [onControl, endsRead, hp, ht]
      omega
    | _ => simp [onControl] at he
  · -- An event of the data channel or of another session says one thing at most.
    have hread : endsRead (env, e) = false := by
      cases e <;> first | rfl | simp [onControl] at he
    have hcounts : s'.control_reads = s.control_reads ∧ s'.probe_reads = s.probe_reads ∧
        s'.control_handshakes = s.control_handshakes ∧ s'.timer_waits = s.timer_waits ∧
        s'.probe_writes = s.probe_writes ∧ s'.control_writes ≤ s.control_writes + 1 := by
      rcases hst.front (by simpa using he) with hf | ⟨m, hf⟩
      · exact ⟨congrArg Front.reads hf, congrArg Front.probe_reads hf,
          congrArg Front.handshakes hf, congrArg Front.timer_waits hf,
          congrArg Front.probe_writes hf,
          (congrArg Front.writes hf).trans_le (Nat.le_succ s.control_writes)⟩
      · exact ⟨congrArg Front.reads hf, congrArg Front.probe_reads hf,
          congrArg Front.handshakes hf, congrArg Front.timer_waits hf,
          congrArg Front.probe_writes hf, (congrArg Front.writes hf).le⟩
    obtain ⟨h1, h2, h3, h4, h5, h6⟩ := hcounts
    rw [h1, h2, h3, h4, h5, hread]
    simp [he, hp, ht]
    omega

/-- After the client has gone, a session that has no plain socket ends. -/
theorem finite_of_unprobed {s : Session} (hu : Unprobed s) : ∃ n, ∀ es t,
    (∀ e ∈ es, gone e = true) → run step s es = some t →
      es.countP endsRead ≤ n ∧
        es.countP (fun e => onControl e.2) ≤ n + es.countP (fun e => !onControl e.2) := by
  refine ⟨reads s + writes s, fun es t hgood hrun => ?_⟩
  have hreads := count_le_of_measure (m := reads) (p := endsRead) (q := fun _ => false)
    (fun s e s' hu hg h => ⟨(gone_step hu hg h).1, (gone_step hu hg h).2.1⟩) hu hgood hrun
  have hall := count_le_of_measure (m := fun s => reads s + writes s)
    (p := fun e => onControl e.2) (q := fun e => !onControl e.2)
    (fun s e s' hu hg h => ⟨(gone_step hu hg h).1, (gone_step hu hg h).2.2⟩) hu hgood hrun
  have hnone : es.countP (fun _ => false) = 0 := by simp
  omega

/-! ## The probe path -/

/-- The client's end of the stream, as a read of the plain socket sees it. -/
def endOfFile (env : Env) : Env × Event := (env, .probe_received .eof [])

theorem readable_of_error {ec : ErrorCode} (h : ec ≠ .success) (received : Bytes) :
    Readable ec received := fun hs => absurd hs h

/-- A failed read of the plain socket is answered as a command that is not AUTH. -/
theorem handle_auth_of_error (s : Session) {ec : ErrorCode} (h : ec ≠ .success)
    (received : Bytes) :
    s.handle_auth (handle_control_receive_callback ec received).1
      (handle_control_receive_callback ec received).2 =
        (s.probe_send (lit "503 Not AUTH.")).probe_receive := by
  rw [handle_control_receive_callback, if_pos h]
  rfl

/-- So the next read is there as the last one was, and fails as it did. -/
theorem step_endOfFile (env : Env) {s : Session} (hc : s.crashed = false)
    (hp : s.probe_reads ≠ 0) : ∃ s', s.step (endOfFile env) = some s' ∧
      s'.crashed = false ∧ s'.probe_reads ≠ 0 := by
  refine ⟨({ s with probe_reads := s.probe_reads - 1 }.probe_send
    (lit "503 Not AUTH.")).probe_receive, ?_, hc, Nat.succ_ne_zero _⟩
  rw [endOfFile, step, if_neg (by simp [hc]), if_neg]
  · rfl
  · rintro (h | h)
    · exact hp h
    · exact h (readable_of_error (by decide) [])

/-- A session that reads its plain socket, or will, has no last event. -/
theorem not_finite_of_probed (env : Env) {s : Session} (hc : s.crashed = false)
    (hu : ¬ Unprobed s) (n : Nat) : ∃ es t, (∀ e ∈ es, gone e = true) ∧
      run step s es = some t ∧ es.countP endsRead = n := by
  have hloop : ∀ {s : Session}, s.crashed = false → s.probe_reads ≠ 0 → ∃ es t,
      (∀ e ∈ es, gone e = true) ∧ run step s es = some t ∧ es.countP endsRead = n := by
    intro s hc hp
    refine exists_run_of_loop (J := fun s => s.crashed = false ∧ s.probe_reads ≠ 0) ?_ ⟨hc, hp⟩ n
    rintro s ⟨hc, hp⟩
    obtain ⟨s', h, hj⟩ := step_endOfFile env hc hp
    exact ⟨endOfFile env, s', rfl, rfl, h, hj⟩
  by_cases hp : s.probe_reads = 0
  · -- The timer ends the wait for a ClientHello, and the welcome message starts the read.
    have ht : s.timer_waits ≠ 0 := fun ht => hu ⟨hp, ht⟩
    let s' := { s with timer_waits := s.timer_waits - 1 }.wait_for_implicit
      (IMPLICIT_TIMEOUT_MS + 1) 0
    have h : s.step (env, .timer (IMPLICIT_TIMEOUT_MS + 1) 0) = some s' := by
      rw [step, if_neg (by simp [hc]), if_neg ht]
    obtain ⟨es, t, hgone, hrun, hcount⟩ := hloop (s := s') hc (Nat.succ_ne_zero _)
    refine ⟨(env, .timer (IMPLICIT_TIMEOUT_MS + 1) 0) :: es, t, ?_,
      run_cons.mpr ⟨s', h, hrun⟩, ?_⟩
    · intro e he
      rcases List.mem_cons.mp he with rfl | he
      · rfl
      · exact hgone e he
    · rw [List.countP_cons_of_neg (by simp [endsRead]), hcount]
  · exact hloop hc hp

/-! ## The law -/

/-- In every state, a read of the control connection that fails ends the session if and only if it
is a read of a command, and no read of the plain socket is outstanding or waits for the timer. -/
theorem a_failed_read_ends_the_session_iff (env : Env) (s s' : Session) (e : Event)
    (he : readFails e = true) (h : s.step (env, e) = some s') :
    EndsTheSession s s' ↔ onCommandPath e = true ∧ Unprobed s := by
  obtain ⟨hc, hst⟩ := step_stepped h
  cases hst with
  | control_received ec received hr =>
    rw [handle_command_of_error env _ (by simpa [readFails] using he)]
    simp only [onCommandPath, true_and]
    constructor
    · intro hend
      by_contra hu
      obtain ⟨n, hn⟩ := hend.finite
      obtain ⟨es, t, hgone, hrun, hcount⟩ := not_finite_of_probed env (s := { s with
        control_reads := s.control_reads - 1 }) hc hu (n + 1)
      have := (hn es t hgone hrun).1
      omega
    · intro hu
      refine ⟨?_, rfl, finite_of_unprobed (s := { s with
        control_reads := s.control_reads - 1 }) hu⟩
      unfold reads
      simp only
      omega
  | probe_received ec received hr =>
    rw [handle_auth_of_error _ (by simpa [readFails] using he)]
    refine iff_of_false (fun hend => ?_) (fun h => nomatch h.1)
    -- The read is outstanding again.
    have hread := hend.no_read
    unfold reads probe_receive probe_send at hread
    simp only at hread
    omega
  | _ => simp [readFails] at he

/-- The law at a client of a plain session that goes away before it logs in. -/
theorem a_failed_read_ends_a_plain_session :
    ∃ s', (begun .session users.Table.annAndBob fs_objects.Store.empty 0 0).step
      (Env.working 0, .control_received .eof []) = some s' ∧
        EndsTheSession (begun .session users.Table.annAndBob fs_objects.Store.empty 0 0) s' :=
  ⟨_, rfl, (a_failed_read_ends_the_session_iff (Env.working 0) _ _ (.control_received .eof []) rfl
    rfl).mpr (by decide)⟩

/-- A client of a TLS session that goes away before AUTH is answered, and read again. -/
theorem a_failed_read_does_not_end_a_TLS_session : ¬ ∀ env s s' e, readFails e = true →
    s.step (env, e) = some s' → EndsTheSession s s' := by
  intro h
  have h1 := h (Env.working 0)
    (begun .secure_session users.Table.annAndBob fs_objects.Store.empty 501 0) _
    (endOfFile (Env.working 0)).2 rfl rfl
  exact absurd h1.no_read (by decide)

end asio_ftp.disconnects
