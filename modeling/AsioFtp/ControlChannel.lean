-- The laws of the control channel: when a command is answered and the session reads on, and
-- when the reads and the writes of a session never overlap.
import AsioFtp.Effects

namespace asio_ftp.control_channel

open fs_objects base_session base_session.Session

/-! ## Every command is answered -/

/-- The command of a read gets a reply, and a read is outstanding after it: the one that the
command starts, or an older one. -/
def Heard (s : Session) (command argument : Bytes) : Prop :=
  ¬ s.Unanswered command argument ∧ (¬ s.Unread command argument ∨ 1 < s.control_reads)

instance (s : Session) (c a : Bytes) : Decidable (Heard s c a) :=
  inferInstanceAs (Decidable (_ ∧ _))

theorem replies_pos {s : Session} {c a : Bytes} : 0 < s.replies c a ↔ ¬ s.Unanswered c a := by
  unfold replies
  split
  · next h => simp [h]
  · next h => split <;> simp [h]

theorem rereads_pos {s : Session} {c a : Bytes} : 0 < s.rereads c a ↔ ¬ s.Unread c a := by
  unfold rereads
  split
  · next h => simp [h]
  · next h => split <;> simp [h]

/-- A read was answered, and the session can receive the next command. -/
def Answered (s s' : Session) : Prop := s.sent.length < s'.sent.length ∧ 0 < s'.control_reads

/-- A command other than QUIT is answered, and the session reads on, if and only if the session
hears it. -/
theorem a_command_is_answered_iff_the_session_hears_it (env : Env) (s s' : Session)
    (received : Bytes) (h : s.step (env, .control_received .success received) = some s') :
    ((handle_control_receive_callback .success received).1 ≠ lit "QUIT" → Answered s s') ↔
      ((handle_control_receive_callback .success received).1 ≠ lit "QUIT" →
        Heard s (handle_control_receive_callback .success received).1
          (handle_control_receive_callback .success received).2) := by
  obtain ⟨-, hs⟩ := step_stepped h
  cases hs with
  | control_received _ _ hr _ =>
    generalize (handle_control_receive_callback .success received).1 = c
    generalize (handle_control_receive_callback .success received).2 = a
    refine imp_congr_right fun _ => ?_
    have acc := counts_handle_command env { s with control_reads := s.control_reads - 1 } c a
    have h1 : (front _).sent.length = s.sent.length + s.replies c a := acc.sent
    have h2 : (front _).reads = s.control_reads - 1 + s.rereads c a := acc.reads
    unfold Heard
    rw [← replies_pos, ← rereads_pos]
    change s.sent.length < (front _).sent.length ∧ 0 < (front _).reads ↔ _
    omega

/-- A session in which "ann" logged in and waits for a command. -/
def waiting : Session :=
  { Session.fresh .session users.Table.annAndBob Store.empty with
    m_connection_stage := .LOGGED_IN, m_userid := (helpers.Uuid.ofRand 1).val, control_reads := 1 }

theorem SYST_is_answered : ∃ s',
    waiting.step (Env.working 0, .control_received .success (lit "SYST" ++ crlf)) = some s' ∧
      Answered waiting s' :=
  ⟨_, rfl, (a_command_is_answered_iff_the_session_hears_it (Env.working 0) waiting _
    (lit "SYST" ++ crlf) rfl).mpr (by decide) (by decide)⟩

/-- SIZE answers, and then no read is outstanding. -/
theorem after_SIZE_the_session_reads_no_more : ¬ ∀ env s s' received,
    s.step (env, .control_received .success received) = some s' →
      (handle_control_receive_callback .success received).1 ≠ lit "QUIT" → Answered s s' := by
  intro h
  have h1 := h (Env.working 0) waiting _ (lit "SIZE a" ++ crlf) rfl (by decide)
  exact absurd h1.2 (by decide)

/-! ## The reads and the writes do not overlap -/

/-- The reads that are outstanding on the control connection. A handshake reads too. -/
def reads (s : Session) : Nat := s.control_reads + s.probe_reads + s.control_handshakes.length

/-- The writes that are outstanding on the control connection. A handshake writes too. -/
def writes (s : Session) : Nat := s.control_writes + s.probe_writes + s.control_handshakes.length

/-- At most one read and one write at a time, and neither beside a handshake. -/
def Serial (s : Session) : Prop := reads s ≤ 1 ∧ writes s ≤ 1

instance (s : Session) : Decidable (Serial s) := inferInstanceAs (Decidable (_ ∧ _))

/-- AUTH with a name that the server knows. -/
def StartsTls (command argument : Bytes) : Prop :=
  command = lit "AUTH" ∧ (argument = lit "TLS" ∨ argument = lit "SSL")

/-- The event starts no write while another is outstanding: a line that gets a reply and the end
of a transfer come when all is written, no RETR is answered twice, and no AUTH starts a
handshake. -/
def Paced (s : Session) : Env × Event → Session → Prop
  | (_, .control_received ec received), _ =>
    ¬ s.AnsweredTwice (handle_control_receive_callback ec received).1
        (handle_control_receive_callback ec received).2 ∧
      (¬ s.Unanswered (handle_control_receive_callback ec received).1
        (handle_control_receive_callback ec received).2 → writes s = 0)
  | (_, .data_sent _ ec), _ => ec = .success → writes s = 0
  | (env, .data_received _ ec received), _ =>
    { s with m_receive_buffer := s.m_receive_buffer ++ received }.receiveEnds env ec
      received.length = true → writes s = 0
  | (_, .data_async_sent _ ec), _ => s.sendEnds ec = true → writes s = 0
  | (_, .probe_received ec received), _ =>
    ¬ StartsTls (handle_control_receive_callback ec received).1
        (handle_control_receive_callback ec received).2 ∧ writes s = 0
  | _, _ => True

/-- While the session waits for a ClientHello, nothing else is outstanding. -/
def Quiet (s : Session) : Prop :=
  s.timer_waits ≠ 0 → s.timer_waits = 1 ∧ reads s = 0 ∧ writes s = 0 ∧ s.accepts = 0 ∧
    s.data_handshakes = 0 ∧ s.data_ops = []

/-- Another state of the same front has the same reads and writes outstanding. -/
theorem serial_of_front {s t : Session} (h : t.front = s.front) : Serial t ↔ Serial s := by
  have h1 : reads t = reads s := congrArg (fun f => f.reads + f.probe_reads + f.handshakes.length) h
  have h2 : writes t = writes s :=
    congrArg (fun f => f.writes + f.probe_writes + f.handshakes.length) h
  unfold Serial
  rw [h1, h2]

theorem serial_of_say {s t : Session} {m : Bytes} (h : t.front = s.front.say m) (hs : Serial s) :
    Serial t ↔ writes s = 0 := by
  have h1 : reads t = reads s := congrArg (fun f => f.reads + f.probe_reads + f.handshakes.length) h
  have h2 : writes t = s.control_writes + 1 + s.probe_writes + s.control_handshakes.length :=
    congrArg (fun f => f.writes + f.probe_writes + f.handshakes.length) h
  unfold Serial at hs ⊢
  rw [h1, h2]
  unfold writes at hs ⊢
  omega

/-- A callback that replies when a transfer ends needs all to be written then. -/
theorem serial_of_ending {s t : Session} {ends : Prop} [Decidable ends] {m : Bytes}
    (h : t.front = if ends then s.front.say m else s.front) (hs : Serial s) :
    Serial t ↔ (ends → writes s = 0) := by
  by_cases he : ends
  · rw [if_pos he] at h
    simp only [he, true_imp_iff]
    exact serial_of_say h hs
  · rw [if_neg he] at h
    simp only [he, false_imp_iff, iff_true]
    exact (serial_of_front h).mpr hs

theorem replies_eq_two {s : Session} {c a : Bytes} (h : s.AnsweredTwice c a) :
    s.replies c a = 2 := by
  have hstage : s.m_connection_stage = .LOGGED_IN := h.elim (·.1) (·.1)
  have hc : c = lit "RETR" := h.elim (·.2.1) (·.2.1)
  subst hc
  rw [(replies_RETR a hstage).1, if_pos]
  exact h.imp (·.2.2) (·.2.2)

theorem rereads_le_one {s : Session} {c a : Bytes} (h : ¬ s.AnsweredTwice c a) :
    s.rereads c a ≤ 1 := by
  unfold rereads
  split
  · omega
  · rw [if_neg (fun hr => h (Or.inl hr))]

theorem serial_handle_command (env : Env) {s : Session} (c a : Bytes) (h : s.control_reads ≠ 0)
    (hs : Serial s) :
    Serial ({ s with control_reads := s.control_reads - 1 }.handle_command env c a) ↔
      ¬ s.AnsweredTwice c a ∧ (¬ s.Unanswered c a → writes s = 0) := by
  have acc := counts_handle_command env { s with control_reads := s.control_reads - 1 } c a
  have h1 : (front _).writes = s.control_writes + s.replies c a := acc.writes
  have h2 : (front _).reads = s.control_reads - 1 + s.rereads c a := acc.reads
  have h3 : (front _).probe_reads = s.probe_reads := acc.probe_reads
  have h4 : (front _).probe_writes = s.probe_writes := acc.probe_writes
  have h5 : (front _).handshakes = s.control_handshakes := acc.handshakes
  unfold Serial reads writes at hs ⊢
  change (front _).reads + (front _).probe_reads + (front _).handshakes.length ≤ 1 ∧
    (front _).writes + (front _).probe_writes + (front _).handshakes.length ≤ 1 ↔ _
  rw [h1, h2, h3, h4, h5]
  by_cases ht : s.AnsweredTwice c a
  · have := replies_eq_two ht
    simp only [ht, not_true_eq_false, false_and, iff_false]
    omega
  · have hl := rereads_le_one ht
    by_cases hu : s.Unanswered c a
    · have hr : s.replies c a = 0 := if_pos hu
      simp only [ht, hu, not_false_eq_true, not_true_eq_false, true_and, false_imp_iff, iff_true]
      omega
    · have hr : s.replies c a = 1 := by
        unfold replies
        rw [if_neg hu, if_neg ht]
      simp only [ht, hu, not_false_eq_true, true_and, true_imp_iff]
      omega

/-- A handler of a session that waits for a ClientHello leaves one operation of each kind. -/
theorem serial_wait_for_implicit {s : Session} (lap available : Nat) (hr : reads s = 0)
    (hw : writes s = 0) : Serial (s.wait_for_implicit lap available) := by
  unfold Serial reads writes at *
  unfold wait_for_implicit
  split
  · simp only [probe_send, probe_receive]
    omega
  · split
    · simp only [start_secure, List.length_append, List.length_cons, List.length_nil]
      omega
    · simp only
      omega

theorem serial_handle_auth {s : Session} (c a : Bytes) (h : s.probe_reads ≠ 0) (hs : Serial s) :
    Serial ({ s with probe_reads := s.probe_reads - 1 }.handle_auth c a) ↔
      ¬ StartsTls c a ∧ writes s = 0 := by
  unfold Serial reads writes at *
  unfold handle_auth StartsTls
  by_cases hc : c = lit "AUTH"
  · rw [if_neg (not_not.mpr hc)]
    by_cases ha : a = lit "TLS" ∨ a = lit "SSL"
    · rw [if_neg (by tauto)]
      simp only [start_secure, probe_send, List.length_append, List.length_cons, List.length_nil,
        hc, ha, and_self, not_true_eq_false, false_and, iff_false]
      omega
    · rw [if_pos (by tauto)]
      simp only [probe_send, probe_receive, hc, ha, and_false, not_false_eq_true, true_and]
      omega
  · rw [if_pos hc]
    simp only [probe_send, probe_receive, hc, false_and, not_false_eq_true, true_and]
    omega

theorem serial_handle_handshake {s : Session} (ec : ErrorCode) (i : Bool)
    (h : i ∈ s.control_handshakes) (hs : Serial s) :
    Serial ({ s with control_handshakes := s.control_handshakes.erase i }.handle_handshake ec i) := by
  have hl := List.length_erase_of_mem h
  have hp := List.length_pos_of_mem h
  unfold Serial reads writes at *
  unfold handle_handshake
  split
  · simp only
    omega
  · cases i
    · simp only [control_receive, Bool.false_eq_true, if_false]
      omega
    · simp only [control_receive, control_send, if_true]
      omega

/-- One event keeps the operations apart if and only if it is paced. -/
theorem serial_step {s s' : Session} {e : Env × Event} (hq : Quiet s) (hs : Serial s)
    (h : s.step e = some s') : Serial s' ↔ Paced s e s' := by
  obtain ⟨env, e⟩ := e
  obtain ⟨-, hst⟩ := step_stepped h
  cases hst with
  | control_sent ec hw =>
    simp only [Paced, iff_true]
    unfold Serial reads writes at *
    simp only
    omega
  | control_received ec received hr _ => exact serial_handle_command env _ _ hr hs
  | accepted ec ha =>
    simp only [Paced, iff_true]
    exact (serial_of_front (front_handle_accept env _ ec)).mpr hs
  | data_handshaken ec ha =>
    simp only [Paced, iff_true]
    exact (serial_of_front (front_handle_data_handshake env _ ec)).mpr hs
  | data_sent c ec ho =>
    exact serial_of_ending (s := s) (front_handle_data_send_callback
      { s with data_ops := s.data_ops.erase ⟨.data_send, c⟩ } ec) hs
  | data_received c ec received ho =>
    exact serial_of_ending (s := s) (front_handle_data_async_receive_callback env
      { s with
        data_ops := s.data_ops.erase ⟨.data_async_receive, c⟩
        m_receive_buffer := s.m_receive_buffer ++ received } ec received.length) hs
  | data_async_sent c ec ho =>
    exact serial_of_ending (s := s) (front_handle_data_async_send_callback env
      { s with data_ops := s.data_ops.erase ⟨.data_async_send, c⟩ } ec) hs
  | data_shutdown hd =>
    simp only [Paced, iff_true]
    exact hs
  | timer lap available ht =>
    obtain ⟨-, hr, hw, -⟩ := hq ht
    simp only [Paced, iff_true]
    exact serial_wait_for_implicit lap available hr hw
  | probe_sent ec hp =>
    simp only [Paced, iff_true]
    unfold Serial reads writes at *
    simp only
    omega
  | probe_received ec received hr _ => exact serial_handle_auth _ _ hr hs
  | handshaken ec i hi =>
    simp only [Paced, iff_true]
    exact serial_handle_handshake ec i hi hs
  | elsewhere store =>
    simp only [Paced, iff_true]
    exact hs

/-- Only the timer starts a wait for a ClientHello. -/
theorem timer_waits_step {s s' : Session} {env : Env} {e : Event}
    (h : Stepped env s e s') (ht : ∀ lap available, e ≠ .timer lap available) :
    s'.timer_waits = s.timer_waits := by
  by_cases he : onControl e = true
  · cases h with
    | control_received ec received =>
      exact (counts_handle_command env { s with control_reads := s.control_reads - 1 } _ _).timer_waits
    | timer lap available => exact absurd rfl (ht lap available)
    | probe_received ec received =>
      unfold handle_auth
      split
      · rfl
      · split <;> rfl
    | handshaken ec i =>
      unfold handle_handshake
      split
      · rfl
      · cases i <;> rfl
    | control_sent => rfl
    | probe_sent => rfl
    | _ => simp [onControl] at he
  · rcases h.front (by simpa using he) with hf | ⟨m, hf⟩
    · exact congrArg Front.timer_waits hf
    · exact congrArg Front.timer_waits hf

theorem quiet_step {s s' : Session} {e : Env × Event} (hq : Quiet s) (h : s.step e = some s') :
    Quiet s' := by
  obtain ⟨env, e⟩ := e
  obtain ⟨-, hst⟩ := step_stepped h
  by_cases ht : ∃ lap available, e = .timer lap available
  · obtain ⟨lap, available, rfl⟩ := ht
    cases hst with
    | timer _ _ hw =>
      obtain ⟨h1, hr, hw', ha, hd, ho⟩ := hq hw
      unfold wait_for_implicit
      split
      · intro hne
        exact absurd (by simp [probe_send, probe_receive, h1]) hne
      · split
        · intro hne
          exact absurd (by simp [start_secure, h1]) hne
        · intro _
          exact ⟨by simp [h1], hr, hw', ha, hd, ho⟩
  · have hwaits := timer_waits_step hst (fun lap available he => ht ⟨lap, available, he⟩)
    intro hne
    rw [hwaits] at hne
    obtain ⟨h1, hr, hw, ha, hd, ho⟩ := hq hne
    unfold reads at hr
    unfold writes at hw
    -- Nothing is outstanding, so no other event than these two can come.
    cases hst with
    | data_shutdown => exact ⟨h1, hr, hw, ha, hd, ho⟩
    | elsewhere store => exact ⟨h1, hr, hw, ha, hd, ho⟩
    | control_sent ec hg => exact absurd (by omega) hg
    | control_received ec received hg => exact absurd (by omega) hg
    | accepted ec hg => exact absurd ha hg
    | data_handshaken ec hg => exact absurd hd hg
    | data_sent c ec hg => simp [ho] at hg
    | data_received c ec received hg => simp [ho] at hg
    | data_async_sent c ec hg => simp [ho] at hg
    | timer lap available => exact absurd ⟨lap, available, rfl⟩ ht
    | probe_sent ec hg => exact absurd (by omega) hg
    | probe_received ec received hg => exact absurd (by omega) hg
    | handshaken ec i hg =>
      have hpos := List.length_pos_of_mem hg
      omega

theorem serial_begun (session_class : SessionClass) (users : users.Table) (store : Store)
    (lap available : Nat) : Serial (begun session_class users store lap available) := by
  cases session_class with
  | session => exact ⟨le_refl 1, le_refl 1⟩
  | secure_session => exact serial_wait_for_implicit lap available rfl rfl

theorem quiet_begun (session_class : SessionClass) (users : users.Table) (store : Store)
    (lap available : Nat) : Quiet (begun session_class users store lap available) :=
  begun_cases session_class users store lap available (fun h => absurd rfl h)
    (fun h => absurd rfl h) (fun h => absurd rfl h) (fun _ => ⟨rfl, rfl, rfl, rfl, rfl, rfl⟩)

/-- In a run of any session, the reads and the writes of the control connection never overlap
if and only if every event is paced. -/
theorem reads_and_writes_never_overlap_iff_every_event_is_paced (session_class : SessionClass)
    (users : users.Table) (store : Store) (lap available : Nat) (es : List (Env × Event)) :
    runs.Along step (fun _ _ s' => Serial s') (begun session_class users store lap available) es ↔
      runs.Along step Paced (begun session_class users store lap available) es := by
  refine runs.along_iff_of_invariant (J := fun s => Serial s ∧ Quiet s) ?_ ?_
    ⟨serial_begun .., quiet_begun session_class users store lap available⟩
  · intro s e s' hj h
    exact serial_step hj.2 hj.1 h
  · intro s e s' hj h hp
    exact ⟨(serial_step hj.2 hj.1 h).mpr hp, quiet_step hj.2 h⟩

/-- The handshake of AUTH TLS starts beside the write of its reply, and RETR with no argument
starts two reads and two writes. -/
theorem AUTH_and_RETR_overlap :
    ¬ runs.Along step (fun _ _ s' => Serial s')
        (begun .secure_session users.Table.annAndBob Store.empty 501 0)
        [(Env.working 0, .probe_sent .success),
          (Env.working 0, .probe_received .success (lit "AUTH TLS" ++ crlf))] ∧
      ¬ runs.Along step (fun _ _ s' => Serial s')
        (begun .session users.Table.annAndBob Store.empty 0 0)
        [(Env.working 0, .control_sent .success),
          clientLine "USER ann", (Env.working 0, .control_sent .success),
          clientLine "PASS pw1", (Env.working 0, .control_sent .success), clientLine "RETR"] := by
  constructor <;> decide

end asio_ftp.control_channel
