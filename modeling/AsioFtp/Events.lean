-- The events of a session: the end of each operation that the session started, in any order
-- and with any result that Asio can give, and the changes that other sessions make.
import AsioFtp.Lib.Runs
import AsioFtp.SecureSession

namespace asio_ftp.base_session

open fs_objects

/-! ## The events -/

inductive Event
  | control_sent (ec : ErrorCode)
  | control_received (ec : ErrorCode) (received : Bytes)
  | accepted (ec : ErrorCode)
  | data_handshaken (ec : ErrorCode)
  | data_sent (connection : Nat) (ec : ErrorCode)
  | data_received (connection : Nat) (ec : ErrorCode) (received : Bytes)
  | data_async_sent (connection : Nat) (ec : ErrorCode)
  | data_shutdown
  | timer (lap available : Nat)
  | probe_sent (ec : ErrorCode)
  | probe_received (ec : ErrorCode) (received : Bytes)
  | handshaken (ec : ErrorCode) (is_implicit : Bool)
  /-- Another session of the server changed the store. -/
  | elsewhere (store : Store)

/-- A read into `m_buffer` that succeeds gives some bytes, and no more than the buffer takes. -/
def Readable (ec : ErrorCode) (received : Bytes) : Prop :=
  ec = .success → received ≠ [] ∧ received.length ≤ MESSAGE_BUFFER_SIZE

instance (ec : ErrorCode) (received : Bytes) : Decidable (Readable ec received) :=
  inferInstanceAs (Decidable (_ → _))

/-! ## One event -/

namespace Session

/-- A transfer on the data socket ends, when it is outstanding. -/
def finish (s : Session) (o : Outstanding) : Option Session :=
  if o ∈ s.data_ops then some { s with data_ops := s.data_ops.erase o } else none

/-- An operation ends only once for each time it was started. A process that crashed takes no
event. -/
def step (s : Session) : Env × Event → Option Session
  | (env, event) =>
    if s.crashed then none
    else
      match event with
      | .control_sent _ =>
        if s.control_writes = 0 then none
        else some { s with control_writes := s.control_writes - 1 }
      | .control_received ec received =>
        if s.control_reads = 0 ∨ ¬ Readable ec received then none
        else
          let (FTP_command, FTP_argument) := handle_control_receive_callback ec received
          some ({ s with control_reads := s.control_reads - 1 }.handle_command env FTP_command
            FTP_argument)
      | .accepted ec =>
        if s.accepts = 0 then none
        else some ({ s with accepts := s.accepts - 1 }.handle_accept env ec)
      | .data_handshaken ec =>
        if s.data_handshakes = 0 then none
        else some ({ s with data_handshakes := s.data_handshakes - 1 }.handle_data_handshake env ec)
      | .data_sent connection ec =>
        (s.finish ⟨.data_send, connection⟩).map (·.handle_data_send_callback ec)
      | .data_received connection ec received =>
        if (s.m_receive_buffer ++ received).length > RECEIVE_BUFFER_SIZE then none
        else
          (s.finish ⟨.data_async_receive, connection⟩).map fun s =>
            { s with m_receive_buffer := s.m_receive_buffer ++ received }
              |>.handle_data_async_receive_callback env ec received.length
      | .data_async_sent connection ec =>
        (s.finish ⟨.data_async_send, connection⟩).map (·.handle_data_async_send_callback env ec)
      | .data_shutdown =>
        if s.data_shutdowns = 0 then none
        else some { s with data_shutdowns := s.data_shutdowns - 1 }.handle_data_shutdown
      | .timer lap available =>
        if s.timer_waits = 0 then none
        else some ({ s with timer_waits := s.timer_waits - 1 }.wait_for_implicit lap available)
      | .probe_sent _ =>
        if s.probe_writes = 0 then none else some { s with probe_writes := s.probe_writes - 1 }
      | .probe_received ec received =>
        if s.probe_reads = 0 ∨ ¬ Readable ec received then none
        else
          let (FTP_command, FTP_argument) := handle_control_receive_callback ec received
          some ({ s with probe_reads := s.probe_reads - 1 }.handle_auth FTP_command FTP_argument)
      | .handshaken ec is_implicit =>
        if is_implicit ∈ s.control_handshakes then
          some ({ s with control_handshakes := s.control_handshakes.erase is_implicit }
            |>.handle_handshake ec is_implicit)
        else none
      | .elsewhere store => some { s with m_fs_objects_table := store }

/-- What each event asks of a session, and what it does. -/
inductive Stepped (env : Env) (s : Session) : Event → Session → Prop
  | control_sent (ec) (h : s.control_writes ≠ 0) :
      Stepped env s (.control_sent ec) { s with control_writes := s.control_writes - 1 }
  | control_received (ec received) (h : s.control_reads ≠ 0) (hr : Readable ec received) :
      Stepped env s (.control_received ec received)
        ({ s with control_reads := s.control_reads - 1 }.handle_command env
          (handle_control_receive_callback ec received).1
          (handle_control_receive_callback ec received).2)
  | accepted (ec) (h : s.accepts ≠ 0) :
      Stepped env s (.accepted ec) ({ s with accepts := s.accepts - 1 }.handle_accept env ec)
  | data_handshaken (ec) (h : s.data_handshakes ≠ 0) :
      Stepped env s (.data_handshaken ec)
        ({ s with data_handshakes := s.data_handshakes - 1 }.handle_data_handshake env ec)
  | data_sent (c ec) (h : ⟨.data_send, c⟩ ∈ s.data_ops) :
      Stepped env s (.data_sent c ec)
        ({ s with data_ops := s.data_ops.erase ⟨.data_send, c⟩ }.handle_data_send_callback ec)
  | data_received (c ec received) (h : ⟨.data_async_receive, c⟩ ∈ s.data_ops) :
      Stepped env s (.data_received c ec received)
        ({ s with
          data_ops := s.data_ops.erase ⟨.data_async_receive, c⟩
          m_receive_buffer := s.m_receive_buffer ++ received }.handle_data_async_receive_callback
          env ec received.length)
  | data_async_sent (c ec) (h : ⟨.data_async_send, c⟩ ∈ s.data_ops) :
      Stepped env s (.data_async_sent c ec)
        ({ s with
          data_ops := s.data_ops.erase ⟨.data_async_send, c⟩ }.handle_data_async_send_callback
          env ec)
  | data_shutdown (h : s.data_shutdowns ≠ 0) :
      Stepped env s .data_shutdown
        { s with data_shutdowns := s.data_shutdowns - 1 }.handle_data_shutdown
  | timer (lap available) (h : s.timer_waits ≠ 0) :
      Stepped env s (.timer lap available)
        ({ s with timer_waits := s.timer_waits - 1 }.wait_for_implicit lap available)
  | probe_sent (ec) (h : s.probe_writes ≠ 0) :
      Stepped env s (.probe_sent ec) { s with probe_writes := s.probe_writes - 1 }
  | probe_received (ec received) (h : s.probe_reads ≠ 0) (hr : Readable ec received) :
      Stepped env s (.probe_received ec received)
        ({ s with probe_reads := s.probe_reads - 1 }.handle_auth
          (handle_control_receive_callback ec received).1
          (handle_control_receive_callback ec received).2)
  | handshaken (ec i) (h : i ∈ s.control_handshakes) :
      Stepped env s (.handshaken ec i)
        ({ s with control_handshakes := s.control_handshakes.erase i }.handle_handshake ec i)
  | elsewhere (store) : Stepped env s (.elsewhere store) { s with m_fs_objects_table := store }

theorem finish_eq_some {s t : Session} {o : Outstanding} (h : s.finish o = some t) :
    o ∈ s.data_ops ∧ t = { s with data_ops := s.data_ops.erase o } := by
  unfold finish at h
  split at h
  · next ho => exact ⟨ho, (Option.some.inj h).symm⟩
  · simp at h

/-- Every step is of one of these kinds. -/
theorem step_stepped {s s' : Session} {env : Env} {e : Event} (h : s.step (env, e) = some s') :
    s.crashed = false ∧ Stepped env s e s' := by
  unfold step at h
  simp only at h
  split at h
  · simp at h
  next hc =>
  refine ⟨by simpa using hc, ?_⟩
  cases e with
  | control_sent ec =>
    simp only [Option.ite_none_left_eq_some, Option.some.injEq] at h
    exact h.2 ▸ .control_sent ec h.1
  | control_received ec received =>
    simp only [Option.ite_none_left_eq_some, Option.some.injEq, not_or, not_not] at h
    exact h.2 ▸ .control_received ec received h.1.1 h.1.2
  | accepted ec =>
    simp only [Option.ite_none_left_eq_some, Option.some.injEq] at h
    exact h.2 ▸ .accepted ec h.1
  | data_handshaken ec =>
    simp only [Option.ite_none_left_eq_some, Option.some.injEq] at h
    exact h.2 ▸ .data_handshaken ec h.1
  | data_sent c ec =>
    simp only [Option.map_eq_some_iff] at h
    obtain ⟨t, ht, rfl⟩ := h
    obtain ⟨ho, rfl⟩ := finish_eq_some ht
    exact .data_sent c ec ho
  | data_received c ec received =>
    simp only [Option.ite_none_left_eq_some, Option.map_eq_some_iff] at h
    obtain ⟨-, t, ht, rfl⟩ := h
    obtain ⟨ho, rfl⟩ := finish_eq_some ht
    exact .data_received c ec received ho
  | data_async_sent c ec =>
    simp only [Option.map_eq_some_iff] at h
    obtain ⟨t, ht, rfl⟩ := h
    obtain ⟨ho, rfl⟩ := finish_eq_some ht
    exact .data_async_sent c ec ho
  | data_shutdown =>
    simp only [Option.ite_none_left_eq_some, Option.some.injEq] at h
    exact h.2 ▸ .data_shutdown h.1
  | timer lap available =>
    simp only [Option.ite_none_left_eq_some, Option.some.injEq] at h
    exact h.2 ▸ .timer lap available h.1
  | probe_sent ec =>
    simp only [Option.ite_none_left_eq_some, Option.some.injEq] at h
    exact h.2 ▸ .probe_sent ec h.1
  | probe_received ec received =>
    simp only [Option.ite_none_left_eq_some, Option.some.injEq, not_or, not_not] at h
    exact h.2 ▸ .probe_received ec received h.1.1 h.1.2
  | handshaken ec i =>
    simp only [Option.ite_none_right_eq_some, Option.some.injEq] at h
    exact h.2 ▸ .handshaken ec i h.1
  | elsewhere store =>
    simp only [Option.some.injEq] at h
    exact h ▸ .elsewhere store

end Session

/-! ## Where runs begin -/

/-- A session of a new connection, before `start`. -/
def Session.fresh (session_class : SessionClass) (users : users.Table) (store : Store) : Session :=
  { session_class, m_users_table := users, m_fs_objects_table := store }

/-- A session that `start` began, with the time of its stopwatch and the bytes on its socket. -/
def begun (session_class : SessionClass) (users : users.Table) (store : Store)
    (lap available : Nat) : Session :=
  (Session.fresh session_class users store).start_session lap available

/-- A session begins with the welcome of its class, or waits for an implicit client. -/
theorem begun_cases {P : Session → Prop} (session_class : SessionClass) (users : users.Table)
    (store : Store) (lap available : Nat)
    (plain : P (Session.fresh .session users store).startPlain)
    (welcome : P ((Session.fresh .secure_session users store).probe_send
      (lit "220 Welcome. Encryption required.")).probe_receive)
    (implicit : P ((Session.fresh .secure_session users store).start_secure true))
    (waits : P { Session.fresh .secure_session users store with timer_waits := 1 }) :
    P (begun session_class users store lap available) := by
  cases session_class with
  | session => exact plain
  | secure_session =>
    unfold begun
    rw [Session.start_session.eq_def]
    dsimp only [Session.fresh, Session.wait_for_implicit]
    split
    · exact welcome
    · split
      · exact implicit
      · exact waits

/-- A session begins in the root, and with no bytes of an upload. -/
theorem begun_idle (session_class : SessionClass) (users : users.Table) (store : Store)
    (lap available : Nat) :
    (begun session_class users store lap available).m_working_directory = [slash] ∧
      (begun session_class users store lap available).m_receive_buffer = [] :=
  begun_cases (P := fun s => s.m_working_directory = [slash] ∧ s.m_receive_buffer = [])
    session_class users store lap available ⟨rfl, rfl⟩ ⟨rfl, rfl⟩ ⟨rfl, rfl⟩ ⟨rfl, rfl⟩

/-- An environment in which every file opens and the disk takes and gives every byte. A stream has a
buffer of 8191 bytes and keeps the writes that are small. -/
def Env.working (r : Nat) : Env where
  uuid := .ofRand r
  now := lit "2024-05-01 10:00:00"
  opens := true
  disk_takes := none
  close_takes := none
  disk_fails := none
  keeps := fun held n => decide (n < min 1024 (8191 - held))

/-- The client sends one line. -/
def clientLine (text : String) : Env × Event :=
  (Env.working 0, .control_received .success (lit text ++ crlf))

end asio_ftp.base_session
