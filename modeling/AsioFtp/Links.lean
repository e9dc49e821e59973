-- What the handlers of a session do to its connections: which event opens and closes the data
-- socket, and which one ends the start-up of TLS.
import AsioFtp.Effects

namespace asio_ftp.base_session

open helpers fs_objects

/-! ## The connections of a session -/

/-- The class of the session, whether its control connection has TLS, and its data socket: whether
it is open, which connection it holds, and the shutdowns and the handshakes that are outstanding
on it. -/
structure Link where
  session_class : SessionClass
  tls : Bool
  socket_open : Bool
  connection : Nat
  shutdowns : Nat
  handshakes : Nat

/-- The same, after `data_close`. -/
def Link.close (l : Link) : Link :=
  if l.socket_open = false then l
  else
    match l.session_class with
    | .session => { l with socket_open := false }
    | .secure_session => { l with shutdowns := l.shutdowns + 1 }

/-- The same, after what an event does on its own, before its handler. -/
def Link.event (l : Link) : Event → Link
  | .accepted .success =>
    { l with
      socket_open := true
      connection := l.connection + 1
      handshakes := l.handshakes + if l.session_class = .session then 0 else 1 }
  | .data_handshaken _ => { l with handshakes := l.handshakes - 1 }
  | .data_shutdown => { l with socket_open := false, shutdowns := l.shutdowns - 1 }
  | .handshaken .success _ => { l with tls := true }
  | _ => l

/-- A handler leaves the connections as they are, or calls `data_close`. -/
def MayClose (before after : Link) : Prop := after = before ∨ after = before.close

theorem MayClose.same {a b : Link} (h : b = a) : MayClose a b := Or.inl h

namespace Session

def link (s : Session) : Link where
  session_class := s.session_class
  tls := s.tls
  socket_open := s.data_socket_open
  connection := s.data_connection
  shutdowns := s.data_shutdowns
  handshakes := s.data_handshakes

/-! ## The transfers -/

section
variable (env : Env) (s : Session)

@[simp] theorem link_data_close : s.data_close.link = s.link.close := by
  unfold data_close Link.close
  by_cases h : s.data_socket_open = false
  · rw [if_pos h, if_pos (show s.link.socket_open = false from h)]
  · rw [if_neg h, if_neg (show ¬ s.link.socket_open = false from h)]
    cases hc : s.session_class <;> simp [link, hc]

@[simp] theorem link_data_async_send : (s.data_async_send env).link = s.link := by
  unfold data_async_send
  cases s.m_send_file_stream <;> rfl

theorem link_data_receive_file : MayClose s.link (s.data_receive_file env).link := by
  unfold data_receive_file
  split
  · exact Or.inr (link_data_close _)
  · exact Or.inl rfl

theorem link_data_send_file : MayClose s.link (s.data_send_file env).link := by
  unfold data_send_file
  split
  · exact Or.inr (link_data_close _)
  · exact Or.inl (link_data_async_send env _)

theorem link_takeUpWork : MayClose s.link (s.takeUpWork env).link := by
  unfold takeUpWork
  split
  · exact Or.inl rfl
  split
  · exact s.link_data_receive_file env
  split
  · exact s.link_data_send_file env
  · exact Or.inl rfl

theorem link_handle_data_send_callback (ec : ErrorCode) :
    (s.handle_data_send_callback ec).link = if ec = .success then s.link.close else s.link := by
  unfold handle_data_send_callback
  by_cases h : ec = .success
  · rw [if_neg (not_not.mpr h), if_pos h, link_data_close]
    rfl
  · rw [if_pos h, if_neg h]

theorem link_absorb (f : OFStream) (n : Nat) : (s.absorb env f n).link = s.link := by
  obtain ⟨_, _, _, _, h⟩ := s.absorb_eq env f n
  rw [h]
  rfl

theorem link_data_async_receive_end {f : OFStream} (h : s.m_receive_file_stream = some f) :
    (s.data_async_receive_end env).link = s.link.close := by
  unfold data_async_receive_end
  rw [h]
  simp only
  rw [link_data_close]
  rfl

theorem link_handle_data_async_receive_callback (ec : ErrorCode) (n : Nat) :
    (s.handle_data_async_receive_callback env ec n).link =
      if s.receiveEnds env ec n = true then s.link.close else s.link := by
  cases h : s.m_receive_file_stream with
  | none =>
    unfold handle_data_async_receive_callback receiveEnds
    simp only [h]
    rfl
  | some f =>
    rw [s.handle_data_async_receive_callback_eq env h]
    split
    · rw [link_data_async_receive_end env _ (s.absorb_stream env h n), link_absorb]
    · exact s.link_absorb env f n

theorem link_handle_data_async_send_callback (ec : ErrorCode) :
    (s.handle_data_async_send_callback env ec).link =
      if s.sendEnds ec = true then s.link.close else s.link := by
  cases h : s.m_send_file_stream with
  | none =>
    unfold handle_data_async_send_callback sendEnds
    simp only [h]
    rfl
  | some f =>
    rw [s.handle_data_async_send_callback_eq env h]
    split
    · unfold data_async_send_end
      rw [h]
      simp only
      rw [link_data_close]
      rfl
    · exact s.link_data_async_send env

end

/-! ## The commands -/

section
variable (env : Env) (s : Session) (a : Bytes)

theorem link_run_LIST : (s.run_LIST a).link = s.link := by
  unfold run_LIST run_pending_LIST
  split
  · rfl
  · split <;> rfl

theorem link_run_STOR : MayClose s.link (s.run_STOR env a).link := by
  unfold run_STOR
  split
  · exact Or.inl rfl
  split
  · exact Or.inl rfl
  · unfold run_pending_STOR
    split
    · exact Or.inl rfl
    split
    · exact link_data_receive_file env
        ((s.set_pending_write a).control_send (lit "150 Opening connection."))
    · exact Or.inl rfl

theorem link_parse_RETR_argument : (s.parse_RETR_argument a).link = s.link := by
  obtain ⟨_, _, _, _, h⟩ := s.parse_RETR_argument_eq a
  rw [h]
  rfl

theorem link_run_RETR : MayClose s.link (s.run_RETR env).link := by
  unfold run_RETR
  split
  · exact link_data_send_file env (s.control_send (lit "150 Opening connection."))
  · exact Or.inl rfl

/-- What a command does to the connections. -/
theorem Handled.link {env : Env} {s t : Session} {c a : Bytes} (h : Handled env s c a t) :
    MayClose s.link t.link := by
  cases h with
  | options =>
    refine Or.inl ?_
    unfold handle_OPTS
    split <;> rfl
  | list => exact Or.inl (s.link_run_LIST a)
  | stor => exact s.link_run_STOR env a
  | retr =>
    have h := link_run_RETR env (s.parse_RETR_argument a)
    rwa [link_parse_RETR_argument] at h
  | size =>
    refine Or.inl ?_
    unfold handle_SIZE
    simp only
    split <;> rfl
  | _ => exact Or.inl rfl

end

/-! ## One event -/

/-- What an event does to the connections. -/
theorem Stepped.link {env : Env} {s s' : Session} {e : Event} (h : Stepped env s e s') :
    MayClose (s.link.event e) s'.link := by
  have ending : ∀ {l l' : Link} {ends : Prop} [Decidable ends],
      l' = (if ends then l.close else l) → MayClose l l' := by
    intro l l' ends _ hl
    by_cases he : ends
    · exact Or.inr (by rw [hl, if_pos he])
    · exact Or.inl (by rw [hl, if_neg he])
  cases h with
  | control_received ec received =>
    exact (handle_command_handled env { s with control_reads := s.control_reads - 1 } _ _).link
  | accepted ec =>
    by_cases hec : ec = .success
    · subst hec
      rw [handle_accept_success]
      split
      · next hc =>
        have hevent : s.link.event (.accepted .success) =
            { s.link with socket_open := true, connection := s.data_connection + 1 } := by
          simp [Link.event, Session.link, show s.session_class = .session from hc]
        rw [hevent]
        exact link_takeUpWork env { s with
          accepts := s.accepts - 1
          data_socket_open := true
          data_connection := s.data_connection + 1 }
      · next hc =>
        exact Or.inl (by simp [Link.event, Session.link,
          show ¬ s.session_class = .session from hc])
    · rw [handle_accept, if_pos hec]
      refine Or.inl ?_
      cases ec <;> first | rfl | exact absurd rfl hec
  | data_handshaken ec =>
    unfold handle_data_handshake
    split
    · exact Or.inl rfl
    · exact link_takeUpWork env { s with data_handshakes := s.data_handshakes - 1 }
  | data_sent c ec =>
    exact ending (link_handle_data_send_callback
      { s with data_ops := s.data_ops.erase ⟨.data_send, c⟩ } ec)
  | data_received c ec received =>
    exact ending (link_handle_data_async_receive_callback env
      { s with
        data_ops := s.data_ops.erase ⟨.data_async_receive, c⟩
        m_receive_buffer := s.m_receive_buffer ++ received } ec received.length)
  | data_async_sent c ec =>
    exact ending (link_handle_data_async_send_callback env
      { s with data_ops := s.data_ops.erase ⟨.data_async_send, c⟩ } ec)
  | timer lap available =>
    refine Or.inl ?_
    unfold wait_for_implicit
    split
    · rfl
    · split <;> rfl
  | probe_received ec received =>
    refine Or.inl ?_
    unfold handle_auth
    split
    · rfl
    · split <;> rfl
  | handshaken ec i =>
    unfold handle_handshake
    by_cases hec : ec = .success
    · subst hec
      cases i <;> exact Or.inl rfl
    · rw [if_pos hec]
      refine Or.inl ?_
      cases ec <;> first | rfl | exact absurd rfl hec
  | _ => exact Or.inl rfl

/-- The event ends a transfer: its handler sends the 226 and calls `data_close`. -/
def finishes (env : Env) (s : Session) : Event → Bool
  | .data_sent _ ec => decide (ec = .success)
  | .data_received _ ec received =>
    { s with m_receive_buffer := s.m_receive_buffer ++ received }.receiveEnds env ec received.length
  | .data_async_sent _ ec => s.sendEnds ec
  | _ => false

theorem Stepped.link_of_finishes {env : Env} {s s' : Session} {e : Event} (h : Stepped env s e s')
    (he : s.finishes env e = true) : s'.link = s.link.close := by
  cases h with
  | data_sent c ec =>
    have hl := link_handle_data_send_callback
      { s with data_ops := s.data_ops.erase ⟨.data_send, c⟩ } ec
    exact hl.trans (if_pos (of_decide_eq_true he))
  | data_received c ec received =>
    have hl := link_handle_data_async_receive_callback env
      { s with
        data_ops := s.data_ops.erase ⟨.data_async_receive, c⟩
        m_receive_buffer := s.m_receive_buffer ++ received } ec received.length
    exact hl.trans (if_pos he)
  | data_async_sent c ec =>
    have hl := link_handle_data_async_send_callback env
      { s with data_ops := s.data_ops.erase ⟨.data_async_send, c⟩ } ec
    exact hl.trans (if_pos he)
  | _ => simp [finishes] at he

end Session

end asio_ftp.base_session
