-- What a session says. Its replies are a few fixed texts, and a few with a path, an address or a
-- number in them: what holds of each of these holds of all that a run sends.
import AsioFtp.Login
import AsioFtp.Transfers

namespace asio_ftp.vocabulary

open helpers fs_objects base_session base_session.Session login

/-! ## The texts -/

/-- The replies that are always the same, but for those of a transfer. -/
def TEXTS : List Bytes :=
  [lit "200 OK.", lit "200 Enabled UTF-8 encoding.", lit "215 UNIX Type: L8",
    lit "220 Welcome. Encryption required.", lit "220 Welcome. This connection is not secure",
    lit "221 Closing control connection.", lit "230 Logged in.", lit "234 Proceed.",
    lit "250 Changed working directory.", lit "250 Deleted.", lit "250 Directory created.",
    lit "250 Failed.", lit "250 Okay.", lit "331 Username okay, password needed.",
    lit "501 No arguments presented.", lit "502 Command not implemented.", lit "502 Not supported.",
    lit "503 Not AUTH.", lit "530 Invalid username.", lit "530 Not logged in.",
    lit "530 User not found.", lit "530 Wrong password.", lit "550 File unavailable.",
    lit "550 No such file or directory."]

/-- The replies when a transfer is taken up and when it ends. -/
def TRANSFER_TEXTS : List Bytes :=
  [lit "150 Opening connection.", lit "150 Waiting for connection", lit "226 Transferred.",
    lit "226 Received.", lit "226 Sent."]

def TRANSFER_COMMANDS : List Bytes := [lit "LIST", lit "STOR", lit "RETR"]

/-- The address and the port that PASV tells, which no event changes. -/
def place (s : Session) : Bytes × Nat := (s.local_address, s.acceptor_port)

/-- What PASV tells of a place. -/
def passive (p : Bytes × Nat) : Bytes :=
  lit "227 Entering Passive Mode (" ++ string_replace p.1 (lit ".") (lit ",") ++
    (lit "," ++ to_string (p.2 / 256 : Nat) ++ lit "," ++ to_string (p.2 % 256 : Nat) ++ lit ")")

/-- What PWD tells of a directory. -/
def quoted (directory : Bytes) : Bytes := lit "257 \"" ++ directory ++ lit "\""

/-- `P` holds of every fixed reply outside of transfers, of the features and of every size. -/
structure Speaks (P : Bytes → Prop) : Prop where
  text : ∀ m ∈ TEXTS, P m
  features : P features
  size : ∀ n : Int, P (lit "213 " ++ to_string n)

/-- From one state to another a session stays at its place, and `P` holds of all that it says. -/
structure Says (P : Bytes → Prop) (s t : Session) : Prop where
  place : place t = place s
  messages : ∃ messages : List Bytes, t.sent = s.sent ++ messages.map (· ++ crlf) ∧
    ∀ m ∈ messages, P m

section
variable {P : Bytes → Prop}

namespace Says

variable {s t u : Session}

theorem nothing (hp : vocabulary.place t = vocabulary.place s) (h : t.sent = s.sent) : Says P s t :=
  ⟨hp, [], by rw [h, List.map_nil, List.append_nil], by simp⟩

theorem trans (h : Says P s t) (h' : Says P t u) : Says P s u := by
  obtain ⟨ms, hs, hm⟩ := h.messages
  obtain ⟨ms', hs', hm'⟩ := h'.messages
  refine ⟨h'.place.trans h.place, ms ++ ms', by rw [hs', hs, List.map_append, List.append_assoc], ?_⟩
  intro m hmem
  rcases List.mem_append.mp hmem with hmem | hmem
  · exact hm m hmem
  · exact hm' m hmem

/-- The same, from a state that said as much. -/
theorem since (h : Says P s t) (hp : vocabulary.place s = vocabulary.place u) (hs : s.sent = u.sent) :
    Says P u t :=
  (Says.nothing hp hs).trans h

theorem message {m : Bytes} (hp : vocabulary.place t = vocabulary.place s)
    (h : t.sent = s.sent ++ [m ++ crlf]) (hm : P m) : Says P s t :=
  ⟨hp, [m], h, fun _ hx => List.mem_singleton.mp hx ▸ hm⟩

theorem reply {m : Bytes} (hp : vocabulary.place t = vocabulary.place s) (h : t.sent = s.sent)
    (hm : P m) : Says P s (t.reply m) :=
  .message hp (congrArg (· ++ [m ++ crlf]) h) hm

/-- A reply that is sent with no read after it. -/
theorem control_send {m : Bytes} (hp : vocabulary.place t = vocabulary.place s) (h : t.sent = s.sent)
    (hm : P m) : Says P s (t.control_send m) :=
  .message hp (congrArg (· ++ [m ++ crlf]) h) hm

end Says

section
variable (env : Env) (s : Session)

/-! ## The data channel -/

theorem place_data_close : place s.data_close = place s := by
  obtain ⟨o, n, h⟩ := s.data_close_eq
  rw [h]
  rfl

theorem place_data_async_send : place (s.data_async_send env) = place s := by
  unfold data_async_send
  cases s.m_send_file_stream <;> rfl

theorem place_data_receive_file : place (s.data_receive_file env) = place s := by
  unfold data_receive_file
  split
  · exact place_data_close _
  · rfl

theorem place_data_send_file : place (s.data_send_file env) = place s := by
  unfold data_send_file
  split
  · exact place_data_close _
  · exact place_data_async_send env _

theorem place_takeUpWork : place (s.takeUpWork env) = place s := by
  unfold takeUpWork
  split
  · rfl
  · split
    · exact place_data_receive_file env s
    · split
      · exact place_data_send_file env s
      · rfl

theorem says_handle_accept (ec : ErrorCode) : Says P s (s.handle_accept env ec) := by
  refine .nothing ?_ (congrArg Front.sent (front_handle_accept env s ec))
  unfold handle_accept
  split
  · rfl
  · cases s.session_class
    · exact place_takeUpWork env _
    · rfl

theorem says_handle_data_handshake (ec : ErrorCode) : Says P s (s.handle_data_handshake env ec) := by
  refine .nothing ?_ (congrArg Front.sent (front_handle_data_handshake env s ec))
  unfold handle_data_handshake
  split
  · rfl
  · exact place_takeUpWork env s

/-- A callback of a transfer ends with its 226, or says nothing. -/
theorem says_of_end {ends : Prop} [Decidable ends] {t : Session} {m : Bytes}
    (hp : place t = place s) (hf : t.front = if ends then s.front.say m else s.front)
    (hm : P m) : Says P s t := by
  by_cases hends : ends
  · rw [if_pos hends] at hf
    exact .message hp (congrArg Front.sent hf) hm
  · rw [if_neg hends] at hf
    exact .nothing hp (congrArg Front.sent hf)

end

section
variable (ht : ∀ m ∈ TRANSFER_TEXTS, P m) (env : Env) (s : Session)
include ht

theorem says_handle_data_send_callback (ec : ErrorCode) :
    Says P s (s.handle_data_send_callback ec) := by
  refine says_of_end s ?_ (front_handle_data_send_callback s ec) (ht _ (by decide))
  unfold handle_data_send_callback
  split
  · rfl
  · exact place_data_close _

theorem says_handle_data_async_receive_callback (ec : ErrorCode) (n : Nat) :
    Says P s (s.handle_data_async_receive_callback env ec n) := by
  refine says_of_end s ?_ (front_handle_data_async_receive_callback env s ec n) (ht _ (by decide))
  cases h : s.m_receive_file_stream with
  | none =>
    unfold handle_data_async_receive_callback
    simp only [h]
    rfl
  | some f =>
    rw [s.handle_data_async_receive_callback_eq env h]
    obtain ⟨_, _, _, _, habsorb⟩ := s.absorb_eq env f n
    split
    · unfold data_async_receive_end
      rw [s.absorb_stream env h n]
      refine (place_data_close _).trans ?_
      rw [habsorb]
      rfl
    · rw [habsorb]
      rfl

theorem says_handle_data_async_send_callback (ec : ErrorCode) :
    Says P s (s.handle_data_async_send_callback env ec) := by
  refine says_of_end s ?_ (front_handle_data_async_send_callback env s ec) (ht _ (by decide))
  cases h : s.m_send_file_stream with
  | none =>
    unfold handle_data_async_send_callback
    simp only [h]
    rfl
  | some f =>
    rw [s.handle_data_async_send_callback_eq env h]
    split
    · unfold data_async_send_end
      rw [h]
      exact place_data_close _
    · exact place_data_async_send env s

end

/-! ## The start-up -/

section
variable (hv : Speaks P) (s : Session)
include hv

theorem says_wait_for_implicit (lap available : Nat) : Says P s (s.wait_for_implicit lap available) := by
  unfold wait_for_implicit
  split
  · exact .message rfl rfl (hv.text (lit "220 Welcome. Encryption required.") (by decide))
  · split <;> exact .nothing rfl rfl

theorem says_handle_auth (command argument : Bytes) : Says P s (s.handle_auth command argument) := by
  unfold handle_auth
  split
  · exact .message rfl rfl (hv.text (lit "503 Not AUTH.") (by decide))
  · split
    · exact .message rfl rfl (hv.text (lit "502 Not supported.") (by decide))
    · exact .message rfl rfl (hv.text (lit "234 Proceed.") (by decide))

theorem says_handle_handshake (ec : ErrorCode) (is_implicit : Bool) :
    Says P s (s.handle_handshake ec is_implicit) := by
  unfold handle_handshake
  split
  · exact .nothing rfl rfl
  · cases is_implicit with
    | false => exact .nothing rfl rfl
    | true =>
      exact .message rfl rfl (hv.text (lit "220 Welcome. Encryption required.") (by decide))

end

/-! ## The commands -/

section
variable (hv : Speaks P) (env : Env) (s : Session) (a : Bytes)
include hv

theorem says_USER : Says P s (s.handle_USER a) := by
  unfold handle_USER
  split
  · exact .reply rfl rfl (hv.text _ (by decide))
  · simp only
    split
    · exact .reply rfl rfl (hv.text _ (by decide))
    · exact .reply rfl rfl (hv.text _ (by decide))

theorem says_PASS : Says P s (s.handle_PASS a) := by
  unfold handle_PASS
  split
  · exact .reply rfl rfl (hv.text _ (by decide))
  · split
    · exact .reply rfl rfl (hv.text _ (by decide))
    · exact .reply rfl rfl (hv.text _ (by decide))

theorem says_CWD : Says P s (s.handle_CWD a) := by
  unfold handle_CWD
  split
  · exact .reply rfl rfl (hv.text _ (by decide))
  split
  · exact .reply rfl rfl (hv.text _ (by decide))
  split
  · exact .reply rfl rfl (hv.text _ (by decide))
  split
  · exact .nothing rfl rfl
  · split
    · exact .reply rfl rfl (hv.text _ (by decide))
    · exact .reply rfl rfl (hv.text _ (by decide))

theorem says_MKD : Says P s (s.handle_MKD env a) := by
  have hmessage : ∀ (failed : Prop) [Decidable failed],
      P (if failed then lit "250 Failed." else lit "250 Directory created.") := by
    intro failed _
    split
    · exact hv.text _ (by decide)
    · exact hv.text _ (by decide)
  unfold handle_MKD
  split
  · exact .reply rfl rfl (hv.text _ (by decide))
  · exact .reply rfl rfl (hmessage _)

theorem says_removeObject (object : Bytes × Bytes) : Says P s (s.removeObject a object) := by
  unfold removeObject
  split
  · exact .reply rfl rfl (hv.text _ (by decide))
  · exact .reply rfl rfl (hv.text _ (by decide))

theorem says_SIZE : Says P s (s.handle_SIZE a) := by
  unfold handle_SIZE
  simp only
  split
  · exact .control_send rfl rfl (hv.text _ (by decide))
  · next hid =>
    obtain ⟨r, -, -, -, -, hobject⟩ := exists_of_get_object hid
    rw [hobject, Row.toObject, c_str_to_string]
    exact .control_send rfl rfl (hv.size r.size)

theorem says_OPTS : Says P s (s.handle_OPTS a) := by
  unfold handle_OPTS
  split
  · exact .reply rfl rfl (hv.text _ (by decide))
  · exact .nothing rfl rfl

end

section
variable (hv : Speaks P) (ht : ∀ m ∈ TRANSFER_TEXTS, P m) (env : Env) (s : Session) (a : Bytes)
include ht

theorem says_LIST : Says P s (s.run_LIST a) := by
  unfold run_LIST
  split
  · exact .nothing rfl rfl
  · unfold run_pending_LIST
    split
    · exact .message rfl rfl (ht (lit "150 Opening connection.") (by decide))
    · exact .message rfl rfl (ht (lit "150 Opening connection.") (by decide))

theorem says_pending_STOR : Says P s (s.run_pending_STOR env) := by
  unfold run_pending_STOR
  split
  · exact .nothing rfl rfl
  split
  · have hopen := ht (lit "150 Opening connection.") (by decide)
    refine .message ?_ ?_ hopen
    · exact place_data_receive_file env (s.control_send (lit "150 Opening connection."))
    · exact congrArg Front.sent (front_data_receive_file env
        (s.control_send (lit "150 Opening connection.")))
  · exact .message rfl rfl (ht (lit "150 Waiting for connection") (by decide))

include hv

theorem says_STOR : Says P s (s.run_STOR env a) := by
  unfold run_STOR
  split
  · exact .reply rfl rfl (hv.text _ (by decide))
  split
  · exact .nothing rfl rfl
  · have hset : Says P s (s.set_pending_write a) := .nothing rfl rfl
    exact hset.trans (says_pending_STOR ht env _)

theorem says_RETR : Says P s ((s.parse_RETR_argument a).run_RETR env) := by
  have hparse : Says P s (s.parse_RETR_argument a) := by
    unfold parse_RETR_argument
    split
    · exact .reply rfl rfl (hv.text _ (by decide))
    split
    · exact .nothing rfl rfl
    · simp only
      split
      · exact .control_send rfl rfl (hv.text _ (by decide))
      · exact .nothing rfl rfl
  refine hparse.trans ?_
  generalize s.parse_RETR_argument a = t
  unfold run_RETR
  split
  · have hopen := ht (lit "150 Opening connection.") (by decide)
    refine .message ?_ ?_ hopen
    · exact place_data_send_file env (t.control_send (lit "150 Opening connection."))
    · exact congrArg Front.sent (front_data_send_file env
        (t.control_send (lit "150 Opening connection.")))
  · exact .message rfl rfl (ht (lit "150 Waiting for connection") (by decide))

/-- The transfer commands say a text of a transfer, if they do not refuse. -/
theorem says_transfer {c : Bytes} (hc : c ∈ TRANSFER_COMMANDS) (hl : s.m_connection_stage = .LOGGED_IN) :
    Says P s (s.handle_command env c a) := by
  obtain ⟨h1, h2, h3⟩ := s.handle_command_of_transfer env a hl
  simp only [TRANSFER_COMMANDS, List.mem_cons, List.not_mem_nil, or_false] at hc
  rcases hc with rfl | rfl | rfl
  · rw [h1]
    exact says_LIST ht s a
  · rw [h2]
    exact says_STOR hv ht env s a
  · rw [h3]
    exact says_RETR hv ht env s a

end

section
variable (hv : Speaks P) (env : Env) (s : Session) (a : Bytes)
include hv

/-- The commands after the login gate, but for the transfers. -/
theorem says_logged_in {c : Bytes} (hc : c ∉ TRANSFER_COMMANDS) (hpasv : P (passive (place s)))
    (hpwd : c = lit "PWD" → P (quoted s.m_working_directory)) :
    Says P s (s.handle_logged_in env c a) := by
  simp only [TRANSFER_COMMANDS, List.mem_cons, List.not_mem_nil, or_false, not_or] at hc
  obtain ⟨h4, h14, h15⟩ := hc
  unfold handle_logged_in
  by_cases h1 : c = lit "PWD"
  · rw [if_pos h1]
    exact .reply rfl rfl (hpwd h1)
  rw [if_neg h1]
  by_cases h2 : c = lit "TYPE"
  · rw [if_pos h2]
    exact .reply rfl rfl (hv.text _ (by decide))
  rw [if_neg h2]
  by_cases h3 : c = lit "PASV"
  · rw [if_pos h3]
    exact .reply (m := passive (place s)) rfl rfl hpasv
  rw [if_neg h3]
  rw [if_neg h4]
  by_cases h5 : c = lit "FEAT"
  · rw [if_pos h5]
    exact .reply rfl rfl hv.features
  rw [if_neg h5]
  by_cases h6 : c = lit "PBSZ"
  · rw [if_pos h6]
    exact .reply rfl rfl (hv.text _ (by decide))
  rw [if_neg h6]
  by_cases h7 : c = lit "PROT"
  · rw [if_pos h7]
    exact .reply rfl rfl (hv.text _ (by decide))
  rw [if_neg h7]
  by_cases h8 : c = lit "OPTS"
  · rw [if_pos h8]
    exact says_OPTS hv s a
  rw [if_neg h8]
  by_cases h9 : c = lit "CDUP"
  · rw [if_pos h9]
    exact .reply rfl rfl (hv.text _ (by decide))
  rw [if_neg h9]
  by_cases h10 : c = lit "CWD"
  · rw [if_pos h10]
    exact says_CWD hv s a
  rw [if_neg h10]
  by_cases h11 : c = lit "MKD"
  · rw [if_pos h11]
    exact says_MKD hv env s a
  rw [if_neg h11]
  by_cases h12 : c = lit "RMD"
  · rw [if_pos h12]
    exact says_removeObject hv s a _
  rw [if_neg h12]
  by_cases h13 : c = lit "DELE"
  · rw [if_pos h13]
    exact says_removeObject hv s a _
  rw [if_neg h13]
  rw [if_neg h14, if_neg h15]
  by_cases h16 : c = lit "SIZE"
  · rw [if_pos h16]
    exact says_SIZE hv s a
  rw [if_neg h16]
  exact .nothing rfl rfl

theorem says_handle_command {c : Bytes} (hpasv : P (passive (place s)))
    (hpwd : c = lit "PWD" → s.m_connection_stage = .LOGGED_IN → P (quoted s.m_working_directory))
    (ht : c ∈ TRANSFER_COMMANDS → s.m_connection_stage = .LOGGED_IN → ∀ m ∈ TRANSFER_TEXTS, P m) :
    Says P s (s.handle_command env c a) := by
  by_cases htransfer : c ∈ TRANSFER_COMMANDS ∧ s.m_connection_stage = .LOGGED_IN
  · exact says_transfer hv (ht htransfer.1 htransfer.2) env s a htransfer.1 htransfer.2
  unfold handle_command
  split
  · exact .nothing rfl rfl
  split
  · exact .reply rfl rfl (hv.text _ (by decide))
  split
  · exact says_USER hv s a
  split
  · exact says_PASS hv s a
  split
  · exact .reply rfl rfl (hv.text _ (by decide))
  split
  · exact .message rfl rfl (hv.text (lit "221 Closing control connection.") (by decide))
  split
  · exact .reply rfl rfl (hv.text _ (by decide))
  · next hl =>
    have hl := not_not.mp hl
    exact says_logged_in hv env s a (fun hc => htransfer ⟨hc, hl⟩) hpasv fun hc => hpwd hc hl

end

/-- What holds of each text that an event can bring holds of what the session says at it. -/
theorem says_of_event (hv : Speaks P) (ht : ∀ m ∈ TRANSFER_TEXTS, P m) {env : Env} {s s' : Session}
    {e : Event} (h : Stepped env s e s') (hpasv : P (passive (place s)))
    (hpwd : ∀ c ∈ commandOf e, c.1 = lit "PWD" → s.m_connection_stage = .LOGGED_IN →
      P (quoted s.m_working_directory)) : Says P s s' := by
  cases h with
  | control_received ec received =>
    refine (says_handle_command hv env { s with control_reads := s.control_reads - 1 } _ hpasv
      (fun hp => ?_) fun _ _ => ht).since rfl rfl
    have hne : (handle_control_receive_callback ec received).1 ≠ [] := by
      rw [hp]
      decide
    exact hpwd _ (by simp [commandOf, hne]) hp
  | accepted ec =>
    exact (says_handle_accept env { s with accepts := s.accepts - 1 } ec).since rfl rfl
  | data_handshaken ec =>
    exact (says_handle_data_handshake env
      { s with data_handshakes := s.data_handshakes - 1 } ec).since rfl rfl
  | data_sent c ec =>
    exact (says_handle_data_send_callback ht
      { s with data_ops := s.data_ops.erase ⟨.data_send, c⟩ } ec).since rfl rfl
  | data_received c ec received =>
    exact (says_handle_data_async_receive_callback ht env
      { s with
        data_ops := s.data_ops.erase ⟨.data_async_receive, c⟩
        m_receive_buffer := s.m_receive_buffer ++ received } ec received.length).since rfl rfl
  | data_async_sent c ec =>
    exact (says_handle_data_async_send_callback ht env
      { s with data_ops := s.data_ops.erase ⟨.data_async_send, c⟩ } ec).since rfl rfl
  | timer lap available =>
    exact (says_wait_for_implicit hv { s with timer_waits := s.timer_waits - 1 } lap
      available).since rfl rfl
  | probe_received ec received =>
    exact (says_handle_auth hv { s with probe_reads := s.probe_reads - 1 } _ _).since rfl rfl
  | handshaken ec i =>
    exact (says_handle_handshake hv
      { s with control_handshakes := s.control_handshakes.erase i } ec i).since rfl rfl
  | _ => exact .nothing rfl rfl

end

end asio_ftp.vocabulary
