-- What the handlers of a session do: the cases of a command, the parts of a session that
-- each handler leaves as they are, and the replies and reads that a command starts.
import AsioFtp.Events
import AsioFtp.Histories

namespace asio_ftp.base_session

open helpers fs_objects histories

/-! ## The cases of a command -/

/-- The commands of the login, which need none. -/
def LOGIN_COMMANDS : List Bytes := [lit "USER", lit "PASS", lit "SYST", lit "QUIT"]

/-- The commands that a logged-in session answers from what it has. -/
def PLAIN_COMMANDS : List Bytes :=
  [lit "PWD", lit "TYPE", lit "PASV", lit "FEAT", lit "PBSZ", lit "PROT"]

namespace Session

/-- The directories that CDUP and CWD can go to. -/
inductive Goes (s : Session) (argument : Bytes) : Bytes → Prop
  | stays : Goes s argument s.m_working_directory
  | up : Goes s argument (get_parent_path s.m_working_directory)
  | root : Goes s argument (lit "/")
  | walked (first rest object_path back)
      (h : s.cwdWalk (s.cwdStart argument).1 first (first :: rest) = some (object_path, back)) :
      Goes s argument
        ((if object_path ≠ lit "/" then object_path ++ lit "/" else object_path) ++ back)

/-- The call that MKD, RMD or DELE makes. -/
def objectCall (env : Env) (s : Session) (command argument : Bytes) : Option Op :=
  if argument = [] then none
  else if command = lit "MKD" then
    let (object_path, object_name) := s.object_of_MKD argument
    some (.create_object env.uuid env.now s.m_userid object_name object_path 0 true)
  else
    let (object_path, object_name) :=
      if command = lit "RMD" then s.object_of_RMD argument else s.object_of_MKD argument
    some (.remove_fs_object s.m_userid object_name object_path)

/-- What a session does with a command, one case for each way. -/
inductive Handled (env : Env) (s : Session) : Bytes → Bytes → Session → Prop
  | empty (a) : Handled env s [] a s
  | unknown (c a) (hne : c ≠ []) (h : c ∉ FTP_COMMANDS) :
      Handled env s c a (s.reply (lit "502 Command not implemented."))
  | user_refused (a) (h : a = [] ∨ users.get_id_by_name s.m_users_table a = []) :
      Handled env s (lit "USER") a (s.reply (lit "530 Invalid username."))
  | user_accepted (a) (h : users.get_id_by_name s.m_users_table a ≠ []) :
      Handled env s (lit "USER") a
        ({ s with m_userid := users.get_id_by_name s.m_users_table a, m_username := a }.reply
          (lit "331 Username okay, password needed."))
  | pass_refused (a m)
      (h : s.m_userid = [] ∨ users.check_password s.m_users_table s.m_userid a = false) :
      Handled env s (lit "PASS") a (s.reply m)
  | pass_accepted (a) (hne : s.m_userid ≠ [])
      (h : users.check_password s.m_users_table s.m_userid a = true) :
      Handled env s (lit "PASS") a
        ({ s with m_connection_stage := .LOGGED_IN }.reply (lit "230 Logged in."))
  | system (a) : Handled env s (lit "SYST") a (s.reply (lit "215 UNIX Type: L8"))
  | quit (a) : Handled env s (lit "QUIT") a
      (s.control_send (lit "221 Closing control connection.")).control_close
  | not_logged_in (c a) (hne : c ≠ []) (hc : c ∉ LOGIN_COMMANDS)
      (h : s.m_connection_stage ≠ .LOGGED_IN) :
      Handled env s c a (s.reply (lit "530 Not logged in."))
  | plain (c a m) (h : s.m_connection_stage = .LOGGED_IN) (hc : c ∈ PLAIN_COMMANDS) :
      Handled env s c a (s.reply m)
  | options (a) (h : s.m_connection_stage = .LOGGED_IN) :
      Handled env s (lit "OPTS") a (s.handle_OPTS a)
  | moved (c a w m) (h : s.m_connection_stage = .LOGGED_IN) (hc : c ∈ [lit "CDUP", lit "CWD"])
      (hw : s.Goes a w) : Handled env s c a ({ s with m_working_directory := w }.reply m)
  | stored (c a m) (h : s.m_connection_stage = .LOGGED_IN)
      (hc : c ∈ [lit "MKD", lit "RMD", lit "DELE"]) :
      Handled env s c a
        ({ s with
          m_fs_objects_table := applied s.m_fs_objects_table (s.objectCall env c a) }.reply m)
  | list (a) (h : s.m_connection_stage = .LOGGED_IN) :
      Handled env s (lit "LIST") a (s.run_LIST a)
  | stor (a) (h : s.m_connection_stage = .LOGGED_IN) :
      Handled env s (lit "STOR") a (s.run_STOR env a)
  | retr (a) (h : s.m_connection_stage = .LOGGED_IN) :
      Handled env s (lit "RETR") a ((s.parse_RETR_argument a).run_RETR env)
  | size (a) (h : s.m_connection_stage = .LOGGED_IN) :
      Handled env s (lit "SIZE") a (s.handle_SIZE a)

theorem handled_USER (env : Env) (s : Session) (a : Bytes) :
    Handled env s (lit "USER") a (s.handle_USER a) := by
  unfold handle_USER
  split
  · next h => exact .user_refused a (Or.inl h)
  · simp only
    split
    · next h => exact .user_refused a (Or.inr h)
    · next h => exact .user_accepted a h

theorem handled_PASS (env : Env) (s : Session) (a : Bytes) :
    Handled env s (lit "PASS") a (s.handle_PASS a) := by
  unfold handle_PASS
  split
  · next h => exact .pass_refused a _ (Or.inl h)
  · next hne =>
    split
    · next h => exact .pass_accepted a hne h
    · next h => exact .pass_refused a _ (Or.inr (by simpa using h))

/-- An argument of CWD other than "/" has a part to look up. -/
theorem cwdStart_ne_nil (s : Session) {a : Bytes} (hne : a ≠ []) (hr : a ≠ lit "/") :
    (s.cwdStart a).2 ≠ [] := by
  have hd : lit "/" = [slash] := rfl
  unfold cwdStart
  rw [hd, string_split_byte, if_neg hne]
  split
  · next h0 =>
    obtain ⟨rest, rfl⟩ : ∃ rest, a = slash :: rest := by
      cases a with
      | nil => exact absurd rfl hne
      | cons c rest =>
        simp only [List.getElem?_cons_zero, Option.some.injEq] at h0
        exact ⟨rest, by rw [h0]⟩
    have hs := List.splitOn_append_cons_self_of_not_mem (List.not_mem_nil (a := slash)) rest
    rw [List.nil_append] at hs
    rw [hs]
    exact List.splitOn_ne_nil _ _
  · simp

theorem handled_CWD (env : Env) (s : Session) (a : Bytes) (h : s.m_connection_stage = .LOGGED_IN) :
    Handled env s (lit "CWD") a (s.handle_CWD a) := by
  have hc : lit "CWD" ∈ [lit "CDUP", lit "CWD"] := by simp
  have same : ∀ m, Handled env s (lit "CWD") a (s.reply m) :=
    fun m => .moved _ a s.m_working_directory m h hc .stays
  unfold handle_CWD
  split
  · exact same _
  next hne =>
  split
  · exact .moved _ a _ _ h hc .up
  split
  · exact .moved _ a _ _ h hc .root
  next hr =>
  split
  · next hnil => exact absurd hnil (s.cwdStart_ne_nil hne hr)
  · split
    · exact same _
    · next hw => exact .moved _ a _ _ h hc (.walked _ _ _ _ hw)

theorem handled_removal (env : Env) (s : Session) (c a : Bytes)
    (h : s.m_connection_stage = .LOGGED_IN) (hc : c ∈ [lit "RMD", lit "DELE"]) :
    Handled env s c a (s.removeObject a
      (if c = lit "RMD" then s.object_of_RMD a else s.object_of_MKD a)) := by
  have hin : c ∈ [lit "MKD", lit "RMD", lit "DELE"] := List.mem_cons_of_mem _ hc
  have hne : c ≠ lit "MKD" := by
    have hall : ∀ d ∈ [lit "RMD", lit "DELE"], d ≠ lit "MKD" := by decide
    exact hall c hc
  have ht : ∀ m, Handled env s c a ({ s with
      m_fs_objects_table := applied s.m_fs_objects_table (s.objectCall env c a) }.reply m) :=
    fun m => .stored _ a m h hin
  unfold objectCall at ht
  unfold removeObject
  split
  · next ha =>
    rw [if_pos ha] at ht
    exact ht _
  · next ha =>
    rw [if_neg ha, if_neg hne] at ht
    exact ht _

theorem handled_MKD (env : Env) (s : Session) (a : Bytes) (h : s.m_connection_stage = .LOGGED_IN) :
    Handled env s (lit "MKD") a (s.handle_MKD env a) := by
  have ht : ∀ m, Handled env s (lit "MKD") a ({ s with
      m_fs_objects_table := applied s.m_fs_objects_table (s.objectCall env (lit "MKD") a) }.reply m) :=
    fun m => .stored _ a m h (by simp)
  unfold objectCall at ht
  unfold handle_MKD
  split
  · next ha =>
    rw [if_pos ha] at ht
    exact ht _
  · next ha =>
    rw [if_neg ha, if_pos rfl] at ht
    exact ht _

theorem handled_logged_in (env : Env) (s : Session) (c a : Bytes)
    (hs : s.m_connection_stage = .LOGGED_IN) (hin : c ∈ FTP_COMMANDS) (hout : c ∉ LOGIN_COMMANDS) :
    Handled env s c a (s.handle_logged_in env c a) := by
  have plain : ∀ m, c ∈ PLAIN_COMMANDS → Handled env s c a (s.reply m) :=
    fun m hc => .plain c a m hs hc
  unfold handle_logged_in
  by_cases h1 : c = lit "PWD"
  · rw [if_pos h1]
    exact plain _ (by simp [PLAIN_COMMANDS, h1])
  rw [if_neg h1]
  by_cases h2 : c = lit "TYPE"
  · rw [if_pos h2]
    exact plain _ (by simp [PLAIN_COMMANDS, h2])
  rw [if_neg h2]
  by_cases h3 : c = lit "PASV"
  · rw [if_pos h3]
    exact plain _ (by simp [PLAIN_COMMANDS, h3])
  rw [if_neg h3]
  by_cases h4 : c = lit "LIST"
  · rw [if_pos h4]
    exact h4 ▸ .list a hs
  rw [if_neg h4]
  by_cases h5 : c = lit "FEAT"
  · rw [if_pos h5]
    exact plain _ (by simp [PLAIN_COMMANDS, h5])
  rw [if_neg h5]
  by_cases h6 : c = lit "PBSZ"
  · rw [if_pos h6]
    exact plain _ (by simp [PLAIN_COMMANDS, h6])
  rw [if_neg h6]
  by_cases h7 : c = lit "PROT"
  · rw [if_pos h7]
    exact plain _ (by simp [PLAIN_COMMANDS, h7])
  rw [if_neg h7]
  by_cases h8 : c = lit "OPTS"
  · rw [if_pos h8]
    exact h8 ▸ .options a hs
  rw [if_neg h8]
  by_cases h9 : c = lit "CDUP"
  · rw [if_pos h9]
    exact h9 ▸ .moved _ a _ _ hs (by simp) .up
  rw [if_neg h9]
  by_cases h10 : c = lit "CWD"
  · rw [if_pos h10]
    exact h10 ▸ handled_CWD env s a hs
  rw [if_neg h10]
  by_cases h11 : c = lit "MKD"
  · rw [if_pos h11]
    exact h11 ▸ handled_MKD env s a hs
  rw [if_neg h11]
  by_cases h12 : c = lit "RMD"
  · rw [if_pos h12]
    exact h12 ▸ handled_removal env s (lit "RMD") a hs (by simp)
  rw [if_neg h12]
  by_cases h13 : c = lit "DELE"
  · rw [if_pos h13]
    exact h13 ▸ handled_removal env s (lit "DELE") a hs (by simp)
  rw [if_neg h13]
  by_cases h14 : c = lit "STOR"
  · rw [if_pos h14]
    exact h14 ▸ .stor a hs
  rw [if_neg h14]
  by_cases h15 : c = lit "RETR"
  · rw [if_pos h15]
    exact h15 ▸ .retr a hs
  rw [if_neg h15]
  have h16 : c = lit "SIZE" := by
    simp only [LOGIN_COMMANDS, List.mem_cons, List.not_mem_nil, or_false, not_or] at hout
    obtain ⟨u1, u2, u3, u4⟩ := hout
    simpa only [FTP_COMMANDS, List.mem_cons, List.not_mem_nil, or_false, false_or, u1, u2, u3, u4,
      h1, h2, h3, h4, h5, h6, h7, h8, h9, h10, h11, h12, h13, h14, h15] using hin
  rw [if_pos h16]
  exact h16 ▸ .size a hs

/-- The session handles every command in one of these ways. -/
theorem handle_command_handled (env : Env) (s : Session) (c a : Bytes) :
    Handled env s c a (s.handle_command env c a) := by
  unfold handle_command
  split
  · next h => exact h ▸ .empty a
  next hne =>
  split
  · next h => exact .unknown c a hne h
  next hin =>
  split
  · next h => exact h ▸ handled_USER env s a
  next h1 =>
  split
  · next h => exact h ▸ handled_PASS env s a
  next h2 =>
  split
  · next h => exact h ▸ .system a
  next h3 =>
  split
  · next h => exact h ▸ .quit a
  next h4 =>
  have hout : c ∉ LOGIN_COMMANDS := by simp [LOGIN_COMMANDS, h1, h2, h3, h4]
  split
  · next h => exact .not_logged_in c a hne hout h
  · next h => exact handled_logged_in env s c a (not_not.mp h) (not_not.mp hin) hout

/-! ## The front of a session -/

/-- What the data connection leaves as it is, up to a reply at the end of a transfer: what is
outstanding on the control connection and was sent on it, and who is logged in and where. -/
structure Front where
  sent : List Bytes
  reads : Nat
  writes : Nat
  timer_waits : Nat
  probe_reads : Nat
  probe_writes : Nat
  handshakes : List Bool
  stage : CONNECTION_STAGE
  users : users.Table
  userid : Bytes
  working_directory : Bytes

def front (s : Session) : Front where
  sent := s.sent
  reads := s.control_reads
  writes := s.control_writes
  timer_waits := s.timer_waits
  probe_reads := s.probe_reads
  probe_writes := s.probe_writes
  handshakes := s.control_handshakes
  stage := s.m_connection_stage
  users := s.m_users_table
  userid := s.m_userid
  working_directory := s.m_working_directory

/-- The same, after the write of one more reply started. -/
def Front.say (c : Front) (message : Bytes) : Front :=
  { c with sent := c.sent ++ [message ++ crlf], writes := c.writes + 1 }

/-- The same, after a read started. -/
def Front.listen (c : Front) : Front := { c with reads := c.reads + 1 }

/-- This callback of an upload is its last one. -/
def receiveEnds (env : Env) (s : Session) (ec : ErrorCode) (bytes_read : Nat) : Bool :=
  match s.m_receive_file_stream with
  | none => false
  | some f =>
    decide (ec ≠ .success) ||
      (if bytes_read > 0 then (f.insert env s.m_receive_buffer).1 else f).failbit

/-- This callback of a download is its last one. -/
def sendEnds (s : Session) (ec : ErrorCode) : Bool :=
  match s.m_send_file_stream with
  | none => false
  | some f => f.eofbit || decide (ec ≠ .success)

section
variable (env : Env) (s : Session)

/-- `data_close` changes the data socket only. -/
theorem data_close_eq : ∃ is_open shutdowns, s.data_close =
    { s with data_socket_open := is_open, data_shutdowns := shutdowns } := by
  unfold data_close
  split
  · exact ⟨s.data_socket_open, s.data_shutdowns, rfl⟩
  · cases s.session_class
    · exact ⟨false, s.data_shutdowns, rfl⟩
    · exact ⟨s.data_socket_open, s.data_shutdowns + 1, rfl⟩

@[simp] theorem front_data_close : s.data_close.front = s.front := by
  obtain ⟨o, n, h⟩ := s.data_close_eq
  rw [h]
  rfl

@[simp] theorem front_data_async_send : (s.data_async_send env).front = s.front := by
  unfold data_async_send
  cases s.m_send_file_stream <;> rfl

@[simp] theorem front_data_directory_listing : s.data_directory_listing.front = s.front := rfl

@[simp] theorem front_data_receive_file : (s.data_receive_file env).front = s.front := by
  unfold data_receive_file
  split
  · rw [front_data_close]
    rfl
  · rfl

@[simp] theorem front_data_send_file : (s.data_send_file env).front = s.front := by
  unfold data_send_file
  split
  · rw [front_data_close]
    rfl
  · rw [front_data_async_send]
    rfl

@[simp] theorem front_takeUpWork : (s.takeUpWork env).front = s.front := by
  unfold takeUpWork
  split
  · exact s.front_data_directory_listing
  · split
    · exact s.front_data_receive_file env
    · split
      · exact s.front_data_send_file env
      · rfl

/-- An accept opens the data socket. A plain session picks up the pending work then, and a TLS
session starts the handshake of the connection. -/
theorem handle_accept_success : s.handle_accept env .success =
    if s.session_class = .session then
      { s with
        data_socket_open := true
        data_connection := s.data_connection + 1 }.takeUpWork env
    else
      { s with
        data_socket_open := true
        data_connection := s.data_connection + 1
        data_handshakes := s.data_handshakes + 1 } := by
  unfold handle_accept
  rw [if_neg (not_not.mpr rfl)]
  simp only
  split
  · next hc => rw [if_pos hc]
  · next hc => rw [if_neg (by simp [hc])]

theorem front_handle_accept (ec : ErrorCode) : (s.handle_accept env ec).front = s.front := by
  by_cases hec : ec = .success
  · rw [hec, handle_accept_success]
    split
    · exact front_takeUpWork env _
    · rfl
  · rw [handle_accept, if_pos hec]

theorem front_handle_data_handshake (ec : ErrorCode) :
    (s.handle_data_handshake env ec).front = s.front := by
  unfold handle_data_handshake
  split
  · rfl
  · exact s.front_takeUpWork env

theorem front_handle_data_send_callback (ec : ErrorCode) :
    (s.handle_data_send_callback ec).front =
      if ec = .success then s.front.say (lit "226 Transferred.") else s.front := by
  unfold handle_data_send_callback
  by_cases h : ec = .success
  · rw [if_neg (not_not.mpr h), if_pos h, front_data_close]
    rfl
  · rw [if_pos h, if_neg h]

theorem front_data_async_receive_end {f : OFStream} (h : s.m_receive_file_stream = some f) :
    (s.data_async_receive_end env).front = s.front.say (lit "226 Received.") := by
  unfold data_async_receive_end
  rw [h]
  simp only
  rw [front_data_close]
  rfl

theorem absorb_stream {f : OFStream} (h : s.m_receive_file_stream = some f) (n : Nat) :
    (s.absorb env f n).m_receive_file_stream =
      some (if n > 0 then (f.insert env s.m_receive_buffer).1 else f) := by
  unfold absorb
  split
  · rfl
  · exact h

/-- Bytes that came change the counter, the stream, the store and the buffer of the upload only. -/
theorem absorb_eq (f : OFStream) (n : Nat) : ∃ size stream store buffer, s.absorb env f n =
    { s with
      m_received_file_size := size
      m_receive_file_stream := stream
      m_fs_objects_table := store
      m_receive_buffer := buffer } := by
  unfold absorb
  split
  · exact ⟨_, _, _, _, rfl⟩
  · exact ⟨_, _, _, _, rfl⟩

theorem front_absorb (f : OFStream) (n : Nat) : (s.absorb env f n).front = s.front := by
  obtain ⟨_, _, _, _, h⟩ := s.absorb_eq env f n
  rw [h]
  rfl

/-- A callback of an upload writes what came, and then ends the upload or reads on. -/
theorem handle_data_async_receive_callback_eq {f : OFStream} (h : s.m_receive_file_stream = some f)
    (ec : ErrorCode) (n : Nat) :
    s.handle_data_async_receive_callback env ec n =
      if s.receiveEnds env ec n = true then (s.absorb env f n).data_async_receive_end env
      else (s.absorb env f n).data_async_receive := by
  unfold handle_data_async_receive_callback receiveEnds
  simp only [h, s.absorb_stream env h n, Option.map_some, Option.getD_some, Bool.or_eq_true,
    decide_eq_true_eq]
  by_cases hs : ec = .success
  · subst hs
    simp
  · simp [hs]

theorem front_handle_data_async_receive_callback (ec : ErrorCode) (n : Nat) :
    (s.handle_data_async_receive_callback env ec n).front =
      if s.receiveEnds env ec n = true then s.front.say (lit "226 Received.") else s.front := by
  cases h : s.m_receive_file_stream with
  | none =>
    unfold handle_data_async_receive_callback receiveEnds
    simp only [h]
    rfl
  | some f =>
    rw [s.handle_data_async_receive_callback_eq env h]
    split
    · rw [front_data_async_receive_end env _ (s.absorb_stream env h n), front_absorb]
    · exact s.front_absorb env f n

/-- A callback of a download ends it or sends on. -/
theorem handle_data_async_send_callback_eq {f : IFStream} (h : s.m_send_file_stream = some f)
    (ec : ErrorCode) :
    s.handle_data_async_send_callback env ec =
      if s.sendEnds ec = true then s.data_async_send_end else s.data_async_send env := by
  unfold handle_data_async_send_callback sendEnds
  simp only [h, Bool.or_eq_true, decide_eq_true_eq]
  by_cases hs : ec = .success
  · subst hs
    simp
  · simp [hs]

theorem front_data_async_send_end {f : IFStream} (h : s.m_send_file_stream = some f) :
    s.data_async_send_end.front = s.front.say (lit "226 Sent.") := by
  unfold data_async_send_end
  rw [h]
  simp only
  rw [front_data_close]
  rfl

theorem front_handle_data_async_send_callback (ec : ErrorCode) :
    (s.handle_data_async_send_callback env ec).front =
      if s.sendEnds ec = true then s.front.say (lit "226 Sent.") else s.front := by
  cases h : s.m_send_file_stream with
  | none =>
    unfold handle_data_async_send_callback sendEnds
    simp only [h]
    rfl
  | some f =>
    rw [s.handle_data_async_send_callback_eq env h]
    split
    · exact s.front_data_async_send_end h
    · exact s.front_data_async_send env

end

/-- The events of the control connection. -/
def onControl : Event → Bool
  | .control_sent .. => true
  | .control_received .. => true
  | .timer .. => true
  | .probe_sent .. => true
  | .probe_received .. => true
  | .handshaken .. => true
  | _ => false

/-- Any other event leaves the front as it is, up to a reply. -/
theorem Stepped.front {env : Env} {s s' : Session} {e : Event} (h : Stepped env s e s')
    (he : onControl e = false) : s'.front = s.front ∨ ∃ m, s'.front = s.front.say m := by
  have split_ends : ∀ {ends : Prop} [Decidable ends] {f : Front} {m : Bytes},
      f = (if ends then s.front.say m else s.front) → f = s.front ∨ ∃ m, f = s.front.say m := by
    intro ends _ f m hf
    by_cases he : ends
    · rw [if_pos he] at hf
      exact Or.inr ⟨m, hf⟩
    · rw [if_neg he] at hf
      exact Or.inl hf
  cases h with
  | accepted ec =>
    exact Or.inl (front_handle_accept env { s with accepts := s.accepts - 1 } ec)
  | data_handshaken ec =>
    exact Or.inl (front_handle_data_handshake env
      { s with data_handshakes := s.data_handshakes - 1 } ec)
  | data_sent c ec =>
    exact split_ends (front_handle_data_send_callback
      { s with data_ops := s.data_ops.erase ⟨.data_send, c⟩ } ec)
  | data_received c ec received =>
    exact split_ends (front_handle_data_async_receive_callback env
      { s with
        data_ops := s.data_ops.erase ⟨.data_async_receive, c⟩
        m_receive_buffer := s.m_receive_buffer ++ received } ec received.length)
  | data_async_sent c ec =>
    exact split_ends (front_handle_data_async_send_callback env
      { s with data_ops := s.data_ops.erase ⟨.data_async_send, c⟩ } ec)
  | data_shutdown => exact Or.inl rfl
  | elsewhere => exact Or.inl rfl
  | _ => simp [onControl] at he

/-- The events that only start a session. -/
def startsUp : Event → Bool
  | .timer .. => true
  | .probe_received .. => true
  | .handshaken .. => true
  | _ => false

/-- The start-up of a TLS session changes its replies, what is outstanding on its control
connection, and whether that has TLS. It logs nobody in. -/
theorem Stepped.startup {env : Env} {s s' : Session} {e : Event} (h : Stepped env s e s')
    (he : startsUp e = true) :
    s' = { s with
      sent := s'.sent
      control_reads := s'.control_reads
      control_writes := s'.control_writes
      timer_waits := s'.timer_waits
      probe_reads := s'.probe_reads
      probe_writes := s'.probe_writes
      control_handshakes := s'.control_handshakes
      m_connection_stage := s'.m_connection_stage
      tls := s'.tls } ∧
      (s'.m_connection_stage = .LOGGED_IN → s.m_connection_stage = .LOGGED_IN) := by
  cases h with
  | timer lap available =>
    unfold wait_for_implicit
    split
    · exact ⟨rfl, id⟩
    · split <;> exact ⟨rfl, id⟩
  | probe_received ec received =>
    unfold handle_auth
    split
    · exact ⟨rfl, id⟩
    · split <;> exact ⟨rfl, id⟩
  | handshaken ec i =>
    unfold handle_handshake
    split
    · exact ⟨rfl, id⟩
    · cases i <;> exact ⟨rfl, fun h => nomatch h⟩
  | _ => simp [startsUp] at he

/-! ## The replies and the reads of a command -/

/-- Exits of a command that neither answer nor read on: a listing or an upload is pending, or
the directory of the upload is missing. -/
def LeavesAlone (s : Session) (command argument : Bytes) : Prop :=
  command = [] ∨ s.m_connection_stage = .LOGGED_IN ∧
    (command = lit "LIST" ∧ s.m_pending_directory_list ≠ [] ∨
      command = lit "STOR" ∧ argument ≠ [] ∧
        (s.m_pending_write_file ≠ [] ∨ s.ParentMissing (s.write_file_of_STOR argument)))

/-- The command gets no reply. -/
def Unanswered (s : Session) (command argument : Bytes) : Prop :=
  s.LeavesAlone command argument ∨ s.m_connection_stage = .LOGGED_IN ∧
    command = lit "OPTS" ∧ argument ≠ lit "UTF8 ON"

/-- The session does not read on after the command. -/
def Unread (s : Session) (command argument : Bytes) : Prop :=
  s.LeavesAlone command argument ∨ command = lit "QUIT" ∨
    s.m_connection_stage = .LOGGED_IN ∧ command = lit "SIZE"

/-- The object that RETR asks for is not in the table. -/
def ObjectMissing (s : Session) (argument : Bytes) : Prop :=
  (get_object s.m_fs_objects_table.table s.m_userid (s.object_of_RETR argument).2
    (s.object_of_RETR argument).1).id = []

/-- RETR with no argument answers and reads twice. -/
def ReadTwice (s : Session) (command argument : Bytes) : Prop :=
  s.m_connection_stage = .LOGGED_IN ∧ command = lit "RETR" ∧ argument = []

/-- RETR of a missing object answers twice too. -/
def AnsweredTwice (s : Session) (command argument : Bytes) : Prop :=
  s.ReadTwice command argument ∨ s.m_connection_stage = .LOGGED_IN ∧ command = lit "RETR" ∧
    argument ≠ [] ∧ s.m_sendable_file_id = [] ∧ s.ObjectMissing argument

instance (s : Session) (c a : Bytes) : Decidable (s.LeavesAlone c a) :=
  inferInstanceAs (Decidable (_ ∨ _))

instance (s : Session) (c a : Bytes) : Decidable (s.Unanswered c a) :=
  inferInstanceAs (Decidable (_ ∨ _))

instance (s : Session) (c a : Bytes) : Decidable (s.Unread c a) :=
  inferInstanceAs (Decidable (_ ∨ _))

instance (s : Session) (a : Bytes) : Decidable (s.ObjectMissing a) :=
  inferInstanceAs (Decidable (_ = _))

instance (s : Session) (c a : Bytes) : Decidable (s.ReadTwice c a) :=
  inferInstanceAs (Decidable (_ ∧ _))

instance (s : Session) (c a : Bytes) : Decidable (s.AnsweredTwice c a) :=
  inferInstanceAs (Decidable (_ ∨ _))

/-- The replies that a command starts, and the reads. -/
def replies (s : Session) (c a : Bytes) : Nat :=
  if s.Unanswered c a then 0 else if s.AnsweredTwice c a then 2 else 1

def rereads (s : Session) (c a : Bytes) : Nat :=
  if s.Unread c a then 0 else if s.ReadTwice c a then 2 else 1

/-- The commands whose exits do not all answer once and read on once. -/
def SPECIAL_COMMANDS : List Bytes := [lit "LIST", lit "STOR", lit "RETR", lit "OPTS", lit "SIZE"]

section
variable {s : Session} (a : Bytes)

/-- A command with no special exit gets one reply and one more read. -/
theorem one_reply {c : Bytes} (hne : c ≠ []) (hq : c ≠ lit "QUIT")
    (h : s.m_connection_stage ≠ .LOGGED_IN ∨ c ∉ SPECIAL_COMMANDS) :
    s.replies c a = 1 ∧ s.rereads c a = 1 := by
  unfold replies rereads Unanswered Unread LeavesAlone AnsweredTwice ReadTwice
  rcases h with h | h
  · simp [hne, hq, h]
  · simp only [SPECIAL_COMMANDS, List.mem_cons, List.not_mem_nil, or_false, not_or] at h
    simp [hne, hq, h]

theorem special_supported {c : Bytes} (h : c ∈ SPECIAL_COMMANDS) : c ∈ FTP_COMMANDS := by
  have hsub : ∀ x ∈ SPECIAL_COMMANDS, x ∈ FTP_COMMANDS := by decide
  exact hsub c h

theorem replies_empty : s.replies [] a = 0 ∧ s.rereads [] a = 0 := by
  simp [replies, rereads, Unanswered, Unread, LeavesAlone]

theorem replies_QUIT : s.replies (lit "QUIT") a = 1 ∧ s.rereads (lit "QUIT") a = 0 := by
  simp +decide [replies, rereads, Unanswered, Unread, LeavesAlone, AnsweredTwice, ReadTwice]

variable (h : s.m_connection_stage = .LOGGED_IN)
include h

theorem replies_LIST :
    s.replies (lit "LIST") a = (if s.m_pending_directory_list ≠ [] then 0 else 1) ∧
      s.rereads (lit "LIST") a = if s.m_pending_directory_list ≠ [] then 0 else 1 := by
  simp +decide [replies, rereads, Unanswered, Unread, LeavesAlone, AnsweredTwice, ReadTwice, h]

theorem replies_STOR :
    s.replies (lit "STOR") a = (if a ≠ [] ∧
      (s.m_pending_write_file ≠ [] ∨ s.ParentMissing (s.write_file_of_STOR a)) then 0 else 1) ∧
    s.rereads (lit "STOR") a = (if a ≠ [] ∧
      (s.m_pending_write_file ≠ [] ∨ s.ParentMissing (s.write_file_of_STOR a)) then 0 else 1) := by
  simp +decide [replies, rereads, Unanswered, Unread, LeavesAlone, AnsweredTwice, ReadTwice, h]

theorem replies_RETR :
    s.replies (lit "RETR") a =
      (if a = [] ∨ a ≠ [] ∧ s.m_sendable_file_id = [] ∧ s.ObjectMissing a then 2 else 1) ∧
    s.rereads (lit "RETR") a = if a = [] then 2 else 1 := by
  simp +decide [replies, rereads, Unanswered, Unread, LeavesAlone, AnsweredTwice, ReadTwice, h]

theorem replies_OPTS :
    s.replies (lit "OPTS") a = (if a = lit "UTF8 ON" then 1 else 0) ∧
      s.rereads (lit "OPTS") a = 1 := by
  simp +decide [replies, rereads, Unanswered, Unread, LeavesAlone, AnsweredTwice, ReadTwice, h]

theorem replies_SIZE : s.replies (lit "SIZE") a = 1 ∧ s.rereads (lit "SIZE") a = 0 := by
  simp +decide [replies, rereads, Unanswered, Unread, LeavesAlone, AnsweredTwice, ReadTwice, h]

end

/-- The front of a session that sent some more replies and started some more reads. -/
def Front.talk (f : Front) (messages : List Bytes) (rereads : Nat) : Front :=
  { f with
    sent := f.sent ++ messages.map (· ++ crlf)
    writes := f.writes + messages.length
    reads := f.reads + rereads }

/-- A session sent so many more replies and started so many more reads, and kept the rest of
its front. -/
def Accounts (before after : Front) (replies rereads : Nat) : Prop :=
  ∃ messages, messages.length = replies ∧ after = before.talk messages rereads

theorem Accounts.none {a b : Front} (h : b = a) : Accounts a b 0 0 :=
  ⟨[], rfl, by simp [h, Front.talk]⟩

theorem Accounts.say {a b : Front} {m : Bytes} {n k : Nat} (h : Accounts a b n k) :
    Accounts a (b.say m) (n + 1) k := by
  obtain ⟨messages, rfl, rfl⟩ := h
  exact ⟨messages ++ [m], by simp, by simp [Front.say, Front.talk, Nat.add_assoc]⟩

theorem Accounts.listen {a b : Front} {n k : Nat} (h : Accounts a b n k) :
    Accounts a b.listen n (k + 1) := by
  obtain ⟨messages, rfl, rfl⟩ := h
  exact ⟨messages, rfl, by simp [Front.listen, Front.talk, Nat.add_assoc]⟩

theorem Accounts.trans {a b c : Front} {n k n' k' : Nat} (h : Accounts a b n k)
    (h' : Accounts b c n' k') : Accounts a c (n + n') (k + k') := by
  obtain ⟨messages, rfl, rfl⟩ := h
  obtain ⟨messages', rfl, rfl⟩ := h'
  exact ⟨messages ++ messages', by simp, by simp [Front.talk, Nat.add_assoc]⟩

theorem accounts_reply (s : Session) (m : Bytes) : Accounts s.front (s.reply m).front 1 1 :=
  (Accounts.none rfl).say.listen

section
variable (env : Env) (s : Session) (a : Bytes) (h : s.m_connection_stage = .LOGGED_IN)

theorem accounts_run_pending_LIST : Accounts s.front s.run_pending_LIST.front 1 1 := by
  unfold run_pending_LIST
  split
  · exact (Accounts.none rfl).say.listen
  · exact s.accounts_reply _

theorem run_pending_STOR_of_missing (hm : s.ParentMissing s.m_pending_write_file) :
    s.run_pending_STOR env = s := if_pos hm

theorem accounts_run_pending_STOR (hm : ¬ s.ParentMissing s.m_pending_write_file) :
    Accounts s.front (s.run_pending_STOR env).front 1 1 := by
  unfold run_pending_STOR
  rw [if_neg hm]
  split
  · have h : Accounts s.front
        ((s.control_send (lit "150 Opening connection.")).data_receive_file env).front 1 0 := by
      rw [front_data_receive_file]
      exact (Accounts.none rfl).say
    exact h.listen
  · exact s.accounts_reply _

theorem accounts_run_RETR : Accounts s.front (s.run_RETR env).front 1 1 := by
  unfold run_RETR
  split
  · have h : Accounts s.front
        ((s.control_send (lit "150 Opening connection.")).data_send_file env).front 1 0 := by
      rw [front_data_send_file]
      exact (Accounts.none rfl).say
    exact h.listen
  · exact s.accounts_reply _

/-- The parse of RETR answers, and sets the pending file. -/
theorem parse_RETR_argument_eq : ∃ id sent reads writes, s.parse_RETR_argument a =
    { s with
      m_sendable_file_id := id
      sent := sent
      control_reads := reads
      control_writes := writes } := by
  unfold parse_RETR_argument
  split
  · exact ⟨s.m_sendable_file_id, _, _, _, rfl⟩
  split
  · exact ⟨s.m_sendable_file_id, s.sent, s.control_reads, s.control_writes, rfl⟩
  · simp only
    split
    · exact ⟨s.m_sendable_file_id, _, s.control_reads, _, rfl⟩
    · exact ⟨_, s.sent, s.control_reads, s.control_writes, rfl⟩

/-- The parse of RETR replies and reads on its own when it finds no argument, and replies when
it finds no object. -/
theorem accounts_parse_RETR_argument :
    Accounts s.front (s.parse_RETR_argument a).front
      (if a = [] ∨ a ≠ [] ∧ s.m_sendable_file_id = [] ∧ s.ObjectMissing a then 1 else 0)
      (if a = [] then 1 else 0) := by
  unfold parse_RETR_argument ObjectMissing
  by_cases ha : a = []
  · rw [if_pos ha, if_pos (Or.inl ha), if_pos ha]
    exact s.accounts_reply _
  rw [if_neg ha, if_neg ha]
  by_cases hp : s.m_sendable_file_id = []
  · rw [if_neg (not_not.mpr hp)]
    simp only [ha, hp, ne_eq, not_false_eq_true, true_and, false_or]
    split
    · exact (Accounts.none rfl).say
    · exact Accounts.none rfl
  · rw [if_pos hp, if_neg (fun h => h.elim ha (fun h => hp h.2.1))]
    exact Accounts.none rfl

include h

theorem accounts_LIST :
    Accounts s.front (s.run_LIST a).front (s.replies (lit "LIST") a)
      (s.rereads (lit "LIST") a) := by
  rw [(replies_LIST a h).1, (replies_LIST a h).2]
  unfold run_LIST
  split
  · exact Accounts.none rfl
  · exact (s.set_pending_list a).accounts_run_pending_LIST

theorem accounts_STOR :
    Accounts s.front (s.run_STOR env a).front (s.replies (lit "STOR") a)
      (s.rereads (lit "STOR") a) := by
  rw [(replies_STOR a h).1, (replies_STOR a h).2]
  unfold run_STOR
  by_cases ha : a = []
  · rw [if_pos ha, if_neg (fun h => h.1 ha)]
    exact s.accounts_reply _
  rw [if_neg ha]
  by_cases hp : s.m_pending_write_file = []
  · rw [if_neg (not_not.mpr hp)]
    by_cases hm : s.ParentMissing (s.write_file_of_STOR a)
    · rw [if_pos ⟨ha, Or.inr hm⟩]
      rw [run_pending_STOR_of_missing env (s.set_pending_write a) hm]
      exact Accounts.none rfl
    · rw [if_neg (fun h => h.2.elim (fun h => h hp) hm)]
      exact accounts_run_pending_STOR env (s.set_pending_write a) hm
  · rw [if_pos hp, if_pos ⟨ha, Or.inl hp⟩]
    exact Accounts.none rfl

theorem accounts_RETR :
    Accounts s.front ((s.parse_RETR_argument a).run_RETR env).front (s.replies (lit "RETR") a)
      (s.rereads (lit "RETR") a) := by
  rw [(replies_RETR a h).1, (replies_RETR a h).2]
  have h1 := s.accounts_parse_RETR_argument a
  have h2 := (s.parse_RETR_argument a).accounts_run_RETR env
  have h3 := h1.trans h2
  by_cases ha : a = []
  · simp only [ha, true_or, if_pos] at h3 ⊢
    exact h3
  · simp only [ha, ne_eq, not_false_eq_true, true_and, false_or, if_neg] at h3 ⊢
    by_cases hm : s.m_sendable_file_id = [] ∧ s.ObjectMissing a
    · rw [if_pos hm] at h3 ⊢
      exact h3
    · rw [if_neg hm] at h3 ⊢
      exact h3

theorem accounts_OPTS :
    Accounts s.front (s.handle_OPTS a).front (s.replies (lit "OPTS") a)
      (s.rereads (lit "OPTS") a) := by
  rw [(replies_OPTS a h).1, (replies_OPTS a h).2]
  unfold handle_OPTS
  split
  · exact s.accounts_reply _
  · exact (Accounts.none rfl).listen

theorem accounts_SIZE :
    Accounts s.front (s.handle_SIZE a).front (s.replies (lit "SIZE") a)
      (s.rereads (lit "SIZE") a) := by
  rw [(replies_SIZE a h).1, (replies_SIZE a h).2]
  unfold handle_SIZE
  simp only
  split
  · exact (Accounts.none rfl).say
  · exact (Accounts.none rfl).say

end

/-- The commands that every logged-in session answers once. -/
theorem answered_once : ∀ c ∈ PLAIN_COMMANDS ++ [lit "CDUP", lit "CWD"] ++
    [lit "MKD", lit "RMD", lit "DELE"],
    c ≠ [] ∧ c ≠ lit "QUIT" ∧ c ∉ SPECIAL_COMMANDS ∧ c ≠ lit "PASS" := by
  decide

/-- What a command changes of who is logged in and where. -/
inductive Entered (s : Session) : Bytes → Bytes → Front → Prop
  | same (c a) (h : c = lit "PASS" →
      s.m_userid = [] ∨ users.check_password s.m_users_table s.m_userid a = false) :
      Entered s c a s.front
  | user (a) (h : users.get_id_by_name s.m_users_table a ≠ []) :
      Entered s (lit "USER") a
        { s.front with userid := users.get_id_by_name s.m_users_table a }
  | pass (a) (hne : s.m_userid ≠ [])
      (h : users.check_password s.m_users_table s.m_userid a = true) :
      Entered s (lit "PASS") a { s.front with stage := .LOGGED_IN }
  | moved (c a w) (h : s.m_connection_stage = .LOGGED_IN) (hc : c ∈ [lit "CDUP", lit "CWD"])
      (hw : s.Goes a w) : Entered s c a { s.front with working_directory := w }

/-- What a command does to the front of a session. -/
theorem Handled.front {env : Env} {s t : Session} {c a : Bytes} (h : Handled env s c a t) :
    ∃ f, Entered s c a f ∧ Accounts f t.front (s.replies c a) (s.rereads c a) := by
  have once : ∀ {t : Session} {f : Front} (m : Bytes), t.front = f → c ≠ [] → c ≠ lit "QUIT" →
      (s.m_connection_stage ≠ .LOGGED_IN ∨ c ∉ SPECIAL_COMMANDS) →
      Accounts f (t.reply m).front (s.replies c a) (s.rereads c a) := by
    intro t f m ht hne hq hs
    obtain ⟨h1, h2⟩ := one_reply (s := s) a hne hq hs
    rw [h1, h2, ← ht]
    exact t.accounts_reply m
  have same : c ≠ lit "PASS" → Entered s c a s.front := fun h => .same c a fun hc => absurd hc h
  cases h with
  | empty =>
    refine ⟨_, same (by decide), ?_⟩
    rw [(replies_empty a).1, (replies_empty a).2]
    exact Accounts.none rfl
  | unknown _ _ hne h =>
    have hin : ∀ {d : Bytes}, d ∈ FTP_COMMANDS → c ≠ d := fun hd hc => h (hc ▸ hd)
    exact ⟨_, same (hin (by decide)), once _ rfl hne (hin (by decide))
      (Or.inr fun hc => h (special_supported hc))⟩
  | user_refused =>
    exact ⟨_, same (by decide), once _ rfl (by decide) (by decide) (Or.inr (by decide))⟩
  | user_accepted _ h =>
    exact ⟨_, .user a h, once _ rfl (by decide) (by decide) (Or.inr (by decide))⟩
  | pass_refused _ _ h =>
    exact ⟨_, .same _ a fun _ => h, once _ rfl (by decide) (by decide) (Or.inr (by decide))⟩
  | pass_accepted _ hne h =>
    exact ⟨_, .pass a hne h, once _ rfl (by decide) (by decide) (Or.inr (by decide))⟩
  | system =>
    exact ⟨_, same (by decide), once _ rfl (by decide) (by decide) (Or.inr (by decide))⟩
  | quit =>
    refine ⟨_, same (by decide), ?_⟩
    rw [(replies_QUIT a).1, (replies_QUIT a).2]
    exact (Accounts.none rfl).say
  | not_logged_in _ _ hne hc h =>
    have hin : ∀ {d : Bytes}, d ∈ LOGIN_COMMANDS → c ≠ d := fun hd hcd => hc (hcd ▸ hd)
    exact ⟨_, same (hin (by decide)), once _ rfl hne (hin (by decide)) (Or.inl h)⟩
  | plain _ _ _ h hc =>
    obtain ⟨h1, h2, h3, h4⟩ := answered_once c (by simp [hc])
    exact ⟨_, same h4, once _ rfl h1 h2 (Or.inr h3)⟩
  | options _ h => exact ⟨_, same (by decide), s.accounts_OPTS a h⟩
  | moved _ _ w _ h hc hw =>
    obtain ⟨h1, h2, h3, h4⟩ := answered_once c (List.mem_append_left _ (List.mem_append_right _ hc))
    exact ⟨_, .moved c a w h hc hw, once _ rfl h1 h2 (Or.inr h3)⟩
  | stored _ _ _ h hc =>
    obtain ⟨h1, h2, h3, h4⟩ := answered_once c (List.mem_append_right _ hc)
    exact ⟨_, same h4, once _ rfl h1 h2 (Or.inr h3)⟩
  | list _ h => exact ⟨_, same (by decide), s.accounts_LIST a h⟩
  | stor _ h => exact ⟨_, same (by decide), s.accounts_STOR env a h⟩
  | retr _ h => exact ⟨_, same (by decide), s.accounts_RETR env a h⟩
  | size _ h => exact ⟨_, same (by decide), s.accounts_SIZE a h⟩

/-- What is outstanding on the control connection after a command. -/
structure Counts (before after : Front) (replies rereads : Nat) : Prop where
  sent : after.sent.length = before.sent.length + replies
  writes : after.writes = before.writes + replies
  reads : after.reads = before.reads + rereads
  timer_waits : after.timer_waits = before.timer_waits
  probe_reads : after.probe_reads = before.probe_reads
  probe_writes : after.probe_writes = before.probe_writes
  handshakes : after.handshakes = before.handshakes

/-- What a command does to the control connection. -/
theorem counts_handle_command (env : Env) (s : Session) (c a : Bytes) :
    Counts s.front (s.handle_command env c a).front (s.replies c a) (s.rereads c a) := by
  obtain ⟨f, hf, messages, hl, ht⟩ := (s.handle_command_handled env c a).front
  rw [ht, ← hl]
  cases hf <;> exact ⟨by simp [Front.talk], rfl, rfl, rfl, rfl, rfl, rfl⟩

end Session

end asio_ftp.base_session
