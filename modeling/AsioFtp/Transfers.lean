-- What the handlers of a session do to its data channel: which transfer each event starts,
-- and which file streams are set after it.
import AsioFtp.Effects

namespace asio_ftp.base_session

open helpers fs_objects

/-! ## The back of a session -/

/-- What a transfer uses: the operations that are outstanding on the data socket, the connection
that it holds, which of the two file streams are set, and whether the process crashed. -/
structure Back where
  ops : List Outstanding
  connection : Nat
  receiving : Bool
  sending : Bool
  crashed : Bool

/-- The stream that a kind of transfer uses is set. A listing uses none. -/
def Back.stream (b : Back) : DataOp → Bool
  | .data_send => true
  | .data_async_receive => b.receiving
  | .data_async_send => b.sending

namespace Session

def back (s : Session) : Back where
  ops := s.data_ops
  connection := s.data_connection
  receiving := s.m_receive_file_stream.isSome
  sending := s.m_send_file_stream.isSome
  crashed := s.crashed

/-- The handler kept what is outstanding, started one transfer or none, reset no stream and did
not crash. A transfer that it started has its stream. -/
structure Started (before after : Back) (started : Option DataOp) : Prop where
  ops : after.ops = before.ops ++ started.toList.map (⟨·, before.connection⟩)
  connection : after.connection = before.connection
  stream : ∀ op, before.stream op = true ∨ started = some op → after.stream op = true
  crashed : after.crashed = before.crashed

theorem Started.none {a b : Back} (h : b = a) : Started a b none := by
  subst h
  constructor <;> simp

/-! ## Which transfer starts -/

/-- The transfer that a new connection starts. -/
def pickedUp (env : Env) (s : Session) : Option DataOp :=
  if s.m_pending_directory_list ≠ [] then some .data_send
  else if s.m_pending_write_file ≠ [] then
    if s.receiveOpens env then some .data_async_receive else none
  else if s.m_sendable_file_id ≠ [] then
    if s.sendOpens env s.m_sendable_file_id then some .data_async_send else none
  else none

/-- The file that RETR sends when it comes late: the pending one, or the one it asks for. -/
def fileOfRETR (s : Session) (argument : Bytes) : Bytes :=
  if argument = [] ∨ s.m_sendable_file_id ≠ [] then s.m_sendable_file_id
  else (get_object s.m_fs_objects_table.table s.m_userid (s.object_of_RETR argument).2
    (s.object_of_RETR argument).1).id

/-- The transfer that a late command starts, which is one that finds the data socket open. -/
def startedLate (env : Env) (s : Session) (command argument : Bytes) : Option DataOp :=
  if s.m_connection_stage ≠ .LOGGED_IN ∨ s.data_socket_open = false then none
  else if command = lit "LIST" then
    if s.m_pending_directory_list = [] then some .data_send else none
  else if command = lit "STOR" then
    if argument ≠ [] ∧ s.m_pending_write_file = [] ∧
        ¬ s.ParentMissing (s.write_file_of_STOR argument) ∧
        (s.set_pending_write argument).receiveOpens env = true then
      some .data_async_receive
    else none
  else if command = lit "RETR" then
    if s.sendOpens env (s.fileOfRETR argument) = true then some .data_async_send else none
  else none

/-- The transfer that an event starts. A transfer that goes on does not count. -/
def starts (env : Env) (s : Session) : Event → Option DataOp
  | .control_received ec received =>
    s.startedLate env (handle_control_receive_callback ec received).1
      (handle_control_receive_callback ec received).2
  | .accepted ec =>
    if ec = .success ∧ s.session_class = .session then s.pickedUp env else none
  | .data_handshaken ec => if ec = .success then s.pickedUp env else none
  | _ => none

/-! ## The handlers -/

section
variable (env : Env) (s : Session)

@[simp] theorem back_data_close : s.data_close.back = s.back := by
  obtain ⟨o, n, h⟩ := s.data_close_eq
  rw [h]
  rfl

theorem started_data_directory_listing :
    Started s.back s.data_directory_listing.back (some .data_send) where
  ops := rfl
  connection := rfl
  stream := by intro op; cases op <;> simp [data_directory_listing, data_send, start, back, Back.stream]
  crashed := rfl

theorem started_data_receive_file :
    Started s.back (s.data_receive_file env).back
      (if s.receiveOpens env = true then some .data_async_receive else none) := by
  unfold data_receive_file
  cases s.receiveOpens env
  · rw [if_pos rfl, if_neg (by simp), back_data_close]
    exact ⟨(List.append_nil _).symm, rfl, fun op => by
      cases op <;> simp [openReceiveFile, back, Back.stream], rfl⟩
  · rw [if_neg (by simp), if_pos rfl]
    exact ⟨rfl, rfl, fun op => by
      cases op <;> simp [openReceiveFile, back, data_async_receive, start, Back.stream], rfl⟩

/-- The send of the next part of a file keeps its stream set. -/
theorem back_data_async_send {f : IFStream} (h : s.m_send_file_stream = some f) :
    (s.data_async_send env).back =
      { s.back with ops := s.data_ops ++ [⟨.data_async_send, s.data_connection⟩] } := by
  unfold data_async_send
  rw [h]
  simp [back, start, h]

theorem started_data_send_file :
    Started s.back (s.data_send_file env).back
      (if s.sendOpens env s.m_sendable_file_id = true then some .data_async_send else none) := by
  unfold data_send_file
  cases s.sendOpens env s.m_sendable_file_id
  · rw [if_pos rfl, if_neg (by simp), back_data_close]
    exact ⟨(List.append_nil _).symm, rfl, fun op => by
      cases op <;> simp [openSendFile, back, Back.stream], rfl⟩
  · rw [if_neg (by simp), if_pos rfl, back_data_async_send env (s.openSendFile env) rfl]
    exact ⟨rfl, rfl, fun op => by cases op <;> simp [openSendFile, back, Back.stream], rfl⟩

theorem started_takeUpWork : Started s.back (s.takeUpWork env).back (s.pickedUp env) := by
  unfold takeUpWork pickedUp
  split
  · exact s.started_data_directory_listing
  · split
    · exact s.started_data_receive_file env
    · split
      · exact s.started_data_send_file env
      · exact Started.none rfl

end

/-! ## The commands -/

section
variable (env : Env) (s : Session) (a : Bytes)

/-- The commands that start transfers. -/
theorem handle_command_of_transfer (h : s.m_connection_stage = .LOGGED_IN) :
    s.handle_command env (lit "LIST") a = s.run_LIST a ∧
      s.handle_command env (lit "STOR") a = s.run_STOR env a ∧
      s.handle_command env (lit "RETR") a = (s.parse_RETR_argument a).run_RETR env := by
  refine ⟨?_, ?_, ?_⟩ <;> simp +decide [handle_command, handle_logged_in, h]

/-- A command other than the three transfer commands starts none. -/
theorem startedLate_eq_none {c : Bytes} (h : s.m_connection_stage ≠ .LOGGED_IN ∨
    c ≠ lit "LIST" ∧ c ≠ lit "STOR" ∧ c ≠ lit "RETR") : s.startedLate env c a = none := by
  unfold startedLate
  rcases h with h | ⟨h1, h2, h3⟩
  · rw [if_pos (Or.inl h)]
  · rw [if_neg h1, if_neg h2, if_neg h3, ite_self]

variable {s} in
theorem startedLate_LIST (h : s.m_connection_stage = .LOGGED_IN) :
    s.startedLate env (lit "LIST") a =
      if s.data_socket_open = true ∧ s.m_pending_directory_list = [] then some .data_send
      else none := by
  cases ho : s.data_socket_open <;> simp +decide [startedLate, h, ho]

variable {s} in
theorem startedLate_STOR (h : s.m_connection_stage = .LOGGED_IN) :
    s.startedLate env (lit "STOR") a =
      if s.data_socket_open = true ∧ a ≠ [] ∧ s.m_pending_write_file = [] ∧
          ¬ s.ParentMissing (s.write_file_of_STOR a) ∧
          (s.set_pending_write a).receiveOpens env = true then some .data_async_receive
      else none := by
  cases ho : s.data_socket_open <;> simp +decide [startedLate, h, ho]

variable {s} in
theorem startedLate_RETR (h : s.m_connection_stage = .LOGGED_IN) :
    s.startedLate env (lit "RETR") a =
      if s.data_socket_open = true ∧ s.sendOpens env (s.fileOfRETR a) = true then
        some .data_async_send
      else none := by
  cases ho : s.data_socket_open <;> simp +decide [startedLate, h, ho]

theorem started_run_pending_LIST :
    Started s.back s.run_pending_LIST.back
      (if s.data_socket_open = true then some .data_send else none) := by
  unfold run_pending_LIST
  split
  · exact (s.control_send (lit "150 Opening connection.")).started_data_directory_listing
  · exact Started.none rfl

theorem started_run_pending_STOR :
    Started s.back (s.run_pending_STOR env).back
      (if s.data_socket_open = true ∧ ¬ s.ParentMissing s.m_pending_write_file ∧
        s.receiveOpens env = true then some .data_async_receive else none) := by
  unfold run_pending_STOR
  by_cases hm : s.ParentMissing s.m_pending_write_file
  · rw [if_pos hm, if_neg (fun h => h.2.1 hm)]
    exact Started.none rfl
  · rw [if_neg hm]
    cases ho : s.data_socket_open
    · exact Started.none rfl
    · have h := (s.control_send (lit "150 Opening connection.")).started_data_receive_file env
      simp only [hm, not_false_eq_true, true_and, if_true]
      exact h

theorem started_run_RETR :
    Started s.back (s.run_RETR env).back
      (if s.data_socket_open = true ∧ s.sendOpens env s.m_sendable_file_id = true then
        some .data_async_send else none) := by
  unfold run_RETR
  cases ho : s.data_socket_open
  · exact Started.none rfl
  · have h := (s.control_send (lit "150 Opening connection.")).started_data_send_file env
    simp only [true_and, if_true]
    exact h

/-- The parse of RETR sets the pending file and nothing else of the data channel. -/
theorem parse_RETR_argument_file :
    (s.parse_RETR_argument a).back = s.back ∧
      (s.parse_RETR_argument a).data_socket_open = s.data_socket_open ∧
      (s.parse_RETR_argument a).m_fs_objects_table = s.m_fs_objects_table ∧
      (s.parse_RETR_argument a).m_sendable_file_id = s.fileOfRETR a := by
  have hfile : (s.parse_RETR_argument a).m_sendable_file_id = s.fileOfRETR a := by
    unfold parse_RETR_argument fileOfRETR
    by_cases ha : a = []
    · simp [ha, reply, control_send, control_receive]
    by_cases hp : s.m_sendable_file_id = []
    · simp only [ha, hp, ne_eq, not_true_eq_false, or_self, if_false]
      split
      · next h =>
        rw [h]
        exact hp
      · rfl
    · simp [ha, hp]
  obtain ⟨_, _, _, _, h⟩ := s.parse_RETR_argument_eq a
  rw [h] at hfile ⊢
  exact ⟨rfl, rfl, rfl, hfile⟩

theorem started_RETR (h : s.m_connection_stage = .LOGGED_IN) :
    Started s.back ((s.parse_RETR_argument a).run_RETR env).back
      (s.startedLate env (lit "RETR") a) := by
  obtain ⟨h1, h2, h3, h4⟩ := s.parse_RETR_argument_file a
  have hs := (s.parse_RETR_argument a).started_run_RETR env
  have ho : ∀ id, (s.parse_RETR_argument a).sendOpens env id = s.sendOpens env id := by
    intro id
    unfold sendOpens
    rw [h3]
  rw [h1, h2, h4, ho] at hs
  rw [startedLate_RETR env a h]
  exact hs

theorem started_LIST (h : s.m_connection_stage = .LOGGED_IN) :
    Started s.back (s.run_LIST a).back (s.startedLate env (lit "LIST") a) := by
  rw [startedLate_LIST env a h]
  unfold run_LIST
  by_cases hp : s.m_pending_directory_list = []
  · rw [if_neg (not_not.mpr hp)]
    simp only [hp, and_true]
    exact (s.set_pending_list a).started_run_pending_LIST
  · rw [if_pos hp, if_neg (fun h => hp h.2)]
    exact Started.none rfl

theorem started_STOR (h : s.m_connection_stage = .LOGGED_IN) :
    Started s.back (s.run_STOR env a).back (s.startedLate env (lit "STOR") a) := by
  rw [startedLate_STOR env a h]
  unfold run_STOR
  by_cases ha : a = []
  · rw [if_pos ha, if_neg (fun h => h.2.1 ha)]
    exact Started.none rfl
  rw [if_neg ha]
  by_cases hp : s.m_pending_write_file = []
  · rw [if_neg (not_not.mpr hp)]
    simp only [ha, hp, ne_eq, not_false_eq_true, true_and]
    exact (s.set_pending_write a).started_run_pending_STOR env
  · rw [if_pos hp, if_neg (fun h => hp h.2.2.1)]
    exact Started.none rfl

/-- What a command does to the data channel. -/
theorem Handled.started {env : Env} {s t : Session} {c a : Bytes} (h : Handled env s c a t) :
    Started s.back t.back (s.startedLate env c a) := by
  have nothing : ∀ {t : Session}, t.back = s.back → (s.m_connection_stage ≠ .LOGGED_IN ∨
      c ≠ lit "LIST" ∧ c ≠ lit "STOR" ∧ c ≠ lit "RETR") →
      Started s.back t.back (s.startedLate env c a) := by
    intro t ht hc
    rw [startedLate_eq_none env s a hc]
    exact Started.none ht
  have other : c ∉ SPECIAL_COMMANDS → c ≠ lit "LIST" ∧ c ≠ lit "STOR" ∧ c ≠ lit "RETR" := by
    intro hc
    simp only [SPECIAL_COMMANDS, List.mem_cons, not_or] at hc
    exact ⟨hc.1, hc.2.1, hc.2.2.1⟩
  cases h with
  | empty => exact nothing rfl (Or.inr (by decide))
  | unknown _ _ _ hc => exact nothing rfl (Or.inr (other fun h => hc (special_supported h)))
  | user_refused => exact nothing rfl (Or.inr (by decide))
  | user_accepted => exact nothing rfl (Or.inr (by decide))
  | pass_refused => exact nothing rfl (Or.inr (by decide))
  | pass_accepted => exact nothing rfl (Or.inr (by decide))
  | system => exact nothing rfl (Or.inr (by decide))
  | quit => exact nothing rfl (Or.inr (by decide))
  | not_logged_in _ _ _ _ h => exact nothing rfl (Or.inl h)
  | plain _ _ _ _ hc => exact nothing rfl (Or.inr (other (answered_once c (by simp [hc])).2.2.1))
  | options =>
    refine nothing ?_ (Or.inr (by decide))
    unfold handle_OPTS
    split <;> rfl
  | moved _ _ _ _ _ hc _ =>
    exact nothing rfl (Or.inr (other (answered_once c
      (List.mem_append_left _ (List.mem_append_right _ hc))).2.2.1))
  | stored _ _ _ _ hc =>
    exact nothing rfl (Or.inr (other (answered_once c (List.mem_append_right _ hc)).2.2.1))
  | list _ h => exact s.started_LIST env a h
  | stor _ h => exact s.started_STOR env a h
  | retr _ h => exact s.started_RETR env a h
  | size =>
    refine nothing ?_ (Or.inr (by decide))
    unfold handle_SIZE
    simp only
    split <;> rfl

end

/-! ## The transfers that go on -/

section
variable (env : Env) (s : Session)

theorem back_handle_data_send_callback (ec : ErrorCode) :
    (s.handle_data_send_callback ec).back = s.back := by
  unfold handle_data_send_callback
  split
  · rfl
  · rw [back_data_close]
    rfl

theorem back_absorb {f : OFStream} (h : s.m_receive_file_stream = some f) (n : Nat) :
    (s.absorb env f n).back = s.back := by
  have hstream := s.absorb_stream env h n
  obtain ⟨_, stream, _, _, heq⟩ := s.absorb_eq env f n
  rw [heq] at hstream ⊢
  simp only at hstream
  simp only [back, hstream, h, Option.isSome_some]

theorem back_data_async_receive_end {f : OFStream} (h : s.m_receive_file_stream = some f) :
    (s.data_async_receive_end env).back = { s.back with receiving := false } := by
  unfold data_async_receive_end
  rw [h]
  simp only [back_data_close]
  rfl

/-- A callback of an upload resets the stream, or reads on. -/
theorem back_handle_data_async_receive_callback {f : OFStream}
    (h : s.m_receive_file_stream = some f) (ec : ErrorCode) (n : Nat) :
    (s.handle_data_async_receive_callback env ec n).back =
      if s.receiveEnds env ec n = true then { s.back with receiving := false }
      else { s.back with ops := s.data_ops ++ [⟨.data_async_receive, s.data_connection⟩] } := by
  rw [s.handle_data_async_receive_callback_eq env h]
  have hb := s.back_absorb env h n
  split
  · rw [back_data_async_receive_end env _ (s.absorb_stream env h n), hb]
  · exact congrArg (fun b : Back =>
      { b with ops := b.ops ++ [Outstanding.mk .data_async_receive b.connection] }) hb

/-- A callback of a download resets the stream, or sends on. -/
theorem back_handle_data_async_send_callback {f : IFStream} (h : s.m_send_file_stream = some f)
    (ec : ErrorCode) :
    (s.handle_data_async_send_callback env ec).back =
      if s.sendEnds ec = true then { s.back with sending := false }
      else { s.back with ops := s.data_ops ++ [⟨.data_async_send, s.data_connection⟩] } := by
  rw [s.handle_data_async_send_callback_eq env h]
  split
  · unfold data_async_send_end
    rw [h]
    simp only [back_data_close]
    simp [back, control_send]
  · exact s.back_data_async_send env h

end

/-! ## One event -/

/-- The end of a part of a transfer. -/
def endsPart : Event → Bool
  | .data_sent .. => true
  | .data_received .. => true
  | .data_async_sent .. => true
  | _ => false

/-- A new connection replaces the data socket. -/
def replaces : Event → Bool
  | .accepted .success => true
  | _ => false

/-- What an event other than the end of a part does to the data channel. -/
theorem Stepped.started {env : Env} {s s' : Session} {e : Event} (h : Stepped env s e s')
    (he : endsPart e = false) :
    Started { s.back with connection := s.data_connection + if replaces e then 1 else 0 }
      s'.back (s.starts env e) := by
  by_cases hup : startsUp e = true
  · have hnone : s.starts env e = none ∧ replaces e = false := by
      cases e <;> first | exact ⟨rfl, rfl⟩ | simp [startsUp] at hup
    rw [hnone.1, hnone.2, (h.startup hup).1]
    exact Started.none rfl
  cases h with
  | control_received ec received =>
    exact ({ s with control_reads := s.control_reads - 1 }.handle_command_handled env _ _).started
  | accepted ec =>
    unfold starts
    by_cases hec : ec = .success
    · subst hec
      simp only [handle_accept_success, true_and, replaces, if_true]
      split
      · exact started_takeUpWork env { s with
          accepts := s.accepts - 1
          data_socket_open := true
          data_connection := s.data_connection + 1 }
      · exact Started.none rfl
    · rw [handle_accept, if_pos hec]
      have hr : replaces (.accepted ec) = false := by
        cases ec <;> first | rfl | exact absurd rfl hec
      simp only [hec, false_and, if_false, hr]
      exact Started.none rfl
  | data_handshaken ec =>
    unfold handle_data_handshake
    simp only [starts]
    by_cases hec : ec = .success
    · rw [if_neg (not_not.mpr hec), if_pos hec]
      exact started_takeUpWork env { s with data_handshakes := s.data_handshakes - 1 }
    · rw [if_pos hec, if_neg hec]
      exact Started.none rfl
  | data_sent => simp [endsPart] at he
  | data_received => simp [endsPart] at he
  | data_async_sent => simp [endsPart] at he
  | timer => exact absurd rfl hup
  | probe_received => exact absurd rfl hup
  | handshaken => exact absurd rfl hup
  | _ => exact Started.none rfl

/-- The end of a part takes it from what is outstanding, and starts at most the next part. -/
theorem Stepped.ended {env : Env} {s s' : Session} {e : Event} (h : Stepped env s e s')
    (he : endsPart e = true) : s'.data_connection = s.data_connection ∧
      ∃ o ∈ s.data_ops, s'.data_ops = s.data_ops.erase o ∨
        s'.data_ops = s.data_ops.erase o ++ [⟨o.op, s.data_connection⟩] := by
  cases h with
  | data_sent c ec ho =>
    have hb := back_handle_data_send_callback
      { s with data_ops := s.data_ops.erase ⟨.data_send, c⟩ } ec
    exact ⟨congrArg Back.connection hb, _, ho, Or.inl (congrArg Back.ops hb)⟩
  | data_received c ec received ho =>
    rcases Option.eq_none_or_eq_some s.m_receive_file_stream with hs | ⟨f, hs⟩
    · unfold handle_data_async_receive_callback
      simp only [hs]
      exact ⟨rfl, _, ho, Or.inl rfl⟩
    · have hb := back_handle_data_async_receive_callback env
        { s with
          data_ops := s.data_ops.erase ⟨.data_async_receive, c⟩
          m_receive_buffer := s.m_receive_buffer ++ received } hs ec received.length
      split at hb
      · exact ⟨congrArg Back.connection hb, _, ho, Or.inl (congrArg Back.ops hb)⟩
      · exact ⟨congrArg Back.connection hb, _, ho, Or.inr (congrArg Back.ops hb)⟩
  | data_async_sent c ec ho =>
    rcases Option.eq_none_or_eq_some s.m_send_file_stream with hs | ⟨f, hs⟩
    · unfold handle_data_async_send_callback
      simp only [hs]
      exact ⟨rfl, _, ho, Or.inl rfl⟩
    · have hb := back_handle_data_async_send_callback env
        { s with data_ops := s.data_ops.erase ⟨.data_async_send, c⟩ } hs ec
      split at hb
      · exact ⟨congrArg Back.connection hb, _, ho, Or.inl (congrArg Back.ops hb)⟩
      · exact ⟨congrArg Back.connection hb, _, ho, Or.inr (congrArg Back.ops hb)⟩
  | _ => simp [endsPart] at he

end Session

end asio_ftp.base_session
