-- The two classes of sessions. A TLS session does what a plain one does, in a tunnel: its accept
-- ends with the handshake of the data connection, and its close with the shutdown. Whatever runs a
-- plain session has, a TLS session has them too, with the same replies and the same effects.
import AsioFtp.Startup
import AsioFtp.Transfers

namespace asio_ftp.tunnels

open helpers fs_objects base_session base_session.Session startup

/-! ## The same session in a tunnel -/

/-- What a session wears: its class, and the welcome that it said first. -/
structure Dress where
  session_class : SessionClass
  tls : Bool
  welcome : Bytes

/-- A bare plain session, dressed. -/
def wear (d : Dress) (s : Session) : Session :=
  { s with session_class := d.session_class, tls := d.tls, sent := d.welcome :: s.sent }

/-- The same after an event, which began with the data socket open or not. Where the bare session
closed it, a TLS session still owes the end of the shutdown. -/
def owe (d : Dress) (opened : Bool) (s : Session) : Session :=
  if d.session_class = .secure_session ∧ opened = true ∧ s.data_socket_open = false then
    { wear d s with data_socket_open := true, data_shutdowns := s.data_shutdowns + 1 }
  else wear d s

section
variable (d : Dress)

theorem owe_self {s : Session} {opened : Bool} (h : s.data_socket_open = opened) :
    owe d opened s = wear d s := by
  subst h
  refine if_neg ?_
  rintro ⟨-, h1, h2⟩
  rw [h1] at h2
  cases h2

theorem owe_control_receive (opened : Bool) (s : Session) :
    owe d opened s.control_receive = (owe d opened s).control_receive := by
  unfold owe
  by_cases h : d.session_class = .secure_session ∧ opened = true ∧ s.data_socket_open = false
  · have h' : d.session_class = .secure_session ∧ opened = true ∧
      s.control_receive.data_socket_open = false := h
    rw [if_pos h, if_pos h']
    rfl
  · have h' : ¬ (d.session_class = .secure_session ∧ opened = true ∧
      s.control_receive.data_socket_open = false) := h
    rw [if_neg h, if_neg h']
    rfl

variable (env : Env) {s : Session} (hs : s.session_class = .session)

/-! ## The data channel -/

include hs in
theorem data_close_wear : (wear d s).data_close = owe d s.data_socket_open s.data_close := by
  unfold data_close
  by_cases ho : s.data_socket_open = false
  · have ho' : (wear d s).data_socket_open = false := ho
    rw [if_pos ho, if_pos ho', owe_self d rfl]
  · have ho' : ¬ (wear d s).data_socket_open = false := ho
    rw [if_neg ho, if_neg ho', hs]
    unfold owe
    cases hd : d.session_class with
    | session => simp [wear, hd]
    | secure_session => simp [wear, hd, ho]

theorem data_async_send_wear : (wear d s).data_async_send env = wear d (s.data_async_send env) := by
  unfold data_async_send
  have hf : (wear d s).m_send_file_stream = s.m_send_file_stream := rfl
  rw [hf]
  cases s.m_send_file_stream <;> rfl

theorem open_data_async_send : (s.data_async_send env).data_socket_open = s.data_socket_open := by
  unfold data_async_send
  cases s.m_send_file_stream <;> rfl

include hs in
theorem data_receive_file_wear : (wear d s).data_receive_file env =
    owe d s.data_socket_open (s.data_receive_file env) := by
  unfold data_receive_file
  have ho : (wear d s).receiveOpens env = s.receiveOpens env := rfl
  rw [ho]
  by_cases h : s.receiveOpens env = false
  · rw [if_pos h, if_pos h]
    exact data_close_wear d (s := s.openReceiveFile env) hs
  · rw [if_neg h, if_neg h]
    exact (owe_self d (s := (s.openReceiveFile env).data_async_receive) rfl).symm

include hs in
theorem data_send_file_wear : (wear d s).data_send_file env =
    owe d s.data_socket_open (s.data_send_file env) := by
  unfold data_send_file
  have ho : (wear d s).sendOpens env (wear d s).m_sendable_file_id =
    s.sendOpens env s.m_sendable_file_id := rfl
  rw [ho]
  by_cases h : s.sendOpens env s.m_sendable_file_id = false
  · rw [if_pos h, if_pos h]
    exact data_close_wear d (s := s.openSendFile env) hs
  · rw [if_neg h, if_neg h]
    have hopen : ((s.openSendFile env).data_async_send env).data_socket_open = s.data_socket_open :=
      open_data_async_send env
    rw [owe_self d hopen]
    exact data_async_send_wear d env (s := s.openSendFile env)

include hs in
theorem takeUpWork_wear :
    (wear d s).takeUpWork env = owe d s.data_socket_open (s.takeUpWork env) := by
  unfold takeUpWork
  by_cases h1 : s.m_pending_directory_list ≠ []
  · have h1' : (wear d s).m_pending_directory_list ≠ [] := h1
    rw [if_pos h1, if_pos h1']
    exact (owe_self d (s := s.data_directory_listing) rfl).symm
  have h1' : ¬ (wear d s).m_pending_directory_list ≠ [] := h1
  rw [if_neg h1, if_neg h1']
  by_cases h2 : s.m_pending_write_file ≠ []
  · have h2' : (wear d s).m_pending_write_file ≠ [] := h2
    rw [if_pos h2, if_pos h2']
    exact data_receive_file_wear d env hs
  have h2' : ¬ (wear d s).m_pending_write_file ≠ [] := h2
  rw [if_neg h2, if_neg h2']
  by_cases h3 : s.m_sendable_file_id ≠ []
  · have h3' : (wear d s).m_sendable_file_id ≠ [] := h3
    rw [if_pos h3, if_pos h3']
    exact data_send_file_wear d env hs
  · have h3' : ¬ (wear d s).m_sendable_file_id ≠ [] := h3
    rw [if_neg h3, if_neg h3', owe_self d rfl]

include hs in
theorem handle_data_send_callback_wear (ec : ErrorCode) : (wear d s).handle_data_send_callback ec =
    owe d s.data_socket_open (s.handle_data_send_callback ec) := by
  unfold handle_data_send_callback
  by_cases h : ec ≠ .success
  · rw [if_pos h, if_pos h, owe_self d rfl]
  · rw [if_neg h, if_neg h]
    exact data_close_wear d (s := { s with
      m_pending_directory_list := []
      m_pending_directory_list_all := false }.control_send (lit "226 Transferred.")) hs

theorem absorb_wear (f : OFStream) (n : Nat) :
    (wear d s).absorb env f n = wear d (s.absorb env f n) := by
  unfold absorb
  by_cases h : n > 0
  · simp only [h, if_true]
    rfl
  · simp only [h, if_false]
    rfl

theorem open_absorb (f : OFStream) (n : Nat) : (s.absorb env f n).session_class = s.session_class ∧
    (s.absorb env f n).data_socket_open = s.data_socket_open := by
  obtain ⟨_, _, _, _, h⟩ := s.absorb_eq env f n
  rw [h]
  exact ⟨rfl, rfl⟩

include hs in
theorem data_async_receive_end_wear : (wear d s).data_async_receive_end env =
    owe d s.data_socket_open (s.data_async_receive_end env) := by
  unfold data_async_receive_end
  have hf : (wear d s).m_receive_file_stream = s.m_receive_file_stream := rfl
  rw [hf]
  cases s.m_receive_file_stream with
  | none => exact (owe_self d (s := s.crash) rfl).symm
  | some f =>
    exact data_close_wear d (s := { s with
      m_receive_file_stream := none
      m_fs_objects_table := (update_object_size (closeBlob env s.m_fs_objects_table f) env.now
        s.m_userid s.m_receive_file_name s.m_receive_file_path s.m_received_file_size).1
      m_pending_write_file := [] }.control_send (lit "226 Received.")) hs

include hs in
theorem handle_data_async_receive_callback_wear (ec : ErrorCode) (n : Nat) :
    (wear d s).handle_data_async_receive_callback env ec n =
      owe d s.data_socket_open (s.handle_data_async_receive_callback env ec n) := by
  have hf : (wear d s).m_receive_file_stream = s.m_receive_file_stream := rfl
  cases hstream : s.m_receive_file_stream with
  | none =>
    unfold handle_data_async_receive_callback
    rw [hf, hstream]
    exact (owe_self d (s := s.crash) rfl).symm
  | some f =>
    obtain ⟨hclass, hopen⟩ := open_absorb env (s := s) f n
    have hends : (wear d s).receiveEnds env ec n = s.receiveEnds env ec n := rfl
    rw [handle_data_async_receive_callback_eq env s hstream,
      handle_data_async_receive_callback_eq env (wear d s) (hf.trans hstream), hends, absorb_wear]
    by_cases h : s.receiveEnds env ec n = true
    · rw [if_pos h, if_pos h, data_async_receive_end_wear d env (hclass.trans hs), hopen]
    · rw [if_neg h, if_neg h]
      exact (owe_self d (s := (s.absorb env f n).data_async_receive) hopen).symm

include hs in
theorem data_async_send_end_wear : (wear d s).data_async_send_end =
    owe d s.data_socket_open s.data_async_send_end := by
  unfold data_async_send_end
  have hf : (wear d s).m_send_file_stream = s.m_send_file_stream := rfl
  rw [hf]
  cases s.m_send_file_stream with
  | none => exact (owe_self d (s := s.crash) rfl).symm
  | some f =>
    exact data_close_wear d (s := { s with
      m_send_file_stream := none
      m_sendable_file_id := [] }.control_send (lit "226 Sent.")) hs

include hs in
theorem handle_data_async_send_callback_wear (ec : ErrorCode) :
    (wear d s).handle_data_async_send_callback env ec =
      owe d s.data_socket_open (s.handle_data_async_send_callback env ec) := by
  have hf : (wear d s).m_send_file_stream = s.m_send_file_stream := rfl
  cases hstream : s.m_send_file_stream with
  | none =>
    unfold handle_data_async_send_callback
    rw [hf, hstream]
    exact (owe_self d (s := s.crash) rfl).symm
  | some f =>
    have hends : (wear d s).sendEnds ec = s.sendEnds ec := rfl
    rw [handle_data_async_send_callback_eq env s hstream,
      handle_data_async_send_callback_eq env (wear d s) (hf.trans hstream), hends]
    by_cases h : s.sendEnds ec = true
    · rw [if_pos h, if_pos h, data_async_send_end_wear d hs]
    · rw [if_neg h, if_neg h, owe_self d (open_data_async_send env), data_async_send_wear]

/-! ## The commands -/

theorem handle_USER_wear (argument : Bytes) :
    (wear d s).handle_USER argument = wear d (s.handle_USER argument) := by
  unfold handle_USER
  simp only [apply_ite (wear d)]
  rfl

theorem handle_PASS_wear (argument : Bytes) :
    (wear d s).handle_PASS argument = wear d (s.handle_PASS argument) := by
  unfold handle_PASS
  simp only [apply_ite (wear d)]
  rfl

theorem cwdLoop_wear (object_path : Bytes) (parts : List Bytes) :
    (wear d s).cwdLoop object_path parts = s.cwdLoop object_path parts := by
  fun_induction s.cwdLoop object_path parts with
  | case1 => rfl
  | case2 => rfl
  | case3 object_path part next rest path hid =>
    unfold cwdLoop
    exact if_pos hid
  | case4 object_path part next rest path hid ih =>
    rw [cwdLoop]
    exact (if_neg hid).trans ih

theorem handle_CWD_wear (argument : Bytes) :
    (wear d s).handle_CWD argument = wear d (s.handle_CWD argument) := by
  unfold handle_CWD
  have hstart : (wear d s).cwdStart argument = s.cwdStart argument := rfl
  rw [hstart]
  by_cases h1 : argument = []
  · rw [if_pos h1, if_pos h1]
    rfl
  rw [if_neg h1, if_neg h1]
  by_cases h2 : argument = lit ".."
  · rw [if_pos h2, if_pos h2]
    rfl
  rw [if_neg h2, if_neg h2]
  by_cases h3 : argument = lit "/"
  · rw [if_pos h3, if_pos h3]
    rfl
  rw [if_neg h3, if_neg h3]
  cases (s.cwdStart argument).2 with
  | nil => rfl
  | cons first rest =>
    have hwalk : (wear d s).cwdWalk (s.cwdStart argument).1 first (first :: rest) =
        s.cwdWalk (s.cwdStart argument).1 first (first :: rest) := by
      unfold cwdWalk
      rw [cwdLoop_wear]
      rfl
    simp only [hwalk]
    cases s.cwdWalk (s.cwdStart argument).1 first (first :: rest) <;> rfl

theorem handle_MKD_wear (argument : Bytes) :
    (wear d s).handle_MKD env argument = wear d (s.handle_MKD env argument) := by
  unfold handle_MKD
  rw [apply_ite (wear d)]
  rfl

theorem removeObject_wear (argument : Bytes) (object : Bytes × Bytes) :
    (wear d s).removeObject argument object = wear d (s.removeObject argument object) := by
  unfold removeObject
  rw [apply_ite (wear d)]
  rfl

theorem handle_SIZE_wear (argument : Bytes) :
    (wear d s).handle_SIZE argument = wear d (s.handle_SIZE argument) := by
  unfold handle_SIZE
  simp only [apply_ite (wear d)]
  rfl

theorem handle_OPTS_wear (argument : Bytes) :
    (wear d s).handle_OPTS argument = wear d (s.handle_OPTS argument) := by
  unfold handle_OPTS
  rw [apply_ite (wear d)]
  rfl

theorem run_LIST_wear (argument : Bytes) :
    (wear d s).run_LIST argument = wear d (s.run_LIST argument) := by
  unfold run_LIST run_pending_LIST
  simp only [apply_ite (wear d)]
  rfl

include hs in
theorem run_STOR_wear (argument : Bytes) : (wear d s).run_STOR env argument =
    owe d s.data_socket_open (s.run_STOR env argument) := by
  unfold run_STOR
  by_cases h1 : argument = []
  · rw [if_pos h1, if_pos h1]
    exact (owe_self d (s := s.reply (lit "501 No arguments presented.")) rfl).symm
  rw [if_neg h1, if_neg h1]
  by_cases h2 : s.m_pending_write_file ≠ []
  · rw [if_pos h2, owe_self d rfl]
    exact if_pos h2
  have h2' : ¬ (wear d s).m_pending_write_file ≠ [] := h2
  rw [if_neg h2, if_neg h2']
  unfold run_pending_STOR
  by_cases h3 : (s.set_pending_write argument).ParentMissing
      (s.set_pending_write argument).m_pending_write_file
  · rw [if_pos h3]
    exact (if_pos h3).trans (owe_self d (s := s.set_pending_write argument) rfl).symm
  rw [if_neg h3]
  refine (if_neg h3).trans ?_
  by_cases h4 : s.data_socket_open = true
  · have h4' : (s.set_pending_write argument).data_socket_open = true := h4
    rw [if_pos h4', owe_control_receive]
    refine (if_pos h4).trans (congrArg control_receive ?_)
    exact data_receive_file_wear d env
      (s := (s.set_pending_write argument).control_send (lit "150 Opening connection.")) hs
  · have h4' : ¬ (s.set_pending_write argument).data_socket_open = true := h4
    rw [if_neg h4']
    refine (if_neg h4).trans ?_
    exact (owe_self d (s := ((s.set_pending_write argument).reply
      (lit "150 Waiting for connection")).data_acceptor_start_accept) rfl).symm

theorem parse_RETR_argument_wear (argument : Bytes) :
    (wear d s).parse_RETR_argument argument = wear d (s.parse_RETR_argument argument) := by
  unfold parse_RETR_argument
  simp only [apply_ite (wear d)]
  rfl

include hs in
theorem run_RETR_wear : (wear d s).run_RETR env = owe d s.data_socket_open (s.run_RETR env) := by
  unfold run_RETR
  by_cases h : s.data_socket_open = true
  · have h' : (wear d s).data_socket_open = true := h
    rw [if_pos h, if_pos h', owe_control_receive]
    exact congrArg control_receive (data_send_file_wear d env
      (s := s.control_send (lit "150 Opening connection.")) hs)
  · have h' : ¬ (wear d s).data_socket_open = true := h
    rw [if_neg h, if_neg h']
    exact (owe_self d (s := (s.reply
      (lit "150 Waiting for connection")).data_acceptor_start_accept) rfl).symm

theorem reply_wear (message : Bytes) : (wear d s).reply message = wear d (s.reply message) := rfl

/-- The commands that close no data socket. -/
theorem handle_command_quiet {c : Bytes} (a : Bytes)
    (h : s.m_connection_stage = .LOGGED_IN → c ≠ lit "STOR" ∧ c ≠ lit "RETR") :
    (wear d s).handle_command env c a = wear d (s.handle_command env c a) ∧
      (s.handle_command env c a).data_socket_open = s.data_socket_open := by
  constructor
  · have hstage : (wear d s).m_connection_stage = s.m_connection_stage := rfl
    unfold handle_command
    rw [hstage]
    by_cases hl : s.m_connection_stage = .LOGGED_IN
    · unfold handle_logged_in
      simp only [(h hl).1, (h hl).2, if_false, apply_ite (wear d), ← reply_wear,
        ← handle_USER_wear, ← handle_PASS_wear, ← run_LIST_wear, ← handle_OPTS_wear,
        ← handle_CWD_wear, ← handle_MKD_wear, handle_RMD, handle_DELE, ← removeObject_wear,
        ← handle_SIZE_wear]
      rfl
    · simp only [ne_eq, hl, not_false_eq_true, if_true, apply_ite (wear d), ← reply_wear,
        ← handle_USER_wear, ← handle_PASS_wear]
      rfl
  · have hh := handle_command_handled env s c a
    generalize s.handle_command env c a = t at hh
    cases hh with
    | options =>
      unfold handle_OPTS
      split <;> rfl
    | list => exact congrArg Link.socket_open (s.link_run_LIST a)
    | stor _ hl => exact absurd rfl (h hl).1
    | retr _ hl => exact absurd rfl (h hl).2
    | size =>
      unfold handle_SIZE
      simp only
      split <;> rfl
    | _ => rfl

include hs in
theorem handle_command_wear (c a : Bytes) : (wear d s).handle_command env c a =
    owe d s.data_socket_open (s.handle_command env c a) := by
  by_cases h : s.m_connection_stage = .LOGGED_IN → c ≠ lit "STOR" ∧ c ≠ lit "RETR"
  · obtain ⟨hwear, hopen⟩ := handle_command_quiet d env a h
    rw [hwear, owe_self d hopen]
  obtain ⟨hstage, h⟩ := Classical.not_imp.mp h
  obtain ⟨-, hstor, hretr⟩ := handle_command_of_transfer env s a hstage
  obtain ⟨-, hstor', hretr'⟩ := handle_command_of_transfer env (wear d s) a hstage
  by_cases hc : c = lit "STOR"
  · subst hc
    rw [hstor, hstor', run_STOR_wear d env hs]
  · obtain rfl : c = lit "RETR" := not_not.mp fun hne => h ⟨hc, hne⟩
    obtain ⟨_, _, _, _, heq⟩ := s.parse_RETR_argument_eq a
    have hclass : (s.parse_RETR_argument a).session_class = .session := by
      rw [heq]
      exact hs
    have hopen : (s.parse_RETR_argument a).data_socket_open = s.data_socket_open := by rw [heq]
    rw [hretr, hretr', parse_RETR_argument_wear, run_RETR_wear d env hclass, hopen]

end

/-! ## A plain session -/

/-- A plain session makes no handshakes and no shutdowns. -/
structure Plain (s : Session) : Prop where
  session_class : s.session_class = .session
  idle : s.timer_waits = 0 ∧ s.probe_reads = 0 ∧ s.control_handshakes = []
  handshakes : s.data_handshakes = 0
  shutdowns : s.data_shutdowns = 0

theorem plain_step {s s' : Session} {env : Env} {e : Event} (h : Plain s)
    (hs : Stepped env s e s') : Plain s' := by
  have hup : startsUp e = false := by
    cases hs with
    | timer lap available hw => exact absurd h.idle.1 hw
    | probe_received ec received hr => exact absurd h.idle.2.1 hr
    | handshaken ec i hi =>
      rw [h.idle.2.2] at hi
      cases hi
    | _ => rfl
  obtain ⟨h1, h2, h3⟩ := starting_step hs hup
  have hevent : (s.link.event e).session_class = .session ∧ (s.link.event e).handshakes = 0 ∧
      (s.link.event e).shutdowns = 0 := by
    obtain ⟨hclass, -, hhand, hshut⟩ := h
    cases e with
    | accepted ec => cases ec <;> simp [Link.event, Session.link, hclass, hhand, hshut]
    | handshaken ec i => cases ec <;> exact ⟨hclass, hhand, hshut⟩
    | _ => simp [Link.event, Session.link, hclass, hhand, hshut]
  have hclose : (s.link.event e).close.session_class = .session ∧
      (s.link.event e).close.handshakes = 0 ∧ (s.link.event e).close.shutdowns = 0 := by
    unfold Link.close
    by_cases ho : (s.link.event e).socket_open = false
    · rw [if_pos ho]
      exact hevent
    · rw [if_neg ho, hevent.1]
      exact ⟨rfl, hevent.2⟩
  have hlink : s'.link.session_class = .session ∧ s'.link.handshakes = 0 ∧
      s'.link.shutdowns = 0 := by
    rcases hs.link with hl | hl
    · rw [hl]
      exact hevent
    · rw [hl]
      exact hclose
  exact ⟨hlink.1, ⟨h1.trans h.idle.1, h2.trans h.idle.2.1, h3.trans h.idle.2.2⟩, hlink.2.1,
    hlink.2.2⟩

/-! ## One event -/

theorem guarded (d : Dress) {c : Prop} [Decidable c] {t t' : Session} {opened : Bool}
    (h : t' = owe d opened t) : (if c then none else some t') =
      (if c then none else some t).map (owe d opened) := by
  subst h
  by_cases hc : c
  · rw [if_pos hc, if_pos hc]
    rfl
  · rw [if_neg hc, if_neg hc]
    rfl

theorem refused (d : Dress) {c : Prop} [Decidable c] {x x' : Option Session} {opened : Bool}
    (h : c) : (if c then none else x') = (if c then none else x).map (owe d opened) := by
  rw [if_pos h, if_pos h]
  rfl

section
variable (d : Dress) {s : Session} (h : Plain s) (env : Env)

theorem finish_wear (o : Outstanding) {F : Session → Session}
    (hF : ∀ t : Session, t = { s with data_ops := s.data_ops.erase o } →
      F (wear d t) = owe d s.data_socket_open (F t)) :
    ((wear d s).finish o).map F = ((s.finish o).map F).map (owe d s.data_socket_open) := by
  unfold finish
  by_cases ho : o ∈ s.data_ops
  · have ho' : o ∈ (wear d s).data_ops := ho
    rw [if_pos ho, if_pos ho']
    exact congrArg some (hF { s with data_ops := s.data_ops.erase o } rfl)
  · have ho' : o ∉ (wear d s).data_ops := ho
    rw [if_neg ho, if_neg ho']
    rfl

include h

/-- In its dress, a plain session takes every event but a new connection as it does without. -/
theorem step_wear {e : Event} (he : replaces e = false) : (wear d s).step (env, e) =
    (s.step (env, e)).map (owe d s.data_socket_open) := by
  have hs := h.session_class
  unfold step
  by_cases hc : s.crashed = true
  · have hc' : (wear d s).crashed = true := hc
    simp only [if_pos hc, if_pos hc', Option.map_none]
  have hc' : ¬ (wear d s).crashed = true := hc
  simp only [if_neg hc, if_neg hc']
  cases e with
  | control_sent ec =>
    exact guarded d (owe_self d (s := { s with control_writes := s.control_writes - 1 }) rfl).symm
  | control_received ec received =>
    exact guarded d (handle_command_wear d env
      (s := { s with control_reads := s.control_reads - 1 }) hs _ _)
  | accepted ec =>
    have hec : ec ≠ .success := by
      rintro rfl
      cases he
    simp only [handle_accept, if_pos hec]
    exact guarded d (owe_self d (s := { s with accepts := s.accepts - 1 }) rfl).symm
  | data_handshaken ec => exact refused d h.handshakes
  | data_sent c ec =>
    refine finish_wear d _ fun t ht => ?_
    subst ht
    exact handle_data_send_callback_wear d (s := { s with data_ops := s.data_ops.erase _ }) hs ec
  | data_received c ec received =>
    by_cases hlen : (s.m_receive_buffer ++ received).length > RECEIVE_BUFFER_SIZE
    · exact refused d hlen
    refine (if_neg hlen).trans (Eq.trans ?_ (congrArg (Option.map _) (if_neg hlen)).symm)
    refine finish_wear d _ fun t ht => ?_
    subst ht
    exact handle_data_async_receive_callback_wear d env
      (s := { s with
        data_ops := s.data_ops.erase _
        m_receive_buffer := s.m_receive_buffer ++ received }) hs ec received.length
  | data_async_sent c ec =>
    refine finish_wear d _ fun t ht => ?_
    subst ht
    exact handle_data_async_send_callback_wear d env
      (s := { s with data_ops := s.data_ops.erase _ }) hs ec
  | data_shutdown => exact refused d h.shutdowns
  | timer lap available => exact refused d h.idle.1
  | probe_sent ec =>
    exact guarded d (owe_self d (s := { s with probe_writes := s.probe_writes - 1 }) rfl).symm
  | probe_received ec received => exact refused d (Or.inl h.idle.2.1)
  | handshaken ec i =>
    have hno : i ∉ s.control_handshakes := by
      rw [h.idle.2.2]
      exact List.not_mem_nil
    refine (if_neg hno).trans (Eq.trans ?_ (congrArg (Option.map _) (if_neg hno)).symm)
    rfl
  | elsewhere store =>
    have hopen : { s with m_fs_objects_table := store }.data_socket_open = s.data_socket_open := rfl
    exact congrArg some (owe_self d hopen).symm

/-- A new connection: where the bare session takes up its work, so does the plain one in its dress,
and the TLS one once its handshake succeeded. -/
theorem accepted_wear {s' : Session} (hstep : s.step (env, .accepted .success) = some s') :
    runs.run Session.step (wear d s) (if d.session_class = .session then
      [(env, .accepted .success)]
      else [(env, .accepted .success), (env, .data_handshaken .success)]) =
      some (owe d true s') := by
  obtain ⟨hc, hst⟩ := step_stepped hstep
  cases hst with
  | accepted _ ha =>
    let t : Session := { s with
      accepts := s.accepts - 1
      data_socket_open := true
      data_connection := s.data_connection + 1 }
    have hwork : { s with accepts := s.accepts - 1 }.handle_accept env .success =
        t.takeUpWork env := by
      simp only [handle_accept_success, h.session_class, if_true, t]
    have hwear : (wear d t).takeUpWork env = owe d true (t.takeUpWork env) :=
      takeUpWork_wear d env (s := t) h.session_class
    have hc' : ¬ s.crashed = true := by simp [hc]
    have hno : ¬ s.data_handshakes + 1 = 0 := Nat.succ_ne_zero _
    rw [hwork, ← hwear]
    cases hd : d.session_class with
    | session =>
      have hfirst : (wear d s).step (env, .accepted .success) =
          some ((wear d t).takeUpWork env) := by
        refine (if_neg hc').trans ((if_neg ha).trans (congrArg some ?_))
        exact (handle_accept_success env _).trans (if_pos hd)
      rw [if_pos rfl, runs.run, hfirst]
      rfl
    | secure_session =>
      have hfirst : (wear d s).step (env, .accepted .success) =
          some { wear d t with data_handshakes := s.data_handshakes + 1 } := by
        refine (if_neg hc').trans ((if_neg ha).trans (congrArg some ?_))
        refine (handle_accept_success env _).trans (if_neg ?_)
        intro hclass
        cases hd.symm.trans hclass
      have hsecond : { wear d t with data_handshakes := s.data_handshakes + 1 }.step
          (env, .data_handshaken .success) = some ((wear d t).takeUpWork env) :=
        (if_neg hc').trans (if_neg hno)
      rw [if_neg (by simp), runs.run, hfirst, Option.bind_some, runs.run, hsecond]
      rfl

end

/-! ## The tunnel -/

/-- The data socket was open once the event came. -/
def openedBy (s : Session) (e : Event) : Bool := s.data_socket_open || replaces e

/-- The events of a TLS session for one of a plain session: the handshake of a new connection, and
the shutdown of one that the plain session closed, come with it. -/
def tunnelled (s : Session) (e : Env × Event) (s' : Session) : List (Env × Event) :=
  e :: (if replaces e.2 = true then [(e.1, .data_handshaken .success)] else []) ++
    if openedBy s e.2 = true ∧ s'.data_socket_open = false then [(e.1, .data_shutdown)] else []

/-- The events that a plain session has too. -/
def outside (e : Env × Event) : Bool :=
  match e.2 with
  | .data_handshaken _ => false
  | .data_shutdown => false
  | _ => true

/-- A session that closed its data socket did not crash. -/
theorem crashed_of_closed {s s' : Session} {env : Env} {e : Event} (hs : Stepped env s e s')
    (hc : s.crashed = false) (ho : openedBy s e = true) (hclosed : s'.data_socket_open = false) :
    s'.crashed = false := by
  by_cases he : endsPart e = true
  · have kept : s'.data_socket_open = s.data_socket_open → s'.crashed = false := by
      intro hkept
      have hr : replaces e = false := by cases e <;> first | rfl | cases he
      rw [openedBy, hr, Bool.or_false, ← hkept, hclosed] at ho
      cases ho
    cases hs with
    | data_sent c ec =>
      exact (congrArg Back.crashed (back_handle_data_send_callback _ ec)).trans hc
    | data_received c ec received =>
      rcases Option.eq_none_or_eq_some s.m_receive_file_stream with hf | ⟨f, hf⟩
      · refine kept ?_
        unfold handle_data_async_receive_callback
        simp only [hf]
        rfl
      · refine (congrArg Back.crashed (back_handle_data_async_receive_callback env
          { s with
            data_ops := s.data_ops.erase ⟨.data_async_receive, c⟩
            m_receive_buffer := s.m_receive_buffer ++ received } hf ec received.length)).trans ?_
        split <;> exact hc
    | data_async_sent c ec =>
      rcases Option.eq_none_or_eq_some s.m_send_file_stream with hf | ⟨f, hf⟩
      · refine kept ?_
        unfold handle_data_async_send_callback
        simp only [hf]
        rfl
      · refine (congrArg Back.crashed (back_handle_data_async_send_callback env
          { s with data_ops := s.data_ops.erase ⟨.data_async_send, c⟩ } hf ec)).trans ?_
        split <;> exact hc
    | _ => cases he
  · exact (hs.started (by simpa using he)).crashed.trans hc

/-- The shutdown ends what a TLS session owes. -/
theorem step_owed {d : Dress} {s : Session} {opened : Bool} (env : Env)
    (hd : d.session_class = .secure_session)
    (hc : opened = true → s.data_socket_open = false → s.crashed = false) :
    runs.run Session.step (owe d opened s)
      (if opened = true ∧ s.data_socket_open = false then [(env, .data_shutdown)] else []) =
      some (wear d s) := by
  unfold owe
  by_cases h : opened = true ∧ s.data_socket_open = false
  · have hcrash : ¬ s.crashed = true := by simp [hc h.1 h.2]
    have hno : ¬ s.data_shutdowns + 1 = 0 := Nat.succ_ne_zero _
    have hstep : { wear d s with
        data_socket_open := true
        data_shutdowns := s.data_shutdowns + 1 }.step (env, .data_shutdown) =
        some { wear d s with data_socket_open := false } :=
      (if_neg hcrash).trans (if_neg hno)
    rw [if_pos h, if_pos ⟨hd, h⟩, runs.run, hstep, ← h.2]
    rfl
  · rw [if_neg h, if_neg fun h' => h h'.2]
    rfl

theorem eq_accepted {e : Event} (hr : replaces e = true) : e = .accepted .success := by
  cases e with
  | accepted ec => cases ec <;> first | rfl | cases hr
  | _ => cases hr

/-- For each event of a plain session, the same session in a tunnel gets to the same place. -/
theorem tunnelled_step {d : Dress} (hd : d.session_class = .secure_session) {s s' : Session}
    {env : Env} {e : Event} (h : Plain s) (hstep : s.step (env, e) = some s') :
    runs.run Session.step (wear d s) (tunnelled s (env, e) s') = some (wear d s') := by
  obtain ⟨hc, hst⟩ := step_stepped hstep
  have hend := step_owed env hd (crashed_of_closed hst hc)
  unfold tunnelled
  rw [runs.run_append, ← hend]
  by_cases hr : replaces e = true
  · obtain rfl := eq_accepted hr
    have hnew := accepted_wear d h env hstep
    have hopen : openedBy s (.accepted .success) = true := Bool.or_true _
    rw [if_neg (by simp [hd])] at hnew
    rw [if_pos hr, hnew, hopen]
    rfl
  · have hopen : openedBy s e = s.data_socket_open := by simp [openedBy, hr]
    have hsame : (wear d s).step (env, e) = some (owe d s.data_socket_open s') := by
      rw [step_wear d h env (by simpa using hr), hstep]
      rfl
    rw [if_neg hr, runs.run, hsame, hopen]
    rfl

/-- In the dress of its own class, a plain session takes each event as it does without. -/
theorem plain_wear {d : Dress} (hd : d.session_class = .session) {s : Session} {env : Env}
    {e : Event} (h : Plain s) : (wear d s).step (env, e) = (s.step (env, e)).map (wear d) := by
  have howe : ∀ opened, owe d opened = wear d := by
    intro opened
    funext t
    exact if_neg fun h' => absurd (hd.symm.trans h'.1) (by simp)
  by_cases hr : replaces e = true
  · obtain rfl := eq_accepted hr
    by_cases hc : s.crashed = true
    · have hnone : s.step (env, .accepted .success) = none := if_pos hc
      rw [hnone]
      exact if_pos hc
    by_cases ha : s.accepts = 0
    · have hnone : s.step (env, .accepted .success) = none := (if_neg hc).trans (if_pos ha)
      rw [hnone]
      exact (if_neg hc).trans (if_pos ha)
    · have hstep : s.step (env, .accepted .success) =
          some ({ s with accepts := s.accepts - 1 }.handle_accept env .success) :=
        (if_neg hc).trans (if_neg ha)
      have hnew := accepted_wear d h env hstep
      rw [if_pos hd, howe, runs.run_cons] at hnew
      obtain ⟨t, ht, hrun⟩ := hnew
      rw [hstep, ht]
      exact hrun
  · rw [step_wear d h env (by simpa using hr), howe]

/-- A plain session answers every event of its class. -/
theorem outside_of_plain {s s' : Session} {env : Env} {e : Event} (h : Plain s)
    (hst : Stepped env s e s') : (tunnelled s (env, e) s').filter outside = [(env, e)] := by
  have he : outside (env, e) = true := by
    cases hst with
    | data_handshaken ec hh => exact absurd h.handshakes hh
    | data_shutdown hh => exact absurd h.shutdowns hh
    | _ => rfl
  have hmore : ∀ more : List (Env × Event), more.filter outside = [] →
      ((env, e) :: more).filter outside = [(env, e)] := by
    intro more hm
    rw [List.filter_cons_of_pos he, hm]
  refine hmore _ ?_
  split <;> split <;> rfl

/-! ## The runs -/

/-- The session of a plain client, and that of a client that began with its handshake. -/
def plainDress : Dress where
  session_class := .session
  tls := false
  welcome := lit "220 Welcome. This connection is not secure" ++ crlf

def tlsDress : Dress where
  session_class := .secure_session
  tls := true
  welcome := startup.welcome

/-- A plain session and the same one in a tunnel. -/
def Tunnel (s t : Session) : Prop := ∃ b, Plain b ∧ s = wear plainDress b ∧ t = wear tlsDress b

theorem tunnel_step (s : Session) (e : Env × Event) (s' t : Session) (h : Tunnel s t)
    (hstep : s.step e = some s') :
    ∃ t', runs.run Session.step t (tunnelled s e s') = some t' ∧ Tunnel s' t' := by
  obtain ⟨b, hb, rfl, rfl⟩ := h
  rw [plain_wear rfl hb, Option.map_eq_some_iff] at hstep
  obtain ⟨b', hstep, rfl⟩ := hstep
  refine ⟨wear tlsDress b', tunnelled_step rfl hb hstep, b', ?_, rfl, rfl⟩
  exact plain_step hb (step_stepped hstep).2

/-- What a plain client and a plain session do in a run, a TLS client that begins with its handshake
and a TLS session can do too, with the same commands, connections and bytes in the same order: all
that comes besides are the handshakes and the shutdowns of its data connections. The replies after
the welcome, the store and all that the session keeps end up the same. -/
theorem a_tls_session_does_what_a_plain_one_does (users : users.Table) (store : Store)
    (lap available : Nat) (hlap : lap ≤ IMPLICIT_TIMEOUT_MS) (havailable : 100 < available)
    (env : Env) {es : List (Env × Event)} {s : Session}
    (h : runs.run Session.step (begun .session users store lap available) es = some s) :
    let inside := runs.follow Session.step tunnelled (begun .session users store lap available) es
    inside.filter outside = es ∧
      runs.run Session.step (begun .secure_session users store lap available)
        ((env, .handshaken .success true) :: inside) =
        some { s with
          session_class := .secure_session
          tls := true
          sent := startup.welcome :: s.sent.tail } := by
  intro inside
  let b : Session := { Session.fresh .session users store with
    control_reads := 1
    control_writes := 1 }
  have hb : Plain b := ⟨rfl, ⟨rfl, rfl, rfl⟩, rfl, rfl⟩
  have hbegun : begun .session users store lap available = wear plainDress b := rfl
  have hhello : (begun .secure_session users store lap available).step
      (env, .handshaken .success true) = some (wear tlsDress b) := by
    have hwait : begun .secure_session users store lap available =
        (Session.fresh .secure_session users store).start_secure true :=
      (if_neg (Nat.not_lt.mpr hlap)).trans (if_pos havailable)
    rw [hwait]
    rfl
  constructor
  · have hplain : Plain (begun .session users store lap available) :=
      ⟨rfl, ⟨rfl, rfl, rfl⟩, rfl, rfl⟩
    refine runs.filter_follow (J := Plain) (fun s e s' hs hstep => ?_) hplain h
    have hst := (step_stepped hstep).2
    exact ⟨plain_step hs hst, outside_of_plain hs hst⟩
  · obtain ⟨t, ht, b', -, rfl, rfl⟩ := runs.run_follow (R := Tunnel) tunnel_step
      ⟨b, hb, hbegun, rfl⟩ h
    rw [runs.run, hhello, Option.bind_some]
    exact ht

/-- An upload of ann over TLS, as she makes it without. -/
theorem an_upload_goes_through_the_tunnel :
    let upload := [clientLine "USER ann", clientLine "PASS pw1", clientLine "STOR f",
      (Env.working 3, .accepted .success), (Env.working 0, .data_received 1 .eof (lit "x"))]
    let inside := runs.follow Session.step tunnelled
      (begun .session users.Table.annAndBob Store.empty 20 300) upload
    inside.filter outside = upload ∧
      (runs.run Session.step (begun .secure_session users.Table.annAndBob Store.empty 20 300)
        ((Env.working 0, .handshaken .success true) :: inside)).map (·.sent.tail) =
      (runs.run Session.step (begun .session users.Table.annAndBob Store.empty 20 300)
        upload).map (·.sent.tail) := by
  intro upload inside
  have hsome : (runs.run Session.step (begun .session users.Table.annAndBob Store.empty 20 300)
    upload).isSome = true := by decide
  obtain ⟨h1, h2⟩ := a_tls_session_does_what_a_plain_one_does users.Table.annAndBob Store.empty
    20 300 (by decide) (by decide) (Env.working 0) (Option.some_get hsome).symm
  refine ⟨h1, (congrArg (Option.map (·.sent.tail)) h2).trans ?_⟩
  exact congrArg (Option.map (·.sent.tail)) (Option.some_get hsome)

end asio_ftp.tunnels
