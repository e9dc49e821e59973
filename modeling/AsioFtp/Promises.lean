-- The promises of a session. A reply 150 promises a transfer, and a reply 226 says that one is over. In
-- between a transfer waits for a connection or has a part of itself outstanding, until it ends or is
-- dropped.
import AsioFtp.Replies
import AsioFtp.Vocabulary

namespace asio_ftp.promises

open base_session base_session.Session vocabulary

/-! ## The account of a session -/

/-- The transfers that a session promised. -/
def promised (s : Session) : Nat := s.sent.countP fun m => decide (code m = lit "150")

/-- The transfers that it said to be over. -/
def completed (s : Session) : Nat := s.sent.countP fun m => decide (code m = lit "226")

/-- What transfers wait for: accepts, data handshakes, and the parts that are under way. -/
def outstanding (s : Session) : Nat := s.accepts + s.data_handshakes + s.data_ops.length

/-- The command is answered by a 150. -/
def Promises (s : Session) (command argument : Bytes) : Prop :=
  s.m_connection_stage = .LOGGED_IN ∧
    (command = lit "LIST" ∧ s.m_pending_directory_list = [] ∨
      command = lit "STOR" ∧ argument ≠ [] ∧ s.m_pending_write_file = [] ∧
        ¬ s.ParentMissing (s.write_file_of_STOR argument) ∨
      command = lit "RETR")

instance (s : Session) (c a : Bytes) : Decidable (Promises s c a) :=
  inferInstanceAs (Decidable (_ ∧ _))

/-- A command that promises a transfer finds the data socket open, and starts none. -/
def DropsLate (env : Env) (s : Session) (command argument : Bytes) : Prop :=
  Promises s command argument ∧ s.data_socket_open = true ∧ s.startedLate env command argument = none

instance (env : Env) (s : Session) (c a : Bytes) : Decidable (DropsLate env s c a) :=
  inferInstanceAs (Decidable (_ ∧ _))

/-- The events that drop a transfer: a late command whose file does not open, a connection or a
handshake that fails or finds nothing that it can do, a listing whose write fails, and a part of a
transfer whose stream is gone. -/
def Drops (env : Env) (s : Session) : Event → Prop
  | .control_received ec received =>
    DropsLate env s (handle_control_receive_callback ec received).1
      (handle_control_receive_callback ec received).2
  | .accepted ec => ec ≠ .success ∨ s.session_class = .session ∧ s.pickedUp env = none
  | .data_handshaken ec => ec ≠ .success ∨ s.pickedUp env = none
  | .data_sent _ ec => ec ≠ .success
  | .data_received .. => s.m_receive_file_stream = none
  | .data_async_sent .. => s.m_send_file_stream = none
  | _ => False

instance (env : Env) (s : Session) : (e : Event) → Decidable (Drops env s e)
  | .control_received .. => inferInstanceAs (Decidable (DropsLate ..))
  | .accepted _ => inferInstanceAs (Decidable (_ ∨ _))
  | .data_handshaken _ => inferInstanceAs (Decidable (_ ∨ _))
  | .data_sent _ _ => inferInstanceAs (Decidable (_ ≠ _))
  | .data_received .. => inferInstanceAs (Decidable (_ = _))
  | .data_async_sent .. => inferInstanceAs (Decidable (_ = _))
  | .control_sent _ | .data_shutdown | .timer _ _ | .probe_sent _ | .probe_received _ _
  | .handshaken _ _ | .elsewhere _ => instDecidableFalse

/-- One event of a session whose dropped transfers are counted. -/
def tallied (x : Session × Nat) (e : Env × Event) : Option (Session × Nat) :=
  (x.1.step e).map fun s' => (s', x.2 + if Drops e.1 x.1 e.2 then 1 else 0)

/-- Each transfer that was promised is over, or is outstanding, or was dropped. -/
def Accounted (_ : Session × Nat) (_ : Env × Event) (x : Session × Nat) : Prop :=
  promised x.1 = completed x.1 + outstanding x.1 + x.2

/-! ## What each call does to the account -/

/-- The transfers that are promised, and neither over nor outstanding. -/
def balance (s : Session) : Int := promised s - completed s - outstanding s

/-- What a message adds to the account. -/
def worth (m : Bytes) : Int :=
  (if code m = lit "150" then 1 else 0) - (if code m = lit "226" then 1 else 0)

theorem balance_of_message {s t : Session} {m : Bytes} (h : t.sent = s.sent ++ [m])
    (ho : outstanding t = outstanding s) : balance t = balance s + worth m := by
  have hcount : ∀ c : Bytes, ((t.sent.countP fun m => decide (code m = c) : Nat) : Int) =
      (s.sent.countP fun m => decide (code m = c) : Nat) + if code m = c then 1 else 0 := by
    intro c
    rw [h, List.countP_append, List.countP_singleton]
    push_cast
    simp
  unfold balance worth promised completed
  rw [hcount, hcount, ho]
  omega

/-- A session that said nothing of a transfer, and whose operations are the same in number. -/
theorem balance_of_silence {s t : Session} (h : Says (fun m => worth (m ++ crlf) = 0) s t)
    (ho : outstanding t = outstanding s) : balance t = balance s := by
  obtain ⟨messages, ht, hm⟩ := h.messages
  have hcount : ∀ c : Bytes, (∀ m ∈ messages, code (m ++ crlf) ≠ c) →
      t.sent.countP (fun m => decide (code m = c)) = s.sent.countP fun m => decide (code m = c) := by
    intro c hc
    rw [ht, List.countP_append, List.countP_map, Nat.add_eq_left, List.countP_eq_zero]
    intro m hmem
    simpa using hc m hmem
  have hcodes : ∀ m ∈ messages, code (m ++ crlf) ≠ lit "150" ∧ code (m ++ crlf) ≠ lit "226" := by
    intro m hmem
    have hworth := hm m hmem
    have hne : lit "150" ≠ lit "226" := by decide
    unfold worth at hworth
    constructor
    · intro h
      rw [h, if_pos rfl, if_neg hne] at hworth
      cases hworth
    · intro h
      rw [h, if_neg hne.symm, if_pos rfl] at hworth
      cases hworth
  unfold balance promised completed
  rw [hcount _ fun m hmem => (hcodes m hmem).1, hcount _ fun m hmem => (hcodes m hmem).2, ho]

section
variable (env : Env) (s : Session)

@[simp] theorem balance_control_send (m : Bytes) :
    balance (s.control_send m) = balance s + worth (m ++ crlf) :=
  balance_of_message rfl rfl

@[simp] theorem balance_control_receive : balance s.control_receive = balance s := rfl

@[simp] theorem balance_reply (m : Bytes) : balance (s.reply m) = balance s + worth (m ++ crlf) :=
  balance_control_send s m

@[simp] theorem balance_start_accept : balance s.data_acceptor_start_accept = balance s - 1 := by
  have ho : outstanding s.data_acceptor_start_accept = outstanding s + 1 := by
    show s.accepts + 1 + s.data_handshakes + s.data_ops.length = outstanding s + 1
    unfold outstanding
    omega
  unfold balance
  rw [ho]
  show (promised s : Int) - completed s - ((outstanding s + 1 : Nat) : Int) = _
  omega

@[simp] theorem balance_start (op : DataOp) : balance (s.start op) = balance s - 1 := by
  have ho : outstanding (s.start op) = outstanding s + 1 := by
    show s.accepts + s.data_handshakes + (s.data_ops ++ [_]).length = outstanding s + 1
    rw [List.length_append]
    exact (Nat.add_assoc ..).symm
  unfold balance
  rw [ho]
  show (promised s : Int) - completed s - ((outstanding s + 1 : Nat) : Int) = _
  omega

@[simp] theorem balance_data_close : balance s.data_close = balance s := by
  obtain ⟨o, n, h⟩ := s.data_close_eq
  rw [h]
  rfl

@[simp] theorem balance_data_directory_listing : balance s.data_directory_listing = balance s - 1 :=
  balance_start _ .data_send

@[simp] theorem balance_data_receive_file : balance (s.data_receive_file env) =
    balance s - if s.receiveOpens env = true then 1 else 0 := by
  unfold data_receive_file
  cases s.receiveOpens env
  · rw [if_pos rfl, if_neg (by simp), balance_data_close]
    exact (Int.sub_zero _).symm
  · rw [if_neg (by simp), if_pos rfl]
    exact balance_start _ .data_async_receive

theorem balance_data_async_send {f : IFStream} (h : s.m_send_file_stream = some f) :
    balance (s.data_async_send env) = balance s - 1 := by
  unfold data_async_send
  rw [h]
  exact balance_start _ .data_async_send

@[simp] theorem balance_data_send_file : balance (s.data_send_file env) =
    balance s - if s.sendOpens env s.m_sendable_file_id = true then 1 else 0 := by
  unfold data_send_file
  cases s.sendOpens env s.m_sendable_file_id
  · rw [if_pos rfl, if_neg (by simp), balance_data_close]
    exact (Int.sub_zero _).symm
  · rw [if_neg (by simp), if_pos rfl]
    exact balance_data_async_send env _ rfl

theorem balance_takeUpWork : balance (s.takeUpWork env) =
    balance s - if s.pickedUp env = none then 0 else 1 := by
  unfold takeUpWork pickedUp
  split
  · simp
  · split
    · rw [balance_data_receive_file]
      cases s.receiveOpens env <;> simp
    · split
      · rw [balance_data_send_file]
        cases s.sendOpens env s.m_sendable_file_id <;> simp
      · simp

end

/-! ## The callbacks -/

section
variable (env : Env) (s : Session)

theorem balance_handle_accept (ec : ErrorCode) (h : s.accepts ≠ 0) :
    balance ({ s with accepts := s.accepts - 1 }.handle_accept env ec) =
      balance s + if Drops env s (.accepted ec) then 1 else 0 := by
  have hpart : balance { s with accepts := s.accepts - 1 } = balance s + 1 := by
    show (promised s : Int) - completed s -
      ((s.accepts - 1 + s.data_handshakes + s.data_ops.length : Nat) : Int) = balance s + 1
    unfold balance outstanding
    omega
  by_cases hec : ec = .success
  · subst hec
    have hdrops : Drops env s (.accepted .success) ↔
        s.session_class = .session ∧ s.pickedUp env = none :=
      or_iff_right (not_not.mpr rfl)
    rw [handle_accept_success, if_congr hdrops rfl rfl]
    by_cases hc : s.session_class = .session
    · rw [if_pos hc]
      have htake := balance_takeUpWork env { s with
        accepts := s.accepts - 1
        data_socket_open := true
        data_connection := s.data_connection + 1 }
      have hpicked : ({ s with
          accepts := s.accepts - 1
          data_socket_open := true
          data_connection := s.data_connection + 1 } : Session).pickedUp env = s.pickedUp env := rfl
      have hsame : balance { s with
          accepts := s.accepts - 1
          data_socket_open := true
          data_connection := s.data_connection + 1 } = balance s + 1 := hpart
      rw [htake, hpicked, hsame]
      by_cases hnone : s.pickedUp env = none
      · simp [hc, hnone]
      · simp [hnone]
    · rw [if_neg hc, if_neg (fun h => hc h.1)]
      show (promised s : Int) - completed s -
        ((s.accepts - 1 + (s.data_handshakes + 1) + s.data_ops.length : Nat) : Int) = balance s + 0
      unfold balance outstanding
      omega
  · have hdrops : Drops env s (.accepted ec) := Or.inl hec
    rw [handle_accept, if_pos hec, if_pos hdrops]
    exact hpart

theorem balance_handle_data_handshake (ec : ErrorCode) (h : s.data_handshakes ≠ 0) :
    balance ({ s with data_handshakes := s.data_handshakes - 1 }.handle_data_handshake env ec) =
      balance s + if Drops env s (.data_handshaken ec) then 1 else 0 := by
  have hpart : balance { s with data_handshakes := s.data_handshakes - 1 } = balance s + 1 := by
    show (promised s : Int) - completed s -
      ((s.accepts + (s.data_handshakes - 1) + s.data_ops.length : Nat) : Int) = balance s + 1
    unfold balance outstanding
    omega
  unfold handle_data_handshake
  by_cases hec : ec = .success
  · have hpicked : ({ s with data_handshakes := s.data_handshakes - 1 } : Session).pickedUp env =
        s.pickedUp env := rfl
    have hdrops : Drops env s (.data_handshaken ec) ↔ s.pickedUp env = none :=
      or_iff_right (not_not.mpr hec)
    rw [if_neg (not_not.mpr hec), balance_takeUpWork, hpicked, hpart, if_congr hdrops rfl rfl]
    by_cases hnone : s.pickedUp env = none
    · simp [hnone]
    · simp [hnone]
  · have hdrops : Drops env s (.data_handshaken ec) := Or.inl hec
    rw [if_pos hec, if_pos hdrops]
    exact hpart

/-- A part of a transfer that ended is no longer outstanding. -/
theorem balance_of_ended {t : Session} {o : Outstanding} (ho : o ∈ s.data_ops) (ht : t.sent = s.sent)
    (ha : t.accepts = s.accepts) (hh : t.data_handshakes = s.data_handshakes)
    (hops : t.data_ops = s.data_ops.erase o) : balance t = balance s + 1 := by
  have hlen := List.length_erase_add_one ho
  unfold balance promised completed outstanding
  rw [ht, ha, hh, hops]
  omega

theorem balance_handle_data_send_callback (ec : ErrorCode) : balance (s.handle_data_send_callback ec) =
    balance s - if ec = .success then 1 else 0 := by
  unfold handle_data_send_callback
  by_cases hec : ec = .success
  · rw [if_neg (not_not.mpr hec), if_pos hec, balance_data_close, balance_control_send]
    rfl
  · rw [if_pos hec, if_neg hec]
    exact (Int.sub_zero _).symm

theorem balance_handle_data_async_receive_callback (ec : ErrorCode) (n : Nat) :
    balance (s.handle_data_async_receive_callback env ec n) =
      balance s - if s.m_receive_file_stream = none then 0 else 1 := by
  cases h : s.m_receive_file_stream with
  | none =>
    unfold handle_data_async_receive_callback
    simp only [h]
    exact (Int.sub_zero _).symm
  | some f =>
    have habsorb : balance (s.absorb env f n) = balance s := by
      obtain ⟨_, _, _, _, habsorb⟩ := s.absorb_eq env f n
      rw [habsorb]
      rfl
    rw [s.handle_data_async_receive_callback_eq env h, if_neg (Option.some_ne_none f)]
    split
    · unfold data_async_receive_end
      rw [s.absorb_stream env h n]
      dsimp only
      rw [balance_data_close, balance_control_send]
      exact congrArg (· + worth (lit "226 Received." ++ crlf)) habsorb
    · rw [← habsorb]
      exact balance_start _ .data_async_receive

theorem balance_handle_data_async_send_callback (ec : ErrorCode) :
    balance (s.handle_data_async_send_callback env ec) =
      balance s - if s.m_send_file_stream = none then 0 else 1 := by
  cases h : s.m_send_file_stream with
  | none =>
    unfold handle_data_async_send_callback
    simp only [h]
    exact (Int.sub_zero _).symm
  | some f =>
    rw [s.handle_data_async_send_callback_eq env h, if_neg (Option.some_ne_none f)]
    split
    · unfold data_async_send_end
      rw [h]
      dsimp only
      rw [balance_data_close, balance_control_send]
      rfl
    · exact balance_data_async_send env s h

end

/-! ## The commands -/

section
variable (env : Env) (s : Session) (a : Bytes)

/-- No reply but those of the transfers counts. -/
theorem speaks_of_nothing : Speaks fun m => worth (m ++ crlf) = 0 where
  text := by decide
  features := by decide
  size n := by
    unfold worth
    rw [List.append_assoc, code_append _ (by decide)]
    decide

theorem worth_passive (p : Bytes × Nat) : worth (passive p ++ crlf) = 0 := by
  unfold worth passive
  rw [List.append_assoc, List.append_assoc, code_append _ (by decide)]
  decide

theorem worth_quoted (directory : Bytes) : worth (quoted directory ++ crlf) = 0 := by
  unfold worth quoted
  rw [List.append_assoc, List.append_assoc, code_append _ (by decide)]
  decide

variable {s}

theorem balance_LIST (h : s.m_connection_stage = .LOGGED_IN) :
    balance (s.run_LIST a) = balance s ∧ ¬ DropsLate env s (lit "LIST") a := by
  constructor
  · unfold run_LIST
    split
    · rfl
    · unfold run_pending_LIST
      split
      · rw [balance_control_receive, balance_data_directory_listing, balance_control_send]
        exact Int.sub_eq_iff_eq_add.mpr rfl
      · rw [balance_start_accept, balance_reply]
        exact Int.sub_eq_iff_eq_add.mpr rfl
  · rintro ⟨⟨-, hp⟩, hopen, hnone⟩
    rw [startedLate_LIST env a h] at hnone
    rcases hp with ⟨-, hp⟩ | ⟨hc, -⟩ | hc
    · rw [if_pos ⟨hopen, hp⟩] at hnone
      cases hnone
    · exact absurd hc (by decide)
    · exact absurd hc (by decide)

theorem balance_run_pending_STOR (hm : ¬ s.ParentMissing s.m_pending_write_file) :
    balance (s.run_pending_STOR env) =
      balance s + if s.data_socket_open = true ∧ s.receiveOpens env = false then 1 else 0 := by
  have h150 : worth (lit "150 Opening connection." ++ crlf) = 1 := by decide
  have hwait : worth (lit "150 Waiting for connection" ++ crlf) = 1 := by decide
  unfold run_pending_STOR
  rw [if_neg hm]
  cases hopen : s.data_socket_open
  · rw [if_neg (by simp), balance_start_accept, balance_reply, hwait]
    simp
  · have hsame : (s.control_send (lit "150 Opening connection.")).receiveOpens env =
        s.receiveOpens env := rfl
    rw [if_pos rfl, balance_control_receive, balance_data_receive_file, hsame, balance_control_send,
      h150]
    cases s.receiveOpens env <;> simp

theorem balance_STOR (h : s.m_connection_stage = .LOGGED_IN) : balance (s.run_STOR env a) =
    balance s + if DropsLate env s (lit "STOR") a then 1 else 0 := by
  have hlate : DropsLate env s (lit "STOR") a ↔ (a ≠ [] ∧ s.m_pending_write_file = [] ∧
      ¬ s.ParentMissing (s.write_file_of_STOR a)) ∧ s.data_socket_open = true ∧
        (s.set_pending_write a).receiveOpens env = false := by
    unfold DropsLate Promises
    rw [startedLate_STOR env a h]
    simp +decide [h]
    tauto
  unfold run_STOR
  by_cases ha : a = []
  · rw [if_pos ha, if_neg fun hd => (hlate.mp hd).1.1 ha, balance_reply]
    rfl
  rw [if_neg ha]
  by_cases hp : s.m_pending_write_file = []
  · rw [if_neg (not_not.mpr hp)]
    by_cases hm : s.ParentMissing (s.write_file_of_STOR a)
    · rw [run_pending_STOR_of_missing env (s.set_pending_write a) hm,
        if_neg fun hd => (hlate.mp hd).1.2.2 hm]
      exact (Int.add_zero _).symm
    · rw [balance_run_pending_STOR env (s := s.set_pending_write a) hm]
      have hiff : (s.set_pending_write a).data_socket_open = true ∧
          (s.set_pending_write a).receiveOpens env = false ↔ DropsLate env s (lit "STOR") a :=
        Iff.trans ⟨fun hd => ⟨⟨ha, hp, hm⟩, hd⟩, fun hd => hd.2⟩ hlate.symm
      rw [if_congr hiff rfl rfl]
      rfl
  · rw [if_pos hp, if_neg fun hd => hp (hlate.mp hd).1.2.1]
    exact (Int.add_zero _).symm

theorem balance_RETR (h : s.m_connection_stage = .LOGGED_IN) :
    balance ((s.parse_RETR_argument a).run_RETR env) =
      balance s + if DropsLate env s (lit "RETR") a then 1 else 0 := by
  have h150 : worth (lit "150 Opening connection." ++ crlf) = 1 := by decide
  have hwait : worth (lit "150 Waiting for connection" ++ crlf) = 1 := by decide
  have hlate : DropsLate env s (lit "RETR") a ↔
      s.data_socket_open = true ∧ s.sendOpens env (s.fileOfRETR a) = false := by
    unfold DropsLate Promises
    rw [startedLate_RETR env a h]
    simp +decide [h]
    tauto
  have hparse : balance (s.parse_RETR_argument a) = balance s := by
    unfold parse_RETR_argument
    split
    · exact (balance_reply s _).trans (Int.add_zero _)
    split
    · rfl
    · simp only
      split
      · exact (balance_control_send s _).trans (Int.add_zero _)
      · rfl
  obtain ⟨-, hsocket, hstore, hfile⟩ := s.parse_RETR_argument_file a
  have hopens : ((s.parse_RETR_argument a).control_send (lit "150 Opening connection.")).sendOpens env
      ((s.parse_RETR_argument a).control_send (lit "150 Opening connection.")).m_sendable_file_id =
        s.sendOpens env (s.fileOfRETR a) := by
    show (s.parse_RETR_argument a).sendOpens env (s.parse_RETR_argument a).m_sendable_file_id = _
    rw [hfile]
    unfold sendOpens
    rw [hstore]
  unfold run_RETR
  rw [hsocket, if_congr hlate rfl rfl]
  cases s.data_socket_open
  · rw [if_neg (by simp), balance_start_accept, balance_reply, hwait, hparse]
    simp
  · rw [if_pos rfl, balance_control_receive, balance_data_send_file, hopens, balance_control_send,
      h150, hparse]
    cases s.sendOpens env (s.fileOfRETR a) <;> simp

theorem outstanding_of_handled {c : Bytes} {t : Session} (h : Handled env s c a t)
    (hc : ¬ (c ∈ TRANSFER_COMMANDS ∧ s.m_connection_stage = .LOGGED_IN)) :
    outstanding t = outstanding s := by
  cases h with
  | list _ hl => exact absurd ⟨by decide, hl⟩ hc
  | stor _ hl => exact absurd ⟨by decide, hl⟩ hc
  | retr _ hl => exact absurd ⟨by decide, hl⟩ hc
  | options =>
    unfold handle_OPTS
    split <;> rfl
  | size =>
    unfold handle_SIZE
    simp only
    split <;> rfl
  | _ => rfl

/-- No other command promises a transfer, ends one or starts one. -/
theorem balance_of_other {c : Bytes}
    (hc : ¬ (c ∈ TRANSFER_COMMANDS ∧ s.m_connection_stage = .LOGGED_IN)) :
    balance (s.handle_command env c a) = balance s ∧ ¬ DropsLate env s c a := by
  constructor
  · refine balance_of_silence (says_handle_command speaks_of_nothing env s a (worth_passive _)
      (fun _ _ => worth_quoted _) fun hin hl => absurd ⟨hin, hl⟩ hc) ?_
    exact outstanding_of_handled env a (s.handle_command_handled env c a) hc
  · rintro ⟨⟨hl, hp⟩, -, -⟩
    refine hc ⟨?_, hl⟩
    rcases hp with ⟨rfl, -⟩ | ⟨rfl, -⟩ | rfl
    · decide
    · decide
    · decide

theorem balance_handle_command (c : Bytes) : balance (s.handle_command env c a) =
    balance s + if DropsLate env s c a then 1 else 0 := by
  by_cases hc : c ∈ TRANSFER_COMMANDS ∧ s.m_connection_stage = .LOGGED_IN
  · obtain ⟨hc, hl⟩ := hc
    obtain ⟨hlist, hstor, hretr⟩ := s.handle_command_of_transfer env a hl
    simp only [TRANSFER_COMMANDS, List.mem_cons, List.not_mem_nil, or_false] at hc
    rcases hc with rfl | rfl | rfl
    · obtain ⟨hbalance, hno⟩ := balance_LIST env a hl
      rw [hlist, if_neg hno, hbalance, Int.add_zero]
    · rw [hstor, balance_STOR env a hl]
    · rw [hretr, balance_RETR env a hl]
  · obtain ⟨hbalance, hno⟩ := balance_of_other env a hc
    rw [if_neg hno, hbalance, Int.add_zero]

end

/-! ## Runs -/

/-- An event drops a transfer, or keeps the account as it is. -/
theorem balance_of_event {env : Env} {s s' : Session} {e : Event} (h : Stepped env s e s') :
    balance s' = balance s + if Drops env s e then 1 else 0 := by
  have nothing : ∀ {t : Session}, balance t = balance s → ¬ Drops env s e →
      balance t = balance s + if Drops env s e then 1 else 0 := by
    intro t ht hno
    rw [if_neg hno, ht, Int.add_zero]
  cases h with
  | control_received ec received =>
    exact balance_handle_command (s := { s with control_reads := s.control_reads - 1 }) env _ _
  | accepted ec hne => exact balance_handle_accept env s ec hne
  | data_handshaken ec hne => exact balance_handle_data_handshake env s ec hne
  | data_sent c ec ho =>
    have hended := balance_of_ended s
      (t := { s with data_ops := s.data_ops.erase ⟨.data_send, c⟩ }) ho rfl rfl rfl rfl
    rw [balance_handle_data_send_callback, hended]
    by_cases hec : ec = .success
    · have hno : ¬ Drops env s (.data_sent c ec) := not_not.mpr hec
      rw [if_pos hec, if_neg hno]
      omega
    · have hdrops : Drops env s (.data_sent c ec) := hec
      rw [if_neg hec, if_pos hdrops]
      omega
  | data_received c ec received ho =>
    have hended := balance_of_ended s
      (t := { s with
        data_ops := s.data_ops.erase ⟨.data_async_receive, c⟩
        m_receive_buffer := s.m_receive_buffer ++ received }) ho rfl rfl rfl rfl
    rw [balance_handle_data_async_receive_callback, hended]
    show _ = balance s + if s.m_receive_file_stream = none then 1 else 0
    split <;> omega
  | data_async_sent c ec ho =>
    have hended := balance_of_ended s
      (t := { s with data_ops := s.data_ops.erase ⟨.data_async_send, c⟩ }) ho rfl rfl rfl rfl
    rw [balance_handle_data_async_send_callback, hended]
    show _ = balance s + if s.m_send_file_stream = none then 1 else 0
    split <;> omega
  | timer lap available =>
    have hsays := says_wait_for_implicit speaks_of_nothing { s with timer_waits := s.timer_waits - 1 }
      lap available
    refine nothing ((balance_of_silence hsays ?_).trans rfl) id
    unfold wait_for_implicit
    split
    · rfl
    · split <;> rfl
  | probe_received ec received =>
    have hsays := says_handle_auth speaks_of_nothing { s with probe_reads := s.probe_reads - 1 }
      (handle_control_receive_callback ec received).1 (handle_control_receive_callback ec received).2
    refine nothing ((balance_of_silence hsays ?_).trans rfl) id
    unfold handle_auth
    split
    · rfl
    · split <;> rfl
  | handshaken ec i =>
    have hsays := says_handle_handshake speaks_of_nothing
      { s with control_handshakes := s.control_handshakes.erase i } ec i
    refine nothing ((balance_of_silence hsays ?_).trans rfl) id
    unfold handle_handshake
    split
    · rfl
    · cases i <;> rfl
  | _ => exact nothing rfl id

theorem balance_begun (session_class : SessionClass) (users : users.Table) (store : fs_objects.Store)
    (lap available : Nat) : balance (begun session_class users store lap available) = 0 :=
  begun_cases (P := fun s => balance s = 0) session_class users store lap available rfl rfl rfl rfl

/-- In every run of any session, with any events in any order: the replies 150 are as many as the
replies 226, the operations that transfers wait for and the transfers that were dropped together. So
there is never one 226 too many, and a 150 gets none only where an event dropped its transfer. -/
theorem every_promise_is_accounted_for (session_class : SessionClass) (users : users.Table)
    (store : fs_objects.Store) (lap available : Nat) (es : List (Env × Event)) :
    runs.Along tallied Accounted (begun session_class users store lap available, 0) es := by
  refine runs.along_of_kept (J := fun x => balance x.1 = x.2) ?_ (balance_begun ..) es
  rintro ⟨s, n⟩ ⟨env, e⟩ x' hbalance h
  obtain ⟨s', hst, rfl⟩ := Option.map_eq_some_iff.mp h
  have hstep := balance_of_event (step_stepped hst).2
  have hkept : balance s' = ((n + if Drops env s e then 1 else 0 : Nat) : Int) := by
    rw [hstep, hbalance]
    push_cast
    rfl
  refine ⟨?_, hkept⟩
  unfold balance at hkept
  show promised s' = completed s' + outstanding s' + (n + if Drops env s e then 1 else 0)
  omega

end asio_ftp.promises
