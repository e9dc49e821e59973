-- What a session asks of the `fs_objects` functions: an event makes at most one call that can
-- change the table, so the table of a session goes through a history of calls. And it may open
-- the blob of an upload.
import AsioFtp.Transfers

namespace asio_ftp.base_session

open helpers fs_objects histories

namespace Session

/-! ## The call of an event -/

/-- The call of an upload that starts. -/
def callOfUpload (env : Env) (s : Session) : Option Op :=
  let (path, name) := object_of_write_file s.m_pending_write_file
  if (get_object s.m_fs_objects_table.table s.m_userid name path).id = [] then
    some (.create_object env.uuid env.now s.m_userid name path 0 false)
  else none

/-- The call of the work that a new connection picks up. -/
def callOfWork (env : Env) (s : Session) : Option Op :=
  if s.m_pending_directory_list = [] ∧ s.m_pending_write_file ≠ [] then s.callOfUpload env
  else none

/-- The call of a command. STOR makes one when it comes late and its directory is there. -/
def callOfCommand (env : Env) (s : Session) (command argument : Bytes) : Option Op :=
  if s.m_connection_stage ≠ .LOGGED_IN then none
  else if command = lit "MKD" ∨ command = lit "RMD" ∨ command = lit "DELE" then
    s.objectCall env command argument
  else if command = lit "STOR" then
    if s.data_socket_open = true ∧ argument ≠ [] ∧ s.m_pending_write_file = [] ∧
        ¬ s.ParentMissing (s.write_file_of_STOR argument) then
      (s.set_pending_write argument).callOfUpload env
    else none
  else none

/-- The call of the last callback of an upload. -/
def callOfEnd (env : Env) (s : Session) (bytes_read : Nat) : Op :=
  .update_object_size env.now s.m_userid s.m_receive_file_name s.m_receive_file_path
    (s.m_received_file_size + bytes_read)

/-- The call of an event that can change the table. -/
def callOf (env : Env) (s : Session) : Event → Option Op
  | .control_received ec received =>
    s.callOfCommand env (handle_control_receive_callback ec received).1
      (handle_control_receive_callback ec received).2
  | .accepted ec =>
    if ec = .success ∧ s.session_class = .session then s.callOfWork env else none
  | .data_handshaken ec => if ec = .success then s.callOfWork env else none
  | .data_received _ ec received =>
    if { s with m_receive_buffer := s.m_receive_buffer ++ received }.receiveEnds env ec
        received.length = true then
      some (s.callOfEnd env received.length)
    else none
  | _ => none

/-! ## The blob of an upload -/

/-- The command is a STOR that starts its upload at once, because the data socket is open. -/
def StoresNow (s : Session) (command argument : Bytes) : Prop :=
  s.m_connection_stage = .LOGGED_IN ∧ command = lit "STOR" ∧ s.data_socket_open = true ∧
    argument ≠ [] ∧ s.m_pending_write_file = [] ∧ ¬ s.ParentMissing (s.write_file_of_STOR argument)

/-- The upload is the work that a new connection picks up. -/
def StoresPending (s : Session) : Prop :=
  s.m_pending_directory_list = [] ∧ s.m_pending_write_file ≠ []

instance (s : Session) (c a : Bytes) : Decidable (s.StoresNow c a) :=
  inferInstanceAs (Decidable (_ ∧ _))

instance (s : Session) : Decidable s.StoresPending := inferInstanceAs (Decidable (_ ∧ _))

/-- The session that calls `data_receive_file`, if the event leads to that. -/
def uploader (s : Session) : Event → Option Session
  | .control_received ec received =>
    let (command, argument) := handle_control_receive_callback ec received
    if s.StoresNow command argument then some (s.set_pending_write argument) else none
  | .accepted ec =>
    if ec = .success ∧ s.session_class = .session ∧ s.StoresPending then some s else none
  | .data_handshaken ec => if ec = .success ∧ s.StoresPending then some s else none
  | _ => none

/-- The file that `data_receive_file` opens. -/
def opened (env : Env) (s : Session) : Option Target :=
  if s.receiveOpens env = true then some (s.receiveTarget env) else none

/-! ## The objects after each handler -/

/-- What a session holds of the objects: the table, and the bytes of an upload that its file did
not take. -/
structure Held where
  table : Table
  buffer : Bytes

def held (s : Session) : Held := ⟨s.m_fs_objects_table.table, s.m_receive_buffer⟩

/-- The same, after a call of the session. -/
def heldAfter (s : Session) (o : Option Op) : Held :=
  ⟨(applied s.m_fs_objects_table o).table, s.m_receive_buffer⟩

/-- The store when an upload starts: its file opens, if it does, and the stream that was still there
is closed. -/
def opening (env : Env) (s : Session) (st : Store) : Store :=
  let st := (s.opened env).elim st (fun target => openBlob st target.id target.app)
  s.m_receive_file_stream.elim st (closeBlob env st)

/-- The same, if an upload starts at all. -/
def afterOpening (env : Env) (st : Store) : Option Session → Store
  | none => st
  | some u => u.opening env st

@[simp] theorem writeBlob_table (st : Store) (f : OFStream) (bytes : Bytes) :
    (writeBlob st f bytes).table = st.table := rfl

@[simp] theorem isSome_writeBlob (st : Store) (f : OFStream) (bytes id : Bytes) :
    ((writeBlob st f bytes).blobs id).isSome = (st.blobs id).isSome := by
  unfold writeBlob
  simp only
  split <;> simp

@[simp] theorem afterOpening_table (env : Env) (st : Store) (u : Option Session) :
    (afterOpening env st u).table = st.table := by
  cases u with
  | none => rfl
  | some u =>
    simp only [afterOpening, opening]
    cases u.m_receive_file_stream <;> cases u.opened env <;> rfl

/-- The start of an upload makes the blob, if it was not there. -/
theorem afterOpening_blobs (env : Env) (st : Store) (u : Option Session) (id : Bytes) :
    ((afterOpening env st u).blobs id).isSome =
      ((st.blobs id).isSome || decide ((u.bind (opened env)).map (·.id) = some id)) := by
  cases u with
  | none => simp [afterOpening]
  | some u =>
    have hopen : (((u.opened env).elim st fun target => openBlob st target.id target.app).blobs
        id).isSome = ((st.blobs id).isSome || decide ((u.opened env).map (·.id) = some id)) := by
      cases u.opened env with
      | none => simp
      | some target =>
        by_cases hid : id = target.id
        · simp [openBlob, hid]
        · simp [openBlob, hid, Ne.symm hid]
    simp only [afterOpening, opening, Option.bind_some]
    rw [← hopen]
    cases u.m_receive_file_stream with
    | none => rfl
    | some f => exact isSome_writeBlob ..

/-- What a session has of the files: the store with the blobs, the bytes that no stream took, and
the stream of its upload. -/
structure Files where
  store : Store
  buffer : Bytes
  stream : Option OFStream

def kept (s : Session) : Files :=
  ⟨s.m_fs_objects_table, s.m_receive_buffer, s.m_receive_file_stream⟩

/-- The same, after a call of the session and the start of an upload. -/
def keptAfter (env : Env) (s : Session) (o : Option Op) (u : Option Session) : Files where
  store := afterOpening env (applied s.m_fs_objects_table o) u
  buffer := s.m_receive_buffer
  stream :=
    u.elim s.m_receive_file_stream fun u => (u.openReceiveFile env).m_receive_file_stream

theorem held_of_kept {env : Env} {s t : Session} {o : Option Op} {u : Option Session}
    (h : t.kept = s.keptAfter env o u) : t.held = s.heldAfter o := by
  have hstore : t.m_fs_objects_table = afterOpening env (applied s.m_fs_objects_table o) u :=
    congrArg Files.store h
  have hbuffer : t.m_receive_buffer = s.m_receive_buffer := congrArg Files.buffer h
  unfold held heldAfter
  rw [hstore, hbuffer, afterOpening_table]

section
variable (env : Env) (s : Session)

@[simp] theorem kept_data_close : s.data_close.kept = s.kept := by
  obtain ⟨o, n, h⟩ := s.data_close_eq
  rw [h]
  rfl

theorem kept_data_async_send : (s.data_async_send env).kept = s.kept := by
  unfold data_async_send
  cases s.m_send_file_stream <;> rfl

theorem store_receiveTarget :
    (s.receiveTarget env).store = applied s.m_fs_objects_table (s.callOfUpload env) := by
  unfold receiveTarget callOfUpload
  simp only
  split <;> rfl

theorem kept_openReceiveFile :
    (s.openReceiveFile env).kept = s.keptAfter env (s.callOfUpload env) (some s) := by
  unfold kept keptAfter afterOpening opening openReceiveFile opened
  rw [← store_receiveTarget]
  simp only
  split <;> rfl

theorem kept_data_receive_file :
    (s.data_receive_file env).kept = s.keptAfter env (s.callOfUpload env) (some s) := by
  rw [← kept_openReceiveFile]
  unfold data_receive_file
  split
  · exact kept_data_close _
  · rfl

theorem kept_data_send_file : (s.data_send_file env).kept = s.kept := by
  unfold data_send_file
  split
  · exact kept_data_close _
  · exact kept_data_async_send env _

theorem kept_takeUpWork :
    (s.takeUpWork env).kept = s.keptAfter env (s.callOfWork env)
      (if s.StoresPending then some s else none) := by
  by_cases hp : s.StoresPending
  · have hcall : s.callOfWork env = s.callOfUpload env := if_pos hp
    rw [hcall, if_pos hp, takeUpWork, if_neg (not_not.mpr hp.1), if_pos hp.2]
    exact s.kept_data_receive_file env
  · have hcall : s.callOfWork env = none := if_neg hp
    rw [hcall, if_neg hp]
    unfold takeUpWork
    split
    · rfl
    next hl =>
    split
    · next hw => exact absurd ⟨not_not.mp hl, hw⟩ hp
    · split
      · exact s.kept_data_send_file env
      · rfl

theorem kept_handle_data_send_callback (ec : ErrorCode) :
    (s.handle_data_send_callback ec).kept = s.kept := by
  unfold handle_data_send_callback
  split
  · rfl
  · exact kept_data_close _

/-- A part of an upload changes neither the table nor the object of the upload, and the counter
grows by its length. -/
theorem absorb_upload (f : OFStream) (n : Nat) :
    (s.absorb env f n).m_fs_objects_table.table = s.m_fs_objects_table.table ∧
      (s.absorb env f n).callOfEnd env 0 = s.callOfEnd env n := by
  unfold absorb
  split
  · exact ⟨rfl, by simp [callOfEnd, writeReceived]⟩
  · exact ⟨rfl, by simp [callOfEnd]⟩

/-- The update of a size and the close of a stream change other parts of the store. -/
theorem update_closeBlob (st : Store) (f : OFStream) (now u n p : Bytes) (size : Int) :
    (update_object_size (closeBlob env st f) now u n p size).1 =
      closeBlob env (update_object_size st now u n p size).1 f := by
  unfold update_object_size
  by_cases hid : (get_object st.table u n p).id = []
  · have hid' : (get_object (closeBlob env st f).table u n p).id = [] := hid
    simp only [if_pos hid, if_pos hid']
  · have hid' : ¬ (get_object (closeBlob env st f).table u n p).id = [] := hid
    simp only [if_neg hid, if_neg hid']
    rfl

theorem kept_data_async_receive_end {f : OFStream} (h : s.m_receive_file_stream = some f) :
    (s.data_async_receive_end env).kept =
      ⟨closeBlob env (applied s.m_fs_objects_table (some (s.callOfEnd env 0))) f,
        s.m_receive_buffer, none⟩ := by
  unfold data_async_receive_end callOfEnd
  rw [h]
  simp only [kept_data_close, Nat.cast_zero, Int.add_zero]
  exact congrArg (Files.mk · s.m_receive_buffer none) (update_closeBlob ..)

/-- The last callback of an upload records the size that the counter reached. -/
theorem table_handle_data_async_receive_callback (ec : ErrorCode) (n : Nat) :
    (s.handle_data_async_receive_callback env ec n).m_fs_objects_table.table =
      (s.heldAfter
        (if s.receiveEnds env ec n = true then some (s.callOfEnd env n) else none)).table := by
  rcases Option.eq_none_or_eq_some s.m_receive_file_stream with h | ⟨f, h⟩
  · unfold handle_data_async_receive_callback receiveEnds
    simp only [h]
    rfl
  · obtain ⟨ht, hc⟩ := s.absorb_upload env f n
    rw [s.handle_data_async_receive_callback_eq env h]
    split
    · have hend := kept_data_async_receive_end env _ (s.absorb_stream env h n)
      rw [hc] at hend
      exact (congrArg (fun k => k.store.table) hend).trans
        (apply_table_congr ht (s.callOfEnd env n))
    · exact ht

theorem kept_handle_data_async_send_callback (ec : ErrorCode) :
    (s.handle_data_async_send_callback env ec).kept = s.kept := by
  rcases Option.eq_none_or_eq_some s.m_send_file_stream with h | ⟨f, h⟩
  · unfold handle_data_async_send_callback
    simp only [h]
    rfl
  · rw [s.handle_data_async_send_callback_eq env h]
    split
    · unfold data_async_send_end
      rw [h]
      exact kept_data_close _
    · exact s.kept_data_async_send env

end

/-! ## The call of a command -/

section
variable (env : Env) (s : Session) (a : Bytes)

/-- A command other than those that change objects makes no call. -/
theorem callOfCommand_eq_none {c : Bytes} (h : s.m_connection_stage ≠ .LOGGED_IN ∨
    c ∉ [lit "MKD", lit "RMD", lit "DELE"] ∧ c ≠ lit "STOR") :
    s.callOfCommand env c a = none := by
  unfold callOfCommand
  rcases h with h | ⟨h1, h2⟩
  · rw [if_pos h]
  · have h1' : ¬ (c = lit "MKD" ∨ c = lit "RMD" ∨ c = lit "DELE") := by simpa using h1
    rw [if_neg h1', if_neg h2, ite_self]

theorem callOfCommand_STOR (h : s.m_connection_stage = .LOGGED_IN) :
    s.callOfCommand env (lit "STOR") a =
      if s.StoresNow (lit "STOR") a then (s.set_pending_write a).callOfUpload env else none := by
  simp +decide [callOfCommand, StoresNow, h]

theorem kept_STOR (h : s.m_connection_stage = .LOGGED_IN) :
    (s.run_STOR env a).kept = s.keptAfter env (s.callOfCommand env (lit "STOR") a)
      (if s.StoresNow (lit "STOR") a then some (s.set_pending_write a) else none) := by
  rw [s.callOfCommand_STOR env a h]
  by_cases hs : s.StoresNow (lit "STOR") a
  · obtain ⟨-, -, ho, ha, hp, hm⟩ := id hs
    have hm' : ¬ (s.set_pending_write a).ParentMissing
        (s.set_pending_write a).m_pending_write_file := hm
    rw [if_pos hs, if_pos hs, run_STOR, if_neg ha, if_neg (not_not.mpr hp), run_pending_STOR,
      if_neg hm', if_pos (show (s.set_pending_write a).data_socket_open = true from ho)]
    let opening := (s.set_pending_write a).control_send (lit "150 Opening connection.")
    exact opening.kept_data_receive_file env
  · rw [if_neg hs, if_neg hs]
    unfold run_STOR run_pending_STOR
    split
    · rfl
    next ha =>
    split
    · rfl
    next hp =>
    split
    · rfl
    next hm =>
    split
    · next ho => exact absurd ⟨h, rfl, ho, ha, not_not.mp hp, hm⟩ hs
    · rfl

theorem kept_RETR : ((s.parse_RETR_argument a).run_RETR env).kept = s.kept := by
  have hkept : (s.parse_RETR_argument a).kept = s.kept := by
    obtain ⟨_, _, _, _, h⟩ := s.parse_RETR_argument_eq a
    rw [h]
    rfl
  rw [← hkept]
  unfold run_RETR
  split
  · exact ((s.parse_RETR_argument a).control_send _).kept_data_send_file env
  · rfl

/-- What a command does to the store and the buffer. -/
theorem Handled.kept {env : Env} {s t : Session} {c a : Bytes} (h : Handled env s c a t) :
    t.kept = s.keptAfter env (s.callOfCommand env c a)
      (if s.StoresNow c a then some (s.set_pending_write a) else none) := by
  have nothing : ∀ {t : Session}, t.kept = s.kept → (s.m_connection_stage ≠ .LOGGED_IN ∨
      c ∉ [lit "MKD", lit "RMD", lit "DELE"] ∧ c ≠ lit "STOR") →
      t.kept = s.keptAfter env (s.callOfCommand env c a)
        (if s.StoresNow c a then some (s.set_pending_write a) else none) := by
    intro t ht hc
    have hs : ¬ s.StoresNow c a := fun h => hc.elim (fun hl => hl h.1) (fun hc => hc.2 h.2.1)
    rw [ht, callOfCommand_eq_none env s a hc, if_neg hs]
    rfl
  cases h with
  | empty => exact nothing rfl (Or.inr (by decide))
  | unknown _ _ _ hc =>
    refine nothing rfl (Or.inr ⟨fun h => hc ?_, fun h => hc ?_⟩)
    · have hall : ∀ d ∈ [lit "MKD", lit "RMD", lit "DELE"], d ∈ FTP_COMMANDS := by decide
      exact hall c h
    · exact special_supported (by simp [SPECIAL_COMMANDS, h])
  | user_refused => exact nothing rfl (Or.inr (by decide))
  | user_accepted => exact nothing rfl (Or.inr (by decide))
  | pass_refused => exact nothing rfl (Or.inr (by decide))
  | pass_accepted => exact nothing rfl (Or.inr (by decide))
  | system => exact nothing rfl (Or.inr (by decide))
  | quit => exact nothing rfl (Or.inr (by decide))
  | not_logged_in _ _ _ _ h => exact nothing rfl (Or.inl h)
  | plain _ _ _ _ hc =>
    have hall : ∀ d ∈ PLAIN_COMMANDS,
        d ∉ [lit "MKD", lit "RMD", lit "DELE"] ∧ d ≠ lit "STOR" := by decide
    exact nothing rfl (Or.inr (hall c hc))
  | options =>
    refine nothing ?_ (Or.inr (by decide))
    unfold handle_OPTS
    split <;> rfl
  | moved _ _ _ _ _ hc =>
    have hall : ∀ d ∈ [lit "CDUP", lit "CWD"],
        d ∉ [lit "MKD", lit "RMD", lit "DELE"] ∧ d ≠ lit "STOR" := by decide
    exact nothing rfl (Or.inr (hall c hc))
  | stored _ _ _ h hc =>
    have hc' : c = lit "MKD" ∨ c = lit "RMD" ∨ c = lit "DELE" := by simpa using hc
    have hcall : s.callOfCommand env c a = s.objectCall env c a := by
      rw [callOfCommand, if_neg (not_not.mpr h), if_pos hc']
    have hall : ∀ d ∈ [lit "MKD", lit "RMD", lit "DELE"], d ≠ lit "STOR" := by decide
    rw [hcall, if_neg (fun h => hall c hc h.2.1)]
    rfl
  | list _ h =>
    refine nothing ?_ (Or.inr (by decide))
    unfold run_LIST run_pending_LIST
    split
    · rfl
    · split <;> rfl
  | stor _ h => exact s.kept_STOR env a h
  | retr => exact nothing (s.kept_RETR env a) (Or.inr (by decide))
  | size =>
    refine nothing ?_ (Or.inr (by decide))
    unfold handle_SIZE
    simp only
    split <;> rfl

end

/-! ## One event -/

/-- The end of a read of the data connection. -/
def receives : Event → Bool
  | .data_received .. => true
  | _ => false

theorem keptAfter_ite {p : Prop} [Decidable p] (env : Env) (s : Session) (o : Option Op)
    (u : Session) : s.keptAfter env o (if p then some u else none) =
      if p then s.keptAfter env o (some u) else s.keptAfter env o none :=
  apply_ite ..

/-- What an event other than the end of a read of the data connection does to the store and the
buffer: it makes its call, and may start an upload. -/
theorem Stepped.kept {env : Env} {s s' : Session} {e : Event} (h : Stepped env s e s')
    (he : ∀ store, e ≠ .elsewhere store) (hr : receives e = false) :
    s'.kept = s.keptAfter env (s.callOf env e) (s.uploader e) := by
  by_cases hup : startsUp e = true
  · have hnone : s.callOf env e = none ∧ s.uploader e = none := by
      cases e <;> first | exact ⟨rfl, rfl⟩ | simp [startsUp] at hup
    rw [hnone.1, hnone.2, (h.startup hup).1]
    rfl
  cases h with
  | control_received ec received =>
    have hkept := ({ s with control_reads := s.control_reads - 1 }.handle_command_handled env
      (handle_control_receive_callback ec received).1
      (handle_control_receive_callback ec received).2).kept
    rw [hkept, keptAfter_ite]
    simp only [uploader, keptAfter_ite]
    rfl
  | accepted ec =>
    by_cases hec : ec = .success
    · rw [hec, handle_accept_success]
      simp only [callOf, uploader, true_and]
      by_cases hc : s.session_class = .session
      · simp only [hc, true_and, if_true, keptAfter_ite]
        refine (kept_takeUpWork env { s with
          session_class := .session
          accepts := s.accepts - 1
          data_socket_open := true
          data_connection := s.data_connection + 1 }).trans ?_
        rw [keptAfter_ite]
        rfl
      · simp only [hc, false_and, if_false]
        rfl
    · rw [handle_accept, if_pos hec]
      simp only [callOf, uploader, hec, false_and, if_false]
      rfl
  | data_handshaken ec =>
    by_cases hec : ec = .success
    · rw [handle_data_handshake, if_neg (not_not.mpr hec), kept_takeUpWork]
      simp only [callOf, uploader, hec, if_true, true_and, keptAfter_ite]
      rfl
    · rw [handle_data_handshake, if_pos hec]
      simp only [callOf, uploader, hec, false_and, if_false]
      rfl
  | data_sent c ec =>
    exact kept_handle_data_send_callback { s with data_ops := s.data_ops.erase ⟨.data_send, c⟩ } ec
  | data_received => simp [receives] at hr
  | data_async_sent c ec =>
    exact kept_handle_data_async_send_callback env
      { s with data_ops := s.data_ops.erase ⟨.data_async_send, c⟩ } ec
  | timer => exact absurd rfl hup
  | probe_received => exact absurd rfl hup
  | handshaken => exact absurd rfl hup
  | elsewhere store => exact absurd rfl (he store)
  | _ => rfl

theorem Stepped.held {env : Env} {s s' : Session} {e : Event} (h : Stepped env s e s')
    (he : ∀ store, e ≠ .elsewhere store) (hr : receives e = false) :
    s'.held = s.heldAfter (s.callOf env e) :=
  held_of_kept (h.kept he hr)

/-- What an event does to the table: it makes its call, if it has one. -/
theorem Stepped.table {env : Env} {s s' : Session} {e : Event} (h : Stepped env s e s')
    (he : ∀ store, e ≠ .elsewhere store) :
    s'.m_fs_objects_table.table = (applied s.m_fs_objects_table (s.callOf env e)).table := by
  by_cases hr : receives e = true
  · cases h with
    | data_received c ec received =>
      exact table_handle_data_async_receive_callback env
        { s with
          data_ops := s.data_ops.erase ⟨.data_async_receive, c⟩
          m_receive_buffer := s.m_receive_buffer ++ received } ec received.length
    | _ => simp [receives] at hr
  · exact congrArg Held.table (h.held he (by simpa using hr))

end Session

end asio_ftp.base_session
