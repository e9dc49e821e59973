-- The laws of the files under way. The sessions of a server write and read the files of the data
-- directory at the same time. As long as nobody opens a file in the hands of another, each upload
-- puts the bytes that came for it in its file, and each download sends the file as it found it,
-- however the events of the sessions mix.
import AsioFtp.Completions
import AsioFtp.Frames
import AsioFtp.Lib.Sharing

namespace asio_ftp.base_session

open helpers fs_objects send_loop

namespace Session

/-! ## The streams after an event -/

/-- The streams of a session, and what its download was last given to send. -/
structure Streams where
  receive : Option OFStream
  send : Option IFStream
  chunk : Bytes

def streams (s : Session) : Streams where
  receive := s.m_receive_file_stream
  send := s.m_send_file_stream
  chunk := s.m_send_buffer

/-- The download is the work that a new connection picks up. -/
def SendsPending (s : Session) : Prop :=
  s.m_pending_directory_list = [] ∧ s.m_pending_write_file = [] ∧ s.m_sendable_file_id ≠ []

/-- The command is a RETR that starts its download at once, because the data socket is open. -/
def SendsNow (s : Session) (command : Bytes) : Prop :=
  s.m_connection_stage = .LOGGED_IN ∧ command = lit "RETR" ∧ s.data_socket_open = true

instance (s : Session) : Decidable s.SendsPending := inferInstanceAs (Decidable (_ ∧ _))

instance (s : Session) (c : Bytes) : Decidable (s.SendsNow c) := inferInstanceAs (Decidable (_ ∧ _))

/-- The session once a late RETR parsed its argument, but for its replies. -/
def requesting (s : Session) (argument : Bytes) : Session :=
  { s with m_sendable_file_id := s.fileOfRETR argument }

/-- The session that calls `data_send_file`, if the event leads to that. -/
def downloader (s : Session) : Event → Option Session
  | .control_received ec received =>
    let (command, argument) := handle_control_receive_callback ec received
    if s.SendsNow command then some (s.requesting argument) else none
  | .accepted ec =>
    if ec = .success ∧ s.session_class = .session ∧ s.SendsPending then some s else none
  | .data_handshaken ec => if ec = .success ∧ s.SendsPending then some s else none
  | _ => none

/-- The file that `data_send_file` opens. -/
def offered (env : Env) (s : Session) : Option Bytes :=
  if s.sendOpens env s.m_sendable_file_id = true then some s.m_sendable_file_id else none

/-- The end of a write of a download. -/
def sends : Event → Bool
  | .data_async_sent .. => true
  | _ => false

/-- What an event other than a callback of a transfer does to the streams: it leaves them, or starts
an upload or a download. -/
inductive Opened (env : Env) (s : Session) (e : Event) (s' : Session) : Prop
  | none (hu : s.uploader e = none) (hd : s.downloader e = none) (h : s'.streams = s.streams)
  | upload (t) (hu : s.uploader e = some t) (hd : s.downloader e = none)
      (h : s'.streams = { s.streams with receive := (t.openReceiveFile env).m_receive_file_stream })
  | download (t) (hu : s.uploader e = none) (hd : s.downloader e = some t)
      (h : s'.streams = (t.data_send_file env).streams)

section
variable (env : Env) (s : Session)

@[simp] theorem streams_data_close : s.data_close.streams = s.streams := by
  obtain ⟨o, n, h⟩ := s.data_close_eq
  rw [h]
  rfl

theorem streams_data_receive_file : (s.data_receive_file env).streams =
    { s.streams with receive := (s.openReceiveFile env).m_receive_file_stream } := by
  unfold data_receive_file
  split
  · exact streams_data_close _
  · rfl

/-- A download that starts reads its first part at once. -/
theorem streams_data_send_file : (s.data_send_file env).streams =
    if s.sendOpens env s.m_sendable_file_id = true then
      { s.streams with
        send := some (after (newStream env s) (readOf env s (newStream env s)))
        chunk := (readOf env s (newStream env s)).chunk }
    else { s.streams with send := some (newStream env s) } := by
  unfold data_send_file
  cases ho : s.sendOpens env s.m_sendable_file_id
  · rw [if_pos rfl, if_neg (by simp), streams_data_close]
    rfl
  · rw [if_neg (by simp), if_pos rfl,
      data_async_send_eq env (f := newStream env s) (s := s.openSendFile env) rfl]
    rfl

theorem streams_takeUpWork : (s.takeUpWork env).streams =
    if s.StoresPending then
      { s.streams with receive := (s.openReceiveFile env).m_receive_file_stream }
    else if s.SendsPending then (s.data_send_file env).streams
    else s.streams := by
  unfold takeUpWork
  by_cases h1 : s.m_pending_directory_list = []
  · rw [if_neg (not_not.mpr h1)]
    by_cases h2 : s.m_pending_write_file = []
    · have hno : ¬ s.StoresPending := fun h => h.2 h2
      rw [if_neg (not_not.mpr h2), if_neg hno]
      by_cases h3 : s.m_sendable_file_id = []
      · have hno' : ¬ s.SendsPending := fun h => h.2.2 h3
        rw [if_neg (not_not.mpr h3), if_neg hno']
      · have hyes : s.SendsPending := ⟨h1, h2, h3⟩
        rw [if_pos h3, if_pos hyes]
    · have hyes : s.StoresPending := ⟨h1, h2⟩
      rw [if_pos h2, if_pos hyes]
      exact s.streams_data_receive_file env
  · have hno : ¬ s.StoresPending := fun h => h1 h.1
    have hno' : ¬ s.SendsPending := fun h => h1 h.1
    rw [if_pos h1, if_neg hno, if_neg hno']
    rfl

theorem streams_run_STOR (a : Bytes) (h : s.m_connection_stage = .LOGGED_IN) :
    (s.run_STOR env a).streams = if s.StoresNow (lit "STOR") a then
      { s.streams with
        receive := ((s.set_pending_write a).openReceiveFile env).m_receive_file_stream }
    else s.streams := by
  unfold run_STOR
  by_cases ha : a = []
  · have hno : ¬ s.StoresNow (lit "STOR") a := fun h => h.2.2.2.1 ha
    rw [if_pos ha, if_neg hno]
    rfl
  by_cases hp : s.m_pending_write_file = []
  · rw [if_neg ha, if_neg (not_not.mpr hp), run_pending_STOR]
    by_cases hm : (s.set_pending_write a).ParentMissing (s.set_pending_write a).m_pending_write_file
    · have hno : ¬ s.StoresNow (lit "STOR") a := fun h => h.2.2.2.2.2 hm
      rw [if_pos hm, if_neg hno]
      rfl
    rw [if_neg hm]
    by_cases ho : s.data_socket_open = true
    · have hyes : s.StoresNow (lit "STOR") a := ⟨h, rfl, ho, ha, hp, hm⟩
      have ho' : (s.set_pending_write a).data_socket_open = true := ho
      rw [if_pos ho', if_pos hyes]
      exact ((s.set_pending_write a).control_send
        (lit "150 Opening connection.")).streams_data_receive_file env
    · have hno : ¬ s.StoresNow (lit "STOR") a := fun h => ho h.2.2.1
      have ho' : ¬ (s.set_pending_write a).data_socket_open = true := ho
      rw [if_neg ho', if_neg hno]
      rfl
  · have hno : ¬ s.StoresNow (lit "STOR") a := fun h => hp h.2.2.2.2.1
    rw [if_neg ha, if_pos hp, if_neg hno]

theorem streams_RETR (a : Bytes) (h : s.m_connection_stage = .LOGGED_IN) :
    ((s.parse_RETR_argument a).run_RETR env).streams = if s.SendsNow (lit "RETR") then
      ((s.requesting a).data_send_file env).streams
    else s.streams := by
  obtain ⟨id, sent, reads, writes, heq⟩ := s.parse_RETR_argument_eq a
  have hid : id = s.fileOfRETR a := by
    rw [← (s.parse_RETR_argument_file a).2.2.2, heq]
  unfold run_RETR
  by_cases ho : s.data_socket_open = true
  · have hyes : s.SendsNow (lit "RETR") := ⟨h, rfl, ho⟩
    have ho' : (s.parse_RETR_argument a).data_socket_open = true := by rw [heq]; exact ho
    rw [if_pos ho', if_pos hyes, streams_data_send_file, heq, hid]
    exact streams_data_send_file env
      ({ s.requesting a with
        sent := sent
        control_reads := reads
        control_writes := writes }.control_send (lit "150 Opening connection."))
  · have hno : ¬ s.SendsNow (lit "RETR") := fun h => ho h.2.2
    have ho' : ¬ (s.parse_RETR_argument a).data_socket_open = true := by rw [heq]; exact ho
    rw [if_neg ho', if_neg hno, heq]
    rfl

/-- What a command does to the streams. -/
theorem Handled.streams {env : Env} {s t : Session} {c a : Bytes} (h : Handled env s c a t) :
    t.streams =
      if s.StoresNow c a then
        { s.streams with
          receive := ((s.set_pending_write a).openReceiveFile env).m_receive_file_stream }
      else if s.SendsNow c then ((s.requesting a).data_send_file env).streams
      else s.streams := by
  have nothing : ∀ {t : Session}, t.streams = s.streams →
      (s.m_connection_stage ≠ .LOGGED_IN ∨ c ≠ lit "STOR" ∧ c ≠ lit "RETR") → t.streams =
        if s.StoresNow c a then
          { s.streams with
            receive := ((s.set_pending_write a).openReceiveFile env).m_receive_file_stream }
        else if s.SendsNow c then ((s.requesting a).data_send_file env).streams
        else s.streams := by
    intro t ht hc
    have hu : ¬ s.StoresNow c a := fun h => hc.elim (fun hl => hl h.1) (fun hc => hc.1 h.2.1)
    have hd : ¬ s.SendsNow c := fun h => hc.elim (fun hl => hl h.1) (fun hc => hc.2 h.2.1)
    rw [if_neg hu, if_neg hd, ht]
  have other : c ∉ SPECIAL_COMMANDS → c ≠ lit "STOR" ∧ c ≠ lit "RETR" := by
    intro hc
    simp only [SPECIAL_COMMANDS, List.mem_cons, not_or] at hc
    exact ⟨hc.2.1, hc.2.2.1⟩
  cases h with
  | empty => exact nothing rfl (Or.inr (by decide))
  | unknown _ _ _ hc => exact nothing rfl (Or.inr (other fun h => hc (special_supported h)))
  | user_refused => exact nothing rfl (Or.inr (by decide))
  | user_accepted => exact nothing rfl (Or.inr (by decide))
  | pass_refused => exact nothing rfl (Or.inr (by decide))
  | pass_accepted => exact nothing rfl (Or.inr (by decide))
  | system => exact nothing rfl (Or.inr (by decide))
  | quit => exact nothing rfl (Or.inr (by decide))
  | not_logged_in _ _ _ _ h => exact nothing rfl (Or.inl h)
  | plain _ _ _ _ hc => exact nothing rfl (Or.inr (other (answered_once c (by simp [hc])).2.2.1))
  | options =>
    refine nothing ?_ (Or.inr (by decide))
    unfold handle_OPTS
    split <;> rfl
  | moved _ _ _ _ _ hc _ =>
    exact nothing rfl (Or.inr (other (answered_once c
      (List.mem_append_left _ (List.mem_append_right _ hc))).2.2.1))
  | stored _ _ _ _ hc =>
    exact nothing rfl (Or.inr (other (answered_once c (List.mem_append_right _ hc)).2.2.1))
  | list =>
    refine nothing ?_ (Or.inr (by decide))
    unfold run_LIST run_pending_LIST
    split
    · rfl
    · split <;> rfl
  | stor _ h =>
    have hno : ¬ s.SendsNow (lit "STOR") := fun h => absurd h.2.1 (by decide)
    rw [if_neg hno]
    exact s.streams_run_STOR env a h
  | retr _ h =>
    have hno : ¬ s.StoresNow (lit "RETR") a := fun h => absurd h.2.1 (by decide)
    rw [if_neg hno]
    exact s.streams_RETR env a h
  | size =>
    refine nothing ?_ (Or.inr (by decide))
    unfold handle_SIZE
    simp only
    split <;> rfl

end

/-- A new connection picks up an upload or a download, or neither. -/
theorem opened_of_work {env : Env} {s s' : Session} {e : Event}
    (hu : s.uploader e = if s.StoresPending then some s else none)
    (hd : s.downloader e = if s.SendsPending then some s else none)
    (h : s'.streams = (s.takeUpWork env).streams) : Opened env s e s' := by
  rw [streams_takeUpWork] at h
  by_cases hup : s.StoresPending
  · have hno : ¬ s.SendsPending := fun h => hup.2 h.2.1
    rw [if_pos hup] at hu h
    rw [if_neg hno] at hd
    exact .upload s hu hd h
  rw [if_neg hup] at hu h
  by_cases hdown : s.SendsPending
  · rw [if_pos hdown] at hd h
    exact .download s hu hd h
  · rw [if_neg hdown] at hd h
    exact .none hu hd h

/-- What an event other than a callback of a transfer does to the streams. -/
theorem Stepped.opened {env : Env} {s s' : Session} {e : Event} (h : Stepped env s e s')
    (hr : receives e = false) (hs : sends e = false) : Opened env s e s' := by
  by_cases hup : startsUp e = true
  · have hnone : s.uploader e = none ∧ s.downloader e = none := by
      cases e <;> first | exact ⟨rfl, rfl⟩ | simp [startsUp] at hup
    refine .none hnone.1 hnone.2 ?_
    rw [(h.startup hup).1]
    rfl
  cases h with
  | control_received ec received =>
    have hh := ({ s with control_reads := s.control_reads - 1 }.handle_command_handled env
      (handle_control_receive_callback ec received).1
      (handle_control_receive_callback ec received).2).streams
    by_cases hu : s.StoresNow (handle_control_receive_callback ec received).1
        (handle_control_receive_callback ec received).2
    · have hd : ¬ s.SendsNow (handle_control_receive_callback ec received).1 := by
        intro hd
        have hcommands : lit "RETR" = lit "STOR" := hd.2.1.symm.trans hu.2.1
        revert hcommands
        decide
      refine .upload _ (if_pos hu) (if_neg hd) ?_
      exact hh.trans (if_pos hu)
    by_cases hd : s.SendsNow (handle_control_receive_callback ec received).1
    · refine .download _ (if_neg hu) (if_pos hd) ?_
      refine hh.trans ((if_neg hu).trans ((if_pos hd).trans ?_))
      rw [streams_data_send_file, streams_data_send_file]
      rfl
    · refine .none (if_neg hu) (if_neg hd) ?_
      exact hh.trans ((if_neg hu).trans (if_neg hd))
  | accepted ec =>
    by_cases hec : ec = .success
    · subst hec
      rw [handle_accept_success]
      by_cases hclass : s.session_class = .session
      · refine opened_of_work ?_ ?_ ?_
        · simp only [uploader, hclass, true_and]
        · simp only [downloader, hclass, true_and]
        · rw [if_pos hclass, streams_takeUpWork, streams_takeUpWork, streams_data_send_file,
            streams_data_send_file]
          rfl
      · refine .none ?_ ?_ ?_
        · simp only [uploader, hclass, false_and, and_false, if_false]
        · simp only [downloader, hclass, false_and, and_false, if_false]
        · rw [if_neg hclass]
          rfl
    · rw [handle_accept, if_pos hec]
      refine .none ?_ ?_ rfl
      · simp only [uploader, hec, false_and, if_false]
      · simp only [downloader, hec, false_and, if_false]
  | data_handshaken ec =>
    by_cases hec : ec = .success
    · refine opened_of_work ?_ ?_ ?_
      · simp only [uploader, hec, true_and]
      · simp only [downloader, hec, true_and]
      · rw [handle_data_handshake, if_neg (not_not.mpr hec), streams_takeUpWork,
          streams_takeUpWork, streams_data_send_file, streams_data_send_file]
        rfl
    · rw [handle_data_handshake, if_pos hec]
      refine .none ?_ ?_ rfl
      · simp only [uploader, hec, false_and, if_false]
      · simp only [downloader, hec, false_and, if_false]
  | data_sent c ec =>
    refine .none rfl rfl ?_
    unfold handle_data_send_callback
    split
    · rfl
    · exact streams_data_close _
  | data_received => simp [receives] at hr
  | data_async_sent c ec => simp [sends] at hs
  | timer => exact absurd rfl hup
  | probe_received => exact absurd rfl hup
  | handshaken => exact absurd rfl hup
  | _ => exact .none rfl rfl rfl

section
variable (env : Env) (s : Session)

/-- A callback of an upload ends it, or goes on with the stream after its write. -/
theorem streams_handle_data_async_receive_callback {f : OFStream}
    (h : s.m_receive_file_stream = some f) (ec : ErrorCode) (n : Nat) :
    (s.handle_data_async_receive_callback env ec n).streams =
      { s.streams with
        receive :=
          if s.receiveEnds env ec n = true then none
          else some (if n > 0 then (f.insert env s.m_receive_buffer).1 else f) } := by
  obtain ⟨size, stream, store, buffer, heq⟩ := s.absorb_eq env f n
  have hstream := s.absorb_stream env h n
  rw [s.handle_data_async_receive_callback_eq env h]
  split
  · rw [data_async_receive_end, hstream]
    simp only [streams_data_close]
    rw [heq]
    rfl
  · rw [← hstream, heq]
    rfl

/-- A callback of a download ends it, or goes on with the stream after its next read. -/
theorem streams_handle_data_async_send_callback {f : IFStream} (h : s.m_send_file_stream = some f)
    (ec : ErrorCode) : (s.handle_data_async_send_callback env ec).streams =
      if s.sendEnds ec = true then { s.streams with send := none }
      else { s.streams with
        send := some (after f (readOf env s f))
        chunk := (readOf env s f).chunk } := by
  rw [s.handle_data_async_send_callback_eq env h]
  split
  · rw [data_async_send_end, h]
    simp only [streams_data_close]
    rfl
  · rw [data_async_send_eq env h, sendRead, h]
    rfl

end

end Session

end asio_ftp.base_session

namespace asio_ftp.contents

open helpers fs_objects histories base_session base_session.Session server uploads send_loop sharing

/-! ## What a session moves -/

/-- The bytes that came for the upload of a session since it opened its file, those that it put in
the file, and those that its download was given to send since it opened its file. -/
structure Moved where
  got : Bytes
  put : Bytes
  given : Bytes

/-- The same after an event, which left the session `s'`. -/
def Moved.after (m : Moved) (env : Env) (s : Session) (e : Event) (s' : Session) : Moved where
  got :=
    match e with
    | .data_received _ _ received => m.got ++ received
    | _ => if ((s.uploader e).bind (opened env)).isSome then [] else m.got
  put :=
    match e with
    | .data_received .. => m.put ++ leftovers.writes env s e
    | _ => if ((s.uploader e).bind (opened env)).isSome then [] else m.put
  given :=
    match e with
    | .data_async_sent .. =>
      if s'.m_send_file_stream.isSome then m.given ++ s'.m_send_buffer else m.given
    | _ => if ((s.downloader e).bind (offered env)).isSome then s'.m_send_buffer else m.given

/-- The file that a session writes, with what it put there. -/
def writing (s : Session) (m : Moved) : Option (Bytes × Bytes) :=
  s.m_receive_file_stream.bind fun f => if f.is_open = true then some (f.id, m.put) else none

/-- The file that a session reads, with what it was at the open. -/
def reading (s : Session) : Option (Bytes × Bytes) :=
  s.m_send_file_stream.bind fun f => if f.is_open = true then some (f.id, f.content) else none

/-- A session by itself: an upload writes at the end of its file and has the rest of what came, and
a download gave what it read. -/
structure Moving (s : Session) (m : Moved) : Prop where
  buffer : s.m_receive_buffer = []
  upload : ∀ f ∈ s.m_receive_file_stream, f.is_open = true →
    f.failbit = false ∧ (f.app = true ∨ f.pos = m.put.length) ∧ m.put ++ f.buffered = m.got
  unopened : ∀ f ∈ s.m_receive_file_stream, f.is_open = false → f.buffered = []
  download : ∀ f ∈ s.m_send_file_stream, f.is_open = true →
    m.given = f.content.take f.pos ∧ f.pos ≤ f.content.length ∧
      (f.eofbit = true → f.pos = f.content.length)

/-- The stream takes what came for an upload, and the disk what the stream has at its close. -/
def TakesItsBytes (env : Env) (s : Session) : Event → Prop
  | .data_received _ ec received =>
    (received = [] ∨ leftovers.takesAll env (filled s received) = true) ∧
      ((filled s received).receiveEnds env ec received.length = true →
        leftovers.closesAll env (filled s received) received.length = true)
  | _ => True

instance (env : Env) (s : Session) : (e : Event) → Decidable (TakesItsBytes env s e)
  | .data_received .. => inferInstanceAs (Decidable (_ ∧ _))
  | .control_sent .. | .control_received .. | .accepted .. | .data_handshaken .. | .data_sent ..
  | .data_async_sent .. | .data_shutdown | .timer .. | .probe_sent .. | .probe_received ..
  | .handshaken .. | .elsewhere .. => inferInstanceAs (Decidable True)

theorem mem_writing {s : Session} {m : Moved} {i a : Bytes} : writing s m = some (i, a) ↔
    ∃ f, s.m_receive_file_stream = some f ∧ f.is_open = true ∧ f.id = i ∧ m.put = a := by
  simp only [writing, Option.bind_eq_some_iff, Option.ite_none_right_eq_some, Option.some.injEq,
    Prod.mk.injEq]

theorem mem_reading {s : Session} {i a : Bytes} : reading s = some (i, a) ↔
    ∃ f, s.m_send_file_stream = some f ∧ f.is_open = true ∧ f.id = i ∧ f.content = a := by
  simp only [reading, Option.bind_eq_some_iff, Option.ite_none_right_eq_some, Option.some.injEq,
    Prod.mk.injEq]

/-! ## The files after an event -/

/-- A call makes no file and changes none. It may remove some. -/
theorem blobs_applied (st : Store) (o : Option Op) (id : Bytes) :
    ∀ c ∈ (applied st o).blobs id, c ∈ st.blobs id := by
  intro c hc
  cases o with
  | none => exact hc
  | some o =>
    cases o with
    | create_object uuid now u n p size d =>
      simpa only [applied, Option.elim_some, apply, create_object_blobs] using hc
    | update_object_size now u n p size =>
      simpa only [applied, Option.elim_some, apply, update_object_size_blobs] using hc
    | remove_fs_object u n p =>
      simp only [applied, Option.elim_some, apply, frames.remove_fs_object_blobs] at hc
      split at hc
      · cases hc
      · exact hc
    | get_object u n p => exact hc
    | get_objects_by_path u p => exact hc

theorem uploader_same {s u : Session} {e : Event} (h : s.uploader e = some u) :
    u.m_receive_file_stream = s.m_receive_file_stream := by
  cases e with
  | control_received ec received =>
    obtain ⟨-, h⟩ := Option.ite_none_right_eq_some.mp h
    obtain rfl := Option.some.inj h
    rfl
  | accepted ec =>
    obtain ⟨-, h⟩ := Option.ite_none_right_eq_some.mp h
    obtain rfl := Option.some.inj h
    rfl
  | data_handshaken ec =>
    obtain ⟨-, h⟩ := Option.ite_none_right_eq_some.mp h
    obtain rfl := Option.some.inj h
    rfl
  | _ => cases h

/-- The start of an upload changes at most the file that it opens, and that of the stream which
makes place, if this one has bytes left. -/
theorem blobs_opening {env : Env} {u : Session} {st : Store} {id : Bytes}
    (hold : ∀ f ∈ u.m_receive_file_stream, f.id = id → f.buffered = []) :
    (u.opening env st).blobs id =
      ((u.opened env).elim st fun target => openBlob st target.id target.app).blobs id := by
  unfold opening
  simp only
  cases hf : u.m_receive_file_stream with
  | none => rfl
  | some f =>
    rw [Option.elim_some, closeBlob]
    by_cases hid : f.id = id
    · rw [OFStream.close, hold f hf hid, List.take_nil, writeBlob_nil]
    · exact if_neg (Ne.symm hid)

section
variable {env : Env} {s s' : Session} {e : Event}

/-- An event that ends no read of the data connection changes at most the file that it opens, and
that of the stream which makes place. -/
theorem blobs_of_step (hst : Stepped env s e s') (hne : ∀ store, e ≠ .elsewhere store)
    (hr : receives e = false) (id : Bytes)
    (hid : ∀ target ∈ (s.uploader e).bind (opened env), target.id ≠ id)
    (hold : s.uploader e ≠ none → ∀ f ∈ s.m_receive_file_stream, f.id = id → f.buffered = []) :
    ∀ c ∈ s'.m_fs_objects_table.blobs id, c ∈ s.m_fs_objects_table.blobs id := by
  intro c hc
  have hstore : s'.m_fs_objects_table = _ := congrArg Files.store (hst.kept hne hr)
  rw [hstore] at hc
  refine blobs_applied s.m_fs_objects_table (s.callOf env e) id c ?_
  cases hu : s.uploader e with
  | none =>
    rw [keptAfter, hu] at hc
    exact hc
  | some u =>
    rw [keptAfter, hu] at hc
    rw [hu, Option.bind_some] at hid
    have hold := hold (by rw [hu]; exact Option.some_ne_none u)
    simp only [afterOpening] at hc
    rw [blobs_opening (uploader_same hu ▸ hold)] at hc
    cases ht : u.opened env with
    | none =>
      rw [ht] at hc
      exact hc
    | some target =>
      rw [ht] at hc
      have hne : ¬ id = target.id := fun h => hid target ht h.symm
      simpa only [Option.elim_some, openBlob, hne, if_false] using hc

/-- The file that an upload opens is empty, where a new one gets a new name. -/
theorem blob_of_opened (hst : Stepped env s e s') (hne : ∀ store, e ≠ .elsewhere store)
    (hr : receives e = false) {target : Target}
    (ht : (s.uploader e).bind (opened env) = some target)
    (hfresh : target.app = true → s.m_fs_objects_table.blobs target.id = none)
    (hold : ∀ f ∈ s.m_receive_file_stream, f.id = target.id → f.buffered = []) :
    ∀ c ∈ s'.m_fs_objects_table.blobs target.id, c = [] := by
  intro c hc
  have hstore : s'.m_fs_objects_table = _ := congrArg Files.store (hst.kept hne hr)
  obtain ⟨u, hu, ht⟩ := Option.bind_eq_some_iff.mp ht
  rw [hstore, keptAfter, hu] at hc
  simp only [afterOpening] at hc
  rw [blobs_opening (uploader_same hu ▸ hold), ht] at hc
  simp only [Option.elim_some, openBlob, if_true, Option.mem_some] at hc
  by_cases happ : target.app = true
  · have hnone : (applied s.m_fs_objects_table (s.callOf env e)).blobs target.id = none := by
      by_contra hsome
      obtain ⟨d, hd⟩ := Option.ne_none_iff_exists'.mp hsome
      have hd := blobs_applied _ _ _ d hd
      rw [hfresh happ] at hd
      cases hd
    rw [if_pos happ, hnone] at hc
    exact hc.symm
  · rw [if_neg happ] at hc
    exact hc.symm

end

/-! ## One event of a session -/

/-- What an event does, next to what the other sessions hold: it changes at most the file that its
session writes or opens, and what its session writes and reads after it is as it should be. -/
structure Does (env : Env) (s : Session) (e : Event) (s' : Session) (m : Moved) : Prop where
  kept : ∀ i, (∀ a, writing s m ≠ some (i, a)) →
    (∀ target ∈ (s.uploader e).bind (opened env), target.id ≠ i) →
    ∀ c ∈ s'.m_fs_objects_table.blobs i, c ∈ s.m_fs_objects_table.blobs i
  writer : ∀ i a, writing s' (m.after env s e s') = some (i, a) →
    (∀ c ∈ s'.m_fs_objects_table.blobs i, c = a) ∧
      ((∃ b, writing s m = some (i, b)) ∨
        ∃ target ∈ (s.uploader e).bind (opened env), target.id = i)
  reader : ∀ i a, reading s' = some (i, a) →
    reading s = some (i, a) ∨
      (i ∈ (s.downloader e).bind (offered env) ∧ ∀ c ∈ s'.m_fs_objects_table.blobs i, c = a)
  either : (s.uploader e).bind (opened env) = none ∨ (s.downloader e).bind (offered env) = none
  moving : Moving s' (m.after env s e s')

/-- What the callback of an upload does, once its bytes were taken: it writes `w`. -/
structure Wrote (f : OFStream) (m : Moved) (received w : Bytes) (s s' : Session) : Prop where
  buffer : s'.m_receive_buffer = []
  send : s'.m_send_file_stream = s.m_send_file_stream
  stream : ∀ g ∈ s'.m_receive_file_stream, g.id = f.id ∧ g.is_open = f.is_open ∧
    (f.is_open = true → g.failbit = false ∧ (g.app = true ∨ g.pos = (m.put ++ w).length) ∧
      m.put ++ w ++ g.buffered = m.got ++ received) ∧
    (f.is_open = false → g.buffered = [])
  others : ∀ i, i ≠ f.id ∨ f.is_open = false →
    s'.m_fs_objects_table.blobs i = s.m_fs_objects_table.blobs i
  file : f.is_open = true → (∀ c ∈ s.m_fs_objects_table.blobs f.id, c = m.put) →
    ∀ c ∈ s'.m_fs_objects_table.blobs f.id, c = m.put ++ w
  ended : s'.m_receive_file_stream = none → f.is_open = true → m.put ++ w = m.got ++ received

section
variable {env : Env} {s s' : Session} {m : Moved}

/-- The stream takes all that came, and what came is in the file or in the stream then. A stream
that did not open takes nothing. -/
structure Took (f : OFStream) (m : Moved) (received : Bytes) (r : OFStream × Bytes × Bytes) :
    Prop where
  left : r.2.2 = []
  good : f.is_open = true → r.1.failbit = false
  append : f.is_open = true → m.put ++ r.2.1 ++ r.1.buffered = m.got ++ received
  unopened : f.is_open = false → r.1 = f ∧ r.2.1 = []

theorem took_inserted (hm : Moving s m) {received : Bytes}
    (htakes : received = [] ∨ leftovers.takesAll env (filled s received) = true) {f : OFStream}
    (hf : s.m_receive_file_stream = some f) :
    Took f m received (leftovers.inserted env (filled s received) f received.length) := by
  have hfilled : (filled s received).m_receive_buffer = received := by
    show s.m_receive_buffer ++ received = received
    rw [hm.buffer, List.nil_append]
  have happend := leftovers.inserted_append env (filled s received) f received.length
  by_cases hrec : received = []
  · subst hrec
    refine ⟨hfilled, fun ho => (hm.upload f hf ho).1, fun ho => ?_, fun _ => ⟨rfl, rfl⟩⟩
    show m.put ++ [] ++ f.buffered = m.got ++ []
    rw [List.append_nil, List.append_nil]
    exact (hm.upload f hf ho).2.2
  · have hpos : received.length > 0 := List.length_pos_iff.mpr hrec
    have hft : (filled s received).m_receive_file_stream = some f := hf
    have htakes := htakes.resolve_left hrec
    simp only [leftovers.takesAll, hft, hfilled] at htakes
    have hleft : (leftovers.inserted env (filled s received) f received.length).2.2 = [] := by
      rw [leftovers.inserted, if_pos hpos, hfilled]
      exact (insert_left_iff env f hrec).mpr htakes
    refine ⟨hleft, fun _ => ?_, fun ho => ?_, fun ho => ?_⟩
    · rw [leftovers.inserted, if_pos hpos, hfilled]
      exact failbit_of_takes env f hrec htakes
    · rw [hleft, List.append_nil, hfilled] at happend
      rw [List.append_assoc, happend, ← (hm.upload f hf ho).2.2, List.append_assoc]
    · simp only [takes, ho, Bool.false_and, Bool.false_eq_true] at htakes

theorem wrote_received {c : Nat} {ec : ErrorCode} {received : Bytes} (hm : Moving s m)
    (hst : Stepped env s (.data_received c ec received) s')
    (htakes : TakesItsBytes env s (.data_received c ec received)) {f : OFStream}
    (hf : s.m_receive_file_stream = some f) :
    Wrote f m received (leftovers.writes env s (.data_received c ec received)) s s' := by
  cases hst with
  | data_received c ec received ho =>
  let t : Session := { s with
    data_ops := s.data_ops.erase ⟨.data_async_receive, c⟩
    m_receive_buffer := s.m_receive_buffer ++ received }
  let g := (leftovers.inserted env t f received.length).1
  let taken := (leftovers.inserted env t f received.length).2.1
  let w := leftovers.writes env s (.data_received c ec received)
  have htook : Took f m received (leftovers.inserted env t f received.length) :=
    took_inserted hm htakes.1 hf
  have hft : t.m_receive_file_stream = some f := hf
  obtain ⟨hbuffer, hstream, hblobs⟩ :=
    leftovers.callback_writes env t hft ec received.length
  have hblobs : (t.handle_data_async_receive_callback env ec
      received.length).m_fs_objects_table.blobs =
        (writeBlob s.m_fs_objects_table f w).blobs := hblobs
  have hg : g = _ := leftovers.inserted_stream env t f received.length
  have hwritten : w = taken ++
      if t.receiveEnds env ec received.length = true then g.close env else [] := by
    show leftovers.written env t ec received.length = _
    unfold leftovers.written
    rw [hft]
  constructor
  · exact hbuffer.trans htook.left
  · exact congrArg Streams.send
      (t.streams_handle_data_async_receive_callback env hft ec received.length)
  · intro g' hg'
    obtain ⟨hgoes, hg'⟩ := Option.ite_none_left_eq_some.mp (hstream.symm.trans hg')
    obtain rfl : g = g' := Option.some.inj hg'
    rw [if_neg hgoes, List.append_nil] at hwritten
    refine ⟨by rw [hg], by rw [hg], fun ho => ⟨htook.good ho, ?_, ?_⟩, fun ho => ?_⟩
    · show g.app = true ∨ g.pos = (m.put ++ w).length
      rw [hwritten, List.length_append, hg]
      exact (hm.upload f hf ho).2.1.imp_right fun h => by rw [h]
    · show m.put ++ w ++ g.buffered = _
      rw [hwritten]
      exact htook.append ho
    · rw [show g = f from (htook.unopened ho).1]
      exact hm.unopened f hf ho
  · intro i hi
    refine (congrFun hblobs i).trans ?_
    by_cases ho : f.is_open = false
    · have hnothing : w = [] := by
        rw [hwritten, show taken = [] from (htook.unopened ho).2,
          show g = f from (htook.unopened ho).1, OFStream.close, hm.unopened f hf ho, List.take_nil,
          ite_self, List.nil_append]
      rw [hnothing, writeBlob_nil]
    · exact if_neg (hi.resolve_right ho)
  · intro ho hput x hx
    have hx : x ∈ (writeBlob s.m_fs_objects_table f w).blobs f.id := congrFun hblobs f.id ▸ hx
    cases hold : s.m_fs_objects_table.blobs f.id with
    | none => simp [writeBlob, hold] at hx
    | some old =>
      obtain rfl := hput old hold
      rw [blobs_writeBlob rfl hold (hm.upload f hf ho).2.1] at hx
      exact (Option.some.inj hx).symm
  · intro hnone ho
    have hends : t.receiveEnds env ec received.length = true := by
      by_contra hgoes
      rw [if_neg hgoes] at hstream
      cases hstream.symm.trans hnone
    have hroom : received.length = 0 ∨
        t.m_receive_buffer ≠ [] ∧ leftovers.takesAll env t = true := by
      by_cases hrec : received = []
      · exact Or.inl (by simp [hrec])
      · exact Or.inr ⟨by simp [t, hrec], htakes.1.resolve_left hrec⟩
    have hall := (leftovers.close_eq_iff env t hft received.length hroom).mpr (htakes.2 hends)
    rw [if_pos hends, show g.close env = g.buffered from hall] at hwritten
    show m.put ++ w = _
    rw [hwritten, ← List.append_assoc]
    exact htook.append ho

end

/-- What a download gave stays the part of the file up to its position, with one more read. -/
theorem given_after {env : Env} {s : Session} {f : IFStream} {given : Bytes} (ho : f.is_open = true)
    (he : f.eofbit = false) (hgiven : given = f.content.take f.pos)
    (hle : f.pos ≤ f.content.length)
    (hsame : ∀ c ∈ s.m_fs_objects_table.blobs f.id, c = f.content) :
    let g := after f (readOf env s f)
    given ++ (readOf env s f).chunk = g.content.take g.pos ∧ g.pos ≤ g.content.length ∧
      (g.eofbit = true → g.pos = g.content.length) := by
  have hcontent : (s.m_fs_objects_table.blobs f.id).getD f.content = f.content := by
    cases hb : s.m_fs_objects_table.blobs f.id with
    | none => rfl
    | some c => exact hsame c hb
  have hgives := gives_readOf env s f ho he (hcontent.symm ▸ hle)
  rw [hcontent] at hgives
  have hlen := hgives.length_le
  refine ⟨hgiven ▸ completions.take_of_gives hgives, ?_, fun heof => ?_⟩
  · show f.pos + (readOf env s f).chunk.length ≤ f.content.length
    omega
  · refine hgives.ends ?_ heof
    by_contra hfail
    have hstays := congrArg Read.eofbit (hgives.stays (by simpa using hfail))
    rw [show (readOf env s f).eofbit = true from heof, he] at hstays
    cases hstays

section
variable {env : Env} {s s' : Session} {m : Moved} (hm : Moving s m)
  (hw : ∀ i a, writing s m = some (i, a) → ∀ c ∈ s.m_fs_objects_table.blobs i, c = a)
include hm

/-- Without its stream, the end of a read crashes the process. -/
theorem crashed_received {c : Nat} {ec : ErrorCode} {received : Bytes}
    (hst : Stepped env s (.data_received c ec received) s')
    (htakes : TakesItsBytes env s (.data_received c ec received))
    (hf : s.m_receive_file_stream = none) : s'.m_receive_buffer = [] ∧
      s'.streams = s.streams ∧ s'.m_fs_objects_table = s.m_fs_objects_table := by
  have hfilled : (filled s received).m_receive_file_stream = none := hf
  have hrec : received = [] := by
    refine htakes.1.resolve_right ?_
    simp only [leftovers.takesAll, hfilled]
    exact Bool.false_ne_true
  have hcrash : ∀ t : Session, t.m_receive_file_stream = none →
      t.handle_data_async_receive_callback env ec received.length = t.crash := by
    intro t ht
    unfold handle_data_async_receive_callback
    rw [ht]
  cases hst with
  | data_received c ec received ho =>
    let t : Session := { s with
      data_ops := s.data_ops.erase ⟨.data_async_receive, c⟩
      m_receive_buffer := s.m_receive_buffer ++ received }
    have h : t.handle_data_async_receive_callback env ec received.length = t.crash := hcrash t hf
    refine ⟨(congrArg Session.m_receive_buffer h).trans ?_, (congrArg Session.streams h).trans rfl,
      (congrArg Session.m_fs_objects_table h).trans rfl⟩
    show s.m_receive_buffer ++ received = []
    rw [hm.buffer, hrec, List.nil_append]

include hw

/-- The end of a read of the data connection. -/
theorem does_received {c : Nat} {ec : ErrorCode} {received : Bytes}
    (hst : Stepped env s (.data_received c ec received) s')
    (htakes : TakesItsBytes env s (.data_received c ec received)) :
    Does env s (.data_received c ec received) s' m := by
  rcases Option.eq_none_or_eq_some s.m_receive_file_stream with hf | ⟨f, hf⟩
  · obtain ⟨hbuffer, hstreams, hstore⟩ := crashed_received hm hst htakes hf
    have hnone : s'.m_receive_file_stream = none := (congrArg Streams.receive hstreams).trans hf
    have hsend : s'.m_send_file_stream = s.m_send_file_stream := congrArg Streams.send hstreams
    constructor
    · intro i _ _ x hx
      exact hstore ▸ hx
    · intro i a ha
      obtain ⟨g, hg, -⟩ := mem_writing.mp ha
      rw [hnone] at hg
      cases hg
    · intro i a ha
      refine Or.inl ?_
      rwa [reading, hsend] at ha
    · exact Or.inl rfl
    · refine ⟨hbuffer, fun g hg => ?_, fun g hg => ?_, fun g hg => ?_⟩
      · rw [hnone] at hg
        cases hg
      · rw [hnone] at hg
        cases hg
      · exact hm.download g (hsend ▸ hg)
  · have hwrote := wrote_received hm hst htakes hf
    constructor
    · intro i hi _ x hx
      have hother : i ≠ f.id ∨ f.is_open = false := by
        by_contra hno
        obtain ⟨hid, ho⟩ := not_or.mp hno
        exact hi m.put (mem_writing.mpr ⟨f, hf, by simpa using ho, (not_not.mp hid).symm, rfl⟩)
      exact hwrote.others i hother ▸ hx
    · intro i a ha
      obtain ⟨g, hg, ho, rfl, rfl⟩ := mem_writing.mp ha
      obtain ⟨hid, hopen, -⟩ := hwrote.stream g hg
      rw [hopen] at ho
      have hmine : writing s m = some (f.id, m.put) := mem_writing.mpr ⟨f, hf, ho, rfl, rfl⟩
      rw [hid]
      exact ⟨hwrote.file ho (hw f.id m.put hmine), Or.inl ⟨m.put, hmine⟩⟩
    · intro i a ha
      refine Or.inl ?_
      rwa [reading, hwrote.send] at ha
    · exact Or.inl rfl
    · refine ⟨hwrote.buffer, fun g hg ho => ?_, fun g hg ho => ?_, fun g hg => ?_⟩
      · obtain ⟨-, hopen, hgood, -⟩ := hwrote.stream g hg
        exact hgood (hopen ▸ ho)
      · obtain ⟨-, hopen, -, hnothing⟩ := hwrote.stream g hg
        exact hnothing (hopen ▸ ho)
      · exact hm.download g (hwrote.send ▸ hg)

/-- The end of a write of a download. -/
theorem does_sent {c : Nat} {ec : ErrorCode} (hst : Stepped env s (.data_async_sent c ec) s')
    (hr : ∀ i a, reading s = some (i, a) → ∀ c ∈ s.m_fs_objects_table.blobs i, c = a) :
    Does env s (.data_async_sent c ec) s' m := by
  have hkept := hst.kept (fun _ h => nomatch h) rfl
  have hstore : s'.m_fs_objects_table = s.m_fs_objects_table := congrArg Files.store hkept
  have hbuffer : s'.m_receive_buffer = [] := (congrArg Files.buffer hkept).trans hm.buffer
  -- The streams: the callback crashes without one, ends the download, or reads on.
  have hcases : s'.streams = { s.streams with send := none } ∨
      ∃ f, s.m_send_file_stream = some f ∧ f.eofbit = false ∧ s'.streams =
        { s.streams with
          send := some (after f (readOf env s f))
          chunk := (readOf env s f).chunk } := by
    cases hst with
    | data_async_sent c ec ho =>
      let t : Session := { s with data_ops := s.data_ops.erase ⟨.data_async_send, c⟩ }
      rcases Option.eq_none_or_eq_some s.m_send_file_stream with hf | ⟨f, hf⟩
      · refine Or.inl ?_
        have hcrash : t.handle_data_async_send_callback env ec = t.crash := by
          have ht : t.m_send_file_stream = none := hf
          rw [handle_data_async_send_callback, ht]
        refine (congrArg Session.streams hcrash).trans ?_
        rw [← hf]
        rfl
      · have hstreams := t.streams_handle_data_async_send_callback env hf ec
        by_cases hends : t.sendEnds ec = true
        · exact Or.inl (hstreams.trans (if_pos hends))
        · refine Or.inr ⟨f, hf, ?_, hstreams.trans (if_neg hends)⟩
          have ht : t.m_send_file_stream = some f := hf
          simp only [sendEnds, ht, Bool.or_eq_true, not_or, Bool.not_eq_true] at hends
          exact hends.1
  have hreceive : s'.m_receive_file_stream = s.m_receive_file_stream := by
    rcases hcases with h | ⟨f, -, -, h⟩
    · exact congrArg Streams.receive h
    · exact congrArg Streams.receive h
  constructor
  · intro i _ _ x hx
    exact hstore ▸ hx
  · intro i a ha
    rw [writing, hreceive] at ha
    exact ⟨hstore ▸ hw i a ha, Or.inl ⟨a, ha⟩⟩
  · intro i a ha
    refine Or.inl ?_
    obtain ⟨g, hg, ho, hid, hcontent⟩ := mem_reading.mp ha
    rcases hcases with h | ⟨f, hf, -, h⟩
    · have hsend : s'.m_send_file_stream = none := congrArg Streams.send h
      rw [hsend] at hg
      cases hg
    · have hsend : s'.m_send_file_stream = some (after f (readOf env s f)) :=
        congrArg Streams.send h
      obtain rfl := Option.some.inj (hsend.symm.trans hg)
      exact mem_reading.mpr ⟨f, hf, ho, hid, hcontent⟩
  · exact Or.inl rfl
  · refine ⟨hbuffer, fun g hg => hm.upload g (hreceive ▸ hg),
      fun g hg => hm.unopened g (hreceive ▸ hg), fun g hg ho => ?_⟩
    rcases hcases with h | ⟨f, hf, heof, h⟩
    · have hsend : s'.m_send_file_stream = none := congrArg Streams.send h
      rw [hsend] at hg
      cases hg
    · have hsend : s'.m_send_file_stream = some (after f (readOf env s f)) :=
        congrArg Streams.send h
      obtain rfl := Option.some.inj (hsend.symm.trans hg)
      have hchunk : s'.m_send_buffer = (readOf env s f).chunk := congrArg Streams.chunk h
      obtain ⟨hgiven, hle, -⟩ := hm.download f hf ho
      have hafter : (m.after env s (.data_async_sent c ec) s').given =
          m.given ++ (readOf env s f).chunk := by
        rw [Moved.after, hsend, hchunk]
        rfl
      rw [hafter]
      exact given_after ho heof hgiven hle
        (hr f.id f.content (mem_reading.mpr ⟨f, hf, ho, rfl, rfl⟩))

end

theorem after_of_other (m : Moved) (env : Env) (s : Session) {e : Event} (s' : Session)
    (hr : receives e = false) (hs : sends e = false) : m.after env s e s' =
      { got := if ((s.uploader e).bind (opened env)).isSome then [] else m.got
        put := if ((s.uploader e).bind (opened env)).isSome then [] else m.put
        given := if ((s.downloader e).bind (offered env)).isSome then s'.m_send_buffer
          else m.given } := by
  cases e with
  | data_received => cases hr
  | data_async_sent => cases hs
  | _ => rfl

theorem downloader_same {s t : Session} {e : Event} (h : s.downloader e = some t) :
    t.m_fs_objects_table = s.m_fs_objects_table ∧ t.streams = s.streams := by
  cases e with
  | control_received ec received =>
    simp only [downloader, Option.ite_none_right_eq_some, Option.some.injEq] at h
    obtain ⟨-, rfl⟩ := h
    exact ⟨rfl, rfl⟩
  | accepted ec =>
    obtain ⟨-, h⟩ := Option.ite_none_right_eq_some.mp h
    obtain rfl := Option.some.inj h
    exact ⟨rfl, rfl⟩
  | data_handshaken ec =>
    obtain ⟨-, h⟩ := Option.ite_none_right_eq_some.mp h
    obtain rfl := Option.some.inj h
    exact ⟨rfl, rfl⟩
  | _ => cases h

section
variable {env : Env} {s s' : Session} {e : Event} {m : Moved} (hm : Moving s m)
  (hw : ∀ i a, writing s m = some (i, a) → ∀ c ∈ s.m_fs_objects_table.blobs i, c = a)
  (hst : Stepped env s e s') (hne : ∀ store, e ≠ .elsewhere store) (hr : receives e = false)
  (hs : sends e = false)
include hm hw hst hne hr hs

/-- An event that starts no upload, and so goes on with the one that there is. -/
theorem does_of_same_upload (hu : s.uploader e = none)
    (hsame : s'.m_receive_file_stream = s.m_receive_file_stream)
    (reader : ∀ i a, reading s' = some (i, a) → reading s = some (i, a) ∨
      (i ∈ (s.downloader e).bind (offered env) ∧ ∀ c ∈ s.m_fs_objects_table.blobs i, c = a))
    (download : ∀ f ∈ s'.m_send_file_stream, f.is_open = true →
      (m.after env s e s').given = f.content.take f.pos ∧ f.pos ≤ f.content.length ∧
        (f.eofbit = true → f.pos = f.content.length)) : Does env s e s' m := by
  have hno : (s.uploader e).bind (opened env) = none := by rw [hu]; rfl
  have hafter := after_of_other m env s s' hr hs
  have hgot : (m.after env s e s').got = m.got := by
    rw [hafter, hno]
    rfl
  have hput : (m.after env s e s').put = m.put := by
    rw [hafter, hno]
    rfl
  have hfiles : ∀ i, ∀ c ∈ s'.m_fs_objects_table.blobs i, c ∈ s.m_fs_objects_table.blobs i := by
    intro i
    refine blobs_of_step hst hne hr i (fun target ht => ?_) (fun h => absurd hu h)
    rw [hno] at ht
    cases ht
  have hbuffer := (congrArg Files.buffer (hst.kept hne hr)).trans hm.buffer
  constructor
  · exact fun i _ _ => hfiles i
  · intro i a ha
    rw [writing, hsame, hput] at ha
    exact ⟨fun c hc => hw i a ha c (hfiles i c hc), Or.inl ⟨a, ha⟩⟩
  · exact fun i a ha => (reader i a ha).imp_right fun hnew =>
      ⟨hnew.1, fun c hc => hnew.2 c (hfiles i c hc)⟩
  · exact Or.inl hno
  · refine ⟨hbuffer, fun f hf => ?_, fun f hf => hm.unopened f (hsame ▸ hf), download⟩
    rw [hgot, hput]
    exact hm.upload f (hsame ▸ hf)

/-- An event that starts a download. -/
theorem does_of_download {t : Session} (hu : s.uploader e = none) (hd : s.downloader e = some t)
    (h : s'.streams = (t.data_send_file env).streams) : Does env s e s' m := by
  have hafter := after_of_other m env s s' hr hs
  obtain ⟨hstore, hstreams⟩ := downloader_same hd
  rw [streams_data_send_file, hstreams] at h
  let f := newStream env t
  by_cases ho : t.sendOpens env t.m_sendable_file_id = true
  · rw [if_pos ho] at h
    have hsend : s'.m_send_file_stream = some (after f (readOf env t f)) :=
      congrArg Streams.send h
    have hoffered : (s.downloader e).bind (offered env) = some f.id := by
      rw [hd]
      exact if_pos ho
    have hsame : ∀ c ∈ t.m_fs_objects_table.blobs f.id, c = f.content := by
      intro c hc
      have hget : f.content = (t.m_fs_objects_table.blobs f.id).getD [] := rfl
      rw [hget, Option.mem_def.mp hc]
      rfl
    refine does_of_same_upload hm hw hst hne hr hs hu (congrArg Streams.receive h) ?_ ?_
    · intro i a ha
      obtain ⟨g, hg, -, rfl, rfl⟩ := mem_reading.mp ha
      obtain rfl := Option.some.inj (hsend.symm.trans hg)
      exact Or.inr ⟨hoffered, hstore ▸ hsame⟩
    · intro g hg _
      obtain rfl := Option.some.inj (hsend.symm.trans hg)
      have hchunk : s'.m_send_buffer = (readOf env t f).chunk := congrArg Streams.chunk h
      rw [hafter, hoffered]
      simp only [Option.isSome_some, if_true]
      rw [hchunk]
      have hnil : ([] : Bytes) = f.content.take f.pos := rfl
      exact given_after ho rfl hnil (Nat.zero_le _) hsame
  · rw [if_neg ho] at h
    have hsend : s'.m_send_file_stream = some f := congrArg Streams.send h
    refine does_of_same_upload hm hw hst hne hr hs hu (congrArg Streams.receive h) ?_ ?_
    · intro i a ha
      obtain ⟨g, hg, hopen, -⟩ := mem_reading.mp ha
      obtain rfl := Option.some.inj (hsend.symm.trans hg)
      exact absurd hopen ho
    · intro g hg hopen
      obtain rfl := Option.some.inj (hsend.symm.trans hg)
      exact absurd hopen ho

section
variable (hfresh : ∀ target ∈ (s.uploader e).bind (opened env), target.app = true →
    s.m_fs_objects_table.blobs target.id = none)
  (hold : ∀ target ∈ (s.uploader e).bind (opened env),
    ∀ f ∈ s.m_receive_file_stream, f.id = target.id → f.buffered = [])
include hfresh hold

omit hw in
/-- An event that starts an upload. -/
theorem does_of_upload {t : Session} (hu : s.uploader e = some t) (hd : s.downloader e = none)
    (h : s'.streams =
      { s.streams with receive := (t.openReceiveFile env).m_receive_file_stream }) :
    Does env s e s' m := by
  have hafter := after_of_other m env s s' hr hs
  have hsend : s'.m_send_file_stream = s.m_send_file_stream := congrArg Streams.send h
  let target := t.receiveTarget env
  let g : OFStream :=
    { id := target.id, app := target.app, pos := 0, is_open := t.receiveOpens env
      failbit := !t.receiveOpens env }
  have hreceive : s'.m_receive_file_stream = some g := congrArg Streams.receive h
  have hopened : t.receiveOpens env = true → (s.uploader e).bind (opened env) = some target := by
    intro ho
    rw [hu]
    exact if_pos ho
  have hnothing : t.receiveOpens env = true →
      (m.after env s e s').got = [] ∧ (m.after env s e s').put = [] := by
    intro ho
    rw [hafter, hopened ho]
    exact ⟨rfl, rfl⟩
  constructor
  · -- The stream that makes place writes what it has left to its own file.
    refine fun i hi hid => blobs_of_step hst hne hr i hid fun _ f hf hfid => ?_
    cases ho : f.is_open
    · exact hm.unopened f hf ho
    · exact absurd (mem_writing.mpr ⟨f, hf, ho, hfid, rfl⟩) (hi m.put)
  · intro i a ha
    obtain ⟨f, hf, ho, rfl, rfl⟩ := mem_writing.mp ha
    obtain rfl := Option.some.inj (hreceive.symm.trans hf)
    rw [(hnothing ho).2]
    exact ⟨blob_of_opened hst hne hr (hopened ho) (hfresh target (hopened ho))
        (hold target (hopened ho)),
      Or.inr ⟨target, hopened ho, rfl⟩⟩
  · intro i a ha
    refine Or.inl ?_
    rwa [reading, hsend] at ha
  · refine Or.inr ?_
    rw [hd]
    rfl
  · refine ⟨(congrArg Files.buffer (hst.kept hne hr)).trans hm.buffer, fun f hf ho => ?_,
      fun f hf _ => ?_, fun f hf ho => ?_⟩
    · obtain rfl := Option.some.inj (hreceive.symm.trans hf)
      have hgood : t.receiveOpens env = true := ho
      rw [(hnothing ho).1, (hnothing ho).2]
      refine ⟨?_, Or.inr rfl, rfl⟩
      show (!t.receiveOpens env) = false
      rw [hgood]
      rfl
    · obtain rfl := Option.some.inj (hreceive.symm.trans hf)
      rfl
    · rw [hafter, hd]
      exact hm.download f (hsend ▸ hf) ho

/-- An event of a session that is no callback of a transfer. -/
theorem does_other : Does env s e s' m := by
  cases hst.opened hr hs with
  | none hu hd h =>
    have hsend : s'.m_send_file_stream = s.m_send_file_stream := congrArg Streams.send h
    refine does_of_same_upload hm hw hst hne hr hs hu (congrArg Streams.receive h) ?_ ?_
    · intro i a ha
      refine Or.inl ?_
      rwa [reading, hsend] at ha
    · intro f hf ho
      rw [after_of_other m env s s' hr hs, hd]
      exact hm.download f (hsend ▸ hf) ho
  | download t hu hd h => exact does_of_download hm hw hst hne hr hs hu hd h
  | upload t hu hd h => exact does_of_upload hm hst hne hr hs hfresh hold hu hd h

end

end

/-- An event of a session, of whatever kind. -/
theorem does_step {env : Env} {s s' : Session} {e : Event} {m : Moved} (hm : Moving s m)
    (hw : ∀ i a, writing s m = some (i, a) → ∀ c ∈ s.m_fs_objects_table.blobs i, c = a)
    (hread : ∀ i a, reading s = some (i, a) → ∀ c ∈ s.m_fs_objects_table.blobs i, c = a)
    (hst : Stepped env s e s') (hne : ∀ store, e ≠ .elsewhere store)
    (htakes : TakesItsBytes env s e)
    (hfresh : ∀ target ∈ (s.uploader e).bind (opened env), target.app = true →
      s.m_fs_objects_table.blobs target.id = none)
    (hold : ∀ target ∈ (s.uploader e).bind (opened env),
      ∀ f ∈ s.m_receive_file_stream, f.id = target.id → f.buffered = []) : Does env s e s' m := by
  cases e with
  | data_received c ec received => exact does_received hm hw hst htakes
  | data_async_sent c ec => exact does_sent hm hw hst hread
  | _ => exact does_other hm hw hst hne rfl rfl hfresh hold

/-! ## One event of the server -/

/-- What each session moved, after an event that left the server `sv`. -/
def moved (x : Server × (Nat → Moved)) (sv : Server) : ServerEvent → Nat → Moved
  | .connected .. => x.2
  | .session k env e => fun j =>
    if j = k then
      ((x.1.session k).bind fun s => (sv.session k).map ((x.2 k).after env s e)).getD (x.2 k)
    else x.2 j

/-- One event of a server, next to what its sessions moved so far. -/
def watched (x : Server × (Nat → Moved)) (e : ServerEvent) : Option (Server × (Nat → Moved)) :=
  (x.1.step e).map fun sv => (sv, moved x sv e)

/-- The data directory, and what each session has of it in its hands. -/
def files (x : Server × (Nat → Moved)) : Shared Nat Bytes Bytes where
  file := x.1.m_fs_objects_table.blobs
  writes k := (x.1.session k).bind fun s => writing s (x.2 k)
  reads k := (x.1.session k).bind reading

/-- An upload that opens a file finds nobody who reads it and no other who writes it, its own stream
has nothing left for that file, and if the file is a new one, its name is new. A download that opens
a file finds nobody who writes it. And the disk takes what comes for the uploads. -/
def Undisturbed (x : Server × (Nat → Moved)) (e : ServerEvent) (_ : Server × (Nat → Moved)) :
    Prop :=
  match e with
  | .connected .. => True
  | .session k env e => ∀ s ∈ x.1.session k,
    TakesItsBytes env s e ∧
    (∀ target ∈ (s.uploader e).bind (opened env),
      (target.app = true → x.1.m_fs_objects_table.blobs target.id = none) ∧
      (∀ f ∈ s.m_receive_file_stream, f.id = target.id → f.buffered = []) ∧
      ∀ j < x.1.sessions.length, ((files x).reads j).map Prod.fst ≠ some target.id ∧
        (j ≠ k → ((files x).writes j).map Prod.fst ≠ some target.id)) ∧
    ∀ id ∈ (s.downloader e).bind (offered env),
      ∀ j < x.1.sessions.length, ((files x).writes j).map Prod.fst ≠ some id

instance (x : Server × (Nat → Moved)) (e : ServerEvent) (x' : Server × (Nat → Moved)) :
    Decidable (Undisturbed x e x') :=
  match e with
  | .connected .. => inferInstanceAs (Decidable True)
  | .session k _ _ => inferInstanceAs (Decidable (∀ s ∈ x.1.session k, _))

/-- The callback that closes the stream of an upload leaves its file with all that came, and that of
a download that met the end of its file comes when all of it was given. -/
def Ended (x x' : Server × (Nat → Moved)) : ServerEvent → Prop
  | .session k _ (.data_received ..) => ∀ s ∈ x.1.session k, ∀ f ∈ s.m_receive_file_stream,
    f.is_open = true → ((x'.1.session k).bind m_receive_file_stream) = none →
      ∀ c ∈ x'.1.m_fs_objects_table.blobs f.id, c = (x'.2 k).got
  | .session k _ (.data_async_sent ..) => ∀ s ∈ x.1.session k, ∀ f ∈ s.m_send_file_stream,
    f.is_open = true → f.eofbit = true → (x.2 k).given = f.content
  | _ => True

/-- After an event, the file of each upload has the bytes that came for it, but for the last ones,
which its stream still has, and each download gave the part of its file up to its position, of the
file as it found it. A file can be gone by then. -/
structure Carried (x : Server × (Nat → Moved)) (e : ServerEvent) (x' : Server × (Nat → Moved)) :
    Prop where
  uploads : ∀ k s, x'.1.session k = some s → ∀ f ∈ s.m_receive_file_stream, f.is_open = true →
    ∀ c ∈ x'.1.m_fs_objects_table.blobs f.id, c ++ f.buffered = (x'.2 k).got
  downloads : ∀ k s, x'.1.session k = some s → ∀ f ∈ s.m_send_file_stream, f.is_open = true →
    (x'.2 k).given = f.content.take f.pos ∧
      ∀ c ∈ x'.1.m_fs_objects_table.blobs f.id, c = f.content
  ended : Ended x x' e

/-- What holds between the events. -/
structure Kept (x : Server × (Nat → Moved)) : Prop where
  sound : (files x).Sound
  moving : ∀ k s, x.1.session k = some s → Moving s (x.2 k)

theorem lt_of_session {sv : Server} {k : Nat} {s : Session} (h : sv.session k = some s) :
    k < sv.sessions.length := by
  simp only [Server.session, Option.map_eq_some_iff] at h
  obtain ⟨t, ht, -⟩ := h
  exact (List.getElem?_eq_some_iff.mp ht).1

theorem session_put_self {sv : Server} {k : Nat} {s : Session} (h : sv.session k = some s)
    (s' : Session) : (sv.put k s').session k = some s' := by
  simp only [Server.session, Server.put]
  rw [List.getElem?_set_self (lt_of_session h)]
  rfl

theorem session_put_ne {sv : Server} {j k : Nat} (h : j ≠ k) (s' : Session) :
    (sv.put k s').session j =
      (sv.session j).map fun t => { t with m_fs_objects_table := s'.m_fs_objects_table } := by
  simp only [Server.session, Server.put]
  rw [List.getElem?_set_ne (Ne.symm h), Option.map_map]
  rfl

theorem carried_of_kept {x x' : Server × (Nat → Moved)} {e : ServerEvent} (h : Kept x')
    (hended : Ended x x' e) : Carried x e x' := by
  constructor
  · intro k s hk f hf ho c hc
    have hput : c = (x'.2 k).put := by
      refine h.sound.writer k f.id _ ?_ c hc
      show (x'.1.session k).bind _ = _
      rw [hk]
      exact mem_writing.mpr ⟨f, hf, ho, rfl, rfl⟩
    rw [hput]
    exact ((h.moving k s hk).upload f hf ho).2.2
  · intro k s hk f hf ho
    refine ⟨((h.moving k s hk).download f hf ho).1, h.sound.reader k f.id _ ?_⟩
    show (x'.1.session k).bind _ = _
    rw [hk]
    exact mem_reading.mpr ⟨f, hf, ho, rfl, rfl⟩
  · exact hended

theorem lt_of_writes {x : Server × (Nat → Moved)} {q : Nat} {i : Bytes}
    (h : (files x).WritesTo q i) : q < x.1.sessions.length := by
  obtain ⟨a, ha⟩ := h
  obtain ⟨s, hs, -⟩ := Option.bind_eq_some_iff.mp ha
  exact lt_of_session hs

theorem lt_of_reads {x : Server × (Nat → Moved)} {q : Nat} {i : Bytes}
    (h : (files x).ReadsFrom q i) : q < x.1.sessions.length := by
  obtain ⟨a, ha⟩ := h
  obtain ⟨s, hs, -⟩ := Option.bind_eq_some_iff.mp ha
  exact lt_of_session hs

section
variable {x : Server × (Nat → Moved)} {k : Nat} {env : Env} {e : Event} {s s' : Session}
  (hk : x.1.session k = some s) (hu : Undisturbed x (.session k env e) (x.1.put k s', x.2))
include hk hu

/-- Nobody else has in his hands what the event opens. -/
theorem unread {target : Target} (ht : (s.uploader e).bind (opened env) = some target) (q : Nat) :
    ¬ (files x).ReadsFrom q target.id := by
  intro hq
  obtain ⟨a, ha⟩ := id hq
  exact (((hu s hk).2.1 target ht).2.2 q (lt_of_reads hq)).1 (by rw [ha]; rfl)

theorem unwritten {target : Target} (ht : (s.uploader e).bind (opened env) = some target) {q : Nat}
    (hq : q ≠ k) : ¬ (files x).WritesTo q target.id := by
  intro hw
  obtain ⟨a, ha⟩ := id hw
  exact (((hu s hk).2.1 target ht).2.2 q (lt_of_writes hw)).2 hq (by rw [ha]; rfl)

theorem offered_unwritten {i : Bytes} (hi : (s.downloader e).bind (offered env) = some i) (q : Nat) :
    ¬ (files x).WritesTo q i := by
  intro hw
  obtain ⟨a, ha⟩ := id hw
  exact (hu s hk).2.2 i hi q (lt_of_writes hw) (by rw [ha]; rfl)

end

section
variable {x : Server × (Nat → Moved)} (h : Kept x)
include h

/-- The streams of a new session are not set. -/
theorem kept_connected (lap available : Nat) :
    Kept ({ x.1 with
      sessions := x.1.sessions ++
        [begun x.1.session_class x.1.m_users_table x.1.m_fs_objects_table lap available] },
      x.2) := by
  let first := begun x.1.session_class x.1.m_users_table x.1.m_fs_objects_table lap available
  let sv : Server := { x.1 with sessions := x.1.sessions ++ [first] }
  have hidle : first.m_receive_file_stream = none ∧ first.m_send_file_stream = none ∧
      first.m_receive_buffer = [] :=
    begun_cases (P := fun s => s.m_receive_file_stream = none ∧ s.m_send_file_stream = none ∧
      s.m_receive_buffer = []) _ _ _ _ _ ⟨rfl, rfl, rfl⟩ ⟨rfl, rfl, rfl⟩ ⟨rfl, rfl, rfl⟩
      ⟨rfl, rfl, rfl⟩
  have hnew : ∀ k, k ≠ x.1.sessions.length → sv.session k = x.1.session k := by
    intro k hk
    simp only [sv, Server.session, List.getElem?_append]
    by_cases hlt : k < x.1.sessions.length
    · rw [if_pos hlt]
    · have hpos : ¬ k - x.1.sessions.length = 0 := by omega
      rw [if_neg hlt, List.getElem?_singleton, if_neg hpos, List.getElem?_eq_none (by omega)]
  have hlast : sv.session x.1.sessions.length =
      some { first with m_fs_objects_table := x.1.m_fs_objects_table } := by
    simp [sv, Server.session]
  constructor
  · have hwrites : (files (sv, x.2)).writes x.1.sessions.length = none := by
      show (sv.session _).bind _ = none
      rw [hlast, Option.bind_some, writing, hidle.1]
      rfl
    have hreads : (files (sv, x.2)).reads x.1.sessions.length = none := by
      show (sv.session _).bind _ = none
      rw [hlast, Option.bind_some, reading, hidle.2.1]
      rfl
    refine h.sound.act x.1.sessions.length (t := files (sv, x.2)) (fun q hq => ?_)
      (fun _ _ _ _ _ hc => hc) ?_ ?_ ?_
    · exact ⟨congrArg (Option.bind · _) (hnew q hq), congrArg (Option.bind · _) (hnew q hq)⟩
    · intro i a ha
      cases hwrites.symm.trans ha
    · intro i a ha
      cases hreads.symm.trans ha
    · rintro i ⟨a, ha⟩
      cases hwrites.symm.trans ha
  · intro k s hk
    by_cases hlen : k = x.1.sessions.length
    · subst hlen
      obtain rfl := Option.some.inj (hlast.symm.trans hk)
      refine ⟨hidle.2.2, fun f hf => ?_, fun f hf => ?_, fun f hf => ?_⟩
      · cases hidle.1.symm.trans hf
      · cases hidle.1.symm.trans hf
      · cases hidle.2.1.symm.trans hf
    · exact h.moving k s ((hnew k hlen).symm.trans hk)

section
variable {k : Nat} {env : Env} {e : Event} {s s' : Session} (hk : x.1.session k = some s)
include hk

/-- What the session writes and reads is as it should be. -/
theorem held_by_session : (files x).writes k = writing s (x.2 k) ∧ (files x).reads k = reading s ∧
    (∀ i a, writing s (x.2 k) = some (i, a) → ∀ c ∈ s.m_fs_objects_table.blobs i, c = a) ∧
    ∀ i a, reading s = some (i, a) → ∀ c ∈ s.m_fs_objects_table.blobs i, c = a := by
  have hwrites : (files x).writes k = writing s (x.2 k) := by
    show (x.1.session k).bind _ = _
    rw [hk]
    rfl
  have hreads : (files x).reads k = reading s := by
    show (x.1.session k).bind _ = _
    rw [hk]
    rfl
  refine ⟨hwrites, hreads, fun i a ha => ?_, fun i a ha => ?_⟩
  · rw [Server.store_of_session hk]
    exact h.sound.writer k i a (hwrites.trans ha)
  · rw [Server.store_of_session hk]
    exact h.sound.reader k i a (hreads.trans ha)

variable (hu : Undisturbed x (.session k env e) (x.1.put k s', x.2))
include hu

/-- The files are shared as they should be after what a session does. -/
theorem sound_session {m : Nat → Moved} (hdoes : Does env s e s' (x.2 k))
    (hmine : m k = (x.2 k).after env s e s') (hother : ∀ q, q ≠ k → m q = x.2 q) :
    (files (x.1.put k s', m)).Sound := by
  obtain ⟨hwrites, hreads, hw, hr⟩ := held_by_session h hk
  have hwrites' : (files (x.1.put k s', m)).writes k = writing s' ((x.2 k).after env s e s') := by
    show ((x.1.put k s').session k).bind _ = _
    rw [session_put_self hk s', ← hmine]
    rfl
  have hreads' : (files (x.1.put k s', m)).reads k = reading s' := by
    show ((x.1.put k s').session k).bind _ = _
    rw [session_put_self hk s']
    rfl
  have hwas : ∀ i a, writing s (x.2 k) = some (i, a) → (files x).WritesTo k i :=
    fun i a ha => ⟨a, hwrites.trans ha⟩
  refine h.sound.act k (t := files (x.1.put k s', m)) ?_ ?_ ?_ ?_ ?_
  · intro q hq
    have hsession : (x.1.put k s').session q = (x.1.session q).map fun t =>
        { t with m_fs_objects_table := s'.m_fs_objects_table } := session_put_ne hq s'
    constructor
    · show ((x.1.put k s').session q).bind (fun s => writing s (m q)) = _
      rw [hsession, hother q hq, Option.bind_map]
      rfl
    · show ((x.1.put k s').session q).bind reading = _
      rw [hsession, Option.bind_map]
      rfl
  · intro q hq i hi c hc
    show c ∈ x.1.m_fs_objects_table.blobs i
    rw [← Server.store_of_session hk]
    refine hdoes.kept i (fun a ha => ?_) (fun target ht hid => ?_) c hc
    · rcases hi with hi | hi
      · exact hq (h.sound.alone q k i hi (hwas i a ha))
      · exact h.sound.apart k q i (hwas i a ha) hi
    · subst hid
      exact hi.elim (unwritten hk hu ht hq) (unread hk hu ht q)
  · intro i a ha
    obtain ⟨hfile, hwho⟩ := hdoes.writer i a (hwrites'.symm.trans ha)
    refine ⟨hfile, fun q hq => ?_⟩
    rcases hwho with ⟨b, hb⟩ | ⟨target, ht, rfl⟩
    · exact ⟨fun hi => hq (h.sound.alone q k i hi (hwas i b hb)),
        h.sound.apart k q i (hwas i b hb)⟩
    · exact ⟨unwritten hk hu ht hq, unread hk hu ht q⟩
  · intro i a ha
    rcases hdoes.reader i a (hreads'.symm.trans ha) with hold | ⟨hi, hfile⟩
    · have hheld : (files x).ReadsFrom k i := ⟨a, hreads.trans hold⟩
      refine ⟨fun c hc => hr i a hold c ?_, fun q _ hq => h.sound.apart q k i hq hheld⟩
      refine hdoes.kept i (fun b hb => h.sound.apart k k i (hwas i b hb) hheld) ?_ c hc
      rintro target ht rfl
      exact unread hk hu ht k hheld
    · exact ⟨hfile, fun q _ => offered_unwritten hk hu hi q⟩
  · rintro i ⟨a, ha⟩ ⟨b, hb⟩
    obtain ⟨-, hwho⟩ := hdoes.writer i a (hwrites'.symm.trans ha)
    rcases hdoes.reader i b (hreads'.symm.trans hb) with hold | ⟨hi, -⟩
    · have hheld : (files x).ReadsFrom k i := ⟨b, hreads.trans hold⟩
      rcases hwho with ⟨c, hc⟩ | ⟨target, ht, rfl⟩
      · exact h.sound.apart k k i (hwas i c hc) hheld
      · exact unread hk hu ht k hheld
    · rcases hwho with ⟨c, hc⟩ | ⟨target, ht, rfl⟩
      · exact offered_unwritten hk hu hi k (hwas i c hc)
      · rcases hdoes.either with hno | hno
        · cases hno.symm.trans ht
        · cases hno.symm.trans hi

theorem kept_session (hne : ∀ store, e ≠ .elsewhere store) (hs : s.step (env, e) = some s') :
    Kept (x.1.put k s', moved x (x.1.put k s') (.session k env e)) ∧
      Ended x (x.1.put k s', moved x (x.1.put k s') (.session k env e)) (.session k env e) := by
  obtain ⟨htakes, hopen, -⟩ := hu s hk
  obtain ⟨-, hst⟩ := step_stepped hs
  obtain ⟨-, -, hw, hr⟩ := held_by_session h hk
  have hm := h.moving k s hk
  have hdoes : Does env s e s' (x.2 k) := by
    refine does_step hm hw hr hst hne htakes (fun target ht happ => ?_)
      (fun target ht => (hopen target ht).2.1)
    rw [Server.store_of_session hk]
    exact (hopen target ht).1 happ
  let m := moved x (x.1.put k s') (.session k env e)
  have hmine : m k = (x.2 k).after env s e s' := by
    show (if k = k then _ else _) = _
    rw [if_pos rfl, hk, session_put_self hk s']
    rfl
  have hother : ∀ q, q ≠ k → m q = x.2 q := fun q hq => if_neg hq
  refine ⟨⟨sound_session h hk hu hdoes hmine hother, fun j t hj => ?_⟩, ?_⟩
  · by_cases hjk : j = k
    · subst hjk
      obtain rfl := Option.some.inj ((session_put_self hk s').symm.trans hj)
      show Moving s' (m j)
      rw [hmine]
      exact hdoes.moving
    · rw [session_put_ne hjk s', Option.map_eq_some_iff] at hj
      obtain ⟨t', ht', rfl⟩ := hj
      have hmoving := h.moving j t' ht'
      show Moving _ (m j)
      rw [hother j hjk]
      exact ⟨hmoving.buffer, hmoving.upload, hmoving.unopened, hmoving.download⟩
  · show Ended x (_, m) (.session k env e)
    cases e with
    | data_received c ec received =>
      intro t ht f hf ho hgone c hc
      obtain rfl := Option.some.inj (hk.symm.trans ht)
      have hgone : s'.m_receive_file_stream = none := by
        rwa [session_put_self hk s', Option.bind_some] at hgone
      have hwrote := wrote_received hm hst htakes hf
      show c = (m k).got
      rw [hmine, hwrote.file ho (hw f.id _ (mem_writing.mpr ⟨f, hf, ho, rfl, rfl⟩)) c hc]
      exact hwrote.ended hgone ho
    | data_async_sent c ec =>
      intro t ht f hf ho heof
      obtain rfl := Option.some.inj (hk.symm.trans ht)
      obtain ⟨hgiven, -, hend⟩ := hm.download f hf ho
      rw [hgiven, hend heof, List.take_length]
    | _ => trivial

end

end

theorem kept_step {x x' : Server × (Nat → Moved)} {e : ServerEvent} (h : Kept x)
    (hs : watched x e = some x') (hu : Undisturbed x e x') : Carried x e x' ∧ Kept x' := by
  simp only [watched, Option.map_eq_some_iff] at hs
  obtain ⟨sv', hs, rfl⟩ := hs
  cases Server.step_served hs with
  | connected lap available =>
    have hkept := kept_connected h lap available
    exact ⟨carried_of_kept hkept trivial, hkept⟩
  | session k env e s s' hk hne hstep =>
    obtain ⟨hkept, hended⟩ := kept_session h hk hu hne hstep
    exact ⟨carried_of_kept hkept hended, hkept⟩

/-! ## The law -/

/-- In a run of a server from an empty store, whatever its sessions do in whatever order: as long as
no upload or download opens a file that is in the hands of another, as new files get new names and
the disk takes what comes, every upload has put exactly the bytes that came for it in its file when
its stream is closed, and every download gives the file as it found it. -/
theorem transfers_carry_their_files (session_class : SessionClass) (users : users.Table)
    (es : List ServerEvent)
    (h : runs.Along watched Undisturbed
      (Server.init session_class users, fun _ => ⟨[], [], []⟩) es) :
    runs.Along watched Carried (Server.init session_class users, fun _ => ⟨[], [], []⟩) es := by
  refine runs.along_of_invariant (J := Kept) ?_ ?_ h
  · intro x e x' hk hs hu
    exact kept_step hk hs hu
  have hnone : ∀ k, (Server.init session_class users).session k = none := fun _ => rfl
  refine ⟨Shared.sound_of_idle (fun _ => rfl) (fun _ => rfl), fun k s hk => ?_⟩
  rw [hnone] at hk
  cases hk

/-- Two uploads whose parts mix, and a download of the first file. -/
theorem two_uploads_and_a_download_carry_their_files :
    runs.Along watched Carried (Server.init .session users.Table.annAndBob, fun _ => ⟨[], [], []⟩)
      [.connected 0 0, .connected 0 0,
        .session 0 (clientLine "USER ann").1 (clientLine "USER ann").2,
        .session 0 (clientLine "PASS pw1").1 (clientLine "PASS pw1").2,
        .session 1 (clientLine "USER bob").1 (clientLine "USER bob").2,
        .session 1 (clientLine "PASS pw2").1 (clientLine "PASS pw2").2,
        .session 0 (clientLine "STOR f").1 (clientLine "STOR f").2,
        .session 1 (clientLine "STOR g").1 (clientLine "STOR g").2,
        .session 0 (Env.working 3) (.accepted .success),
        .session 1 (Env.working 4) (.accepted .success),
        .session 0 (Env.working 0) (.data_received 1 .success (lit "x")),
        .session 1 (Env.working 0) (.data_received 1 .success (lit "y")),
        .session 0 (Env.working 0) (.data_received 1 .eof (lit "z")),
        .session 0 (clientLine "RETR f").1 (clientLine "RETR f").2,
        .session 0 (Env.working 0) (.accepted .success),
        .session 1 (Env.working 0) (.data_received 1 .eof []),
        .session 0 (Env.working 0) (.data_async_sent 2 .success)] :=
  transfers_carry_their_files .session users.Table.annAndBob _ (by decide)

end asio_ftp.contents
