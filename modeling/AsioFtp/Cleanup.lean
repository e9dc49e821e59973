-- The law of the ended transfers: which ends of a listing, an upload or a download leave nothing of
-- it behind. The end handlers clean up, and the exits that a failure takes do not call them.
import AsioFtp.Calls
import AsioFtp.Connections

namespace asio_ftp.cleanup

open helpers fs_objects base_session base_session.Session connections

/-! ## What a transfer leaves behind -/

/-- The marker of a kind of transfer. A command of that kind is refused as long as it is set. -/
def marker (s : Session) : DataOp → Bytes
  | .data_send => s.m_pending_directory_list
  | .data_async_receive => s.m_pending_write_file
  | .data_async_send => s.m_sendable_file_id

/-- The file stream of a kind of transfer is set. A listing has none. -/
def holdsStream (s : Session) : DataOp → Bool
  | .data_send => false
  | .data_async_receive => s.m_receive_file_stream.isSome
  | .data_async_send => s.m_send_file_stream.isSome

/-- Nothing of a transfer is left: its marker is cleared, its file stream is reset, and the data
socket is closed, or the TLS shutdown that closes it is on its way. -/
structure CleanedUp (s : Session) (op : DataOp) : Prop where
  marker : marker s op = []
  stream : holdsStream s op = false
  socket : Closing s.link

instance (s : Session) (op : DataOp) : Decidable (CleanedUp s op) :=
  decidable_of_iff (marker s op = [] ∧ holdsStream s op = false ∧ (s.link.socket_open = false ∨
      s.link.session_class = .secure_session ∧ s.link.shutdowns ≠ 0))
    ⟨fun ⟨hm, hs, hc⟩ => ⟨hm, hs, hc⟩, fun h => ⟨h.marker, h.stream, h.socket⟩⟩

/-! ## How transfers end -/

/-- The transfers that wait for a data connection, in the order in which it picks them up. -/
def waiting (s : Session) : List DataOp :=
  [.data_send, .data_async_receive, .data_async_send].filter (marker s · ≠ [])

/-- The transfer of a command that comes late, when the data socket is open: the command is
answered 150, and the file of the transfer is opened at once. -/
def late (s : Session) (command argument : Bytes) : Option DataOp :=
  if s.m_connection_stage ≠ .LOGGED_IN ∨ s.data_socket_open = false then none
  else if command = lit "LIST" then
    if s.m_pending_directory_list = [] then some .data_send else none
  else if command = lit "STOR" then
    if s.StoresNow command argument then some .data_async_receive else none
  else if command = lit "RETR" then some .data_async_send
  else none

/-- The transfer that an accept or a data handshake ends, of those that were answered 150: the first
one that waits, when there is no connection, and the one that the connection picks up, when it
starts none. -/
def unserved (env : Env) (s : Session) (answered : List DataOp) (ec : ErrorCode) :
    Option DataOp :=
  if ec ≠ .success then (waiting s).find? (· ∈ answered)
  else if s.pickedUp env = none then (waiting s).head?.filter (· ∈ answered)
  else none

/-- The transfer that an event ends: by the end of its last part, by an accept or a data handshake
that fails, or by a file that does not open. -/
def ended (env : Env) (s : Session) (answered : List DataOp) : Event → Option DataOp
  | .data_sent .. => some .data_send
  | .data_received c ec received =>
    if s.finishes env (.data_received c ec received) = true then some .data_async_receive else none
  | .data_async_sent c ec =>
    if s.finishes env (.data_async_sent c ec) = true then some .data_async_send else none
  | .accepted ec =>
    -- The accept of a TLS session goes on with a handshake.
    if ec = .success ∧ s.session_class = .secure_session then none
    else unserved env s answered ec
  | .data_handshaken ec => unserved env s answered ec
  | .control_received ec received =>
    let (command, argument) := handle_control_receive_callback ec received
    if s.startedLate env command argument = none then late s command argument else none
  | _ => none

/-- The kind of transfer that a command asks for. -/
def transferOf (command : Bytes) : Option DataOp :=
  if command = lit "LIST" then some .data_send
  else if command = lit "STOR" then some .data_async_receive
  else if command = lit "RETR" then some .data_async_send
  else none

/-- The transfers whose command was answered 150, after one more event. -/
def answers (s s' : Session) (answered : List DataOp) : Event → List DataOp
  | .control_received ec received =>
    if ∃ m ∈ s'.sent.drop s.sent.length, lit "150" <+: m then
      (transferOf (handle_control_receive_callback ec received).1).toList ++ answered
    else answered
  | _ => answered

/-- One event of a session, with the transfers whose command was answered 150 and that did not
end yet. -/
def watched (x : Session × List DataOp) (e : Env × Event) : Option (Session × List DataOp) :=
  (x.1.step e).map fun s' =>
    (s', (answers x.1 s' x.2 e.2).filter (ended e.1 x.1 x.2 e.2 ≠ some ·))

/-- The handler of the event cleans up the transfer that it ends. -/
def CleansUp (x : Session × List DataOp) (e : Env × Event) (x' : Session × List DataOp) : Prop :=
  ∀ op ∈ ended e.1 x.1 x.2 e.2, CleanedUp x'.1 op

instance (x : Session × List DataOp) (e : Env × Event) (x' : Session × List DataOp) :
    Decidable (CleansUp x e x') :=
  inferInstanceAs (Decidable (∀ op ∈ ended e.1 x.1 x.2 e.2, _))

/-- The transfer ends with the last callback of an upload or of a download, whatever its error, or
with a listing that was written. A listing that failed needs another one that cleaned up before. -/
def EndsInOrder (x : Session × List DataOp) (e : Env × Event) (_ : Session × List DataOp) : Prop :=
  match e.2 with
  | .data_sent _ ec =>
    ec = .success ∨ x.1.m_pending_directory_list = [] ∧ Closing x.1.link
  | .data_received .. => True
  | .data_async_sent .. => True
  | event => ended e.1 x.1 x.2 event = none

/-! ## The end handlers -/

theorem marker_data_close (s : Session) (op : DataOp) :
    marker s.data_close op = marker s op ∧ holdsStream s.data_close op = holdsStream s op := by
  obtain ⟨o, n, h⟩ := s.data_close_eq
  rw [h]
  cases op <;> exact ⟨rfl, rfl⟩

section
variable {env : Env} {s : Session}

variable (env) in
theorem cleared_data_async_receive_end {f : OFStream} (h : s.m_receive_file_stream = some f) :
    marker (s.data_async_receive_end env) .data_async_receive = [] ∧
      holdsStream (s.data_async_receive_end env) .data_async_receive = false := by
  unfold data_async_receive_end
  rw [h]
  exact marker_data_close _ .data_async_receive

theorem cleared_data_async_send_end {f : IFStream} (h : s.m_send_file_stream = some f) :
    marker s.data_async_send_end .data_async_send = [] ∧
      holdsStream s.data_async_send_end .data_async_send = false := by
  unfold data_async_send_end
  rw [h]
  exact marker_data_close _ .data_async_send

/-- The last callback of an upload cleans up, with any error. -/
theorem cleaned_data_async_receive {ec : ErrorCode} {n : Nat} (h : s.receiveEnds env ec n = true) :
    CleanedUp (s.handle_data_async_receive_callback env ec n) .data_async_receive := by
  have hlink := link_handle_data_async_receive_callback env s ec n
  rw [if_pos h] at hlink
  have hsocket : Closing (s.handle_data_async_receive_callback env ec n).link :=
    hlink ▸ closing_close s.link
  cases hf : s.m_receive_file_stream with
  | none => simp [receiveEnds, hf] at h
  | some f =>
    rw [s.handle_data_async_receive_callback_eq env hf, if_pos h] at hsocket ⊢
    obtain ⟨hm, hs⟩ := cleared_data_async_receive_end env (s.absorb_stream env hf n)
    exact ⟨hm, hs, hsocket⟩

/-- The last callback of a download cleans up, with any error. -/
theorem cleaned_data_async_send {ec : ErrorCode} (h : s.sendEnds ec = true) :
    CleanedUp (s.handle_data_async_send_callback env ec) .data_async_send := by
  have hlink := link_handle_data_async_send_callback env s ec
  rw [if_pos h] at hlink
  have hsocket : Closing (s.handle_data_async_send_callback env ec).link :=
    hlink ▸ closing_close s.link
  cases hf : s.m_send_file_stream with
  | none => simp [sendEnds, hf] at h
  | some f =>
    rw [s.handle_data_async_send_callback_eq env hf, if_pos h] at hsocket ⊢
    obtain ⟨hm, hs⟩ := cleared_data_async_send_end hf
    exact ⟨hm, hs, hsocket⟩

/-- The callback of a listing cleans up when the listing was written, and changes nothing when it
was not. -/
theorem cleaned_data_send_iff (s : Session) (ec : ErrorCode) :
    CleanedUp (s.handle_data_send_callback ec) .data_send ↔
      ec = .success ∨ s.m_pending_directory_list = [] ∧ Closing s.link := by
  by_cases hec : ec = .success
  · subst hec
    refine iff_of_true ?_ (Or.inl rfl)
    have hlink := s.link_handle_data_send_callback .success
    rw [if_pos rfl] at hlink
    obtain ⟨hm, hs⟩ := marker_data_close ({ s with
      m_pending_directory_list := []
      m_pending_directory_list_all := false }.control_send (lit "226 Transferred.")) .data_send
    exact ⟨hm, hs, hlink ▸ closing_close s.link⟩
  · rw [handle_data_send_callback, if_pos hec]
    constructor
    · intro h
      exact Or.inr ⟨h.marker, h.socket⟩
    · rintro (hsuccess | ⟨hm, hsocket⟩)
      · exact absurd hsuccess hec
      · exact ⟨hm, rfl, hsocket⟩

/-! ## The other exits -/

/-- The stream of an upload stays set when its file does not open. -/
theorem holdsStream_data_receive_file (env : Env) (s : Session) :
    holdsStream (s.data_receive_file env) .data_async_receive = true := by
  unfold data_receive_file
  split
  · rw [(marker_data_close _ _).2]
    rfl
  · rfl

theorem holdsStream_data_send_file (h : s.sendOpens env s.m_sendable_file_id = false) :
    holdsStream (s.data_send_file env) .data_async_send = true := by
  rw [data_send_file, if_pos h, (marker_data_close _ _).2]
  rfl

theorem head_waiting (s : Session) : (waiting s).head? =
    if s.m_pending_directory_list ≠ [] then some .data_send
    else if s.m_pending_write_file ≠ [] then some .data_async_receive
    else if s.m_sendable_file_id ≠ [] then some .data_async_send
    else none := by
  by_cases hl : s.m_pending_directory_list = []
  · by_cases hw : s.m_pending_write_file = []
    · by_cases hr : s.m_sendable_file_id = [] <;> simp [waiting, marker, hl, hw, hr]
    · simp [waiting, marker, hl, hw]
  · simp [waiting, marker, hl]

/-- A new connection that picks up a transfer and starts none leaves its stream set. -/
theorem holdsStream_takeUpWork (hnone : s.pickedUp env = none) {op : DataOp}
    (h : (waiting s).head? = some op) : holdsStream (s.takeUpWork env) op = true := by
  rw [head_waiting] at h
  unfold pickedUp at hnone
  unfold takeUpWork
  split at h
  · next hl =>
    rw [if_pos hl] at hnone
    cases hnone
  next hl =>
  rw [if_neg hl] at hnone ⊢
  split at h
  · next hw =>
    obtain rfl := Option.some.inj h
    rw [if_pos hw]
    exact holdsStream_data_receive_file env s
  next hw =>
  rw [if_neg hw] at hnone ⊢
  split at h
  · next hr =>
    obtain rfl := Option.some.inj h
    rw [if_pos hr] at hnone ⊢
    refine holdsStream_data_send_file ?_
    simpa using hnone
  · cases h

/-- What waits has its marker set. -/
theorem marker_of_waiting {op : DataOp} (h : op ∈ waiting s) : marker s op ≠ [] := by
  simpa using (List.mem_filter.mp h).2

/-- A data connection that ends a transfer and starts none does not clean it up. -/
theorem not_cleaned_of_unserved {answered : List DataOp} {ec : ErrorCode} {op : DataOp}
    (h : unserved env s answered ec = some op) {t : Session}
    (ht : t = if ec ≠ .success then s else s.takeUpWork env) : ¬ CleanedUp t op := by
  intro hclean
  unfold unserved at h
  by_cases hec : ec = .success
  · rw [if_neg (not_not.mpr hec)] at h ht
    obtain ⟨hnone, hop⟩ := Option.ite_none_right_eq_some.mp h
    have hfirst : (waiting s).head? = some op := (Option.filter_eq_some_iff.mp hop).1
    have hholds := holdsStream_takeUpWork hnone hfirst
    rw [← ht, hclean.stream] at hholds
    cases hholds
  · rw [if_pos hec] at h ht
    refine marker_of_waiting (List.mem_of_find?_eq_some h) ?_
    rw [← ht]
    exact hclean.marker

/-- A late command whose file does not open does not clean up. -/
theorem not_cleaned_of_late {c a : Bytes} {op : DataOp} (h : late s c a = some op)
    (hnone : s.startedLate env c a = none) : ¬ CleanedUp (s.handle_command env c a) op := by
  intro hclean
  have hstream := hclean.stream
  unfold late at h
  obtain ⟨hready, hop⟩ := Option.ite_none_left_eq_some.mp h
  obtain ⟨hstage, hopen⟩ : s.m_connection_stage = .LOGGED_IN ∧ s.data_socket_open = true := by
    simpa using hready
  obtain ⟨-, hSTOR, hRETR⟩ := handle_command_of_transfer env s a hstage
  split at hop
  · next hc =>
    subst hc
    -- A late listing opens no file, so it starts.
    obtain ⟨hp, -⟩ := Option.ite_none_right_eq_some.mp hop
    rw [startedLate_LIST env a hstage, if_pos ⟨hopen, hp⟩] at hnone
    cases hnone
  split at hop
  · next hc =>
    subst hc
    obtain ⟨hnow, hop⟩ := Option.ite_none_right_eq_some.mp hop
    obtain rfl := Option.some.inj hop
    obtain ⟨-, -, -, ha, hp, hm⟩ := hnow
    rw [hSTOR, run_STOR, if_neg ha, if_neg (not_not.mpr hp), run_pending_STOR,
      if_neg (show ¬ (s.set_pending_write a).ParentMissing
        (s.set_pending_write a).m_pending_write_file from hm),
      if_pos (show (s.set_pending_write a).data_socket_open = true from hopen)] at hstream
    have hset := holdsStream_data_receive_file env
      ((s.set_pending_write a).control_send (lit "150 Opening connection."))
    exact absurd (hset.symm.trans hstream) (by decide)
  · next hc =>
    obtain ⟨hc, hop⟩ := Option.ite_none_right_eq_some.mp hop
    subst hc
    obtain rfl := Option.some.inj hop
    rw [startedLate_RETR env a hstage] at hnone
    obtain ⟨-, hsocket, htable, hfile⟩ := s.parse_RETR_argument_file a
    have hopens : s.sendOpens env (s.fileOfRETR a) = false := by simpa [hopen] using hnone
    rw [hRETR, run_RETR, if_pos (hsocket.trans hopen)] at hstream
    have hfails : ((s.parse_RETR_argument a).control_send (lit "150 Opening connection.")).sendOpens
        env (s.parse_RETR_argument a).m_sendable_file_id = false := by
      rw [hfile, ← hopens]
      exact congrArg (fun st : Store => (_ || (st.blobs _).isSome) && env.opens) htable
    exact absurd ((holdsStream_data_send_file hfails).symm.trans hstream) (by decide)

end

/-! ## The law -/

/-- A transfer that ends by another event than those of its data is not cleaned up. -/
theorem not_cleaned_of_ended {env : Env} {s s' : Session} {e : Event} (h : Stepped env s e s')
    (he : endsPart e = false) {answered : List DataOp} {op : DataOp}
    (hop : ended env s answered e = some op) : ¬ CleanedUp s' op := by
  cases h with
  | control_received ec received =>
    obtain ⟨hnone, hlate⟩ := Option.ite_none_right_eq_some.mp hop
    exact not_cleaned_of_late (s := { s with control_reads := s.control_reads - 1 }) hlate hnone
  | accepted ec =>
    obtain ⟨hplain, hun⟩ := Option.ite_none_left_eq_some.mp hop
    let t : Session := { s with accepts := s.accepts - 1 }
    by_cases hec : ec = .success
    · have hclass : s.session_class = .session := by
        cases hc : s.session_class with
        | session => rfl
        | secure_session => exact absurd ⟨hec, hc⟩ hplain
      refine not_cleaned_of_unserved (s := { t with
        data_socket_open := true
        data_connection := t.data_connection + 1 }) hun ?_
      rw [if_neg (not_not.mpr hec), hec]
      exact (t.handle_accept_success env).trans (if_pos hclass)
    · refine not_cleaned_of_unserved (s := t) hun ?_
      rw [if_pos hec, handle_accept, if_pos hec]
  | data_handshaken ec =>
    exact not_cleaned_of_unserved
      (s := { s with data_handshakes := s.data_handshakes - 1 }) hop rfl
  | data_sent => cases he
  | data_received => cases he
  | data_async_sent => cases he
  | _ => cases hop

theorem cleansUp_iff {x x' : Session × List DataOp} {e : Env × Event}
    (h : watched x e = some x') : CleansUp x e x' ↔ EndsInOrder x e x' := by
  obtain ⟨s, answered⟩ := x
  obtain ⟨env, e⟩ := e
  simp only [watched, Option.map_eq_some_iff] at h
  obtain ⟨s', hs, rfl⟩ := h
  obtain ⟨-, hst⟩ := step_stepped hs
  have other : endsPart e = false →
      (CleansUp (s, answered) (env, e) (s', (answers s s' answered e).filter
        (ended env s answered e ≠ some ·)) ↔ ended env s answered e = none) := by
    intro he
    constructor
    · intro hclean
      by_contra hne
      obtain ⟨op, hop⟩ := Option.ne_none_iff_exists'.mp hne
      exact not_cleaned_of_ended hst he hop (hclean op hop)
    · intro hnone op hop
      rw [show ended env s answered e = none from hnone] at hop
      cases hop
  cases e with
  | data_sent c ec =>
    cases hst with
    | data_sent =>
      have hiff := cleaned_data_send_iff
        { s with data_ops := s.data_ops.erase ⟨.data_send, c⟩ } ec
      constructor
      · intro hclean
        exact hiff.mp (hclean .data_send rfl)
      · intro horder op hop
        obtain rfl := Option.some.inj hop
        exact hiff.mpr horder
  | data_received c ec received =>
    cases hst with
    | data_received =>
      refine iff_of_true (fun op hop => ?_) trivial
      obtain ⟨hends, hop⟩ := Option.ite_none_right_eq_some.mp hop
      obtain rfl := Option.some.inj hop
      exact cleaned_data_async_receive (s := { s with
        data_ops := s.data_ops.erase ⟨.data_async_receive, c⟩
        m_receive_buffer := s.m_receive_buffer ++ received }) hends
  | data_async_sent c ec =>
    cases hst with
    | data_async_sent =>
      refine iff_of_true (fun op hop => ?_) trivial
      obtain ⟨hends, hop⟩ := Option.ite_none_right_eq_some.mp hop
      obtain rfl := Option.some.inj hop
      exact cleaned_data_async_send (s := { s with
        data_ops := s.data_ops.erase ⟨.data_async_send, c⟩ }) hends
  | _ => exact other rfl

/-- In a run of any session, in any state and with any transfers on their way: each transfer that
ends is cleaned up, if and only if each one ends in order. -/
theorem ended_transfers_are_cleaned_up_iff_they_end_in_order (x : Session × List DataOp)
    (es : List (Env × Event)) :
    runs.Along watched CleansUp x es ↔ runs.Along watched EndsInOrder x es := by
  refine runs.along_iff_of_invariant (J := fun _ => True) ?_ ?_ trivial
  · exact fun x e x' _ h => cleansUp_iff h
  · exact fun x e x' _ _ _ => trivial

/-- The accept of a LIST fails: its marker stays set, and every later LIST is refused. -/
theorem a_failed_accept_leaves_the_listing_pending : ¬ runs.Along watched CleansUp
    (begun .session users.Table.annAndBob Store.empty 0 0, [])
    [clientLine "USER ann", clientLine "PASS pw1", clientLine "LIST",
      (Env.working 0, .accepted .other)] := by
  decide

end asio_ftp.cleanup
