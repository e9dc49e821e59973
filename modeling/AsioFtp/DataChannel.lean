-- The laws of the data channel: when the transfers of a session take turns on the data socket,
-- and when no callback of a transfer finds its file stream reset.
import AsioFtp.Transfers

namespace asio_ftp.data_channel

open fs_objects base_session base_session.Session

/-! ## One transfer at a time -/

/-- A late command that starts its transfer, a new connection, and a data handshake that ends with
work to pick up: each comes when nothing is outstanding on the data socket. -/
def Alone (s : Session) (e : Env × Event) (_ : Session) : Prop :=
  match e.2 with
  | .control_received ec received =>
    s.startedLate e.1 (handle_control_receive_callback ec received).1
      (handle_control_receive_callback ec received).2 ≠ none → s.data_ops = []
  | .accepted ec => ec = .success → s.data_ops = []
  | .data_handshaken ec => ec = .success → s.pickedUp e.1 ≠ none → s.data_ops = []
  | _ => True

/-- At most one transfer is outstanding, and the socket under it stays. -/
def TakesTurns (s : Session) (_ : Env × Event) (s' : Session) : Prop :=
  s'.data_ops.length ≤ 1 ∧ (s'.data_connection ≠ s.data_connection → s.data_ops = [])

instance (s : Session) (e : Env × Event) (s' : Session) : Decidable (TakesTurns s e s') :=
  inferInstanceAs (Decidable (_ ∧ _))

theorem back_begun (session_class : SessionClass) (users : users.Table) (store : Store)
    (lap available : Nat) :
    (begun session_class users store lap available).back = ⟨[], 0, false, false, false⟩ :=
  begun_cases (P := fun s => s.back = ⟨[], 0, false, false, false⟩)
    session_class users store lap available rfl rfl rfl rfl

theorem starts_of_endsPart (env : Env) (s : Session) {e : Event} (h : endsPart e = true) :
    s.starts env e = none ∧ replaces e = false := by
  cases e <;> first | exact ⟨rfl, rfl⟩ | simp [endsPart] at h

/-- These are the events that start a transfer or take the data socket. -/
theorem alone_iff {s s' : Session} {e : Env × Event} :
    Alone s e s' ↔ (s.starts e.1 e.2 ≠ none ∨ replaces e.2 = true → s.data_ops = []) := by
  obtain ⟨env, e⟩ := e
  cases e with
  | control_received ec received => simp [Alone, starts, replaces]
  | accepted ec =>
    by_cases hec : ec = .success
    · simp [Alone, replaces, hec]
    · simp [Alone, starts, replaces, hec]
  | data_handshaken ec =>
    by_cases hec : ec = .success <;> simp [Alone, starts, replaces, hec]
  | _ => simp [Alone, starts, replaces]

theorem takes_turns_step {s s' : Session} {e : Env × Event} (hs : s.data_ops.length ≤ 1)
    (h : s.step e = some s') : TakesTurns s e s' ↔ Alone s e s' := by
  obtain ⟨env, e⟩ := e
  obtain ⟨-, hst⟩ := step_stepped h
  rw [alone_iff]
  unfold TakesTurns
  by_cases he : endsPart e = true
  · obtain ⟨hn, hr⟩ := starts_of_endsPart env s he
    obtain ⟨hc, o, ho, hops⟩ := hst.ended he
    have hl := List.length_erase_of_mem ho
    have hle : s'.data_ops.length ≤ 1 := by
      rcases hops with hops | hops
      · rw [hops]
        omega
      · rw [hops, List.length_append, hl]
        simp only [List.length_cons, List.length_nil]
        omega
    simp [hn, hr, hc, hle]
  · have hb := hst.started (by simpa using he)
    have hops : s'.data_ops = s.data_ops ++ _ := hb.ops
    have hc : s'.data_connection = s.data_connection + _ := hb.connection
    have hl : s'.data_ops.length = s.data_ops.length + (s.starts env e).toList.length := by
      rw [hops, List.length_append, List.length_map]
    rw [hl, hc]
    have hnil : s.data_ops = [] ↔ s.data_ops.length = 0 := List.length_eq_zero_iff.symm
    rw [hnil]
    cases s.starts env e <;> cases replaces e <;> simp <;> omega

/-- In a run of a session of either class, the transfers take turns if and only if each of
them, and each new connection, begins alone. -/
theorem transfers_take_turns_iff_each_begins_alone (session_class : SessionClass)
    (users : users.Table) (store : Store) (lap available : Nat) (es : List (Env × Event)) :
    runs.Along step TakesTurns (begun session_class users store lap available) es ↔
      runs.Along step Alone (begun session_class users store lap available) es := by
  refine runs.along_iff_of_invariant (J := fun s => s.data_ops.length ≤ 1) ?_ ?_ ?_
  · intro s e s' hj h
    exact takes_turns_step hj h
  · intro s e s' hj h ha
    exact ((takes_turns_step hj h).mpr ha).1
  · exact congrArg (fun b => b.ops.length) (back_begun session_class users store lap available)
      |>.trans_le (Nat.zero_le 1)

/-- Two transfer commands before the first connection: the second connection takes the socket
from the first transfer, and starts that one again. -/
theorem two_connections_overlap : ¬ runs.Along step TakesTurns
    (begun .session users.Table.annAndBob Store.empty 0 0)
    [clientLine "USER ann", clientLine "PASS pw1", clientLine "LIST", clientLine "STOR f",
      (Env.working 0, .accepted .success), (Env.working 0, .accepted .success)] := by
  decide

/-! ## No stream is reset under a transfer -/

/-- How many operations of a kind are outstanding. -/
def outstanding (ops : List Outstanding) (op : DataOp) : Nat := ops.countP (fun o => o.op == op)

/-- A transfer that uses a file stream starts only when no other of its kind is outstanding. -/
def OneOfEach (s : Session) (e : Env × Event) (_ : Session) : Prop :=
  ∀ op ∈ [DataOp.data_async_receive, DataOp.data_async_send],
    s.starts e.1 e.2 = some op → outstanding s.data_ops op = 0

instance (s : Session) (e : Env × Event) (s' : Session) : Decidable (OneOfEach s e s') :=
  inferInstanceAs (Decidable (∀ op ∈ _, _))

/-- The callback of a transfer finds the stream that it uses. -/
def findsStream (s : Session) : Event → Bool
  | .data_received .. => s.m_receive_file_stream.isSome
  | .data_async_sent .. => s.m_send_file_stream.isSome
  | _ => true

/-- Each kind of transfer with a stream has at most one operation outstanding, and then its
stream is set. -/
def Streams (b : Back) : Prop :=
  ∀ op ∈ [DataOp.data_async_receive, DataOp.data_async_send],
    outstanding b.ops op ≤ 1 ∧ (outstanding b.ops op = 1 → b.stream op = true)

theorem outstanding_erase {ops : List Outstanding} {o : Outstanding} (h : o ∈ ops) (op : DataOp) :
    outstanding ops op = outstanding (ops.erase o) op + if o.op = op then 1 else 0 := by
  unfold outstanding
  rw [(List.perm_cons_erase h).countP_eq, List.countP_cons]
  simp

theorem outstanding_append (ops : List Outstanding) (o : Outstanding) (op : DataOp) :
    outstanding (ops ++ [o]) op = outstanding ops op + if o.op = op then 1 else 0 := by
  unfold outstanding
  rw [List.countP_append, List.countP_cons]
  simp

/-- A transfer that starts when none of its kind is outstanding finds its own stream. -/
theorem streams_started {b b' : Back} {started : Option DataOp} (hb : Streams b)
    (h : Started b b' started) (hone : ∀ op ∈ [DataOp.data_async_receive, DataOp.data_async_send],
      started = some op → outstanding b.ops op = 0) : Streams b' := by
  intro op hop
  obtain ⟨h1, h2⟩ := hb op hop
  cases started with
  | none =>
    have hops : b'.ops = b.ops := by simpa using h.ops
    rw [hops]
    exact ⟨h1, fun ho => h.stream op (Or.inl (h2 ho))⟩
  | some new =>
    have hops : b'.ops = b.ops ++ [⟨new, b.connection⟩] := h.ops
    rw [hops, outstanding_append]
    by_cases hn : new = op
    · subst hn
      rw [hone new hop rfl]
      exact ⟨by simp, fun _ => h.stream new (Or.inr rfl)⟩
    · rw [if_neg hn]
      exact ⟨h1, fun ho => h.stream op (Or.inl (h2 ho))⟩

/-- The last callback of a transfer may reset its stream, and another one may not. -/
theorem streams_ended {b b' : Back} {o : Outstanding} {c : Nat} (hb : Streams b) (ho : o ∈ b.ops)
    (h : b'.ops = b.ops.erase o ∨
      b'.ops = b.ops.erase o ++ [⟨o.op, c⟩] ∧ b'.stream o.op = b.stream o.op)
    (hother : ∀ op, op ≠ o.op → b'.stream op = b.stream op) : Streams b' := by
  intro op hop
  obtain ⟨h1, h2⟩ := hb op hop
  have he := outstanding_erase ho op
  by_cases hn : o.op = op
  · subst hn
    rw [if_pos rfl] at he
    rcases h with h | ⟨h, hs⟩
    · rw [h]
      exact ⟨by omega, fun hone => by omega⟩
    · rw [h, outstanding_append, if_pos rfl, hs]
      exact ⟨by omega, fun hone => h2 (by omega)⟩
  · rw [if_neg hn, Nat.add_zero] at he
    rw [hother op (Ne.symm hn)]
    rcases h with h | ⟨h, -⟩
    · rw [h, ← he]
      exact ⟨h1, h2⟩
    · rw [h, outstanding_append, if_neg hn, Nat.add_zero, ← he]
      exact ⟨h1, h2⟩

/-- The stream of an outstanding transfer is set. -/
theorem Streams.set {b : Back} {o : Outstanding} (hb : Streams b) (ho : o ∈ b.ops)
    (hop : o.op ∈ [DataOp.data_async_receive, DataOp.data_async_send]) :
    b.stream o.op = true := by
  have he := outstanding_erase ho o.op
  rw [if_pos rfl] at he
  obtain ⟨h1, h2⟩ := hb o.op hop
  exact h2 (by omega)

theorem streams_step {s s' : Session} {e : Env × Event} (hj : Streams s.back)
    (h : s.step e = some s') (hone : OneOfEach s e s') :
    (findsStream s e.2 = true ∧ s'.crashed = false) ∧ Streams s'.back := by
  obtain ⟨env, e⟩ := e
  obtain ⟨hc, hst⟩ := step_stepped h
  by_cases he : endsPart e = true
  · cases hst with
    | data_sent c ec ho =>
      have hb := back_handle_data_send_callback
        { s with data_ops := s.data_ops.erase ⟨.data_send, c⟩ } ec
      refine ⟨⟨rfl, (congrArg Back.crashed hb).trans hc⟩, ?_⟩
      rw [hb]
      exact streams_ended (c := c) hj ho (Or.inl rfl) (fun _ _ => rfl)
    | data_received c ec received ho =>
      have hsome := hj.set ho (by simp)
      obtain ⟨f, hf⟩ := Option.isSome_iff_exists.mp hsome
      have hb := back_handle_data_async_receive_callback env
        { s with
          data_ops := s.data_ops.erase ⟨.data_async_receive, c⟩
          m_receive_buffer := s.m_receive_buffer ++ received } hf ec received.length
      split at hb
      · refine ⟨⟨hsome, (congrArg Back.crashed hb).trans hc⟩, ?_⟩
        rw [hb]
        refine streams_ended (c := c) hj ho (Or.inl rfl) (fun op hne => ?_)
        cases op <;> first | rfl | exact absurd rfl hne
      · refine ⟨⟨hsome, (congrArg Back.crashed hb).trans hc⟩, ?_⟩
        rw [hb]
        exact streams_ended hj ho (Or.inr ⟨rfl, rfl⟩) (fun _ _ => rfl)
    | data_async_sent c ec ho =>
      have hsome := hj.set ho (by simp)
      obtain ⟨f, hf⟩ := Option.isSome_iff_exists.mp hsome
      have hb := back_handle_data_async_send_callback env
        { s with data_ops := s.data_ops.erase ⟨.data_async_send, c⟩ } hf ec
      split at hb
      · refine ⟨⟨hsome, (congrArg Back.crashed hb).trans hc⟩, ?_⟩
        rw [hb]
        refine streams_ended (c := c) hj ho (Or.inl rfl) (fun op hne => ?_)
        cases op <;> first | rfl | exact absurd rfl hne
      · refine ⟨⟨hsome, (congrArg Back.crashed hb).trans hc⟩, ?_⟩
        rw [hb]
        exact streams_ended hj ho (Or.inr ⟨rfl, rfl⟩) (fun _ _ => rfl)
    | _ => simp [endsPart] at he
  · have hb := hst.started (by simpa using he)
    refine ⟨⟨?_, hb.crashed.trans hc⟩, ?_⟩
    · cases e <;> first | rfl | exact absurd rfl he
    · exact streams_started (b := { s.back with connection := _ })
        (fun op hop => by cases op <;> exact hj _ hop) hb hone

/-- In a run of a session of either class in which no upload and no download starts beside
another one, every callback of a transfer finds its stream, and no event crashes the server. -/
theorem every_callback_finds_its_stream (session_class : SessionClass) (users : users.Table)
    (store : Store) (lap available : Nat) (es : List (Env × Event))
    (h : runs.Along step OneOfEach (begun session_class users store lap available) es) :
    runs.Along step (fun s e s' => findsStream s e.2 = true ∧ s'.crashed = false)
      (begun session_class users store lap available) es := by
  refine runs.along_of_invariant (J := fun s => Streams s.back) ?_ ?_ h
  · intro s e s' hj hs hone
    exact streams_step hj hs hone
  · rw [back_begun]
    intro op _
    exact ⟨Nat.zero_le 1, fun h => nomatch h⟩

/-- The callbacks of an upload and then of a download of the same file. -/
theorem callbacks_find_their_streams_in_turn :
    runs.Along step (fun s e s' => findsStream s e.2 = true ∧ s'.crashed = false)
      (begun .session users.Table.annAndBob Store.empty 0 0)
      [clientLine "USER ann", clientLine "PASS pw1", clientLine "STOR f",
        (Env.working 0, .accepted .success), (Env.working 0, .data_received 1 .eof (lit "x")),
        clientLine "RETR f", (Env.working 0, .accepted .success),
        (Env.working 0, .data_async_sent 2 .success)] :=
  every_callback_finds_its_stream .session users.Table.annAndBob Store.empty 0 0 _ (by decide)

/-- A second RETR before the connection of the first: the first download to end resets the
stream, and the callback of the other one reads through it. -/
theorem a_second_download_crashes_the_server : ¬ runs.Along step
    (fun s e s' => findsStream s e.2 = true ∧ s'.crashed = false)
    (begun .session users.Table.annAndBob Store.empty 0 0)
    [clientLine "USER ann", clientLine "PASS pw1", clientLine "STOR f",
      (Env.working 0, .accepted .success), (Env.working 0, .data_received 1 .eof (lit "x")),
      clientLine "RETR f", clientLine "RETR f", (Env.working 0, .accepted .success),
      (Env.working 0, .accepted .success), (Env.working 0, .data_async_sent 2 .operation_aborted),
      (Env.working 0, .data_async_sent 3 .success)] := by
  decide

end asio_ftp.data_channel
