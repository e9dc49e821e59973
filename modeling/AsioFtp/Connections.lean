-- The laws of the data connections: when a transfer begins on a connection that was accepted
-- after the last transfer ended, and not on the one that the server is closing.
import AsioFtp.Links
import AsioFtp.Transfers

namespace asio_ftp.connections

open fs_objects base_session base_session.Session

/-! ## What is watched -/

/-- One event of a session, with the data connection that it held when a transfer last ended: the
end handler sent its 226 and called `data_close` on that connection. -/
def watched (x : Session × Option Nat) (e : Env × Event) : Option (Session × Option Nat) :=
  (x.1.step e).map fun s' =>
    (s', if x.1.finishes e.1 e.2 = true then some s'.data_connection else x.2)

/-- The operations that an event started for a command or for a new connection. A transfer that
goes on does not count. -/
def begins (s : Session) (e : Event) (s' : Session) : List Outstanding :=
  if endsPart e = true then [] else s'.data_ops.drop s.data_ops.length

/-- A transfer that begins reads from or writes to a connection that was accepted after the last
transfer ended. This is asked of every transfer, also of one whose command came before that end. -/
def OnNewConnection (x : Session × Option Nat) (e : Env × Event) (x' : Session × Option Nat) :
    Prop := ∀ o ∈ begins x.1 e.2 x'.1, ∀ c ∈ x.2, c < o.connection

instance (x : Session × Option Nat) (e : Env × Event) (x' : Session × Option Nat) :
    Decidable (OnNewConnection x e x') :=
  inferInstanceAs (Decidable (∀ o ∈ begins x.1 e.2 x'.1, ∀ c ∈ x.2, c < o.connection))

/-- A TLS session still holds the connection of the last end. Then, as long as the shutdown of the
connection is outstanding, no LIST, STOR or RETR finds the socket open and starts a transfer, and
no data handshake ends with work to pick up. -/
def WaitsForShutdown (x : Session × Option Nat) (e : Env × Event) (_ : Session × Option Nat) :
    Prop :=
  x.1.session_class = .secure_session → x.2 = some x.1.data_connection →
    match e.2 with
    | .control_received ec received =>
      x.1.data_shutdowns ≠ 0 → x.1.startedLate e.1 (handle_control_receive_callback ec received).1
        (handle_control_receive_callback ec received).2 = none
    | .data_handshaken ec => ec = .success → x.1.pickedUp e.1 = none
    | _ => True

/-! ## A connection that is closed -/

/-- The data socket is closed, or its TLS shutdown is outstanding. -/
def Closing (l : Link) : Prop :=
  l.socket_open = false ∨ l.session_class = .secure_session ∧ l.shutdowns ≠ 0

theorem closing_close (l : Link) : Closing l.close := by
  unfold Link.close
  by_cases h : l.socket_open = false
  · rw [if_pos h]
    exact Or.inl h
  · rw [if_neg h]
    cases hc : l.session_class with
    | session => exact Or.inl rfl
    | secure_session => exact Or.inr ⟨rfl, Nat.succ_ne_zero _⟩

theorem close_eq (l : Link) : l.close.session_class = l.session_class ∧
    l.close.connection = l.connection ∧ l.close.handshakes = l.handshakes := by
  unfold Link.close
  split
  · exact ⟨rfl, rfl, rfl⟩
  · cases hc : l.session_class <;> exact ⟨rfl, rfl, rfl⟩

/-- Only a new connection opens the data socket again. -/
theorem closing_event {l : Link} {e : Event} (h : Closing l) (he : replaces e = false) :
    Closing (l.event e) ∧ (l.event e).connection = l.connection := by
  cases e with
  | accepted ec => cases ec <;> first | exact ⟨h, rfl⟩ | simp [replaces] at he
  | data_shutdown => exact ⟨Or.inl rfl, rfl⟩
  | handshaken ec i => cases ec <;> exact ⟨h, rfl⟩
  | _ => exact ⟨h, rfl⟩

theorem connection_event (l : Link) (e : Event) :
    (l.event e).connection = l.connection + if replaces e then 1 else 0 := by
  cases e with
  | accepted ec => cases ec <;> rfl
  | handshaken ec i => cases ec <;> rfl
  | _ => rfl

theorem class_event (l : Link) (e : Event) : (l.event e).session_class = l.session_class := by
  cases e with
  | accepted ec => cases ec <;> rfl
  | handshaken ec i => cases ec <;> rfl
  | _ => rfl

/-- A plain session makes no data handshake. -/
theorem handshakes_event {l : Link} (e : Event) (hc : l.session_class = .session)
    (h : l.handshakes = 0) : (l.event e).handshakes = 0 := by
  cases e with
  | accepted ec => cases ec <;> simp [Link.event, h, hc]
  | handshaken ec i => cases ec <;> exact h
  | data_handshaken => simp [Link.event, h]
  | _ => exact h

/-! ## One event -/

/-- What holds between the events: the connection of the last end is not newer than the one that
the session holds, and if it is that one, then it is closed or closing. -/
structure Watched (x : Session × Option Nat) : Prop where
  older : ∀ c ∈ x.2, c ≤ x.1.data_connection
  closing : x.2 = some x.1.data_connection → Closing x.1.link
  plain : x.1.session_class = .session → x.1.data_handshakes = 0

theorem watched_step {x x' : Session × Option Nat} {e : Env × Event} (hx : Watched x)
    (h : watched x e = some x') : Watched x' := by
  obtain ⟨s, last⟩ := x
  obtain ⟨env, e⟩ := e
  simp only [watched, Option.map_eq_some_iff] at h
  obtain ⟨s', hs, rfl⟩ := h
  obtain ⟨-, hst⟩ := step_stepped hs
  obtain ⟨holder, hclosing, hplain⟩ := hx
  simp only at holder hclosing hplain
  have hlink := hst.link
  have hsame : s'.link.session_class = s.session_class ∧
      s'.link.connection = s.data_connection + (if replaces e then 1 else 0) ∧
      (s.session_class = .session → s'.link.handshakes = 0) := by
    have hclass := class_event s.link e
    have hconn := connection_event s.link e
    have hhand := fun hc => handshakes_event (l := s.link) e hc (hplain hc)
    rcases hlink with hl | hl
    · rw [hl]
      exact ⟨hclass, hconn, hhand⟩
    · obtain ⟨h1, h2, h3⟩ := close_eq (s.link.event e)
      rw [hl, h1, h2, h3]
      exact ⟨hclass, hconn, hhand⟩
  obtain ⟨hclass, hconn, hhand⟩ := hsame
  have hconn' : s'.data_connection = s.data_connection + (if replaces e then 1 else 0) := hconn
  refine ⟨?_, ?_, fun hc => hhand (hclass.symm.trans hc)⟩
  · intro c hc
    simp only at hc ⊢
    split at hc
    · exact (Option.some.inj hc).ge
    · exact (holder c hc).trans (hconn' ▸ Nat.le_add_right _ _)
  · intro hlast
    simp only at hlast
    by_cases hf : s.finishes env e = true
    · show Closing s'.link
      rw [hst.link_of_finishes hf]
      exact closing_close _
    · rw [if_neg hf] at hlast
      have hle := holder _ hlast
      cases hr : replaces e with
      | true =>
        rw [hr] at hconn'
        simp only [if_true] at hconn'
        omega
      | false =>
        rw [hr] at hconn'
        have hold : last = some s.data_connection := by simpa [hconn'] using hlast
        obtain ⟨hcl, -⟩ := closing_event (hclosing hold) hr
        show Closing s'.link
        rcases hlink with hl | hl
        · rw [hl]
          exact hcl
        · rw [hl]
          exact closing_close _

/-- The operation that an event starts is on the connection that the session holds then. -/
theorem begins_eq {s s' : Session} {env : Env} {e : Event} (h : Stepped env s e s') :
    begins s e s' = if endsPart e = true then [] else
      (s.starts env e).toList.map
        (⟨·, s.data_connection + if replaces e then 1 else 0⟩) := by
  unfold begins
  by_cases he : endsPart e = true
  · rw [if_pos he, if_pos he]
  · rw [if_neg he, if_neg he]
    have hops := (h.started (by simpa using he)).ops
    have hops' : s'.data_ops = s.data_ops ++ _ := hops
    rw [hops', List.drop_left]

/-- A late command starts a transfer only on an open data socket. -/
theorem open_of_startedLate {s : Session} {env : Env} {c a : Bytes}
    (h : s.startedLate env c a ≠ none) : s.data_socket_open = true := by
  by_contra ho
  refine h ?_
  unfold startedLate
  rw [if_pos (Or.inr (by simpa using ho))]

/-- On the connection that the session holds, a start is wrong exactly when it is the connection of
the last end. -/
theorem onNewConnection_iff_of_same {s s' : Session} {last last' : Option Nat} {env : Env}
    {e : Event} (holder : ∀ c ∈ last, c ≤ s.data_connection) (hst : Stepped env s e s')
    (he : endsPart e = false) (hr : replaces e = false) :
    OnNewConnection (s, last) (env, e) (s', last') ↔
      (last = some s.data_connection → s.starts env e = none) := by
  unfold OnNewConnection
  simp only
  rw [begins_eq hst, if_neg (by simp [he]), hr]
  cases hstart : s.starts env e with
  | none => simp
  | some op =>
    simp only [Option.toList_some, List.map_cons, List.map_nil, List.mem_singleton, forall_eq,
      Option.mem_def, Bool.false_eq_true, if_false, Nat.add_zero, reduceCtorEq, imp_false]
    constructor
    · exact fun hlt hlast => absurd (hlt _ hlast) (lt_irrefl _)
    · intro hne c hc
      exact lt_of_le_of_ne (holder c hc) (fun heq => hne (heq ▸ hc))

/-- A new connection is newer than the connection of the last end. -/
theorem onNewConnection_accepted {s s' : Session} {last last' : Option Nat} {env : Env}
    {ec : ErrorCode} (holder : ∀ c ∈ last, c ≤ s.data_connection)
    (hst : Stepped env s (.accepted ec) s') :
    OnNewConnection (s, last) (env, .accepted ec) (s', last') := by
  by_cases hec : ec = .success
  · subst hec
    intro o ho c hc
    simp only at ho hc
    rw [begins_eq hst, if_neg (by simp [endsPart])] at ho
    obtain ⟨op, -, rfl⟩ := List.mem_map.mp ho
    have := holder c hc
    simp only [replaces, if_true]
    omega
  · intro o ho
    simp only at ho
    rw [begins_eq hst, if_neg (by simp [endsPart])] at ho
    simp [starts, hec] at ho

theorem onNewConnection_iff {x x' : Session × Option Nat} {e : Env × Event} (hx : Watched x)
    (h : watched x e = some x') : OnNewConnection x e x' ↔ WaitsForShutdown x e x' := by
  obtain ⟨s, last⟩ := x
  obtain ⟨env, e⟩ := e
  simp only [watched, Option.map_eq_some_iff] at h
  obtain ⟨s', hs, rfl⟩ := h
  obtain ⟨-, hst⟩ := step_stepped hs
  obtain ⟨holder, hclosing, hplain⟩ := hx
  simp only at holder hclosing hplain
  cases e with
  | control_received ec received =>
    rw [onNewConnection_iff_of_same holder hst rfl rfl]
    simp only [WaitsForShutdown, starts]
    constructor
    · exact fun hn _ hlast _ => hn hlast
    · intro hw hlast
      by_contra hne
      have hopen := open_of_startedLate hne
      rcases hclosing hlast with hcl | ⟨hclass, hsh⟩
      · exact absurd (hopen.symm.trans hcl) (by decide)
      · exact hne (hw hclass hlast hsh)
  | data_handshaken ec =>
    rw [onNewConnection_iff_of_same holder hst rfl rfl]
    simp only [WaitsForShutdown, starts]
    cases hst with
    | data_handshaken _ hg =>
      have hclass : s.session_class = .secure_session := by
        cases hc : s.session_class with
        | session => exact absurd (hplain hc) hg
        | secure_session => rfl
      by_cases hec : ec = .success
      · simp [hec, hclass]
      · simp [hec]
  | accepted ec => exact iff_of_true (onNewConnection_accepted holder hst) (fun _ _ => trivial)
  | data_sent =>
    exact iff_of_true (fun o ho => by simp [begins, endsPart] at ho) (fun _ _ => trivial)
  | data_received =>
    exact iff_of_true (fun o ho => by simp [begins, endsPart] at ho) (fun _ _ => trivial)
  | data_async_sent =>
    exact iff_of_true (fun o ho => by simp [begins, endsPart] at ho) (fun _ _ => trivial)
  | _ =>
    rw [onNewConnection_iff_of_same holder hst rfl rfl]
    exact iff_of_true (fun _ => rfl) (fun _ _ => trivial)

/-! ## The law -/

/-- In a run of any session, every transfer begins on a connection that was accepted after the
last transfer ended, if and only if a TLS session starts no transfer while the shutdown of that
connection is outstanding. -/
theorem transfers_begin_on_new_connections_iff_the_shutdown_is_awaited
    (session_class : SessionClass) (users : users.Table) (store : Store) (lap available : Nat)
    (es : List (Env × Event)) :
    runs.Along watched OnNewConnection (begun session_class users store lap available, none) es ↔
      runs.Along watched WaitsForShutdown
        (begun session_class users store lap available, none) es := by
  refine runs.along_iff_of_invariant (J := Watched) ?_ ?_ ⟨?_, ?_, ?_⟩
  · exact fun x e x' hx h => onNewConnection_iff hx h
  · exact fun x e x' hx h _ => watched_step hx h
  · rintro c ⟨⟩
  · exact fun h => nomatch h
  · exact begun_cases (P := fun s => s.session_class = .session → s.data_handshakes = 0)
      session_class users store lap available (fun _ => rfl) (fun _ => rfl) (fun _ => rfl)
      (fun _ => rfl)

/-- A LIST after the 226 of another one, and before the end of the TLS shutdown: the listing goes
to the connection that is being closed. -/
theorem a_listing_goes_to_a_closing_connection : ¬ runs.Along watched OnNewConnection
    (begun .secure_session users.Table.annAndBob Store.empty 501 0, none)
    [(Env.working 0, .probe_received .success (lit "AUTH TLS" ++ crlf)),
      (Env.working 0, .handshaken .success false),
      clientLine "USER ann", clientLine "PASS pw1", clientLine "LIST",
      (Env.working 0, .accepted .success), (Env.working 0, .data_handshaken .success),
      (Env.working 0, .data_sent 1 .success), clientLine "LIST"] := by
  decide

end asio_ftp.connections
