-- The server (src/ftp/server.cpp): its sessions share the users and the store, because each of
-- them opens the one database, and their events come in any order.
import AsioFtp.Calls

namespace asio_ftp.server

open fs_objects histories base_session base_session.Session

/-- A session holds the store that it saw last, and each of its events starts with the store of
the server. -/
structure Server where
  session_class : SessionClass
  m_users_table : users.Table
  m_fs_objects_table : Store
  sessions : List Session

/-- A server that just started, with an empty table. -/
def Server.init (session_class : SessionClass) (users : users.Table) : Server :=
  ⟨session_class, users, Store.empty, []⟩

inductive ServerEvent
  /-- A connection was accepted. -/
  | connected (lap available : Nat)
  /-- An event of the session `k`. -/
  | session (k : Nat) (env : Env) (e : Event)

namespace Server

/-- The session `k` before an event. -/
def session (sv : Server) (k : Nat) : Option Session :=
  sv.sessions[k]?.map fun s => { s with m_fs_objects_table := sv.m_fs_objects_table }

/-- The server after an event of the session `k`. -/
def put (sv : Server) (k : Nat) (s : Session) : Server :=
  { sv with m_fs_objects_table := s.m_fs_objects_table, sessions := sv.sessions.set k s }

/-- A server that crashed in one session takes no event. -/
def step (sv : Server) (e : ServerEvent) : Option Server :=
  if sv.sessions.any (·.crashed) then none
  else
    match e with
    | .connected lap available =>
      some { sv with
        sessions := sv.sessions ++
          [begun sv.session_class sv.m_users_table sv.m_fs_objects_table lap available] }
    | .session _ _ (.elsewhere _) => none
    | .session k env e => (sv.session k).bind fun s => (s.step (env, e)).map (sv.put k)

/-- The call of an event that can change the table. -/
def callOf (sv : Server) : ServerEvent → Option Op
  | .connected .. => none
  | .session k env e => (sv.session k).bind (·.callOf env e)

/-- What each event asks of the server, and what it does. -/
inductive Served (sv : Server) : ServerEvent → Server → Prop
  | connected (lap available) : Served sv (.connected lap available)
      { sv with
        sessions := sv.sessions ++
          [begun sv.session_class sv.m_users_table sv.m_fs_objects_table lap available] }
  | session (k env e s s') (hk : sv.session k = some s) (he : ∀ store, e ≠ .elsewhere store)
      (h : s.step (env, e) = some s') : Served sv (.session k env e) (sv.put k s')

theorem step_served {sv sv' : Server} {e : ServerEvent} (h : sv.step e = some sv') :
    Served sv e sv' := by
  unfold step at h
  simp only [Option.ite_none_left_eq_some] at h
  obtain ⟨-, h⟩ := h
  split at h
  · exact Option.some.inj h ▸ .connected ..
  · simp at h
  · next k env e hne =>
    simp only [Option.bind_eq_some_iff, Option.map_eq_some_iff] at h
    obtain ⟨s, hk, s', hs, rfl⟩ := h
    exact .session k env e s s' hk hne hs

/-- The session `k` of a server has the store of the server. -/
theorem store_of_session {sv : Server} {k : Nat} {s : Session} (h : sv.session k = some s) :
    s.m_fs_objects_table = sv.m_fs_objects_table := by
  simp only [session, Option.map_eq_some_iff] at h
  obtain ⟨t, -, rfl⟩ := h
  rfl

/-- A law of the sessions that does not look at the store is one of the session `k`. -/
theorem law_of_session {P : Session → Prop}
    (hP : ∀ s store, P s → P { s with m_fs_objects_table := store }) {sv : Server}
    (h : ∀ s ∈ sv.sessions, P s) {k : Nat} {s : Session} (hk : sv.session k = some s) : P s := by
  simp only [session, Option.map_eq_some_iff] at hk
  obtain ⟨t, ht, rfl⟩ := hk
  exact hP t _ (h t (List.mem_of_getElem? ht))

theorem law_of_put {P : Session → Prop} {sv : Server} (h : ∀ s ∈ sv.sessions, P s) (k : Nat)
    {s : Session} (hs : P s) : ∀ t ∈ (sv.put k s).sessions, P t := by
  intro t ht
  rcases List.mem_or_eq_of_mem_set ht with ht | rfl
  · exact h t ht
  · exact hs

/-- What an event does to the table of the server: it makes its call, if it has one. -/
theorem table_of_step {sv sv' : Server} {e : ServerEvent} (h : sv.step e = some sv') :
    sv'.m_fs_objects_table.table = (applied sv.m_fs_objects_table (sv.callOf e)).table := by
  cases step_served h with
  | connected => rfl
  | session k env e s s' hk he hs =>
    have ht := (step_stepped hs).2.table he
    rw [store_of_session hk] at ht
    rw [callOf, hk]
    exact ht

/-! ## The calls of a run -/

/-- The calls of the events, for as long as the server takes them. -/
def callsOf (sv : Server) : List ServerEvent → List Op
  | [] => []
  | e :: es => (sv.callOf e).toList ++ ((sv.step e).elim [] fun sv' => sv'.callsOf es)

/-- A run of the server is a history of the store: the table goes through the calls of its
events, one after the other. -/
theorem table_of_run {sv sv' : Server} {es : List ServerEvent} (h : runs.run step sv es = some sv') :
    sv'.m_fs_objects_table.table = (after sv.m_fs_objects_table (sv.callsOf es)).table := by
  induction es generalizing sv with
  | nil =>
    obtain rfl := Option.some.inj h
    rfl
  | cons e es ih =>
    simp only [runs.run, Option.bind_eq_some_iff] at h
    obtain ⟨t, ht, hrest⟩ := h
    have hcalls : sv.callsOf (e :: es) = (sv.callOf e).toList ++ t.callsOf es := by
      rw [callsOf, ht]
      rfl
    rw [ih hrest, hcalls, after_append, after_toList]
    exact after_table_congr (table_of_step ht) _

end Server

end asio_ftp.server
