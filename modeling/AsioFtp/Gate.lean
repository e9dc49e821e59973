-- The laws of the login gate: a client that never logs in reaches neither the objects nor the
-- data channel, and learns nothing of the objects from the replies.
import AsioFtp.Login

namespace asio_ftp.gate

open fs_objects base_session base_session.Session login

/-! ## Before the login -/

/-- A PASS of the event does not match the password of the user. -/
def PassFails (s : Session) (e : Env × Event) (_ : Session) : Prop :=
  ∀ c ∈ commandOf e.2, c.1 = lit "PASS" →
    s.m_userid = [] ∨ users.check_password s.m_users_table s.m_userid c.2 = false

instance (s : Session) (e : Env × Event) (s' : Session) : Decidable (PassFails s e s') :=
  inferInstanceAs (Decidable (∀ c ∈ commandOf e.2, _))

/-- The session has nothing pending and nothing outstanding on the data channel, and is in the
root. -/
structure Untouched (s : Session) : Prop where
  stage : s.m_connection_stage ≠ .LOGGED_IN
  accepts : s.accepts = 0
  data_handshakes : s.data_handshakes = 0
  data_ops : s.data_ops = []
  directory_list : s.m_pending_directory_list = []
  write_file : s.m_pending_write_file = []
  sendable_file : s.m_sendable_file_id = []
  working_directory : s.m_working_directory = [slash]

theorem untouched_begun (session_class : SessionClass) (users : users.Table) (store : Store)
    (lap available : Nat) : Untouched (begun session_class users store lap available) := by
  have hstage : CONNECTION_STAGE.UNAUTHENTICATED ≠ .LOGGED_IN := by decide
  apply begun_cases
  all_goals exact ⟨hstage, rfl, rfl, rfl, rfl, rfl, rfl, rfl⟩

theorem not_mayCall {s : Session} (h : Untouched s) : ¬ MayCall s := by
  rintro (hs | ha | hd | ho)
  · exact h.stage hs
  · exact ha h.accepts
  · exact hd h.data_handshakes
  · exact ho h.data_ops

/-- A command of a client that does not log in changes nothing but the replies and the name. -/
theorem untouched_handled {s t : Session} {env : Env} {c a : Bytes} (h : Untouched s)
    (hh : Handled env s c a t)
    (hpass : c = lit "PASS" →
      s.m_userid = [] ∨ users.check_password s.m_users_table s.m_userid a = false) :
    Untouched t ∧ t.m_users_table = s.m_users_table := by
  obtain ⟨hs, ha, hd, ho, hl, hw, hf, hp⟩ := h
  cases hh with
  | pass_accepted _ hne hok =>
    rcases hpass rfl with h1 | h1
    · exact absurd h1 hne
    · rw [h1] at hok
      exact nomatch hok
  | _ => first | exact ⟨⟨hs, ha, hd, ho, hl, hw, hf, hp⟩, rfl⟩ | exact absurd ‹_› hs

theorem untouched_step {s s' : Session} {env : Env} {e : Event} (h : Untouched s)
    (hpass : PassFails s (env, e) s') (hs : Stepped env s e s') :
    Untouched s' ∧ s'.m_users_table = s.m_users_table := by
  have hh := h
  obtain ⟨hst, ha, hd, ho, hl, hw, hf, hp⟩ := hh
  by_cases hup : startsUp e = true
  · obtain ⟨heq, hstage⟩ := hs.startup hup
    have hout := fun hin => hst (hstage hin)
    rw [heq]
    exact ⟨⟨hout, ha, hd, ho, hl, hw, hf, hp⟩, rfl⟩
  cases hs with
  | control_received ec received =>
    refine untouched_handled (s := { s with control_reads := s.control_reads - 1 })
      ⟨hst, ha, hd, ho, hl, hw, hf, hp⟩ (handle_command_handled env _ _ _) (fun hc => ?_)
    refine hpass _ ?_ hc
    have hne : (handle_control_receive_callback ec received).1 ≠ [] := by
      rw [hc]
      decide
    simp [commandOf, hne]
  | accepted ec hg => exact absurd ha hg
  | data_handshaken ec hg => exact absurd hd hg
  | data_sent c ec hg => simp [ho] at hg
  | data_received c ec received hg => simp [ho] at hg
  | data_async_sent c ec hg => simp [ho] at hg
  | timer => exact absurd rfl hup
  | probe_received => exact absurd rfl hup
  | handshaken => exact absurd rfl hup
  | _ => exact ⟨⟨hst, ha, hd, ho, hl, hw, hf, hp⟩, rfl⟩

/-! ## Two runs -/

/-- The same session over another store. -/
def withStore (store : Store) (s : Session) : Session := { s with m_fs_objects_table := store }

/-- An event of this session, and not of another one of the server. -/
def OfThisSession (e : Env × Event) : Prop := ∀ store, e.2 ≠ .elsewhere store

/-- One event, over two stores. -/
theorem step_over {s : Session} {e : Env × Event} (h : Untouched s) (he : OfThisSession e)
    (store : Store) : (withStore store s).step e = (s.step e).map (withStore store) := by
  obtain ⟨env, e⟩ := e
  cases hs : s.step (env, e) with
  | some s' => exact nothing_is_called_before_the_login (not_mayCall h) hs he store
  | none =>
    cases ht : (withStore store s).step (env, e) with
    | none => rfl
    | some t =>
      have hback := nothing_is_called_before_the_login (s := withStore store s)
        (not_mayCall ⟨h.stage, h.accepts, h.data_handshakes, h.data_ops, h.directory_list,
          h.write_file, h.sendable_file, h.working_directory⟩) ht he s.m_fs_objects_table
      change s.step (env, e) = _ at hback
      rw [hs] at hback
      exact nomatch hback

theorem store_step {s s' : Session} {e : Env × Event} (h : Untouched s) (he : OfThisSession e)
    (hs : s.step e = some s') : s'.m_fs_objects_table = s.m_fs_objects_table := by
  have hsame : some s' = some (withStore s.m_fs_objects_table s') := by
    calc some s' = s.step e := hs.symm
      _ = (s.step e).map (withStore s.m_fs_objects_table) := step_over h he s.m_fs_objects_table
      _ = some (withStore s.m_fs_objects_table s') := by rw [hs]; rfl
  have heq : s' = withStore s.m_fs_objects_table s' := Option.some.inj hsame
  rw [heq]
  rfl

theorem run_over {es : List (Env × Event)} (hes : ∀ e ∈ es, OfThisSession e) {s : Session}
    (h : Untouched s) (hpass : runs.Along step PassFails s es) (store : Store) :
    runs.run step (withStore store s) es = (runs.run step s es).map (withStore store) ∧
      ∀ s' ∈ runs.run step s es, Untouched s' ∧ s'.m_users_table = s.m_users_table ∧
        s'.m_fs_objects_table = s.m_fs_objects_table := by
  induction es generalizing s with
  | nil =>
    refine ⟨rfl, ?_⟩
    rintro s' ⟨⟩
    exact ⟨h, rfl, rfl⟩
  | cons e es ih =>
    have he := hes e List.mem_cons_self
    simp only [runs.run]
    rw [step_over h he]
    cases hs : s.step e with
    | none =>
      refine ⟨rfl, ?_⟩
      rintro s' ⟨⟩
    | some t =>
      obtain ⟨hf, hrest⟩ := runs.along_cons.mp hpass t hs
      obtain ⟨ht, hu⟩ := untouched_step h hf (step_stepped hs).2
      obtain ⟨hrun, hall⟩ := ih (fun x hx => hes x (List.mem_cons_of_mem _ hx)) ht hrest
      refine ⟨hrun, ?_⟩
      intro s' hs'
      obtain ⟨h1, h2, h3⟩ := hall s' hs'
      exact ⟨h1, h2.trans hu, h3.trans (store_step h he hs)⟩

/-! ## The law -/

/-- In a run in which no PASS matches, the session does the same over every store: it sends the
same replies, leaves the users and the store as they are, never has an accept or a transfer
outstanding, and keeps the three pending fields empty and the root as its directory. -/
theorem nothing_is_reached_before_the_login (session_class : SessionClass) (users : users.Table)
    (store₁ store₂ : Store) (lap available : Nat) (es : List (Env × Event))
    (hes : ∀ e ∈ es, OfThisSession e)
    (hpass : runs.Along step PassFails (begun session_class users store₁ lap available) es) :
    runs.run step (begun session_class users store₂ lap available) es =
        (runs.run step (begun session_class users store₁ lap available) es).map (withStore store₂) ∧
      ∀ s ∈ runs.run step (begun session_class users store₁ lap available) es,
        Untouched s ∧ s.m_users_table = users ∧ s.m_fs_objects_table = store₁ := by
  have hover : begun session_class users store₂ lap available =
      withStore store₂ (begun session_class users store₁ lap available) := by
    unfold begun start_session
    cases session_class with
    | session => rfl
    | secure_session =>
      dsimp only [Session.fresh, wait_for_implicit]
      split
      · rfl
      · split <;> rfl
  have hsame : (begun session_class users store₁ lap available).m_users_table = users ∧
      (begun session_class users store₁ lap available).m_fs_objects_table = store₁ :=
    begun_cases (P := fun s => s.m_users_table = users ∧ s.m_fs_objects_table = store₁)
      session_class users store₁ lap available ⟨rfl, rfl⟩ ⟨rfl, rfl⟩ ⟨rfl, rfl⟩ ⟨rfl, rfl⟩
  obtain ⟨hrun, hall⟩ := run_over hes
    (untouched_begun session_class users store₁ lap available) hpass store₂
  rw [hover]
  refine ⟨hrun, ?_⟩
  intro s hs
  obtain ⟨h1, h2, h3⟩ := hall s hs
  exact ⟨h1, h2.trans hsame.1, h3.trans hsame.2⟩

/-- The law at a client that tries a wrong password and goes on, over the empty store and over one
with a directory of ann. -/
theorem a_wrong_password_reaches_nothing :
    let lines := [clientLine "USER ann", clientLine "PASS guess", clientLine "LIST",
      clientLine "MKD d", clientLine "STOR f"]
    let store := (create_object Store.empty (.ofRand 9) [] (helpers.Uuid.ofRand 1).val (lit "d")
      (lit "/") 0 true).1
    runs.run step (begun .session users.Table.annAndBob store 0 0) lines =
        (runs.run step (begun .session users.Table.annAndBob Store.empty 0 0) lines).map
          (withStore store) ∧
      ∀ s ∈ runs.run step (begun .session users.Table.annAndBob Store.empty 0 0) lines,
        Untouched s ∧ s.m_users_table = users.Table.annAndBob ∧
          s.m_fs_objects_table = Store.empty := by
  intro lines store
  refine nothing_is_reached_before_the_login .session users.Table.annAndBob Store.empty store 0 0
    lines ?_ (by decide)
  intro e he other
  simp only [lines, List.mem_cons, List.not_mem_nil, or_false] at he
  rcases he with rfl | rfl | rfl | rfl | rfl <;> exact fun h => nomatch h

end asio_ftp.gate
