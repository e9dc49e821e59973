-- The laws of the login: when a session that is logged in works for the user whose password
-- its client presented.
import AsioFtp.Effects

namespace asio_ftp.login

open fs_objects base_session base_session.Session

/-! ## What the client sent -/

/-- The commands that a session handled so far, with their arguments, the newest first. -/
abbrev History := List (Bytes × Bytes)

/-- The command of an event, if it brings one. -/
def commandOf : Event → Option (Bytes × Bytes)
  | .control_received ec received =>
    if (handle_control_receive_callback ec received).1 = [] then none
    else some (handle_control_receive_callback ec received)
  | _ => none

/-- One event of a session whose commands are recorded. -/
def recorded (x : Session × History) (e : Env × Event) : Option (Session × History) :=
  (x.1.step e).map fun s' => (s', (commandOf e.2).toList ++ x.2)

/-- The name of the latest USER, refused or not, and the passwords that came after it. -/
def latest : History → Option (Bytes × List Bytes)
  | [] => none
  | (command, argument) :: h =>
    if command = lit "USER" then some (argument, [])
    else if command = lit "PASS" then (latest h).map fun l => (l.1, argument :: l.2)
    else latest h

/-- The session works for the user that the latest USER named, and a later PASS had the
password of that user. -/
def Authenticated (s : Session) (h : History) : Prop :=
  ∃ l, latest h = some l ∧ ∃ r ∈ s.m_users_table.rows,
    r.name = l.1 ∧ r.user_id.val = s.m_userid ∧ c_str r.password ∈ l.2

instance (s : Session) (h : History) : Decidable (Authenticated s h) :=
  inferInstanceAs (Decidable (∃ l, latest h = some l ∧ ∃ r ∈ s.m_users_table.rows,
    r.name = l.1 ∧ r.user_id.val = s.m_userid ∧ c_str r.password ∈ l.2))

/-- The session calls `fs_objects` for a command after the login gate, for a new data connection
or for a transfer, so in no other state. -/
def MayCall (s : Session) : Prop :=
  s.m_connection_stage = .LOGGED_IN ∨ s.accepts ≠ 0 ∨ s.data_handshakes ≠ 0 ∨ s.data_ops ≠ []

instance (s : Session) : Decidable (MayCall s) := inferInstanceAs (Decidable (_ ∨ _))

/-- No USER comes after the login, and a PASS that matches comes after a USER that named the user
of the session. -/
def LogsInOnce (x : Session × History) (e : Env × Event) (_ : Session × History) : Prop :=
  ∀ c ∈ commandOf e.2,
    (c.1 = lit "USER" → x.1.m_connection_stage ≠ .LOGGED_IN) ∧
    (c.1 = lit "PASS" → x.1.m_userid ≠ [] →
      users.check_password x.1.m_users_table x.1.m_userid c.2 = true →
      (latest x.2).map (fun l => users.get_id_by_name x.1.m_users_table l.1) = some x.1.m_userid)

/-! ## Who is busy -/

/-- Operations of the start-up of a TLS session. -/
def starting (f : Front) : Nat := f.timer_waits + f.probe_reads + f.handshakes.length

/-- The start-up does one thing at a time, before the first command and the login. -/
def StartsFirst (f : Front) : Prop :=
  starting f ≤ 1 ∧ (starting f ≠ 0 → f.reads = 0 ∧ f.stage ≠ .LOGGED_IN)

def Busy (s : Session) : Prop := s.accepts ≠ 0 ∨ s.data_handshakes ≠ 0 ∨ s.data_ops ≠ []

theorem not_busy {s : Session} (h1 : s.accepts = 0) (h2 : s.data_handshakes = 0)
    (h3 : s.data_ops = []) : ¬ Busy s := by simp [Busy, h1, h2, h3]

/-- Only a session that is logged in has work on the data channel. -/
def Ready (s : Session) : Prop :=
  StartsFirst s.front ∧ (Busy s → s.m_connection_stage = .LOGGED_IN)

theorem mayCall_iff {s : Session} (h : Ready s) :
    MayCall s ↔ s.m_connection_stage = .LOGGED_IN :=
  ⟨fun hm => hm.elim id h.2, Or.inl⟩

/-- A session before the login starts no work on the data channel. -/
theorem handled_before_login {env : Env} {s t : Session} {c a : Bytes}
    (h : Handled env s c a t) (hs : s.m_connection_stage ≠ .LOGGED_IN) : Busy t ↔ Busy s := by
  cases h <;> first | exact Iff.rfl | exact absurd ‹_› hs

/-- What a command leaves of the stage and the user. -/
theorem entered_stage {s : Session} {c a : Bytes} {f : Front} (h : Entered s c a f)
    (hs : s.m_connection_stage = .LOGGED_IN) : f.stage = .LOGGED_IN := by
  cases h with
  | pass => rfl
  | _ => exact hs

theorem ready_handle_command (env : Env) {s : Session} (c a : Bytes) (hz : starting s.front = 0)
    (h : Busy s → s.m_connection_stage = .LOGGED_IN) : Ready (s.handle_command env c a) := by
  have hh := s.handle_command_handled env c a
  have hc := counts_handle_command env s c a
  have hz' : starting (s.handle_command env c a).front = 0 := by
    unfold starting at hz ⊢
    rw [hc.timer_waits, hc.probe_reads, hc.handshakes]
    exact hz
  refine ⟨⟨by omega, fun hne => absurd hz' hne⟩, fun hb => ?_⟩
  obtain ⟨f, hf, messages, -, ht⟩ := hh.front
  by_cases hs : s.m_connection_stage = .LOGGED_IN
  · have hf' := entered_stage hf hs
    exact (congrArg Front.stage ht).trans hf'
  · exact absurd (h ((handled_before_login hh hs).mp hb)) hs

/-- A handler of the data channel keeps the front up to a reply, and comes after the login. -/
theorem ready_of_front {s t : Session} (h : StartsFirst s.front)
    (hl : s.m_connection_stage = .LOGGED_IN) (hf : t.front = s.front ∨ ∃ m, t.front = s.front.say m) :
    Ready t := by
  rcases hf with hf | ⟨m, hf⟩
  · exact ⟨hf ▸ h, fun _ => (congrArg Front.stage hf).trans hl⟩
  · exact ⟨hf ▸ h, fun _ => (congrArg Front.stage hf).trans hl⟩

/-- A session that is still starting stays ready, when no more starts than before. -/
theorem ready_of_starting {s t : Session} (h : Ready s) (hpos : starting s.front ≠ 0)
    (hle : starting t.front ≤ starting s.front) (hr : t.control_reads = s.control_reads)
    (hs : t.m_connection_stage = s.m_connection_stage) (hb : Busy t → Busy s) : Ready t := by
  obtain ⟨hreads, hstage⟩ := h.1.2 hpos
  exact ⟨⟨hle.trans h.1.1, fun _ => ⟨hr.trans hreads, fun hin => hstage (hs.symm.trans hin)⟩⟩,
    fun hbusy => absurd (h.2 (hb hbusy)) hstage⟩

theorem ready_step {s s' : Session} {e : Env × Event} (h : Ready s) (hstep : s.step e = some s') :
    Ready s' := by
  obtain ⟨env, e⟩ := e
  obtain ⟨-, hst⟩ := step_stepped hstep
  have hfront := hst.front
  cases hst with
  | control_sent ec => exact h
  | control_received ec received hr =>
    refine ready_handle_command env _ _ ?_ h.2
    by_contra hne
    exact hr (h.1.2 hne).1
  | accepted ec ha => exact ready_of_front h.1 (h.2 (Or.inl ha)) (hfront rfl)
  | data_handshaken ec hd => exact ready_of_front h.1 (h.2 (Or.inr (Or.inl hd))) (hfront rfl)
  | data_sent c ec ho =>
    exact ready_of_front h.1 (h.2 (Or.inr (Or.inr (List.ne_nil_of_mem ho)))) (hfront rfl)
  | data_received c ec received ho =>
    exact ready_of_front h.1 (h.2 (Or.inr (Or.inr (List.ne_nil_of_mem ho)))) (hfront rfl)
  | data_async_sent c ec ho =>
    exact ready_of_front h.1 (h.2 (Or.inr (Or.inr (List.ne_nil_of_mem ho)))) (hfront rfl)
  | data_shutdown => exact h
  | timer lap available hw =>
    have hpos : starting s.front ≠ 0 := by simp only [starting, front]; omega
    unfold wait_for_implicit
    split
    · exact ready_of_starting h hpos
        (by simp only [starting, front, probe_send, probe_receive]; omega) rfl rfl id
    · split
      · refine ready_of_starting h hpos ?_ rfl rfl id
        simp only [starting, front, start_secure, List.length_append, List.length_cons,
          List.length_nil]
        omega
      · exact ready_of_starting h hpos (by simp only [starting, front]; omega) rfl rfl id
  | probe_sent ec => exact h
  | probe_received ec received hp =>
    have hpos : starting s.front ≠ 0 := by simp only [starting, front]; omega
    unfold handle_auth
    split
    · exact ready_of_starting h hpos
        (by simp only [starting, front, probe_send, probe_receive]; omega) rfl rfl id
    · split
      · exact ready_of_starting h hpos
          (by simp only [starting, front, probe_send, probe_receive]; omega) rfl rfl id
      · refine ready_of_starting h hpos ?_ rfl rfl id
        simp only [starting, front, start_secure, probe_send, List.length_append,
          List.length_cons, List.length_nil]
        omega
  | handshaken ec i hi =>
    have hl := List.length_erase_of_mem hi
    have hlen := List.length_pos_of_mem hi
    have hpos : starting s.front ≠ 0 := by simp only [starting, front]; omega
    have hone : starting s.front ≤ 1 := h.1.1
    simp only [starting, front] at hone
    unfold handle_handshake
    split
    · exact ready_of_starting h hpos (by simp only [starting, front]; omega) rfl rfl id
    · have hz : s.timer_waits + s.probe_reads + (s.control_handshakes.erase i).length = 0 := by
        omega
      have hb : ¬ Busy s := fun hb => (h.1.2 hpos).2 (h.2 hb)
      cases i
      · exact ⟨⟨hz.trans_le (Nat.zero_le 1), fun hne => absurd hz hne⟩, fun h => absurd h hb⟩
      · exact ⟨⟨hz.trans_le (Nat.zero_le 1), fun hne => absurd hz hne⟩, fun h => absurd h hb⟩
  | elsewhere store => exact h

/-! ## Nothing is called before the login -/

theorem handle_command_of_store (env : Env) (s : Session) (c a : Bytes) (store : Store)
    (h : s.m_connection_stage ≠ .LOGGED_IN) :
    { s with m_fs_objects_table := store }.handle_command env c a =
      { s.handle_command env c a with m_fs_objects_table := store } := by
  unfold handle_command handle_USER handle_PASS
  simp only
  split
  · rfl
  split
  · rfl
  split
  · split
    · rfl
    · split <;> rfl
  split
  · split
    · rfl
    · split <;> rfl
  split
  · rfl
  split
  · rfl
  · rfl

/-- A session that may not call `fs_objects` makes no call: what it does neither depends on the
store nor changes it. -/
theorem nothing_is_called_before_the_login {s s' : Session} {env : Env} {e : Event}
    (hm : ¬ MayCall s) (h : s.step (env, e) = some s') (he : ∀ store, e ≠ .elsewhere store)
    (store : Store) : { s with m_fs_objects_table := store }.step (env, e) =
      some { s' with m_fs_objects_table := store } := by
  simp only [MayCall, not_or, not_not] at hm
  obtain ⟨hs, ha, hd, ho⟩ := hm
  cases e with
  | control_received ec received =>
    simp only [step, Option.ite_none_left_eq_some, Option.some.injEq] at h ⊢
    refine ⟨h.1, h.2.1, ?_⟩
    rw [← h.2.2]
    exact handle_command_of_store env { s with control_reads := s.control_reads - 1 } _ _ store hs
  | control_sent ec =>
    simp only [step, Option.ite_none_left_eq_some, Option.some.injEq] at h ⊢
    exact ⟨h.1, h.2.1, h.2.2 ▸ rfl⟩
  | accepted ec => simp [step, ha] at h
  | data_handshaken ec => simp [step, hd] at h
  | data_sent c ec => simp [step, finish, ho] at h
  | data_received c ec received => simp [step, finish, ho] at h
  | data_async_sent c ec => simp [step, finish, ho] at h
  | data_shutdown =>
    simp only [step, Option.ite_none_left_eq_some, Option.some.injEq] at h ⊢
    exact ⟨h.1, h.2.1, h.2.2 ▸ rfl⟩
  | timer lap available =>
    simp only [step, Option.ite_none_left_eq_some, Option.some.injEq] at h ⊢
    refine ⟨h.1, h.2.1, ?_⟩
    rw [← h.2.2]
    unfold wait_for_implicit
    split
    · rfl
    · split <;> rfl
  | probe_sent ec =>
    simp only [step, Option.ite_none_left_eq_some, Option.some.injEq] at h ⊢
    exact ⟨h.1, h.2.1, h.2.2 ▸ rfl⟩
  | probe_received ec received =>
    simp only [step, Option.ite_none_left_eq_some, Option.some.injEq] at h ⊢
    refine ⟨h.1, h.2.1, ?_⟩
    rw [← h.2.2]
    unfold handle_auth
    split
    · rfl
    · split <;> rfl
  | handshaken ec i =>
    simp only [step, Option.ite_none_left_eq_some, Option.ite_none_right_eq_some,
      Option.some.injEq] at h ⊢
    refine ⟨h.1, h.2.1, ?_⟩
    rw [← h.2.2]
    unfold handle_handshake
    split
    · rfl
    · cases i <;> rfl
  | elsewhere st => exact absurd rfl (he st)

/-! ## Who is logged in -/

/-- An event that brings no command changes neither the users nor the user, and logs nobody
in. -/
theorem login_of_no_command {env : Env} {s s' : Session} {e : Event} (h : Stepped env s e s')
    (he : commandOf e = none) : s'.m_users_table = s.m_users_table ∧ s'.m_userid = s.m_userid ∧
      (s'.m_connection_stage = .LOGGED_IN → s.m_connection_stage = .LOGGED_IN) := by
  by_cases hup : startsUp e = true
  · obtain ⟨heq, hstage⟩ := h.startup hup
    exact ⟨by rw [heq], by rw [heq], hstage⟩
  by_cases hc : onControl e = true
  · cases h with
    | control_sent => exact ⟨rfl, rfl, id⟩
    | control_received ec received =>
      have hnil : (handle_control_receive_callback ec received).1 = [] := by
        by_contra hne
        simp [commandOf, hne] at he
      unfold handle_command
      rw [if_pos hnil]
      exact ⟨rfl, rfl, id⟩
    | timer => exact absurd rfl hup
    | probe_sent => exact ⟨rfl, rfl, id⟩
    | probe_received => exact absurd rfl hup
    | handshaken => exact absurd rfl hup
    | _ => simp [onControl] at hc
  · rcases h.front (by simpa using hc) with hf | ⟨m, hf⟩
    · exact ⟨congrArg Front.users hf, congrArg Front.userid hf,
        fun h => (congrArg Front.stage hf).symm.trans h⟩
    · exact ⟨congrArg Front.users hf, congrArg Front.userid hf,
        fun h => (congrArg Front.stage hf).symm.trans h⟩

theorem authenticated_of_login {s s' : Session} {h : History}
    (hu : s'.m_users_table = s.m_users_table) (hid : s'.m_userid = s.m_userid)
    (ha : Authenticated s h) : Authenticated s' h := by
  unfold Authenticated at ha ⊢
  rw [hu, hid]
  exact ha

/-- A PASS that matches authenticates the session if and only if the latest USER named its
user. -/
theorem authenticated_pass_iff {s : Session} {h : History} {a : Bytes} (hne : s.m_userid ≠ [])
    (hp : users.check_password s.m_users_table s.m_userid a = true) :
    Authenticated s ((lit "PASS", a) :: h) ↔
      (latest h).map (fun l => users.get_id_by_name s.m_users_table l.1) = some s.m_userid := by
  have hl : latest ((lit "PASS", a) :: h) = (latest h).map fun l => (l.1, a :: l.2) := by
    rw [latest, if_neg (by decide), if_pos rfl]
  obtain ⟨r, hr, hid, hpw⟩ := users.check_password_iff.mp hp
  unfold Authenticated
  rw [hl]
  cases latest h with
  | none => simp
  | some l =>
    simp only [Option.map_some, Option.some.injEq, exists_eq_left']
    constructor
    · rintro ⟨q, hq, hn, hqid, -⟩
      rw [← hn, users.get_id_by_name_of_mem hq, hqid]
    · intro hg
      obtain ⟨q, hq, hn, hqid⟩ := users.exists_of_get_id_by_name (hg ▸ hne)
      have hqr : q = r := s.m_users_table.eq_of_id hq hr (by rw [← hqid, hg, hid])
      exact ⟨r, hr, hqr ▸ hn, hid, by simp [hpw]⟩

theorem not_authenticated_after_USER (s : Session) (h : History) (a : Bytes) :
    ¬ Authenticated s ((lit "USER", a) :: h) := by
  rintro ⟨l, hl, r, -, -, -, hp⟩
  rw [latest, if_pos rfl] at hl
  obtain rfl := Option.some.inj hl
  simp at hp

theorem authenticated_after_PASS {s : Session} {h : History} (a : Bytes) (ha : Authenticated s h) :
    Authenticated s ((lit "PASS", a) :: h) := by
  obtain ⟨l, hl, r, hr, hn, hid, hp⟩ := ha
  refine ⟨(l.1, a :: l.2), ?_, r, hr, hn, hid, List.mem_cons_of_mem _ hp⟩
  rw [latest, if_neg (by decide), if_pos rfl, hl]
  rfl

theorem authenticated_after_other {s : Session} {h : History} {c : Bytes} (a : Bytes)
    (hu : c ≠ lit "USER") (hp : c ≠ lit "PASS") :
    Authenticated s ((c, a) :: h) ↔ Authenticated s h := by
  unfold Authenticated
  rw [latest, if_neg hu, if_neg hp]

/-- A command keeps the law of the login if and only if the client may send it then. -/
theorem authenticated_of_command {s t : Session} {env : Env} {h : History} {c a : Bytes}
    (hh : Handled env s c a t)
    (ha : s.m_connection_stage = .LOGGED_IN → Authenticated s h) :
    (t.m_connection_stage = .LOGGED_IN → Authenticated t ((c, a) :: h)) ↔
      (c = lit "USER" → s.m_connection_stage ≠ .LOGGED_IN) ∧
      (c = lit "PASS" → s.m_userid ≠ [] →
        users.check_password s.m_users_table s.m_userid a = true →
        (latest h).map (fun l => users.get_id_by_name s.m_users_table l.1) = some s.m_userid) := by
  obtain ⟨f, hf, messages, -, ht⟩ := hh.front
  have hstage : t.m_connection_stage = f.stage := congrArg Front.stage ht
  have husers : t.m_users_table = f.users := congrArg Front.users ht
  have huserid : t.m_userid = f.userid := congrArg Front.userid ht
  rw [hstage]
  cases hf with
  | same _ _ hpass =>
    have keep : Authenticated s ((c, a) :: h) → Authenticated t ((c, a) :: h) :=
      authenticated_of_login husers huserid
    by_cases hu : c = lit "USER"
    · subst hu
      constructor
      · intro hq
        exact ⟨fun _ hs => not_authenticated_after_USER t h a (hq hs), fun hc => absurd hc (by decide)⟩
      · intro hq hs
        exact absurd hs (hq.1 rfl)
    · refine iff_of_true (fun hs => keep ?_) ⟨fun hc => absurd hc hu, fun hc hne hp => ?_⟩
      · by_cases hp : c = lit "PASS"
        · subst hp
          exact authenticated_after_PASS a (ha hs)
        · exact (authenticated_after_other a hu hp).mpr (ha hs)
      · rcases hpass hc with h1 | h1
        · exact absurd h1 hne
        · rw [h1] at hp
          exact nomatch hp
  | user _ hid =>
    constructor
    · intro hq
      exact ⟨fun _ hs => not_authenticated_after_USER t h a (hq hs), fun hc => absurd hc (by decide)⟩
    · intro hq hs
      exact absurd hs (hq.1 rfl)
  | pass _ hne hp =>
    have hiff := authenticated_pass_iff (h := h) hne hp
    constructor
    · intro hq
      refine ⟨fun hc => absurd hc (by decide), fun _ _ _ => hiff.mp ?_⟩
      exact authenticated_of_login husers.symm huserid.symm (hq rfl)
    · intro hq _
      exact authenticated_of_login husers huserid (hiff.mpr (hq.2 rfl hne hp))
  | moved _ _ w hs hc _ =>
    have hother : c ≠ lit "USER" ∧ c ≠ lit "PASS" := by
      have : ∀ d ∈ [lit "CDUP", lit "CWD"], d ≠ lit "USER" ∧ d ≠ lit "PASS" := by decide
      exact this c hc
    refine iff_of_true (fun _ => ?_)
      ⟨fun hc => absurd hc hother.1, fun hc => absurd hc hother.2⟩
    rw [authenticated_after_other a hother.1 hother.2]
    exact authenticated_of_login husers huserid (ha hs)

/-- What holds between the events: the session is ready, and authenticated once logged in. -/
def Sound (x : Session × History) : Prop :=
  Ready x.1 ∧ (x.1.m_connection_stage = .LOGGED_IN → Authenticated x.1 x.2)

theorem recorded_step {x x' : Session × History} {e : Env × Event} (hx : Sound x)
    (h : recorded x e = some x') : Ready x'.1 ∧
      ((x'.1.m_connection_stage = .LOGGED_IN → Authenticated x'.1 x'.2) ↔ LogsInOnce x e x') := by
  obtain ⟨s, h0⟩ := x
  obtain ⟨env, e⟩ := e
  simp only [recorded, Option.map_eq_some_iff] at h
  obtain ⟨s', hs, rfl⟩ := h
  obtain ⟨hr, ha⟩ := hx
  refine ⟨ready_step hr hs, ?_⟩
  obtain ⟨-, hst⟩ := step_stepped hs
  unfold LogsInOnce
  cases hc : commandOf e with
  | none =>
    obtain ⟨hu, hid, hl⟩ := login_of_no_command hst hc
    simp only [Option.toList_none, List.nil_append, Option.mem_def, reduceCtorEq,
      false_imp_iff, implies_true, iff_true]
    exact fun h => authenticated_of_login hu hid (ha (hl h))
  | some p =>
    simp only [Option.toList_some, List.cons_append, List.nil_append, Option.mem_def,
      Option.some.injEq, forall_eq']
    cases hst with
    | control_received ec received =>
      have hp : handle_control_receive_callback ec received = p := by
        by_cases hnil : (handle_control_receive_callback ec received).1 = []
        · simp [commandOf, hnil] at hc
        · simpa [commandOf, hnil] using hc
      rw [hp]
      have hh := { s with control_reads := s.control_reads - 1 }.handle_command_handled env p.1 p.2
      have hiff := authenticated_of_command (h := h0) hh ha
      exact hiff
    | _ => simp [commandOf] at hc

theorem sound_begun (session_class : SessionClass) (users : users.Table) (store : Store)
    (lap available : Nat) : Sound (begun session_class users store lap available, []) := by
  have hidle : ∀ f : Front, starting f ≤ 1 → f.reads = 0 → f.stage = .UNAUTHENTICATED →
      StartsFirst f := fun f h1 h2 h3 => ⟨h1, fun _ => ⟨h2, by simp [h3]⟩⟩
  have hout : CONNECTION_STAGE.UNAUTHENTICATED ≠ .LOGGED_IN := by decide
  apply begun_cases (P := fun s => Sound (s, []))
  case plain =>
    exact ⟨⟨⟨Nat.zero_le 1, fun h => absurd rfl h⟩, fun h => absurd h (not_busy rfl rfl rfl)⟩,
      fun h => absurd h hout⟩
  all_goals
    exact ⟨⟨hidle _ (le_refl 1) rfl rfl, fun h => absurd h (not_busy rfl rfl rfl)⟩,
      fun h => absurd h hout⟩

/-- In a run of any session, whenever the session may call `fs_objects` it works for the user
that the latest USER named and whose password came after it, if and only if the client logs in
once and for the user that it named last. -/
theorem every_call_is_for_an_authenticated_user_iff_the_client_logs_in_once
    (session_class : SessionClass) (users : users.Table) (store : Store) (lap available : Nat)
    (es : List (Env × Event)) :
    runs.Along recorded (fun _ _ x' => MayCall x'.1 → Authenticated x'.1 x'.2)
        (begun session_class users store lap available, []) es ↔
      runs.Along recorded LogsInOnce (begun session_class users store lap available, []) es := by
  refine runs.along_iff_of_invariant (J := Sound) ?_ ?_ (sound_begun ..)
  · intro x e x' hx h
    obtain ⟨hr, hiff⟩ := recorded_step hx h
    rw [mayCall_iff hr]
    exact hiff
  · intro x e x' hx h hok
    obtain ⟨hr, hiff⟩ := recorded_step hx h
    exact ⟨hr, hiff.mpr hok⟩

/-- A USER after the login: the session works for "bob", and nobody presented his password. -/
theorem a_second_USER_changes_the_user : ¬ runs.Along recorded
    (fun _ _ x' => MayCall x'.1 → Authenticated x'.1 x'.2)
    (begun .session users.Table.annAndBob Store.empty 0 0, [])
    [clientLine "USER ann", clientLine "PASS pw1", clientLine "USER bob"] := by
  decide

end asio_ftp.login
