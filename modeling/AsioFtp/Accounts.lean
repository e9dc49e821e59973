-- The accounts over the lifetimes of the server. Who a client is depends on its own USER and PASS and
-- on the configuration of the last start: no other client and no earlier configuration has a say, as
-- long as what is stored reads back.
import AsioFtp.Lifetimes
import AsioFtp.Login

namespace asio_ftp.accounts

open helpers main config server base_session base_session.Session lifetimes login

/-! ## The clients -/

/-- The user that a client named last, of those that there are, and whether the password of one that
it named let it in. -/
structure Who where
  user : Option Bytes
  logged_in : Bool

def Who.nobody : Who := ⟨none, false⟩

/-- What a command makes of a client, by the configured users. SQLite reads a password up to its
first NUL. -/
def Who.hear (config_users : UserMap) (w : Who) (c : Bytes × Bytes) : Who :=
  if c.1 = lit "USER" then
    if c.2 ≠ [] ∧ (config_users.find c.2).isSome then { w with user := some c.2 } else w
  else if c.1 = lit "PASS" then
    if (w.user.bind config_users.find).map c_str = some c.2 then { w with logged_in := true }
    else w
  else w

/-- The users of a table are the configured ones. -/
def Stores (t : users.Table) (config_users : UserMap) : Prop :=
  ∀ name password, (∃ r ∈ t.rows, r.name = name ∧ r.password = password) ↔
    config_users.find name = some password

/-- A session takes its client for the one that it is. -/
structure Knows (t : users.Table) (s : Session) (w : Who) : Prop where
  table : s.m_users_table = t
  logged_in : s.m_connection_stage = .LOGGED_IN ↔ w.logged_in = true
  user : ∀ name, w.user = some name → ∃ r ∈ t.rows, r.name = name ∧ s.m_userid = r.user_id.val
  nobody : w.user = none → s.m_userid = []

theorem Knows.of_same {t : users.Table} {s s' : Session} {w : Who} (h : Knows t s w)
    (htable : s'.m_users_table = s.m_users_table)
    (hstage : s'.m_connection_stage = .LOGGED_IN ↔ s.m_connection_stage = .LOGGED_IN)
    (huserid : s'.m_userid = s.m_userid) : Knows t s' w where
  table := htable.trans h.table
  logged_in := hstage.trans h.logged_in
  user := fun name hn => huserid ▸ h.user name hn
  nobody := fun hn => huserid.trans (h.nobody hn)

theorem handle_command_USER_PASS (env : Env) (s : Session) (a : Bytes) :
    s.handle_command env (lit "USER") a = s.handle_USER a ∧
      s.handle_command env (lit "PASS") a = s.handle_PASS a := by
  constructor
  · simp +decide [handle_command]
  · simp +decide [handle_command]

section
variable {t : users.Table} {config_users : UserMap} (hstores : Stores t config_users)
  {s : Session} {w : Who} (hk : Knows t s w)
include hstores hk

theorem knows_USER (a : Bytes) : Knows t (s.handle_USER a) (w.hear config_users (lit "USER", a)) := by
  obtain rfl := hk.table
  have hsame : ∀ m, Knows s.m_users_table (s.reply m) w := fun _ => hk.of_same rfl Iff.rfl rfl
  unfold handle_USER
  by_cases ha : a = []
  · rw [if_pos ha, Who.hear, if_pos rfl, if_neg (fun h => h.1 ha)]
    exact hsame _
  rw [if_neg ha]
  simp only
  by_cases hid : users.get_id_by_name s.m_users_table a = []
  · have hnone : (config_users.find a).isSome ≠ true := by
      intro hsome
      obtain ⟨password, hf⟩ := Option.isSome_iff_exists.mp hsome
      obtain ⟨r, hr, rfl, -⟩ := (hstores a password).mpr hf
      rw [users.get_id_by_name_of_mem hr] at hid
      exact r.user_id.ne_nil hid
    rw [if_pos hid, Who.hear, if_pos rfl, if_neg (fun h => hnone h.2)]
    exact hsame _
  · obtain ⟨r, hr, hname, hrid⟩ := users.exists_of_get_id_by_name hid
    have hsome : (config_users.find a).isSome = true :=
      Option.isSome_iff_exists.mpr ⟨r.password, (hstores a r.password).mp ⟨r, hr, hname, rfl⟩⟩
    rw [if_neg hid, Who.hear, if_pos rfl, if_pos ⟨ha, hsome⟩]
    refine ⟨rfl, hk.logged_in, ?_, fun h => nomatch h⟩
    rintro name ⟨⟩
    exact ⟨r, hr, hname, hrid⟩

theorem knows_PASS (a : Bytes) : Knows t (s.handle_PASS a) (w.hear config_users (lit "PASS", a)) := by
  obtain rfl := hk.table
  have hsame : ∀ m, Knows s.m_users_table (s.reply m) w := fun _ => hk.of_same rfl Iff.rfl rfl
  have hhear : w.hear config_users (lit "PASS", a) =
      if (w.user.bind config_users.find).map c_str = some a then { w with logged_in := true }
      else w := by
    have hother : lit "PASS" ≠ lit "USER" := by decide
    rw [Who.hear, if_neg hother, if_pos rfl]
  rw [hhear]
  unfold handle_PASS
  cases hw : w.user with
  | none =>
    rw [if_pos (hk.nobody hw), if_neg (by simp)]
    exact hsame _
  | some name =>
    obtain ⟨r, hr, rfl, hid⟩ := hk.user name hw
    have hf : config_users.find r.name = some r.password := (hstores _ _).mp ⟨r, hr, rfl, rfl⟩
    rw [if_neg (hid ▸ r.user_id.ne_nil), Option.bind_some, hf, Option.map_some]
    by_cases hp : users.check_password s.m_users_table s.m_userid a = true
    · obtain ⟨q, hq, hqid, hqp⟩ := users.check_password_iff.mp hp
      obtain rfl := s.m_users_table.eq_of_id hq hr (hqid.trans hid)
      rw [if_pos hp, if_pos (congrArg some hqp)]
      exact ⟨rfl, iff_of_true rfl rfl, fun name hn => hk.user name (hw.trans hn),
        fun h => nomatch h⟩
    · have hne : some (c_str r.password) ≠ some a := by
        intro he
        exact hp (users.check_password_iff.mpr ⟨r, hr, hid.symm, Option.some.inj he⟩)
      rw [if_neg hp, if_neg hne]
      exact hsame _

/-- A command makes of the session what it makes of the client. -/
theorem knows_command (env : Env) (c a : Bytes) :
    Knows t (s.handle_command env c a) (w.hear config_users (c, a)) := by
  by_cases hu : c = lit "USER"
  · subst hu
    rw [(handle_command_USER_PASS env s a).1]
    exact knows_USER hstores hk a
  by_cases hp : c = lit "PASS"
  · subst hp
    rw [(handle_command_USER_PASS env s a).2]
    exact knows_PASS hstores hk a
  have hhear : w.hear config_users (c, a) = w := by
    rw [Who.hear, if_neg hu, if_neg hp]
  obtain ⟨f, hf, messages, -, hfront⟩ := (s.handle_command_handled env c a).front
  have hsame : f.users = s.m_users_table ∧ f.stage = s.m_connection_stage ∧
      f.userid = s.m_userid := by
    cases hf with
    | same => exact ⟨rfl, rfl, rfl⟩
    | user => exact absurd rfl hu
    | pass => exact absurd rfl hp
    | moved => exact ⟨rfl, rfl, rfl⟩
  have hstage : (s.handle_command env c a).m_connection_stage = s.m_connection_stage :=
    (congrArg Front.stage hfront).trans hsame.2.1
  rw [hhear]
  exact hk.of_same ((congrArg Front.users hfront).trans hsame.1) (by rw [hstage])
    ((congrArg Front.userid hfront).trans hsame.2.2)

end

/-- An event that brings no command neither logs the client in nor out. A handshake starts the stage
over, and is never outstanding after the login. -/
theorem stage_of_no_command {env : Env} {s s' : Session} {e : Event} (hready : Ready s)
    (h : Stepped env s e s') (he : commandOf e = none) :
    s'.m_connection_stage = .LOGGED_IN ↔ s.m_connection_stage = .LOGGED_IN := by
  refine ⟨(login_of_no_command h he).2.2, fun hs => ?_⟩
  have hidle : starting s.front = 0 := by
    by_contra hne
    exact (hready.1.2 hne).2 hs
  simp only [starting, front, Nat.add_eq_zero_iff, List.length_eq_zero_iff] at hidle
  obtain ⟨⟨htimer, hprobe⟩, hhandshakes⟩ := hidle
  by_cases hc : onControl e = true
  swap
  · rcases h.front (by simpa using hc) with hf | ⟨m, hf⟩
    · exact (congrArg Front.stage hf).trans hs
    · exact (congrArg Front.stage hf).trans hs
  cases h with
  | control_sent => exact hs
  | control_received ec received =>
    have hnil : (handle_control_receive_callback ec received).1 = [] := by
      by_contra hne
      simp [commandOf, hne] at he
    rw [handle_command, if_pos hnil]
    exact hs
  | timer lap available hw => exact absurd htimer hw
  | probe_sent => exact hs
  | probe_received ec received hp => exact absurd hprobe hp
  | handshaken ec i hi => exact absurd hhandshakes (List.ne_nil_of_mem hi)
  | _ => simp [onControl] at hc

theorem knows_of_event {t : users.Table} {config_users : UserMap} (hstores : Stores t config_users)
    {env : Env} {s s' : Session} {e : Event} {w : Who} (hready : Ready s) (hk : Knows t s w)
    (h : Stepped env s e s') : Knows t s' ((commandOf e).elim w (w.hear config_users)) := by
  cases hc : commandOf e with
  | none =>
    obtain ⟨htable, huserid, -⟩ := login_of_no_command h hc
    exact hk.of_same htable (stage_of_no_command hready h hc) huserid
  | some c =>
    cases h with
    | control_received ec received =>
      have hp : handle_control_receive_callback ec received = c := by
        by_cases hnil : (handle_control_receive_callback ec received).1 = []
        · simp [commandOf, hnil] at hc
        · simpa [commandOf, hnil] using hc
      have hread : Knows t { s with control_reads := s.control_reads - 1 } w :=
        hk.of_same rfl Iff.rfl rfl
      rw [hp]
      exact knows_command hstores hread env c.1 c.2
    | _ => simp [commandOf] at hc

/-! ## The server and its clients -/

/-- The server has the configured users, and its sessions know their clients, one by one. -/
structure Attends (config_users : UserMap) (sv : Server) (clients : List Who) : Prop where
  users : Stores sv.m_users_table config_users
  clients : List.Forall₂ (Knows sv.m_users_table) sv.sessions clients

/-- What an event makes of the clients. -/
def hears (config_users : UserMap) (clients : List Who) : ServerEvent → List Who
  | .connected .. => clients ++ [Who.nobody]
  | .session k _ e => clients.modify k fun w => (commandOf e).elim w (w.hear config_users)

theorem forall₂_set_modify {α β : Type*} {R : α → β → Prop} {as : List α} {bs : List β}
    (h : List.Forall₂ R as bs) {k : Nat} {a : α} {f : β → β}
    (hk : ∀ a₀ b, as[k]? = some a₀ → R a₀ b → R a (f b)) :
    List.Forall₂ R (as.set k a) (bs.modify k f) := by
  induction h generalizing k with
  | nil => simp
  | cons hab h ih =>
    cases k with
    | zero => exact .cons (hk _ _ rfl hab) h
    | succ k => exact .cons hab (ih hk)

theorem knows_begun (session_class : SessionClass) (t : users.Table) (store : fs_objects.Store)
    (lap available : Nat) : Knows t (begun session_class t store lap available) Who.nobody := by
  have hout : CONNECTION_STAGE.UNAUTHENTICATED = .LOGGED_IN ↔ false = true := by decide
  apply begun_cases (P := fun s => Knows t s Who.nobody)
  all_goals exact ⟨rfl, hout, (fun _ h => nomatch h), fun _ => rfl⟩

theorem attends_step {config_users : UserMap} {sv sv' : Server} {clients : List Who}
    {e : ServerEvent} (h : Attends config_users sv clients) (hready : ∀ s ∈ sv.sessions, Ready s)
    (hs : sv.step e = some sv') :
    Attends config_users sv' (hears config_users clients e) ∧ ∀ s ∈ sv'.sessions, Ready s := by
  cases Server.step_served hs with
  | connected lap available =>
    refine ⟨⟨h.users, List.rel_append h.clients (.cons (knows_begun ..) .nil)⟩, ?_⟩
    intro s hmem
    rcases List.mem_append.mp hmem with hmem | hmem
    · exact hready s hmem
    · obtain rfl := List.mem_singleton.mp hmem
      exact (sound_begun ..).1
  | session k env e s s' hk he hstep =>
    have hr : Ready s := Server.law_of_session (P := Ready) (fun _ _ h => h) hready hk
    refine ⟨⟨h.users, forall₂_set_modify h.clients ?_⟩,
      Server.law_of_put hready k (ready_step hr hstep)⟩
    intro s₀ w hs₀ hknows
    simp only [Server.session, hs₀, Option.map_some, Option.some.injEq] at hk
    subst hk
    exact knows_of_event h.users hr (hknows.of_same rfl Iff.rfl rfl) (step_stepped hstep).2

/-! ## The lifetimes -/

/-- The configuration of the last start, and the clients of the server since then. -/
structure Desk where
  config_users : UserMap
  clients : List Who

def Desk.new : Desk := ⟨.empty, []⟩

def Desk.follow (d : Desk) : Change → Desk
  | .start _ file =>
    match read_json_config file with
    | .error _ => d
    | .ok cfg => ⟨cfg.users, []⟩
  | .serve e => { d with clients := hears d.config_users d.clients e }
  | .stop => d

/-- The new users of a start get new ids. -/
def StartsFresh (m : Machine) : Change → Prop
  | .start uuid file =>
    ∀ cfg, read_json_config file = .ok cfg → main.Fresh uuid (usersOf m.disk) cfg.users
  | _ => True

open Classical in
/-- A change of the machine, next to its clients. -/
noncomputable def attended (x : Machine × Desk) (c : Change) : Option (Machine × Desk) :=
  if StartsFresh x.1 c then (step x.1 c).map fun m => (m, x.2.follow c) else none

/-- The server that runs attends its clients. -/
def Attended (_ : Machine × Desk) (_ : Change) (x' : Machine × Desk) : Prop :=
  ∀ sv ∈ x'.1.server, Attends x'.2.config_users sv x'.2.clients

/-- A start that finds its users stored, as they read back, finds them as they are. -/
def ReadsBack (x : Machine × Desk) (c : Change) (_ : Machine × Desk) : Prop :=
  ∀ uuid file cfg, c = .start uuid file → read_json_config file = .ok cfg →
    ConfiguredAsRead (usersOf x.1.disk) cfg.users → Configured (usersOf x.1.disk) cfg.users

/-- After a start, the users are the configured ones if and only if what is stored reads back. -/
theorem stores_iff_of_main {uuid : Bytes → Uuid} {cfg : parsed_config} {d d' : Disk}
    (hfresh : Fresh uuid (usersOf d) cfg.users) (h : main uuid cfg d = some d') :
    Stores (usersOf d') cfg.users ↔
      (ConfiguredAsRead (usersOf d) cfg.users → Configured (usersOf d) cfg.users) := by
  have husers : usersOf d.init_sql_db = usersOf d := by
    rw [usersOf, storage_init_sql_db, usersOf]
  rw [← husers] at hfresh ⊢
  unfold main at h
  rw [Option.map_eq_some_iff] at h
  obtain ⟨d₂, h, rfl⟩ := h
  rw [(init_fs_objects_table_spec d₂).1]
  by_cases hread : ConfiguredAsRead (usersOf d.init_sql_db) cfg.users
  · obtain ⟨d₃, hd₃, hstored, -⟩ := @init_user_table_unchanged uuid _ _ hread
    obtain rfl := Option.some.inj (h.symm.trans hd₃)
    rw [usersOf, hstored, Option.getD_some, imp_iff_right hread]
    exact create_users_exact_iff hfresh
  · obtain ⟨d₃, i, hd₃, hstored, -⟩ := @init_user_table_changed uuid _ _ hread
    obtain rfl := Option.some.inj (h.symm.trans hd₃)
    rw [usersOf, hstored, Option.getD_some]
    have hempty : Fresh uuid users.Table.empty cfg.users :=
      ⟨fun _ _ r hr => absurd hr List.not_mem_nil, hfresh.distinct⟩
    exact iff_of_true ((create_users_exact_iff hempty).mpr fun r hr => absurd hr List.not_mem_nil)
      fun h => absurd h hread

/-- What holds between the changes. -/
def Sound (x : Machine × Desk) : Prop :=
  ∀ sv ∈ x.1.server, Attends x.2.config_users sv x.2.clients ∧ ∀ s ∈ sv.sessions, Ready s

section
variable {m m' : Machine} {d : Desk} (hx : Sound (m, d))

/-- A start has no clients yet, so all that counts is its users. -/
theorem attended_start {uuid : Bytes → Uuid} {cfg : parsed_config}
    (hfresh : Fresh uuid (usersOf m.disk) cfg.users) (h : m.start uuid cfg = some m') :
    ((∀ sv ∈ m'.server, Attends cfg.users sv []) ↔ (ConfiguredAsRead (usersOf m.disk) cfg.users →
      Configured (usersOf m.disk) cfg.users)) ∧ ∀ sv ∈ m'.server, sv.sessions = [] := by
  simp only [Machine.start, Option.map_eq_some_iff] at h
  obtain ⟨disk, hdisk, rfl⟩ := h
  rw [← stores_iff_of_main hfresh hdisk]
  simp only [Option.mem_def, Option.some.injEq, forall_eq', and_true]
  exact ⟨fun h => h.users, fun h => ⟨h, .nil⟩⟩

include hx

theorem sound_serve {e : ServerEvent} (h : step m (.serve e) = some m') :
    Sound (m', d.follow (.serve e)) := by
  simp only [lifetimes.step, Option.bind_eq_some_iff, Option.map_eq_some_iff] at h
  obtain ⟨sv, hsv, sv', hs, rfl⟩ := h
  obtain ⟨hattends, hready⟩ := hx sv hsv
  rintro _ ⟨⟩
  exact attends_step hattends hready hs

end

theorem attended_iff {x x' : Machine × Desk} {c : Change} (hx : Sound x)
    (h : attended x c = some x') : (Attended x c x' ↔ ReadsBack x c x') ∧
      (ReadsBack x c x' → Sound x') := by
  obtain ⟨m, d⟩ := x
  simp only [attended, Option.ite_none_right_eq_some, Option.map_eq_some_iff] at h
  obtain ⟨hfresh, m', h, rfl⟩ := h
  cases c with
  | start uuid file =>
    simp only [lifetimes.step, Option.ite_none_left_eq_some, Bool.not_eq_true,
      Option.isSome_eq_false_iff, Option.isNone_iff_eq_none] at h
    obtain ⟨hstopped, h⟩ := h
    unfold Attended ReadsBack Desk.follow
    cases hr : read_json_config file with
    | error error =>
      simp only [hr, Option.some.injEq] at h
      subst h
      have hnone : ∀ sv, sv ∉ m.server := fun sv hsv => by simp [hstopped] at hsv
      refine ⟨iff_of_true (fun sv hsv => absurd hsv (hnone sv)) ?_,
        fun _ sv hsv => absurd hsv (hnone sv)⟩
      rintro _ _ cfg ⟨⟩ hcfg
      rw [hr] at hcfg
      cases hcfg
    | ok cfg =>
      simp only [hr] at h ⊢
      obtain ⟨hiff, hempty⟩ := attended_start (hfresh cfg hr) h
      have hreads : (∀ uuid' file' cfg', Change.start uuid file = .start uuid' file' →
          read_json_config file' = .ok cfg' → ConfiguredAsRead (usersOf m.disk) cfg'.users →
            Configured (usersOf m.disk) cfg'.users) ↔
          (ConfiguredAsRead (usersOf m.disk) cfg.users →
            Configured (usersOf m.disk) cfg.users) := by
        constructor
        · exact fun h => h uuid file cfg rfl hr
        · rintro h _ _ cfg' ⟨⟩ hcfg
          obtain rfl := Except.ok.inj (hr.symm.trans hcfg)
          exact h
      rw [hreads]
      refine ⟨hiff, fun hok sv hsv => ⟨hiff.mpr hok sv hsv, fun s hs => ?_⟩⟩
      rw [hempty sv hsv] at hs
      exact absurd hs List.not_mem_nil
  | serve e =>
    have hnext := sound_serve hx h
    refine ⟨iff_of_true (fun sv hsv => (hnext sv hsv).1) ?_, fun _ => hnext⟩
    intro _ _ _ hc
    cases hc
  | stop =>
    simp only [lifetimes.step, Option.some.injEq] at h
    subst h
    refine ⟨iff_of_true (fun sv hsv => absurd hsv (Option.not_mem_none sv)) ?_,
      fun _ sv hsv => absurd hsv (Option.not_mem_none sv)⟩
    intro _ _ _ hc
    cases hc

/-- Over any number of lifetimes, with any configurations, any events of any sessions and any stops,
and with new ids for new users: the running server has the users of its configuration, and each of
its sessions is logged in, and for the user, that the USER and PASS of its own client make by that
configuration. That is so if and only if every start that finds the stored users as they are
configured when it reads them up to a NUL finds them so as they are. -/
theorem clients_are_known_iff (changes : List Change) :
    runs.Along attended Attended (Machine.new, Desk.new) changes ↔
      runs.Along attended ReadsBack (Machine.new, Desk.new) changes := by
  refine runs.along_iff_of_invariant (J := Sound) ?_ ?_ ?_
  · exact fun x c x' hx h => (attended_iff hx h).1
  · exact fun x c x' hx h => (attended_iff hx h).2
  · exact fun sv hsv => absurd hsv (Option.not_mem_none sv)

end asio_ftp.accounts
