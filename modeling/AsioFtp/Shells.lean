-- The laws of the sessions as shells. A session stands in a directory of names, and its commands
-- walk and change the tree of its user, next to what the other sessions of the server do.
import AsioFtp.FileSystem
import AsioFtp.Login
import AsioFtp.Namespace
import AsioFtp.Walks

namespace asio_ftp.shells

open helpers paths fs_objects histories tree isolation file_system filetrees walk walks addresses
open base_session base_session.Session server login

/-! ## CWD on a tree -/

/-- The names of the parts, if each part is one. -/
def namesIn : List Bytes → Option (List Name)
  | [] => some []
  | part :: parts => (toName part).bind fun n => (namesIn parts).map (n :: ·)

/-- The directory that CWD leads to from `d`. The code looks for an object at each part, and not
for a directory. -/
def goes (t : FileTree Name Int) (d : List Name) (argument : Bytes) : Option (List Name) :=
  if argument = [] then none
  else if argument = lit ".." then some d.dropLast
  else if argument = lit "/" then some []
  else
    (namesIn (components argument)).bind fun names =>
      let target := (if argument[0]? = some slash then [] else d) ++ names
      (t.node target).map fun _ => target

theorem namesIn_eq_some_iff {parts : List Bytes} {names : List Name} :
    namesIn parts = some names ↔ names.map Subtype.val = parts := by
  induction parts generalizing names with
  | nil =>
    constructor
    · rintro ⟨⟩
      rfl
    · intro h
      rw [List.map_eq_nil_iff.mp h]
      rfl
  | cons part parts ih =>
    simp only [namesIn, Option.bind_eq_some_iff, Option.map_eq_some_iff, toName_eq_some_iff, ih]
    constructor
    · rintro ⟨n, hn, rest, hrest, rfl⟩
      rw [List.map_cons, hn, hrest]
    · intro h
      cases names with
      | nil => cases h
      | cons n rest =>
        obtain ⟨hn, hrest⟩ := List.cons.inj h
        exact ⟨n, hn, rest, hrest, rfl⟩

theorem foldl_joinPath (d names : List Name) :
    (names.map Subtype.val).foldl joinPath (path d) = path (d ++ names) := by
  induction names generalizing d with
  | nil => simp
  | cons n names ih =>
    rw [List.map_cons, List.foldl_cons, ← path_snoc, ih, List.append_assoc, List.singleton_append]

theorem get_parent_path_path (d : List Name) : get_parent_path (path d) = path d.dropLast := by
  cases d using List.reverseRecOn with
  | nil => rfl
  | append_singleton e n =>
    rw [path_snoc, get_parent_path_join (canonical_path e) n.2.2, List.dropLast_concat]

section
variable {s : Session} {t : FileTree Name Int} (hf : Formed s.m_fs_objects_table.table)
  (ht : Shows (view s.m_userid s.m_fs_objects_table.table) t)
include hf ht

theorem found_path_iff (d : List Name) (part : Bytes) :
    Found s (path d) part ↔ ∃ n : Name, n.val = part ∧ t.node (d ++ [n]) ≠ none := by
  unfold Found
  rw [found_iff hf.generated, isSome_find_iff (rooted_view hf _) ht, at_ne_none_iff]
  constructor
  · rintro ⟨e, n, he, hn, h⟩
    exact ⟨n, hn, path_inj he ▸ h⟩
  · rintro ⟨n, hn, h⟩
    exact ⟨d, n, rfl, hn, h⟩

/-- The walk of CWD finds all its parts where the last one is in the tree, because above a node
there are nodes only. -/
theorem walk_path_iff (d : List Name) (parts : List Bytes) :
    Walk joinPath (Found s) (path d) parts ↔
      ∃ names, namesIn parts = some names ∧ (names = [] ∨ t.node (d ++ names) ≠ none) := by
  simp only [namesIn_eq_some_iff]
  induction parts generalizing d with
  | nil => exact ⟨fun _ => ⟨[], rfl, Or.inl rfl⟩, fun _ => trivial⟩
  | cons part parts ih =>
    rw [walk_cons, found_path_iff hf ht]
    constructor
    · rintro ⟨⟨n, rfl, hn⟩, hw⟩
      rw [← path_snoc, ih] at hw
      obtain ⟨names, rfl, hnames⟩ := hw
      refine ⟨n :: names, rfl, Or.inr ?_⟩
      rcases hnames with rfl | hnames
      · exact hn
      · rwa [List.append_assoc, List.singleton_append] at hnames
    · rintro ⟨names, hparts, hnames⟩
      cases names with
      | nil => cases hparts
      | cons n names =>
        obtain ⟨rfl, rfl⟩ := List.cons.inj hparts
        have hnode : t.node (d ++ [n] ++ names) ≠ none := by
          rw [List.append_assoc, List.singleton_append]
          exact hnames.resolve_left (List.cons_ne_nil n names)
        refine ⟨⟨n, rfl, ?_⟩, ?_⟩
        · by_cases hlast : names = []
          · rwa [hlast, List.append_nil] at hnode
          · obtain ⟨x, hx⟩ := Option.ne_none_iff_exists'.mp hnode
            rw [t.directory_above hlast hx]
            simp
        · rw [← path_snoc, ih]
          exact ⟨names, rfl, Or.inr hnode⟩

/-- CWD goes where the tree says. -/
theorem handle_CWD_goes {d : List Name} (hd : s.m_working_directory = path d) (a : Bytes) :
    s.handle_CWD a = (goes t d a).elim
      (s.reply (if a = [] then lit "501 No arguments presented."
        else lit "550 No such file or directory."))
      (fun e => { s with m_working_directory := path e }.reply
        (lit "250 Changed working directory.")) := by
  by_cases ha : a = []
  · simp only [goes, if_pos ha, Option.elim_none]
    rw [handle_CWD, if_pos ha]
  by_cases hup : a = lit ".."
  · simp only [goes, if_neg ha, if_pos hup, Option.elim_some]
    rw [handle_CWD, if_neg ha, if_pos hup, hd, get_parent_path_path]
  by_cases hroot : a = lit "/"
  · simp only [goes, if_neg ha, if_neg hup, if_pos hroot, Option.elim_some]
    rw [handle_CWD, if_neg ha, if_neg hup, if_pos hroot]
    rfl
  have hseg : ∀ dir, ∀ p ∈ components a, Found s dir p → Segment p := by
    intro dir p _ hfound
    obtain ⟨r, hr, -, hn, -⟩ := (get_object_id_ne_nil_iff hf.generated).mp hfound
    exact hn ▸ hf.segment r hr
  have horigin : origin s a = path (if a[0]? = some slash then [] else d) := by
    unfold origin
    split
    · rfl
    · exact hd
  rw [handle_CWD_eq ha hup hroot hseg, horigin]
  simp only [goes, if_neg ha, if_neg hup, if_neg hroot]
  have hwalk := walk_path_iff hf ht (if a[0]? = some slash then [] else d) (components a)
  cases hnames : namesIn (components a) with
  | none =>
    rw [hnames] at hwalk
    rw [if_neg (fun hw => by simpa using hwalk.mp hw), Option.bind_none, Option.elim_none]
  | some names =>
    have hparts := namesIn_eq_some_iff.mp hnames
    have hne : names ≠ [] := by
      rintro rfl
      exact components_ne_nil a hparts.symm
    simp only [hnames, Option.some.injEq, exists_eq_left', hne, false_or] at hwalk
    rw [Option.bind_some, ← hparts, foldl_joinPath, hparts]
    by_cases hw : Walk joinPath (Found s) (path (if a[0]? = some slash then [] else d))
        (components a)
    · obtain ⟨x, hx⟩ := Option.ne_none_iff_exists'.mp (hwalk.mp hw)
      rw [if_pos hw, hx, Option.map_some, Option.elim_some]
    · rw [if_neg hw, not_not.mp (fun h => hw (hwalk.mpr h)), Option.map_none, Option.elim_none]

end

/-! ## One command -/

/-- The directory and the name that MKD takes from its argument, in the directory `d`. DELE takes the
same. -/
def targetOf (d : List Name) (argument : Bytes) : Bytes × Bytes :=
  if (string_split argument (lit "/")).length = 1 then (path d, argument)
  else (get_parent_path (lit "/" ++ argument), get_basename argument)

/-- The tree takes a new node there. -/
def Allowed (t : FileTree Name Int) (n p : Bytes) : Prop :=
  ∃ d m, place n p = some (d, m) ∧ t.node d = some .directory ∧ t.node (d ++ [m]) = none

/-- The directory after a command. -/
def turn (t : FileTree Name Int) (d : List Name) (c : Bytes × Bytes) : List Name :=
  if c.1 = lit "CDUP" then d.dropLast
  else if c.1 = lit "CWD" then (goes t d c.2).getD d
  else d

open Classical in
/-- The reply to a command of the shell: to those of the directories and the objects. -/
noncomputable def answerTo (t : FileTree Name Int) (d : List Name) (c : Bytes × Bytes) :
    Option Bytes :=
  if c.1 = lit "PWD" then some (lit "257 \"" ++ path d ++ lit "\"")
  else if c.1 = lit "CDUP" then some (lit "250 Okay.")
  else if c.1 = lit "CWD" then
    some (if c.2 = [] then lit "501 No arguments presented."
      else if (goes t d c.2).isSome then lit "250 Changed working directory."
      else lit "550 No such file or directory.")
  else if c.1 = lit "MKD" then
    some (if c.2 = [] then lit "501 No arguments presented."
      else if Allowed t (targetOf d c.2).2 (targetOf d c.2).1 then lit "250 Directory created."
      else lit "250 Failed.")
  else if c.1 = lit "RMD" ∨ c.1 = lit "DELE" then
    some (if c.2 = [] then lit "501 No arguments presented." else lit "250 Deleted.")
  else none

section
variable {env : Env} {s : Session} {t : FileTree Name Int} {d : List Name}
  (hl : s.m_connection_stage = .LOGGED_IN) (hd : s.m_working_directory = path d)

theorem handle_command_of_shell (a : Bytes) (hl : s.m_connection_stage = .LOGGED_IN) :
    s.handle_command env (lit "PWD") a =
        s.reply (lit "257 \"" ++ s.m_working_directory ++ lit "\"") ∧
      s.handle_command env (lit "CDUP") a = s.handle_CDUP := by
  constructor <;> simp +decide [handle_command, handle_logged_in, hl]

theorem object_of_MKD_eq (hd : s.m_working_directory = path d) (a : Bytes) :
    s.object_of_MKD a = targetOf d a := by
  rw [object_of_MKD, targetOf, hd]

/-- Only CDUP and CWD change the directory, and only after the login. -/
theorem working_directory_of_command (env : Env) (s : Session) (c a : Bytes)
    (h : s.m_connection_stage ≠ .LOGGED_IN ∨ (c ≠ lit "CDUP" ∧ c ≠ lit "CWD")) :
    (s.handle_command env c a).m_working_directory = s.m_working_directory := by
  obtain ⟨f, hf, messages, -, ht⟩ := (s.handle_command_handled env c a).front
  have hdir : (s.handle_command env c a).m_working_directory = f.working_directory :=
    congrArg Front.working_directory ht
  rw [hdir]
  cases hf with
  | moved _ _ w hl hc =>
    rcases h with h | h
    · exact absurd hl h
    · simp only [List.mem_cons, List.not_mem_nil, or_false] at hc
      exact absurd hc (not_or.mpr h)
  | _ => rfl

variable (hf : Formed s.m_fs_objects_table.table)
  (ht : Shows (view s.m_userid s.m_fs_objects_table.table) t)
include hf ht hd

/-- A command of a logged-in session turns to the directory that the tree says. -/
theorem turn_of_command (env : Env) (hl : s.m_connection_stage = .LOGGED_IN) (c a : Bytes) :
    (s.handle_command env c a).m_working_directory = path (turn t d (c, a)) := by
  unfold turn
  by_cases hup : c = lit "CDUP"
  · rw [if_pos hup, hup, (handle_command_of_shell a hl).2]
    exact (congrArg get_parent_path hd).trans (get_parent_path_path d)
  by_cases hc : c = lit "CWD"
  · rw [if_neg hup, if_pos hc, hc, (handle_command_of_logged_in hl).2.2.2,
      handle_CWD_goes hf ht hd]
    cases goes t d a with
    | none => exact hd
    | some e => rfl
  · rw [if_neg hup, if_neg hc, working_directory_of_command env s c a (Or.inr ⟨hup, hc⟩)]
    exact hd

omit hd in
/-- A create gives an id where the tree takes a new node. -/
theorem created_iff_allowed {uuid : Uuid} {now n p : Bytes} {size : Int} {dir : Bool}
    (hs : Sited s.m_fs_objects_table (.create_object uuid now s.m_userid n p size dir)) :
    (create_object s.m_fs_objects_table uuid now s.m_userid n p size dir).2 ≠ [] ↔
      Allowed t n p := by
  obtain ⟨ok, hok, hiff⟩ := @tells_outcome _ (.create_object uuid now s.m_userid n p size dir) _
    hf ht hs
  have hdone : decide ((create_object s.m_fs_objects_table uuid now s.m_userid n p size dir).2 ≠ []) =
      ok := Outcome.done.inj hok
  rw [← hdone, decide_eq_true_iff] at hiff
  exact hiff

/-- A command of the shell is answered as the tree says. The call of a MKD tells the checks. -/
theorem answer_of_command (hl : s.m_connection_stage = .LOGGED_IN) {c a m : Bytes}
    (hs : ∀ o ∈ s.callOfCommand env c a, Sited s.m_fs_objects_table o)
    (h : answerTo t d (c, a) = some m) :
    (s.handle_command env c a).sent = s.sent ++ [m ++ crlf] := by
  obtain ⟨hmkd, hrmd, hdele, hcwd⟩ := @handle_command_of_logged_in env s a hl
  obtain ⟨hpwd, hcdup⟩ := @handle_command_of_shell env s a hl
  unfold answerTo at h
  by_cases h1 : c = lit "PWD"
  · rw [if_pos h1, Option.some.injEq] at h
    rw [h1, hpwd, hd, h]
    rfl
  by_cases h2 : c = lit "CDUP"
  · rw [if_neg h1, if_pos h2, Option.some.injEq] at h
    rw [h2, hcdup, ← h]
    rfl
  by_cases h3 : c = lit "CWD"
  · rw [if_neg h1, if_neg h2, if_pos h3, Option.some.injEq] at h
    rw [h3, hcwd, handle_CWD_goes hf ht hd, ← h]
    cases hg : goes t d a with
    | none => rfl
    | some e =>
      have ha : a ≠ [] := by
        rintro rfl
        cases hg
      simp only [if_neg ha]
      rfl
  by_cases h4 : c = lit "MKD"
  · rw [if_neg h1, if_neg h2, if_neg h3, if_pos h4, Option.some.injEq] at h
    subst h4
    rw [hmkd, handle_MKD, ← h]
    by_cases ha : a = []
    · rw [if_pos ha, if_pos ha]
      rfl
    have hcall : s.callOfCommand env (lit "MKD") a = some (.create_object env.uuid env.now
        s.m_userid (targetOf d a).2 (targetOf d a).1 0 true) := by
      simp [callOfCommand, objectCall, hl, ha, object_of_MKD_eq hd]
    have hiff := created_iff_allowed hf ht (hs _ hcall)
    rw [if_neg ha, if_neg ha]
    simp only [object_of_MKD_eq hd]
    by_cases hallowed : Allowed t (targetOf d a).2 (targetOf d a).1
    · rw [if_pos hallowed, if_neg (hiff.mpr hallowed)]
      rfl
    · rw [if_neg hallowed, if_pos (not_not.mp (mt hiff.mp hallowed))]
      rfl
  by_cases h5 : c = lit "RMD" ∨ c = lit "DELE"
  · rw [if_neg h1, if_neg h2, if_neg h3, if_neg h4, if_pos h5, Option.some.injEq] at h
    have hremove : ∀ object, (s.removeObject a object).sent = s.sent ++ [m ++ crlf] := by
      intro object
      unfold removeObject
      rw [← h]
      split <;> rfl
    rcases h5 with rfl | rfl
    · rw [hrmd]
      exact hremove _
    · rw [hdele]
      exact hremove _
  · rw [if_neg h1, if_neg h2, if_neg h3, if_neg h4, if_neg h5] at h
    cases h

end

/-- The command that an event brings to a logged-in session. -/
def heard (s : Session) (e : Event) : Option (Bytes × Bytes) :=
  if s.m_connection_stage = .LOGGED_IN then commandOf e else none

theorem heard_control_received {s : Session} {ec : ErrorCode} {received : Bytes}
    {c : Bytes × Bytes} : heard s (.control_received ec received) = some c ↔
      s.m_connection_stage = .LOGGED_IN ∧ c.1 ≠ [] ∧
        handle_control_receive_callback ec received = c := by
  simp only [heard, commandOf, Option.ite_none_right_eq_some, Option.ite_none_left_eq_some,
    Option.some.injEq]
  constructor
  · rintro ⟨hl, hne, rfl⟩
    exact ⟨hl, hne, rfl⟩
  · rintro ⟨hl, hne, rfl⟩
    exact ⟨hl, hne, rfl⟩

section
variable {env : Env} {s s' : Session} {e : Event} (h : Stepped env s e s')
include h

/-- An event that brings no command to a logged-in session leaves the directory. -/
theorem directory_of_no_command (hno : heard s e = none) :
    s'.m_working_directory = s.m_working_directory := by
  by_cases hup : startsUp e = true
  · rw [(h.startup hup).1]
  by_cases hc : onControl e = true
  · cases h with
    | control_received ec received =>
      refine working_directory_of_command env { s with control_reads := s.control_reads - 1 } _ _ ?_
      by_cases hl : s.m_connection_stage = .LOGGED_IN
      · refine Or.inr ?_
        have hnil : (handle_control_receive_callback ec received).1 = [] := by
          by_contra hne
          exact absurd (hno.symm.trans (heard_control_received.mpr ⟨hl, hne, rfl⟩)) (by simp)
        rw [hnil]
        decide
      · exact Or.inl hl
    | timer => exact absurd rfl hup
    | probe_received => exact absurd rfl hup
    | handshaken => exact absurd rfl hup
    | control_sent => rfl
    | probe_sent => rfl
    | _ => simp [onControl] at hc
  · rcases h.front (by simpa using hc) with hf | ⟨m, hf⟩
    · exact congrArg Front.working_directory hf
    · exact congrArg Front.working_directory hf

/-- A session that hears a command handles it. -/
theorem handles_of_heard {c : Bytes × Bytes} (hc : heard s e = some c) :
    s.m_connection_stage = .LOGGED_IN ∧ s.callOf env e = s.callOfCommand env c.1 c.2 ∧
      s' = { s with control_reads := s.control_reads - 1 }.handle_command env c.1 c.2 := by
  cases h with
  | control_received ec received =>
    obtain ⟨hl, -, rfl⟩ := heard_control_received.mp hc
    exact ⟨hl, rfl, rfl⟩
  | _ => simp [heard, commandOf] at hc

variable {t : FileTree Name Int} {d : List Name} (hf : Formed s.m_fs_objects_table.table)
  (ht : Shows (view s.m_userid s.m_fs_objects_table.table) t) (hd : s.m_working_directory = path d)
include hf ht hd

theorem directory_of_event :
    s'.m_working_directory = path ((heard s e).elim d (turn t d)) := by
  cases hc : heard s e with
  | none => exact (directory_of_no_command h hc).trans hd
  | some c =>
    obtain ⟨hl, -, rfl⟩ := handles_of_heard h hc
    exact @turn_of_command { s with control_reads := s.control_reads - 1 } t d hd hf ht env hl
      c.1 c.2

theorem reply_of_event {c : Bytes × Bytes} {m : Bytes} (hc : heard s e = some c)
    (hs : ∀ o ∈ s.callOf env e, Sited s.m_fs_objects_table o) (hm : answerTo t d c = some m) :
    s'.sent = s.sent ++ [m ++ crlf] := by
  obtain ⟨hl, hcall, rfl⟩ := handles_of_heard h hc
  rw [hcall] at hs
  exact @answer_of_command env { s with control_reads := s.control_reads - 1 } t d hd hf ht hl
    c.1 c.2 m hs hm

end

/-! ## The server and its world -/

/-- The tree of each user, and the directory of each session. -/
structure World where
  trees : Bytes → FileTree Name Int
  directories : List (List Name)

/-- The world after an event: the call of the event goes to the tree of its user, and the command of
a session turns its directory. -/
noncomputable def World.follow (w : World) (sv : Server) (e : ServerEvent) : World where
  trees :=
    match sv.callOf e with
    | none => w.trees
    | some o => Function.update w.trees o.user (perform (w.trees o.user) (call o))
  directories :=
    match e with
    | .connected .. => w.directories ++ [[]]
    | .session k _ ev =>
      w.directories.modify k fun d =>
        (sv.session k).elim d fun s => (heard s ev).elim d (turn (w.trees s.m_userid) d)

/-- What the call of an event inserts has a new id and can stand in a table. -/
def CallsWell (sv : Server) (e : ServerEvent) : Prop :=
  ∀ o ∈ sv.callOf e, Fresh sv.m_fs_objects_table o ∧
    (Inserts sv.m_fs_objects_table.table o → names.Placed o)

open Classical in
/-- An event of the server, next to its world. -/
noncomputable def mirrored (x : Server × World) (e : ServerEvent) : Option (Server × World) :=
  if CallsWell x.1 e then (x.1.step e).map fun sv' => (sv', x.2.follow x.1 e) else none

/-- The world shows what each user has and where each session is, and tells the reply to each
command of the shell. -/
structure Serves (x : Server × World) (e : ServerEvent) (x' : Server × World) : Prop where
  trees : ∀ u, Shows (view u x'.1.m_fs_objects_table.table) (x'.2.trees u)
  directories : x'.1.sessions.map (·.m_working_directory) = x'.2.directories.map path
  replies : ∀ k env ev s c d m, e = .session k env ev → x.1.session k = some s →
    heard s ev = some c → x.2.directories[k]? = some d →
    answerTo (x.2.trees s.m_userid) d c = some m →
      ∃ s', x'.1.session k = some s' ∧ s'.sent = s.sent ++ [m ++ crlf]

/-- A call is no clash, and precise. -/
def CallsKeep (x : Server × World) (e : ServerEvent) (_ : Server × World) : Prop :=
  ∀ o ∈ x.1.callOf e, ¬ Clash o.user x.1.m_fs_objects_table o ∧
    Precise (view o.user x.1.m_fs_objects_table.table) (call o)

/-- What holds between the events. -/
structure Sound (x : Server × World) : Prop where
  named : names.WellFormed x.1
  formed : Formed x.1.m_fs_objects_table.table
  trees : ∀ u, Shows (view u x.1.m_fs_objects_table.table) (x.2.trees u)
  directories : x.1.sessions.map (·.m_working_directory) = x.2.directories.map path

theorem lt_of_session {sv : Server} {k : Nat} {s : Session} (h : sv.session k = some s) :
    k < sv.sessions.length := by
  simp only [Server.session, Option.map_eq_some_iff] at h
  obtain ⟨t, ht, -⟩ := h
  exact List.getElem?_eq_some_iff.mp ht |>.1

/-- A call of a session is one on names. -/
theorem sited_of_placed {sv : Server} {e : ServerEvent} {o : Op} (hw : names.WellFormed sv)
    (h : CallsWell sv e) (ho : o ∈ sv.callOf e) : Sited sv.m_fs_objects_table o := by
  obtain ⟨hf, hp⟩ := h o ho
  refine ⟨hf, fun hi => ?_⟩
  have ha : names.Absolute o := by
    cases e with
    | connected => simp [Server.callOf] at ho
    | session k env e =>
      simp only [Server.callOf, Option.mem_def, Option.bind_eq_some_iff] at ho
      obtain ⟨s, hk, ho⟩ := ho
      have hs := Server.law_of_session (P := fun s => Canonical s.m_working_directory)
        (fun _ _ h => h) hw.directories hk
      exact names.absolute_callOf env hs e o ho
  cases o with
  | create_object uuid now u n p size dir =>
    obtain ⟨hne, -, hdouble⟩ := hp hi
    exact ⟨names.canonical_of_creatable hw.rows hi.1 ha.2 hdouble, hne, ha.1⟩
  | _ => trivial

section
variable {sv sv' : Server} {w : World} {e : ServerEvent} (hx : Sound (sv, w))
  (h : sv.step e = some sv') (hcalls : CallsWell sv e)
include hx h hcalls

/-- The trees follow an event if and only if its call keeps to them. -/
theorem trees_follow_iff :
    (∀ u, Shows (view u sv'.m_fs_objects_table.table) ((w.follow sv e).trees u)) ↔
      ∀ o ∈ sv.callOf e, ¬ Clash o.user sv.m_fs_objects_table o ∧
        Precise (view o.user sv.m_fs_objects_table.table) (call o) := by
  rw [Server.table_of_step h]
  unfold World.follow
  cases ho : sv.callOf e with
  | none => simpa [applied] using hx.trees
  | some o =>
    have hs := sited_of_placed hx.named hcalls ho
    simp only [Option.mem_def, Option.some.injEq, forall_eq', applied, Option.elim_some]
    rw [← shows_own_iff hx.formed (hx.trees o.user) hs]
    constructor
    · intro hall
      simpa using hall o.user
    · intro hown u
      by_cases hu : o.user = u
      · subst hu
        simpa using hown
      · rw [Function.update_of_ne (Ne.symm hu), view_other hx.formed.generated hu]
        exact hx.trees u

omit h hcalls in
theorem directory_of_session {k : Nat} {s : Session} (hk : sv.session k = some s) :
    ∃ d, w.directories[k]? = some d ∧ s.m_working_directory = path d := by
  simp only [Server.session, Option.map_eq_some_iff] at hk
  obtain ⟨s₀, hs₀, rfl⟩ := hk
  have hd := congrArg (·[k]?) hx.directories
  simp only [List.getElem?_map, hs₀, Option.map_some] at hd
  obtain ⟨d, hd, hpath⟩ := Option.map_eq_some_iff.mp hd.symm
  exact ⟨d, hd, hpath.symm⟩

omit hcalls in
/-- Each session stands where the world says. -/
theorem directories_follow : sv'.sessions.map (·.m_working_directory) =
    (w.follow sv e).directories.map path := by
  have hdirs := hx.directories
  cases Server.step_served h with
  | connected lap available =>
    simp only [World.follow, List.map_append, List.map_cons, List.map_nil]
    rw [hdirs, (begun_idle ..).1]
    rfl
  | session k env ev s s' hk he hs =>
    obtain ⟨d, hd, hdir⟩ := directory_of_session hx hk
    have hnext : s'.m_working_directory =
        path ((heard s ev).elim d (turn (w.trees s.m_userid) d)) := by
      have hstore := Server.store_of_session hk
      exact directory_of_event (step_stepped hs).2 (hstore ▸ hx.formed)
        (hstore ▸ hx.trees s.m_userid) hdir
    ext1 i
    have hi := congrArg (·[i]?) hdirs
    simp only [List.getElem?_map] at hi
    simp only [World.follow, Server.put, List.getElem?_map, List.getElem?_modify, hk,
      Option.elim_some]
    by_cases hik : k = i
    · subst hik
      rw [List.getElem?_set_self (lt_of_session hk), hd]
      simp [hnext]
    · rw [List.getElem?_set_ne hik, hi]
      simp [hik]

/-- Each command of the shell is answered from the world before it. -/
theorem replies_follow {k : Nat} {env : Env} {ev : Event} {s : Session} {c : Bytes × Bytes}
    {d : List Name} {m : Bytes} (he : e = .session k env ev) (hk : sv.session k = some s)
    (hc : heard s ev = some c) (hd : w.directories[k]? = some d)
    (hm : answerTo (w.trees s.m_userid) d c = some m) :
    ∃ s', sv'.session k = some s' ∧ s'.sent = s.sent ++ [m ++ crlf] := by
  subst he
  obtain ⟨d', hd', hdir⟩ := directory_of_session hx hk
  obtain rfl := Option.some.inj (hd.symm.trans hd')
  have hstore := Server.store_of_session hk
  cases Server.step_served h with
  | session k env ev s₁ s' hk' he hs =>
    obtain rfl := Option.some.inj (hk.symm.trans hk')
    have hsited : ∀ o ∈ s.callOf env ev, Sited s.m_fs_objects_table o := by
      intro o ho
      rw [hstore]
      refine sited_of_placed hx.named hcalls (o := o) ?_
      simp only [Server.callOf, hk, Option.bind_some]
      exact ho
    have hsent := reply_of_event (step_stepped hs).2 (hstore ▸ hx.formed)
      (hstore ▸ hx.trees s.m_userid) hdir hc hsited hm
    refine ⟨_, ?_, hsent⟩
    simp only [Server.session, Server.put]
    rw [List.getElem?_set_self (lt_of_session hk)]
    rfl

end

/-! ## The law -/

theorem serves_iff {x x' : Server × World} {e : ServerEvent} (hx : Sound x)
    (h : mirrored x e = some x') : (Serves x e x' ↔ CallsKeep x e x') ∧
      (CallsKeep x e x' → Sound x') := by
  obtain ⟨sv, w⟩ := x
  simp only [mirrored, Option.ite_none_right_eq_some, Option.map_eq_some_iff] at h
  obtain ⟨hcalls, sv', h, rfl⟩ := h
  have htrees := trees_follow_iff hx h hcalls
  have hdirs := directories_follow hx h
  refine ⟨⟨fun hs => htrees.mp hs.trees, fun hk => ?_⟩, fun hk => ?_⟩
  · refine ⟨htrees.mpr hk, hdirs, ?_⟩
    intro k env ev s c d m he hk hc hd hm
    exact replies_follow hx h hcalls he hk hc hd hm
  · refine ⟨(names.wellFormed_step_iff hx.named h).mpr (fun o ho => (hcalls o ho).2), ?_,
      htrees.mpr hk, hdirs⟩
    change Formed sv'.m_fs_objects_table.table
    rw [Server.table_of_step h]
    cases ho : sv.callOf e with
    | none => exact hx.formed
    | some o => exact formed_of_sited hx.formed (sited_of_placed hx.named hcalls ho)

/-- The world of a server that just started: every user has the root alone. -/
def World.init : World := ⟨fun _ => FileTree.empty, []⟩

theorem sound_init (session_class : SessionClass) (users : users.Table) :
    Sound (Server.init session_class users, World.init) where
  named := ⟨fun _ hr => absurd hr List.not_mem_nil, fun _ hs => absurd hs List.not_mem_nil⟩
  formed := formed_empty
  trees := shows_empty
  directories := rfl

/-- In every run of a server from an empty table, whatever its sessions do in whatever order, where
what a call inserts has a new id and can stand in a table: the server is a shell on the trees of its
users. The tree of a user changes with the calls of its sessions only, each session stands in a
directory of names that its own CDUP and CWD turn, and PWD, CDUP, CWD, MKD, RMD and DELE are
answered by the tree and the directory. That is so if and only if no call of the run clashes and each
removal is precise. -/
theorem a_server_is_a_shell_on_file_trees_iff (session_class : SessionClass) (users : users.Table)
    (es : List ServerEvent) :
    runs.Along mirrored Serves (Server.init session_class users, World.init) es ↔
      runs.Along mirrored CallsKeep (Server.init session_class users, World.init) es :=
  runs.along_iff_of_invariant (J := Sound) (fun _ _ _ hx h => (serves_iff hx h).1)
    (fun _ _ _ hx h => (serves_iff hx h).2) (sound_init session_class users)

end asio_ftp.shells
