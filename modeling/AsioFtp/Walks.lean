-- The laws of CWD and CDUP: which directories CWD enters, and that CDUP leads back out of them.
import AsioFtp.Addresses

namespace asio_ftp.walks

open helpers paths fs_objects tree arguments addresses walk base_session base_session.Session

/-! ## The walk of CWD -/

/-- The directory `dir` has an object of the user with this name. -/
def Object (t : Table) (user_id dir name : Bytes) : Prop :=
  ∃ r ∈ t.rows, r.user_id = user_id ∧ r.name = name ∧ r.path = dir

/-- The object is a directory. -/
def Directory (t : Table) (user_id dir name : Bytes) : Prop :=
  ∃ r ∈ t.rows, r.user_id = user_id ∧ r.name = name ∧ r.path = dir ∧ r.is_directory = true

instance (t : Table) (u dir name : Bytes) : Decidable (Object t u dir name) :=
  inferInstanceAs (Decidable (∃ r ∈ t.rows, _))

instance (t : Table) (u dir name : Bytes) : Decidable (Directory t u dir name) :=
  inferInstanceAs (Decidable (∃ r ∈ t.rows, _))

/-- The components of an argument. An absolute one has none before its first '/'. -/
def components (argument : Bytes) : List Bytes :=
  if argument[0]? = some slash then (argument.splitOn slash).tail else argument.splitOn slash

/-- Where the walk of an argument begins. -/
def origin (s : Session) (argument : Bytes) : Bytes :=
  if argument[0]? = some slash then [slash] else s.m_working_directory

section
variable {s : Session} {a : Bytes}

theorem cwdStart_eq (ha : a ≠ []) : s.cwdStart a = (origin s a, components a) := by
  have hd : lit "/" = [slash] := rfl
  rw [cwdStart, hd, string_split_byte, if_neg ha, origin, components]
  split <;> rfl

/-- The index 0 is in range: an argument that begins with '/' splits into two parts at least. -/
theorem components_ne_nil (a : Bytes) : components a ≠ [] := by
  unfold components
  split
  · next h =>
    obtain ⟨rest, rfl⟩ : ∃ rest, a = slash :: rest := by
      cases a with
      | nil => cases h
      | cons c rest => exact ⟨rest, by rw [Option.some.inj h]⟩
    have hcut : (slash :: rest).splitOn slash = [] :: rest.splitOn slash :=
      List.splitOn_append_cons_self_of_not_mem List.not_mem_nil rest
    rw [hcut]
    exact List.splitOn_ne_nil slash rest
  · exact List.splitOn_ne_nil slash a

/-- CWD goes where the components lead when all of them are found, and stays where it is when one
is not. Nothing is read outside of the components. -/
theorem handle_CWD_eq (ha : a ≠ []) (hup : a ≠ lit "..") (hroot : a ≠ lit "/")
    (hs : ∀ d, ∀ p ∈ components a, Found s d p → Segment p) :
    s.handle_CWD a =
      if Walk joinPath (Found s) (origin s a) (components a) then
        { s with m_working_directory := (components a).foldl joinPath (origin s a) }.reply
          (lit "250 Changed working directory.")
      else s.reply (lit "550 No such file or directory.") := by
  have hstart := cwdStart_eq (s := s) ha
  cases hc : components a with
  | nil => exact absurd hc (components_ne_nil a)
  | cons first rest =>
    rw [hc] at hs hstart
    exact handle_CWD_of_start ha hup hroot hstart hs

end

/-! ## Which directories CWD enters -/

section
variable {t : Table} (ht : Tree t) {u : Bytes}
include ht

theorem Object.segment {dir name : Bytes} (h : Object t u dir name) : Segment name := by
  obtain ⟨r, hr, -, rfl, -⟩ := h
  exact ht.segment r hr

/-- In a tree, an object with something below it is a directory. -/
theorem directory_of_inner {dir part next : Bytes} (hdir : Canonical dir)
    (hp : Object t u dir part) (hn : Object t u (joinPath dir part) next) :
    Directory t u dir part := by
  have hseg := hp.segment ht
  obtain ⟨r, hr, hu, -, hpath⟩ := hn
  obtain ⟨q, hq, hqu, hqn, hqp, hqd⟩ :=
    ht.parent r hr (by rw [hpath]; exact joinPath_ne_root dir hseg)
  rw [hpath, get_basename_join dir hseg.2] at hqn
  rw [hpath, get_parent_path_join hdir hseg.2] at hqp
  exact ⟨q, hq, hqu.trans hu, hqn, hqp, hqd⟩

/-- So a walk over objects is one over directories when its last object is one. -/
theorem walk_directories_iff {dir : Bytes} (parts : List Bytes) (hdir : Canonical dir) :
    Walk joinPath (Directory t u) dir parts ↔
      Walk joinPath (Object t u) dir parts ∧ AtLast joinPath (Directory t u) dir parts := by
  refine walk_iff_atLast (J := Canonical) ?_ ?_ ?_ hdir
  · rintro d p ⟨r, hr, hu, hn, hp, -⟩
    exact ⟨r, hr, hu, hn, hp⟩
  · exact fun d p hd hp => hd.join (hp.segment ht)
  · exact fun d p next hd hp hn => directory_of_inner ht hd hp hn

end

/-- CWD enters the directory that the components lead to when each of them is a directory, and
refuses every other argument. -/
structure EntersDirectories (env : Env) (s : Session) (a : Bytes) : Prop where
  entered : Walk joinPath (Directory s.m_fs_objects_table.table s.m_userid) (origin s a)
      (components a) →
    s.handle_command env (lit "CWD") a =
      { s with m_working_directory := (components a).foldl joinPath (origin s a) }.reply
        (lit "250 Changed working directory.")
  refused : ¬ Walk joinPath (Directory s.m_fs_objects_table.table s.m_userid) (origin s a)
      (components a) →
    s.handle_command env (lit "CWD") a = s.reply (lit "550 No such file or directory.")

theorem origin_canonical {s : Session} {a : Bytes} (hw : Canonical s.m_working_directory) :
    Canonical (origin s a) := by
  unfold origin
  split
  · exact canonical_root
  · exact hw

/-- In every tree, from every canonical directory and for every argument but "", "/" and "..", CWD
enters directories only, if and only if the last component is a directory where all of them are
objects. -/
theorem CWD_enters_directories_iff (env : Env) (s : Session) (a : Bytes)
    (hl : s.m_connection_stage = .LOGGED_IN) (hw : Canonical s.m_working_directory)
    (ht : Tree s.m_fs_objects_table.table) (ha : a ≠ []) (hup : a ≠ lit "..")
    (hroot : a ≠ lit "/") :
    EntersDirectories env s a ↔
      (Walk joinPath (Object s.m_fs_objects_table.table s.m_userid) (origin s a) (components a) →
        AtLast joinPath (Directory s.m_fs_objects_table.table s.m_userid) (origin s a)
          (components a)) := by
  have hfound : Found s = Object s.m_fs_objects_table.table s.m_userid := by
    funext dir name
    exact propext (get_object_id_ne_nil_iff ht.generated)
  have hcwd := handle_CWD_eq (s := s) ha hup hroot
    (fun d p _ h => Object.segment ht (hfound ▸ h))
  simp only [hfound] at hcwd
  have hiff := walk_directories_iff ht (u := s.m_userid) (components a)
    (origin_canonical (a := a) hw)
  have hcommand : s.handle_command env (lit "CWD") a = s.handle_CWD a :=
    (handle_command_of_logged_in hl).2.2.2
  constructor
  · intro h hobjects
    rw [if_pos hobjects, ← hcommand] at hcwd
    -- The 250 that the objects got is no refusal.
    by_contra hlast
    have hrefused := h.refused (fun hd => hlast (hiff.mp hd).2)
    rw [hcwd] at hrefused
    have hsent := congrArg Session.sent hrefused
    simp only [reply, control_send, control_receive, List.append_cancel_left_eq] at hsent
    exact absurd hsent (by decide)
  · intro h
    constructor
    · intro hd
      rw [hcommand, hcwd, if_pos (hiff.mp hd).1]
    · intro hd
      rw [hcommand, hcwd, if_neg (fun hobjects => hd (hiff.mpr ⟨hobjects, h hobjects⟩))]

/-- A user with the directory "d" and the file "f" in the root. -/
def oneFile : Session :=
  { inDirectory "/" with
    m_userid := lit "u"
    m_fs_objects_table := histories.after Store.empty
      [.create_object (.ofRand 1) [] (lit "u") (lit "d") (lit "/") 0 true,
        .create_object (.ofRand 2) [] (lit "u") (lit "f") (lit "/") 0 false] }

theorem tree_oneFile : Tree oneFile.m_fs_objects_table.table := by
  refine tree_after tree_empty (fun o ho => ?_)
  simp only [List.mem_cons, List.not_mem_nil, or_false] at ho
  rcases ho with rfl | rfl <;> exact ⟨by decide, fun _ => trivial⟩

/-- The law at an argument that has a directory and a part that is not there. -/
theorem CWD_enters_directories_of_two_parts :
    EntersDirectories (Env.working 0) oneFile (lit "d/x") :=
  (CWD_enters_directories_iff (Env.working 0) oneFile (lit "d/x") (by decide) (by decide)
    tree_oneFile (by decide) (by decide) (by decide)).mpr (by decide)

/-- CWD "f" makes a file the working directory. -/
theorem CWD_enters_a_file :
    oneFile.m_connection_stage = .LOGGED_IN ∧ Canonical oneFile.m_working_directory ∧
      Tree oneFile.m_fs_objects_table.table ∧
      ¬ EntersDirectories (Env.working 0) oneFile (lit "f") := by
  refine ⟨by decide, by decide, tree_oneFile, fun h => ?_⟩
  exact absurd (congrArg Session.sent (h.refused (by decide))) (by decide)

/-! ## The way back -/

/-- The two commands that go up. -/
def GoesUp (c : Bytes × Bytes) : Prop := c.1 = lit "CDUP" ∨ c = (lit "CWD", lit "..")

instance (c : Bytes × Bytes) : Decidable (GoesUp c) := inferInstanceAs (Decidable (_ ∨ _))

/-- The session after commands, each with its argument. -/
def commands (env : Env) (s : Session) (cs : List (Bytes × Bytes)) : Session :=
  cs.foldl (fun s c => s.handle_command env c.1 c.2) s

theorem handle_command_of_goesUp (env : Env) {s : Session} {c : Bytes × Bytes}
    (hl : s.m_connection_stage = .LOGGED_IN) (hc : GoesUp c) :
    (s.handle_command env c.1 c.2).m_working_directory = get_parent_path s.m_working_directory ∧
      (s.handle_command env c.1 c.2).m_connection_stage = .LOGGED_IN := by
  rcases hc with hc | rfl
  · have hcdup : s.handle_command env c.1 c.2 = s.handle_CDUP := by
      simp +decide [handle_command, handle_logged_in, hl, hc]
    rw [hcdup]
    exact ⟨rfl, hl⟩
  · rw [(handle_command_of_logged_in hl).2.2.2]
    exact ⟨rfl, hl⟩

theorem commands_of_goesUp (env : Env) {s : Session} {cs : List (Bytes × Bytes)}
    (hl : s.m_connection_stage = .LOGGED_IN) (hcs : ∀ c ∈ cs, GoesUp c) :
    (commands env s cs).m_working_directory =
        get_parent_path^[cs.length] s.m_working_directory ∧
      (commands env s cs).m_connection_stage = .LOGGED_IN := by
  induction cs generalizing s with
  | nil => exact ⟨rfl, hl⟩
  | cons c cs ih =>
    obtain ⟨hdir, hstage⟩ := handle_command_of_goesUp env hl (hcs c List.mem_cons_self)
    have ih := ih hstage (fun c h => hcs c (List.mem_cons_of_mem _ h))
    rw [hdir] at ih
    exact ih

theorem canonical_foldl_join {dir : Bytes} {parts : List Bytes} (hdir : Canonical dir)
    (hs : ∀ p ∈ parts, Segment p) : Canonical (parts.foldl joinPath dir) := by
  induction parts generalizing dir with
  | nil => exact hdir
  | cons p parts ih =>
    exact ih (hdir.join (hs p List.mem_cons_self)) (fun q h => hs q (List.mem_cons_of_mem _ h))

/-- As many parents as there are parts undo the joins. -/
theorem iterate_parent_foldl_join {dir : Bytes} {parts : List Bytes} (hdir : Canonical dir)
    (hs : ∀ p ∈ parts, Segment p) :
    get_parent_path^[parts.length] (parts.foldl joinPath dir) = dir := by
  induction parts using List.reverseRecOn with
  | nil => rfl
  | append_singleton parts p ih =>
    have hparts : ∀ q ∈ parts, Segment q := fun q h => hs q (List.mem_append_left _ h)
    have hp : Segment p := hs p (by simp)
    rw [List.length_append, List.length_singleton, Function.iterate_succ_apply, List.foldl_append,
      List.foldl_cons, List.foldl_nil,
      get_parent_path_join (canonical_foldl_join hdir hparts) hp.2, ih hparts]

/-- One parent is the root or is shorter. -/
theorem eq_root_or_shorter {path : Bytes} (h : path[0]? = some slash) :
    path = [slash] ∨ (get_parent_path path).length < path.length := by
  rcases path with _ | ⟨c, _ | ⟨d, rest⟩⟩
  · cases h
  · exact Or.inl (by rw [Option.some.inj h])
  · exact Or.inr (length_get_parent_path_lt (by simp))

theorem iterate_parent_root {path : Bytes} {n : Nat} (h : path[0]? = some slash)
    (hn : path.length ≤ n + 1) : get_parent_path^[n] path = [slash] := by
  induction n generalizing path with
  | zero =>
    refine (eq_root_or_shorter h).resolve_right (fun hlt => ?_)
    have hne : get_parent_path path ≠ [] := by
      intro he
      have h0 := getElem?_zero_get_parent_path path
      rw [he] at h0
      cases h0
    have hpos := List.length_pos_iff.mpr hne
    omega
  | succ n ih =>
    rw [Function.iterate_succ_apply]
    rcases eq_root_or_shorter h with rfl | hlt
    · exact ih (getElem?_zero_get_parent_path _) (by simp [get_parent_path])
    · exact ih (getElem?_zero_get_parent_path _) (by omega)

/-- CWD accepts the argument. -/
def Accepts (env : Env) (s : Session) (a : Bytes) : Prop :=
  (s.handle_command env (lit "CWD") a).sent =
    s.sent ++ [lit "250 Changed working directory." ++ crlf]

instance (env : Env) (s : Session) (a : Bytes) : Decidable (Accepts env s a) :=
  inferInstanceAs (Decidable (_ = _))

/-- Where an accepted relative argument leads. -/
theorem directory_of_accepted {env : Env} {s : Session} {a : Bytes}
    (hl : s.m_connection_stage = .LOGGED_IN) (ha0 : a[0]? ≠ some slash)
    (hs : ∀ p ∈ components a, Segment p) (hup : a ≠ lit "..") (h : Accepts env s a) :
    (s.handle_command env (lit "CWD") a).m_working_directory =
        (components a).foldl joinPath s.m_working_directory ∧
      (s.handle_command env (lit "CWD") a).m_connection_stage = .LOGGED_IN := by
  have ha : a ≠ [] := by
    rintro rfl
    exact (hs [] (by decide)).1 rfl
  have hroot : a ≠ lit "/" := fun he => ha0 (by rw [he]; rfl)
  have hcwd := handle_CWD_eq (s := s) ha hup hroot (fun d p hp _ => hs p hp)
  unfold Accepts at h
  rw [(handle_command_of_logged_in hl).2.2.2] at h ⊢
  rw [hcwd] at h ⊢
  split at h
  · next hw =>
    rw [if_pos hw, origin, if_neg ha0]
    exact ⟨rfl, hl⟩
  · simp only [reply, control_send, control_receive, List.append_cancel_left_eq] at h
    exact absurd h (by decide)

/-- A relative argument that CWD accepts from a canonical directory, other than "..", leads to a
canonical one, and as many commands that go up as it has components lead back. From every absolute
directory these commands lead to shorter ones until they reach "/", where they stay. -/
theorem CWD_and_CDUP_are_inverse (env : Env) (s : Session)
    (hl : s.m_connection_stage = .LOGGED_IN) :
    (∀ a, Canonical s.m_working_directory → a[0]? ≠ some slash → (∀ p ∈ components a, p ≠ []) →
      a ≠ lit ".." → Accepts env s a →
      let t := s.handle_command env (lit "CWD") a
      Canonical t.m_working_directory ∧
        ∀ ups, (∀ c ∈ ups, GoesUp c) → ups.length = (components a).length →
          (commands env t ups).m_working_directory = s.m_working_directory) ∧
    (s.m_working_directory[0]? = some slash → ∀ ups, (∀ c ∈ ups, GoesUp c) →
      let t := commands env s ups
      (s.m_working_directory.length ≤ ups.length + 1 → t.m_working_directory = lit "/") ∧
        ∀ c, GoesUp c →
          let next := t.handle_command env c.1 c.2
          (t.m_working_directory = lit "/" → next.m_working_directory = lit "/") ∧
            (t.m_working_directory ≠ lit "/" →
              next.m_working_directory.length < t.m_working_directory.length)) := by
  constructor
  · intro a hw ha0 hne hup h t
    have hs : ∀ p ∈ components a, Segment p := by
      intro p hp
      refine ⟨hne p hp, notMem_of_mem_splitOn (s := a) ?_⟩
      rwa [components, if_neg ha0] at hp
    obtain ⟨hdir, hstage⟩ := directory_of_accepted hl ha0 hs hup h
    refine ⟨hdir ▸ canonical_foldl_join hw hs, fun ups hups hlen => ?_⟩
    rw [(commands_of_goesUp env hstage hups).1, hdir, hlen, iterate_parent_foldl_join hw hs]
  · intro h0 ups hups t
    obtain ⟨hdir, hstage⟩ := commands_of_goesUp env hl hups
    have ht0 : t.m_working_directory[0]? = some slash := by
      rw [hdir]
      cases hn : ups.length with
      | zero => exact h0
      | succ n =>
        rw [Function.iterate_succ_apply']
        exact getElem?_zero_get_parent_path _
    refine ⟨fun hlen => hdir.trans (iterate_parent_root h0 hlen), fun c hc => ?_⟩
    simp only [(handle_command_of_goesUp env (s := t) hstage hc).1]
    refine ⟨fun hroot => ?_, fun hroot => (eq_root_or_shorter ht0).resolve_left hroot⟩
    rw [hroot]
    rfl

/-- The law at "a" in the directory "/w", and at the two commands that go up from there. -/
theorem CWD_and_CDUP_are_inverse_in_two_directories :
    (commands (Env.working 0) ((userIn "/w").handle_command (Env.working 0) (lit "CWD") (lit "a"))
        [(lit "CDUP", [])]).m_working_directory = lit "/w" ∧
      (commands (Env.working 0) (userIn "/w")
        [(lit "CWD", lit ".."), (lit "CDUP", [])]).m_working_directory = lit "/" :=
  have h := CWD_and_CDUP_are_inverse (Env.working 0) (userIn "/w") rfl
  ⟨(h.1 (lit "a") (by decide) (by decide) (by decide) (by decide) (by decide)).2
      [(lit "CDUP", [])] (by decide) (by decide),
    (h.2 (by decide) [(lit "CWD", lit ".."), (lit "CDUP", [])] (by decide)).1 (by decide)⟩

end asio_ftp.walks
