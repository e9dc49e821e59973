-- The laws of the addresses: when the directory that MKD makes is the one that CWD enters, and
-- when RMD and DELE remove what MKD and STOR made.
import AsioFtp.Arguments
import AsioFtp.Lib.Walk
import AsioFtp.Tree
import AsioFtp.Uploads

namespace asio_ftp.addresses

open helpers paths fs_objects histories tree arguments walk base_session base_session.Session

/-! ## Arguments made of parts -/

/-- The argument with these parts: "/s1/.../sn", or "s1/.../sn" when it is relative. -/
def argumentOf (absolute : Bool) (parts : List Bytes) : Bytes :=
  if absolute then pathOf parts else [slash].intercalate parts

section
variable {init : List Bytes} {n : Bytes}

theorem relative_single (n : Bytes) : argumentOf false [n] = n := by
  simp [argumentOf]

/-- A relative argument is an absolute one without its first slash. -/
theorem slash_cons_relative {parts : List Bytes} (hne : parts ≠ []) :
    slash :: argumentOf false parts = pathOf parts := by
  cases parts with
  | nil => exact absurd rfl hne
  | cons p ps =>
    show slash :: [slash].intercalate (p :: ps) = _
    rw [intercalate_slash, pathOf, if_neg hne]
    rfl

theorem relative_snoc (hinit : init ≠ []) (n : Bytes) :
    argumentOf false (init ++ [n]) = argumentOf false init ++ slash :: n := by
  have h := slash_cons_relative (show init ++ [n] ≠ [] by simp)
  have hi := slash_cons_relative hinit
  rw [pathOf, if_neg (by simp)] at h
  rw [pathOf, if_neg hinit] at hi
  rw [List.flatMap_append, ← hi] at h
  simpa using h

variable (hs : ∀ p ∈ init ++ [n], Segment p)
include hs

theorem segment_last : Segment n := hs n (by simp)

theorem segments_init : ∀ p ∈ init, Segment p := fun p hp => hs p (List.mem_append_left _ hp)

theorem canonical_init : Canonical (pathOf init) := ⟨init, segments_init hs, rfl⟩

theorem absolute_snoc : argumentOf true (init ++ [n]) = joinPath (pathOf init) n :=
  pathOf_snoc (segments_init hs) n

theorem get_basename_argumentOf (absolute : Bool) :
    get_basename (argumentOf absolute (init ++ [n])) = n := by
  have hn := (segment_last hs).2
  cases absolute with
  | true => rw [absolute_snoc hs, get_basename_join _ hn]
  | false =>
    by_cases hinit : init = []
    · subst hinit
      exact (congrArg get_basename (relative_single n)).trans (get_basename_of_no_slash hn)
    · rw [relative_snoc hinit, get_basename_of_slash hn]

theorem get_parent_path_absolute :
    get_parent_path (argumentOf true (init ++ [n])) = pathOf init := by
  rw [absolute_snoc hs, get_parent_path_join (canonical_init hs) (segment_last hs).2]

/-- The '/' that MKD puts before a relative argument makes it absolute. -/
theorem get_parent_path_relative :
    get_parent_path (lit "/" ++ argumentOf false (init ++ [n])) = pathOf init := by
  have h := slash_cons_relative (show init ++ [n] ≠ [] by simp)
  exact (congrArg get_parent_path h).trans (get_parent_path_absolute hs)

/-- The '/' that MKD puts before an absolute argument stays at the front of its path. -/
theorem get_parent_path_doubled :
    get_parent_path (lit "/" ++ argumentOf true (init ++ [n])) =
      if init = [] then [slash] else slash :: pathOf init := by
  rw [absolute_snoc hs, joinPath_eq]
  have hcut : lit "/" ++ ((if pathOf init = [slash] then [] else pathOf init) ++ slash :: n) =
      slash :: (if pathOf init = [slash] then [] else pathOf init) ++ slash :: n := rfl
  rw [hcut, get_parent_path_of_slash (segment_last hs).2 (fun _ => rfl), if_neg (by simp)]
  by_cases hinit : init = []
  · subst hinit
    rfl
  · rw [if_neg hinit, if_neg (mt (pathOf_eq_root (segments_init hs)).mp hinit)]

theorem argumentOf_ne_nil (absolute : Bool) : argumentOf absolute (init ++ [n]) ≠ [] := by
  intro h
  have hb := get_basename_argumentOf hs absolute
  rw [h] at hb
  exact (segment_last hs).1 hb.symm

omit hs in
theorem absolute_head : (argumentOf true (init ++ [n]))[0]? = some slash := by
  obtain ⟨rest, h⟩ := pathOf_head (init ++ [n])
  rw [argumentOf, if_pos rfl, h]
  rfl

theorem relative_head : (argumentOf false (init ++ [n]))[0]? ≠ some slash := by
  intro h
  have hp := slash_cons_relative (show init ++ [n] ≠ [] by simp)
  have hc : Canonical (pathOf (init ++ [n])) := ⟨_, hs, rfl⟩
  cases ha : argumentOf false (init ++ [n]) with
  | nil => exact argumentOf_ne_nil hs false ha
  | cons c rest =>
    rw [ha, List.getElem?_cons_zero, Option.some.injEq] at h
    rw [ha, h] at hp
    exact hc.no_double ⟨rest, hp⟩

/-- Only a single relative part has no slash. -/
theorem slash_notMem_argumentOf (absolute : Bool) :
    slash ∉ argumentOf absolute (init ++ [n]) ↔ absolute = false ∧ init = [] := by
  cases absolute with
  | true => simp [absolute_snoc hs, joinPath_eq]
  | false =>
    by_cases hinit : init = []
    · subst hinit
      have hn := (segment_last hs).2
      simpa [argumentOf] using hn
    · simp [relative_snoc hinit, hinit]

omit hs in
theorem absolute_ne_up : argumentOf true (init ++ [n]) ≠ lit ".." := by
  intro h
  have h0 : (argumentOf true (init ++ [n]))[0]? = some slash := absolute_head
  rw [h] at h0
  exact absurd h0 (by decide)

omit hs in
theorem relative_ne_up (hinit : init ≠ []) (n : Bytes) :
    argumentOf false (init ++ [n]) ≠ lit ".." := by
  intro h
  have hslash : slash ∈ argumentOf false (init ++ [n]) := by simp [relative_snoc hinit]
  rw [h] at hslash
  exact absurd hslash (by decide)

theorem argumentOf_ne_root (absolute : Bool) : argumentOf absolute (init ++ [n]) ≠ lit "/" := by
  intro h
  have hb := get_basename_argumentOf hs absolute
  rw [h] at hb
  exact (segment_last hs).1 hb.symm

/-! ## The object of each command -/

variable (s : Session)

theorem split_argumentOf (absolute : Bool) :
    (string_split (argumentOf absolute (init ++ [n])) (lit "/")).length = 1 ↔
      absolute = false ∧ init = [] :=
  (string_split_length_one (argumentOf_ne_nil hs absolute)).trans
    (slash_notMem_argumentOf hs absolute)

/-- MKD and DELE read a relative path from the root. -/
theorem object_of_MKD_relative : s.object_of_MKD (argumentOf false (init ++ [n])) =
    (if init = [] then s.m_working_directory else pathOf init, n) := by
  unfold object_of_MKD
  by_cases hinit : init = []
  · rw [if_pos ((split_argumentOf hs false).mpr ⟨rfl, hinit⟩), if_pos hinit, hinit,
      List.nil_append, relative_single]
  · rw [if_neg (fun h => hinit ((split_argumentOf hs false).mp h).2), if_neg hinit,
      get_parent_path_relative hs, get_basename_argumentOf hs]

/-- Below the root, they give an absolute path a second slash. -/
theorem object_of_MKD_absolute : s.object_of_MKD (argumentOf true (init ++ [n])) =
    (if init = [] then [slash] else slash :: pathOf init, n) := by
  rw [object_of_MKD, if_neg (by simp [split_argumentOf hs true]), get_parent_path_doubled hs,
    get_basename_argumentOf hs]

/-- RMD reads a relative path as MKD does. -/
theorem object_of_RMD_relative : s.object_of_RMD (argumentOf false (init ++ [n])) =
    s.object_of_MKD (argumentOf false (init ++ [n])) := by
  unfold object_of_RMD object_of_MKD
  rw [if_pos (relative_head hs)]

theorem object_of_RMD_absolute : s.object_of_RMD (argumentOf true (init ++ [n])) =
    (pathOf init, n) := by
  rw [object_of_RMD, if_neg (by simp [split_argumentOf hs true]),
    if_neg (not_not.mpr absolute_head), get_parent_path_absolute hs, get_basename_argumentOf hs]

/-- An upload goes to the place that DELE reads, if the argument is one part, or is relative to
the root. -/
theorem object_of_STOR_eq_MKD {absolute : Bool} (hw : Canonical s.m_working_directory)
    (h : init = [] ∨ absolute = false ∧ s.m_working_directory = [slash]) :
    s.object_of_STOR (argumentOf absolute (init ++ [n])) =
      s.object_of_MKD (argumentOf absolute (init ++ [n])) := by
  have hn := (segment_last hs).2
  cases absolute with
  | true =>
    have hinit : init = [] := h.resolve_right (fun h => nomatch h.1)
    rw [object_of_STOR_absolute absolute_head, object_of_MKD_absolute hs, if_pos hinit,
      get_parent_path_absolute hs, get_basename_argumentOf hs, hinit]
    rfl
  | false =>
    rw [object_of_MKD_relative hs]
    by_cases hinit : init = []
    · subst hinit
      rw [if_pos rfl, List.nil_append, relative_single, object_of_STOR_name hw hn]
    · obtain ⟨-, hr⟩ := h.resolve_left hinit
      have hsi := segments_init hs
      have hi0 : (argumentOf false init)[0]? ≠ some slash := by
        obtain ⟨pre, k, rfl⟩ := (List.eq_nil_or_concat init).resolve_left hinit
        rw [List.concat_eq_append] at hsi ⊢
        exact relative_head hsi
      have hne : argumentOf false init ≠ [] := by
        obtain ⟨pre, k, rfl⟩ := (List.eq_nil_or_concat init).resolve_left hinit
        rw [List.concat_eq_append] at hsi ⊢
        exact argumentOf_ne_nil hsi false
      rw [if_neg hinit, relative_snoc hinit, object_of_STOR_relative hw hn hne hi0, hr, joinPath,
        if_pos rfl, slash_cons_relative hinit]

end

/-! ## The walk of CWD -/

/-- What the lookup of CWD finds. -/
def Found (s : Session) (dir name : Bytes) : Prop :=
  (get_object s.m_fs_objects_table.table s.m_userid name dir).id ≠ []

instance (s : Session) (dir name : Bytes) : Decidable (Found s dir name) :=
  inferInstanceAs (Decidable (_ ≠ _))

/-- The directory of the two results of the walk. -/
def landing (walked : Bytes × Bytes) : Bytes :=
  (if walked.1 ≠ lit "/" then walked.1 ++ lit "/" else walked.1) ++ walked.2

/-- The loop of CWD goes on from a directory without its root slash. It looks up what is left in
the directories that the parts lead to, and lands in the last of them. -/
theorem cwdLoop_eq {s : Session} (dir : Bytes) {part : Bytes} {parts : List Bytes} (hp : Segment part)
    (hs : ∀ d, ∀ p ∈ parts, Found s d p → Segment p) :
    (s.cwdLoop (if dir = [slash] then [] else dir) (part :: parts)).map landing =
      if Walk joinPath (Found s) (joinPath dir part) parts then
        some ((part :: parts).foldl joinPath dir)
      else none := by
  induction parts generalizing dir part with
  | nil =>
    rw [if_pos (walk_nil _ _ _), cwdLoop, Option.map_some, landing]
    have hne : (if dir = [slash] then [] else dir) ≠ lit "/" := by
      split
      · decide
      · assumption
    rw [if_pos hne, List.foldl_cons, List.foldl_nil, joinPath_eq, List.append_assoc]
    rfl
  | cons next parts ih =>
    have hpath : (if dir = [slash] then [] else dir) ++ lit "/" ++ part = joinPath dir part := by
      rw [joinPath_eq, List.append_assoc]
      rfl
    have hne : joinPath dir part ≠ [slash] := joinPath_ne_root dir hp
    rw [cwdLoop, hpath]
    by_cases hf : Found s (joinPath dir part) next
    · have hnext := hs (joinPath dir part) next List.mem_cons_self hf
      have ih := ih (joinPath dir part) hnext
        (fun d p h => hs d p (List.mem_cons_of_mem _ h))
      rw [if_neg hne] at ih
      simp only [walk_cons, hf, true_and]
      rw [if_neg (show ¬ (get_object _ _ _ _).id = [] from hf), ih]
      rfl
    · rw [if_pos (not_not.mp hf), if_neg (fun h => hf h.1)]
      rfl

/-- CWD looks the parts up one after another, and goes where they lead when all of them are found. -/
theorem handle_CWD_of_start {s : Session} {a dir first : Bytes} {rest : List Bytes} (ha : a ≠ [])
    (hup : a ≠ lit "..") (hroot : a ≠ lit "/") (hstart : s.cwdStart a = (dir, first :: rest))
    (hs : ∀ d, ∀ p ∈ first :: rest, Found s d p → Segment p) :
    s.handle_CWD a =
      if Walk joinPath (Found s) dir (first :: rest) then
        { s with m_working_directory := (first :: rest).foldl joinPath dir }.reply
          (lit "250 Changed working directory.")
      else s.reply (lit "550 No such file or directory.") := by
  have hpop : (if dir = lit "/" then dir.dropLast else dir) = if dir = [slash] then [] else dir := by
    by_cases hr : dir = [slash]
    · rw [hr]
      rfl
    · rw [if_neg hr, if_neg (show ¬ dir = lit "/" from hr)]
  rw [handle_CWD, if_neg ha, if_neg hup, if_neg hroot, hstart]
  simp only [cwdWalk, hpop, walk_cons]
  by_cases hf : Found s dir first
  · have hloop := cwdLoop_eq dir (hs _ first List.mem_cons_self hf)
      (fun d p h => hs d p (List.mem_cons_of_mem _ h))
    rw [if_neg (show ¬ (get_object _ _ _ _).id = [] from hf)]
    simp only [hf, true_and]
    split
    · next hnone =>
      rw [hnone] at hloop
      rw [if_neg (fun hw => by simp [if_pos hw] at hloop)]
    · next object_path back hsome =>
      rw [hsome] at hloop
      by_cases hw : Walk joinPath (Found s) (joinPath dir first) rest
      · rw [if_pos hw] at hloop ⊢
        rw [← Option.some.inj hloop]
        rfl
      · simp [if_neg hw] at hloop
  · rw [if_pos (not_not.mp hf), if_neg (fun h => hf h.1)]

/-- Every part is a row of the user in the directory of the parts before it. -/
def AllFound (t : Table) (user_id : Bytes) (start parts : List Bytes) : Prop :=
  ∀ pre m rest, parts = pre ++ m :: rest → (get_object t user_id m (pathOf (start ++ pre))).id ≠ []

theorem AllFound.tail {t : Table} {u : Bytes} {start parts : List Bytes} {p : Bytes}
    (h : AllFound t u start (p :: parts)) : AllFound t u (start ++ [p]) parts := by
  intro pre m rest he
  have hp := h (p :: pre) m rest (by rw [he]; rfl)
  rwa [List.append_assoc]

/-- In a tree, the directories on the way to a row are rows. -/
theorem allFound_of_tree {t : Table} (ht : Tree t) {u : Bytes} {init : List Bytes} {n : Bytes}
    (hs : ∀ p ∈ init ++ [n], Segment p)
    (h : ∃ r ∈ t.rows, r.user_id = u ∧ r.name = n ∧ r.path = pathOf init) :
    AllFound t u [] (init ++ [n]) := by
  have last : ∀ {n : Bytes} {path : List Bytes},
      (∃ r ∈ t.rows, r.user_id = u ∧ r.name = n ∧ r.path = pathOf path) →
      (get_object t u n (pathOf ([] ++ path))).id ≠ [] :=
    fun h => (get_object_id_ne_nil_iff ht.generated).mpr h
  induction init using List.reverseRecOn generalizing n with
  | nil =>
    intro pre m rest he
    obtain rfl : pre = [] := by
      have hl := congrArg List.length he
      simp only [List.nil_append, List.length_append, List.length_cons, List.length_nil] at hl
      exact List.eq_nil_of_length_eq_zero (by omega)
    obtain ⟨rfl, -⟩ := List.cons.inj he
    exact last h
  | append_singleton init k ih =>
    intro pre m rest he
    rcases List.eq_nil_or_concat rest with rfl | ⟨rest, x, rfl⟩
    · obtain ⟨rfl, rfl⟩ := List.append_singleton_inj.mp he
      exact last h
    · rw [List.concat_eq_append, ← List.cons_append, ← List.append_assoc] at he
      obtain ⟨he, -⟩ := List.append_singleton_inj.mp he
      -- The directory of the row is the row of the part before.
      have hsk : ∀ p ∈ init ++ [k], Segment p := fun p hp => hs p (List.mem_append_left _ hp)
      obtain ⟨r, hr, hu, -, hp⟩ := h
      have hne : r.path ≠ [slash] := by
        rw [hp]
        exact mt (pathOf_eq_root hsk).mp (by simp)
      obtain ⟨q, hq, hqu, hqn, hqp, -⟩ := ht.parent r hr hne
      have hpath : r.path = argumentOf true (init ++ [k]) := hp
      rw [hpath, get_basename_argumentOf hsk] at hqn
      rw [hpath, get_parent_path_absolute hsk] at hqp
      exact ih hsk ⟨q, hq, hqu.trans hu, hqn, hqp⟩ pre m rest he

section
variable {s : Session} {start : List Bytes} {part : Bytes} {parts : List Bytes}

/-- In the tree, a walk over parts that are all found leads to their path. -/
theorem walk_of_allFound (hs : ∀ p ∈ start ++ parts, Segment p)
    (hf : AllFound s.m_fs_objects_table.table s.m_userid start parts) :
    Walk joinPath (Found s) (pathOf start) parts ∧
      parts.foldl joinPath (pathOf start) = pathOf (start ++ parts) := by
  induction parts generalizing start with
  | nil => exact ⟨walk_nil _ _ _, by rw [List.append_nil, List.foldl_nil]⟩
  | cons part parts ih =>
    have hstart : ∀ p ∈ start, Segment p := fun p hp => hs p (List.mem_append_left _ hp)
    have hs' : ∀ p ∈ (start ++ [part]) ++ parts, Segment p := by
      rwa [List.append_assoc]
    have hfirst := hf [] part parts rfl
    rw [List.append_nil] at hfirst
    obtain ⟨hw, hfold⟩ := ih hs' hf.tail
    rw [pathOf_snoc hstart] at hw hfold
    refine ⟨(walk_cons _ _ _ _ _).mpr ⟨hfirst, hw⟩, ?_⟩
    rw [List.foldl_cons, hfold, List.append_assoc]
    rfl

/-- CWD goes to the directory that it finds. -/
theorem handle_CWD_of_found {a : Bytes} (ha : a ≠ []) (hup : a ≠ lit "..") (hroot : a ≠ lit "/")
    (hstart : s.cwdStart a = (pathOf start, part :: parts))
    (hs : ∀ p ∈ start ++ part :: parts, Segment p)
    (hf : AllFound s.m_fs_objects_table.table s.m_userid start (part :: parts)) :
    s.handle_CWD a = { s with m_working_directory := pathOf (start ++ part :: parts) }.reply
      (lit "250 Changed working directory.") := by
  obtain ⟨hw, hfold⟩ := walk_of_allFound hs hf
  rw [handle_CWD_of_start ha hup hroot hstart
    (fun d p hp _ => hs p (List.mem_append_right _ hp)), if_pos hw, hfold]

end

section
variable {init : List Bytes} {n : Bytes} (hs : ∀ p ∈ init ++ [n], Segment p) (s : Session)
include hs

theorem cwdStart_absolute :
    s.cwdStart (argumentOf true (init ++ [n])) = (pathOf [], init ++ [n]) := by
  have hd : lit "/" = [slash] := rfl
  rw [cwdStart, if_pos absolute_head, hd, string_split_byte, if_neg (argumentOf_ne_nil hs true)]
  exact congrArg (Prod.mk _) (partsOf_pathOf (by simp) hs)

theorem cwdStart_relative :
    s.cwdStart (argumentOf false (init ++ [n])) = (s.m_working_directory, init ++ [n]) := by
  have hd : lit "/" = [slash] := rfl
  rw [cwdStart, if_neg (relative_head hs), hd, string_split_byte,
    if_neg (argumentOf_ne_nil hs false)]
  exact congrArg (Prod.mk _) (List.splitOn_intercalate slash (fun p hp => (hs p hp).2) (by simp))

end

/-! ## MKD and CWD -/

/-- The arguments that MKD and CWD read alike: a name other than "..", a relative path in the
root, and an absolute path that has not two parts. -/
def ReadAlike (wd : Bytes) (absolute : Bool) (parts : List Bytes) : Prop :=
  if absolute then parts.length ≠ 2
  else if parts.length = 1 then parts ≠ [lit ".."] else wd = [slash]

instance (wd : Bytes) (absolute : Bool) (parts : List Bytes) :
    Decidable (ReadAlike wd absolute parts) := inferInstanceAs (Decidable (ite ..))

/-- CWD with this argument goes to the directory of the row. -/
def Enters (env : Env) (s : Session) (a : Bytes) (r : Row) : Prop :=
  s.handle_command env (lit "CWD") a =
    { s with m_working_directory := joinPath r.path r.name }.reply
      (lit "250 Changed working directory.")

section
variable {env : Env} {s : Session} {a : Bytes}

theorem handle_command_of_logged_in (h : s.m_connection_stage = .LOGGED_IN) :
    s.handle_command env (lit "MKD") a = s.handle_MKD env a ∧
      s.handle_command env (lit "RMD") a = s.handle_RMD a ∧
      s.handle_command env (lit "DELE") a = s.handle_DELE a ∧
      s.handle_command env (lit "CWD") a = s.handle_CWD a := by
  refine ⟨?_, ?_, ?_, ?_⟩ <;> simp +decide [handle_command, handle_logged_in, h]

/-- MKD says that it made the directory: the session is logged in, and the checks passed. -/
theorem made_of_sent
    (h : (s.handle_command env (lit "MKD") a).sent =
      s.sent ++ [lit "250 Directory created." ++ crlf]) :
    s.m_connection_stage = .LOGGED_IN ∧ a ≠ [] ∧ Creatable s.m_fs_objects_table.table s.m_userid
      (s.object_of_MKD a).2 (s.object_of_MKD a).1 := by
  have hreply : ∀ {t : Session} {m : Bytes}, t.sent = s.sent →
      (t.reply m).sent = s.sent ++ [lit "250 Directory created." ++ crlf] →
      m ++ crlf = lit "250 Directory created." ++ crlf := by
    intro t m ht hm
    simpa [reply, control_send, control_receive, ht] using hm
  by_cases hl : s.m_connection_stage = .LOGGED_IN
  · rw [(handle_command_of_logged_in hl).1] at h
    unfold handle_MKD at h
    by_cases ha : a = []
    · rw [if_pos ha] at h
      exact absurd (hreply rfl h) (by decide)
    refine ⟨hl, ha, ?_⟩
    by_contra hc
    rw [if_neg ha] at h
    simp only at h
    rw [create_object_of_not hc] at h
    exact absurd (hreply (m := lit "250 Failed.") rfl h) (by decide)
  · have hrefused : s.handle_command env (lit "MKD") a = s.reply (lit "530 Not logged in.") := by
      simp +decide [handle_command, hl]
    rw [hrefused] at h
    exact absurd (hreply rfl h) (by decide)

/-- The row of MKD. -/
def rowOfMKD (env : Env) (s : Session) (a : Bytes) : Row :=
  newRow env.uuid env.now s.m_userid (s.object_of_MKD a).2 (s.object_of_MKD a).1 0 true

/-- The session after a MKD that passes its checks. -/
theorem handle_MKD_of_creatable (ha : a ≠ []) (hc : Creatable s.m_fs_objects_table.table s.m_userid
    (s.object_of_MKD a).2 (s.object_of_MKD a).1) :
    s.handle_MKD env a = { s with
      m_fs_objects_table := { s.m_fs_objects_table with
        table := s.m_fs_objects_table.table.insert (rowOfMKD env s a) } }.reply
      (lit "250 Directory created.") := by
  unfold handle_MKD
  rw [if_neg ha]
  simp only
  rw [create_object_of hc, if_neg env.uuid.ne_nil]
  rfl

theorem AllFound.drop {t : Table} {u : Bytes} {start parts : List Bytes}
    (h : AllFound t u [] (start ++ parts)) : AllFound t u start parts := by
  intro pre m rest he
  exact h (start ++ pre) m rest (by rw [he, List.append_assoc])

/-- CWD enters a directory of the tree, if it walks to its place. -/
theorem enters_of_tree {start init : List Bytes} {n : Bytes} {r : Row}
    (hl : s.m_connection_stage = .LOGGED_IN) (ht : Tree s.m_fs_objects_table.table)
    (hs : ∀ p ∈ start ++ (init ++ [n]), Segment p) (hr : r ∈ s.m_fs_objects_table.table.rows)
    (hu : r.user_id = s.m_userid) (hn : r.name = n) (hp : r.path = pathOf (start ++ init))
    (hstart : s.cwdStart a = (pathOf start, init ++ [n]))
    (ha : a ≠ [] ∧ a ≠ lit ".." ∧ a ≠ lit "/") : Enters env s a r := by
  have hs' : ∀ p ∈ (start ++ init) ++ [n], Segment p := by rwa [List.append_assoc]
  have hfound := allFound_of_tree ht hs' ⟨r, hr, hu, hn, hp⟩
  rw [List.append_assoc] at hfound
  have hjoin : pathOf (start ++ (init ++ [n])) = joinPath r.path r.name := by
    rw [← List.append_assoc, hp, hn, pathOf_snoc (segments_init hs')]
  obtain ⟨part, parts, hparts⟩ : ∃ part parts, init ++ [n] = part :: parts :=
    List.exists_cons_of_ne_nil (by simp)
  rw [Enters, (handle_command_of_logged_in hl).2.2.2]
  rw [hparts] at hstart hs hfound hjoin
  rw [handle_CWD_of_found ha.1 ha.2.1 ha.2.2 hstart hs hfound.drop, hjoin]

variable (ht : Tree s.m_fs_objects_table.table)
  (hfresh : ∀ r ∈ s.m_fs_objects_table.table.rows, r.object_id ≠ env.uuid.val)
include ht hfresh

/-- Where the user is the only one, a create that passes its checks inserts its row. -/
theorem no_conflict
    (hsingle : ∀ r ∈ s.m_fs_objects_table.table.rows, r.user_id = s.m_userid) {n p : Bytes}
    (hc : Creatable s.m_fs_objects_table.table s.m_userid n p) :
    ¬ s.m_fs_objects_table.table.Conflicts (newRow env.uuid env.now s.m_userid n p 0 true) := by
  rintro ⟨x, hx, hid | ⟨hn, hp⟩⟩
  · exact hfresh x hx hid
  · exact (get_object_id_ne_nil_iff ht.generated).mpr ⟨x, hx, hsingle x hx, hn, hp⟩ hc.2

end

/-- An absolute path with more than two parts passes no check of MKD: the directory that it looks
for has a second slash. -/
theorem not_creatable_of_absolute {s : Session} {init : List Bytes} {n : Bytes}
    (ht : Tree s.m_fs_objects_table.table) (hs : ∀ p ∈ init ++ [n], Segment p)
    (hlen : 2 ≤ init.length) : ¬ Creatable s.m_fs_objects_table.table s.m_userid
      (s.object_of_MKD (argumentOf true (init ++ [n]))).2
      (s.object_of_MKD (argumentOf true (init ++ [n]))).1 := by
  obtain ⟨pre, k, rfl⟩ := (List.eq_nil_or_concat init).resolve_left (by
    rintro rfl
    simp at hlen)
  rw [List.concat_eq_append] at hs hlen ⊢
  have hsi := segments_init hs
  have hpre : pre ≠ [] := by
    rintro rfl
    simp at hlen
  rw [object_of_MKD_absolute hs, if_neg (by simp)]
  intro hc
  obtain ⟨q, hq, -, -, hqp, -⟩ := exists_of_get_object (hc.1 (by
    obtain ⟨rest, h⟩ := pathOf_head (pre ++ [k])
    simp [h])).1
  have hdoubled : get_parent_path (slash :: pathOf (pre ++ [k])) = slash :: pathOf pre :=
    (get_parent_path_doubled hsi).trans (if_neg hpre)
  obtain ⟨rest, hrest⟩ := pathOf_head pre
  rw [hdoubled, hrest] at hqp
  exact (ht.canonical q hq).no_double ⟨rest, hqp.symm⟩

/-- CWD of the second argument walks to the place where MKD of the first one makes its row. -/
def SamePlace (s : Session) (a b : Bytes) : Prop :=
  ∃ start init n, s.object_of_MKD a = (pathOf (start ++ init), n) ∧
    (∀ p ∈ start ++ (init ++ [n]), Segment p) ∧ s.cwdStart b = (pathOf start, init ++ [n]) ∧
    b ≠ [] ∧ b ≠ lit ".." ∧ b ≠ lit "/"

section
variable {s : Session} {init : List Bytes} {n : Bytes} (hs : ∀ p ∈ init ++ [n], Segment p)
include hs

theorem samePlace_name (hw : Canonical s.m_working_directory) (hinit : init = [])
    (hup : n ≠ lit "..") :
    SamePlace s (argumentOf false (init ++ [n])) (argumentOf false (init ++ [n])) := by
  subst hinit
  obtain ⟨start, hsegs, hpath⟩ := hw
  have hpair := object_of_MKD_relative hs s
  have hstart := cwdStart_relative hs s
  rw [if_pos rfl, hpath] at hpair
  rw [hpath] at hstart
  refine ⟨start, [], n, ?_, ?_, hstart, argumentOf_ne_nil hs false, ?_, argumentOf_ne_root hs false⟩
  · rw [List.append_nil]
    exact hpair
  · intro p hp
    exact (List.mem_append.mp hp).elim (hsegs p) (hs p)
  · rw [List.nil_append, relative_single]
    exact hup

theorem samePlace_relative (hroot : s.m_working_directory = [slash]) (hinit : init ≠ []) :
    SamePlace s (argumentOf false (init ++ [n])) (argumentOf false (init ++ [n])) := by
  have hpair := object_of_MKD_relative hs s
  have hstart := cwdStart_relative hs s
  rw [if_neg hinit] at hpair
  rw [hroot] at hstart
  exact ⟨[], init, n, hpair, hs, hstart, argumentOf_ne_nil hs false, relative_ne_up hinit n,
    argumentOf_ne_root hs false⟩

theorem samePlace_absolute (hinit : init = []) :
    SamePlace s (argumentOf true (init ++ [n])) (argumentOf true (init ++ [n])) := by
  subst hinit
  exact ⟨[], [], n, object_of_MKD_absolute hs s, hs, cwdStart_absolute hs s,
    argumentOf_ne_nil hs true, absolute_ne_up, argumentOf_ne_root hs true⟩

/-- MKD reads a relative path of several parts as CWD reads the absolute one. -/
theorem samePlace_slash (hinit : init ≠ []) :
    SamePlace s (argumentOf false (init ++ [n])) (argumentOf true (init ++ [n])) := by
  have hpair := object_of_MKD_relative hs s
  rw [if_neg hinit] at hpair
  exact ⟨[], init, n, hpair, hs, cwdStart_absolute hs s, argumentOf_ne_nil hs true,
    absolute_ne_up, argumentOf_ne_root hs true⟩

theorem samePlace_of_readAlike {absolute : Bool} (hw : Canonical s.m_working_directory)
    (ht : Tree s.m_fs_objects_table.table)
    (hc : Creatable s.m_fs_objects_table.table s.m_userid
      (s.object_of_MKD (argumentOf absolute (init ++ [n]))).2
      (s.object_of_MKD (argumentOf absolute (init ++ [n]))).1)
    (hread : ReadAlike s.m_working_directory absolute (init ++ [n])) :
    SamePlace s (argumentOf absolute (init ++ [n])) (argumentOf absolute (init ++ [n])) := by
  cases absolute with
  | true =>
    by_cases hinit : init = []
    · exact samePlace_absolute hs hinit
    · have h1 := List.length_pos_iff.mpr hinit
      have h2 : (init ++ [n]).length ≠ 2 := hread
      rw [List.length_append, List.length_singleton] at h2
      exact absurd hc (not_creatable_of_absolute ht hs (by omega))
  | false =>
    by_cases hinit : init = []
    · refine samePlace_name hs hw hinit ?_
      rintro rfl
      subst hinit
      exact hread rfl
    · have h1 : (init ++ [n]).length ≠ 1 := by simpa using hinit
      rw [ReadAlike, if_neg (by simp), if_neg h1] at hread
      exact samePlace_relative hs hread hinit

end

/-- CWD enters the directory of MKD, if it walks to its place. -/
theorem enters_made {env later : Env} {s : Session} {a b : Bytes}
    (hl : s.m_connection_stage = .LOGGED_IN) (ht : Tree s.m_fs_objects_table.table)
    (hc : Creatable s.m_fs_objects_table.table s.m_userid (s.object_of_MKD a).2
      (s.object_of_MKD a).1) {t : Session}
    (ht' : t = { s with
      m_fs_objects_table := { s.m_fs_objects_table with
        table := s.m_fs_objects_table.table.insert (rowOfMKD env s a) } }.reply
      (lit "250 Directory created."))
    (hmem : rowOfMKD env s a ∈ t.m_fs_objects_table.table.rows) (h : SamePlace s a b) :
    Enters later t b (rowOfMKD env s a) := by
  obtain ⟨start, init, n, hpair, hseg, hstart, hb⟩ := h
  have hseg' : ∀ p ∈ (start ++ init) ++ [n], Segment p := by rwa [List.append_assoc]
  have htree := tree_apply ht (o := .create_object env.uuid env.now s.m_userid
    (s.object_of_MKD a).2 (s.object_of_MKD a).1 0 true)
    (by rw [hpair]; exact ⟨canonical_init hseg', segment_last hseg'⟩) trivial
  have htable : Tree (s.m_fs_objects_table.table.insert (rowOfMKD env s a)) :=
    (congrArg (fun c : Store × Bytes => tree.Tree c.1.table)
      (create_object_of hc env.uuid env.now 0 true)).mp htree
  refine enters_of_tree ?_ ?_ hseg hmem ?_ (congrArg Prod.snd hpair) (congrArg Prod.fst hpair)
    ?_ hb
  · rw [ht']
    exact hl
  · rw [ht']
    exact htable
  · rw [ht']
    rfl
  · rw [ht']
    exact hstart

/-- For a single user with a tree, any canonical directory and any argument of one or more parts:
the directory that MKD made is the one that CWD enters next, for the arguments that both read
alike. A relative path that MKD read from the root, CWD enters as the absolute path. -/
theorem CWD_enters_the_directory_that_MKD_made (env later : Env) (s : Session) (absolute : Bool)
    (parts : List Bytes) (hw : Canonical s.m_working_directory)
    (ht : Tree s.m_fs_objects_table.table)
    (hsingle : ∀ r ∈ s.m_fs_objects_table.table.rows, r.user_id = s.m_userid)
    (hfresh : ∀ r ∈ s.m_fs_objects_table.table.rows, r.object_id ≠ env.uuid.val)
    (hne : parts ≠ []) (hs : ∀ p ∈ parts, Segment p)
    (hmade : (s.handle_command env (lit "MKD") (argumentOf absolute parts)).sent =
      s.sent ++ [lit "250 Directory created." ++ crlf]) :
    let t := s.handle_command env (lit "MKD") (argumentOf absolute parts)
    ∃ r ∈ t.m_fs_objects_table.table.rows, r.object_id = env.uuid.val ∧
      (ReadAlike s.m_working_directory absolute parts →
        Enters later t (argumentOf absolute parts) r) ∧
      (absolute = false → parts.length ≠ 1 → Enters later t (argumentOf true parts) r) := by
  obtain ⟨init, n, rfl⟩ := (List.eq_nil_or_concat parts).resolve_left hne
  rw [List.concat_eq_append] at hs hmade ⊢
  intro t
  obtain ⟨hl, ha, hc⟩ := made_of_sent hmade
  have ht' : t = _ := (handle_command_of_logged_in hl).1.trans (handle_MKD_of_creatable ha hc)
  have hmem : rowOfMKD env s (argumentOf absolute (init ++ [n])) ∈
      t.m_fs_objects_table.table.rows := by
    rw [ht']
    exact mem_insert.mpr (Or.inr ⟨rfl, no_conflict ht hfresh hsingle hc⟩)
  refine ⟨_, hmem, rfl, fun hread => ?_, ?_⟩
  · exact enters_made hl ht hc ht' hmem (samePlace_of_readAlike hs hw ht hc hread)
  · rintro rfl hlen
    have hinit : init ≠ [] := by
      rintro rfl
      simp at hlen
    exact enters_made hl ht hc ht' hmem (samePlace_slash hs hinit)

/-- The directories "/a", "/w" and "/w/a" of one user. -/
def directories : Store :=
  after Store.empty
    [.create_object (.ofRand 1) [] (lit "u") (lit "a") (lit "/") 0 true,
      .create_object (.ofRand 2) [] (lit "u") (lit "w") (lit "/") 0 true,
      .create_object (.ofRand 3) [] (lit "u") (lit "a") (lit "/w") 0 true]

theorem tree_directories : Tree directories.table := by
  refine tree_after tree_empty (fun o ho => ?_)
  simp only [List.mem_cons, List.not_mem_nil, or_false] at ho
  rcases ho with rfl | rfl | rfl <;> exact ⟨by decide, fun _ => trivial⟩

/-- The user of the directories. -/
def userIn (wd : String) : Session :=
  { inDirectory wd with m_userid := lit "u", m_fs_objects_table := directories }

/-- The law at a relative path with two parts in the root. -/
theorem CWD_enters_a_directory_of_two_parts :
    let t := (userIn "/").handle_command (Env.working 4) (lit "MKD") (lit "a/n")
    ∃ r ∈ t.m_fs_objects_table.table.rows, r.object_id = (Env.working 4).uuid.val ∧
      (ReadAlike (lit "/") false [lit "a", lit "n"] → Enters (Env.working 0) t (lit "a/n") r) ∧
      (false = false → [lit "a", lit "n"].length ≠ 1 →
        Enters (Env.working 0) t (argumentOf true [lit "a", lit "n"]) r) :=
  CWD_enters_the_directory_that_MKD_made (Env.working 4) (Env.working 0) (userIn "/") false
    [lit "a", lit "n"] (by decide) tree_directories (by decide) (by decide) (by decide) (by decide)
    (by decide)

/-- MKD "a/n" in "/w" makes "/a/n", and CWD "a/n" looks for "/w/a". -/
theorem CWD_does_not_find_the_directory_of_MKD :
    Canonical (userIn "/w").m_working_directory ∧ Tree (userIn "/w").m_fs_objects_table.table ∧
      (∀ r ∈ (userIn "/w").m_fs_objects_table.table.rows, r.user_id = (userIn "/w").m_userid) ∧
      lit "a/n" = argumentOf false [lit "a", lit "n"] ∧
      let t := (userIn "/w").handle_command (Env.working 4) (lit "MKD") (lit "a/n")
      t.sent = (userIn "/w").sent ++ [lit "250 Directory created." ++ crlf] ∧
        (t.handle_command (Env.working 0) (lit "CWD") (lit "a/n")).sent ≠
          t.sent ++ [lit "250 Changed working directory." ++ crlf] := by
  refine ⟨by decide, tree_directories, by decide, by decide, ?_⟩
  decide

/-! ## MKD and RMD, STOR and DELE -/

theorem not_mem_of_removed {st : Store} (hg : Generated st.table) {r : Row}
    (hr : r ∈ st.table.rows) :
    r ∉ (remove_fs_object st r.user_id r.name r.path).1.table.rows := by
  intro h
  refine (mem_remove_fs_object.mp h).2 ⟨?_, Or.inl ?_⟩
  · rw [get_object_of_mem hr]
    exact hg.id_ne_nil hr
  · rw [get_object_of_mem hr]
    exact (hg.id_eq hr).symm

/-- A row with this id has this user, name and path. -/
def Keyed (t : Table) (id user_id name path : Bytes) : Prop :=
  ∀ r ∈ t.rows, r.object_id = id → r.user_id = user_id ∧ r.name = name ∧ r.path = path

section
variable {env : Env} {s t : Session} {u n p : Bytes}

/-- A create of the id is the only call that can make such a row. -/
theorem keyed_applied {st : Store} {id : Bytes} (h : Keyed st.table id u n p) {o : Option Op}
    (ho : ∀ uuid now u' n' p' size d, o = some (.create_object uuid now u' n' p' size d) →
      u' = u ∧ n' = n ∧ p' = p) : Keyed (applied st o).table id u n p := by
  intro x hx hid
  cases o with
  | none => exact h x hx hid
  | some o =>
    rcases mem_apply hx with ⟨r, hr, s, m, rfl⟩ | ⟨uuid, now, u', n', p', size, d, rfl, rfl, -⟩
    · exact h r hr hid
    · exact ho uuid now u' n' p' size d rfl

/-- An upload keeps who is logged in and where, and makes rows of its object only. -/
structure Uploading (env : Env) (s : Session) (t : Session) : Prop where
  stage : t.m_connection_stage = s.m_connection_stage
  userid : t.m_userid = s.m_userid
  directory : t.m_working_directory = s.m_working_directory
  generated : Generated t.m_fs_objects_table.table
  keyed : Keyed t.m_fs_objects_table.table env.uuid.val s.m_userid
    (get_basename s.m_pending_write_file) (get_parent_path s.m_pending_write_file)

theorem uploading_begin (hg : Generated s.m_fs_objects_table.table)
    (hfresh : ∀ r ∈ s.m_fs_objects_table.table.rows, r.object_id ≠ env.uuid.val) :
    Uploading env s (s.data_receive_file env) := by
  have hfront := s.front_data_receive_file env
  have htable : (s.data_receive_file env).m_fs_objects_table.table = _ :=
    congrArg Held.table (held_of_kept (s.kept_data_receive_file env))
  refine ⟨congrArg Front.stage hfront, congrArg Front.userid hfront,
    congrArg Front.working_directory hfront, ?_, ?_⟩
  · rw [htable]
    exact generated_applied hg _
  · rw [htable]
    refine keyed_applied (fun r hr hid => absurd hid (hfresh r hr)) ?_
    intro uuid now u' n' p' size d ho
    simp only [callOfUpload, Option.ite_none_right_eq_some, Option.some.injEq,
      Op.create_object.injEq] at ho
    obtain ⟨-, -, -, rfl, rfl, rfl, -⟩ := ho
    exact ⟨rfl, rfl, rfl⟩

theorem uploading_receive (h : Uploading env s t) (env' : Env) (ec : ErrorCode) (chunk : Bytes) :
    Uploading env s (uploads.receive env' ec t chunk) := by
  let filled := uploads.filled t chunk
  have hfront := filled.front_handle_data_async_receive_callback env' ec chunk.length
  have htable := filled.table_handle_data_async_receive_callback env' ec chunk.length
  have hkeep : ∀ {β : Type} (f : Front → β), (∀ c m, f (Front.say c m) = f c) →
      f (uploads.receive env' ec t chunk).front = f t.front := by
    intro β f hf
    refine (congrArg f hfront).trans ?_
    split
    · exact hf _ _
    · rfl
  refine ⟨(hkeep Front.stage fun _ _ => rfl).trans h.stage,
    (hkeep Front.userid fun _ _ => rfl).trans h.userid,
    (hkeep Front.working_directory fun _ _ => rfl).trans h.directory, ?_, ?_⟩
  · exact htable.symm ▸ generated_applied h.generated _
  · refine htable.symm ▸ keyed_applied h.keyed ?_
    intro uuid now u' n' p' size d ho
    split at ho
    · simp [callOfEnd] at ho
    · cases ho

end

/-- The session after STOR set its file, the data connection was there, and so many reads of it
ended. -/
def uploadOf (env : Env) (s : Session) (a : Bytes) (reads : List (Env × ErrorCode × Bytes)) :
    Session :=
  reads.foldl (fun t r => uploads.receive r.1 r.2.1 t r.2.2)
    ((s.set_pending_write a).data_receive_file env)

theorem uploading_uploadOf {env : Env} {s : Session} (hg : Generated s.m_fs_objects_table.table)
    (hfresh : ∀ r ∈ s.m_fs_objects_table.table.rows, r.object_id ≠ env.uuid.val) (a : Bytes)
    (reads : List (Env × ErrorCode × Bytes)) :
    Uploading env (s.set_pending_write a) (uploadOf env s a reads) := by
  have hbegin : Uploading env (s.set_pending_write a)
      ((s.set_pending_write a).data_receive_file env) := uploading_begin hg hfresh
  unfold uploadOf
  induction reads using List.reverseRecOn with
  | nil => exact hbegin
  | append_singleton reads r ih =>
    rw [List.foldl_append]
    exact uploading_receive ih r.1 r.2.1 r.2.2

/-- RMD reads an argument as MKD does, but for an absolute path of two parts. -/
theorem object_of_RMD_eq_MKD {s : Session} {absolute : Bool} {init : List Bytes} {n : Bytes}
    (hs : ∀ p ∈ init ++ [n], Segment p) (ht : Tree s.m_fs_objects_table.table)
    (hc : Creatable s.m_fs_objects_table.table s.m_userid
      (s.object_of_MKD (argumentOf absolute (init ++ [n]))).2
      (s.object_of_MKD (argumentOf absolute (init ++ [n]))).1)
    (hlen : absolute = true → (init ++ [n]).length ≠ 2) :
    s.object_of_RMD (argumentOf absolute (init ++ [n])) =
      s.object_of_MKD (argumentOf absolute (init ++ [n])) := by
  cases absolute with
  | false => exact object_of_RMD_relative hs s
  | true =>
    by_cases hinit : init = []
    · subst hinit
      rw [object_of_RMD_absolute hs, object_of_MKD_absolute hs]
      rfl
    · have h1 := List.length_pos_iff.mpr hinit
      have h2 := hlen rfl
      rw [List.length_append, List.length_singleton] at h2
      exact absurd hc (not_creatable_of_absolute ht hs (by omega))

section
variable {env later : Env} {s : Session} {absolute : Bool} {init : List Bytes} {n : Bytes}
  (hl : s.m_connection_stage = .LOGGED_IN) (ht : Tree s.m_fs_objects_table.table)
  (hfresh : ∀ r ∈ s.m_fs_objects_table.table.rows, r.object_id ≠ env.uuid.val)
  (hs : ∀ p ∈ init ++ [n], Segment p)
include hl ht hfresh hs

theorem RMD_removes (hlen : absolute = true → (init ++ [n]).length ≠ 2) {r : Row}
    (hr : r ∈ (s.handle_command env (lit "MKD")
      (argumentOf absolute (init ++ [n]))).m_fs_objects_table.table.rows)
    (hid : r.object_id = env.uuid.val) :
    r ∉ ((s.handle_command env (lit "MKD") (argumentOf absolute (init ++ [n]))).handle_command
      later (lit "RMD") (argumentOf absolute (init ++ [n]))).m_fs_objects_table.table.rows := by
  have ha := argumentOf_ne_nil hs absolute
  have hmkd : s.handle_command env (lit "MKD") (argumentOf absolute (init ++ [n])) =
      s.handle_MKD env (argumentOf absolute (init ++ [n])) := (handle_command_of_logged_in hl).1
  rw [hmkd] at hr ⊢
  let t := s.handle_MKD env (argumentOf absolute (init ++ [n]))
  let o : Op := .create_object env.uuid env.now s.m_userid
    (s.object_of_MKD (argumentOf absolute (init ++ [n]))).2
    (s.object_of_MKD (argumentOf absolute (init ++ [n]))).1 0 true
  have hsame : t.m_fs_objects_table = apply s.m_fs_objects_table o ∧
      t.m_userid = s.m_userid ∧ t.m_connection_stage = s.m_connection_stage ∧
      t.m_working_directory = s.m_working_directory := by
    unfold t handle_MKD
    rw [if_neg ha]
    exact ⟨rfl, rfl, rfl, rfl⟩
  obtain ⟨hstore, huser, hstage, hdir⟩ := hsame
  rw [(handle_command_of_logged_in (hstage.trans hl)).2.1, handle_RMD, removeObject, if_neg ha]
  have hmem : r ∈ (apply s.m_fs_objects_table o).table.rows := hstore ▸ hr
  rcases mem_apply hmem with ⟨x, hx, z, m, rfl⟩ | ⟨uuid, now, u, n', p, size, d, ho, rfl, hi, -⟩
  · exact absurd hid (hfresh x hx)
  · obtain ⟨rfl, rfl, rfl, rfl, rfl, rfl, rfl⟩ := Op.create_object.inj ho
    have hplace : t.object_of_RMD (argumentOf absolute (init ++ [n])) =
        s.object_of_MKD (argumentOf absolute (init ++ [n])) := by
      rw [← object_of_RMD_eq_MKD hs ht hi hlen]
      unfold object_of_RMD
      rw [hdir]
    rw [hplace, huser]
    exact not_mem_of_removed (hstore ▸ generated_apply ht.generated o) hr

theorem DELE_removes (hw : Canonical s.m_working_directory)
    (hone : init = [] ∨ absolute = false ∧ s.m_working_directory = [slash])
    (reads : List (Env × ErrorCode × Bytes)) {r : Row}
    (hr : r ∈ (uploadOf env s
      (argumentOf absolute (init ++ [n])) reads).m_fs_objects_table.table.rows)
    (hid : r.object_id = env.uuid.val) :
    r ∉ ((uploadOf env s (argumentOf absolute (init ++ [n])) reads).handle_command later
      (lit "DELE") (argumentOf absolute (init ++ [n]))).m_fs_objects_table.table.rows := by
  let t := uploadOf env s (argumentOf absolute (init ++ [n])) reads
  have hup : Uploading env (s.set_pending_write (argumentOf absolute (init ++ [n]))) t :=
    uploading_uploadOf ht.generated hfresh _ reads
  obtain ⟨hu, hn, hp⟩ := hup.keyed r hr hid
  have hplace : t.object_of_MKD (argumentOf absolute (init ++ [n])) = (r.path, r.name) := by
    have hdir : t.m_working_directory = s.m_working_directory := hup.directory
    have hmkd : t.object_of_MKD (argumentOf absolute (init ++ [n])) =
        s.object_of_MKD (argumentOf absolute (init ++ [n])) := by
      unfold object_of_MKD
      rw [hdir]
    rw [hmkd, ← object_of_STOR_eq_MKD hs s hw hone, hn, hp]
    rfl
  rw [(handle_command_of_logged_in (hup.stage.trans hl)).2.2.1, handle_DELE, removeObject,
    if_neg (argumentOf_ne_nil hs absolute), hplace]
  have huser : t.m_userid = r.user_id := hup.userid.trans hu.symm
  exact huser ▸ not_mem_of_removed hup.generated hr

end

/-- For a tree, any canonical directory and any argument of one or more parts: RMD removes the
directory that MKD made, but for an absolute path of two parts, and DELE removes the file that
STOR uploaded, if the argument is one part or is relative to the root. -/
theorem RMD_and_DELE_remove_what_was_made (env later : Env) (s : Session) (absolute : Bool)
    (parts : List Bytes) (hl : s.m_connection_stage = .LOGGED_IN)
    (hw : Canonical s.m_working_directory) (ht : Tree s.m_fs_objects_table.table)
    (hfresh : ∀ r ∈ s.m_fs_objects_table.table.rows, r.object_id ≠ env.uuid.val)
    (hne : parts ≠ []) (hs : ∀ p ∈ parts, Segment p) :
    ((absolute = true → parts.length ≠ 2) →
      let t := s.handle_command env (lit "MKD") (argumentOf absolute parts)
      ∀ r ∈ t.m_fs_objects_table.table.rows, r.object_id = env.uuid.val →
        r ∉ (t.handle_command later (lit "RMD")
          (argumentOf absolute parts)).m_fs_objects_table.table.rows) ∧
    (parts.length = 1 ∨ absolute = false ∧ s.m_working_directory = [slash] →
      ∀ reads, let t := uploadOf env s (argumentOf absolute parts) reads
      ∀ r ∈ t.m_fs_objects_table.table.rows, r.object_id = env.uuid.val →
        r ∉ (t.handle_command later (lit "DELE")
          (argumentOf absolute parts)).m_fs_objects_table.table.rows) := by
  obtain ⟨init, n, rfl⟩ := (List.eq_nil_or_concat parts).resolve_left hne
  rw [List.concat_eq_append] at hs ⊢
  constructor
  · intro hlen t r hr hid
    exact RMD_removes hl ht hfresh hs hlen hr hid
  · intro hone reads t r hr hid
    have hone' : init = [] ∨ absolute = false ∧ s.m_working_directory = [slash] := by
      refine hone.imp_left fun h => ?_
      simpa using h
    exact DELE_removes hl ht hfresh hs hw hone' reads hr hid

/-- The law at a relative path with two parts in the root. -/
theorem RMD_and_DELE_remove_a_path_of_two_parts :
    ((false = true → [lit "a", lit "n"].length ≠ 2) →
      let t := (userIn "/").handle_command (Env.working 4) (lit "MKD") (lit "a/n")
      ∀ r ∈ t.m_fs_objects_table.table.rows, r.object_id = (Env.working 4).uuid.val →
        r ∉ (t.handle_command (Env.working 0) (lit "RMD")
          (lit "a/n")).m_fs_objects_table.table.rows) ∧
    ([lit "a", lit "n"].length = 1 ∨ false = false ∧ lit "/" = [slash] →
      ∀ reads, let t := uploadOf (Env.working 4) (userIn "/") (lit "a/n") reads
      ∀ r ∈ t.m_fs_objects_table.table.rows, r.object_id = (Env.working 4).uuid.val →
        r ∉ (t.handle_command (Env.working 0) (lit "DELE")
          (lit "a/n")).m_fs_objects_table.table.rows) :=
  RMD_and_DELE_remove_what_was_made (Env.working 4) (Env.working 0) (userIn "/") false
    [lit "a", lit "n"] rfl (by decide) tree_directories (by decide) (by decide) (by decide)

/-- STOR "a/n" in "/w" uploads to "/w/a", and DELE "a/n" looks in "/a". -/
theorem DELE_does_not_find_the_file_of_STOR :
    Canonical (userIn "/w").m_working_directory ∧ Tree (userIn "/w").m_fs_objects_table.table ∧
      (∀ r ∈ (userIn "/w").m_fs_objects_table.table.rows, r.user_id = (userIn "/w").m_userid) ∧
      lit "a/n" = argumentOf false [lit "a", lit "n"] ∧
      let t := uploadOf (Env.working 4) (userIn "/w") (lit "a/n") [(Env.working 0, .eof, lit "x")]
      ∃ r ∈ t.m_fs_objects_table.table.rows, r.object_id = (Env.working 4).uuid.val ∧
        r ∈ (t.handle_command (Env.working 0) (lit "DELE")
          (lit "a/n")).m_fs_objects_table.table.rows := by
  refine ⟨by decide, tree_directories, by decide, by decide, ?_⟩
  decide

end asio_ftp.addresses
