-- What MKD, RMD and DELE tell and do: each of them says 250 whatever came of it, and RMD and DELE
-- remove an object of either kind.
import AsioFtp.Addresses

namespace asio_ftp.answers

open sqlite_wrapper fs_objects tree addresses base_session base_session.Session

/-- The objects of a session. -/
abbrev rows (s : Session) : List Row := s.m_fs_objects_table.table.rows

/-- The row of the path and the name that a command takes from its argument. -/
def IsObject (s : Session) (object : Bytes × Bytes) (r : Row) : Prop :=
  r.user_id = s.m_userid ∧ r.name = object.2 ∧ r.path = object.1

instance (s : Session) (object : Bytes × Bytes) (r : Row) : Decidable (IsObject s object r) :=
  inferInstanceAs (Decidable (_ ∧ _))

/-- The command is refused before it looks at the table. -/
def Refused (s : Session) (a : Bytes) : Prop := s.m_connection_stage ≠ .LOGGED_IN ∨ a = []

/-! ## The replies -/

/-- A 2xx reply. -/
def Positive (message : Bytes) : Prop := message.head? = some 50

/-- A 4xx or 5xx reply. -/
def Negative (message : Bytes) : Prop := message.head? = some 52 ∨ message.head? = some 53

instance (message : Bytes) : Decidable (Positive message) :=
  inferInstanceAs (Decidable (message.head? = _))

instance (message : Bytes) : Decidable (Negative message) :=
  inferInstanceAs (Decidable (_ ∨ _))

theorem Negative.not_positive {m : Bytes} (h : Negative m) : ¬ Positive m := by
  intro hp
  unfold Positive at hp
  rcases h with h | h
  · rw [hp] at h
    exact absurd h (by decide)
  · rw [hp] at h
    exact absurd h (by decide)

/-- The command sends one reply, which is 2xx exactly when the command did its work. If it did not,
the reply is 4xx or 5xx and the table is as it was. -/
def AnswersTruly (s t : Session) (did : Prop) : Prop :=
  ∃ message, t.sent = s.sent ++ [message] ∧ (Positive message ↔ did) ∧
    (¬ did → Negative message ∧ t.m_fs_objects_table.table = s.m_fs_objects_table.table)

/-- A new directory of the user is in the table. -/
def Made (s t : Session) : Prop :=
  ∃ r, r.is_directory = true ∧ r.user_id = s.m_userid ∧ rows t = rows s ++ [r]

/-- The object was in the table, and is there no more. -/
def Removed (s t : Session) (object : Bytes × Bytes) : Prop :=
  ∃ r ∈ rows s, IsObject s object r ∧ r ∉ rows t

instance (s t : Session) (object : Bytes × Bytes) : Decidable (Removed s t object) :=
  inferInstanceAs (Decidable (∃ r ∈ rows s, _))

section
variable {s t : Session} {m : Bytes} {did : Prop}

theorem not_made_of_same_rows (h : rows t = rows s) : ¬ Made s t := by
  rintro ⟨r, -, -, hr⟩
  rw [h] at hr
  simpa using congrArg List.length hr

theorem not_removed_of_same_rows (h : rows t = rows s) (object : Bytes × Bytes) :
    ¬ Removed s t object := by
  rintro ⟨r, hr, -, hgone⟩
  exact hgone (h ▸ hr)

/-- A refusal that changes nothing is true when nothing was done. -/
theorem answersTruly_of_refusal (hm : Negative (m ++ crlf)) (hdid : ¬ did) :
    AnswersTruly s (s.reply m) did :=
  ⟨m ++ crlf, rfl, iff_of_false hm.not_positive hdid, fun _ => ⟨hm, rfl⟩⟩

/-- A 2xx reply is true exactly when the work was done. -/
theorem answersTruly_of_success (hsent : t.sent = s.sent ++ [m ++ crlf])
    (hm : Positive (m ++ crlf)) : AnswersTruly s t did ↔ did := by
  constructor
  · rintro ⟨message, hmessage, hiff, -⟩
    rw [hsent] at hmessage
    obtain rfl : m ++ crlf = message := by simpa using List.append_cancel_left hmessage
    exact hiff.mp hm
  · intro hdid
    exact ⟨m ++ crlf, hsent, iff_of_true hm hdid, fun hno => absurd hdid hno⟩

end

/-! ## The three commands -/

section
variable {env : Env} {s : Session} {a : Bytes}

/-- Before the login, and without an argument, the three commands only reply. -/
theorem reply_of_refused (h : Refused s a) : ∃ m, Negative (m ++ crlf) ∧
    s.handle_command env (lit "MKD") a = s.reply m ∧
    s.handle_command env (lit "RMD") a = s.reply m ∧
    s.handle_command env (lit "DELE") a = s.reply m := by
  by_cases hl : s.m_connection_stage = .LOGGED_IN
  · obtain ⟨hmkd, hrmd, hdele, -⟩ := @handle_command_of_logged_in env s a hl
    have ha : a = [] := h.resolve_left (not_not.mpr hl)
    refine ⟨lit "501 No arguments presented.", by decide, ?_, ?_, ?_⟩
    · rw [hmkd, handle_MKD, if_pos ha]
    · rw [hrmd, handle_RMD, removeObject, if_pos ha]
    · rw [hdele, handle_DELE, removeObject, if_pos ha]
  · refine ⟨lit "530 Not logged in.", by decide, ?_, ?_, ?_⟩ <;>
      simp +decide [handle_command, hl]

/-- After these checks they reach the table. -/
theorem handle_command_of_not_refused (h : ¬ Refused s a) : a ≠ [] ∧
    s.handle_command env (lit "MKD") a = s.handle_MKD env a ∧
    s.handle_command env (lit "RMD") a = s.removeObject a (s.object_of_RMD a) ∧
    s.handle_command env (lit "DELE") a = s.removeObject a (s.object_of_MKD a) := by
  obtain ⟨hl, ha⟩ := not_or.mp h
  obtain ⟨hmkd, hrmd, hdele, -⟩ := @handle_command_of_logged_in env s a (not_not.mp hl)
  exact ⟨ha, hmkd, hrmd, hdele⟩

theorem handle_MKD_of_not_creatable (ha : a ≠ []) (hc : ¬ Creatable s.m_fs_objects_table.table
    s.m_userid (s.object_of_MKD a).2 (s.object_of_MKD a).1) :
    s.handle_MKD env a = s.reply (lit "250 Failed.") := by
  unfold handle_MKD
  rw [if_neg ha]
  simp only
  rw [create_object_of_not hc]
  rfl

/-- What RMD and DELE leave of the objects. -/
theorem rows_removeObject (ha : a ≠ []) (object : Bytes × Bytes) :
    rows (s.removeObject a object) = (rows s).filter (fun x =>
      decide (¬ Removes s.m_fs_objects_table.table s.m_userid object.2 object.1 x)) := by
  unfold removeObject
  rw [if_neg ha]
  exact remove_fs_object_rows s.m_fs_objects_table s.m_userid object.2 object.1

theorem sent_removeObject (ha : a ≠ []) (object : Bytes × Bytes) :
    (s.removeObject a object).sent = s.sent ++ [lit "250 Deleted." ++ crlf] := by
  unfold removeObject
  rw [if_neg ha]
  rfl

end

/-! ## The truth of the replies -/

/-- The removal of the object `r` deletes its row: the id is not empty and reads back whole, as
every generated id does, or `r` is a directory and its pattern covers its own path. -/
def Erasable (r : Row) : Prop :=
  c_str r.object_id ≠ [] ∧ (c_str r.object_id = r.object_id ∨
    r.is_directory = true ∧ isBelow r.user_id (prefix_pattern r.path r.name) r = true)

instance (r : Row) : Decidable (Erasable r) := inferInstanceAs (Decidable (_ ∧ _))

theorem erasable_of_generated {t : Table} (hg : Generated t) {r : Row} (hr : r ∈ t.rows) :
    Erasable r :=
  ⟨hg.id_ne_nil hr, Or.inl (hg.id_eq hr)⟩

theorem removes_self_iff {t : Table} {r : Row} (hr : r ∈ t.rows) :
    Removes t r.user_id r.name r.path r ↔ Erasable r := by
  unfold Removes Erasable
  rw [get_object_of_mem hr]
  exact and_congr_right' (or_congr_left eq_comm)

theorem removed_removeObject_iff {s : Session} {a : Bytes} (ha : a ≠ []) (object : Bytes × Bytes) :
    Removed s (s.removeObject a object) object ↔
      ∃ r ∈ rows s, IsObject s object r ∧ Erasable r := by
  have hgone : ∀ r ∈ rows s, IsObject s object r →
      (r ∉ rows (s.removeObject a object) ↔ Erasable r) := by
    rintro r hr ⟨hu, hn, hp⟩
    rw [rows_removeObject ha, List.mem_filter, decide_eq_true_iff, ← removes_self_iff hr, hu, hn,
      hp]
    tauto
  constructor
  · rintro ⟨r, hr, hobj, h⟩
    exact ⟨r, hr, hobj, (hgone r hr hobj).mp h⟩
  · rintro ⟨r, hr, hobj, h⟩
    exact ⟨r, hr, hobj, (hgone r hr hobj).mpr h⟩

/-- RMD and DELE reply 250, so the reply is true when the object was there. -/
theorem removeObject_answers_truly_iff {s : Session} {a : Bytes} (ha : a ≠ [])
    (object : Bytes × Bytes) :
    AnswersTruly s (s.removeObject a object) (Removed s (s.removeObject a object) object) ↔
      ∃ r ∈ rows s, IsObject s object r ∧ Erasable r := by
  rw [answersTruly_of_success (sent_removeObject ha object) (by decide),
    removed_removeObject_iff ha]

/-- MKD replies 250 too, so the reply is true when the new row was inserted. -/
theorem handle_MKD_answers_truly_iff {env : Env} {s : Session} {a : Bytes} (ha : a ≠ []) :
    AnswersTruly s (s.handle_MKD env a) (Made s (s.handle_MKD env a)) ↔
      Creatable s.m_fs_objects_table.table s.m_userid (s.object_of_MKD a).2 (s.object_of_MKD a).1 ∧
        ¬ s.m_fs_objects_table.table.Conflicts (rowOfMKD env s a) := by
  by_cases hc : Creatable s.m_fs_objects_table.table s.m_userid (s.object_of_MKD a).2
      (s.object_of_MKD a).1
  · rw [handle_MKD_of_creatable ha hc,
      answersTruly_of_success (m := lit "250 Directory created.") rfl (by decide)]
    constructor
    · intro hmade
      refine ⟨hc, fun hconf => not_made_of_same_rows ?_ hmade⟩
      exact congrArg Table.rows (dif_pos hconf)
    · rintro ⟨-, hconf⟩
      exact ⟨rowOfMKD env s a, rfl, rfl, congrArg Table.rows (dif_neg hconf)⟩
  · rw [handle_MKD_of_not_creatable ha hc,
      answersTruly_of_success (m := lit "250 Failed.") rfl (by decide)]
    exact iff_of_false (not_made_of_same_rows rfl) (fun h => hc h.1)

/-- For every session and every argument, the replies of the three commands are true if and only if
the command is refused before it looks at the table; or the row of MKD passes the checks and no row
of any user is in its way; or the object of RMD, respectively DELE, is there. -/
theorem the_replies_are_true_iff (env : Env) (s : Session) (a : Bytes) :
    (AnswersTruly s (s.handle_command env (lit "MKD") a)
        (Made s (s.handle_command env (lit "MKD") a)) ↔
      Refused s a ∨ (Creatable s.m_fs_objects_table.table s.m_userid (s.object_of_MKD a).2
          (s.object_of_MKD a).1 ∧
        ¬ s.m_fs_objects_table.table.Conflicts (rowOfMKD env s a))) ∧
    (AnswersTruly s (s.handle_command env (lit "RMD") a)
        (Removed s (s.handle_command env (lit "RMD") a) (s.object_of_RMD a)) ↔
      Refused s a ∨ ∃ r ∈ rows s, IsObject s (s.object_of_RMD a) r ∧ Erasable r) ∧
    (AnswersTruly s (s.handle_command env (lit "DELE") a)
        (Removed s (s.handle_command env (lit "DELE") a) (s.object_of_MKD a)) ↔
      Refused s a ∨ ∃ r ∈ rows s, IsObject s (s.object_of_MKD a) r ∧ Erasable r) := by
  by_cases h : Refused s a
  · obtain ⟨m, hm, hmkd, hrmd, hdele⟩ := @reply_of_refused env s a h
    rw [hmkd, hrmd, hdele]
    exact ⟨iff_of_true (answersTruly_of_refusal hm (not_made_of_same_rows rfl)) (Or.inl h),
      iff_of_true (answersTruly_of_refusal hm (not_removed_of_same_rows rfl _)) (Or.inl h),
      iff_of_true (answersTruly_of_refusal hm (not_removed_of_same_rows rfl _)) (Or.inl h)⟩
  · obtain ⟨ha, hmkd, hrmd, hdele⟩ := @handle_command_of_not_refused env s a h
    rw [hmkd, hrmd, hdele, or_iff_right h, or_iff_right h, or_iff_right h]
    exact ⟨handle_MKD_answers_truly_iff ha, removeObject_answers_truly_iff ha _,
      removeObject_answers_truly_iff ha _⟩

/-- MKD of a directory that is there, and DELE of a name that is not. -/
theorem the_replies_are_not_always_true :
    let s := userIn "/"
    ¬ (AnswersTruly s (s.handle_command (Env.working 4) (lit "MKD") (lit "w"))
        (Made s (s.handle_command (Env.working 4) (lit "MKD") (lit "w"))) ∨
      AnswersTruly s (s.handle_command (Env.working 4) (lit "DELE") (lit "x"))
        (Removed s (s.handle_command (Env.working 4) (lit "DELE") (lit "x"))
          (s.object_of_MKD (lit "x")))) := by
  intro s h
  rcases h with h | h
  · rw [answersTruly_of_success (m := lit "250 Failed.") (by decide) (by decide)] at h
    exact not_made_of_same_rows (by decide) h
  · rw [answersTruly_of_success (m := lit "250 Deleted.") (by decide) (by decide)] at h
    exact absurd h (by decide)

/-! ## The kinds of the objects -/

/-- At most one object is gone, and that is a file. -/
def TakesOneFile (s t : Session) : Prop :=
  rows t = rows s ∨ ∃ r ∈ rows s, r.is_directory = false ∧
    rows t = (rows s).filter (fun x => decide (x ≠ r))

/-- Objects are gone only if the object of the command is a directory. -/
def TakesDirectories (s t : Session) (object : Bytes × Bytes) : Prop :=
  rows t ≠ rows s → ∃ r ∈ rows s, IsObject s object r ∧ r.is_directory = true

section
variable {s : Session} {a : Bytes} (ha : a ≠ []) {object : Bytes × Bytes} {r : Row}
include ha

/-- An object that is not there takes nothing with it. -/
theorem rows_removeObject_of_missing (h : ∀ r ∈ rows s, ¬ IsObject s object r) :
    rows (s.removeObject a object) = rows s := by
  rw [rows_removeObject ha, List.filter_eq_self]
  refine fun x _ => decide_eq_true fun hrem => ?_
  obtain ⟨r, hr, hu, hn, hp, -⟩ := exists_of_get_object hrem.1
  exact h r hr ⟨hu, hn, hp⟩

variable (hg : Generated s.m_fs_objects_table.table) (hr : r ∈ rows s) (hobj : IsObject s object r)
include hg hr hobj

/-- A file goes alone. -/
theorem rows_removeObject_of_file (hfile : r.is_directory = false) :
    rows (s.removeObject a object) = (rows s).filter (fun x => decide (x ≠ r)) := by
  obtain ⟨hu, hn, hp⟩ := hobj
  rw [rows_removeObject ha]
  refine List.filter_congr (fun x hx => decide_eq_decide.mpr (not_congr ?_))
  rw [← hu, ← hn, ← hp, Removes, get_object_of_mem hr, hg.id_eq hr]
  constructor
  · rintro ⟨-, hid | ⟨hdir, -⟩⟩
    · exact Table.eq_of_id _ hx hr hid
    · exact absurd (hdir.symm.trans hfile) (by decide)
  · rintro rfl
    exact ⟨hg.id_eq hr ▸ hg.id_ne_nil hr, Or.inl rfl⟩

/-- Whatever it is, the object of the command is gone. -/
theorem not_mem_removeObject : r ∉ rows (s.removeObject a object) := by
  obtain ⟨hu, hn, hp⟩ := hobj
  rw [rows_removeObject ha, List.mem_filter, decide_eq_true_iff, ← hu, ← hn, ← hp]
  exact fun h => h.2 ((removes_self_iff hr).mpr (erasable_of_generated hg hr))

end

section
variable {s : Session} {a : Bytes} (ha : a ≠ []) (hg : Generated s.m_fs_objects_table.table)
  (object : Bytes × Bytes)
include ha hg

theorem removeObject_takes_one_file_iff : TakesOneFile s (s.removeObject a object) ↔
    ∀ r ∈ rows s, IsObject s object r → r.is_directory = false := by
  constructor
  · intro h r hr hobj
    have hgone := not_mem_removeObject ha hg hr hobj
    rcases h with h | ⟨x, -, hfile, h⟩
    · exact absurd (h ▸ hr) hgone
    · -- Only `x` is gone, so `x` is the object.
      rw [h, List.mem_filter, decide_eq_true_iff] at hgone
      obtain rfl : r = x := by
        by_contra hne
        exact hgone ⟨hr, hne⟩
      exact hfile
  · intro h
    by_cases hex : ∃ r ∈ rows s, IsObject s object r
    · obtain ⟨r, hr, hobj⟩ := hex
      have hfile := h r hr hobj
      exact Or.inr ⟨r, hr, hfile, rows_removeObject_of_file ha hg hr hobj hfile⟩
    · exact Or.inl (rows_removeObject_of_missing ha (fun r hr hobj => hex ⟨r, hr, hobj⟩))

theorem removeObject_takes_directories_iff :
    TakesDirectories s (s.removeObject a object) object ↔
      ∀ r ∈ rows s, IsObject s object r → r.is_directory = true := by
  constructor
  · intro h r hr hobj
    have hgone := not_mem_removeObject ha hg hr hobj
    obtain ⟨x, hx, ⟨-, hn, hp⟩, hdir⟩ := h (fun hsame => hgone (hsame ▸ hr))
    obtain ⟨-, hn', hp'⟩ := hobj
    rwa [Table.eq_of_name_path _ hr hx (hn'.trans hn.symm) (hp'.trans hp.symm)]
  · intro h hchanged
    by_contra hno
    refine hchanged (rows_removeObject_of_missing ha (fun r hr hobj => hno ⟨r, hr, hobj, ?_⟩))
    exact h r hr hobj

end

/-- In every tree, DELE takes one file at most if and only if its object is no directory, and RMD
takes objects only for a directory if and only if its object is no file. -/
theorem the_kinds_are_respected_iff (env : Env) (s : Session) (a : Bytes)
    (ht : Tree s.m_fs_objects_table.table) :
    (TakesOneFile s (s.handle_command env (lit "DELE") a) ↔
      Refused s a ∨
        ∀ r ∈ rows s, IsObject s (s.object_of_MKD a) r → r.is_directory = false) ∧
    (TakesDirectories s (s.handle_command env (lit "RMD") a) (s.object_of_RMD a) ↔
      Refused s a ∨
        ∀ r ∈ rows s, IsObject s (s.object_of_RMD a) r → r.is_directory = true) := by
  by_cases h : Refused s a
  · obtain ⟨m, -, -, hrmd, hdele⟩ := @reply_of_refused env s a h
    rw [hrmd, hdele]
    exact ⟨iff_of_true (Or.inl rfl) (Or.inl h), iff_of_true (fun hne => absurd rfl hne) (Or.inl h)⟩
  · obtain ⟨ha, -, hrmd, hdele⟩ := @handle_command_of_not_refused env s a h
    rw [hrmd, hdele, or_iff_right h, or_iff_right h]
    exact ⟨removeObject_takes_one_file_iff ha ht.generated _,
      removeObject_takes_directories_iff ha ht.generated _⟩

/-- The law at a name that is not there: DELE and RMD take nothing. -/
theorem the_kinds_are_respected_of_a_missing_name :
    TakesOneFile (userIn "/") ((userIn "/").handle_command (Env.working 4) (lit "DELE") (lit "x")) ∧
      TakesDirectories (userIn "/")
        ((userIn "/").handle_command (Env.working 4) (lit "RMD") (lit "x"))
        ((userIn "/").object_of_RMD (lit "x")) :=
  have hlaw := the_kinds_are_respected_iff (Env.working 4) (userIn "/") (lit "x") tree_directories
  ⟨hlaw.1.mpr (Or.inr (by decide)), hlaw.2.mpr (Or.inr (by decide))⟩

/-- DELE "w" removes the directory "/w" and the directory in it. -/
theorem DELE_takes_a_directory : Tree (userIn "/").m_fs_objects_table.table ∧
    ¬ TakesOneFile (userIn "/")
      ((userIn "/").handle_command (Env.working 4) (lit "DELE") (lit "w")) := by
  refine ⟨tree_directories, ?_⟩
  rintro (h | ⟨r, -, hfile, h⟩)
  · exact absurd h (by decide)
  · have hgone : ∀ x ∈ rows (userIn "/"), x.is_directory = true := by decide
    have hmem : ∀ x ∈ rows (userIn "/"),
        x ∈ rows ((userIn "/").handle_command (Env.working 4) (lit "DELE") (lit "w")) := by
      intro x hx
      rw [h]
      refine List.mem_filter.mpr ⟨hx, decide_eq_true ?_⟩
      rintro rfl
      exact absurd (hfile.symm.trans (hgone x hx)) (by decide)
    exact absurd hmem (by decide)

end asio_ftp.answers
