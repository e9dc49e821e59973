-- The laws of the arguments: which object each command takes from its argument, and when an
-- upload and the commands that read it take the same one.
import AsioFtp.Commands

namespace asio_ftp.arguments

open helpers paths fs_objects base_session base_session.Session

/-! ## The argument of an upload -/

section
variable {s : Session} {a : Bytes}

theorem write_file_of_absolute (ha : a[0]? = some slash) : s.write_file_of_STOR a = a := by
  rw [write_file_of_STOR, if_neg (not_not.mpr ha)]

/-- A relative argument is joined to the working directory. -/
theorem write_file_of_relative (ha : a[0]? ≠ some slash) :
    s.write_file_of_STOR a = joinPath s.m_working_directory a := by
  have hd : lit "/" = [slash] := rfl
  rw [write_file_of_STOR, if_pos ha, joinPath, hd]
  split
  · next h => rw [h, List.singleton_append]
  · rw [List.append_assoc, List.singleton_append]

theorem getElem?_zero_ne_of_notMem (ha : slash ∉ a) : a[0]? ≠ some slash :=
  fun h => ha (List.mem_of_getElem? h)

/-- A name goes to the working directory. -/
theorem object_of_STOR_name (hw : Canonical s.m_working_directory) (ha : slash ∉ a) :
    s.object_of_STOR a = (s.m_working_directory, a) := by
  rw [object_of_STOR, write_file_of_relative (getElem?_zero_ne_of_notMem ha),
    object_of_write_file, get_parent_path_join hw ha, get_basename_join _ ha]

theorem object_of_STOR_absolute (ha : a[0]? = some slash) :
    s.object_of_STOR a = (get_parent_path a, get_basename a) := by
  rw [object_of_STOR, write_file_of_absolute ha, object_of_write_file]

/-- A relative path goes below the working directory. -/
theorem object_of_STOR_relative {d n : Bytes} (hw : Canonical s.m_working_directory)
    (hn : slash ∉ n) (hd : d ≠ []) (hd0 : d[0]? ≠ some slash) :
    s.object_of_STOR (d ++ slash :: n) = (joinPath s.m_working_directory d, n) := by
  have h0 : (d ++ slash :: n)[0]? ≠ some slash := by
    rwa [List.getElem?_append_left (List.length_pos_iff.mpr hd)]
  have hcut : joinPath s.m_working_directory (d ++ slash :: n) =
      joinPath s.m_working_directory d ++ slash :: n := by
    rw [joinPath_eq, joinPath_eq, List.append_assoc, List.cons_append]
  have hroot : (joinPath s.m_working_directory d)[0]? = some slash := by
    obtain ⟨rest, hrest⟩ := hw.head
    unfold joinPath
    split
    · rfl
    · rw [hrest]
      rfl
  have hne : joinPath s.m_working_directory d ≠ [] := by
    intro h
    simp [h] at hroot
  rw [object_of_STOR, write_file_of_relative h0, hcut, object_of_write_file,
    get_basename_of_slash hn, get_parent_path_of_slash hn (fun _ => hroot), if_neg hne]

/-! ## RETR and SIZE -/

theorem ne_nil_of_get_basename (hb : get_basename a ≠ []) : a ≠ [] := by
  rintro rfl
  exact hb rfl

/-- A relative path is the root for the path helpers. -/
theorem get_parent_path_of_relative (ha : a[0]? ≠ some slash) : get_parent_path a = [slash] := by
  rw [get_parent_path, if_pos ha, ite_self]

/-- A relative path with a slash, cut at its last slash. -/
theorem exists_relative_cut (hs : slash ∈ a) (h0 : a[0]? ≠ some slash) :
    ∃ d n, a = d ++ slash :: n ∧ slash ∉ n ∧ d ≠ [] ∧ d[0]? ≠ some slash := by
  obtain ⟨d, n, rfl, hn⟩ := exists_last_slash hs
  have hd : d ≠ [] := by
    rintro rfl
    exact h0 rfl
  rw [List.getElem?_append_left (List.length_pos_iff.mpr hd)] at h0
  exact ⟨d, n, rfl, hn, hd, h0⟩

theorem starts_with_slash (hb : get_basename a ≠ []) :
    string_starts_with a (lit "/") = true ↔ a[0]? = some slash := by
  cases a with
  | nil => exact absurd rfl hb
  | cons c rest =>
    have hd : lit "/" = [slash] := rfl
    have hlen : c = slash → 0 < rest.length := by
      rintro rfl
      rw [List.length_pos_iff]
      rintro rfl
      exact hb rfl
    simp only [string_starts_with, hd, List.length_cons, List.length_nil, Bool.and_eq_true,
      decide_eq_true_eq, List.getElem?_cons_zero, Option.some.injEq, List.take_succ_cons,
      List.take_zero, List.cons.injEq, and_true]
    exact ⟨fun h => h.2, fun h => ⟨by have := hlen h; omega, h⟩⟩

/-- RETR takes the object that an upload takes, but for a relative path below a directory: it
joins the two with no '/' between them. -/
theorem object_of_RETR_eq_iff (hw : Canonical s.m_working_directory) (hb : get_basename a ≠ []) :
    s.object_of_RETR a = s.object_of_STOR a ↔
      a[0]? = some slash ∨ slash ∉ a ∨ s.m_working_directory = [slash] := by
  have hsplit : (string_split a (lit "/")).length = 1 ↔ slash ∉ a :=
    string_split_length_one (ne_nil_of_get_basename hb)
  have hstarts := starts_with_slash hb
  unfold object_of_RETR
  by_cases hs : slash ∈ a
  · rw [if_neg (mt hsplit.mp (not_not.mpr hs))]
    by_cases h0 : a[0]? = some slash
    · rw [if_pos (hstarts.mpr h0), object_of_STOR_absolute h0]
      exact iff_of_true rfl (Or.inl h0)
    · rw [if_neg (mt hstarts.mp h0)]
      obtain ⟨d, n, rfl, hn, hd, hd0⟩ := exists_relative_cut hs h0
      have hparent : get_parent_path (s.m_working_directory ++ (d ++ slash :: n)) =
          s.m_working_directory ++ d := by
        rw [← List.append_assoc, get_parent_path_of_slash hn, if_neg (by simp [hd])]
        intro _
        rw [List.getElem?_append_left (List.length_pos_iff.mpr hw.ne_nil)]
        exact hw.getElem?_zero
      rw [hparent, get_basename_of_slash hn, object_of_STOR_relative hw hn hd hd0, joinPath_eq]
      by_cases hr : s.m_working_directory = [slash]
      · rw [hr]
        exact iff_of_true rfl (Or.inr (Or.inr rfl))
      · refine iff_of_false ?_ (fun h => h.elim h0 fun h => h.elim (fun h => h hs) hr)
        simp [hr]
  · rw [if_pos (hsplit.mpr hs), object_of_STOR_name hw hs]
    exact iff_of_true rfl (Or.inr (Or.inl hs))

/-- SIZE does not look at the working directory. -/
theorem object_of_SIZE_eq_iff (hw : Canonical s.m_working_directory) :
    object_of_SIZE a = s.object_of_STOR a ↔
      a[0]? = some slash ∨ slash ∉ a ∧ s.m_working_directory = [slash] := by
  unfold object_of_SIZE
  by_cases h0 : a[0]? = some slash
  · rw [object_of_STOR_absolute h0]
    exact iff_of_true rfl (Or.inl h0)
  · rw [get_parent_path_of_relative h0]
    by_cases hs : slash ∈ a
    · obtain ⟨d, n, rfl, hn, hd, hd0⟩ := exists_relative_cut hs h0
      rw [object_of_STOR_relative hw hn hd hd0]
      refine iff_of_false ?_ (fun h => h.elim h0 fun h => h.1 hs)
      intro he
      have hl := congrArg (fun p => p.1.length) he
      have h1 := List.length_pos_iff.mpr hd
      rw [joinPath_eq] at hl
      simp only [List.length_append, List.length_cons, List.length_nil] at hl
      omega
    · rw [object_of_STOR_name hw hs, get_basename_of_no_slash hs]
      simp [h0, hs, eq_comm]

end

/-! ## The law -/

/-- In every canonical directory and for every argument with a last component, RETR and SIZE both
take the object that STOR uploads, if and only if the argument is absolute, or is a name and the
directory is the root. -/
theorem retr_and_size_take_the_upload_iff (s : Session) (a : Bytes)
    (hw : Canonical s.m_working_directory) (hb : get_basename a ≠ []) :
    (s.object_of_RETR a = s.object_of_STOR a ∧ object_of_SIZE a = s.object_of_STOR a) ↔
      a[0]? = some slash ∨ slash ∉ a ∧ s.m_working_directory = [slash] := by
  rw [object_of_RETR_eq_iff hw hb, object_of_SIZE_eq_iff hw]
  constructor
  · exact fun h => h.2
  · exact fun h => ⟨h.imp_right fun h => Or.inl h.1, h⟩

/-- A session in a directory. -/
def inDirectory (wd : String) : Session where
  session_class := .session
  m_connection_stage := .LOGGED_IN
  m_users_table := users.Table.annAndBob
  m_fs_objects_table := Store.empty
  m_working_directory := lit wd

/-- The law at an absolute argument. -/
theorem retr_and_size_take_the_upload_of_an_absolute_argument :
    (inDirectory "/d").object_of_RETR (lit "/e/f") =
        (inDirectory "/d").object_of_STOR (lit "/e/f") ∧
      object_of_SIZE (lit "/e/f") = (inDirectory "/d").object_of_STOR (lit "/e/f") :=
  (retr_and_size_take_the_upload_iff (inDirectory "/d") (lit "/e/f") (by decide) (by decide)).mpr
    (by decide)

/-- A file that was uploaded as "e/f" from "/d" is in "/d/e". RETR looks for it in "/de", and SIZE
in the root. -/
theorem a_relative_upload_is_not_found : Canonical (inDirectory "/d").m_working_directory ∧
    get_basename (lit "e/f") ≠ [] ∧
    ¬ ((inDirectory "/d").object_of_RETR (lit "e/f") =
        (inDirectory "/d").object_of_STOR (lit "e/f") ∧
      object_of_SIZE (lit "e/f") = (inDirectory "/d").object_of_STOR (lit "e/f")) := by
  decide

end asio_ftp.arguments
