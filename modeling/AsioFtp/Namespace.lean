-- The laws of the names: which rows and which working directories a server reaches from an
-- empty table, whatever its clients send.
import AsioFtp.Server

namespace asio_ftp.names

open helpers fs_objects histories paths base_session base_session.Session server

/-! ## Well-formed names -/

/-- A name that a listing can show on a line, in a directory with a canonical path. -/
structure Named (r : Row) : Prop where
  name : Segment r.name
  one_line : CR ∉ r.name ∧ LF ∉ r.name
  path : Canonical r.path

/-- Every row is well named, and every session is in a canonical directory. -/
structure WellFormed (sv : Server) : Prop where
  rows : ∀ r ∈ sv.m_fs_objects_table.table.rows, Named r
  directories : ∀ s ∈ sv.sessions, Canonical s.m_working_directory

instance (r : Row) : Decidable (Named r) :=
  decidable_of_iff (Segment r.name ∧ (CR ∉ r.name ∧ LF ∉ r.name) ∧ Canonical r.path)
    ⟨fun h => ⟨h.1, h.2.1, h.2.2⟩, fun h => ⟨h.name, h.one_line, h.path⟩⟩

instance (sv : Server) : Decidable (WellFormed sv) :=
  decidable_of_iff ((∀ r ∈ sv.m_fs_objects_table.table.rows, Named r) ∧
      ∀ s ∈ sv.sessions, Canonical s.m_working_directory)
    ⟨fun h => ⟨h.1, h.2⟩, fun h => ⟨h.rows, h.directories⟩⟩

/-- The name and the path of a create can stand in a table: the name is not empty and on one
line, and the path does not begin with two slashes. -/
def Placed : Op → Prop
  | .create_object _ _ _ object_name object_path _ _ =>
    object_name ≠ [] ∧ (CR ∉ object_name ∧ LF ∉ object_name) ∧ ¬ [slash, slash] <+: object_path
  | _ => True

instance : (o : Op) → Decidable (Placed o)
  | .create_object .. => inferInstanceAs (Decidable (_ ∧ _))
  | .update_object_size .. => inferInstanceAs (Decidable True)
  | .remove_fs_object .. => inferInstanceAs (Decidable True)
  | .get_object .. => inferInstanceAs (Decidable True)
  | .get_objects_by_path .. => inferInstanceAs (Decidable True)

/-- An object that MKD or an upload inserts is one that can stand in a table. -/
def PlacesWell (sv : Server) (e : ServerEvent) (_ : Server) : Prop :=
  ∀ o ∈ sv.callOf e, Inserts sv.m_fs_objects_table.table o → Placed o

/-! ## The names of the creates -/

/-- A create of a session has a name with no slash and an absolute path. -/
def Absolute : Op → Prop
  | .create_object _ _ _ object_name object_path _ _ =>
    slash ∉ object_name ∧ object_path[0]? = some slash
  | _ => True

theorem absolute_callOfUpload (env : Env) (s : Session) :
    ∀ o ∈ s.callOfUpload env, Absolute o := by
  intro o ho
  unfold callOfUpload at ho
  simp only [Option.mem_def, Option.ite_none_right_eq_some, Option.some.injEq] at ho
  rw [← ho.2]
  exact ⟨slash_notMem_get_basename _, getElem?_zero_get_parent_path _⟩

/-- The argument of MKD is the name itself when it has no slash. -/
theorem absolute_objectCall (env : Env) {s : Session} (hw : Canonical s.m_working_directory)
    (c a : Bytes) : ∀ o ∈ s.objectCall env c a, Absolute o := by
  intro o ho
  unfold objectCall at ho
  split at ho
  · simp at ho
  next ha =>
  split at ho
  · simp only [Option.mem_def, Option.some.injEq] at ho
    rw [← ho]
    unfold object_of_MKD
    by_cases hl : (string_split a (lit "/")).length = 1
    · rw [if_pos hl]
      exact ⟨(string_split_length_one ha).mp hl, hw.getElem?_zero⟩
    · rw [if_neg hl]
      exact ⟨slash_notMem_get_basename _, getElem?_zero_get_parent_path _⟩
  · simp only [Option.mem_def, Option.some.injEq] at ho
    rw [← ho]
    trivial

theorem absolute_callOf (env : Env) {s : Session} (hw : Canonical s.m_working_directory)
    (e : Event) : ∀ o ∈ s.callOf env e, Absolute o := by
  have work : ∀ o ∈ s.callOfWork env, Absolute o := by
    intro o ho
    unfold callOfWork at ho
    split at ho
    · exact absolute_callOfUpload env s o ho
    · simp at ho
  intro o ho
  cases e with
  | control_received ec received =>
    simp only [callOf, callOfCommand] at ho
    split at ho
    · simp at ho
    split at ho
    · exact absolute_objectCall env hw _ _ o ho
    split at ho
    · split at ho
      · exact absolute_callOfUpload env _ o ho
      · simp at ho
    · simp at ho
  | accepted ec =>
    simp only [callOf] at ho
    split at ho
    · exact work o ho
    · simp at ho
  | data_handshaken ec =>
    simp only [callOf] at ho
    split at ho
    · exact work o ho
    · simp at ho
  | data_received c ec received =>
    simp only [callOf, Option.mem_def, Option.ite_none_right_eq_some, Option.some.injEq] at ho
    rw [← ho.2]
    trivial
  | _ => simp [callOf] at ho

/-! ## The rows after a call -/

section
variable {t : Table} (ht : ∀ r ∈ t.rows, Named r)
include ht

/-- A path of a create that passes its checks is canonical, but for one that begins with two
slashes: its directory is a row. -/
theorem canonical_of_creatable {u n p : Bytes} (hc : Creatable t u n p) (h0 : p[0]? = some slash)
    (hp : ¬ [slash, slash] <+: p) : Canonical p := by
  by_cases hr : p = [slash]
  · rw [hr]
    exact canonical_root
  · obtain ⟨q, hq, -, hqn, hqp, -⟩ := exists_of_get_object (hc.1 hr).1
    have hd : Canonical (get_parent_path p) := hqp ▸ (ht q hq).path
    have hn : Segment (get_basename p) := hqn ▸ (ht q hq).name
    rcases eq_join_of_parent h0 hd with hj | hj
    · rw [hj]
      exact hd.join hn
    · exact absurd ⟨get_basename p, hj.symm⟩ hp

theorem named_newRow_iff {uuid : Uuid} {now u n p : Bytes} {size : Int} {d : Bool}
    (hi : Inserts t (.create_object uuid now u n p size d))
    (ha : Absolute (.create_object uuid now u n p size d)) :
    Named (newRow uuid now u n p size d) ↔ Placed (.create_object uuid now u n p size d) := by
  constructor
  · intro h
    exact ⟨h.name.1, h.one_line, h.path.no_double⟩
  · rintro ⟨hn, hl, hp⟩
    exact ⟨⟨hn, ha.1⟩, hl, canonical_of_creatable ht hi.1 ha.2 hp⟩

end

/-- A call keeps the rows well named if and only if it inserts nothing, or an object that can
stand in a table. -/
theorem named_apply_iff {st : Store} (ht : ∀ r ∈ st.table.rows, Named r) {o : Op}
    (ha : Absolute o) : (∀ r ∈ (apply st o).table.rows, Named r) ↔
      (Inserts st.table o → Placed o) := by
  constructor
  · intro h hi
    cases o with
    | create_object uuid now u n p size d =>
      refine (named_newRow_iff ht hi ha).mp (h _ ?_)
      simp only [apply]
      rw [create_object_of hi.1]
      exact mem_insert.mpr (Or.inr ⟨rfl, hi.2⟩)
    | _ => trivial
  · intro hp x hx
    rcases mem_apply hx with ⟨r, hr, s, m, rfl⟩ | ⟨uuid, now, u, n, p, size, d, rfl, rfl, hi⟩
    · exact ⟨(ht r hr).name, (ht r hr).one_line, (ht r hr).path⟩
    · exact (named_newRow_iff ht hi ha).mpr (hp hi)

/-! ## The working directories -/

section
variable {s : Session} (ht : ∀ r ∈ s.m_fs_objects_table.table.rows, Named r)
include ht

/-- A part that a lookup finds is the name of a row. -/
theorem segment_of_get_object {u n p : Bytes}
    (h : (get_object s.m_fs_objects_table.table u n p).id ≠ []) : Segment n := by
  obtain ⟨r, hr, -, hn, -⟩ := exists_of_get_object h
  exact hn ▸ (ht r hr).name

/-- The walk of CWD comes to a canonical directory, because it goes through rows. The root is
walked as the empty text. -/
theorem canonical_cwdLoop {d part : Bytes} {parts : List Bytes} (hd : Canonical d)
    (hpart : Segment part) {object_path back : Bytes}
    (h : s.cwdLoop (if d = [slash] then [] else d) (part :: parts) = some (object_path, back)) :
    Canonical ((if object_path ≠ [slash] then object_path ++ [slash] else object_path) ++ back) := by
  have hjoin := hd.join hpart
  rw [joinPath_eq] at hjoin
  induction parts generalizing d part with
  | nil =>
    simp only [cwdLoop, Option.some.injEq, Prod.mk.injEq] at h
    obtain ⟨rfl, rfl⟩ := h
    have hne : (if d = [slash] then [] else d) ≠ [slash] := by
      split
      · simp
      · assumption
    rw [if_pos hne, List.append_assoc]
    exact hjoin
  | cons next parts ih =>
    simp only [cwdLoop, Option.ite_none_left_eq_some] at h
    obtain ⟨hfound, h⟩ := h
    have heq : (if d = [slash] then [] else d) ++ lit "/" ++ part = joinPath d part := by
      rw [joinPath_eq, List.append_assoc]
      rfl
    have hnext := segment_of_get_object ht hfound
    have hd' := hd.join hpart
    rw [heq] at h
    have hroot := joinPath_ne_root d hpart
    refine ih hd' hnext ?_ ?_
    · rw [if_neg hroot]
      exact h
    · have := hd'.join hnext
      rwa [joinPath_eq] at this

theorem canonical_cwdWalk {d first : Bytes} {rest : List Bytes} (hd : Canonical d)
    {object_path back : Bytes} (h : s.cwdWalk d first (first :: rest) = some (object_path, back)) :
    Canonical ((if object_path ≠ lit "/" then object_path ++ lit "/" else object_path) ++ back) := by
  unfold cwdWalk at h
  split at h
  · simp at h
  next hfound =>
  have hstart : (if d = lit "/" then d.dropLast else d) = if d = [slash] then [] else d := by
    by_cases hr : d = [slash]
    · subst hr
      rfl
    · rw [if_neg hr, if_neg (show ¬ d = lit "/" from hr)]
  rw [hstart] at h
  exact canonical_cwdLoop ht hd (segment_of_get_object ht hfound) h

theorem canonical_goes (hw : Canonical s.m_working_directory) {a w : Bytes} (h : s.Goes a w) :
    Canonical w := by
  cases h with
  | stays => exact hw
  | up => exact hw.parent
  | root => exact canonical_root
  | walked first rest object_path back h =>
    refine canonical_cwdWalk ht ?_ h
    unfold cwdStart
    split
    · exact canonical_root
    · exact hw

theorem canonical_entered (hw : Canonical s.m_working_directory) {c a : Bytes} {f : Front}
    (h : Entered s c a f) : Canonical f.working_directory := by
  cases h with
  | moved _ _ w _ _ hg => exact canonical_goes ht hw hg
  | _ => exact hw

theorem canonical_handle_command (hw : Canonical s.m_working_directory) (env : Env) (c a : Bytes) :
    Canonical (s.handle_command env c a).m_working_directory := by
  obtain ⟨f, hf, messages, -, hs⟩ := (s.handle_command_handled env c a).front
  have hd : (s.handle_command env c a).m_working_directory = f.working_directory :=
    congrArg Front.working_directory hs
  rw [hd]
  exact canonical_entered ht hw hf

/-- An event leaves a session in a canonical directory. -/
theorem canonical_of_stepped (hw : Canonical s.m_working_directory) {env : Env} {e : Event}
    {s' : Session} (h : Stepped env s e s') : Canonical s'.m_working_directory := by
  have hkeep : s'.front.working_directory = s.m_working_directory →
      Canonical s'.m_working_directory := fun he => (congrArg Canonical he).mpr hw
  by_cases hup : startsUp e = true
  · rw [(h.startup hup).1]
    exact hw
  by_cases hc : onControl e = true
  · cases h with
    | control_received ec received =>
      exact canonical_handle_command (s := { s with control_reads := s.control_reads - 1 }) ht hw
        env _ _
    | timer => exact absurd rfl hup
    | probe_received => exact absurd rfl hup
    | handshaken => exact absurd rfl hup
    | control_sent => exact hw
    | probe_sent => exact hw
    | _ => simp [onControl] at hc
  · rcases h.front (by simpa using hc) with hf | ⟨m, hf⟩
    · exact hkeep (congrArg Front.working_directory hf)
    · exact hkeep (congrArg Front.working_directory hf)

end

/-! ## The law -/

/-- From a well-formed server, an event leads to one if and only if what it inserts can stand
in a table. -/
theorem wellFormed_step_iff {sv sv' : Server} {e : ServerEvent} (hw : WellFormed sv)
    (h : sv.step e = some sv') : WellFormed sv' ↔ PlacesWell sv e sv' := by
  have htable := Server.table_of_step h
  have hrows : (∀ r ∈ sv'.m_fs_objects_table.table.rows, Named r) ↔ PlacesWell sv e sv' := by
    rw [htable]
    unfold PlacesWell
    cases ho : sv.callOf e with
    | none => simpa [applied] using hw.rows
    | some o =>
      simp only [Option.mem_def, Option.some.injEq, forall_eq']
      refine named_apply_iff hw.rows ?_
      cases e with
      | connected => simp [Server.callOf] at ho
      | session k env e =>
        simp only [Server.callOf, Option.bind_eq_some_iff] at ho
        obtain ⟨s, hk, ho⟩ := ho
        have hs := Server.law_of_session (P := fun s => Canonical s.m_working_directory)
          (fun _ _ h => h) hw.directories hk
        exact absolute_callOf env hs e o ho
  refine ⟨fun h => hrows.mp h.rows, fun hok => ⟨hrows.mpr hok, ?_⟩⟩
  cases Server.step_served h with
  | connected lap available =>
    intro s hs
    rcases List.mem_append.mp hs with hs | hs
    · exact hw.directories s hs
    · rw [List.mem_singleton.mp hs, (begun_idle ..).1]
      exact canonical_root
  | session k env e s s' hk he hs =>
    have hd := Server.law_of_session (P := fun s => Canonical s.m_working_directory)
      (fun _ _ h => h) hw.directories hk
    refine Server.law_of_put (P := fun s => Canonical s.m_working_directory) hw.directories k ?_
    refine canonical_of_stepped ?_ hd (step_stepped hs).2
    rw [Server.store_of_session hk]
    exact hw.rows

/-- In a run of a server from an empty table, every row is well named and every session is in
a canonical directory in every state, if and only if everything that MKD and the uploads insert
has a name that is not empty and on one line, and a path that does not begin with two slashes. -/
theorem names_stay_well_formed_iff_every_insert_is_placed (session_class : SessionClass)
    (users : users.Table) (es : List ServerEvent) :
    runs.Along Server.step (fun _ _ sv' => WellFormed sv') (Server.init session_class users) es ↔
      runs.Along Server.step PlacesWell (Server.init session_class users) es := by
  refine runs.along_iff_of_invariant (J := WellFormed) ?_ ?_ ⟨?_, ?_⟩
  · exact fun sv e sv' hw h => wellFormed_step_iff hw h
  · exact fun sv e sv' hw h hok => (wellFormed_step_iff hw h).mpr hok
  · intro r hr
    cases hr
  · intro s hs
    cases hs

/-- MKD "/" makes a directory with no name. -/
theorem MKD_of_the_root_makes_a_row_with_no_name : ¬ runs.Along Server.step
    (fun _ _ sv' => WellFormed sv') (Server.init .session users.Table.annAndBob)
    [.connected 0 0, .session 0 (clientLine "USER ann").1 (clientLine "USER ann").2,
      .session 0 (clientLine "PASS pw1").1 (clientLine "PASS pw1").2,
      .session 0 (clientLine "MKD /").1 (clientLine "MKD /").2] := by
  decide

end asio_ftp.names
