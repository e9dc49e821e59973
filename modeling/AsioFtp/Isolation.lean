-- The laws of user isolation. A store of one user alone is the abstract model: it knows no
-- other user. The table refines it for each user, as long as no create of the user
-- meets a name and a path that another user holds.
import AsioFtp.Histories

namespace asio_ftp.isolation

open helpers sqlite_wrapper fs_objects histories

/-! ## The store of one user alone -/

/-- An object of the user, without its id and its time. -/
structure Entry where
  name : Bytes
  path : Bytes
  size : Int
  is_directory : Bool
  deriving DecidableEq

/-- A call of the user, without its id and its time. -/
inductive Call
  | create (name path : Bytes) (size : Int) (is_directory : Bool)
  | update (name path : Bytes) (size : Int)
  | remove (name path : Bytes)
  | lookup (name path : Bytes)
  | list (path : Bytes)
  deriving DecidableEq

def call : Op → Call
  | .create_object _ _ _ n p size d => .create n p size d
  | .update_object_size _ _ n p size => .update n p size
  | .remove_fs_object _ n p => .remove n p
  | .get_object _ n p => .lookup n p
  | .get_objects_by_path _ p => .list p

/-- The objects of the user, oldest first. -/
abbrev PrivateStore := List Entry

namespace PrivateStore

def find (v : PrivateStore) (n p : Bytes) : Option Entry :=
  v.find? (fun e => decide (e.name = n ∧ e.path = p))

/-- The user may create the object: its directory is there, and the object is not. -/
def Allows (v : PrivateStore) (n p : Bytes) : Prop :=
  (p ≠ [slash] →
    (v.find (get_basename p) (get_parent_path p)).any (·.is_directory) = true) ∧
  v.find n p = none

instance (v : PrivateStore) (n p : Bytes) : Decidable (v.Allows n p) :=
  inferInstanceAs (Decidable (_ ∧ _))

def apply (v : PrivateStore) : Call → PrivateStore
  | .create n p size d => if v.Allows n p then v ++ [⟨n, p, size, d⟩] else v
  | .update n p size => v.map (fun e => if e.name = n ∧ e.path = p then { e with size } else e)
  | .remove n p =>
    match v.find n p with
    | none => v
    | some o => v.filter (fun e => decide (¬ ((e.name = n ∧ e.path = p) ∨
        (o.is_directory = true ∧ like (prefix_pattern p n) e.path = some true))))
  | .lookup _ _ => v
  | .list _ => v

def toSeen (e : Entry) : Seen :=
  { found := true, name := c_str e.name, path := c_str e.path, size := c_str (to_string e.size),
    is_directory := e.is_directory }

def answer (v : PrivateStore) : Call → Outcome
  | .create n p _ _ => .done (decide (v.Allows n p))
  | .update n p _ => .done (v.find n p).isSome
  | .remove n p => .done (v.find n p).isSome
  | .lookup n p => .object (((v.find n p).map toSeen).getD (seen {}))
  | .list p => .objects ((v.filter (fun e => decide (e.path = p))).map toSeen)

end PrivateStore

open PrivateStore

/-! ## What the table holds of one user -/

@[reducible] def entry (r : Row) : Entry := ⟨r.name, r.path, r.size, r.is_directory⟩

/-- The rows of the user `u`, as a store of their own. -/
def view (u : Bytes) (t : Table) : PrivateStore :=
  (t.rows.filter (fun r => decide (r.user_id = u))).map entry

theorem find_view (t : Table) (u n p : Bytes) :
    (view u t).find n p = (t.rows.find? (Table.isKey u n p)).map entry := by
  unfold PrivateStore.find view
  rw [List.find?_map, List.find?_filter]
  congr 2
  funext r
  rw [Bool.eq_iff_iff]
  simp [Table.isKey]

theorem found_iff {t : Table} (hg : Generated t) (u n p : Bytes) :
    (get_object t u n p).id ≠ [] ↔ ((view u t).find n p).isSome = true := by
  rw [find_view, get_object_eq]
  cases hf : t.rows.find? (Table.isKey u n p) with
  | none => simp
  | some r => simpa using hg.id_ne_nil (List.mem_of_find?_eq_some hf)

theorem seen_toObject {t : Table} (hg : Generated t) {r : Row} (hr : r ∈ t.rows) :
    seen r.toObject = toSeen (entry r) := by
  simp only [seen, toSeen, hg.id_ne_nil hr, ne_eq, not_false_eq_true, decide_true]
  rfl

theorem seen_get_object {t : Table} (hg : Generated t) (u n p : Bytes) :
    seen (get_object t u n p) = (((view u t).find n p).map toSeen).getD (seen {}) := by
  rw [find_view, get_object_eq]
  cases hf : t.rows.find? (Table.isKey u n p) with
  | none => rfl
  | some r => exact seen_toObject hg (List.mem_of_find?_eq_some hf)

theorem seen_get_objects_by_path {t : Table} (hg : Generated t) (u p : Bytes) :
    (get_objects_by_path t u p).map seen =
      ((view u t).filter (fun e => decide (e.path = p))).map toSeen := by
  rw [get_objects_by_path_eq, view, List.filter_map, List.map_map, List.map_map, List.filter_filter]
  have hf : t.rows.filter (fun r => decide (r.user_id = u ∧ r.path = p)) =
      t.rows.filter (fun r => ((fun e : Entry => decide (e.path = p)) ∘ entry) r &&
        decide (r.user_id = u)) := by
    refine List.filter_congr (fun r _ => ?_)
    rw [Bool.eq_iff_iff]
    simp [and_comm]
  rw [hf]
  exact List.map_congr_left (fun r hr => seen_toObject hg (List.mem_of_mem_filter hr))

theorem creatable_iff {t : Table} (hg : Generated t) (u n p : Bytes) :
    Creatable t u n p ↔ (view u t).Allows n p := by
  have hdir : ∀ m q, (get_object t u m q).id ≠ [] ∧ (get_object t u m q).is_directory = true ↔
      ((view u t).find m q).any (·.is_directory) = true := by
    intro m q
    rw [find_view, get_object_eq]
    cases hf : t.rows.find? (Table.isKey u m q) with
    | none => simp
    | some r =>
      have hid := hg.id_ne_nil (List.mem_of_find?_eq_some hf)
      simp only [Option.map_some, Option.getD_some, Option.any_some, hid, ne_eq, not_false_eq_true,
        true_and]
      rfl
  have hnone : (get_object t u n p).id = [] ↔ (view u t).find n p = none := by
    rw [← Option.not_isSome_iff_eq_none, ← found_iff hg]
    simp
  unfold Creatable PrivateStore.Allows
  rw [hdir, hnone]

/-! ## One call -/

/-- The id that a create gets is new to the table. -/
def Fresh (st : Store) : Op → Prop
  | .create_object uuid .. => ∀ r ∈ st.table.rows, r.object_id ≠ uuid.val
  | _ => True

/-- A create of `u` that passes its checks, for a name and a path that another user holds. -/
def Clash (u : Bytes) (st : Store) : Op → Prop
  | .create_object _ _ v n p _ _ =>
    v = u ∧ Creatable st.table u n p ∧ ∃ r ∈ st.table.rows, r.user_id ≠ u ∧ r.name = n ∧ r.path = p
  | _ => False

instance (st : Store) : (o : Op) → Decidable (Fresh st o)
  | .create_object .. => inferInstanceAs (Decidable (∀ r ∈ st.table.rows, _))
  | .update_object_size .. => inferInstanceAs (Decidable True)
  | .remove_fs_object .. => inferInstanceAs (Decidable True)
  | .get_object .. => inferInstanceAs (Decidable True)
  | .get_objects_by_path .. => inferInstanceAs (Decidable True)

instance (u : Bytes) (st : Store) : (o : Op) → Decidable (Clash u st o)
  | .create_object .. => inferInstanceAs (Decidable (_ ∧ _))
  | .update_object_size .. => inferInstanceAs (Decidable False)
  | .remove_fs_object .. => inferInstanceAs (Decidable False)
  | .get_object .. => inferInstanceAs (Decidable False)
  | .get_objects_by_path .. => inferInstanceAs (Decidable False)

/-- A create that passes its checks conflicts with a row of another user only. -/
theorem conflicts_iff {st : Store} (hg : Generated st.table) {uuid : Uuid} {u n p : Bytes}
    (hf : ∀ r ∈ st.table.rows, r.object_id ≠ uuid.val) (hc : Creatable st.table u n p)
    (now : Bytes) (size : Int) (d : Bool) :
    st.table.Conflicts (newRow uuid now u n p size d) ↔
      ∃ r ∈ st.table.rows, r.user_id ≠ u ∧ r.name = n ∧ r.path = p := by
  constructor
  · rintro ⟨r, hr, h | ⟨hn, hp⟩⟩
    · exact absurd h (hf r hr)
    · refine ⟨r, hr, ?_, hn, hp⟩
      intro hu
      exact (get_object_id_ne_nil_iff hg).mpr ⟨r, hr, hu, hn, hp⟩ hc.2
  · rintro ⟨r, hr, -, hn, hp⟩
    exact ⟨r, hr, Or.inr ⟨hn, hp⟩⟩

theorem view_create {st : Store} (hg : Generated st.table) {uuid : Uuid} {u n p : Bytes}
    (hf : ∀ r ∈ st.table.rows, r.object_id ≠ uuid.val) (now : Bytes) (size : Int) (d : Bool) :
    view u (create_object st uuid now u n p size d).1.table =
      if Creatable st.table u n p ∧ ¬ ∃ r ∈ st.table.rows, r.user_id ≠ u ∧ r.name = n ∧ r.path = p
      then view u st.table ++ [⟨n, p, size, d⟩] else view u st.table := by
  by_cases hc : Creatable st.table u n p
  · rw [create_object_of hc]
    simp only [hc, true_and, ← conflicts_iff hg hf hc now size d, Table.insert]
    by_cases h : st.table.Conflicts (newRow uuid now u n p size d)
    · simp only [h, dite_true, not_true_eq_false, if_false]
    · simp only [h, dite_false, not_false_eq_true, if_true]
      simp [view, List.filter_append, newRow, entry]
  · rw [create_object_of_not hc, if_neg (fun h => hc h.1)]

theorem view_update {st : Store} (hg : Generated st.table) (now u n p : Bytes) (size : Int) :
    view u (update_object_size st now u n p size).1.table =
      (view u st.table).map (fun e => if e.name = n ∧ e.path = p then { e with size } else e) := by
  unfold update_object_size
  simp only
  split
  · next hid =>
    symm
    rw [view, List.map_map]
    refine List.map_congr_left (fun r hr => ?_)
    simp only [List.mem_filter, decide_eq_true_eq] at hr
    rw [Function.comp, if_neg]
    rintro ⟨hn, hp⟩
    exact (get_object_id_ne_nil_iff hg).mpr ⟨r, hr.1, hr.2, hn, hp⟩ hid
  · next hid =>
    have hfilter : ∀ (s : Int) (m i : Bytes), (fun r => decide (r.user_id = u)) ∘
        Table.resize s m i = fun r => decide (r.user_id = u) := by
      intro s m i
      funext r
      obtain ⟨s', m', h⟩ := Table.resize_eq s m i r
      rw [Function.comp, h]
    simp only [view, Table.updateSize]
    rw [List.filter_map, hfilter, List.map_map, List.map_map]
    refine List.map_congr_left (fun r hr => ?_)
    simp only [List.mem_filter, decide_eq_true_eq] at hr
    have hkey := object_id_eq_iff hg hid hr.1
    by_cases hk : r.object_id = (get_object st.table u n p).id
    · obtain ⟨-, hn, hp⟩ := hkey.mp hk
      simp [Table.resize, hk, entry, hn, hp]
    · have hnot : ¬ (r.name = n ∧ r.path = p) := fun h => hk (hkey.mpr ⟨hr.2, h⟩)
      simp [Table.resize, hk, entry, hnot]

theorem view_remove {st : Store} (hg : Generated st.table) (u n p : Bytes) :
    view u (remove_fs_object st u n p).1.table = (view u st.table).apply (.remove n p) := by
  rw [view, remove_fs_object_rows, List.filter_filter]
  simp only [PrivateStore.apply]
  cases hf : (view u st.table).find n p with
  | none =>
    have hid : ¬ (get_object st.table u n p).id ≠ [] := by rw [found_iff hg, hf]; simp
    simp only [view]
    congr 1
    refine List.filter_congr (fun r _ => ?_)
    have : ¬ Removes st.table u n p r := fun h => hid h.1
    simp [this]
  | some o =>
    have hid : (get_object st.table u n p).id ≠ [] := by rw [found_iff hg, hf]; rfl
    have hdir : o.is_directory = (get_object st.table u n p).is_directory := by
      rw [find_view] at hf
      obtain ⟨r, hr, rfl⟩ := Option.map_eq_some_iff.mp hf
      rw [get_object_eq, hr]
      rfl
    simp only [view]
    rw [List.filter_map, List.filter_filter]
    congr 1
    refine List.filter_congr (fun r hr => ?_)
    rw [Bool.eq_iff_iff]
    simp only [Function.comp, Bool.and_eq_true, decide_eq_true_eq, Removes, hdir, isBelow,
      beq_iff_eq, object_id_eq_iff hg hid hr]
    tauto

/-- A call of another user leaves the view as it was. -/
theorem view_other {st : Store} (hg : Generated st.table) {u : Bytes} {o : Op} (h : o.user ≠ u) :
    view u (histories.apply st o).table = view u st.table := by
  cases o with
  | create_object uuid now v n p size d =>
    simp only [histories.apply]
    by_cases hc : Creatable st.table v n p
    · rw [create_object_of hc]
      simp only [Table.insert]
      split
      · rfl
      · have hv : ¬ v = u := h
        simp [view, List.filter_append, newRow, hv]
    · rw [create_object_of_not hc]
  | update_object_size now v n p size =>
    simp only [histories.apply, update_object_size]
    split
    · rfl
    · next hid =>
      have hfilter : ∀ (s : Int) (m i : Bytes), (fun r => decide (r.user_id = u)) ∘
          Table.resize s m i = fun r => decide (r.user_id = u) := by
        intro s m i
        funext r
        obtain ⟨s', m', h⟩ := Table.resize_eq s m i r
        rw [Function.comp, h]
      simp only [view, Table.updateSize]
      rw [List.filter_map, hfilter, List.map_map]
      refine List.map_congr_left (fun r hr => ?_)
      simp only [List.mem_filter, decide_eq_true_eq] at hr
      have hk : ¬ r.object_id = (get_object st.table v n p).id := by
        intro hk
        exact h (((object_id_eq_iff hg hid hr.1).mp hk).1.symm.trans hr.2)
      simp [Table.resize, hk]
  | remove_fs_object v n p =>
    simp only [histories.apply, view]
    rw [remove_fs_object_rows, List.filter_filter]
    congr 1
    refine List.filter_congr (fun r hr => ?_)
    by_cases hu : r.user_id = u
    · have hnot : ¬ Removes st.table v n p r := by
        rintro ⟨hid, hk | ⟨-, hb⟩⟩
        · exact h (((object_id_eq_iff hg hid hr).mp hk).1.symm.trans hu)
        · simp only [isBelow, Bool.and_eq_true, decide_eq_true_eq] at hb
          exact h (hb.1.symm.trans hu)
      simp [hu, hnot]
    · simp [hu]
  | get_object v n p => rfl
  | get_objects_by_path v p => rfl

/-- A call of the user: the view follows the store of the user alone exactly when the call is
no clash. -/
theorem view_own {st : Store} (hg : Generated st.table) {o : Op} (hf : Fresh st o) :
    view o.user (histories.apply st o).table = (view o.user st.table).apply (call o) ↔
      ¬ Clash o.user st o := by
  cases o with
  | create_object uuid now u n p size d =>
    simp only [histories.apply, Op.user, call, PrivateStore.apply, Clash, true_and]
    rw [view_create hg hf]
    simp only [← creatable_iff hg]
    by_cases hc : Creatable st.table u n p
    · simp only [hc, true_and, if_true]
      split
      · next h => exact ⟨fun _ => h, fun _ => rfl⟩
      · next h => exact ⟨fun he => absurd he (by simp), fun h' => absurd h' h⟩
    · simp [hc]
  | update_object_size now u n p size =>
    simp only [histories.apply, Op.user, call, PrivateStore.apply, Clash, not_false_eq_true, iff_true]
    exact view_update hg now u n p size
  | remove_fs_object u n p =>
    simp only [histories.apply, Op.user, call, Clash, not_false_eq_true, iff_true]
    exact view_remove hg u n p
  | get_object u n p =>
    simp only [histories.apply, call, PrivateStore.apply, Clash, not_false_eq_true]
  | get_objects_by_path u p =>
    simp only [histories.apply, call, PrivateStore.apply, Clash, not_false_eq_true]

/-- What a call gives its user is a function of the view alone, also for a clash. -/
theorem outcome_own {st : Store} (hg : Generated st.table) (o : Op) :
    outcome st o = (view o.user st.table).answer (call o) := by
  cases o with
  | create_object uuid now u n p size d =>
    change Outcome.done (decide ((create_object st uuid now u n p size d).2 ≠ [])) =
      Outcome.done (decide ((view u st.table).Allows n p))
    rw [Outcome.done.injEq, decide_eq_decide, ← creatable_iff hg u n p]
    by_cases hc : Creatable st.table u n p
    · simp [create_object_of hc, hc, uuid.ne_nil]
    · simp [create_object_of_not hc, hc]
  | update_object_size now u n p size =>
    simp only [outcome, call, answer, Op.user, Outcome.done.injEq]
    rw [Bool.eq_iff_iff, decide_eq_true_iff, ← found_iff hg, update_object_size]
    split
    · next h => simp [h]
    · next h => simp [h]
  | remove_fs_object u n p =>
    simp only [outcome, call, answer, Op.user, Outcome.done.injEq]
    rw [Bool.eq_iff_iff, ← found_iff hg, remove_fs_object_snd]
  | get_object u n p =>
    simp only [outcome, call, answer, Op.user, Outcome.object.injEq]
    exact seen_get_object hg u n p
  | get_objects_by_path u p =>
    simp only [outcome, call, answer, Op.user, Outcome.objects.injEq]
    exact seen_get_objects_by_path hg u p

/-! ## A history -/

/-- What the calls of `u` give, in order. -/
def outcomesOf (u : Bytes) : Store → List Op → List Outcome
  | _, [] => []
  | st, o :: ops =>
    if o.user = u then outcome st o :: outcomesOf u (histories.apply st o) ops
    else outcomesOf u (histories.apply st o) ops

/-- The calls of `u` in a history, in order. -/
def callsOf (u : Bytes) (ops : List Op) : List Call :=
  (ops.filter (fun o => decide (o.user = u))).map call

/-- What the store of one user alone answers to calls, in order. -/
def answers : PrivateStore → List Call → List Outcome
  | _, [] => []
  | v, c :: cs => v.answer c :: answers (v.apply c) cs

/-- Every create of the history gets an id that is new at that time. -/
def AllFresh (st : Store) (ops : List Op) : Prop :=
  runs.Along step (fun st o _ => Fresh st o) st ops

/-- No call of the history is a clash of `u`. -/
def NoClash (u : Bytes) (st : Store) (ops : List Op) : Prop :=
  runs.Along step (fun st o _ => ¬ Clash u st o) st ops

instance (st : Store) (ops : List Op) : Decidable (AllFresh st ops) :=
  inferInstanceAs (Decidable (runs.Along _ _ _ _))

instance (u : Bytes) (st : Store) (ops : List Op) : Decidable (NoClash u st ops) :=
  inferInstanceAs (Decidable (runs.Along _ _ _ _))

/-- The table refines the store of each user alone, as long as no call is a clash. -/
theorem outcomesOf_eq {u : Bytes} {st : Store} {ops : List Op} (hg : Generated st.table)
    (hf : AllFresh st ops) (hc : NoClash u st ops) :
    outcomesOf u st ops = answers (view u st.table) (callsOf u ops) := by
  induction ops generalizing st with
  | nil => rfl
  | cons o ops ih =>
    obtain ⟨hf1, hf2⟩ := runs.along_cons.mp hf _ rfl
    obtain ⟨hc1, hc2⟩ := runs.along_cons.mp hc _ rfl
    have ih := ih (generated_apply hg o) hf2 hc2
    by_cases hu : o.user = u
    · subst hu
      have hview := (view_own hg hf1).mpr hc1
      simp only [outcomesOf, callsOf, answers, List.filter_cons, decide_true, if_true,
        List.map_cons, outcome_own hg]
      rw [ih, hview]
      rfl
    · simp only [outcomesOf, callsOf, List.filter_cons, hu, decide_false, if_false,
        Bool.false_eq_true]
      rw [ih, view_other hg hu]
      rfl

/-! ## A user alone -/

/-- A history and, next to it, the calls of `u` alone. A create with an id that is not new ends
the history. -/
def together (u : Bytes) (s : Store × Store) (o : Op) : Option (Store × Store) :=
  if Fresh s.1 o ∧ Fresh s.2 o then
    some (histories.apply s.1 o, if o.user = u then histories.apply s.2 o else s.2)
  else none

/-- The user sees the same in both stores: the outcome of its call, and of every lookup and
listing after it. -/
def SeesTheSame (u : Bytes) (s : Store × Store) (o : Op) (s' : Store × Store) : Prop :=
  (o.user = u → outcome s.1 o = outcome s.2 o) ∧
  (∀ n p, outcome s'.1 (.get_object u n p) = outcome s'.2 (.get_object u n p)) ∧
  ∀ p, outcome s'.1 (.get_objects_by_path u p) = outcome s'.2 (.get_objects_by_path u p)

/-- What holds between the two stores: the user has the same in both, and the second one has
nobody else. -/
structure Alone (u : Bytes) (s : Store × Store) : Prop where
  generated : Generated s.1.table ∧ Generated s.2.table
  same : view u s.1.table = view u s.2.table
  nobody_else : ∀ r ∈ s.2.table.rows, r.user_id = u

theorem Alone.no_clash {u : Bytes} {s : Store × Store} (h : Alone u s) (o : Op) :
    ¬ Clash u s.2 o := by
  cases o with
  | create_object uuid now v n p size d =>
    rintro ⟨-, -, r, hr, hu, -⟩
    exact hu (h.nobody_else r hr)
  | _ => exact id

theorem nobody_else_apply {u : Bytes} {st : Store} (h : ∀ r ∈ st.table.rows, r.user_id = u)
    {o : Op} (ho : o.user = u) : ∀ r ∈ (histories.apply st o).table.rows, r.user_id = u := by
  intro x hx
  rcases mem_apply hx with ⟨r, hr, s, m, rfl⟩ | ⟨uuid, now, v, n, p, size, d, rfl, rfl, -⟩
  · exact h r hr
  · exact ho

theorem find_snoc {v : PrivateStore} {e : Entry} (h : v.find e.name e.path = none) :
    PrivateStore.find (v ++ [e]) e.name e.path = some e := by
  unfold PrivateStore.find at h ⊢
  rw [List.find?_append, h]
  simp

/-- A clash shows in the lookup of what was created: it is found where the user is alone, and
not found in the other store. -/
theorem not_seesTheSame_of_clash {u : Bytes} {s : Store × Store} {o : Op} (h : Alone u s)
    (hf : Fresh s.1 o ∧ Fresh s.2 o) (hc : Clash u s.1 o) :
    ¬ SeesTheSame u s o (histories.apply s.1 o, histories.apply s.2 o) := by
  cases o with
  | create_object uuid now v n p size d =>
    obtain ⟨rfl, hcreate, hother⟩ := hc
    rintro ⟨-, hlookup, -⟩
    have hallows := (creatable_iff h.generated.1 v n p).mp hcreate
    have hcreate' := (creatable_iff h.generated.2 v n p).mpr (h.same ▸ hallows)
    have hnobody : ¬ ∃ r ∈ s.2.table.rows, r.user_id ≠ v ∧ r.name = n ∧ r.path = p :=
      fun ⟨r, hr, hu, _⟩ => hu (h.nobody_else r hr)
    have h1 : view v (histories.apply s.1 (.create_object uuid now v n p size d)).table =
        view v s.1.table := by
      simp only [histories.apply]
      rw [view_create h.generated.1 hf.1, if_neg (fun h => h.2 hother)]
    have h2 : view v (histories.apply s.2 (.create_object uuid now v n p size d)).table =
        view v s.2.table ++ [⟨n, p, size, d⟩] := by
      simp only [histories.apply]
      rw [view_create h.generated.2 hf.2, if_pos ⟨hcreate', hnobody⟩]
    have hsame := hlookup n p
    rw [outcome_own (generated_apply h.generated.1 _), outcome_own (generated_apply h.generated.2 _)]
      at hsame
    have hnone : (view v s.1.table).find n p = none := hallows.2
    have hfound := find_snoc (e := ⟨n, p, size, d⟩) hnone
    rw [h.same] at hfound
    simp only [Op.user, call, answer, h1, h2, hnone, hfound] at hsame
    simp [seen, toSeen] at hsame
  | _ => exact absurd hc id

/-- The user sees what it would see alone if and only if its call is no clash. -/
theorem seesTheSame_iff {u : Bytes} {s s' : Store × Store} {o : Op} (h : Alone u s)
    (hs : together u s o = some s') :
    (SeesTheSame u s o s' ↔ ¬ Clash u s.1 o) ∧ (¬ Clash u s.1 o → Alone u s') := by
  simp only [together, Option.ite_none_right_eq_some, Option.some.injEq] at hs
  obtain ⟨hf, rfl⟩ := hs
  have keep : ¬ Clash u s.1 o → Alone u
      (histories.apply s.1 o, if o.user = u then histories.apply s.2 o else s.2) := by
    intro hc
    by_cases hu : o.user = u
    · subst hu
      rw [if_pos rfl]
      refine ⟨⟨generated_apply h.generated.1 o, generated_apply h.generated.2 o⟩, ?_,
        nobody_else_apply h.nobody_else rfl⟩
      rw [(view_own h.generated.1 hf.1).mpr hc, (view_own h.generated.2 hf.2).mpr (h.no_clash o),
        h.same]
    · rw [if_neg hu]
      exact ⟨⟨generated_apply h.generated.1 o, h.generated.2⟩,
        (view_other h.generated.1 hu).trans h.same, h.nobody_else⟩
  refine ⟨⟨fun hsees hc => ?_, fun hc => ?_⟩, keep⟩
  · have hu : o.user = u := by
      cases o with
      | create_object => exact hc.1
      | _ => exact absurd hc id
    rw [if_pos hu] at hsees
    exact not_seesTheSame_of_clash h hf hc hsees
  · have ha := keep hc
    refine ⟨?_, fun n p => ?_, fun p => ?_⟩
    · rintro rfl
      rw [outcome_own h.generated.1, outcome_own h.generated.2, h.same]
    · rw [outcome_own ha.generated.1, outcome_own ha.generated.2]
      exact congrArg (PrivateStore.answer · _) ha.same
    · rw [outcome_own ha.generated.1, outcome_own ha.generated.2]
      exact congrArg (PrivateStore.answer · _) ha.same

/-! ## The law -/

/-- For two histories with the same calls of `u`, whatever the other users call, every call
of `u` gives the same in both, as long as no create of `u` passes its checks for a name and a
path that another user holds at that time. And no less will do: in every history, the user sees
what it would see alone if and only if no such create comes. -/
theorem a_user_is_isolated_iff_no_create_clashes (u : Bytes) :
    (∀ h1 h2, callsOf u h1 = callsOf u h2 → AllFresh Store.empty h1 → AllFresh Store.empty h2 →
      NoClash u Store.empty h1 → NoClash u Store.empty h2 →
      outcomesOf u Store.empty h1 = outcomesOf u Store.empty h2) ∧
    ∀ ops, runs.Along (together u) (SeesTheSame u) (Store.empty, Store.empty) ops ↔
      runs.Along (together u) (fun s o _ => ¬ Clash u s.1 o) (Store.empty, Store.empty) ops := by
  constructor
  · intro h1 h2 hcalls hf1 hf2 hc1 hc2
    rw [outcomesOf_eq generated_empty hf1 hc1, outcomesOf_eq generated_empty hf2 hc2, hcalls]
  · intro ops
    refine runs.along_iff_of_invariant (J := Alone u) ?_ ?_
      ⟨⟨generated_empty, generated_empty⟩, rfl, fun r hr => nomatch hr⟩
    · exact fun s o s' h hs => (seesTheSame_iff h hs).1
    · exact fun s o s' h hs => (seesTheSame_iff h hs).2

/-- User "b" makes a directory and lists the root. -/
def oneUserAlone : List Op :=
  [.create_object (.ofRand 2) [] (lit "b") (lit "x") (lit "/") 0 true,
    .get_objects_by_path (lit "b") (lit "/")]

/-- The law at two histories: user "a" makes another directory in one of them. -/
theorem other_users_change_nothing_at_another_name :
    outcomesOf (lit "b") Store.empty
        (.create_object (.ofRand 1) [] (lit "a") (lit "y") (lit "/") 0 true :: oneUserAlone) =
      outcomesOf (lit "b") Store.empty oneUserAlone :=
  (a_user_is_isolated_iff_no_create_clashes (lit "b")).1 _ _ (by decide) (by decide) (by decide)
    (by decide) (by decide)

/-- Where user "a" makes a directory of the same name first, the create of "b" still answers
with an id, but the insert is ignored and the listing of "b" is empty. -/
theorem another_user_hides_a_new_directory :
    let h1 := Op.create_object (.ofRand 1) [] (lit "a") (lit "x") (lit "/") 0 true :: oneUserAlone
    callsOf (lit "b") h1 = callsOf (lit "b") oneUserAlone ∧ AllFresh Store.empty h1 ∧
      AllFresh Store.empty oneUserAlone ∧
      outcomesOf (lit "b") Store.empty h1 ≠ outcomesOf (lit "b") Store.empty oneUserAlone := by
  decide

end asio_ftp.isolation
