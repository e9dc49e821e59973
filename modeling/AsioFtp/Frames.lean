-- The laws of what a call leaves as it is: the rows and the blobs of the other users, and which
-- blobs a removal deletes.
import AsioFtp.Histories

namespace asio_ftp.frames

open helpers sqlite_wrapper fs_objects histories

/-! ## What a removal deletes -/

/-- The ids whose files `remove_fs_object` removes, in the order of its calls. -/
def removed_files (t : Table) (user_id object_name object_path : Bytes) : List Bytes :=
  let object := get_object t user_id object_name object_path
  if object.id = [] then []
  else
    (if object.is_directory then
      run_param_query (object_ids_below t user_id (prefix_pattern object_path object_name))
    else []) ++ [object.id]

theorem foldl_remove_file_blobs (ids : List Bytes) (st : Store) (i : Bytes) :
    (ids.foldl Store.remove_file st).blobs i = if i ∈ ids then none else st.blobs i := by
  induction ids generalizing st with
  | nil => rfl
  | cons id ids ih =>
    rw [List.foldl_cons, ih]
    by_cases h : i ∈ ids
    · rw [if_pos h, if_pos (List.mem_cons_of_mem _ h)]
    · simp [h, Store.remove_file]

/-- A removal keeps the other files. -/
theorem remove_fs_object_blobs (st : Store) (u n p i : Bytes) :
    (remove_fs_object st u n p).1.blobs i =
      if i ∈ removed_files st.table u n p then none else st.blobs i := by
  unfold remove_fs_object removed_files
  simp only
  split
  · simp
  · split
    · simp only [Store.remove_file, foldl_remove_file_blobs, List.mem_append, List.mem_singleton]
      by_cases hi : i = (get_object st.table u n p).id
      · simp [hi]
      · simp [hi]
    · simp [Store.remove_file]

/-- The ids of the rows read back whole: none has a NUL. -/
def ReadBack (t : Table) : Prop := ∀ r ∈ t.rows, c_str r.object_id = r.object_id

instance (t : Table) : Decidable (ReadBack t) := inferInstanceAs (Decidable (∀ r ∈ t.rows, _))

theorem readBack_of_generated {t : Table} (h : Generated t) : ReadBack t := by
  intro r hr
  exact h.id_eq hr

/-- The id of a found object is the id of its row. -/
theorem exists_row_of_get_object {t : Table} (ht : ReadBack t) {u n p : Bytes}
    (h : (get_object t u n p).id ≠ []) :
    ∃ r ∈ t.rows, r.user_id = u ∧ r.object_id = (get_object t u n p).id := by
  obtain ⟨r, hr, hu, -, -, hobj⟩ := exists_of_get_object h
  exact ⟨r, hr, hu, by rw [hobj]; exact (ht r hr).symm⟩

/-- The files of a removal are those of the rows that it deletes. -/
theorem mem_removed_files {t : Table} (ht : ReadBack t) {u n p id : Bytes} :
    id ∈ removed_files t u n p ↔ ∃ r ∈ t.rows, r.object_id = id ∧ Removes t u n p r := by
  unfold removed_files Removes
  simp only
  by_cases hid : (get_object t u n p).id = []
  · simp [hid]
  · have hbelow : ∀ rows : List Row, (∀ r ∈ rows, r ∈ t.rows) →
        run_param_query (rows.map fun r => [r.object_id]) = rows.map Row.object_id := by
      intro rows hrows
      induction rows with
      | nil => rfl
      | cons r rows ih =>
        have hr := ht r (hrows r List.mem_cons_self)
        have hrest := ih (fun x hx => hrows x (List.mem_cons_of_mem _ hx))
        simp only [run_param_query] at hrest
        simp [run_param_query, hr, hrest]
    rw [if_neg hid, object_ids_below, select_whereBelow,
      hbelow _ (fun r hr => List.mem_of_mem_filter hr)]
    obtain ⟨o, ho, -, hoid⟩ := exists_row_of_get_object ht hid
    constructor
    · intro h
      rcases List.mem_append.mp h with h | h
      · split at h
        · next hd =>
          obtain ⟨r, hr, rfl⟩ := List.mem_map.mp h
          obtain ⟨hr, hb⟩ := List.mem_filter.mp hr
          exact ⟨r, hr, rfl, hid, Or.inr ⟨hd, hb⟩⟩
        · simp at h
      · rw [List.mem_singleton.mp h]
        exact ⟨o, ho, hoid, hid, Or.inl hoid⟩
    · rintro ⟨r, hr, rfl, -, hrem⟩
      rcases hrem with h | ⟨hd, hb⟩
      · exact List.mem_append_right _ (List.mem_singleton.mpr h)
      · rw [if_pos hd]
        exact List.mem_append_left _ (List.mem_map_of_mem (List.mem_filter.mpr ⟨hr, hb⟩))

/-! ## The other users -/

/-- The rows of every user but `u`. -/
def others (u : Bytes) (t : Table) : List Row := t.rows.filter (fun r => decide (r.user_id ≠ u))

/-- The rows of every user but `u` and their blobs are the same. -/
structure SameForOthers (u : Bytes) (st st' : Store) : Prop where
  rows : others u st'.table = others u st.table
  blobs : ∀ r ∈ others u st.table, st'.blobs r.object_id = st.blobs r.object_id

theorem sameForOthers_refl (u : Bytes) (st : Store) : SameForOthers u st st := ⟨rfl, fun _ _ => rfl⟩

theorem others_insert {t : Table} {r : Row} {u : Bytes} (h : r.user_id = u) :
    others u (t.insert r) = others u t := by
  unfold Table.insert others
  split
  · rfl
  · simp [h]

/-- A row that belongs to somebody else does not have the id that the lookup of `u` found. -/
theorem id_ne_of_other {t : Table} (ht : ReadBack t) {u n p : Bytes}
    (h : (get_object t u n p).id ≠ []) {r : Row} (hr : r ∈ t.rows) (hu : r.user_id ≠ u) :
    r.object_id ≠ (get_object t u n p).id := by
  intro he
  obtain ⟨o, ho, hou, hoid⟩ := exists_row_of_get_object ht h
  obtain rfl := t.eq_of_id hr ho (he.trans hoid.symm)
  exact hu hou

theorem sameForOthers_update {st : Store} (ht : ReadBack st.table) (now u n p : Bytes)
    (size : Int) : SameForOthers u st (update_object_size st now u n p size).1 := by
  unfold update_object_size
  simp only
  split
  · exact sameForOthers_refl u st
  next hid =>
  refine ⟨?_, fun _ _ => rfl⟩
  unfold others Table.updateSize
  simp only
  rw [List.filter_map]
  have hkey : (fun r : Row => decide (r.user_id ≠ u)) ∘
      Table.resize size now (get_object st.table u n p).id = fun r => decide (r.user_id ≠ u) := by
    funext r
    obtain ⟨s, m, he⟩ := Table.resize_eq size now (get_object st.table u n p).id r
    simp [he]
  rw [hkey]
  conv_rhs => rw [← List.map_id (List.filter _ _)]
  refine List.map_congr_left (fun r hr => ?_)
  obtain ⟨hr, hu⟩ := List.mem_filter.mp hr
  exact if_neg (id_ne_of_other ht hid hr (of_decide_eq_true hu))

/-- A removal deletes rows of its user only. -/
theorem user_of_removes {t : Table} (ht : ReadBack t) {u n p : Bytes} {r : Row} (hr : r ∈ t.rows)
    (h : Removes t u n p r) : r.user_id = u := by
  obtain ⟨hid, h⟩ := h
  by_contra hu
  rcases h with h | ⟨-, h⟩
  · exact id_ne_of_other ht hid hr hu h
  · simp [isBelow, hu] at h

theorem sameForOthers_remove {st : Store} (ht : ReadBack st.table) (u n p : Bytes) :
    SameForOthers u st (remove_fs_object st u n p).1 := by
  constructor
  · unfold others
    rw [remove_fs_object_rows, List.filter_filter]
    refine List.filter_congr (fun r hr => ?_)
    have hrem : r.user_id ≠ u → ¬ Removes st.table u n p r := mt (user_of_removes ht hr)
    by_cases hu : r.user_id = u
    · simp [hu]
    · simp [hu, hrem hu]
  · intro r hr
    obtain ⟨hr, hu⟩ := List.mem_filter.mp hr
    rw [remove_fs_object_blobs, if_neg]
    intro hm
    obtain ⟨x, hx, hxid, hrem⟩ := (mem_removed_files ht).mp hm
    obtain rfl := st.table.eq_of_id hx hr hxid
    exact of_decide_eq_true hu (user_of_removes ht hx hrem)

/-! ## The law -/

/-- The files of the rows that a call deletes are gone, and it removes no other file. -/
structure RemovesFilesOfRows (st st' : Store) : Prop where
  gone : ∀ r ∈ st.table.rows, r ∉ st'.table.rows → st'.blobs r.object_id = none
  kept : ∀ id, (∀ r ∈ st.table.rows, r.object_id = id → r ∈ st'.table.rows) →
    st'.blobs id = st.blobs id

theorem removesFilesOfRows_remove {st : Store} (ht : ReadBack st.table) (u n p : Bytes) :
    RemovesFilesOfRows st (remove_fs_object st u n p).1 := by
  constructor
  · intro r hr hgone
    have hrem : Removes st.table u n p r := by
      by_contra hno
      exact hgone (mem_remove_fs_object.mpr ⟨hr, hno⟩)
    rw [remove_fs_object_blobs, if_pos ((mem_removed_files ht).mpr ⟨r, hr, rfl, hrem⟩)]
  · intro id hkept
    rw [remove_fs_object_blobs, if_neg]
    intro hm
    obtain ⟨r, hr, hid, hrem⟩ := (mem_removed_files ht).mp hm
    exact (mem_remove_fs_object.mp (hkept r hr hid)).2 hrem

/-- In every table with ids that read back, a call of one user leaves the rows and the blobs of
the others as they are, and a removal deletes the blobs of exactly the rows that it deletes. -/
theorem a_call_changes_only_its_user (st : Store) (h : ReadBack st.table) (o : Op) :
    SameForOthers o.user st (apply st o) ∧
      ∀ u n p, o = .remove_fs_object u n p → RemovesFilesOfRows st (apply st o) := by
  constructor
  · cases o with
    | create_object uuid now u n p size d =>
      simp only [apply, Op.user]
      by_cases hc : Creatable st.table u n p
      · rw [create_object_of hc]
        exact ⟨others_insert rfl, fun _ _ => rfl⟩
      · rw [create_object_of_not hc]
        exact sameForOthers_refl u st
    | update_object_size now u n p size => exact sameForOthers_update h now u n p size
    | remove_fs_object u n p => exact sameForOthers_remove h u n p
    | get_object u n p => exact sameForOthers_refl u st
    | get_objects_by_path u p => exact sameForOthers_refl u st
  · rintro u n p rfl
    exact removesFilesOfRows_remove h u n p

/-- Two users with a directory and a file in it. The directory of "u" has the name "%". There is a
file for every id. -/
def wildcardStore : Store :=
  { after Store.empty
      [.create_object (.ofRand 1) [] (lit "v") (lit "d") (lit "/") 0 true,
        .create_object (.ofRand 2) [] (lit "v") (lit "f") (lit "/d") 0 false,
        .create_object (.ofRand 3) [] (lit "u") (lit "%") (lit "/") 0 true,
        .create_object (.ofRand 4) [] (lit "u") (lit "g") (lit "/%") 0 false] with
    blobs := fun _ => some (lit "x") }

/-- The law at the removal of the directory "%" of "u". The pattern "/%%" matches every path, and so
the path of the file of "v" too. -/
theorem a_wildcard_directory_takes_only_rows_of_its_user :
    SameForOthers (lit "u") wildcardStore
        (apply wildcardStore (.remove_fs_object (lit "u") (lit "%") (lit "/"))) ∧
      RemovesFilesOfRows wildcardStore
        (apply wildcardStore (.remove_fs_object (lit "u") (lit "%") (lit "/"))) ∧
      (apply wildcardStore (.remove_fs_object (lit "u") (lit "%") (lit "/"))).blobs
        (Uuid.ofRand 4).val = none := by
  have h : ReadBack wildcardStore.table := readBack_of_generated (generated_after generated_empty _)
  have hlaw := a_call_changes_only_its_user wildcardStore h
    (.remove_fs_object (lit "u") (lit "%") (lit "/"))
  exact ⟨hlaw.1, hlaw.2 _ _ _ rfl, by decide⟩

end asio_ftp.frames
