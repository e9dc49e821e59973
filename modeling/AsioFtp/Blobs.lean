-- The laws of the blobs: when every file in the data directory belongs to the row of a file, and
-- which blob an upload opens and writes.
import AsioFtp.Frames
import AsioFtp.Server

namespace asio_ftp.base_session

open helpers fs_objects histories

namespace Session

/-! ## The blobs after an event -/

section
variable (env : Env) (s : Session)

/-- A write keeps the blobs that are there, and makes none. -/
theorem isSome_absorb (f : OFStream) (n : Nat) (id : Bytes) :
    ((s.absorb env f n).m_fs_objects_table.blobs id).isSome =
      (s.m_fs_objects_table.blobs id).isSome := by
  unfold absorb
  split
  · exact isSome_writeBlob ..
  · rfl

theorem isSome_handle_data_async_receive_callback (ec : ErrorCode) (n : Nat) (id : Bytes) :
    ((s.handle_data_async_receive_callback env ec n).m_fs_objects_table.blobs id).isSome =
      (s.m_fs_objects_table.blobs id).isSome := by
  rcases Option.eq_none_or_eq_some s.m_receive_file_stream with h | ⟨f, h⟩
  · unfold handle_data_async_receive_callback
    simp only [h]
    rfl
  · rw [s.handle_data_async_receive_callback_eq env h, ← s.isSome_absorb env f n]
    split
    · have hstore := congrArg Files.store
        (kept_data_async_receive_end env _ (s.absorb_stream env h n))
      rw [show (data_async_receive_end env _).m_fs_objects_table = _ from hstore]
      refine (isSome_writeBlob ..).trans ?_
      exact congrArg (fun b => (b id).isSome) (update_object_size_blobs ..)
    · rfl

end

/-- What an event does to the blobs: it makes its call, and may open the blob of an upload. -/
theorem Stepped.blobs {env : Env} {s s' : Session} {e : Event} (h : Stepped env s e s')
    (he : ∀ store, e ≠ .elsewhere store) (id : Bytes) :
    (s'.m_fs_objects_table.blobs id).isSome =
      (((applied s.m_fs_objects_table (s.callOf env e)).blobs id).isSome ||
        decide (((s.uploader e).bind (opened env)).map (·.id) = some id)) := by
  by_cases hr : receives e = true
  · cases h with
    | data_received c ec received =>
      rw [isSome_handle_data_async_receive_callback]
      unfold callOf uploader
      simp only
      split
      · simp [applied, apply, callOfEnd, update_object_size_blobs]
      · simp [applied]
    | _ => simp [receives] at hr
  · have hstore := congrArg Files.store (h.kept he (by simpa using hr))
    rw [show s'.m_fs_objects_table = _ from hstore]
    exact afterOpening_blobs ..

end Session

end asio_ftp.base_session

namespace asio_ftp.blobs

open helpers fs_objects histories frames base_session base_session.Session server

/-! ## What a run keeps -/

/-- The row of a file has this id. -/
def OfFile (t : Table) (id : Bytes) : Prop :=
  ∃ r ∈ t.rows, r.object_id = id ∧ r.is_directory = false

instance (t : Table) (id : Bytes) : Decidable (OfFile t id) :=
  inferInstanceAs (Decidable (∃ r ∈ t.rows, _))

/-- The id of a new object is not the id of a row. -/
def FreshCall (t : Table) : Op → Prop
  | .create_object uuid .. => ∀ r ∈ t.rows, r.object_id ≠ uuid.val
  | _ => True

instance (t : Table) : (o : Op) → Decidable (FreshCall t o)
  | .create_object .. => inferInstanceAs (Decidable (∀ r ∈ t.rows, _))
  | .update_object_size .. => inferInstanceAs (Decidable True)
  | .remove_fs_object .. => inferInstanceAs (Decidable True)
  | .get_object .. => inferInstanceAs (Decidable True)
  | .get_objects_by_path .. => inferInstanceAs (Decidable True)

/-- The events of a server whose generated ids are fresh. -/
def step (sv : Server) (e : ServerEvent) : Option Server :=
  if ∀ o ∈ sv.callOf e, FreshCall sv.m_fs_objects_table.table o then sv.step e else none

/-- The blob that the bytes of an upload are written to, when some come or when another upload takes
the place of its stream: the one that the stream opened, unless it was removed since. -/
def written (s : Session) (e : Event) : Option Bytes :=
  if receives e = true ∨ (s.uploader e).isSome = true then
    (s.m_receive_file_stream.map (·.id)).filter fun id => (s.m_fs_objects_table.blobs id).isSome
  else none

def writtenBy (sv : Server) : ServerEvent → Option Bytes
  | .connected .. => none
  | .session k _ e => (sv.session k).bind (written · e)

/-- Every blob belongs to the row of a file. -/
def BlobsOfFiles (st : Store) : Prop := ∀ id, (st.blobs id).isSome = true → OfFile st.table id

/-- After the event every blob belongs to the row of a file, and so did the one it wrote. -/
def KeepsBlobs (sv : Server) (e : ServerEvent) (sv' : Server) : Prop :=
  BlobsOfFiles sv'.m_fs_objects_table ∧
    ∀ id ∈ writtenBy sv e, OfFile sv.m_fs_objects_table.table id

/-- An upload that opens its blob finds a file, or finds no object and no row of another user
that has the name and the path of the new one. -/
def OpensFile (s : Session) : Prop :=
  let path := get_parent_path s.m_pending_write_file
  let name := get_basename s.m_pending_write_file
  let object := get_object s.m_fs_objects_table.table s.m_userid name path
  if object.id = [] then ∀ r ∈ s.m_fs_objects_table.table.rows, ¬ (r.name = name ∧ r.path = path)
  else object.is_directory = false

def OpensFiles (sv : Server) (e : ServerEvent) (_ : Server) : Prop :=
  match e with
  | .connected .. => True
  | .session k env e =>
    ∀ s ∈ sv.session k, ∀ t ∈ s.uploader e, t.receiveOpens env = true → OpensFile t

/-! ## One event -/

/-- A call that opens no blob keeps the blobs with the files. -/
theorem blobs_of_files_apply {st : Store} (hg : Generated st.table) (h : BlobsOfFiles st)
    (o : Op) : BlobsOfFiles (apply st o) := by
  intro id hid
  cases o with
  | create_object uuid now u n p size d =>
    simp only [apply, create_object_blobs] at hid ⊢
    obtain ⟨r, hr, hrid, hd⟩ := h id hid
    refine ⟨r, ?_, hrid, hd⟩
    by_cases hc : Creatable st.table u n p
    · rw [create_object_of hc]
      exact mem_insert.mpr (Or.inl hr)
    · rw [create_object_of_not hc]
      exact hr
  | update_object_size now u n p size =>
    simp only [apply, update_object_size_blobs] at hid ⊢
    obtain ⟨r, hr, hrid, hd⟩ := h id hid
    obtain ⟨s, m, hmem⟩ := exists_update_object_size hr now u n p size
    exact ⟨_, hmem, hrid, hd⟩
  | remove_fs_object u n p =>
    simp only [apply, remove_fs_object_blobs] at hid ⊢
    split at hid
    · cases hid
    · next hno =>
      obtain ⟨r, hr, hrid, hd⟩ := h id hid
      refine ⟨r, mem_remove_fs_object.mpr ⟨hr, fun hrem => hno ?_⟩, hrid, hd⟩
      exact (mem_removed_files (readBack_of_generated hg)).mpr ⟨r, hr, hrid, hrem⟩
  | get_object u n p => exact h id hid
  | get_objects_by_path u p => exact h id hid

theorem blobs_of_files_applied {st : Store} (hg : Generated st.table) (h : BlobsOfFiles st)
    (o : Option Op) : BlobsOfFiles (applied st o) := by
  cases o with
  | none => exact h
  | some o => exact blobs_of_files_apply hg h o

/-- The blob that an upload opens belongs to a file if and only if the upload finds one, or its
new row is not dropped. -/
theorem opened_iff {env : Env} {s : Session} (hg : Generated s.m_fs_objects_table.table)
    (hfresh : ∀ o ∈ s.callOfUpload env, FreshCall s.m_fs_objects_table.table o)
    (hopens : s.receiveOpens env = true) :
    OfFile (s.heldAfter (s.callOfUpload env)).table (s.receiveTarget env).id ↔
      OpensFile s := by
  unfold OpensFile
  simp only
  by_cases hid : (get_object s.m_fs_objects_table.table s.m_userid
      (get_basename s.m_pending_write_file) (get_parent_path s.m_pending_write_file)).id = []
  · rw [if_pos hid]
    let row := newRow env.uuid env.now s.m_userid (get_basename s.m_pending_write_file)
      (get_parent_path s.m_pending_write_file) 0 false
    have hcall : s.callOfUpload env = some (.create_object env.uuid env.now s.m_userid
        (get_basename s.m_pending_write_file) (get_parent_path s.m_pending_write_file) 0 false) :=
      if_pos hid
    have htarget : (s.receiveTarget env).id = (create_object s.m_fs_objects_table env.uuid env.now
        s.m_userid (get_basename s.m_pending_write_file) (get_parent_path s.m_pending_write_file)
        0 false).2 := congrArg Target.id (if_pos hid)
    -- Without its checks the create gives no id, and no file opens.
    have hc : Creatable s.m_fs_objects_table.table s.m_userid (get_basename s.m_pending_write_file)
        (get_parent_path s.m_pending_write_file) := by
      by_contra hc
      rw [receiveOpens, htarget, create_object_of_not hc] at hopens
      simp at hopens
    have htable : (s.heldAfter (s.callOfUpload env)).table =
        s.m_fs_objects_table.table.insert row := by
      rw [hcall]
      exact congrArg (·.1.table) (create_object_of hc env.uuid env.now 0 false)
    rw [create_object_of hc] at htarget
    have hnew : ∀ r ∈ s.m_fs_objects_table.table.rows, r.object_id ≠ env.uuid.val :=
      hfresh _ hcall
    rw [htable, htarget]
    constructor
    · rintro ⟨x, hx, hxid, -⟩ r hr hkey
      rcases mem_insert.mp hx with hx | ⟨-, hno⟩
      · exact hnew x hx hxid
      · exact hno ⟨r, hr, Or.inr hkey⟩
    · intro hkey
      refine ⟨row, mem_insert.mpr (Or.inr ⟨rfl, ?_⟩), rfl, rfl⟩
      rintro ⟨x, hx, hxid | hxkey⟩
      · exact hnew x hx hxid
      · exact hkey x hx hxkey
  · rw [if_neg hid]
    obtain ⟨r, hr, hu, hn, hp, hobj⟩ := exists_of_get_object hid
    have hcall : s.callOfUpload env = none := if_neg hid
    have htarget : (s.receiveTarget env).id = r.object_id := by
      rw [← hg.id_eq hr, ← hobj]
      exact congrArg Target.id (if_neg hid)
    rw [hcall, htarget, hobj]
    constructor
    · rintro ⟨x, hx, hxid, hd⟩
      obtain rfl := s.m_fs_objects_table.table.eq_of_id hx hr hxid
      exact hd
    · exact fun hd => ⟨r, hr, rfl, hd⟩

/-- What holds between the events. -/
structure Filed (sv : Server) : Prop where
  generated : Generated sv.m_fs_objects_table.table
  files : BlobsOfFiles sv.m_fs_objects_table

/-- The call of an upload that starts is the call of its event. -/
theorem callOf_of_uploader {env : Env} {s t : Session} {e : Event} (h : s.uploader e = some t) :
    t.m_fs_objects_table = s.m_fs_objects_table ∧ s.callOf env e = t.callOfUpload env := by
  cases e with
  | control_received ec received =>
    simp only [uploader, Option.ite_none_right_eq_some, Option.some.injEq] at h
    obtain ⟨hs, rfl⟩ := h
    refine ⟨rfl, ?_⟩
    obtain ⟨hl, hc, hrest⟩ := hs
    unfold callOf
    simp only
    rw [hc]
    simp +decide [callOfCommand, hl, hrest]
  | accepted ec =>
    simp only [uploader, Option.ite_none_right_eq_some, Option.some.injEq] at h
    obtain ⟨⟨hec, hclass, hp⟩, rfl⟩ := h
    refine ⟨rfl, ?_⟩
    unfold callOf
    simp only
    rw [if_pos ⟨hec, hclass⟩]
    exact if_pos hp
  | data_handshaken ec =>
    simp only [uploader, Option.ite_none_right_eq_some, Option.some.injEq] at h
    obtain ⟨⟨hec, hp⟩, rfl⟩ := h
    refine ⟨rfl, ?_⟩
    unfold callOf
    simp only
    rw [if_pos hec]
    exact if_pos hp
  | _ => cases h

/-- What a part of an upload is written to is a blob. -/
theorem ofFile_of_written {sv : Server} (hf : Filed sv) (e : ServerEvent) :
    ∀ id ∈ writtenBy sv e, OfFile sv.m_fs_objects_table.table id := by
  intro id hid
  cases e with
  | connected lap available => cases hid
  | session k env e =>
    simp only [writtenBy, Option.mem_def, Option.bind_eq_some_iff] at hid
    obtain ⟨s, hk, hw⟩ := hid
    simp only [written, Option.ite_none_right_eq_some, Option.filter_eq_some_iff] at hw
    exact hf.files id (Server.store_of_session hk ▸ hw.2.2)

theorem keeps_blobs_iff {sv sv' : Server} {e : ServerEvent} (hf : Filed sv)
    (h : step sv e = some sv') : KeepsBlobs sv e sv' ↔ OpensFiles sv e sv' := by
  simp only [step, Option.ite_none_right_eq_some] at h
  obtain ⟨hfresh, h⟩ := h
  have htable := Server.table_of_step h
  have hkept := blobs_of_files_applied hf.generated hf.files (sv.callOf e)
  rw [KeepsBlobs, and_iff_left (ofFile_of_written hf e)]
  cases Server.step_served h with
  | connected lap available => exact iff_of_true hf.files trivial
  | session k env e s s' hk hne hs =>
    have hstore := Server.store_of_session hk
    have hcall : sv.callOf (.session k env e) = s.callOf env e := by
      rw [Server.callOf, hk]
      rfl
    rw [hcall] at htable hkept hfresh
    rw [← hstore] at htable hkept hfresh
    -- Only the blob that the event opens can be without a file.
    have hiff : BlobsOfFiles s'.m_fs_objects_table ↔
        ∀ file ∈ (s.uploader e).bind (opened env),
          OfFile (applied s.m_fs_objects_table (s.callOf env e)).table file.id := by
      have htable' : s'.m_fs_objects_table.table =
        (applied s.m_fs_objects_table (s.callOf env e)).table := htable
      unfold BlobsOfFiles
      rw [htable']
      simp only [(step_stepped hs).2.blobs hne, Bool.or_eq_true, decide_eq_true_eq,
        Option.map_eq_some_iff]
      constructor
      · exact fun h file hfile => h _ (Or.inr ⟨file, hfile, rfl⟩)
      · rintro h id (hid | ⟨file, hfile, rfl⟩)
        · exact hkept id hid
        · exact h file hfile
    show BlobsOfFiles s'.m_fs_objects_table ↔ _
    rw [hiff]
    simp only [OpensFiles, hk, Option.mem_def, Option.some.injEq, forall_eq']
    cases hup : s.uploader e with
    | none => simp
    | some t =>
      obtain ⟨hsame, hcallt⟩ := @callOf_of_uploader env _ _ _ hup
      rw [hcallt] at hfresh ⊢
      simp only [Option.bind_some, Option.some.injEq, forall_eq', opened,
        Option.ite_none_right_eq_some]
      have hopened := @opened_iff env t
        (by rw [hsame, hstore]; exact hf.generated) (by rw [hsame]; exact hfresh)
      rw [← hsame]
      constructor
      · exact fun hall ho => (hopened ho).mp (hall _ ⟨ho, rfl⟩)
      · rintro hall file ⟨ho, rfl⟩
        exact (hopened ho).mpr (hall ho)

theorem filed_step {sv sv' : Server} {e : ServerEvent} (hf : Filed sv)
    (h : step sv e = some sv') (hb : BlobsOfFiles sv'.m_fs_objects_table) : Filed sv' := by
  simp only [step, Option.ite_none_right_eq_some] at h
  refine ⟨?_, hb⟩
  rw [Server.table_of_step h.2]
  exact generated_applied hf.generated _

/-! ## The law -/

/-- In a run of a server from an empty store, with fresh ids, every blob belongs to the row of a
file after every event, and no part of an upload goes to another blob, if and only if every upload
that opens its blob finds a file, or finds nothing and no row of another user in its place. -/
theorem blobs_belong_to_files_iff_uploads_open_files (session_class : SessionClass)
    (users : users.Table) (es : List ServerEvent) :
    runs.Along step KeepsBlobs (Server.init session_class users) es ↔
      runs.Along step OpensFiles (Server.init session_class users) es := by
  refine runs.along_iff_of_invariant (J := Filed) ?_ ?_ ⟨generated_empty, ?_⟩
  · exact fun sv e sv' hf h => keeps_blobs_iff hf h
  · exact fun sv e sv' hf h ho => filed_step hf h ((keeps_blobs_iff hf h).mpr ho).1
  · intro id h
    cases h

/-- STOR of the name of a directory opens the blob of that directory. -/
theorem the_blob_of_a_directory_is_opened : ¬ runs.Along step KeepsBlobs
    (Server.init .session users.Table.annAndBob)
    [.connected 0 0,
      .session 0 (clientLine "USER ann").1 (clientLine "USER ann").2,
      .session 0 (clientLine "PASS pw1").1 (clientLine "PASS pw1").2,
      .session 0 (Env.working 3) (clientLine "MKD d").2,
      .session 0 (clientLine "STOR d").1 (clientLine "STOR d").2,
      .session 0 (Env.working 4) (.accepted .success)] := by
  intro h
  have hblob := runs.along_mono (fun _ _ _ hk => hk.1 (Uuid.ofRand 3).val) h
  revert hblob
  decide

end asio_ftp.blobs
