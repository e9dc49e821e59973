-- The laws of the downloads: what a download sends of a file that was uploaded any number of
-- times, and when its loop stops.
import AsioFtp.Lib.Reads
import AsioFtp.Uploads

namespace asio_ftp.downloads

open helpers fs_objects histories base_session base_session.Session server uploads

/-! ## Whole downloads -/

/-- The session when RETR found the object. -/
def requested (s : Session) (name path : Bytes) : Session :=
  { s with m_sendable_file_id := (get_object s.m_fs_objects_table.table s.m_userid name path).id }

/-- The writes of a download, from the one that is outstanding: each of them succeeds, and its
callback starts the next one or ends the download, which resets the stream. -/
def sends (env : Env) : Nat → Session → Option (List Bytes × Session)
  | 0, _ => none
  | fuel + 1, s =>
    let t := s.handle_data_async_send_callback env .success
    if t.m_send_file_stream.isNone then some ([s.m_send_buffer], t)
    else (sends env fuel t).map fun (chunks, last) => (s.m_send_buffer :: chunks, last)

/-- A download on its way: the stream of the file `id` stands at `pos`, and has not met the end. -/
structure Sending (id content : Bytes) (pos : Nat) (s : Session) : Prop where
  stream : ∃ f, s.m_send_file_stream = some f ∧ f.id = id ∧ f.pos = pos ∧ f.is_open = true ∧
    f.eofbit = false ∧ f.failbit = false
  blob : s.m_fs_objects_table.blobs id = some content

section
variable {env : Env} {id content : Bytes}

/-- A read that succeeds gives the next part, and meets the end of the file when it gets fewer
bytes than it asked for. -/
theorem read_sending {f : IFStream} (hid : f.id ≠ []) (ho : f.is_open = true)
    (he : f.eofbit = false) (hf : f.failbit = false) (n : Nat) :
    f.read content n none =
      ({ f with
        pos := f.pos + ((content.drop f.pos).take n).length
        eofbit := decide ((content.drop f.pos).length < n)
        failbit := decide ((content.drop f.pos).length < n) }, (content.drop f.pos).take n) := by
  simp [IFStream.read, ho, he, hf, hid]

/-- What the next write of a download is, and the state of its stream. -/
theorem data_async_send_of_sending (hid : id ≠ []) (hfails : env.disk_fails = none) {pos : Nat}
    {s : Session} (h : Sending id content pos s) :
    ∃ f, (s.data_async_send env).m_send_file_stream = some f ∧ f.id = id ∧ f.is_open = true ∧
      f.pos = pos + ((content.drop pos).take SEND_BUFFER_SIZE).length ∧
      f.eofbit = decide ((content.drop pos).length < SEND_BUFFER_SIZE) ∧ f.failbit = f.eofbit ∧
      (s.data_async_send env).m_send_buffer = (content.drop pos).take SEND_BUFFER_SIZE ∧
      (s.data_async_send env).m_fs_objects_table = s.m_fs_objects_table := by
  obtain ⟨f, hs, rfl, rfl, ho, he, hf⟩ := h.stream
  have hread := @read_sending content f hid ho he hf SEND_BUFFER_SIZE
  unfold data_async_send
  rw [hs]
  simp only [h.blob, Option.getD_some, hfails, hread]
  exact ⟨_, rfl, rfl, ho, rfl, rfl, rfl, rfl, rfl⟩

theorem stream_data_async_send_end {s : Session} {f : IFStream}
    (h : s.m_send_file_stream = some f) : s.data_async_send_end.m_send_file_stream = none := by
  unfold data_async_send_end
  rw [h]
  simp only
  obtain ⟨o, n, hclose⟩ := data_close_eq
    ({ s with m_send_file_stream := none, m_sendable_file_id := [] }.control_send (lit "226 Sent."))
  rw [hclose]
  rfl

/-- From any position, a download sends the rest of the file, in as many writes as there are full
buffers in it and one more. -/
theorem sends_eq (hid : id ≠ []) (hfails : env.disk_fails = none) (fuel : Nat) {pos : Nat}
    {s : Session} (h : Sending id content pos s)
    (hfuel : (buffered.reads SEND_BUFFER_SIZE (content.drop pos)).length = fuel) :
    ∃ t, sends env fuel (s.data_async_send env) =
      some (buffered.reads SEND_BUFFER_SIZE (content.drop pos), t) ∧
      t.m_send_file_stream = none := by
  have hN : 0 < SEND_BUFFER_SIZE := by decide
  induction fuel generalizing pos s with
  | zero =>
    rw [buffered.length_reads hN] at hfuel
    exact absurd hfuel (Nat.succ_ne_zero _)
  | succ fuel ih =>
    obtain ⟨f, hs, hfid, ho, hpos, he, hf, hbuffer, hstore⟩ :=
      data_async_send_of_sending hid hfails h
    unfold sends
    simp only [handle_data_async_send_callback_eq env _ hs, hbuffer]
    by_cases hlast : (content.drop pos).length < SEND_BUFFER_SIZE
    · have heof : f.eofbit = true := he.trans (decide_eq_true hlast)
      have hends : (s.data_async_send env).sendEnds .success = true := by
        simp [sendEnds, hs, heof]
      have hnone := stream_data_async_send_end hs
      refine ⟨(s.data_async_send env).data_async_send_end, ?_, hnone⟩
      rw [if_pos hends, if_pos (by rw [hnone]; rfl), buffered.reads_short hlast,
        List.take_of_length_le hlast.le]
    · have heof : f.eofbit = false := he.trans (decide_eq_false hlast)
      have hgoes : ¬ (s.data_async_send env).sendEnds .success = true := by
        simp [sendEnds, hs, heof]
      have hfull : SEND_BUFFER_SIZE ≤ (content.drop pos).length := Nat.not_lt.mp hlast
      have hdrop : (content.drop pos).drop SEND_BUFFER_SIZE =
          content.drop (pos + SEND_BUFFER_SIZE) :=
        List.drop_drop
      have hnext : Sending id content (pos + SEND_BUFFER_SIZE) (s.data_async_send env) := by
        refine ⟨⟨f, hs, hfid, ?_, ho, heof, hf.trans heof⟩, ?_⟩
        · rw [hpos, List.length_take, Nat.min_eq_left hfull]
        · rw [hstore]
          exact h.blob
      obtain ⟨g, hg, -⟩ := data_async_send_of_sending hid hfails hnext
      rw [buffered.reads_full hN hfull, List.length_cons, hdrop, Nat.add_right_cancel_iff] at hfuel
      obtain ⟨t, ht, hnone⟩ := ih hnext hfuel
      refine ⟨t, ?_, hnone⟩
      rw [if_neg hgoes, if_neg (by rw [hg]; simp), ht, buffered.reads_full hN hfull, hdrop]
      rfl

end

/-! ## Uploads to one object -/

/-- The next upload of a user to one object, by any of the sessions. -/
def step (user_id name path : Bytes) (sv : Server) (u : Upload) : Option Server :=
  (sv.session u.k).bind fun s =>
    if s.m_connection_stage = .LOGGED_IN ∧ s.m_userid = user_id ∧ get_basename u.file = name ∧
        get_parent_path u.file = path ∧ (u.begins s).receiveOpens u.env = true then
      some (sv.put u.k (u.ends s))
    else none

/-- The object has a row, and its blob has this content. -/
def Holds (st : Store) (user_id name path content : Bytes) : Prop :=
  ∃ r ∈ st.table.rows, (r.user_id = user_id ∧ r.name = name ∧ r.path = path) ∧
    st.blobs r.object_id = some content

/-- The upload finds its object, or its new row is inserted and its blob is not there yet. -/
def CreatesItsRow (st : Store) (u : Upload) (user_id name path : Bytes) : Prop :=
  (get_object st.table user_id name path).id = [] →
    Inserts st.table (.create_object u.uuid u.now user_id name path 0 false) ∧
      st.blobs u.uuid.val = none

instance (st : Store) (u : Upload) (user_id n p : Bytes) :
    Decidable (CreatesItsRow st u user_id n p) := inferInstanceAs (Decidable (_ → _))

theorem holds_upload {u : Upload} {s : Session} (hg : Generated s.m_fs_objects_table.table)
    (hs : Emptied s) (hopens : (u.begins s).receiveOpens u.env = true)
    (hrow : CreatesItsRow s.m_fs_objects_table u s.m_userid (get_basename u.file)
      (get_parent_path u.file)) :
    Holds (u.ends s).m_fs_objects_table s.m_userid (get_basename u.file) (get_parent_path u.file)
      u.content := by
  have h := received_upload hs hopens
  -- The row of the object before the size update, and what its file held at the open.
  obtain ⟨r, hr, hkey, hid, hbase⟩ : ∃ r ∈ ((u.begins s).receiveTarget u.env).store.table.rows,
      (r.user_id = s.m_userid ∧ r.name = get_basename u.file ∧ r.path = get_parent_path u.file) ∧
        r.object_id = ((u.begins s).receiveTarget u.env).id ∧ base u.env (u.begins s) = [] := by
    by_cases ho : (found s.m_fs_objects_table.table s.m_userid u.file).id = []
    · obtain ⟨hi, hfree⟩ := hrow ho
      have htarget : (u.begins s).receiveTarget u.env = _ :=
        (receiveTarget_new ho).trans (by rw [create_object_of hi.1])
      rw [base, htarget]
      exact ⟨_, mem_insert.mpr (Or.inr ⟨rfl, hi.2⟩), ⟨rfl, rfl, rfl⟩, rfl, by simp [hfree]⟩
    · obtain ⟨r, hr, hu, hn, hp, hobj⟩ := exists_of_get_object ho
      have htarget : (u.begins s).receiveTarget u.env = _ := if_neg ho
      rw [base, htarget]
      refine ⟨r, hr, ⟨hu, hn, hp⟩, ?_, rfl⟩
      exact (hg.id_eq hr).symm.trans (congrArg fs_object.id hobj.symm)
  have hblob := h.blob
  rw [hbase, List.nil_append, ← hid] at hblob
  obtain ⟨size, m, hmem⟩ := exists_update_object_size hr u.env.now s.m_userid
    (get_basename (u.begins s).m_pending_write_file)
    (get_parent_path (u.begins s).m_pending_write_file)
    (((u.begins s).receiveTarget u.env).size + u.content.length)
  unfold Holds
  rw [h.table]
  exact ⟨_, hmem, hkey, hblob⟩

section
variable {user_id name path : Bytes}

theorem holds_step {sv sv' : Server} {u : Upload} (hd : Drained sv)
    (hrow : CreatesItsRow sv.m_fs_objects_table u user_id name path)
    (h : step user_id name path sv u = some sv') :
    Drained sv' ∧ Holds sv'.m_fs_objects_table user_id name path u.content := by
  simp only [step, Option.bind_eq_some_iff, Option.ite_none_right_eq_some, Option.some.injEq] at h
  obtain ⟨s, hk, ⟨-, rfl, rfl, rfl, hopens⟩, rfl⟩ := h
  have hs := hd.session hk
  have hstore := Server.store_of_session hk
  rw [← hstore] at hrow
  exact ⟨drained_upload hd hk hopens, holds_upload (hstore ▸ hd.generated) hs hopens hrow⟩

/-- An object that is there is found by the next upload. -/
theorem Holds.found {st : Store} (hg : Generated st.table) {content : Bytes}
    (h : Holds st user_id name path content) : (get_object st.table user_id name path).id ≠ [] := by
  obtain ⟨r, hr, hkey, -⟩ := h
  exact (get_object_id_ne_nil_iff hg).mpr ⟨r, hr, hkey⟩

/-- After a sequence of uploads, the blob has the content of the last one. -/
theorem holds_run {us : List Upload} {sv sv' : Server} (hd : Drained sv)
    (hrow : ∀ first ∈ us.head?, CreatesItsRow sv.m_fs_objects_table first user_id name path)
    (h : runs.run (step user_id name path) sv us = some sv') :
    ∀ last ∈ us.getLast?,
      Generated sv'.m_fs_objects_table.table ∧
        Holds sv'.m_fs_objects_table user_id name path last.content := by
  induction us generalizing sv with
  | nil =>
    intro last hlast
    cases hlast
  | cons u us ih =>
    simp only [runs.run, Option.bind_eq_some_iff] at h
    obtain ⟨t, ht, hrest⟩ := h
    obtain ⟨hdt, hholds⟩ := holds_step hd (hrow u rfl) ht
    cases us with
    | nil =>
      obtain rfl := Option.some.inj hrest
      intro last hlast
      obtain rfl := Option.some.inj hlast
      exact ⟨hdt.generated, hholds⟩
    | cons v us =>
      rw [List.getLast?_cons_cons]
      exact ih hdt (fun first _ hnone => absurd hnone (hholds.found hdt.generated)) hrest

end

/-! ## The law -/

/-- After any sequence of uploads to one object, the first of which finds it or makes its row, a
download sends the bytes of the last upload, in one write for each full buffer and one more. -/
theorem a_download_sends_the_last_upload (sv sv' : Server) (user_id name path : Bytes)
    (us : List Upload) (last : Upload) (hd : Drained sv)
    (hrow : ∀ first ∈ us.head?, CreatesItsRow sv.m_fs_objects_table first user_id name path)
    (hrun : runs.run (step user_id name path) sv us = some sv') (hlast : us.getLast? = some last)
    (k : Nat) (s : Session) (hk : sv'.session k = some s) (hu : s.m_userid = user_id)
    (env : Env) (hopens : env.opens = true) (hfails : env.disk_fails = none) :
    ∃ chunks t,
      sends env (last.content.length / SEND_BUFFER_SIZE + 1)
        ((requested s name path).data_send_file env) = some (chunks, t) ∧
      t.m_send_file_stream = none ∧ chunks.flatten = last.content ∧
      chunks.length = last.content.length / SEND_BUFFER_SIZE + 1 := by
  obtain ⟨hg, r, hr, ⟨hru, rfl, rfl⟩, hblob⟩ := holds_run hd hrow hrun last hlast
  have hN : 0 < SEND_BUFFER_SIZE := by decide
  have hstore := Server.store_of_session hk
  rw [← hstore] at hg hr hblob
  have hid : (requested s r.name r.path).m_sendable_file_id = r.object_id := by
    have hfound := get_object_of_mem hr
    rw [hru, ← hu] at hfound
    rw [requested, hfound]
    exact hg.id_eq hr
  have hne : r.object_id ≠ [] := by
    rw [← hg.id_eq hr]
    exact hg.id_ne_nil hr
  have ho : (requested s r.name r.path).sendOpens env r.object_id = true := by
    have hsome : (requested s r.name r.path).m_fs_objects_table.blobs r.object_id =
        some last.content := hblob
    simp [sendOpens, hsome, hopens]
  have hsending : Sending r.object_id last.content 0
      ((requested s r.name r.path).openSendFile env) := by
    refine ⟨⟨_, rfl, hid, rfl, ?_, rfl, ?_⟩, hblob⟩
    · simp [hid, ho]
    · simp [hid, ho]
  have hsend : (requested s r.name r.path).data_send_file env =
      ((requested s r.name r.path).openSendFile env).data_async_send env := by
    rw [data_send_file, hid, ho, if_neg (by simp)]
  have hlen := buffered.length_reads hN last.content
  obtain ⟨t, ht, hnone⟩ := sends_eq hne hfails (last.content.length / SEND_BUFFER_SIZE + 1) hsending
    hlen
  rw [hsend]
  exact ⟨_, t, ht, hnone, buffered.flatten_reads _ _, hlen⟩

/-- A server with one session of the user "u". -/
def oneSession : Server where
  session_class := .session
  m_users_table := users.Table.annAndBob
  m_fs_objects_table := Store.empty
  sessions := [{
    session_class := .session
    m_connection_stage := .LOGGED_IN
    m_users_table := users.Table.annAndBob
    m_fs_objects_table := Store.empty
    m_userid := lit "u" }]

/-- Two uploads of the file "/a", and the second is shorter. -/
def twoUploads : List Upload :=
  [⟨0, .ofRand 3, lit "2024-05-01 10:00:00", lit "/a", [lit "x"], lit "y",
      (Env.working 0).keeps⟩,
    ⟨0, .ofRand 4, lit "2024-05-01 10:00:01", lit "/a", [], lit "z", (Env.working 0).keeps⟩]

/-- The law at two uploads of one file. -/
theorem a_download_sends_the_second_upload : ∃ sv' s chunks t,
    runs.run (step (lit "u") (lit "a") (lit "/")) oneSession twoUploads = some sv' ∧
      sv'.session 0 = some s ∧
      sends (Env.working 0) ((lit "z").length / SEND_BUFFER_SIZE + 1)
        ((requested s (lit "a") (lit "/")).data_send_file (Env.working 0)) = some (chunks, t) ∧
      t.m_send_file_stream = none ∧ chunks.flatten = lit "z" ∧
      chunks.length = (lit "z").length / SEND_BUFFER_SIZE + 1 := by
  have hrun : ((runs.run (step (lit "u") (lit "a") (lit "/")) oneSession twoUploads).bind
      (·.session 0)).map (·.m_userid) = some (lit "u") := by decide
  simp only [Option.map_eq_some_iff, Option.bind_eq_some_iff] at hrun
  obtain ⟨s, ⟨sv', hrun, hk⟩, hu⟩ := hrun
  have hd : Drained oneSession := by
    refine ⟨generated_empty, fun s hs => ?_⟩
    rw [List.mem_singleton.mp hs]
    exact ⟨rfl, fun f hf => by cases hf⟩
  obtain ⟨chunks, t, h⟩ := a_download_sends_the_last_upload oneSession sv' (lit "u") (lit "a")
    (lit "/") twoUploads _ hd (by decide) hrun rfl 0 s hk hu (Env.working 0) rfl rfl
  exact ⟨sv', s, chunks, t, hrun, hk, h⟩

end asio_ftp.downloads
