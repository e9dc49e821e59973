-- The laws of the 226 replies: when an upload or a download that is answered with 226 is complete.
-- The end handlers are the same for a transfer that reached its end and for one that failed.
import AsioFtp.Leftovers
import AsioFtp.SendLoop

namespace asio_ftp.completions

open fs_objects base_session base_session.Session uploads leftovers send_loop

/-- The session sends a reply of code 226. -/
def Says226 (s s' : Session) : Prop :=
  ∃ m, s'.sent = s.sent ++ [m] ∧ lit "226" <+: m

theorem says226_iff {s s' : Session} {ends : Prop} [Decidable ends] {m : Bytes}
    (h : s'.front = if ends then s.front.say m else s.front) (hm : lit "226" <+: m) :
    Says226 s s' ↔ ends := by
  have hsent := congrArg Front.sent h
  by_cases he : ends
  · rw [if_pos he] at hsent
    exact iff_of_true ⟨_, hsent, hm.trans (List.prefix_append m _)⟩ he
  · rw [if_neg he] at hsent
    refine iff_of_false ?_ he
    rintro ⟨m', hm', -⟩
    rw [show s'.sent = s.sent from hsent] at hm'
    simp at hm'

/-! ## The upload -/

/-- An upload on its way, with the bytes that its reads gave so far, and those that it wrote to its
file. -/
structure Up where
  session : Session
  received : Bytes
  written : Bytes

/-- The upload of the work of `s`, when its file is open. -/
def Up.begin (env : Env) (s : Session) : Up := ⟨s.data_receive_file env, [], []⟩

/-- A read of the data connection ends, with any error code, and the upload writes what it gave. -/
def upStep (u : Up) (e : Env × ErrorCode × Bytes) : Option Up :=
  if u.session.m_receive_file_stream.isNone then none
  else
    some
      { session := receive e.1 e.2.1 u.session e.2.2
        received := u.received ++ e.2.2
        written := u.written ++ written e.1 (filled u.session e.2.2) e.2.1 e.2.2.length }

/-- The file of an upload that began in `s`, with these bytes written to it. -/
def fileWith (env : Env) (s : Session) (bytes : Bytes) : Bytes :=
  let content :=
    ((s.data_receive_file env).m_fs_objects_table.blobs (s.receiveTarget env).id).getD []
  writeAt content (if (s.receiveTarget env).app then content.length else 0) bytes

/-- A 226 comes at the end of the stream only, and then every byte that came was written, and the
blob is what was written. Bytes that the buffer had before the upload come first. -/
def UploadComplete (env : Env) (s : Session) (u : Up) (e : Env × ErrorCode × Bytes) (u' : Up) :
    Prop :=
  Says226 u.session u'.session → e.2.1 = .eof ∧
    (u'.received = [] ∨ u'.written = s.m_receive_buffer ++ u'.received ∧
      u'.session.m_fs_objects_table.blobs (s.receiveTarget env).id =
        some (fileWith env s u'.written))

/-- The last callback of an upload has the end of the stream, the stream takes all that is in the
buffer, and the disk takes what the stream has then, unless nothing came. -/
def EndsWritten (u : Up) (e : Env × ErrorCode × Bytes) (_ : Up) : Prop :=
  (filled u.session e.2.2).receiveEnds e.1 e.2.1 e.2.2.length = true → e.2.1 = .eof ∧
    (u.received ++ e.2.2 = [] ∨
      (if e.2.2 = [] then u.session.m_receive_buffer = []
      else takesAll e.1 (filled u.session e.2.2) = true) ∧
        closesAll e.1 (filled u.session e.2.2) e.2.2.length = true)

instance (u : Up) (e : Env × ErrorCode × Bytes) (u' : Up) : Decidable (EndsWritten u e u') :=
  inferInstanceAs (Decidable (_ → _))

/-- The blob is what was written. The stream stands at the end of that, and what came is written, in
the stream or in the buffer. -/
structure Filling (env : Env) (s : Session) (u : Up) : Prop where
  blob : u.session.m_fs_objects_table.blobs (s.receiveTarget env).id =
    some (fileWith env s u.written)
  stream : ∀ f ∈ u.session.m_receive_file_stream, f.id = (s.receiveTarget env).id ∧
    f.app = (s.receiveTarget env).app ∧ f.pos = u.written.length ∧
      u.written ++ f.buffered ++ u.session.m_receive_buffer = s.m_receive_buffer ++ u.received

section
variable {env : Env} {s : Session}

/-- What a stream at the end of what was written writes then comes behind it. -/
theorem fileWith_append {f : OFStream} {a : Bytes} (happ : f.app = (s.receiveTarget env).app)
    (hpos : f.pos = a.length) (b : Bytes) :
    writeAt (fileWith env s a) (if f.app then (fileWith env s a).length else f.pos) b =
      fileWith env s (a ++ b) := by
  unfold fileWith
  rw [happ, hpos, ← writeAt_append]
  generalize Option.getD _ _ = content
  cases (s.receiveTarget env).app with
  | true =>
    simp only [if_true]
    rw [writeAt_end content a, List.length_append]
  | false => simp only [Bool.false_eq_true, if_false, Nat.zero_add]

theorem filling_begin (hopens : s.receiveOpens env = true) : Filling env s (.begin env s) := by
  have heq : s.data_receive_file env = (s.openReceiveFile env).data_async_receive := by
    rw [data_receive_file, if_neg (by simp [hopens])]
  have hkept := s.kept_data_receive_file env
  constructor
  · obtain ⟨content, hcontent⟩ : ∃ content,
        (s.data_receive_file env).m_fs_objects_table.blobs (s.receiveTarget env).id =
          some content := by
      have hopened : s.opened env = some (s.receiveTarget env) := if_pos hopens
      rw [← Option.isSome_iff_exists,
        show (s.data_receive_file env).m_fs_objects_table = _ from congrArg Files.store hkept]
      simp only [keptAfter, afterOpening_blobs, Option.bind_some, hopened]
      simp
    show (s.data_receive_file env).m_fs_objects_table.blobs _ = _
    rw [fileWith, hcontent]
    simp [Up.begin, writeAt]
  · intro f hf
    have hstream : (s.data_receive_file env).m_receive_file_stream = _ :=
      congrArg Files.stream hkept
    obtain rfl := Option.some.inj (hstream.symm.trans hf)
    have hbuffer : (s.data_receive_file env).m_receive_buffer = s.m_receive_buffer :=
      congrArg Files.buffer hkept
    refine ⟨rfl, rfl, rfl, ?_⟩
    show [] ++ [] ++ (s.data_receive_file env).m_receive_buffer = s.m_receive_buffer ++ []
    rw [hbuffer]
    simp

section
variable {u : Up} (hu : Filling env s u) {f : OFStream}
  (hf : u.session.m_receive_file_stream = some f) (env' : Env) (chunk : Bytes)
include hu hf

/-- What came is written, in the stream or in the buffer, also after the write of a callback. -/
theorem filling_inserted :
    u.written ++ (inserted env' (filled u.session chunk) f chunk.length).2.1 ++
        (inserted env' (filled u.session chunk) f chunk.length).1.buffered ++
        (inserted env' (filled u.session chunk) f chunk.length).2.2 =
      s.m_receive_buffer ++ (u.received ++ chunk) := by
  have happend := inserted_append env' (filled u.session chunk) f chunk.length
  have hfilled : (filled u.session chunk).m_receive_buffer = u.session.m_receive_buffer ++ chunk :=
    rfl
  rw [List.append_assoc, List.append_assoc, ← List.append_assoc (inserted ..).2.1, happend, hfilled,
    ← List.append_assoc s.m_receive_buffer, ← (hu.stream f hf).2.2.2]
  simp only [List.append_assoc]

theorem filling_receive (ec : ErrorCode) : Filling env s
    { session := receive env' ec u.session chunk
      received := u.received ++ chunk
      written := u.written ++ written env' (filled u.session chunk) ec chunk.length } := by
  have hf' : (filled u.session chunk).m_receive_file_stream = some f := hf
  obtain ⟨hbuffer, hstream, hblobs⟩ := callback_writes env' (filled u.session chunk) hf' ec
    chunk.length
  obtain ⟨hid, happ, hpos, -⟩ := hu.stream f hf
  constructor
  · refine (congrFun hblobs _).trans ?_
    simp only [writeBlob, hid, if_true]
    rw [show (filled u.session chunk).m_fs_objects_table.blobs _ = _ from hu.blob]
    exact congrArg some (fileWith_append happ hpos _)
  · intro g hg
    obtain ⟨hgoes, hg⟩ := Option.ite_none_left_eq_some.mp (hstream.symm.trans hg)
    obtain rfl := Option.some.inj hg
    have hwritten : written env' (filled u.session chunk) ec chunk.length =
        (inserted env' (filled u.session chunk) f chunk.length).2.1 := by
      unfold written
      rw [hf']
      simp only [if_neg hgoes, List.append_nil]
    have hinserted := inserted_stream env' (filled u.session chunk) f chunk.length
    refine ⟨?_, ?_, ?_, ?_⟩
    · rw [hinserted]
      exact hid
    · rw [hinserted]
      exact happ
    · rw [hinserted, hwritten, List.length_append, ← hpos]
    · rw [hwritten]
      refine (congrArg (_ ++ ·) hbuffer).trans ?_
      exact filling_inserted hu hf env' chunk

/-- At the end of an upload, what came was written if and only if the buffer is empty then, and the
close of the stream wrote all that it had. -/
theorem written_eq_iff (ec : ErrorCode)
    (hends : (filled u.session chunk).receiveEnds env' ec chunk.length = true) :
    u.written ++ written env' (filled u.session chunk) ec chunk.length =
        s.m_receive_buffer ++ (u.received ++ chunk) ↔
      (if chunk = [] then u.session.m_receive_buffer = []
        else takesAll env' (filled u.session chunk) = true) ∧
        closesAll env' (filled u.session chunk) chunk.length = true := by
  have hf' : (filled u.session chunk).m_receive_file_stream = some f := hf
  let g := (inserted env' (filled u.session chunk) f chunk.length).1
  let left := (inserted env' (filled u.session chunk) f chunk.length).2.2
  have hleft : left = [] ↔ if chunk = [] then u.session.m_receive_buffer = []
      else takesAll env' (filled u.session chunk) = true := by
    rw [← buffer_eq_nil_iff env' u.session ec chunk]
    exact iff_of_eq (congrArg (· = []) (callback_writes env' _ hf' ec chunk.length).1.symm)
  have hwritten : written env' (filled u.session chunk) ec chunk.length =
      (inserted env' (filled u.session chunk) f chunk.length).2.1 ++ g.close env' := by
    unfold written
    rw [hf']
    exact congrArg (_ ++ ·) (if_pos hends)
  -- The stream took all of the buffer where nothing stays in it.
  have hn : left = [] → chunk.length = 0 ∨ (filled u.session chunk).m_receive_buffer ≠ [] ∧
      takesAll env' (filled u.session chunk) = true := by
    intro hnil
    have hcond := hleft.mp hnil
    by_cases hc : chunk = []
    · exact Or.inl (by simp [hc])
    · rw [if_neg hc] at hcond
      exact Or.inr ⟨by simp [filled, hc], hcond⟩
  have hlength : (g.close env').length ≤ g.buffered.length := by
    rw [OFStream.close, List.length_take]
    exact Nat.min_le_right ..
  rw [← filling_inserted hu hf env' chunk, hwritten, ← List.append_assoc,
    List.append_assoc _ g.buffered, List.append_cancel_left_eq, ← hleft]
  show g.close env' = g.buffered ++ left ↔ left = [] ∧ _
  constructor
  · intro hall
    have hnil : left = [] := by
      have hlen := congrArg List.length hall
      rw [List.length_append] at hlen
      exact List.eq_nil_of_length_eq_zero (by omega)
    refine ⟨hnil, (close_eq_iff env' _ hf' chunk.length (hn hnil)).mp ?_⟩
    rwa [hnil, List.append_nil] at hall
  · rintro ⟨hnil, hcloses⟩
    rw [hnil, List.append_nil]
    exact (close_eq_iff env' _ hf' chunk.length (hn hnil)).mpr hcloses

end

theorem filling_step {u u' : Up} {e : Env × ErrorCode × Bytes} (hu : Filling env s u)
    (h : upStep u e = some u') : Filling env s u' := by
  obtain ⟨env', ec, chunk⟩ := e
  obtain ⟨hsome, hsame⟩ := Option.ite_none_left_eq_some.mp h
  obtain rfl := Option.some.inj hsame
  obtain ⟨f, hf⟩ : ∃ f, u.session.m_receive_file_stream = some f :=
    Option.ne_none_iff_exists'.mp (by simpa using hsome)
  exact filling_receive hu hf env' chunk ec

/-- The callback that ends an upload completes it if and only if it ends with all written. -/
theorem uploadComplete_iff {u u' : Up} {e : Env × ErrorCode × Bytes} (hu : Filling env s u)
    (h : upStep u e = some u') : UploadComplete env s u e u' ↔ EndsWritten u e u' := by
  have hu' := filling_step hu h
  obtain ⟨env', ec, chunk⟩ := e
  obtain ⟨hsome, hsame⟩ := Option.ite_none_left_eq_some.mp h
  obtain rfl := Option.some.inj hsame
  obtain ⟨f, hf⟩ : ∃ f, u.session.m_receive_file_stream = some f :=
    Option.ne_none_iff_exists'.mp (by simpa using hsome)
  have h226 : Says226 u.session (receive env' ec u.session chunk) ↔
      (filled u.session chunk).receiveEnds env' ec chunk.length = true :=
    says226_iff (front_handle_data_async_receive_callback env' (filled u.session chunk) ec
      chunk.length) (by decide)
  unfold UploadComplete EndsWritten
  simp only [h226, and_iff_left hu'.blob]
  refine imp_congr_right fun hends => and_congr_right fun _ => or_congr_right ?_
  exact written_eq_iff hu hf env' chunk ec hends

end

/-! ## The download -/

/-- A download on its way, with the bytes of the writes that ended without an error. -/
structure Down where
  session : Session
  written : Bytes

instance (content : Bytes) (f : IFStream) (r : Read) : Decidable (Gives content f r) :=
  decidable_of_iff (r.chunk = (content.drop f.pos).take r.chunk.length ∧
      r.chunk.length ≤ SEND_BUFFER_SIZE ∧
      (r.eofbit = false → r.failbit = false → r.chunk ≠ []) ∧
      (f.failbit = false → r.eofbit = true → f.pos + r.chunk.length = content.length) ∧
      (f.failbit = true → r = ⟨[], f.eofbit, true⟩))
    ⟨fun ⟨h1, h2, h3, h4, h5⟩ => ⟨h1, h2, h3, h4, h5⟩,
      fun h => ⟨h.part, h.fits, h.good, h.ends, h.stays⟩⟩

/-- The write of the data connection ends, with any error code, and the download sends what the
next read of a file with this content gives. -/
def downStep (content : Bytes) (d : Down) (e : ErrorCode × Read) : Option Down :=
  match d.session.m_send_file_stream with
  | none => none
  | some f =>
    if d.session.sendEnds e.1 = true ∨ Gives content f e.2 then
      some ⟨sentRead e.1 d.session e.2,
        d.written ++ if e.1 = .success then d.session.m_send_buffer else []⟩
    else none

/-- A 226 comes when every byte of the file was written without an error. -/
def DownloadComplete (content : Bytes) (d : Down) (_ : ErrorCode × Read) (d' : Down) : Prop :=
  Says226 d.session d'.session → d'.written = content

/-- The last callback of a download finds the stream at the end of the content, and its write
ended without an error or had no bytes. -/
def EndsSent (content : Bytes) (d : Down) (e : ErrorCode × Read) (_ : Down) : Prop :=
  d.session.sendEnds e.1 = true →
    (∀ f ∈ d.session.m_send_file_stream, f.pos = content.length) ∧
      (e.1 = .success ∨ d.session.m_send_buffer = [])

instance (content : Bytes) (d : Down) (e : ErrorCode × Read) (d' : Down) :
    Decidable (EndsSent content d e d') := inferInstanceAs (Decidable (_ → _))

/-- What was written and the bytes of the outstanding write are the content up to the position of
the stream. -/
def Reading (content : Bytes) (d : Down) : Prop :=
  ∀ f ∈ d.session.m_send_file_stream, f.pos ≤ content.length ∧
    d.written ++ d.session.m_send_buffer = content.take f.pos

theorem take_of_gives {content : Bytes} {f : IFStream} {r : Read} (h : Gives content f r) :
    content.take f.pos ++ r.chunk = content.take (f.pos + r.chunk.length) := by
  rw [List.take_add, ← h.part]

theorem front_sentRead {s : Session} {f : IFStream} (h : s.m_send_file_stream = some f)
    (ec : ErrorCode) (r : Read) : (sentRead ec s r).front =
      if s.sendEnds ec = true then s.front.say (lit "226 Sent.") else s.front := by
  unfold sentRead
  split
  · exact s.front_data_async_send_end h
  · unfold sendRead
    rw [h]
    rfl

section
variable {content : Bytes}

theorem reading_begin {env : Env} {s : Session} {r : Read}
    (hr : Gives content (newStream env s) r) :
    Reading content ⟨sendRead (s.openSendFile env) r, []⟩ := by
  intro f hf
  obtain rfl := Option.some.inj hf
  have hle := hr.length_le
  refine ⟨?_, take_of_gives hr⟩
  show 0 + r.chunk.length ≤ content.length
  omega

theorem reading_step {d d' : Down} {e : ErrorCode × Read} (hd : Reading content d)
    (h : downStep content d e = some d') : Reading content d' := by
  obtain ⟨ec, r⟩ := e
  unfold downStep at h
  cases hf : d.session.m_send_file_stream with
  | none => simp [hf] at h
  | some f =>
    rw [hf] at h
    obtain ⟨hgives, hsame⟩ := Option.ite_none_right_eq_some.mp h
    obtain rfl := Option.some.inj hsame
    obtain ⟨hle, hbytes⟩ := hd f hf
    intro g hg
    by_cases hends : d.session.sendEnds ec = true
    · have hnone := downloads.stream_data_async_send_end hf
      simp only [sentRead, hends, if_true, hnone] at hg
      cases hg
    · have hr := hgives.resolve_left hends
      have hec : ec = .success := by
        by_contra hne
        exact hends (by simp [sendEnds, hf, hne])
      have hgo : sentRead ec d.session r = sendRead d.session r := if_neg hends
      simp only [hgo] at hg ⊢
      unfold sendRead at hg ⊢
      rw [hf] at hg ⊢
      obtain rfl := Option.some.inj hg
      have hlen : r.chunk.length ≤ content.length - f.pos := hr.length_le
      refine ⟨?_, ?_⟩
      · show f.pos + r.chunk.length ≤ content.length
        omega
      · show (d.written ++ if ec = .success then d.session.m_send_buffer else []) ++ r.chunk = _
        rw [if_pos hec, hbytes]
        exact take_of_gives hr

/-- At the end of a download, what was written is the content if and only if the stream is at its
end, and nothing that it gave was lost. -/
theorem downloadComplete_iff {d d' : Down} {e : ErrorCode × Read} (hd : Reading content d)
    (h : downStep content d e = some d') :
    DownloadComplete content d e d' ↔ EndsSent content d e d' := by
  obtain ⟨ec, r⟩ := e
  unfold downStep at h
  cases hf : d.session.m_send_file_stream with
  | none => simp [hf] at h
  | some f =>
    rw [hf] at h
    obtain ⟨-, hsame⟩ := Option.ite_none_right_eq_some.mp h
    obtain rfl := Option.some.inj hsame
    obtain ⟨hle, hbytes⟩ := hd f hf
    have h226 : Says226 d.session (sentRead ec d.session r) ↔ d.session.sendEnds ec = true :=
      says226_iff (front_sentRead hf ec r) (by decide)
    have htake : content.take f.pos = content ↔ f.pos = content.length := by
      rw [List.take_eq_self_iff]
      exact ⟨fun h => Nat.le_antisymm hle h, fun h => h.ge⟩
    unfold DownloadComplete EndsSent
    simp only [h226, hf, Option.mem_def, Option.some.injEq, forall_eq']
    refine imp_congr_right fun _ => ?_
    by_cases hec : ec = .success
    · rw [if_pos hec, hbytes, htake]
      simp [hec]
    · rw [if_neg hec, List.append_nil]
      simp only [hec, false_or]
      constructor
      · intro hall
        have hlen := congrArg List.length hbytes
        rw [hall, List.length_append, List.length_take] at hlen
        exact ⟨by omega, List.eq_nil_of_length_eq_zero (by omega)⟩
      · rintro ⟨hpos, hnil⟩
        rwa [hnil, List.append_nil, htake.mpr hpos] at hbytes

end

/-! ## The law -/

/-- In every session, for every sequence of callbacks with any bytes, error codes and results of
the file streams: an upload says 226 only when it is complete, if and only if its last callback has
the end of the stream and the disk takes what is in the buffer, and a download says 226 only when
it is complete, if and only if its last callback comes at the end of the file and loses no byte. -/
theorem transfers_that_say_226_are_complete_iff (env : Env) (s : Session) :
    (s.receiveOpens env = true → ∀ es,
      (runs.Along upStep (UploadComplete env s) (.begin env s) es ↔
        runs.Along upStep EndsWritten (.begin env s) es)) ∧
    (s.sendOpens env s.m_sendable_file_id = true →
      ∀ content r, Gives content (newStream env s) r → ∀ es,
        (runs.Along (downStep content) (DownloadComplete content)
            ⟨sendRead (s.openSendFile env) r, []⟩ es ↔
          runs.Along (downStep content) (EndsSent content)
            ⟨sendRead (s.openSendFile env) r, []⟩ es)) := by
  constructor
  · intro hopens es
    refine runs.along_iff_of_invariant (J := Filling env s) ?_ ?_ (filling_begin hopens)
    · exact fun u e u' hu h => uploadComplete_iff hu h
    · exact fun u e u' hu h _ => filling_step hu h
  · intro _ content r hr es
    refine runs.along_iff_of_invariant (J := Reading content) ?_ ?_ (reading_begin hr)
    · exact fun d e d' hd h => downloadComplete_iff hd h
    · exact fun d e d' hd h _ => reading_step hd h

/-- A session in which STOR took the file "/g". -/
def storing : Session := { lost with m_pending_write_file := lit "/g" }

/-- The law at an upload of two reads, and at the download of one byte. -/
theorem an_upload_and_a_download_that_say_226_are_complete :
    runs.Along upStep (UploadComplete (Env.working 0) storing)
        (.begin (Env.working 0) storing)
        [(Env.working 0, .success, lit "x"), (Env.working 0, .eof, lit "y")] ∧
      runs.Along (downStep (lit "x")) (DownloadComplete (lit "x"))
        ⟨sendRead (oneByte.openSendFile (Env.working 0)) ⟨lit "x", true, true⟩, []⟩
        [(.success, ⟨[], true, true⟩)] :=
  ⟨((transfers_that_say_226_are_complete_iff (Env.working 0) storing).1 (by decide)
      [(Env.working 0, .success, lit "x"), (Env.working 0, .eof, lit "y")]).mpr (by decide),
    ((transfers_that_say_226_are_complete_iff (Env.working 0) oneByte).2 (by decide) (lit "x")
      ⟨lit "x", true, true⟩ (by decide) [(.success, ⟨[], true, true⟩)]).mpr (by decide)⟩

/-- An upload whose connection fails, and a download whose one write fails, get their 226 too. -/
theorem failed_transfers_say_226 :
    ¬ runs.Along upStep (UploadComplete (Env.working 0) storing)
        (.begin (Env.working 0) storing) [(Env.working 0, .other, lit "x")] ∧
      ¬ runs.Along (downStep (lit "x")) (DownloadComplete (lit "x"))
        ⟨sendRead (oneByte.openSendFile (Env.working 0)) ⟨lit "x", true, true⟩, []⟩
        [(.broken_pipe, ⟨[], true, true⟩)] := by
  constructor
  · intro h
    have h226 := (runs.along_cons.mp h _ rfl).1
    exact absurd (h226 ⟨lit "226 Received." ++ crlf, by decide, by decide⟩).1 (by decide)
  · intro h
    have h226 := (runs.along_cons.mp h _ rfl).1
    exact absurd (h226 ⟨lit "226 Sent." ++ crlf, by decide, by decide⟩) (by decide)

end asio_ftp.completions
