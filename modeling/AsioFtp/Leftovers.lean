-- The law of the receive buffer: when an upload starts with no bytes of the upload before it. The
-- buffer belongs to the session, and only the writes of the uploads empty it. A stream has a buffer
-- of its own, which goes with it.
import AsioFtp.Uploads

namespace asio_ftp.leftovers

open fs_objects histories base_session base_session.Session uploads

/-! ## One write of the buffer -/

/-- The write of a callback: the stream after it, the bytes that reach its file, and the bytes that
stay in the buffer. -/
def inserted (env : Env) (s : Session) (f : OFStream) (bytes_read : Nat) :
    OFStream × Bytes × Bytes :=
  if bytes_read > 0 then f.insert env s.m_receive_buffer else (f, [], s.m_receive_buffer)

/-- The bytes that the callback of an upload writes to its file, with those of the close. -/
def written (env : Env) (s : Session) (ec : ErrorCode) (bytes_read : Nat) : Bytes :=
  match s.m_receive_file_stream with
  | none => []
  | some f => (inserted env s f bytes_read).2.1 ++
      if s.receiveEnds env ec bytes_read = true then (inserted env s f bytes_read).1.close env
      else []

/-- The stream takes all that is in the buffer: it is good, and it keeps it or the disk has room. -/
def takesAll (env : Env) (s : Session) : Bool :=
  match s.m_receive_file_stream with
  | none => false
  | some f => takes env f s.m_receive_buffer

/-- The disk takes what the stream has after its write, if it is closed then: all that is there, or
nothing, once the stream took all. -/
def closesAll (env : Env) (s : Session) (bytes_read : Nat) : Bool :=
  match s.m_receive_file_stream with
  | none => true
  | some f =>
    let had := f.buffered.length
    let has :=
      if bytes_read = 0 then had
      else if env.keeps had s.m_receive_buffer.length then had + s.m_receive_buffer.length
      else 0
    decide (has ≤ env.close_takes.getD has)

section
variable (env : Env) (s : Session)

theorem inserted_append (f : OFStream) (n : Nat) :
    (inserted env s f n).2.1 ++ (inserted env s f n).1.buffered ++ (inserted env s f n).2.2 =
      f.buffered ++ s.m_receive_buffer := by
  unfold inserted
  split
  · exact insert_append env f _
  · rfl

theorem inserted_stream (f : OFStream) (n : Nat) : (inserted env s f n).1 =
    { f with
      pos := f.pos + (inserted env s f n).2.1.length
      failbit := (inserted env s f n).1.failbit
      buffered := (inserted env s f n).1.buffered } := by
  unfold inserted
  split
  · exact insert_stream env f _
  · rfl

variable {f : OFStream} (h : s.m_receive_file_stream = some f)
include h

theorem kept_absorb (n : Nat) : (s.absorb env f n).kept =
    ⟨writeBlob s.m_fs_objects_table f (inserted env s f n).2.1, (inserted env s f n).2.2,
      some (inserted env s f n).1⟩ := by
  unfold absorb inserted
  split
  · rfl
  · simp only [kept, h, writeBlob_nil]

/-- A stream that took all writes all when it is closed if and only if the disk takes it. -/
theorem close_eq_iff (n : Nat) (hn : n = 0 ∨ s.m_receive_buffer ≠ [] ∧ takesAll env s = true) :
    (inserted env s f n).1.close env = (inserted env s f n).1.buffered ↔
      closesAll env s n = true := by
  have hclose : ∀ g : OFStream, g.close env = g.buffered ↔
      g.buffered.length ≤ env.close_takes.getD g.buffered.length :=
    fun g => List.take_eq_self_iff _
  rw [hclose]
  unfold closesAll
  simp only [h, decide_eq_true_eq]
  rcases hn with rfl | ⟨hne, ht⟩
  · rfl
  unfold inserted
  by_cases hn : n > 0
  · rw [if_pos hn, if_neg (Nat.pos_iff_ne_zero.mp hn)]
    rw [takesAll, h] at ht
    rw [length_buffered_of_takes env f hne ht]
  · rw [if_neg hn, if_pos (by omega)]

/-- The callback writes to the file of the stream, and keeps in the buffer what no stream took. -/
theorem callback_writes (ec : ErrorCode) (n : Nat) :
    (s.handle_data_async_receive_callback env ec n).m_receive_buffer = (inserted env s f n).2.2 ∧
      (s.handle_data_async_receive_callback env ec n).m_receive_file_stream =
        (if s.receiveEnds env ec n = true then none else some (inserted env s f n).1) ∧
      (s.handle_data_async_receive_callback env ec n).m_fs_objects_table.blobs =
        (writeBlob s.m_fs_objects_table f (written env s ec n)).blobs := by
  have habsorb := kept_absorb env s h n
  rw [s.handle_data_async_receive_callback_eq env h]
  unfold written
  simp only [h]
  by_cases hends : s.receiveEnds env ec n = true
  · have hstream : (s.absorb env f n).m_receive_file_stream = some (inserted env s f n).1 :=
      congrArg Files.stream habsorb
    have hend := kept_data_async_receive_end env _ hstream
    have hg := inserted_stream env s f n
    rw [if_pos hends, if_pos hends, if_pos hends]
    refine ⟨(congrArg Files.buffer hend).trans (congrArg Files.buffer habsorb),
      congrArg Files.stream hend, (congrArg (fun k => k.store.blobs) hend).trans ?_⟩
    simp only [applied, Option.elim_some, callOfEnd, apply, ← update_closeBlob,
      update_object_size_blobs]
    rw [show (s.absorb env f n).m_fs_objects_table = _ from congrArg Files.store habsorb, closeBlob]
    refine congrArg Store.blobs (writeBlob_append ?_ ?_ ?_ _ _)
    · rw [hg]
    · rw [hg]
    · rw [hg]
  · rw [if_neg hends, if_neg hends, if_neg hends, List.append_nil]
    exact ⟨congrArg Files.buffer habsorb, congrArg Files.stream habsorb,
      congrArg (fun k => k.store.blobs) habsorb⟩

end

/-- A callback that got bytes leaves the buffer empty if and only if the stream takes them all, and
one that got none leaves it as it is. -/
theorem buffer_eq_nil_iff (env : Env) (s : Session) (ec : ErrorCode) (chunk : Bytes) :
    (receive env ec s chunk).m_receive_buffer = [] ↔
      if chunk = [] then s.m_receive_buffer = []
      else takesAll env (filled s chunk) = true := by
  have hbuffer : (filled s chunk).m_receive_buffer = s.m_receive_buffer ++ chunk := rfl
  unfold takesAll
  cases hf : (filled s chunk).m_receive_file_stream with
  | none =>
    have hsame : (receive env ec s chunk).m_receive_buffer = s.m_receive_buffer ++ chunk := by
      unfold receive handle_data_async_receive_callback
      rw [hf]
      rfl
    rw [hsame]
    by_cases hc : chunk = []
    · rw [if_pos hc, hc, List.append_nil]
    · simp [hc]
  | some f =>
    have hleft : (receive env ec s chunk).m_receive_buffer = _ :=
      (callback_writes env (filled s chunk) hf ec chunk.length).1
    rw [hleft, inserted]
    by_cases hc : chunk = []
    · rw [if_pos hc, if_neg (by simp [hc]), hbuffer, hc, List.append_nil]
    · have hne : (filled s chunk).m_receive_buffer ≠ [] := by simp [hbuffer, hc]
      rw [if_neg hc, if_pos (List.length_pos_iff.mpr hc), insert_left_iff env f hne]

/-- Only a read of the data connection changes the buffer, and only the start of an upload sets
another stream. -/
theorem held_of_step {s s' : Session} {env : Env} {e : Event} (h : Stepped env s e s')
    (hr : receives e = false) : s'.m_receive_buffer = s.m_receive_buffer ∧
      s'.m_receive_file_stream =
        (s.uploader e).elim s.m_receive_file_stream
          fun u => (u.openReceiveFile env).m_receive_file_stream := by
  by_cases he : ∃ store, e = .elsewhere store
  · obtain ⟨store, rfl⟩ := he
    cases h
    exact ⟨rfl, rfl⟩
  · have hkept := h.kept (fun store h => he ⟨store, h⟩) hr
    exact ⟨congrArg Files.buffer hkept, congrArg Files.stream hkept⟩

/-! ## What is counted -/

/-- A session, with the bytes that its reads of the data connection gave since an upload last
started, those of them that were written to a file, and whether the last write of the buffer took
all of it. -/
structure Tally where
  session : Session
  received : Bytes
  written : Bytes
  clean : Bool

/-- The session of `begun`, which has read no byte. -/
def begin (session_class : SessionClass) (users : users.Table) (store : Store)
    (lap available : Nat) : Tally :=
  ⟨begun session_class users store lap available, [], [], true⟩

/-- The bytes of a read of the data connection. -/
def incoming : Event → Option Bytes
  | .data_received _ _ chunk => some chunk
  | _ => none

/-- The bytes that an event writes to the file of the upload: those of a callback, or what the
stream still has when the next upload takes its place. -/
def writes (env : Env) (s : Session) : Event → Bytes
  | .data_received _ ec chunk => written env (filled s chunk) ec chunk.length
  | e =>
    if (s.uploader e).isSome then s.m_receive_file_stream.elim [] (OFStream.close · env) else []

/-- One event of the session. -/
def count (t : Tally) (e : Env × Event) : Option Tally :=
  (t.session.step e).map fun s' =>
    match incoming e.2 with
    | some chunk =>
      { session := s'
        received := t.received ++ chunk
        written := t.written ++ writes e.1 t.session e.2
        clean := if chunk = [] then t.clean else takesAll e.1 (filled t.session chunk) }
    | none =>
      if (t.session.uploader e.2).isSome then
        { session := s', received := [], written := [], clean := t.clean }
      else { t with session := s' }

/-- An upload that starts finds an empty buffer. What was written to the file of an upload, with
what the event writes there, are the first of the bytes that were received for it, each once. And a
callback changes no other file. -/
structure OwnBytes (t : Tally) (e : Env × Event) (t' : Tally) : Prop where
  starts : (t.session.uploader e.2).isSome → t.session.m_receive_buffer = []
  bytes : t.written ++ writes e.1 t.session e.2 <+: t.received ++ (incoming e.2).getD []
  file : (incoming e.2).isSome → ∀ f ∈ t.session.m_receive_file_stream,
    t'.session.m_fs_objects_table.blobs =
      (writeBlob t.session.m_fs_objects_table f (writes e.1 t.session e.2)).blobs

/-- When an upload starts, the last write of the buffer took all of it. -/
def StartsClean (t : Tally) (e : Env × Event) (_ : Tally) : Prop :=
  (t.session.uploader e.2).isSome → t.clean = true

/-- What holds between the events: what was received is in the file, in the stream or in the buffer,
and the buffer is empty if the last write was clean. -/
structure Counted (t : Tally) : Prop where
  stream : ∀ f ∈ t.session.m_receive_file_stream,
    t.written ++ f.buffered ++ t.session.m_receive_buffer = t.received
  bytes : t.written <+: t.received
  clean : t.clean = true ↔ t.session.m_receive_buffer = []

/-- What the close of a stream writes are the first of the bytes that it has. -/
theorem close_is_part (f : OFStream) (env : Env) : f.close env <+: f.buffered := List.take_prefix ..

section
variable {t : Tally} (hc : Counted t) (env : Env) (ec : ErrorCode) (chunk : Bytes)
include hc

/-- What came, with a read that gave `chunk`, is in the file, in the stream or in the buffer. -/
theorem counted_inserted {f : OFStream} (hf : t.session.m_receive_file_stream = some f) :
    t.written ++ (inserted env (filled t.session chunk) f chunk.length).2.1 ++
        (inserted env (filled t.session chunk) f chunk.length).1.buffered ++
        (inserted env (filled t.session chunk) f chunk.length).2.2 = t.received ++ chunk := by
  have happend := inserted_append env (filled t.session chunk) f chunk.length
  have hfilled : (filled t.session chunk).m_receive_buffer = t.session.m_receive_buffer ++ chunk :=
    rfl
  rw [List.append_assoc, List.append_assoc, ← List.append_assoc (inserted ..).2.1, happend, hfilled,
    ← hc.stream f hf]
  simp only [List.append_assoc]

theorem written_prefix : t.written ++ written env (filled t.session chunk) ec chunk.length <+:
    t.received ++ chunk := by
  unfold written
  cases hf : (filled t.session chunk).m_receive_file_stream with
  | none =>
    simp only [List.append_nil]
    exact hc.bytes.trans (List.prefix_append ..)
  | some f =>
    simp only
    rw [← counted_inserted hc env chunk hf, ← List.append_assoc, List.append_assoc _ _ (Prod.snd _)]
    refine (List.prefix_append_right_inj _).mpr ?_
    split
    · exact (close_is_part _ env).trans (List.prefix_append ..)
    · exact List.nil_prefix

theorem counted_received (ops : List Outstanding) : Counted
    { session := receive env ec { t.session with data_ops := ops } chunk
      received := t.received ++ chunk
      written := t.written ++ written env (filled t.session chunk) ec chunk.length
      clean := if chunk = [] then t.clean else takesAll env (filled t.session chunk) } := by
  let s : Session := { t.session with data_ops := ops }
  refine ⟨fun g hg => ?_, written_prefix hc env ec chunk, ?_⟩
  · cases hf : t.session.m_receive_file_stream with
    | none =>
      have hnone : (receive env ec s chunk).m_receive_file_stream = none := by
        unfold receive handle_data_async_receive_callback
        rw [show (filled s chunk).m_receive_file_stream = none from hf]
        exact hf
      cases hnone.symm.trans hg
    | some f =>
      have hf' : (filled s chunk).m_receive_file_stream = some f := hf
      obtain ⟨hbuffer, hstream, -⟩ := callback_writes env (filled s chunk) hf' ec chunk.length
      obtain ⟨hgoes, hg⟩ := Option.ite_none_left_eq_some.mp (hstream.symm.trans hg)
      obtain rfl := Option.some.inj hg
      have hwritten : written env (filled t.session chunk) ec chunk.length =
          (inserted env (filled s chunk) f chunk.length).2.1 ++ [] := by
        unfold written
        rw [show (filled t.session chunk).m_receive_file_stream = some f from hf]
        exact congrArg (_ ++ ·) (if_neg hgoes)
      rw [List.append_nil] at hwritten
      rw [hwritten]
      refine (congrArg (_ ++ ·) hbuffer).trans ?_
      exact counted_inserted hc env chunk hf
  · have hiff := buffer_eq_nil_iff env s ec chunk
    simp only [s] at hiff
    simp only [hiff]
    split
    · exact hc.clean
    · exact Iff.rfl

end

/-- What an event writes to the file of an upload came for it. -/
theorem writes_prefix {t : Tally} (hc : Counted t) (env : Env) (e : Event) :
    t.written ++ writes env t.session e <+: t.received ++ (incoming e).getD [] := by
  have hclose : t.written ++ t.session.m_receive_file_stream.elim [] (OFStream.close · env) <+:
      t.received := by
    cases hf : t.session.m_receive_file_stream with
    | none => simpa using hc.bytes
    | some f =>
      rw [← hc.stream f hf, List.append_assoc]
      exact (List.prefix_append_right_inj _).mpr
        ((close_is_part f env).trans (List.prefix_append ..))
  cases e with
  | data_received c ec chunk => exact written_prefix hc env ec chunk
  | _ =>
    simp only [writes, incoming, Option.getD_none, List.append_nil]
    split
    · exact hclose
    · simpa using hc.bytes

theorem counted_step {t t' : Tally} {e : Env × Event} (hc : Counted t)
    (h : count t e = some t') (hs : StartsClean t e t') : Counted t' := by
  obtain ⟨env, e⟩ := e
  obtain ⟨s', hstep, rfl⟩ := Option.map_eq_some_iff.mp h
  obtain ⟨-, hst⟩ := step_stepped hstep
  by_cases hr : receives e = true
  · cases hst with
    | data_received c ec chunk ho =>
      exact counted_received hc env ec chunk (t.session.data_ops.erase ⟨.data_async_receive, c⟩)
    | _ => simp [receives] at hr
  · have hnone : incoming e = none := by
      cases e <;> first | rfl | exact absurd rfl hr
    obtain ⟨hbuffer, hstream⟩ := held_of_step hst (by simpa using hr)
    simp only [hnone]
    cases hup : t.session.uploader e with
    | none =>
      rw [hup] at hstream
      simp only [Option.isSome_none, Bool.false_eq_true, if_false]
      refine ⟨fun f hf => ?_, hc.bytes, ?_⟩
      · rw [hbuffer]
        exact hc.stream f (hstream.symm.trans hf)
      · rw [hbuffer]
        exact hc.clean
    | some u =>
      rw [hup] at hstream
      have hempty := hc.clean.mp (hs (Option.isSome_iff_exists.mpr ⟨u, hup⟩))
      simp only [Option.isSome_some, if_true]
      refine ⟨fun f hf => ?_, List.nil_prefix, ?_⟩
      · obtain rfl := Option.some.inj (hstream.symm.trans hf)
        exact hbuffer.trans hempty
      · rw [hbuffer]
        exact hc.clean

/-- An event is in order if and only if the upload that it starts, if any, starts clean. -/
theorem ownBytes_iff {t t' : Tally} {e : Env × Event} (hc : Counted t)
    (h : count t e = some t') : OwnBytes t e t' ↔ StartsClean t e t' := by
  constructor
  · intro hown hup
    exact hc.clean.mpr (hown.starts hup)
  · intro hs
    refine ⟨fun hup => hc.clean.mp (hs hup), ?_, ?_⟩
    · exact writes_prefix hc e.1 e.2
    · intro hin f hf
      obtain ⟨env, e⟩ := e
      obtain ⟨s', hstep, rfl⟩ := Option.map_eq_some_iff.mp h
      obtain ⟨-, hst⟩ := step_stepped hstep
      cases hst with
      | data_received c ec chunk ho =>
        exact (callback_writes env (filled { t.session with
          data_ops := t.session.data_ops.erase ⟨.data_async_receive, c⟩ } chunk) hf ec
          chunk.length).2.2
      | _ => simp [incoming] at hin

/-! ## The law -/

/-- In a run of any session, every upload starts with an empty buffer and only its own bytes are
written to its file, each once and in their order, if and only if the last write of the buffer
before it took all of it. -/
theorem uploads_write_their_own_bytes_iff_each_starts_clean (session_class : SessionClass)
    (users : users.Table) (store : Store) (lap available : Nat) (es : List (Env × Event)) :
    runs.Along count OwnBytes (begin session_class users store lap available) es ↔
      runs.Along count StartsClean (begin session_class users store lap available) es := by
  refine runs.along_iff_of_invariant (J := Counted) ?_ ?_ ?_
  · exact fun t e t' hc h => ownBytes_iff hc h
  · exact fun t e t' hc h hs => counted_step hc h hs
  · have hempty := emptied_begun session_class users store lap available
    refine ⟨fun f hf => ?_, List.nil_prefix, iff_of_true rfl hempty.buffer⟩
    exact (congrArg₂ (· ++ ·) (hempty.stream f hf) hempty.buffer)

/-- An upload of 8192 bytes, which is too much for the buffer of a stream, to a disk that takes one
byte of it. Then STOR takes another file. -/
def fullDisk : List (Env × Event) :=
  [clientLine "USER ann", clientLine "PASS pw1", clientLine "STOR f",
    (Env.working 0, .accepted .success),
    ({ Env.working 0 with disk_takes := some 1 },
      .data_received 1 .eof (List.replicate 8192 120)),
    clientLine "STOR g"]

/-- The next upload starts with the bytes that the disk did not take. -/
theorem a_full_disk_leaks_into_the_next_upload : ¬ runs.Along count OwnBytes
    (begin .session users.Table.annAndBob Store.empty 0 0)
    (fullDisk ++ [(Env.working 1, .accepted .success)]) := by
  intro h
  have hleft : ((runs.run count (begin .session users.Table.annAndBob Store.empty 0 0)
      fullDisk).bind fun t => (count t (Env.working 1, .accepted .success)).map fun _ =>
        ((t.session.uploader (.accepted .success)).isSome, t.session.m_receive_buffer.isEmpty)) =
      some (true, false) := by
    decide +kernel
  obtain ⟨t, hrun, hstep⟩ := Option.bind_eq_some_iff.mp hleft
  obtain ⟨t', ht', heq⟩ := Option.map_eq_some_iff.mp hstep
  obtain ⟨hstarts, hbuffer⟩ := Prod.mk.inj heq
  have hempty := (h.next hrun ht').starts hstarts
  simp [hempty] at hbuffer

end asio_ftp.leftovers
