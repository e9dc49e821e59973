-- The law of the download loop: whether it comes to an end, for all that the reads of a file can
-- give. The loop looks for the end of the file, and a read that fails never meets it.
import AsioFtp.Arguments
import AsioFtp.Downloads

namespace asio_ftp.send_loop

open helpers fs_objects arguments base_session base_session.Session downloads

/-! ## What a read can give -/

/-- What one read of a file gives, and the state that it leaves the stream in. -/
structure Read where
  chunk : Bytes
  eofbit : Bool
  failbit : Bool
  deriving DecidableEq

/-- The read failed before the end of the file. -/
def Read.failed (r : Read) : Bool := r.failbit && !r.eofbit

/-- The stream after a read. -/
def after (f : IFStream) (r : Read) : IFStream :=
  { f with pos := f.pos + r.chunk.length, eofbit := r.eofbit, failbit := r.failbit }

/-- A stream on a file with this content can give this to `read`: some of the next bytes, and at
least one when it stays good. It says that it met the end where the content ends, and once it
failed it gives nothing and stays as it is. -/
structure Gives (content : Bytes) (f : IFStream) (r : Read) : Prop where
  part : r.chunk = (content.drop f.pos).take r.chunk.length
  fits : r.chunk.length ≤ SEND_BUFFER_SIZE
  good : r.eofbit = false → r.failbit = false → r.chunk ≠ []
  ends : f.failbit = false → r.eofbit = true → f.pos + r.chunk.length = content.length
  stays : f.failbit = true → r = ⟨[], f.eofbit, true⟩

/-- The read of `data_async_send`, with what the file has now. -/
def readOf (env : Env) (s : Session) (f : IFStream) : Read :=
  let (f', chunk) := f.read ((s.m_fs_objects_table.blobs f.id).getD f.content) SEND_BUFFER_SIZE
    env.disk_fails
  ⟨chunk, f'.eofbit, f'.failbit⟩

/-- `IFStream.read` is one of these reads. -/
theorem gives_readOf (env : Env) (s : Session) (f : IFStream) (ho : f.is_open = true)
    (he : f.eofbit = false)
    (hpos : f.pos ≤ ((s.m_fs_objects_table.blobs f.id).getD f.content).length) :
    Gives ((s.m_fs_objects_table.blobs f.id).getD f.content) f (readOf env s f) := by
  unfold readOf IFStream.read
  generalize (s.m_fs_objects_table.blobs f.id).getD f.content = content at hpos
  by_cases hf : f.failbit = true
  · simp only [ho, he, hf, Bool.true_eq_false, Bool.false_eq_true, or_true, if_true]
    exact ⟨by simp, by simp, by simp, by simp, fun _ => by simp [he]⟩
  · have hN : 0 < SEND_BUFFER_SIZE := by decide
    simp only [ho, he, hf, Bool.true_eq_false, Bool.false_eq_true, or_false, if_false]
    generalize (if f.id = [] then some 0 else env.disk_fails) = fails
    cases fails with
    | some k =>
      exact ⟨by simp, by simp, by simp, by simp, by simp [hf]⟩
    | none =>
      refine ⟨by simp, by simp, ?_, ?_, by simp [hf]⟩
      · intro hlong _
        simp only [decide_eq_false_iff_not, List.length_drop] at hlong
        rw [← List.length_pos_iff, List.length_take, List.length_drop]
        omega
      · intro _ hshort
        simp only [decide_eq_true_eq, List.length_drop] at hshort
        simp only [List.length_take, List.length_drop]
        omega

/-! ## The loop -/

/-- `data_async_send`, with any read. -/
def sendRead (s : Session) (r : Read) : Session :=
  match s.m_send_file_stream with
  | none => s.crash
  | some f =>
    { s with m_send_file_stream := some (after f r), m_send_buffer := r.chunk }.start
      .data_async_send

/-- `handle_data_async_send_callback`, with any read after it. -/
def sentRead (ec : ErrorCode) (s : Session) (r : Read) : Session :=
  if s.sendEnds ec = true then s.data_async_send_end else sendRead s r

theorem read_eq (f : IFStream) (content : Bytes) (n : Nat) (fails : Option Nat) :
    (f.read content n fails).1 = after f ⟨(f.read content n fails).2,
      (f.read content n fails).1.eofbit, (f.read content n fails).1.failbit⟩ := by
  unfold IFStream.read after
  split
  · rfl
  · simp only
    cases (if f.id = [] then some 0 else fails) <;> rfl

theorem data_async_send_eq (env : Env) {s : Session} {f : IFStream}
    (h : s.m_send_file_stream = some f) : s.data_async_send env = sendRead s (readOf env s f) := by
  unfold data_async_send sendRead
  rw [h]
  simp only
  rw [read_eq f]
  rfl

/-! ## The reads of one stream -/

/-- The stream that `data_send_file` opens. -/
def newStream (env : Env) (s : Session) : IFStream where
  id := s.m_sendable_file_id
  content := (s.m_fs_objects_table.blobs s.m_sendable_file_id).getD []
  pos := 0
  is_open := s.sendOpens env s.m_sendable_file_id
  eofbit := false
  failbit := !s.sendOpens env s.m_sendable_file_id

/-- The stream before the read `k`. -/
def streamAt (f : IFStream) (reads : Nat → Read) : Nat → IFStream
  | 0 => f
  | k + 1 => after (streamAt f reads k) (reads k)

/-- All the reads of the stream are such as the file can give. -/
def Reads (content : Bytes) (f : IFStream) (reads : Nat → Read) : Prop :=
  ∀ k, Gives content (streamAt f reads k) (reads k)

section
variable {content : Bytes} {f : IFStream} {reads : Nat → Read}

theorem Gives.length_le {r : Read} (h : Gives content f r) :
    r.chunk.length ≤ content.length - f.pos := by
  have hl := congrArg List.length h.part
  rw [List.length_take, List.length_drop] at hl
  omega

/-- A read that failed is followed by none but failed ones. -/
theorem failed_of_failed (h : Reads content f reads) {i : Nat} (hi : (reads i).failed = true) :
    ∀ j, i ≤ j → (reads j).failed = true := by
  intro j hj
  induction j with
  | zero =>
    obtain rfl : i = 0 := Nat.le_zero.mp hj
    exact hi
  | succ j ih =>
    rcases Nat.lt_or_ge j i with hlt | hle
    · obtain rfl : i = j + 1 := Nat.le_antisymm hj hlt
      exact hi
    · have hf := ih hle
      simp only [Read.failed, Bool.and_eq_true, Bool.not_eq_eq_eq_not, Bool.not_true] at hf ⊢
      rw [(h (j + 1)).stays hf.1]
      exact ⟨rfl, hf.2⟩

/-- Each good read goes on by one byte at least, and none leads past the end. -/
theorem le_pos_of_good (h : Reads content f reads) (hf : f.pos ≤ content.length) {k : Nat}
    (hgood : ∀ j < k, (reads j).eofbit = false ∧ (reads j).failbit = false) :
    k ≤ (streamAt f reads k).pos ∧ (streamAt f reads k).pos ≤ content.length := by
  induction k with
  | zero => exact ⟨Nat.zero_le _, hf⟩
  | succ k ih =>
    obtain ⟨h1, h2⟩ := ih (fun j hj => hgood j (Nat.lt_succ_of_lt hj))
    obtain ⟨he, hb⟩ := hgood k (Nat.lt_succ_self k)
    have hpos := List.length_pos_iff.mpr ((h k).good he hb)
    have hle := (h k).length_le
    change k + 1 ≤ (streamAt f reads k).pos + (reads k).chunk.length ∧
      (streamAt f reads k).pos + (reads k).chunk.length ≤ content.length
    omega

/-- Some read meets the end if and only if none failed before. -/
theorem exists_eof_iff (h : Reads content f reads) (hf : f.pos ≤ content.length) :
    (∃ j, (reads j).eofbit = true) ↔
      ∀ i, (reads i).failed = true → ∃ j < i, (reads j).eofbit = true := by
  constructor
  · rintro ⟨j, hj⟩ i hi
    refine ⟨j, ?_, hj⟩
    by_contra hle
    have hfail := failed_of_failed h hi j (Nat.not_lt.mp hle)
    simp [Read.failed, hj] at hfail
  · intro hnone
    by_contra hnever
    -- No read fails, so each of them goes on, and the file is at an end.
    have heof : ∀ j, (reads j).eofbit = false := fun j => by
      by_contra hj
      exact hnever ⟨j, by simpa using hj⟩
    have hgood : ∀ j, (reads j).failbit = false := fun j => by
      by_contra hj
      obtain ⟨i, -, hi⟩ := hnone j (by simpa [Read.failed, heof j] using hj)
      exact hnever ⟨i, hi⟩
    have hpos := le_pos_of_good h hf (k := content.length + 1) (fun j _ => ⟨heof j, hgood j⟩)
    omega

end

/-! ## The law -/

/-- A download after `k` writes that succeeded. No end takes a write out of `data_ops` here, so
it counts the writes that started. -/
def download (env : Env) (s : Session) (reads : Nat → Read) : Nat → Session
  | 0 =>
    if s.sendOpens env s.m_sendable_file_id = false then (s.openSendFile env).data_close
    else sendRead (s.openSendFile env) (reads 0)
  | k + 1 => sentRead .success (download env s reads k) (reads (k + 1))

/-- Where no write fails, the download ends only at the end of the file. -/
theorem sendEnds_success {s : Session} {f : IFStream} (h : s.m_send_file_stream = some f) :
    s.sendEnds .success = f.eofbit := by
  simp [sendEnds, h]

theorem data_ops_data_close (s : Session) : s.data_close.data_ops = s.data_ops := by
  obtain ⟨o, n, h⟩ := s.data_close_eq
  rw [h]

section
variable {env : Env} {s : Session} {reads : Nat → Read}
  (hopens : s.sendOpens env s.m_sendable_file_id = true)
include hopens

/-- As long as the end is not met, each turn starts one write. -/
theorem download_of_running {k : Nat} (h : ∀ j < k, (reads j).eofbit = false) :
    (download env s reads k).m_send_file_stream = some (streamAt (newStream env s) reads (k + 1)) ∧
      (download env s reads k).data_ops.length = s.data_ops.length + (k + 1) := by
  induction k with
  | zero =>
    rw [download, if_neg (by simp [hopens])]
    exact ⟨rfl, List.length_append⟩
  | succ k ih =>
    obtain ⟨hs, hops⟩ := ih (fun j hj => h j (Nat.lt_succ_of_lt hj))
    have hgoes : (streamAt (newStream env s) reads (k + 1)).eofbit = false :=
      h k (Nat.lt_succ_self k)
    rw [download, sentRead, sendEnds_success hs, hgoes, if_neg Bool.false_ne_true, sendRead, hs]
    exact ⟨rfl, List.length_append.trans (congrArg (· + 1) hops)⟩

/-- The turn after the end starts none, and there is no other. -/
theorem download_of_ended {j : Nat} (hj : (reads j).eofbit = true)
    (h : ∀ i < j, (reads i).eofbit = false) {k : Nat} (hk : j < k) :
    (download env s reads k).m_send_file_stream = none ∧
      (download env s reads k).data_ops.length = s.data_ops.length + (j + 1) := by
  induction k with
  | zero => omega
  | succ k ih =>
    rw [download, sentRead]
    rcases Nat.lt_or_ge j k with hlt | hle
    · obtain ⟨hs, hops⟩ := ih hlt
      have hnone : (download env s reads k).sendEnds .success = false := by simp [sendEnds, hs]
      rw [hnone, if_neg Bool.false_ne_true, sendRead, hs]
      exact ⟨hs, hops⟩
    · obtain rfl : j = k := by omega
      obtain ⟨hs, hops⟩ := download_of_running hopens h
      have hends : (streamAt (newStream env s) reads (j + 1)).eofbit = true := hj
      rw [sendEnds_success hs, hends, if_pos rfl]
      refine ⟨stream_data_async_send_end hs, ?_⟩
      rw [data_async_send_end, hs]
      simp only
      rw [data_ops_data_close]
      exact hops

/-- The writes are finitely many if and only if some read meets the end. -/
theorem finite_iff_exists_eof : (∃ n, ∀ k, (download env s reads k).data_ops.length ≤ n) ↔
    ∃ j, (reads j).eofbit = true := by
  classical
  constructor
  · rintro ⟨n, hn⟩
    by_contra hnever
    have hops := (download_of_running hopens (k := n) (fun j _ => by
      by_contra hj
      exact hnever ⟨j, by simpa using hj⟩)).2
    have := hn n
    omega
  · intro hex
    have hfirst : ∀ i < Nat.find hex, (reads i).eofbit = false := fun i hi => by
      simpa using Nat.find_min hex hi
    refine ⟨s.data_ops.length + (Nat.find hex + 1), fun k => ?_⟩
    rcases Nat.lt_or_ge (Nat.find hex) k with hlt | hle
    · exact (download_of_ended hopens (Nat.find_spec hex) hfirst hlt).2.le
    · have hops := (download_of_running hopens (k := k)
        (fun i hi => hfirst i (Nat.lt_of_lt_of_le hi hle))).2
      omega

end

/-- For every file that `data_send_file` opens, the empty id of the directory included, and for
all that its reads can give, a download of which every write succeeds starts finitely many of
them, if and only if no read fails before the end of the file. -/
theorem the_download_loop_ends_iff (env : Env) (s : Session) (content : Bytes)
    (reads : Nat → Read) (hopens : s.sendOpens env s.m_sendable_file_id = true)
    (hreads : Reads content (newStream env s) reads) :
    (∃ n, ∀ k, (download env s reads k).data_ops.length ≤ n) ↔
      ∀ i, (reads i).failed = true → ∃ j < i, (reads j).eofbit = true :=
  (finite_iff_exists_eof hopens).trans (exists_eof_iff hreads (Nat.zero_le _))

/-- A session that downloads a file with one byte. -/
def oneByte : Session :=
  { inDirectory "/" with
    m_fs_objects_table := ⟨Table.empty, fun id => if id = lit "f" then some (lit "x") else none⟩
    m_sendable_file_id := lit "f" }

/-- The reads of that file: the first gives its byte and the end. -/
def readsOfOneByte (k : Nat) : Read := if k = 0 then ⟨lit "x", true, true⟩ else ⟨[], true, true⟩

theorem reads_of_one_byte : Reads (lit "x") (newStream (Env.working 0) oneByte) readsOfOneByte := by
  intro k
  cases k with
  | zero =>
    refine ⟨by decide, by decide, by decide, fun _ _ => by decide, fun h => ?_⟩
    exact absurd h (by decide)
  | succ k =>
    have hread : readsOfOneByte (k + 1) = ⟨[], true, true⟩ := if_neg (Nat.succ_ne_zero k)
    let f := streamAt (newStream (Env.working 0) oneByte) readsOfOneByte (k + 1)
    have hbits : f.eofbit = true ∧ f.failbit = true := by
      cases k <;> exact ⟨rfl, rfl⟩
    rw [hread]
    refine ⟨rfl, by decide, fun h => absurd h (by decide), fun h => ?_, fun _ => ?_⟩
    · rw [hbits.2] at h
      exact absurd h (by decide)
    · rw [hbits.1]

/-- The law at that file. -/
theorem the_download_loop_of_one_byte_ends :
    ∃ n, ∀ k, (download (Env.working 0) oneByte readsOfOneByte k).data_ops.length ≤ n :=
  (the_download_loop_ends_iff (Env.working 0) oneByte (lit "x") readsOfOneByte (by decide)
    reads_of_one_byte).mpr (by
      intro i hi
      have hnone : (readsOfOneByte i).failed = false := by
        unfold readsOfOneByte
        split <;> rfl
      rw [hnone] at hi
      exact absurd hi (by decide))

/-- The session after a late RETR of a file that is not there: no id is set, and the data socket is
open. -/
def lost : Session :=
  { inDirectory "/" with data_socket_open := true }.parse_RETR_argument (lit "x")

/-- The directory `data/` opens, and every read of it is this one. -/
theorem the_download_loop_of_the_directory_does_not_end :
    lost.m_sendable_file_id = [] ∧ lost.sendOpens (Env.working 0) lost.m_sendable_file_id = true ∧
      readOf (Env.working 0) lost (newStream (Env.working 0) lost) = ⟨[], false, true⟩ ∧
      Reads [] (newStream (Env.working 0) lost) (fun _ => ⟨[], false, true⟩) ∧
      ¬ ∃ n, ∀ k,
        (download (Env.working 0) lost (fun _ => ⟨[], false, true⟩) k).data_ops.length ≤ n := by
  have hopens : lost.sendOpens (Env.working 0) lost.m_sendable_file_id = true := by decide
  refine ⟨by decide, hopens, by decide, fun k => ?_, fun h => ?_⟩
  · have hbits : (streamAt (newStream (Env.working 0) lost) (fun _ => ⟨[], false, true⟩) k).eofbit =
        false := by
      cases k <;> rfl
    show Gives [] _ ⟨[], false, true⟩
    refine ⟨rfl, by decide, fun _ h => absurd h (by decide), fun _ h => absurd h (by decide),
      fun _ => ?_⟩
    rw [hbits]
  · obtain ⟨j, hj⟩ := (finite_iff_exists_eof hopens).mp h
    exact absurd hj (by decide)

end asio_ftp.send_loop
