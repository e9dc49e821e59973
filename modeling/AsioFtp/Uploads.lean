-- The laws of the recorded sizes: when the size in the row of an object is the length of its
-- blob after an upload.
import AsioFtp.Server

namespace asio_ftp.uploads

open helpers fs_objects histories base_session base_session.Session server

/-! ## Whole uploads -/

/-- An upload of the session `k` that runs to its end: the file that STOR took, what the server
gets from outside, and the parts that the reads bring, the last with the end of the file. -/
structure Upload where
  k : Nat
  uuid : Uuid
  now : Bytes
  file : Bytes
  chunks : List Bytes
  last : Bytes
  keeps : Nat → Nat → Bool

/-- The file opens, and the disk takes every byte. -/
def Upload.env (u : Upload) : Env where
  uuid := u.uuid
  now := u.now
  opens := true
  disk_takes := none
  close_takes := none
  disk_fails := none
  keeps := u.keeps

def Upload.content (u : Upload) : Bytes := u.chunks.flatten ++ u.last

/-- The session when the data connection is there. -/
def Upload.begins (u : Upload) (s : Session) : Session := { s with m_pending_write_file := u.file }

/-- The session when a read gave `chunk`. -/
def filled (s : Session) (chunk : Bytes) : Session :=
  { s with m_receive_buffer := s.m_receive_buffer ++ chunk }

/-- The end of a read of the data connection that gave `chunk`. -/
def receive (env : Env) (ec : ErrorCode) (s : Session) (chunk : Bytes) : Session :=
  (filled s chunk).handle_data_async_receive_callback env ec chunk.length

/-- The session after the upload. -/
def Upload.ends (u : Upload) (s : Session) : Session :=
  receive u.env .eof
    (u.chunks.foldl (receive u.env .success) ((u.begins s).data_receive_file u.env)) u.last

/-- Uploads that run to their end, one after the other, with any other events between them. -/
inductive Action
  | event (e : ServerEvent)
  | upload (u : Upload)

def isReceive : ServerEvent → Bool
  | .connected .. => false
  | .session _ _ e => receives e

/-- The reads of the data connection are those of the uploads, which need a login and a file
that opens. -/
def step (sv : Server) : Action → Option Server
  | .event e => if isReceive e then none else sv.step e
  | .upload u =>
    (sv.session u.k).bind fun s =>
      if s.m_connection_stage = .LOGGED_IN ∧ (u.begins s).receiveOpens u.env = true then
        some (sv.put u.k (u.ends s))
      else none

/-- The object of the upload has a row, and its size is the length of the blob. -/
def Recorded (st : Store) (user_id name path : Bytes) : Prop :=
  ∃ r ∈ st.table.rows, (r.user_id = user_id ∧ r.name = name ∧ r.path = path) ∧
    (st.blobs r.object_id).map (fun b => (b.length : Int)) = some r.size

instance (st : Store) (u n p : Bytes) : Decidable (Recorded st u n p) :=
  inferInstanceAs (Decidable (∃ r ∈ st.table.rows, _))

/-- After an upload the size of its object is recorded. -/
def RecordsSize (sv : Server) : Action → Server → Prop
  | .event _, _ => True
  | .upload u, sv' => ∀ s ∈ sv.session u.k,
    Recorded sv'.m_fs_objects_table s.m_userid (get_basename u.file) (get_parent_path u.file)

instance (sv : Server) : (a : Action) → (sv' : Server) → Decidable (RecordsSize sv a sv')
  | .event _, _ => inferInstanceAs (Decidable True)
  | .upload u, _ => inferInstanceAs (Decidable (∀ s ∈ sv.session u.k, _))

/-- The object of the upload of a file, before it. -/
def found (t : Table) (user_id file : Bytes) : fs_object :=
  get_object t user_id (get_basename file) (get_parent_path file)

/-- The upload makes a new object, whose insert is not dropped and whose blob is not there
yet, or writes an object whose recorded size is 0. -/
def StartsAtZero (st : Store) (u : Upload) (user_id : Bytes) : Prop :=
  if (found st.table user_id u.file).id = [] then
    Inserts st.table (.create_object u.uuid u.now user_id (get_basename u.file)
      (get_parent_path u.file) 0 false) ∧ (st.blobs u.uuid.val).getD [] = []
  else stoll (found st.table user_id u.file).size = 0

def UploadsAtZero (sv : Server) : Action → Server → Prop
  | .event _, _ => True
  | .upload u, _ => ∀ s ∈ sv.session u.k, StartsAtZero sv.m_fs_objects_table u s.m_userid

/-! ## The buffer of a stream -/

/-- The stream takes all of the buffer: it is good, and it keeps the bytes or the disk has room. -/
def takes (env : Env) (f : OFStream) (buffer : Bytes) : Bool :=
  f.is_open && !f.failbit && (env.keeps f.buffered.length buffer.length ||
    decide (f.buffered.length + buffer.length ≤
      env.disk_takes.getD (f.buffered.length + buffer.length)))

/-- The first bytes of two parts, and what they leave of each. -/
theorem take_drop_append (a b : Bytes) (n : Nat) :
    (a ++ b).take n ++ a.drop n ++ b.drop (n - a.length) = a ++ b := by
  rw [List.take_append, List.append_assoc, List.append_assoc]
  rcases Nat.le_total n a.length with hn | hn
  · rw [Nat.sub_eq_zero_of_le hn, List.take_zero, List.drop_zero, List.nil_append,
      ← List.append_assoc, List.take_append_drop]
  · rw [List.take_of_length_le hn, List.drop_of_length_le hn, List.nil_append,
      List.take_append_drop]

section
variable (env : Env) (f : OFStream) {buffer : Bytes}

/-- What reaches the file, what the stream keeps and what it leaves are what it had and the
buffer. -/
theorem insert_append (buffer : Bytes) :
    (f.insert env buffer).2.1 ++ (f.insert env buffer).1.buffered ++ (f.insert env buffer).2.2 =
      f.buffered ++ buffer := by
  unfold OFStream.insert
  split
  · rfl
  · split
    · exact List.append_nil _
    · exact take_drop_append ..

/-- The stream leaves nothing if and only if it takes all. -/
theorem insert_left_iff (hne : buffer ≠ []) :
    (f.insert env buffer).2.2 = [] ↔ takes env f buffer = true := by
  have hlen : 0 < buffer.length := List.length_pos_iff.mpr hne
  unfold OFStream.insert takes
  split
  · next h =>
    refine iff_of_false hne (fun hgood => ?_)
    rcases h with h | h | h
    · simp [h] at hgood
    · simp [h] at hgood
    · exact hne h
  · next h =>
    rw [not_or, not_or, Bool.not_eq_false, Bool.not_eq_true] at h
    split
    · next hk => simp [h.1, h.2.1, hk]
    · next hk =>
      simp only [List.drop_eq_nil_iff, List.length_append, h.1, h.2.1, hk, Bool.not_false,
        Bool.true_and, Bool.false_or, decide_eq_true_eq]
      omega

/-- A stream goes on behind what reached its file. -/
theorem insert_stream (buffer : Bytes) : (f.insert env buffer).1 =
    { f with
      pos := f.pos + (f.insert env buffer).2.1.length
      failbit := (f.insert env buffer).1.failbit
      buffered := (f.insert env buffer).1.buffered } := by
  unfold OFStream.insert
  split
  · rfl
  · split
    · rfl
    · simp only [List.length_take, Nat.min_assoc, Nat.min_self]

/-- A stream that takes all of the buffer is still good. -/
theorem failbit_of_takes (hne : buffer ≠ []) (h : takes env f buffer = true) :
    (f.insert env buffer).1.failbit = false := by
  have hlen : 0 < buffer.length := List.length_pos_iff.mpr hne
  simp only [takes, Bool.and_eq_true, Bool.not_eq_true', Bool.or_eq_true, decide_eq_true_eq] at h
  obtain ⟨⟨ho, hf⟩, hroom⟩ := h
  have hgood : ¬ (f.is_open = false ∨ f.failbit = true ∨ buffer = []) := by simp [ho, hf, hne]
  unfold OFStream.insert
  rw [if_neg hgood]
  split
  · exact hf
  · next hk =>
    have hroom := hroom.resolve_left hk
    simp only [List.length_append, decide_eq_false_iff_not]
    omega

/-- A stream that takes all has all, or has written it. -/
theorem length_buffered_of_takes (hne : buffer ≠ []) (h : takes env f buffer = true) :
    (f.insert env buffer).1.buffered.length =
      if env.keeps f.buffered.length buffer.length then f.buffered.length + buffer.length
      else 0 := by
  simp only [takes, Bool.and_eq_true, Bool.not_eq_true', Bool.or_eq_true, decide_eq_true_eq] at h
  obtain ⟨⟨ho, hf⟩, hroom⟩ := h
  have hgood : ¬ (f.is_open = false ∨ f.failbit = true ∨ buffer = []) := by simp [ho, hf, hne]
  unfold OFStream.insert
  rw [if_neg hgood]
  split
  · exact List.length_append
  · next hk =>
    have hroom := hroom.resolve_left hk
    simp only [List.length_append, List.length_drop]
    omega

theorem takes_of_good {env : Env} {f : OFStream} (ho : f.is_open = true) (hf : f.failbit = false)
    (henv : env.disk_takes = none) (buffer : Bytes) : takes env f buffer = true := by
  simp [takes, ho, hf, henv]

end

/-! ## The bytes of an upload -/

theorem writeAt_end (content bytes : Bytes) :
    writeAt content content.length bytes = content ++ bytes := by
  unfold writeAt
  split
  · next h => rw [h, List.append_nil]
  · simp [List.drop_of_length_le]

@[simp] theorem writeBlob_nil (st : Store) (f : OFStream) : writeBlob st f [] = st := by
  have hsame : (fun c => writeAt c (if f.app then c.length else f.pos) []) = id := by
    funext c
    exact if_pos rfl
  unfold writeBlob
  simp [hsame]

/-- A write, and another one behind it, are one write. -/
theorem writeAt_append (content a b : Bytes) (pos : Nat) :
    writeAt (writeAt content pos a) (pos + a.length) b = writeAt content pos (a ++ b) := by
  by_cases ha : a = []
  · simp [writeAt, ha]
  by_cases hb : b = []
  · simp [writeAt, hb]
  have hab : a ++ b ≠ [] := by simp [ha]
  unfold writeAt
  rw [if_neg ha, if_neg hb, if_neg hab]
  let front := content.take pos ++ List.replicate (pos - content.length) 0
  have hfront : front.length = pos := by
    simp only [front, List.length_append, List.length_take, List.length_replicate]
    omega
  let rest := content.drop (pos + a.length)
  show (front ++ a ++ rest).take _ ++ List.replicate (_ - (front ++ a ++ rest).length) 0 ++ b ++
    (front ++ a ++ rest).drop _ = front ++ (a ++ b) ++ _
  have hlen : (front ++ a).length = pos + a.length := by rw [List.length_append, hfront]
  have hhole : pos + a.length - (front ++ a ++ rest).length = 0 := by
    rw [List.length_append, hlen]
    omega
  rw [hhole, List.replicate_zero, List.append_nil, ← hlen, List.take_left, List.drop_append,
    hlen, List.drop_of_length_le (by omega), List.nil_append, List.drop_drop, List.length_append,
    List.append_assoc front a b]
  simp only [List.append_assoc]
  congr 4
  omega

theorem writeBlob_append {f g : OFStream} {a : Bytes} (hid : g.id = f.id) (happ : g.app = f.app)
    (hpos : g.pos = f.pos + a.length) (st : Store) (b : Bytes) :
    writeBlob (writeBlob st f a) g b = writeBlob st f (a ++ b) := by
  have htwice : ∀ c : Bytes, writeAt (writeAt c (if f.app then c.length else f.pos) a)
      (if g.app then (writeAt c (if f.app then c.length else f.pos) a).length else g.pos) b =
        writeAt c (if f.app then c.length else f.pos) (a ++ b) := by
    intro c
    rw [happ]
    cases f.app with
    | true =>
      simp only [if_true]
      rw [writeAt_end, writeAt_end, writeAt_end, List.append_assoc]
    | false =>
      simp only [Bool.false_eq_true, if_false]
      rw [hpos, writeAt_append]
  unfold writeBlob
  simp only [hid]
  congr 1
  funext i
  by_cases hi : i = f.id
  · simp only [if_pos hi, Option.map_map]
    congr 1
    funext c
    exact htwice c
  · simp only [if_neg hi]

/-- A stream at the end of its file appends. -/
theorem blobs_writeBlob {st : Store} {f : OFStream} {id content : Bytes} (hid : f.id = id)
    (hb : st.blobs id = some content) (hpos : f.app = true ∨ f.pos = content.length)
    (bytes : Bytes) : (writeBlob st f bytes).blobs id = some (content ++ bytes) := by
  have hend : (if f.app = true then content.length else f.pos) = content.length := by
    rcases hpos with happ | hp
    · rw [if_pos happ]
    · rw [hp, ite_self]
  simp only [writeBlob, hid, if_true, hb, Option.map_some, hend, writeAt_end]

/-- A good stream at the end of its file. The file and what the stream still has are `content`. -/
structure AtEnd (content : Bytes) (st : Store) (f : OFStream) : Prop where
  is_open : f.is_open = true
  failbit : f.failbit = false
  blob : ∃ out, st.blobs f.id = some out ∧ out ++ f.buffered = content ∧
    (f.app = true ∨ f.pos = out.length)

/-- A stream that takes all of the buffer is at the end of its file after it. -/
theorem AtEnd.insert {content : Bytes} {st : Store} {f : OFStream} (h : AtEnd content st f)
    {env : Env} {buffer : Bytes} (hne : buffer ≠ []) (ht : takes env f buffer = true) :
    AtEnd (content ++ buffer) (writeBlob st f (f.insert env buffer).2.1)
      (f.insert env buffer).1 := by
  obtain ⟨out, hout, rfl, hpos⟩ := h.blob
  have happend := insert_append env f buffer
  rw [(insert_left_iff env f hne).mpr ht, List.append_nil] at happend
  have hgood := failbit_of_takes env f hne ht
  rw [insert_stream] at hgood ⊢
  refine ⟨h.is_open, hgood, _, blobs_writeBlob rfl hout hpos _, ?_, ?_⟩
  · rw [List.append_assoc, happend, List.append_assoc]
  · exact hpos.imp_right fun hpos => by rw [hpos, List.length_append]

/-- The close of a stream at the end of its file writes what it still has. -/
theorem AtEnd.close {content : Bytes} {st : Store} {f : OFStream} (h : AtEnd content st f)
    {env : Env} (henv : env.close_takes = none) :
    (closeBlob env st f).blobs f.id = some content := by
  obtain ⟨out, hout, rfl, hpos⟩ := h.blob
  rw [closeBlob, blobs_writeBlob rfl hout hpos, OFStream.close, henv, Option.getD_none,
    List.take_length]

/-- What the file of an upload holds when it opens. -/
def base (env : Env) (s : Session) : Bytes :=
  if (s.receiveTarget env).app then
    ((s.receiveTarget env).store.blobs (s.receiveTarget env).id).getD []
  else []

/-- A session that has no bytes left, in its buffer or in a stream. -/
structure Emptied (s : Session) : Prop where
  buffer : s.m_receive_buffer = []
  stream : ∀ f ∈ s.m_receive_file_stream, f.buffered = []

/-- Then an upload that starts opens its file, and the stream that makes place writes nothing. -/
theorem store_data_receive_file {env : Env} {s : Session} (hopens : s.receiveOpens env = true)
    (hs : ∀ f ∈ s.m_receive_file_stream, f.buffered = []) :
    (s.data_receive_file env).m_fs_objects_table =
      openBlob (s.receiveTarget env).store (s.receiveTarget env).id (s.receiveTarget env).app := by
  have heq : s.data_receive_file env = (s.openReceiveFile env).data_async_receive := by
    rw [data_receive_file, if_neg (by simp [hopens])]
  rw [heq]
  simp only [data_async_receive, start, openReceiveFile, hopens, if_true]
  cases hf : s.m_receive_file_stream with
  | none => rfl
  | some f =>
    rw [Option.elim_some, closeBlob, OFStream.close, hs f hf, List.take_nil, writeBlob_nil]

theorem blob_data_receive_file {env : Env} {s : Session} (hopens : s.receiveOpens env = true)
    (hs : ∀ f ∈ s.m_receive_file_stream, f.buffered = []) :
    (s.data_receive_file env).m_fs_objects_table.blobs (s.receiveTarget env).id =
      some (base env s) := by
  rw [store_data_receive_file hopens hs]
  exact if_pos rfl

/-- An upload on its way, which began in `s`: the stream stands at the end of the file, which gets
every byte that came, `got`. -/
structure Receiving (env : Env) (s : Session) (got : Bytes) (t : Session) : Prop where
  stream : ∃ f, t.m_receive_file_stream = some f ∧ f.id = (s.receiveTarget env).id ∧
    AtEnd (base env s ++ got) t.m_fs_objects_table f
  buffer : t.m_receive_buffer = []
  size : t.m_received_file_size = (s.receiveTarget env).size + got.length
  table : t.m_fs_objects_table.table = (s.receiveTarget env).store.table
  object : t.m_userid = s.m_userid ∧
    t.m_receive_file_name = get_basename s.m_pending_write_file ∧
    t.m_receive_file_path = get_parent_path s.m_pending_write_file

section
variable {env : Env} {s : Session}

theorem receiving_begin (hopens : s.receiveOpens env = true) (hs : Emptied s) :
    Receiving env s [] (s.data_receive_file env) := by
  have hblob := blob_data_receive_file hopens hs.stream
  have hstore := store_data_receive_file hopens hs.stream
  have heq : s.data_receive_file env = (s.openReceiveFile env).data_async_receive := by
    rw [data_receive_file, if_neg (by simp [hopens])]
  rw [heq] at hblob hstore ⊢
  constructor
  · refine ⟨_, rfl, rfl, hopens, by simp [hopens], base env s, hblob, rfl, ?_⟩
    · by_cases happ : (s.receiveTarget env).app = true
      · exact Or.inl happ
      · exact Or.inr (by simp [base, happ])
  · exact hs.buffer
  · simp [data_async_receive, start, openReceiveFile]
  · rw [hstore]
    rfl
  · exact ⟨rfl, rfl, rfl⟩

/-- The part that a read gave goes to the stream. -/
theorem receiving_absorb (henv : env.disk_takes = none) {got : Bytes} {t : Session}
    (h : Receiving env s got t) (chunk : Bytes) :
    ∃ f, (filled t chunk).m_receive_file_stream = some f ∧
      Receiving env s (got ++ chunk) ((filled t chunk).absorb env f chunk.length) := by
  obtain ⟨f, hs, hid, hend⟩ := h.stream
  refine ⟨f, hs, ?_⟩
  by_cases hc : chunk = []
  · subst hc
    simp only [absorb, filled, List.length_nil, gt_iff_lt, Nat.lt_irrefl, if_false,
      List.append_nil]
    exact ⟨⟨f, hs, hid, hend⟩, h.buffer, by simpa using h.size, h.table, h.object⟩
  have hlen : 0 < chunk.length := List.length_pos_iff.mpr hc
  have htakes := takes_of_good hend.is_open hend.failbit henv chunk
  simp only [absorb, filled, gt_iff_lt, hlen, if_true, writeReceived, h.buffer, List.nil_append]
  constructor
  · refine ⟨_, rfl, ?_, ?_⟩
    · rw [insert_stream]
      exact hid
    · rw [← List.append_assoc]
      exact hend.insert hc htakes
  · exact (insert_left_iff env f hc).mpr htakes
  · simp only [h.size, List.length_append, Nat.cast_add]
    ring
  · exact h.table
  · exact h.object

/-- A callback of an upload is its last one when the read failed or the stream did. -/
theorem receiveEnds_eq {t : Session} {f g : OFStream} {n : Nat} (ec : ErrorCode)
    (hf : t.m_receive_file_stream = some f)
    (hg : (t.absorb env f n).m_receive_file_stream = some g) :
    t.receiveEnds env ec n = (decide (ec ≠ .success) || g.failbit) := by
  rw [t.absorb_stream env hf n, Option.some.injEq] at hg
  rw [receiveEnds, hf, ← hg]

/-- A read that succeeds leaves the upload on its way. -/
theorem receiving_receive (henv : env.disk_takes = none) {got : Bytes} {t : Session}
    (h : Receiving env s got t) (chunk : Bytes) :
    Receiving env s (got ++ chunk) (receive env .success t chunk) := by
  obtain ⟨f, hs, ha⟩ := receiving_absorb henv h chunk
  obtain ⟨g, hg, hgid, hend⟩ := ha.stream
  have hgoes : ¬ (filled t chunk).receiveEnds env .success chunk.length = true := by
    rw [receiveEnds_eq .success hs hg]
    simp [hend.failbit]
  unfold receive
  rw [handle_data_async_receive_callback_eq env (filled t chunk) hs, if_neg hgoes]
  exact ⟨⟨g, hg, hgid, hend⟩, ha.buffer, ha.size, ha.table, ha.object⟩

theorem receiving_foldl (henv : env.disk_takes = none) (chunks : List Bytes) {got : Bytes}
    {t : Session} (h : Receiving env s got t) :
    Receiving env s (got ++ chunks.flatten) (chunks.foldl (receive env .success) t) := by
  induction chunks generalizing got t with
  | nil => simpa using h
  | cons chunk chunks ih =>
    have hrest := ih (receiving_receive henv h chunk)
    rw [List.append_assoc] at hrest
    exact hrest

/-- The session after the last read: the size of the object is what the counter reached, and the
blob is what the file held at the open, with every byte of the upload. -/
structure Received (env : Env) (s : Session) (content : Bytes) (t : Session) : Prop where
  emptied : Emptied t
  blob : t.m_fs_objects_table.blobs (s.receiveTarget env).id = some (base env s ++ content)
  table : t.m_fs_objects_table.table =
    (update_object_size (s.receiveTarget env).store env.now s.m_userid
      (get_basename s.m_pending_write_file) (get_parent_path s.m_pending_write_file)
      ((s.receiveTarget env).size + content.length)).1.table

theorem received_of_receiving (henv : env.close_takes = none) {got : Bytes} {t : Session}
    (h : Receiving env s got t) : Received env s got (t.data_async_receive_end env) := by
  obtain ⟨f, hs, hid, hend⟩ := h.stream
  obtain ⟨hu, hn, hp⟩ := h.object
  have hkept := kept_data_async_receive_end env t hs
  have hstore : (t.data_async_receive_end env).m_fs_objects_table = _ := congrArg Files.store hkept
  have hcall : t.callOfEnd env 0 = .update_object_size env.now s.m_userid
      (get_basename s.m_pending_write_file) (get_parent_path s.m_pending_write_file)
      ((s.receiveTarget env).size + got.length) := by
    simp only [callOfEnd, hu, hn, hp, h.size, Nat.cast_zero, Int.add_zero]
  refine ⟨⟨(congrArg Files.buffer hkept).trans h.buffer, fun g hg => ?_⟩, ?_, ?_⟩
  · have hnone : (t.data_async_receive_end env).m_receive_file_stream = none :=
      congrArg Files.stream hkept
    rw [hnone] at hg
    cases hg
  · rw [hstore, hcall, ← hid]
    simp only [applied, Option.elim_some, apply, ← update_closeBlob, update_object_size_blobs]
    exact hend.close henv
  · rw [hstore, hcall]
    simp only [applied, Option.elim_some, apply, closeBlob, writeBlob_table,
      update_object_size_table, h.table]

/-- The last read ends the upload. -/
theorem received_receive (henv : env.disk_takes = none) (hclose : env.close_takes = none)
    {got : Bytes} {t : Session} (h : Receiving env s got t) (chunk : Bytes) :
    Received env s (got ++ chunk) (receive env .eof t chunk) := by
  obtain ⟨f, hs, ha⟩ := receiving_absorb henv h chunk
  obtain ⟨g, hg, -⟩ := ha.stream
  have hends : (filled t chunk).receiveEnds env .eof chunk.length = true := by
    rw [receiveEnds_eq .eof hs hg]
    rfl
  unfold receive
  rw [handle_data_async_receive_callback_eq env (filled t chunk) hs, if_pos hends]
  exact received_of_receiving hclose ha

end

/-- An upload that opens its file ends with every byte in it. -/
theorem received_upload {u : Upload} {s : Session} (hs : Emptied s)
    (hopens : (u.begins s).receiveOpens u.env = true) :
    Received u.env (u.begins s) u.content (u.ends s) := by
  have hbegin := receiving_begin hopens (show Emptied (u.begins s) from ⟨hs.buffer, hs.stream⟩)
  exact received_receive rfl rfl (receiving_foldl rfl u.chunks hbegin) u.last

/-! ## The recorded size -/

/-- After a size update, an object is recorded when it is in the table and its blob has that
size. -/
theorem recorded_iff {st : Store} {t : Table} (hg : Generated t) {u n p now : Bytes} {size : Int}
    (ht : st.table = if (get_object t u n p).id = [] then t
      else t.updateSize size now (get_object t u n p).id) :
    Recorded st u n p ↔ (get_object t u n p).id ≠ [] ∧
      (st.blobs (get_object t u n p).id).map (fun b => (b.length : Int)) = some size := by
  by_cases hid : (get_object t u n p).id = []
  · rw [if_pos hid] at ht
    refine iff_of_false ?_ (fun h => h.1 hid)
    rintro ⟨r, hr, hkey, -⟩
    rw [ht] at hr
    exact (get_object_id_ne_nil_iff hg).mpr ⟨r, hr, hkey⟩ hid
  · rw [if_neg hid] at ht
    obtain ⟨r, hr, rfl, rfl, rfl, hobj⟩ := exists_of_get_object hid
    rw [hobj, hg.id_eq hr] at ht ⊢
    have hresize : Table.resize size now r.object_id r =
        { r with size := size, modified_time := now } := if_pos rfl
    constructor
    · rintro ⟨x, hx, ⟨-, hn, hp⟩, hb⟩
      rw [ht] at hx
      obtain ⟨y, hy, rfl⟩ := List.mem_map.mp hx
      obtain ⟨s, m, he⟩ := Table.resize_eq size now r.object_id y
      rw [he] at hn hp
      obtain rfl := t.eq_of_name_path hy hr hn hp
      rw [hresize] at hb
      exact ⟨by rw [← hg.id_eq hr]; exact hg.id_ne_nil hr, hb⟩
    · rintro ⟨-, hb⟩
      refine ⟨{ r with size := size, modified_time := now }, ?_, ⟨rfl, rfl, rfl⟩, hb⟩
      rw [ht]
      exact List.mem_map.mpr ⟨r, hr, hresize⟩

theorem receiveTarget_new {u : Upload} {s : Session}
    (ho : (found s.m_fs_objects_table.table s.m_userid u.file).id = []) :
    (u.begins s).receiveTarget u.env =
      let created := create_object s.m_fs_objects_table u.uuid u.now s.m_userid
        (get_basename u.file) (get_parent_path u.file) 0 false
      ⟨created.1, created.2, true, 0⟩ := if_pos ho

section
variable {u : Upload} {s t : Session} (hg : Generated s.m_fs_objects_table.table)
  (h : Received u.env (u.begins s) u.content t)
include hg h

/-- An upload to an object of the table adds the size that it had. -/
theorem recorded_old (ho : (found s.m_fs_objects_table.table s.m_userid u.file).id ≠ []) :
    Recorded t.m_fs_objects_table s.m_userid (get_basename u.file) (get_parent_path u.file) ↔
      stoll (found s.m_fs_objects_table.table s.m_userid u.file).size = 0 := by
  let object := found s.m_fs_objects_table.table s.m_userid u.file
  have htarget : (u.begins s).receiveTarget u.env =
      ⟨s.m_fs_objects_table, object.id, false, stoll object.size⟩ := if_neg ho
  have ht : t.m_fs_objects_table.table =
      if object.id = [] then s.m_fs_objects_table.table
      else s.m_fs_objects_table.table.updateSize (stoll object.size + u.content.length) u.now
        object.id := by
    have ht := h.table
    rw [update_object_size_table, htarget] at ht
    exact ht
  have hb : t.m_fs_objects_table.blobs object.id = some u.content := by
    have hb := h.blob
    rw [base, htarget] at hb
    exact hb
  rw [recorded_iff hg ht, show (get_object _ _ _ _).id = object.id from rfl, hb]
  simp only [Option.map_some, Option.some.injEq]
  exact ⟨fun h => show stoll object.size = 0 by omega,
    fun (h : stoll object.size = 0) => ⟨ho, by omega⟩⟩

/-- An upload to a new object records its size when its row is inserted and its file held
nothing. -/
theorem recorded_new (ho : (found s.m_fs_objects_table.table s.m_userid u.file).id = [])
    (hc : Creatable s.m_fs_objects_table.table s.m_userid (get_basename u.file)
      (get_parent_path u.file)) :
    Recorded t.m_fs_objects_table s.m_userid (get_basename u.file) (get_parent_path u.file) ↔
      Inserts s.m_fs_objects_table.table (.create_object u.uuid u.now s.m_userid
        (get_basename u.file) (get_parent_path u.file) 0 false) ∧
      (s.m_fs_objects_table.blobs u.uuid.val).getD [] = [] := by
  let row := newRow u.uuid u.now s.m_userid (get_basename u.file) (get_parent_path u.file) 0 false
  let table := s.m_fs_objects_table.table.insert row
  let old := (s.m_fs_objects_table.blobs u.uuid.val).getD []
  have htarget : (u.begins s).receiveTarget u.env =
      ⟨{ s.m_fs_objects_table with table := table }, u.uuid.val, true, 0⟩ := by
    rw [receiveTarget_new ho, create_object_of hc]
  have hgrow : Generated table := by
    intro x hx
    rcases mem_insert.mp hx with hx | ⟨rfl, -⟩
    · exact hg x hx
    · exact ⟨u.uuid, rfl⟩
  have ht : t.m_fs_objects_table.table =
      if (found table s.m_userid u.file).id = [] then table
      else table.updateSize (0 + u.content.length) u.now (found table s.m_userid u.file).id := by
    have ht := h.table
    rw [update_object_size_table, htarget] at ht
    exact ht
  have hb : t.m_fs_objects_table.blobs u.uuid.val = some (old ++ u.content) := by
    have hb := h.blob
    rw [base, htarget] at hb
    exact hb
  rw [recorded_iff hgrow ht]
  by_cases hx : s.m_fs_objects_table.table.Conflicts row
  · refine iff_of_false (fun hr => hr.1 ?_) (fun hi => hi.1.2 hx)
    have hsame : table = s.m_fs_objects_table.table := dif_pos hx
    rw [hsame]
    exact ho
  · have hmem : row ∈ table.rows := mem_insert.mpr (Or.inr ⟨rfl, hx⟩)
    have hid : (get_object table s.m_userid (get_basename u.file) (get_parent_path u.file)).id =
        u.uuid.val := (congrArg fs_object.id (get_object_of_mem hmem)).trans (hgrow.id_eq hmem)
    rw [hid, hb]
    simp only [Option.map_some, Option.some.injEq, List.length_append]
    constructor
    · rintro ⟨-, hl⟩
      exact ⟨⟨hc, hx⟩, show old = [] from List.eq_nil_of_length_eq_zero (by push_cast at hl; omega)⟩
    · rintro ⟨-, hnil⟩
      have hl : old.length = 0 := congrArg List.length hnil
      exact ⟨u.uuid.ne_nil, by push_cast; omega⟩

end

/-- The size of an object is recorded after an upload if and only if the upload starts at
zero. -/
theorem recorded_upload_iff {u : Upload} {s : Session} (hg : Generated s.m_fs_objects_table.table)
    (hs : Emptied s) (hopens : (u.begins s).receiveOpens u.env = true) :
    Recorded (u.ends s).m_fs_objects_table s.m_userid (get_basename u.file)
      (get_parent_path u.file) ↔ StartsAtZero s.m_fs_objects_table u s.m_userid := by
  have h := received_upload hs hopens
  unfold StartsAtZero
  by_cases ho : (found s.m_fs_objects_table.table s.m_userid u.file).id = []
  · rw [if_pos ho]
    refine recorded_new hg h ho ?_
    -- Without its checks the create gives no id, and no file opens.
    by_contra hc
    rw [receiveOpens, receiveTarget_new ho, create_object_of_not hc] at hopens
    simp at hopens
  · rw [if_neg ho]
    exact recorded_old hg h ho

/-! ## The law -/

/-- What holds between the uploads: the ids are generated, and no session has bytes left. -/
structure Drained (sv : Server) : Prop where
  generated : Generated sv.m_fs_objects_table.table
  emptied : ∀ s ∈ sv.sessions, Emptied s

theorem Drained.session {sv : Server} (h : Drained sv) {k : Nat} {s : Session}
    (hk : sv.session k = some s) : Emptied s :=
  Server.law_of_session (fun _ _ h => ⟨h.buffer, h.stream⟩) h.emptied hk

theorem Drained.put {sv : Server} (h : Drained sv) (k : Nat) {s : Session} (hs : Emptied s) :
    ∀ t ∈ (sv.put k s).sessions, Emptied t :=
  Server.law_of_put h.emptied k hs

theorem emptied_begun (session_class : SessionClass) (users : users.Table) (store : Store)
    (lap available : Nat) : Emptied (begun session_class users store lap available) := by
  have hnone : ∀ s : Session, s.m_receive_buffer = [] ∧ s.m_receive_file_stream = none →
      Emptied s := by
    rintro s ⟨hb, hf⟩
    exact ⟨hb, fun f h => by simp [hf] at h⟩
  refine begun_cases (P := Emptied) session_class users store lap available ?_ ?_ ?_ ?_
  · exact hnone _ ⟨rfl, rfl⟩
  · exact hnone _ ⟨rfl, rfl⟩
  · exact hnone _ ⟨rfl, rfl⟩
  · exact hnone _ ⟨rfl, rfl⟩

theorem emptied_event {env : Env} {s s' : Session} {e : Event} (hs : Emptied s)
    (h : Stepped env s e s') (he : ∀ store, e ≠ .elsewhere store) (hr : receives e = false) :
    Emptied s' := by
  have hkept := h.kept he hr
  have hstream : s'.m_receive_file_stream = _ := congrArg Files.stream hkept
  refine ⟨(congrArg Files.buffer hkept).trans hs.buffer, fun f hf => ?_⟩
  rw [hstream] at hf
  cases hu : s.uploader e with
  | none =>
    rw [keptAfter, hu] at hf
    exact hs.stream f hf
  | some u =>
    rw [keptAfter, hu] at hf
    obtain rfl := Option.some.inj hf
    rfl

theorem drained_event {sv sv' : Server} {e : ServerEvent} (hd : Drained sv)
    (he : isReceive e = false) (h : sv.step e = some sv') : Drained sv' := by
  constructor
  · rw [Server.table_of_step h]
    exact generated_applied hd.generated _
  · cases Server.step_served h with
    | connected lap available =>
      intro s hs
      rcases List.mem_append.mp hs with hs | hs
      · exact hd.emptied s hs
      · rw [List.mem_singleton.mp hs]
        exact emptied_begun ..
    | session k env e s s' hk hne hs =>
      exact hd.put k (emptied_event (hd.session hk) (step_stepped hs).2 hne he)

theorem drained_upload {sv : Server} {u : Upload} {s : Session} (hd : Drained sv)
    (hk : sv.session u.k = some s) (hopens : (u.begins s).receiveOpens u.env = true) :
    Drained (sv.put u.k (u.ends s)) := by
  have h := received_upload (hd.session hk) hopens
  refine ⟨?_, hd.put u.k h.emptied⟩
  have htarget : Generated ((u.begins s).receiveTarget u.env).store.table := by
    rw [store_receiveTarget]
    have hstore : (u.begins s).m_fs_objects_table = sv.m_fs_objects_table :=
      (rfl : _ = s.m_fs_objects_table).trans (Server.store_of_session hk)
    exact generated_applied (hstore ▸ hd.generated) _
  have hu := generated_apply htarget (.update_object_size u.now s.m_userid (get_basename u.file)
    (get_parent_path u.file) (((u.begins s).receiveTarget u.env).size + u.content.length))
  exact h.table.symm ▸ hu

/-- In a run of a server from an empty table, the size of every uploaded object is the length
of its blob after the upload, if and only if every upload starts at zero: it makes a new object,
or writes one whose recorded size is 0. -/
theorem sizes_are_recorded_iff_uploads_start_at_zero (session_class : SessionClass)
    (users : users.Table) (actions : List Action) :
    runs.Along step RecordsSize (Server.init session_class users) actions ↔
      runs.Along step UploadsAtZero (Server.init session_class users) actions := by
  refine runs.along_iff_of_invariant (J := Drained) ?_ ?_ ⟨generated_empty, ?_⟩
  · intro sv a sv' hd h
    cases a with
    | event e => exact Iff.rfl
    | upload u =>
      simp only [step, Option.bind_eq_some_iff, Option.ite_none_right_eq_some,
        Option.some.injEq] at h
      obtain ⟨s, hk, ⟨-, hopens⟩, rfl⟩ := h
      have hstore := Server.store_of_session hk
      have hiff := recorded_upload_iff (hstore ▸ hd.generated) (hd.session hk) hopens
      rw [hstore] at hiff
      simp only [RecordsSize, UploadsAtZero, hk, Option.mem_def, Option.some.injEq, forall_eq']
      exact hiff
  · intro sv a sv' hd h _
    cases a with
    | event e =>
      simp only [step, Option.ite_none_left_eq_some] at h
      exact drained_event hd (by simpa using h.1) h.2
    | upload u =>
      simp only [step, Option.bind_eq_some_iff, Option.ite_none_right_eq_some,
        Option.some.injEq] at h
      obtain ⟨s, hk, ⟨-, hopens⟩, rfl⟩ := h
      exact drained_upload hd hk hopens
  · intro s hs
    cases hs

/-- The second upload of a file adds the size of the first, and the blob holds one byte. -/
theorem the_second_upload_of_a_file_is_counted_twice : ¬ runs.Along step RecordsSize
    (Server.init .session users.Table.annAndBob)
    [.event (.connected 0 0),
      .event (.session 0 (clientLine "USER ann").1 (clientLine "USER ann").2),
      .event (.session 0 (clientLine "PASS pw1").1 (clientLine "PASS pw1").2),
      .upload ⟨0, .ofRand 3, lit "2024-05-01 10:00:00", lit "/a", [], lit "x",
        (Env.working 0).keeps⟩,
      .upload ⟨0, .ofRand 4, lit "2024-05-01 10:00:01", lit "/a", [], lit "y",
        (Env.working 0).keeps⟩] := by
  decide

end asio_ftp.uploads
