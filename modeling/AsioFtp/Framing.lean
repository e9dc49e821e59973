-- The laws of the framing: a session takes every read for one line, so it hears the lines of
-- its client only when each of them comes in a read of its own.
import AsioFtp.Events

namespace asio_ftp.framing

open helpers base_session

/-! ## The parse of one read -/

/-- The text that a read of more than two bytes is parsed for. -/
def textOf (received : Bytes) : Bytes := received.take (received.length - 2)

theorem length_textOf (received : Bytes) : (textOf received).length = received.length - 2 := by
  simp [textOf]

theorem textOf_append (text : Bytes) (a b : UInt8) : textOf (text ++ [a, b]) = text := by
  simp [textOf]

theorem textOf_line (line : Bytes) : textOf (line ++ crlf) = line := textOf_append line CR LF

/-- The parse of a text is its first word, in upper case, and what follows the first space. -/
theorem parse_text (received : Bytes) (h : 2 < received.length) : ∃ word argument,
    space ∉ word ∧
    handle_control_receive_callback .success received = (string_to_uppercase word, argument) ∧
    (textOf received = word ∧ argument = [] ∨ textOf received = word ++ space :: argument) := by
  have hne : textOf received ≠ [] := by
    rw [← List.length_pos_iff, length_textOf]
    omega
  have hw : string_split (textOf received) [space] = (textOf received).splitOn space := by
    rw [string_split_byte, if_neg hne]
  have hp : handle_control_receive_callback .success received =
      (string_to_uppercase ((string_split (textOf received) [space]).headD []),
        string_join (string_split (textOf received) [space]).tail [space]) := by
    unfold handle_control_receive_callback
    rw [if_neg (by simp), if_neg (by omega)]
    rfl
  rw [hp, hw, string_join_eq]
  by_cases hs : space ∈ textOf received
  · obtain ⟨word, argument, ht, hnot⟩ := List.eq_append_cons_of_mem hs
    refine ⟨word, argument, hnot, ?_, Or.inr ht⟩
    rw [ht, List.splitOn_append_cons_self_of_not_mem hnot, List.tail_cons,
      List.intercalate_splitOn]
    rfl
  · refine ⟨textOf received, [], hs, ?_, Or.inl ⟨rfl, rfl⟩⟩
    rw [List.splitOn_eq_singleton hs]
    rfl

theorem length_string_to_uppercase (s : Bytes) : (string_to_uppercase s).length = s.length := by
  simp [string_to_uppercase]

/-- A read that parses like a line is at most one byte longer than the line, and if it is longer
its text ends in a space and the line has none. -/
theorem length_of_same_parse {received line : Bytes} (hline : line ≠ [])
    (h : handle_control_receive_callback .success received =
      handle_control_receive_callback .success (line ++ crlf)) :
    received.length ≤ (line ++ crlf).length + 1 ∧
      (received.length = (line ++ crlf).length + 1 →
        space ∉ line ∧ ∃ text, textOf received = text ++ [space]) := by
  have hlen : (line ++ crlf).length = line.length + 2 := by simp [crlf]
  have hpos := List.length_pos_iff.mpr hline
  obtain ⟨w', a', hw', hp', ht'⟩ := parse_text (line ++ crlf) (by omega)
  rw [textOf_line] at ht'
  by_cases hshort : received.length ≤ 2
  · exact ⟨by omega, fun hl => by omega⟩
  obtain ⟨w, a, hw, hp, ht⟩ := parse_text received (by omega)
  rw [hp, hp', Prod.mk.injEq] at h
  have hww : w.length = w'.length := by
    have hu := congrArg List.length h.1
    rwa [length_string_to_uppercase, length_string_to_uppercase] at hu
  have haa : a = a' := h.2
  have htl := length_textOf received
  rcases ht with ⟨ht, ha⟩ | ht
  · have hle : received.length ≤ (line ++ crlf).length := by
      rw [ht] at htl
      have hl : w'.length ≤ line.length := by
        rcases ht' with ⟨ht', -⟩ | ht' <;> simp [ht']
      omega
    exact ⟨by omega, fun hl => by omega⟩
  · have hl : received.length = w.length + a.length + 3 := by
      rw [ht, List.length_append, List.length_cons] at htl
      omega
    rcases ht' with ⟨ht', ha'⟩ | ht'
    · subst haa ha'
      rw [ht'] at hlen ⊢
      simp only [List.length_nil] at hl
      exact ⟨by omega, fun _ => ⟨hw', w, ht⟩⟩
    · have hl' : line.length = w'.length + a'.length + 1 := by
        rw [ht', List.length_append, List.length_cons]
        omega
      subst haa
      exact ⟨by omega, fun hl => by omega⟩

/-- ASCII upper case, of the characters. -/
def asciiUpper (c : UInt8) : UInt8 :=
  if c < 128 then (Char.ofNat c.toNat).toUpper.toNat.toUInt8 else c

theorem upperByte_eq (c : UInt8) : upperByte c = asciiUpper c := by
  have hall : ∀ n : Fin 256, upperByte (UInt8.ofNat n) = asciiUpper (UInt8.ofNat n) := by
    decide +kernel
  have hc := hall ⟨c.toNat, c.toNat_lt⟩
  rwa [UInt8.ofNat_toNat] at hc

/-- A text with no byte after its first word, and a text cut at its first space. -/
theorem cut_at_first_space {word : Bytes} (h : space ∉ word) (argument : Bytes) :
    word.takeWhile (· ≠ space) = word ∧ word.dropWhile (· ≠ space) = [] ∧
      (word ++ space :: argument).takeWhile (· ≠ space) = word ∧
      (word ++ space :: argument).dropWhile (· ≠ space) = space :: argument := by
  have hall : ∀ c ∈ word, decide (c ≠ space) = true := by
    intro c hc
    refine decide_eq_true ?_
    rintro rfl
    exact h hc
  refine ⟨List.takeWhile_eq_self_iff.mpr hall, List.dropWhile_eq_nil_iff.mpr hall, ?_, ?_⟩
  · rw [List.takeWhile_append_of_pos hall]
    simp
  · rw [List.dropWhile_append_of_pos hall]
    simp

/-- For every line, the split of the line has a piece for the command to be read from. The command
is what stands before the first space, in upper case, and the argument is what stands after it,
whatever spaces it has. -/
theorem the_parse_of_a_line_is_exact (s : Bytes) (h : 2 < (s ++ crlf).length) :
    string_split (textOf (s ++ crlf)) (lit " ") ≠ [] ∧
      parse_buffer (s ++ crlf) = ((s.takeWhile (· ≠ space)).map asciiUpper,
        (s.dropWhile (· ≠ space)).tail) := by
  have hs : s ≠ [] := by
    rintro rfl
    exact absurd h (by decide)
  have hcallback :
      handle_control_receive_callback .success (s ++ crlf) = parse_buffer (s ++ crlf) := by
    rw [handle_control_receive_callback, if_neg (not_not.mpr rfl), if_neg (by omega)]
  have hupper : ∀ word, string_to_uppercase word = word.map asciiUpper :=
    fun word => List.map_congr_left (fun c _ => upperByte_eq c)
  obtain ⟨word, argument, hword, hparse, ht⟩ := parse_text (s ++ crlf) h
  obtain ⟨htake, hdrop, htake', hdrop'⟩ := cut_at_first_space hword argument
  rw [textOf_line] at ht ⊢
  rw [← hcallback, hparse, hupper]
  constructor
  · have hd : lit " " = [space] := rfl
    rw [hd, string_split_byte, if_neg hs]
    exact List.splitOn_ne_nil space s
  · rcases ht with ⟨rfl, rfl⟩ | rfl
    · rw [htake, hdrop]
      rfl
    · rw [htake', hdrop']
      rfl

/-- The law at a line with spaces before, in and after the argument. -/
theorem the_parse_of_a_line_with_many_spaces :
    parse_buffer (lit "stor  a b " ++ crlf) = (lit "STOR", lit " a b ") :=
  (the_parse_of_a_line_is_exact (lit "stor  a b ") (by decide)).2

/-! ## The stream of the lines -/

/-- The bytes that a client sends for its lines. -/
def stream (lines : List Bytes) : Bytes := (lines.map (· ++ crlf)).flatten

theorem stream_cons (line : Bytes) (lines : List Bytes) :
    stream (line :: lines) = (line ++ crlf) ++ stream lines := by
  simp [stream]

/-- Reads that fell behind the lines stay behind: `behind` is what the lines are ahead. -/
theorem reads_stay_behind (lines : List Bytes) (hlines : ∀ line ∈ lines, line ≠ [])
    (reads : List Bytes) (behind : Bytes) (hb : behind ≠ [])
    (hs : reads.flatten = behind ++ stream lines)
    (h : reads.map (handle_control_receive_callback .success) =
      lines.map (fun line => handle_control_receive_callback .success (line ++ crlf))) : False := by
  induction lines generalizing reads behind with
  | nil =>
    obtain rfl := List.map_eq_nil_iff.mp h
    simp [stream, hb] at hs
  | cons line lines ih =>
    obtain ⟨received, reads, rfl, hp, hrest⟩ := List.map_eq_cons_iff.mp h
    have hline : line ≠ [] := hlines line (by simp)
    obtain ⟨hle, hlong⟩ := length_of_same_parse hline hp
    have hs : received ++ reads.flatten = (behind ++ (line ++ crlf)) ++ stream lines := by
      rw [List.flatten_cons, stream_cons] at hs
      rw [hs, List.append_assoc behind]
    have hbpos := List.length_pos_iff.mpr hb
    have hlt : received.length ≠ (behind ++ (line ++ crlf)).length := by
      intro he
      obtain ⟨rfl, -⟩ := List.append_inj hs he
      obtain ⟨hno, text, ht⟩ := hlong (by rw [List.length_append] at *; omega)
      rw [← List.append_assoc, textOf_line] at ht
      -- The last byte of the line would be the space.
      have hlast := congrArg List.getLast? ht
      rw [List.getLast?_append_of_ne_nil _ hline, List.getLast?_concat] at hlast
      exact hno (List.mem_of_getLast? hlast)
    rcases List.append_eq_append_iff.mp hs with ⟨behind', hpre, hflat⟩ | ⟨extra, hpre, -⟩
    · refine ih (fun l hl => hlines l (by simp [hl])) reads behind' ?_ hflat hrest
      rintro rfl
      exact hlt (by rw [hpre, List.append_nil])
    · have hlen := congrArg List.length hpre
      rw [List.length_append, List.length_append] at hlen
      rw [List.length_append] at hlt
      omega

/-- The reads that parse like the lines are the lines. -/
theorem reads_are_the_lines (lines : List Bytes) (hlines : ∀ line ∈ lines, line ≠ [])
    (reads : List Bytes) (hs : reads.flatten = stream lines)
    (h : reads.map (handle_control_receive_callback .success) =
      lines.map (fun line => handle_control_receive_callback .success (line ++ crlf))) :
    reads = lines.map (· ++ crlf) := by
  induction lines generalizing reads with
  | nil => exact List.map_eq_nil_iff.mp h
  | cons line lines ih =>
    have hrestlines : ∀ l ∈ lines, l ≠ [] := fun l hl => hlines l (by simp [hl])
    obtain ⟨received, reads, rfl, hp, hrest⟩ := List.map_eq_cons_iff.mp h
    obtain ⟨hle, hlong⟩ := length_of_same_parse (hlines line (by simp)) hp
    rw [List.flatten_cons, stream_cons] at hs
    rcases List.append_eq_append_iff.mp hs with ⟨behind, hpre, hflat⟩ | ⟨extra, hpre, hflat⟩
    · by_cases hb : behind = []
      · subst hb
        rw [List.append_nil] at hpre
        rw [List.map_cons, ← hpre, ih hrestlines reads hflat hrest]
      · exact absurd (reads_stay_behind lines hrestlines reads behind hb hflat hrest) id
    · cases extra with
      | nil =>
        rw [List.append_nil] at hpre
        rw [List.map_cons, hpre, ih hrestlines reads hflat.symm hrest]
      | cons byte extra =>
        -- One byte too many: the text of the read ends in the CR of the line.
        have hlen := congrArg List.length hpre
        rw [List.length_append, List.length_cons] at hlen
        obtain ⟨-, text, ht⟩ := hlong (by omega)
        obtain rfl : extra = [] := List.eq_nil_of_length_eq_zero (by omega)
        have hsplit : received = (line ++ [CR]) ++ [LF, byte] := by
          rw [hpre, crlf]
          simp
        have htext : textOf received = line ++ [CR] := by
          rw [hsplit, textOf_append]
        rw [htext] at ht
        have hlast := congrArg List.getLast? ht
        rw [List.getLast?_concat, List.getLast?_concat] at hlast
        exact absurd hlast (by decide)

/-! ## The deliveries -/

/-- The lines of a client, and the reads that bring their bytes to the session. -/
structure Delivery where
  lines : List Bytes
  reads : List Bytes
  line_ok : ∀ line ∈ lines, line ≠ [] ∧ ¬ crlf <:+: line ∧ line.length ≤ 510
  read_ok : ∀ received ∈ reads, received ≠ [] ∧ received.length ≤ MESSAGE_BUFFER_SIZE
  delivers : reads.flatten = stream lines

/-- What the session hands to `handle_command`, one pair for each read. -/
def Delivery.handed (d : Delivery) : List (Bytes × Bytes) :=
  d.reads.map (handle_control_receive_callback .success)

/-- What each line is on its own. -/
def Delivery.meant (d : Delivery) : List (Bytes × Bytes) :=
  d.lines.map (fun line => handle_control_receive_callback .success (line ++ crlf))

/-- A pair comes to `handle_command` from a read of the control connection that was started. -/
def hand (s : Session) : Env × Bytes × Bytes → Option Session
  | (env, FTP_command, FTP_argument) =>
    if s.crashed = true ∨ s.control_reads = 0 then none
    else some ({ s with control_reads := s.control_reads - 1 }.handle_command env FTP_command
      FTP_argument)

theorem step_read {s : Session} {env : Env} {received : Bytes}
    (h : Readable .success received) : s.step (env, .control_received .success received) =
      hand s (env, handle_control_receive_callback .success received) := by
  unfold Session.step hand
  cases hc : s.crashed
  · simp [h]
  · simp

/-- A session that takes the reads of a delivery, each with a read that is started, is one that is
handed its pairs in order. -/
theorem run_reads (d : Delivery) (envs : List Env) (s : Session) :
    runs.run Session.step s
        ((envs.zip d.reads).map fun r => (r.1, .control_received .success r.2)) =
      runs.run hand s (envs.zip d.handed) := by
  have hread := d.read_ok
  unfold Delivery.handed
  generalize d.reads = reads at hread ⊢
  induction reads generalizing envs s with
  | nil => simp [runs.run]
  | cons received reads ih =>
    cases envs with
    | nil => rfl
    | cons env envs =>
      have hfirst : Readable .success received := fun _ => hread received List.mem_cons_self
      simp only [List.map_cons, List.zip_cons_cons, runs.run, step_read hfirst]
      refine congrArg _ (funext fun s' => ?_)
      exact ih envs s' fun r hr => hread r (List.mem_cons_of_mem _ hr)

/-- The session hears the lines exactly when every read is one whole line: the reads are taken
for lines, and nothing of a read is kept for the next. -/
theorem the_lines_are_heard_iff_each_comes_in_its_own_read (d : Delivery) :
    d.handed = d.meant ↔ d.reads = d.lines.map (· ++ crlf) := by
  constructor
  · exact reads_are_the_lines d.lines (fun line hl => (d.line_ok line hl).1) d.reads d.delivers
  · intro h
    simp [Delivery.handed, Delivery.meant, h]

/-- A line that comes in two reads is taken for two commands. -/
theorem a_line_in_two_reads_is_two_commands : ¬ ∀ d : Delivery, d.handed = d.meant := by
  intro h
  have hd := h ⟨[lit "USER ann"], [lit "USER", lit " ann" ++ crlf], by decide, by decide,
    by decide⟩
  exact absurd hd (by decide)

end asio_ftp.framing
