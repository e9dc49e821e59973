-- The laws of a listing: a client cuts its text into lines, and reads each line back field by
-- field. The month is the one field that the code writes in its own way.
import AsioFtp.Listing
import AsioFtp.Lib.Cuts

namespace asio_ftp.decoding

open fs_objects listing cuts

/-! ## The grammar of a line -/

def isDigit (c : UInt8) : Bool := 48 ≤ c && c ≤ 57

/-- A row of `n` decimal digits. -/
def Digits (n : Nat) (b : Bytes) : Prop := b.length = n ∧ ∀ c ∈ b, isDigit c = true

instance (n : Nat) (b : Bytes) : Decidable (Digits n b) :=
  @instDecidableAnd _ _ _ (List.decidableBAll (fun c => isDigit c = true) b)

/-- The three letters of each English month. -/
def MONTHS : List Bytes :=
  [lit "Jan", lit "Feb", lit "Mar", lit "Apr", lit "May", lit "Jun", lit "Jul", lit "Aug",
    lit "Sep", lit "Oct", lit "Nov", lit "Dec"]

/-- The number of a month, from 1. -/
def monthOf (token : Bytes) : Option Nat := (MONTHS.idxOf? token).map (· + 1)

/-- The time of a line: "HH:MM". -/
def IsTime (b : Bytes) : Prop := Digits 2 (b.take 2) ∧ b[2]? = some 58 ∧ Digits 2 (b.drop 3)

instance (b : Bytes) : Decidable (IsTime b) := inferInstanceAs (Decidable (_ ∧ _))

/-- What a line tells about its object. -/
structure Entry where
  is_directory : Bool
  size : Bytes
  month : Nat
  day : Bytes
  time : Bytes
  name : Bytes
  deriving DecidableEq

/-- The text up to the first space, and what stands after it. -/
def field (text : Bytes) : Option (Bytes × Bytes) :=
  if space ∈ text then some (text.takeWhile (· ≠ space), (text.dropWhile (· ≠ space)).tail)
  else none

/-- The first fields of a text, and the rest of it. -/
def fields : Nat → Bytes → Option (List Bytes × Bytes)
  | 0, text => some ([], text)
  | n + 1, text =>
    match field text with
    | none => none
    | some (first, text) => (fields n text).map (fun rest => (first :: rest.1, rest.2))

/-- The mode of a line. -/
def kindOf (mode : Bytes) : Option Bool :=
  if mode = lit "drwxrwxrwx" then some true
  else if mode = lit "-rwxrwxrwx" then some false
  else none

/-- `<d or ->rwxrwxrwx 1 <owner> <owner> <size> <Mon> <DD> <HH:MM> <name>`. The name is all that
stands after the eighth space. -/
def parseLine (text : Bytes) : Option Entry :=
  match fields 8 text with
  | some ([mode, links, owner, group, size, token, day, time], name) =>
    match kindOf mode, monthOf token with
    | some is_directory, some month =>
      if links = lit "1" ∧ owner = group ∧ size ≠ [] ∧ size.all isDigit ∧
          Digits 2 day ∧ IsTime time then
        some { is_directory, size, month, day, time, name }
      else none
    | _, _ => none
  | _ => none

theorem field_append {first : Bytes} (h : space ∉ first) (text : Bytes) :
    field (first ++ space :: text) = some (first, text) := by
  have hall : ∀ c ∈ first, decide (c ≠ space) = true := by
    intro c hc
    refine decide_eq_true ?_
    rintro rfl
    exact h hc
  rw [field, if_pos (by simp), List.takeWhile_append_of_pos hall,
    List.dropWhile_append_of_pos hall]
  simp

/-- Fields with no space read back, whatever the rest of the text is. -/
theorem fields_append {words : List Bytes} (h : ∀ w ∈ words, space ∉ w) (text : Bytes) :
    fields words.length (words.flatMap (· ++ [space]) ++ text) = some (words, text) := by
  induction words with
  | nil => rfl
  | cons w words ih =>
    have hw := field_append (h w List.mem_cons_self) (words.flatMap (· ++ [space]) ++ text)
    rw [List.flatMap_cons, List.append_assoc, List.append_assoc, List.singleton_append,
      List.length_cons, fields, hw]
    simp only
    rw [ih (fun x hx => h x (List.mem_cons_of_mem _ hx))]
    rfl

/-! ## The timestamps -/

/-- A modification time "YYYY-MM-DD HH:MM:SS", with a month from 01 to 12. -/
structure Timestamp where
  year : Bytes
  month : Bytes
  day : Bytes
  hour : Bytes
  minute : Bytes
  second : Bytes
  year_ok : Digits 4 year
  month_ok : Digits 2 month
  day_ok : Digits 2 day
  hour_ok : Digits 2 hour
  minute_ok : Digits 2 minute
  second_ok : Digits 2 second
  month_range : 1 ≤ digitsValue month ∧ digitsValue month ≤ 12

/-- The text of a timestamp, as SQLite writes CURRENT_TIMESTAMP. -/
def Timestamp.text (t : Timestamp) : Bytes :=
  t.year ++ [45] ++ t.month ++ [45] ++ t.day ++ [space] ++ t.hour ++ [58] ++ t.minute ++ [58] ++
    t.second

/-- The token that the code writes for a month. -/
def tokenOf (m : Nat) : Bytes := if m = 7 then lit "July" else MONTHS.getD (m - 1) []

theorem monthOf_tokenOf {m : Nat} (h1 : 1 ≤ m) (h12 : m ≤ 12) :
    monthOf (tokenOf m) = if m = 7 then none else some m := by
  have hall : ∀ k : Fin 13, 1 ≤ k.val →
      monthOf (tokenOf k) = if k.val = 7 then none else some k.val := by decide
  exact hall ⟨m, by omega⟩ h1

/-- The months of two digits, in the switch of the code. -/
theorem month_digits : ∀ i j : Fin 10, 1 ≤ 10 * i.val + j.val → 10 * i.val + j.val ≤ 12 →
    month (48 + i.val).toUInt8 (48 + j.val).toUInt8 = tokenOf (10 * i.val + j.val) ++ [space] := by
  decide

theorem exists_digit {c : UInt8} (h : isDigit c = true) :
    ∃ i : Fin 10, c = (48 + i.val).toUInt8 := by
  have hc : 48 ≤ c.toNat ∧ c.toNat ≤ 57 := by
    simpa [isDigit, UInt8.le_iff_toNat_le] using h
  refine ⟨⟨c.toNat - 48, by omega⟩, ?_⟩
  rw [← UInt8.toNat_inj, Nat.toUInt8, UInt8.toNat_ofNat']
  simp only
  omega

/-- The two bytes of a row of two digits. -/
theorem exists_digits_two {b : Bytes} (h : Digits 2 b) : ∃ i j : Fin 10,
    b = [(48 + i.val).toUInt8, (48 + j.val).toUInt8] ∧ digitsValue b = 10 * i.val + j.val := by
  obtain ⟨x, y, rfl⟩ := List.length_eq_two.mp h.1
  obtain ⟨i, rfl⟩ := exists_digit (h.2 x (by simp))
  obtain ⟨j, rfl⟩ := exists_digit (h.2 y (by simp))
  have hvalue : ∀ i j : Fin 10,
      digitsValue [(48 + i.val).toUInt8, (48 + j.val).toUInt8] = 10 * i.val + j.val := by decide
  exact ⟨i, j, rfl, hvalue i j⟩

/-- What the code makes of a timestamp. -/
theorem parse_metadata_time_text (t : Timestamp) :
    parse_metadata_time t.text = tokenOf (digitsValue t.month) ++ [space] ++ (t.day ++ [space]) ++
      (t.hour ++ [58] ++ t.minute) := by
  obtain ⟨year, mon, day, hour, minute, second, hy, hmo, hd, hh, hmi, hs, hrange⟩ := t
  obtain ⟨y₁, y₂, y₃, y₄, rfl⟩ := List.length_eq_four.mp hy.1
  obtain ⟨i, j, rfl, hvalue⟩ := exists_digits_two hmo
  obtain ⟨d₁, d₂, rfl⟩ := List.length_eq_two.mp hd.1
  obtain ⟨h₁, h₂, rfl⟩ := List.length_eq_two.mp hh.1
  obtain ⟨m₁, m₂, rfl⟩ := List.length_eq_two.mp hmi.1
  obtain ⟨s₁, s₂, rfl⟩ := List.length_eq_two.mp hs.1
  rw [hvalue] at hrange
  have hmonth := month_digits i j hrange.1 hrange.2
  rw [hvalue, ← hmonth]
  rfl

/-! ## The lines of a listing -/

/-- An object with a decimal size, a timestamp, and a name without CR and LF. -/
structure Listable (object : fs_object) : Prop where
  size_ne_nil : object.size ≠ []
  size_digits : ∀ c ∈ object.size, isDigit c = true
  timestamp : ∃ t : Timestamp, object.modified_time = t.text
  no_CR : CR ∉ object.name
  no_LF : LF ∉ object.name

/-- The number of the month of an object. -/
def monthNumber (object : fs_object) : Nat := digitsValue ((object.modified_time.drop 5).take 2)

/-- What a client should read of an object. -/
def entryOf (object : fs_object) : Entry where
  is_directory := object.is_directory
  size := object.size
  month := monthNumber object
  day := (object.modified_time.drop 8).take 2
  time := (object.modified_time.drop 11).take 5
  name := object.name

/-- The line of an object, without its CR LF. -/
def content (owner : Bytes) (object : fs_object) : Bytes :=
  (if object.is_directory then lit "drwxrwxrwx 1 " else lit "-rwxrwxrwx 1 ") ++
    (owner ++ lit " " ++ owner ++ lit " ") ++ (object.size ++ lit " ") ++
    (parse_metadata_time object.modified_time ++ lit " ") ++ object.name

theorem line_eq (owner : Bytes) (object : fs_object) :
    line owner object = content owner object ++ crlf := by
  simp only [line, content, List.append_assoc]

/-- The lines of the two special entries. -/
def dots (owner : Bytes) : List Bytes :=
  [lit "drwxrwxrwx 1 " ++ owner ++ lit " " ++ owner ++ lit " 0 Jan 1 00:00 .",
    lit "drwxrwxrwx 1 " ++ owner ++ lit " " ++ owner ++ lit " 0 Jan 1 00:00 .."]

/-- The lines before those of the objects. -/
def head (owner : Bytes) (include_special_entries : Bool) : List Bytes :=
  if include_special_entries then dots owner else []

/-- The text of a listing ends each of its lines with CR LF. -/
theorem create_directory_list_eq (objects : List fs_object) (owner : Bytes) (special : Bool) :
    create_directory_list objects owner special =
      (head owner special ++ objects.map (content owner)).flatMap (· ++ crlf) := by
  have hfold : ∀ start : Bytes,
      objects.foldl (fun text object => text ++ line owner object) start =
        start ++ (objects.map (content owner)).flatMap (· ++ crlf) := by
    induction objects with
    | nil => simp
    | cons object objects ih =>
      intro start
      rw [List.foldl_cons, ih, line_eq, List.map_cons, List.flatMap_cons, List.append_assoc]
  have hhead : (if special then specialEntries owner else []) =
      (head owner special).flatMap (· ++ crlf) := by
    cases special
    · rfl
    · simp [head, dots, specialEntries]
  rw [create_directory_list, hfold, hhead, List.flatMap_append]

/-- What a line has in its fields. -/
def words (owner : Bytes) (object : fs_object) (t : Timestamp) : List Bytes :=
  [if object.is_directory then lit "drwxrwxrwx" else lit "-rwxrwxrwx", lit "1", owner, owner,
    object.size, tokenOf (digitsValue t.month), t.day, t.hour ++ [58] ++ t.minute]

theorem content_eq (owner : Bytes) {object : fs_object} {t : Timestamp}
    (h : object.modified_time = t.text) :
    content owner object = (words owner object t).flatMap (· ++ [space]) ++ object.name := by
  have hmode : (if object.is_directory then lit "drwxrwxrwx 1 " else lit "-rwxrwxrwx 1 ") =
      (if object.is_directory then lit "drwxrwxrwx" else lit "-rwxrwxrwx") ++ [space] ++
        (lit "1" ++ [space]) := by
    cases object.is_directory <;> rfl
  have hspace : lit " " = [space] := rfl
  rw [content, h, parse_metadata_time_text, hmode, hspace]
  simp only [words, List.flatMap_cons, List.flatMap_nil, List.append_assoc, List.append_nil]

theorem notMem_of_digits {b : Bytes} (h : ∀ c ∈ b, isDigit c = true) {x : UInt8}
    (hx : isDigit x = false) : x ∉ b := by
  intro hmem
  exact absurd ((h x hmem).symm.trans hx) (by decide)

/-- No field of a line has a byte that is no digit, letter or mark of the line. -/
theorem notMem_words {owner : Bytes} {object : fs_object} (ho : Listable object) (t : Timestamp)
    {x : UInt8} (hx : x ∈ [space, CR, LF]) (hown : x ∉ owner) :
    ∀ w ∈ words owner object t, x ∉ w := by
  have hcases : x = space ∨ x = CR ∨ x = LF := by simpa using hx
  have hdigit : isDigit x = false := by
    rcases hcases with rfl | rfl | rfl <;> rfl
  have htoken : x ∉ tokenOf (digitsValue t.month) := by
    have hall : ∀ m : Fin 13, space ∉ tokenOf m ∧ CR ∉ tokenOf m ∧ LF ∉ tokenOf m := by decide
    obtain ⟨hspace, hCR, hLF⟩ :=
      hall ⟨digitsValue t.month, by have := t.month_range.2; omega⟩
    rcases hcases with rfl | rfl | rfl
    · exact hspace
    · exact hCR
    · exact hLF
  have htime : x ∉ t.hour ++ [58] ++ t.minute := by
    have hcolon : x ≠ 58 := by
      rcases hcases with rfl | rfl | rfl <;> decide
    simp only [List.mem_append, List.mem_singleton, not_or]
    exact ⟨⟨notMem_of_digits t.hour_ok.2 hdigit, hcolon⟩, notMem_of_digits t.minute_ok.2 hdigit⟩
  have hmode : x ∉ (if object.is_directory then lit "drwxrwxrwx" else lit "-rwxrwxrwx") ∧
      x ∉ lit "1" := by
    cases object.is_directory <;> rcases hcases with rfl | rfl | rfl <;> decide
  simp only [words, List.forall_mem_cons, List.not_mem_nil, false_implies, implies_true, and_true]
  exact ⟨hmode.1, hmode.2, hown, hown, notMem_of_digits ho.size_digits hdigit, htoken,
    notMem_of_digits t.day_ok.2 hdigit, htime⟩

/-- The fields of the timestamp of an object. -/
theorem entryOf_eq {object : fs_object} {t : Timestamp} (h : object.modified_time = t.text) :
    monthNumber object = digitsValue t.month ∧ entryOf object =
      { is_directory := object.is_directory, size := object.size, month := digitsValue t.month,
        day := t.day, time := t.hour ++ [58] ++ t.minute, name := object.name } := by
  obtain ⟨year, mon, day, hour, minute, second, hy, hmo, hd, hh, hmi, hs, hrange⟩ := t
  obtain ⟨y₁, y₂, y₃, y₄, rfl⟩ := List.length_eq_four.mp hy.1
  obtain ⟨o₁, o₂, rfl⟩ := List.length_eq_two.mp hmo.1
  obtain ⟨d₁, d₂, rfl⟩ := List.length_eq_two.mp hd.1
  obtain ⟨h₁, h₂, rfl⟩ := List.length_eq_two.mp hh.1
  obtain ⟨m₁, m₂, rfl⟩ := List.length_eq_two.mp hmi.1
  obtain ⟨s₁, s₂, rfl⟩ := List.length_eq_two.mp hs.1
  unfold entryOf monthNumber
  rw [h]
  exact ⟨rfl, rfl⟩

theorem isTime_text (t : Timestamp) : IsTime (t.hour ++ [58] ++ t.minute) := by
  have hh := t.hour_ok
  have htake : (t.hour ++ [58] ++ t.minute).take 2 = t.hour := by
    rw [List.append_assoc, List.take_left' hh.1]
  have hdrop : (t.hour ++ [58] ++ t.minute).drop 3 = t.minute := by
    rw [List.drop_left']
    simp [hh.1]
  have hcolon : (t.hour ++ [58] ++ t.minute)[2]? = some 58 := by
    rw [List.append_assoc, List.getElem?_append_right (Nat.le_of_eq hh.1), hh.1]
    rfl
  unfold IsTime
  rw [htake, hdrop]
  exact ⟨hh, hcolon, t.minute_ok⟩

/-- A line reads back, but for the month that is written with four letters. -/
theorem parseLine_content {owner : Bytes} (hown : space ∉ owner) {object : fs_object}
    (ho : Listable object) : parseLine (content owner object) =
      if monthNumber object = 7 then none else some (entryOf object) := by
  obtain ⟨t, ht⟩ := ho.timestamp
  obtain ⟨hmonth, hentry⟩ := entryOf_eq ht
  have hfields : fields 8 (content owner object) = some (words owner object t, object.name) := by
    rw [content_eq owner ht]
    exact fields_append (notMem_words ho t (by decide) hown) object.name
  have hkind : kindOf (if object.is_directory then lit "drwxrwxrwx" else lit "-rwxrwxrwx") =
      some object.is_directory := by
    cases object.is_directory <;> decide
  have htoken := monthOf_tokenOf t.month_range.1 t.month_range.2
  rw [parseLine, hfields, hmonth, hentry]
  by_cases hjuly : digitsValue t.month = 7
  · rw [if_pos hjuly] at htoken ⊢
    simp only [words, hkind, htoken]
  · rw [if_neg hjuly] at htoken ⊢
    simp only [words, hkind, htoken]
    have hsize : object.size.all isDigit = true := List.all_eq_true.mpr ho.size_digits
    rw [if_pos ⟨trivial, trivial, ho.size_ne_nil, hsize, t.day_ok, isTime_text t⟩]

/-! ## The law -/

/-- The text of a listing is made of lines, each with no CR and no LF of its own and with CR LF
after it: the special lines, and one line for each object, from which the object reads back. -/
structure Decoded (objects : List fs_object) (owner : Bytes) (special : Bool)
    (lines : List Bytes) : Prop where
  cut : Cut crlf (create_directory_list objects owner special)
    (head owner special ++ lines ++ [[]])
  clean : ∀ text ∈ head owner special ++ lines, CR ∉ text ∧ LF ∉ text
  entries : lines.map parseLine = objects.map (fun object => some (entryOf object))

/-- The text of a listing decodes. -/
def Decodes (objects : List fs_object) (owner : Bytes) (special : Bool) : Prop :=
  ∃ lines, Decoded objects owner special lines

section
variable {objects : List fs_object} {owner : Bytes} (special : Bool)
  (ho : ∀ object ∈ objects, Listable object) (hCR : CR ∉ owner) (hLF : LF ∉ owner)
include ho

/-- A line has no CR and no LF, unless the owner has. -/
theorem notMem_lines {x : UInt8} (hx : x = CR ∨ x = LF) (hown : x ∉ owner) :
    ∀ text ∈ head owner special ++ objects.map (content owner), x ∉ text := by
  intro text htext
  have hmarks : x ∉ lit "drwxrwxrwx 1 " ∧ x ∉ lit " " ∧ x ∉ lit " 0 Jan 1 00:00 ." ∧
      x ∉ lit " 0 Jan 1 00:00 .." ∧ x ∈ [space, CR, LF] := by
    rcases hx with rfl | rfl <;> decide
  obtain ⟨hmode, hspace, hdot, hdotdot, hmark⟩ := hmarks
  rcases List.mem_append.mp htext with htext | htext
  · have hdots : ∀ text ∈ dots owner, x ∉ text := by
      simp only [dots, List.forall_mem_cons, List.mem_append, not_or, List.not_mem_nil,
        false_implies, implies_true, and_true]
      exact ⟨⟨⟨⟨⟨hmode, hown⟩, hspace⟩, hown⟩, hdot⟩, ⟨⟨⟨hmode, hown⟩, hspace⟩, hown⟩, hdotdot⟩
    cases special
    · cases htext
    · exact hdots text htext
  · obtain ⟨object, hobject, rfl⟩ := List.mem_map.mp htext
    have hl := ho object hobject
    obtain ⟨t, ht⟩ := hl.timestamp
    have hname : x ∉ object.name := by
      rcases hx with rfl | rfl
      · exact hl.no_CR
      · exact hl.no_LF
    rw [content_eq owner ht, List.mem_append, not_or, List.mem_flatMap]
    refine ⟨?_, hname⟩
    rintro ⟨w, hw, hmem⟩
    rcases List.mem_append.mp hmem with hmem | hmem
    · exact notMem_words hl t hmark hown w hw hmem
    · exact hspace hmem

include hCR

/-- The lines of the text are its one cut, whatever the months are. -/
theorem cut_create_directory_list : Cut crlf (create_directory_list objects owner special)
    (head owner special ++ objects.map (content owner) ++ [[]]) := by
  rw [create_directory_list_eq, ← intercalate_snoc_nil]
  refine cut_intercalate [LF] (by simp) (fun text htext => ?_)
  rcases List.mem_append.mp htext with htext | htext
  · exact notMem_lines special ho (Or.inl rfl) hCR text htext
  · rw [List.mem_singleton.mp htext]
    exact List.not_mem_nil

include hLF

/-- For all objects with decimal sizes, timestamps and names without CR and LF, and every owner
without spaces, CR and LF, the listing decodes if and only if no object is of July. -/
theorem a_listing_decodes_iff (hspace : space ∉ owner) :
    Decodes objects owner special ↔ ∀ object ∈ objects, monthNumber object ≠ 7 := by
  have hcut := cut_create_directory_list special ho hCR
  have hparse : (objects.map (content owner)).map parseLine =
      objects.map (fun object => some (entryOf object)) ↔
        ∀ object ∈ objects, monthNumber object ≠ 7 := by
    rw [List.map_map, List.map_inj_left]
    refine forall₂_congr (fun object hobject => ?_)
    rw [Function.comp, parseLine_content hspace (ho object hobject)]
    simp
  rw [← hparse]
  constructor
  · rintro ⟨lines, hlines, -, h⟩
    have heq := hlines.unique hcut
    rw [List.append_cancel_right_eq, List.append_cancel_left_eq] at heq
    rwa [← heq]
  · exact fun h => ⟨_, hcut, fun text htext => ⟨notMem_lines special ho (Or.inl rfl) hCR text htext,
      notMem_lines special ho (Or.inr rfl) hLF text htext⟩, h⟩

end

/-- A file "a b" of August, and the same of July. -/
def fileOf (month : String) : fs_object where
  id := lit "1"
  name := lit "a b"
  path := lit "/"
  size := lit "12"
  modified_time := lit "2025-" ++ lit month ++ lit "-28 05:12:43"

theorem listable_fileOf {month : String} (h : month = "07" ∨ month = "08") :
    Listable (fileOf month) where
  size_ne_nil := by rcases h with rfl | rfl <;> decide
  size_digits := List.all_eq_true.mp (by rcases h with rfl | rfl <;> decide)
  timestamp := by
    have hm : Digits 2 (lit month) ∧
        1 ≤ digitsValue (lit month) ∧ digitsValue (lit month) ≤ 12 := by
      rcases h with rfl | rfl <;> decide
    refine ⟨⟨lit "2025", lit month, lit "28", lit "05", lit "12", lit "43", by decide, hm.1,
      by decide, by decide, by decide, by decide, hm.2⟩, ?_⟩
    rcases h with rfl | rfl <;> rfl
  no_CR := by rcases h with rfl | rfl <;> decide
  no_LF := by rcases h with rfl | rfl <;> decide

/-- The law at a file of August. -/
theorem a_listing_of_August_decodes : Decodes [fileOf "08"] (lit "ann") true :=
  (a_listing_decodes_iff true (fun object hobject => List.mem_singleton.mp hobject ▸
    listable_fileOf (Or.inr rfl)) (by decide) (by decide) (by decide)).mpr (by decide)

/-- The line of a file of July has four letters for its month, so it does not read back. -/
theorem a_listing_of_July_does_not_decode :
    Listable (fileOf "07") ∧ ¬ Decodes [fileOf "07"] (lit "ann") false := by
  have hfile := @listable_fileOf "07" (Or.inl rfl)
  refine ⟨hfile, ?_⟩
  rintro ⟨lines, hlines, -, h⟩
  have heq := hlines.unique (cut_create_directory_list false
    (fun object hobject => List.mem_singleton.mp hobject ▸ hfile) (by decide))
  rw [List.append_cancel_right_eq, List.append_cancel_left_eq] at heq
  rw [heq] at h
  exact absurd h (by decide)

end asio_ftp.decoding
