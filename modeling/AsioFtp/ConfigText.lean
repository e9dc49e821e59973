-- The text of the configuration (src/config/parser.cpp): what the first start writes to
-- `config/config.json`, and how every later start reads the file line by line.
import AsioFtp.Config
import AsioFtp.Lib.Layouts
import AsioFtp.Lib.Runs

namespace asio_ftp.config_text

open helpers main config layouts

/-! ## The tokens of a value -/

def open_brace : UInt8 := 123

def close_brace : UInt8 := 125

def open_bracket : UInt8 := 91

def close_bracket : UInt8 := 93

def comma : UInt8 := 44

def colon : UInt8 := 58

def MARKS : Bytes := [open_brace, close_brace, open_bracket, close_bracket, comma, colon]

mutual

/-- The tokens of the text of a value, with the texts of its keys and of the values that are neither
arrays nor objects. -/
def tokens (scalar : Json → Bytes) : Json → List Bytes
  | .array values => [open_bracket] :: tokensOfValues scalar [] values ++ [[close_bracket]]
  | .object members => [open_brace] :: tokensOfMembers scalar [] members ++ [[close_brace]]
  | value => [scalar value]

def tokensOfValues (scalar : Json → Bytes) (separator : List Bytes) : List Json → List Bytes
  | [] => []
  | value :: values =>
    separator ++ tokens scalar value ++ tokensOfValues scalar [[comma]] values

def tokensOfMembers (scalar : Json → Bytes) (separator : List Bytes) :
    List (Bytes × Json) → List Bytes
  | [] => []
  | (key, value) :: members =>
    separator ++ scalar (.string key) :: [colon] :: tokens scalar value ++
      tokensOfMembers scalar [[comma]] members

end

mutual

/-- The keys and the values in it that are neither arrays nor objects. -/
def scalars : Json → List Json
  | .array values => scalarsOfValues values
  | .object members => scalarsOfMembers members
  | value => [value]

def scalarsOfValues : List Json → List Json
  | [] => []
  | value :: values => scalars value ++ scalarsOfValues values

def scalarsOfMembers : List (Bytes × Json) → List Json
  | [] => []
  | (key, value) :: members => .string key :: scalars value ++ scalarsOfMembers members

end

/-- A token is a mark, or the text of a scalar. -/
def Token (scalar : Json → Bytes) (values : List Json) (token : Bytes) : Prop :=
  (∃ c, token = [c] ∧ c ∈ MARKS) ∨ ∃ x ∈ values, token = scalar x

theorem Token.mono {scalar : Json → Bytes} {l l' : List Json} {token : Bytes}
    (h : Token scalar l token) (hl : l ⊆ l') : Token scalar l' token :=
  h.imp_right fun ⟨x, hx, ht⟩ => ⟨x, hl hx, ht⟩

mutual

theorem token_of_mem (scalar : Json → Bytes) :
    ∀ {v : Json} {t : Bytes}, t ∈ tokens scalar v → Token scalar (scalars v) t
  | .array values, t, h => by
    rcases List.mem_append.mp h with h | h
    · rcases List.mem_cons.mp h with rfl | h
      · exact Or.inl ⟨_, rfl, by decide⟩
      · exact token_of_mem_values scalar (fun _ ht => absurd ht List.not_mem_nil) h
    · exact Or.inl ⟨_, List.mem_singleton.mp h, by decide⟩
  | .object members, t, h => by
    rcases List.mem_append.mp h with h | h
    · rcases List.mem_cons.mp h with rfl | h
      · exact Or.inl ⟨_, rfl, by decide⟩
      · exact token_of_mem_members scalar (fun _ ht => absurd ht List.not_mem_nil) h
    · exact Or.inl ⟨_, List.mem_singleton.mp h, by decide⟩
  | .null, t, h => Or.inr ⟨_, List.mem_singleton_self _, List.mem_singleton.mp h⟩
  | .bool_ _, t, h => Or.inr ⟨_, List.mem_singleton_self _, List.mem_singleton.mp h⟩
  | .int64 _, t, h => Or.inr ⟨_, List.mem_singleton_self _, List.mem_singleton.mp h⟩
  | .uint64 _, t, h => Or.inr ⟨_, List.mem_singleton_self _, List.mem_singleton.mp h⟩
  | .double_ _, t, h => Or.inr ⟨_, List.mem_singleton_self _, List.mem_singleton.mp h⟩
  | .string _, t, h => Or.inr ⟨_, List.mem_singleton_self _, List.mem_singleton.mp h⟩

theorem token_of_mem_values (scalar : Json → Bytes) {separator : List Bytes}
    (hs : ∀ t ∈ separator, t = [comma]) : ∀ {values : List Json} {t : Bytes},
      t ∈ tokensOfValues scalar separator values → Token scalar (scalarsOfValues values) t
  | value :: values, t, h => by
    rcases List.mem_append.mp h with h | h
    · rcases List.mem_append.mp h with h | h
      · exact Or.inl ⟨_, hs t h, by decide⟩
      · exact (token_of_mem scalar h).mono (List.subset_append_left _ _)
    · exact (token_of_mem_values scalar (fun _ ht => List.mem_singleton.mp ht) h).mono
        (List.subset_append_right _ _)

theorem token_of_mem_members (scalar : Json → Bytes) {separator : List Bytes}
    (hs : ∀ t ∈ separator, t = [comma]) : ∀ {members : List (Bytes × Json)} {t : Bytes},
      t ∈ tokensOfMembers scalar separator members → Token scalar (scalarsOfMembers members) t
  | (key, value) :: members, t, h => by
    rcases List.mem_append.mp h with h | h
    · rcases List.mem_append.mp h with h | h
      · exact Or.inl ⟨_, hs t h, by decide⟩
      rcases List.mem_cons.mp h with rfl | h
      · exact Or.inr ⟨_, List.mem_cons_self, rfl⟩
      rcases List.mem_cons.mp h with rfl | h
      · exact Or.inl ⟨_, rfl, by decide⟩
      · exact (token_of_mem scalar h).mono fun _ hx =>
          List.mem_cons_of_mem _ (List.mem_append_left _ hx)
    · exact (token_of_mem_members scalar (fun _ ht => List.mem_singleton.mp ht) h).mono
        fun _ hx => List.mem_cons_of_mem _ (List.mem_append_right _ hx)

end

/-! ## The writing -/

/-- The four blanks of each level. -/
def indentation (indent : Int) : Bytes := (List.replicate indent.toNat (lit "    ")).flatten

/-- The loop of `make_default_json` over `output_string`, with the `indent` so far. -/
def beautify (indent : Int) : Bytes → Bytes
  | [] => []
  | c :: output_string =>
    if c = open_brace ∨ c = open_bracket then
      c :: LF :: (indentation (indent + 1) ++ beautify (indent + 1) output_string)
    else if c = close_brace ∨ c = close_bracket then
      LF :: (indentation (indent - 1) ++ c :: beautify (indent - 1) output_string)
    else if c = comma then c :: LF :: (indentation indent ++ beautify indent output_string)
    else if c = colon then c :: space :: beautify indent output_string
    else c :: beautify indent output_string

def TAB : UInt8 := 9

/-- The bytes that mean nothing between the tokens of a JSON text. -/
def Blank (c : UInt8) : Prop := c = space ∨ c = TAB ∨ c = LF ∨ c = CR

instance (c : UInt8) : Decidable (Blank c) := inferInstanceAs (Decidable (_ ∨ _))

/-- One turn of the loop: the next indent, and what is written before and after the byte. -/
def lay (indent : Int) (c : UInt8) : Int × Bytes × Bytes :=
  if c = open_brace ∨ c = open_bracket then (indent + 1, [], LF :: indentation (indent + 1))
  else if c = close_brace ∨ c = close_bracket then (indent - 1, LF :: indentation (indent - 1), [])
  else if c = comma then (indent, [], LF :: indentation indent)
  else if c = colon then (indent, [], [space])
  else (indent, [], [])

theorem beautify_eq_write (indent : Int) (text : Bytes) :
    beautify indent text = write lay indent text := by
  induction text generalizing indent with
  | nil => rfl
  | cons c text ih =>
    rw [beautify, write]
    by_cases h1 : c = open_brace ∨ c = open_bracket
    · have hlay : lay indent c = (indent + 1, [], LF :: indentation (indent + 1)) := if_pos h1
      rw [if_pos h1, hlay, ih]
      rfl
    by_cases h2 : c = close_brace ∨ c = close_bracket
    · have hlay : lay indent c = (indent - 1, LF :: indentation (indent - 1), []) :=
        (if_neg h1).trans (if_pos h2)
      rw [if_neg h1, if_pos h2, hlay, ih]
      rfl
    by_cases h3 : c = comma
    · have hlay : lay indent c = (indent, [], LF :: indentation indent) :=
        (if_neg h1).trans ((if_neg h2).trans (if_pos h3))
      rw [if_neg h1, if_neg h2, if_pos h3, hlay, ih]
      rfl
    by_cases h4 : c = colon
    · have hlay : lay indent c = (indent, [], [space]) :=
        (if_neg h1).trans ((if_neg h2).trans ((if_neg h3).trans (if_pos h4)))
      rw [if_neg h1, if_neg h2, if_neg h3, if_pos h4, hlay, ih]
      rfl
    · have hlay : lay indent c = (indent, [], []) :=
        (if_neg h1).trans ((if_neg h2).trans ((if_neg h3).trans (if_neg h4)))
      rw [if_neg h1, if_neg h2, if_neg h3, if_neg h4, hlay, ih]
      rfl

theorem blank_indentation {indent : Int} : ∀ b ∈ indentation indent, Blank b := by
  intro b hb
  obtain ⟨level, hlevel, hb⟩ := List.mem_flatten.mp hb
  have hspaces : lit "    " = List.replicate 4 space := by decide
  rw [List.eq_of_mem_replicate hlevel, hspaces] at hb
  exact Or.inl (List.eq_of_mem_replicate hb)

theorem blank_lay (indent : Int) (c : UInt8) :
    ∀ b ∈ (lay indent c).2.1 ++ (lay indent c).2.2, Blank b := by
  have hline : ∀ {i : Int}, ∀ b ∈ LF :: indentation i, Blank b := by
    intro i b hb
    rcases List.mem_cons.mp hb with rfl | hb
    · decide
    · exact blank_indentation b hb
  unfold lay
  split
  · exact hline
  split
  · rw [List.append_nil]
    exact hline
  split
  · exact hline
  split
  · simp [Blank]
  · simp

theorem lay_of_not_mark (indent : Int) (c : UInt8) (h : c ∉ MARKS) : (lay indent c).2 = ([], []) := by
  simp only [MARKS, List.mem_cons, List.not_mem_nil, or_false, not_or] at h
  obtain ⟨h1, h2, h3, h4, h5, h6⟩ := h
  simp [lay, h1, h2, h3, h4, h5, h6]

/-- The text that the loop writes for a value spells the value, if no scalar of it has a mark. -/
theorem spells_beautify {scalar : Json → Bytes} {v : Json}
    (h : ∀ x ∈ scalars v, ∀ c ∈ scalar x, c ∉ MARKS) (indent : Int) :
    Spells Blank (tokens scalar v) (beautify indent (tokens scalar v).flatten) := by
  rw [beautify_eq_write]
  refine spells_write blank_lay lay_of_not_mark (fun t ht => ?_) indent
  rcases token_of_mem scalar ht with ⟨c, rfl, -⟩ | ⟨x, hx, rfl⟩
  · exact Or.inl ⟨c, rfl⟩
  · exact Or.inr (h x hx)

/-! ## The reading -/

/-- `std::getline` over a text, with what it has of the line: a last line may have no end, but is not
empty. -/
def getlines (line : Bytes) : Bytes → List Bytes
  | [] => if line = [] then [] else [line]
  | c :: text => if c = LF then line :: getlines [] text else getlines (line ++ [c]) text

/-- The lines together are the text without its line ends. -/
theorem flatten_getlines (line text : Bytes) :
    (getlines line text).flatten = line ++ text.filter (fun c => c ≠ LF) := by
  induction text generalizing line with
  | nil =>
    unfold getlines
    by_cases h : line = []
    · simp [h]
    · simp [h]
  | cons c text ih =>
    unfold getlines
    by_cases h : c = LF
    · simp [h, ih]
    · simp [h, ih]

/-- A digit or a small letter. -/
def Plain (c : UInt8) : Prop := 48 ≤ c ∧ c ≤ 57 ∨ 97 ≤ c ∧ c ≤ 122

instance (c : UInt8) : Decidable (Plain c) := inferInstanceAs (Decidable (_ ∨ _))

/-- What the program uses of the JSON library: the texts of scalars, `boost::json::serialize`, and a
`boost::json::stream_parser` that is given one text after the other. An error is its message. -/
structure JsonLibrary where
  scalar : Json → Bytes
  serialize : Json → Bytes
  Parser : Type
  fresh : Parser
  write : Parser → Bytes → Except Bytes Parser
  finish : Parser → Except Bytes Json

namespace JsonLibrary

variable (lib : JsonLibrary)

/-- The loop over the lines, which ends at the first error. -/
def feed : lib.Parser → List Bytes → Except Bytes lib.Parser
  | json_sparser, [] => .ok json_sparser
  | json_sparser, line :: lines =>
    match lib.write json_sparser line with
    | .error message => .error message
    | .ok json_sparser => feed json_sparser lines

/-- The value of the texts together. -/
def parse (lines : List Bytes) : Except Bytes Json :=
  match lib.feed lib.fresh lines with
  | .error message => .error message
  | .ok json_sparser => lib.finish json_sparser

/-- What `read_json_config` takes from the text of the file. -/
def read (text : Bytes) : ConfigFile :=
  match lib.parse (getlines [] text) with
  | .error message => .invalid message
  | .ok config => .parsed config

/-- The library reads the text that it wrote for the value. -/
def Keeps (v : Json) : Prop := lib.parse [lib.serialize v] = .ok v

/-- What the library documents. A value is written as its tokens with nothing in between, a string of
small letters and digits between quotes and no line end inside any scalar. It is read from any text that
spells its tokens, in whatever parts the text comes. -/
structure Documented : Prop where
  serialize : ∀ v, lib.serialize v = (tokens lib.scalar v).flatten
  bool_ : ∀ b : Bool, lib.scalar (.bool_ b) = if b then lit "true" else lit "false"
  int64 : ∀ i : Int64, lib.scalar (.int64 i) = to_string i.toInt
  string : ∀ s : Bytes, (∀ c ∈ s, Plain c) →
    lib.scalar (.string s) = lit "\"" ++ s ++ lit "\""
  no_line_end : ∀ v, LF ∉ lib.scalar v
  blanks : ∀ v text, lib.Keeps v → Spells Blank (tokens lib.scalar v) text → lib.parse [text] = .ok v
  parts : ∀ texts v, lib.parse [texts.flatten] = .ok v → lib.parse texts = .ok v

end JsonLibrary

/-- A text that spells a value is read as the value. -/
theorem read_of_spells {lib : JsonLibrary} (hlib : lib.Documented) {v : Json} (hv : lib.Keeps v)
    {text : Bytes} (h : Spells Blank (tokens lib.scalar v) text) : lib.read text = .parsed v := by
  have hno : ∀ t ∈ tokens lib.scalar v, ∀ c ∈ t, decide (c ≠ LF) = true := by
    intro t ht c hc
    refine decide_eq_true fun he => ?_
    subst he
    rcases token_of_mem lib.scalar ht with ⟨d, rfl, hd⟩ | ⟨x, -, rfl⟩
    · obtain rfl := List.mem_singleton.mp hc
      exact absurd hd (by decide)
    · exact hlib.no_line_end x hc
  have hlines : lib.parse (getlines [] text) = .ok v := by
    refine hlib.parts _ v ?_
    rw [flatten_getlines, List.nil_append]
    exact hlib.blanks v _ hv (h.filter hno)
  unfold JsonLibrary.read
  rw [hlines]

/-! ## The starts -/

/-- What there is where the program runs: no directory `config`, no file in it, or the file. -/
inductive Stored
  | no_directory
  | no_file
  | file (text : Bytes)

/-- What a start reads, and what is stored after it. -/
def JsonLibrary.start (lib : JsonLibrary) : Stored → Except Thrown parsed_config × Stored
  | .file text => (read_json_config (lib.read text), .file text)
  | _ => (.ok make_default_json, .file (beautify 0 (lib.serialize (.object DEFAULT_CONFIG))))

/-- The server starts, or its owner writes the file or removes it, also with its directory. -/
inductive Change
  | start
  | edit (text : Bytes) (value : Json)
  | remove (directory : Bool)

/-- One change, next to the value that the file stands for. -/
def changed (lib : JsonLibrary) (x : Stored × Option Json) : Change → Option (Stored × Option Json)
  | .start => some ((lib.start x.1).2, some (x.2.getD (.object DEFAULT_CONFIG)))
  | .edit text value => some (.file text, some value)
  | .remove directory => some (if directory then .no_directory else .no_file, none)

/-- The owner writes a text of the value, laid out in any way. -/
def Proper (lib : JsonLibrary) : Change → Prop
  | .edit text value => lib.Keeps value ∧ Spells Blank (tokens lib.scalar value) text
  | _ => True

/-- A start reads the configuration of the value, or the default one when there is no file, and what
it read is the configuration of the file that it leaves. -/
def ReadsConfiguration (lib : JsonLibrary) (x : Stored × Option Json) (c : Change)
    (x' : Stored × Option Json) : Prop :=
  c = .start → (lib.start x.1).1 = read_json_config (x.2.elim .missing .parsed) ∧
    (lib.start x.1).1 = read_json_config (x'.2.elim .missing .parsed)

/-- The file has a text of the value. -/
def Sound (lib : JsonLibrary) : Stored × Option Json → Prop
  | (.file text, some value) => lib.Keeps value ∧ Spells Blank (tokens lib.scalar value) text
  | (.file _, none) => False
  | (_, value) => value = none

section
variable {lib : JsonLibrary} (hlib : lib.Documented)
include hlib

/-- No scalar of the default configuration has a mark. -/
theorem plain_default : ∀ x ∈ scalars (.object DEFAULT_CONFIG), ∀ c ∈ lib.scalar x, c ∉ MARKS := by
  have hall : ∀ {text : Bytes}, text.all (fun c => !MARKS.contains c) = true →
      ∀ c ∈ text, c ∉ MARKS := by
    intro text h c hc
    simpa using List.all_eq_true.mp h c hc
  have hstring : ∀ s ∈ [lit "secure", lit "port", lit "users", lit "name", lit "guest", lit "password",
      lit "12345"], ∀ c ∈ lib.scalar (.string s), c ∉ MARKS := by
    intro s hs
    have hletters : ∀ s ∈ [lit "secure", lit "port", lit "users", lit "name", lit "guest",
        lit "password", lit "12345"], s.all (fun c => decide (Plain c)) = true := by decide
    have hmarks : ∀ s ∈ [lit "secure", lit "port", lit "users", lit "name", lit "guest",
        lit "password", lit "12345"],
        (lit "\"" ++ s ++ lit "\"").all (fun c => !MARKS.contains c) = true := by decide
    rw [hlib.string s fun c hc => of_decide_eq_true (List.all_eq_true.mp (hletters s hs) c hc)]
    exact hall (hmarks s hs)
  have hbool : ∀ c ∈ lib.scalar (.bool_ false), c ∉ MARKS := by
    rw [hlib.bool_]
    exact hall (by decide)
  have hport : ∀ c ∈ lib.scalar (.int64 6921), c ∉ MARKS := by
    rw [hlib.int64]
    exact hall (by decide)
  intro x hx
  simp only [DEFAULT_CONFIG, DEFAULT_USERS, scalars, scalarsOfMembers, scalarsOfValues, List.cons_append,
    List.nil_append, List.append_nil, List.mem_cons, List.not_mem_nil, or_false] at hx
  rcases hx with rfl | rfl | rfl | rfl | rfl | rfl | rfl | rfl | rfl
  · exact hstring _ (by decide)
  · exact hbool
  · exact hstring _ (by decide)
  · exact hport
  · exact hstring _ (by decide)
  · exact hstring _ (by decide)
  · exact hstring _ (by decide)
  · exact hstring _ (by decide)
  · exact hstring _ (by decide)

theorem sound_changed (hdefault : lib.Keeps (.object DEFAULT_CONFIG)) {x x' : Stored × Option Json}
    {c : Change} (hx : Sound lib x) (hc : Proper lib c) (h : changed lib x c = some x') :
    ReadsConfiguration lib x c x' ∧ Sound lib x' := by
  have hwritten : Spells Blank (tokens lib.scalar (.object DEFAULT_CONFIG))
      (beautify 0 (lib.serialize (.object DEFAULT_CONFIG))) := by
    rw [hlib.serialize]
    exact spells_beautify (plain_default hlib) 0
  obtain ⟨stored, value⟩ := x
  cases c with
  | start =>
    obtain rfl := Option.some.inj h
    cases stored with
    | file text =>
      cases value with
      | none => exact hx.elim
      | some v =>
        obtain ⟨hkeeps, hspells⟩ := hx
        have hread : read_json_config (lib.read text) = read_json_config (.parsed v) := by
          rw [read_of_spells hlib hkeeps hspells]
        exact ⟨fun _ => ⟨hread, hread⟩, hkeeps, hspells⟩
    | no_directory =>
      obtain rfl : value = none := hx
      exact ⟨fun _ => ⟨rfl, read_default_config.symm⟩, hdefault, hwritten⟩
    | no_file =>
      obtain rfl : value = none := hx
      exact ⟨fun _ => ⟨rfl, read_default_config.symm⟩, hdefault, hwritten⟩
  | edit text v =>
    obtain rfl := Option.some.inj h
    refine ⟨?_, hc⟩
    intro hstart
    cases hstart
  | remove directory =>
    obtain rfl := Option.some.inj h
    refine ⟨?_, ?_⟩
    · intro hstart
      cases hstart
    · cases directory <;> rfl

/-- For any library that does what it documents, and over any number of starts, edits and removals of
the file: each start reads the configuration that was written last, by the owner in any layout or by
the start that found no file, and that start has the same configuration as the later ones. -/
theorem every_start_reads_the_configuration (hdefault : lib.Keeps (.object DEFAULT_CONFIG))
    {changes : List Change} (hchanges : ∀ c ∈ changes, Proper lib c) :
    runs.Along (changed lib) (ReadsConfiguration lib) (.no_directory, none) changes := by
  have hproper : runs.Along (changed lib) (fun _ c _ => Proper lib c) (.no_directory, none) changes :=
    runs.along_of_forall fun c hc _ _ => hchanges c hc
  refine runs.along_of_invariant (J := Sound lib) ?_ rfl hproper
  exact fun x c x' hx h hc => sound_changed hlib hdefault hx hc h

end

/-- The text of a scalar that is no double, with the line ends of a string escaped. -/
def plainScalar : Json → Bytes
  | .bool_ b => if b then lit "true" else lit "false"
  | .int64 i => to_string i.toInt
  | .uint64 n => to_string n.toNat
  | .string s => lit "\"" ++ s.flatMap (fun c => if c = LF then lit "\\n" else [c]) ++ lit "\""
  | _ => lit "null"

/-- The default configuration in any layout, and an error for any other text. -/
def valueOf (text : Bytes) : Except Bytes Json :=
  if text.filter (fun c => ¬ Blank c) = (tokens plainScalar (.object DEFAULT_CONFIG)).flatten then
    .ok (.object DEFAULT_CONFIG)
  else .error (lit "syntax error")

def defaultLibrary : JsonLibrary where
  scalar := plainScalar
  serialize v := (tokens plainScalar v).flatten
  Parser := Bytes
  fresh := []
  write json_sparser line := .ok (json_sparser ++ line)
  finish := valueOf

theorem lf_notMem_to_string (n : Int) : LF ∉ to_string n := by
  intro h
  unfold to_string at h
  split at h
  · rcases List.mem_cons.mp h with h | h
    · exact absurd h (by decide)
    · exact absurd (le_of_mem_digits h) (by decide)
  · exact absurd (le_of_mem_digits h) (by decide)

theorem feed_defaultLibrary (json_sparser : Bytes) (texts : List Bytes) :
    defaultLibrary.feed json_sparser texts = .ok (json_sparser ++ texts.flatten : Bytes) := by
  induction texts generalizing json_sparser with
  | nil => exact congrArg Except.ok (List.append_nil _).symm
  | cons text texts ih =>
    rw [List.flatten_cons, ← List.append_assoc]
    exact ih (json_sparser ++ text)

theorem parse_defaultLibrary (texts : List Bytes) :
    defaultLibrary.parse texts = valueOf texts.flatten := by
  have hfeed : defaultLibrary.feed defaultLibrary.fresh texts = .ok (texts.flatten : Bytes) :=
    feed_defaultLibrary [] texts
  unfold JsonLibrary.parse
  rw [hfeed]
  rfl

theorem documented_defaultLibrary : defaultLibrary.Documented where
  serialize _ := rfl
  bool_ _ := rfl
  int64 _ := rfl
  string s hs := by
    have hsame : s.flatMap (fun c => if c = LF then lit "\\n" else [c]) = s := by
      have hone : s.flatMap (fun c => if c = LF then lit "\\n" else [c]) = s.flatMap fun c => [c] := by
        refine List.flatMap_congr fun c hc => if_neg fun he => ?_
        have hrange := hs c hc
        rw [he] at hrange
        exact absurd hrange (by decide)
      rw [hone, List.flatMap_singleton']
    show plainScalar (.string s) = _
    rw [plainScalar, hsame]
  no_line_end v h := by
    change LF ∈ plainScalar v at h
    cases v with
    | string s =>
      simp only [plainScalar, List.mem_append, List.mem_flatMap] at h
      rcases h with (h | ⟨c, -, h⟩) | h
      · exact absurd h (by decide)
      · split at h
        · exact absurd h (by decide)
        · next hne => exact hne (List.mem_singleton.mp h).symm
      · exact absurd h (by decide)
    | int64 i => exact lf_notMem_to_string _ h
    | uint64 n => exact lf_notMem_to_string _ h
    | bool_ b => cases b <;> exact absurd h (by decide)
    | _ => exact absurd h (show LF ∉ lit "null" by decide)
  blanks v text hv h := by
    unfold JsonLibrary.Keeps at hv
    rw [parse_defaultLibrary] at hv ⊢
    unfold valueOf at hv
    split at hv
    · obtain rfl : Json.object DEFAULT_CONFIG = v := Except.ok.inj hv
      have hsolid : text.filter (fun c => ¬ Blank c) =
          (tokens plainScalar (.object DEFAULT_CONFIG)).flatten :=
        (h.solid fun b hb => by simpa using hb).trans (by decide)
      rw [List.flatten_singleton]
      exact if_pos hsolid
    · cases hv
  parts texts v h := by
    rw [parse_defaultLibrary] at h ⊢
    rw [List.flatten_singleton] at h
    exact h

theorem the_default_configuration_stays :
    runs.Along (changed defaultLibrary) (ReadsConfiguration defaultLibrary) (.no_directory, none)
      [.start, .start, .remove true, .start,
        .edit (defaultLibrary.serialize (.object DEFAULT_CONFIG)) (.object DEFAULT_CONFIG), .start] := by
  have hkeeps : defaultLibrary.Keeps (.object DEFAULT_CONFIG) := by
    unfold JsonLibrary.Keeps
    rw [parse_defaultLibrary, List.flatten_singleton]
    have hsolid : (defaultLibrary.serialize (.object DEFAULT_CONFIG)).filter (fun c => ¬ Blank c) =
        (tokens plainScalar (.object DEFAULT_CONFIG)).flatten := by decide
    exact if_pos hsolid
  refine every_start_reads_the_configuration documented_defaultLibrary hkeeps ?_
  intro c hc
  simp only [List.mem_cons, List.not_mem_nil, or_false] at hc
  rcases hc with rfl | rfl | rfl | rfl | rfl | rfl
  · trivial
  · trivial
  · trivial
  · trivial
  · exact ⟨hkeeps, spells_flatten Blank _⟩
  · trivial

end asio_ftp.config_text
