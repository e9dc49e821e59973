-- The parts of SQLite that the queries use: the flat result of `run_param_query`
-- (src/database/sqlite_wrapper.cpp) and the LIKE operator.
import AsioFtp.Bytes
import AsioFtp.Lib.Wildcard

namespace asio_ftp.sqlite_wrapper

open wildcard

/-- The result of a query that ends with SQLITE_DONE: every column of every row as text, row
by row, in one vector. A column text ends at its first NUL. -/
def run_param_query (rows : List (List Bytes)) : List Bytes := rows.flatMap (·.map c_str)

/-- `run_query`, whose callback copies the same texts. -/
def run_query (rows : List (List Bytes)) : List Bytes := rows.flatMap (·.map c_str)

/-- A row whose key no row has keeps the keys distinct. -/
theorem nodup_map_snoc {ρ β : Type} {rows : List ρ} {f : ρ → β} {r : ρ}
    (h : (rows.map f).Nodup) (hr : ∀ x ∈ rows, f x ≠ f r) : ((rows ++ [r]).map f).Nodup := by
  rw [List.map_append, List.nodup_append]
  refine ⟨h, by simp, ?_⟩
  intro a ha b hb
  simp only [List.map_cons, List.map_nil, List.mem_singleton] at hb
  obtain ⟨x, hx, rfl⟩ := List.mem_map.mp ha
  exact hb ▸ hr x hx

/-! ## LIKE -/

/-- A UTF-8 continuation byte. -/
def isContinuation (c : UInt8) : Bool := 128 ≤ c && c < 192

/-- The characters of a text: a lead byte takes the continuation bytes after it. -/
def characters : Bytes → List Bytes
  | [] => []
  | c :: rest =>
    let later := characters rest
    if c < 192 then [c] :: later
    else (c :: (later.takeWhile (·.all isContinuation)).flatten) ::
      later.dropWhile (·.all isContinuation)

/-- `sqlite3Utf8Trans1`: the bits of the character that its lead byte has. -/
def leadBits (c : UInt8) : Nat :=
  if c < 224 then c.toNat % 32
  else if c < 240 then c.toNat % 16
  else if c < 248 then c.toNat % 8
  else if c < 252 then c.toNat % 4
  else if c < 254 then c.toNat % 2
  else 0

/-- `sqlite3Utf8Read` of one character, in 32 bits. A byte below 192 is read as it is. What is too
long, a surrogate or no character is read as U+FFFD. -/
def codePoint : Bytes → Nat
  | [] => 0
  | lead :: rest =>
    if lead < 192 then lead.toNat
    else
      let c := rest.foldl (fun c b => (c * 64 + b.toNat % 64) % 2 ^ 32) (leadBits lead)
      if c < 0x80 ∨ c / 0x800 = 0xD800 / 0x800 ∨ c / 2 = 0xFFFE / 2 then 0xFFFD else c

/-- What LIKE reads of a text: its characters up to the first NUL. -/
def decode (text : Bytes) : List Nat := (characters (c_str text)).map codePoint

/-- LIKE folds the case of the ASCII letters only. -/
def foldCase (c : Nat) : Nat := if 65 ≤ c ∧ c ≤ 90 then c + 32 else c

def sameCharacter (a b : Nat) : Bool := foldCase a == foldCase b

/-- The byte '%'. -/
def percent : UInt8 := 37

/-- The item of a pattern that one character is: '%', '_' or itself. -/
def likeItem (c : Nat) : Item Nat :=
  if c = 37 then .any else if c = 95 then .one else .char c

/-- `SQLITE_MAX_LIKE_PATTERN_LENGTH`. -/
def LIKE_PATTERN_LENGTH : Nat := 50000

/-- `text LIKE pattern`. A longer pattern is an error. -/
def like (pattern text : Bytes) : Option Bool :=
  if pattern.length > LIKE_PATTERN_LENGTH then none
  else some (matchesText sameCharacter ((decode pattern).map likeItem) (decode text))

/-- A text has the characters of its two parts when the second part starts a character. -/
theorem characters_append (a b : Bytes) (hb : ∀ c ∈ b.head?, isContinuation c = false) :
    characters (a ++ b) = characters a ++ characters b := by
  have hhead : ∀ x ∈ (characters b).head?, x.all isContinuation = false := by
    intro x hx
    rcases b with _ | ⟨c, b⟩
    · simp [characters] at hx
    · have hc := hb c rfl
      simp only [characters] at hx
      split at hx
      · simp only [List.head?_cons, Option.mem_def, Option.some.injEq] at hx
        simp [← hx, hc]
      · simp only [List.head?_cons, Option.mem_def, Option.some.injEq] at hx
        simp [← hx, hc]
  have htake : ∀ l : List Bytes, (l ++ characters b).takeWhile (·.all isContinuation) =
      l.takeWhile (·.all isContinuation) ∧ (l ++ characters b).dropWhile (·.all isContinuation) =
      l.dropWhile (·.all isContinuation) ++ characters b := by
    intro l
    induction l with
    | nil =>
      cases hcb : characters b with
      | nil => simp
      | cons x xs =>
        have hx := hhead x (by rw [hcb]; rfl)
        simp [hx]
    | cons y l ih =>
      by_cases hy : y.all isContinuation = true
      · simp [hy, ih]
      · simp [hy]
  induction a with
  | nil => rfl
  | cons c a ih =>
    simp only [List.cons_append, characters, ih, htake (characters a)]
    split <;> rfl

theorem likeItem_char (a b : Nat) (h : likeItem a = .char b) : b = a := by
  unfold likeItem at h
  split at h
  · cases h
  · split at h
    · cases h
    · exact (Item.char.inj h).symm

theorem sameCharacter_refl (a : Nat) : sameCharacter a a = true := by simp [sameCharacter]

/-! ## What LIKE reads -/

/-- A character of one byte is read before what follows. -/
theorem decode_cons {c : UInt8} (b : Bytes) (h0 : c ≠ 0) (hc : c < 192) :
    decode (c :: b) = decode [c] ++ decode b := by
  simp [decode, c_str, characters, h0, hc]

/-- A text with a NUL is read up to it, whatever follows. -/
theorem c_str_append_of_mem {a : Bytes} (b : Bytes) (h : (0 : UInt8) ∈ a) :
    c_str (a ++ b) = c_str a := by
  unfold c_str
  rw [List.takeWhile_append, if_neg]
  intro hall
  have hfull := List.takeWhile_eq_self_iff.mp
    ((List.takeWhile_sublist _).eq_of_length hall)
  exact absurd (hfull 0 h) (by decide)

/-- A text without a NUL is read whole, and what follows after it. -/
theorem c_str_append_of_notMem {a : Bytes} (b : Bytes) (h : (0 : UInt8) ∉ a) :
    c_str (a ++ b) = a ++ c_str b := by
  unfold c_str
  refine List.takeWhile_append_of_pos fun c hc => decide_eq_true ?_
  rintro rfl
  exact h hc

theorem head_c_str {b : Bytes} {P : UInt8 → Prop} (h : ∀ c ∈ b.head?, P c) :
    ∀ c ∈ (c_str b).head?, P c := by
  cases b with
  | nil => exact h
  | cons x b =>
    unfold c_str
    rw [List.takeWhile_cons]
    split
    · exact h
    · simp

theorem decode_append_of_mem {a : Bytes} (b : Bytes) (h : (0 : UInt8) ∈ a) :
    decode (a ++ b) = decode a := by
  unfold decode
  rw [c_str_append_of_mem b h]

/-- What follows at a new character is read after what was there. -/
theorem decode_append_of_notMem {a b : Bytes} (h : (0 : UInt8) ∉ a)
    (hb : ∀ c ∈ b.head?, isContinuation c = false) : decode (a ++ b) = decode a ++ decode b := by
  have ha : c_str a = a := by
    have happ := c_str_append_of_notMem [] h
    rwa [List.append_nil, show c_str [] = [] from rfl, List.append_nil] at happ
  unfold decode
  rw [c_str_append_of_notMem b h, ha, characters_append a _ (head_c_str hb), List.map_append]

/-- What is read of a text is the beginning of what is read of a text that continues it. -/
theorem exists_decode_append (a : Bytes) {b : Bytes}
    (hb : ∀ c ∈ b.head?, isContinuation c = false) :
    ∃ rest, decode (a ++ b) = decode a ++ rest ∧ ((0 : UInt8) ∈ a → rest = []) := by
  by_cases h : (0 : UInt8) ∈ a
  · exact ⟨[], by rw [decode_append_of_mem b h, List.append_nil], fun _ => rfl⟩
  · exact ⟨decode b, decode_append_of_notMem h hb, fun h' => absurd h' h⟩

/-! ## A pattern that ends in '%' -/

/-- `q` matches the pattern `p` and '%': some beginning of what LIKE reads of `q` matches what it
reads of `p`. If `p` has a NUL then LIKE does not come to the '%', and all of `q` has to match. -/
def Covers (p q : Bytes) : Prop :=
  p.length < LIKE_PATTERN_LENGTH ∧
    ∃ front rest, decode q = front ++ rest ∧
      front ∈ lang sameCharacter ((decode p).map likeItem) ∧ ((0 : UInt8) ∈ p → rest = [])

theorem like_percent_iff (p q : Bytes) : like (p ++ [percent]) q = some true ↔ Covers p q := by
  have hhead : ∀ c ∈ [percent].head?, isContinuation c = false := by
    rintro c ⟨⟩
    rfl
  have hlen : (p ++ [percent]).length > LIKE_PATTERN_LENGTH ↔ ¬ p.length < LIKE_PATTERN_LENGTH := by
    rw [List.length_append, List.length_singleton]
    omega
  unfold like Covers
  rw [Option.ite_none_left_eq_some, Option.some.injEq, hlen, not_not, matchesText_iff]
  refine and_congr_right fun _ => ?_
  by_cases h : (0 : UInt8) ∈ p
  · rw [decode_append_of_mem _ h]
    constructor
    · exact fun hq => ⟨decode q, [], (List.append_nil _).symm, hq, fun _ => rfl⟩
    · rintro ⟨front, rest, hq, hfront, hrest⟩
      rwa [hq, hrest h, List.append_nil]
  · rw [decode_append_of_notMem h hhead, List.map_append,
      show (decode [percent]).map likeItem = [.any] from rfl, lang_append, Language.mem_mul]
    constructor
    · rintro ⟨front, hfront, rest, -, hq⟩
      exact ⟨front, rest, hq.symm, hfront, fun h' => absurd h' h⟩
    · rintro ⟨front, rest, hq, hfront, -⟩
      refine ⟨front, hfront, rest, ?_, hq.symm⟩
      rw [lang_cons, lang_nil, mul_one]
      exact mem_itemLang_any rest

instance (p q : Bytes) : Decidable (Covers p q) := decidable_of_iff _ (like_percent_iff p q)

/-- A pattern that is not too long covers the text that it was written from, whatever wildcards are
in it, and every text that continues it at a new character. -/
theorem covers_append {p rest : Bytes} (hlen : p.length < LIKE_PATTERN_LENGTH)
    (h : ∀ c ∈ rest.head?, isContinuation c = false) : Covers p (p ++ rest) := by
  obtain ⟨more, hmore, hnul⟩ := exists_decode_append p h
  exact ⟨hlen, decode p, more, hmore, self_mem_lang sameCharacter_refl likeItem_char _, hnul⟩

/-- Without a NUL, a pattern that covers a text covers what is read as more than it. -/
theorem Covers.of_decode {p q q' : Bytes} (h : Covers p q) (hp : (0 : UInt8) ∉ p)
    (hq' : decode q <+: decode q') : Covers p q' := by
  obtain ⟨hlen, front, back, hq, hfront, -⟩ := h
  obtain ⟨more, hmore⟩ := hq'
  exact ⟨hlen, front, back ++ more, by rw [← hmore, hq, List.append_assoc], hfront,
    fun h' => absurd h' hp⟩

theorem Covers.append {p q rest : Bytes} (h : Covers p q) (hp : (0 : UInt8) ∉ p)
    (hrest : ∀ c ∈ rest.head?, isContinuation c = false) : Covers p (q ++ rest) := by
  obtain ⟨more, hmore, -⟩ := exists_decode_append q hrest
  exact h.of_decode hp ⟨more, hmore.symm⟩

end asio_ftp.sqlite_wrapper
