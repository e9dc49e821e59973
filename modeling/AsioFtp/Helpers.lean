-- The string helpers (src/helpers.cpp), as the code computes them, and what each
-- of them gives on a text cut at its last slash or at one separator byte.
import AsioFtp.Bytes

namespace asio_ftp.helpers

/-! ## The path helpers -/

/-- The backward scan of `get_basename` from index `i`, with no guard of its own. It gives
`none` where the unsigned index wraps below zero. -/
def basenameScan (path : Bytes) : Nat → Option Nat
  | 0 => if path[0]? = some slash then some 1 else none
  | i + 1 => if path[i + 1]? = some slash then some (i + 2) else basenameScan path i

def get_basename (path : Bytes) : Bytes :=
  if path = [] then []
  else if slash ∉ path then path
  else
    match basenameScan path (path.length - 1) with
    | some i => path.drop i
    | none => []

/-- The backward scan of `get_parent_path` from index `i`, which stops at index 1. -/
def parentScan (path : Bytes) : Nat → Nat
  | 0 => 0
  | 1 => 1
  | i + 2 => if path[i + 2]? = some slash then i + 2 else parentScan path (i + 1)

def get_parent_path (path : Bytes) : Bytes :=
  if path.length ≤ 1 then [slash]
  else if path[0]? ≠ some slash then [slash]
  else path.take (parentScan path (path.length - 1))

/-! ## The split and join helpers -/

/-- `find(delimiter)`: the first index at which `delimiter` stands. -/
def find (delimiter : Bytes) : Bytes → Option Nat
  | [] => if delimiter = [] then some 0 else none
  | c :: rest => if delimiter.isPrefixOf (c :: rest) then some 0 else (find delimiter rest).map (· + 1)

/-- The loop of `string_split`. Here `rest` is the input from `find_start` on. Each turn drops
the delimiter at least, so the bytes of the input and one turn more are fuel enough. -/
def splitLoop (delimiter : Bytes) : Nat → Bytes → Option (List Bytes)
  | 0, _ => none
  | fuel + 1, rest =>
    match find delimiter rest with
    | none => some [rest]
    | some index =>
      (splitLoop delimiter fuel (rest.drop (index + delimiter.length))).map (rest.take index :: ·)

def string_split (input_string delimiter : Bytes) : List Bytes :=
  if input_string = [] then []
  else if delimiter = [] ∨ input_string.length < delimiter.length then [input_string]
  else (splitLoop delimiter (input_string.length + 1) input_string).getD []

def string_join (input_vector : List Bytes) (separator : Bytes) : Bytes :=
  match input_vector.getLast? with
  | none => []
  | some back => input_vector.dropLast.foldl (fun joined x => joined ++ x ++ separator) [] ++ back

/-- The turn of `string_to_uppercase`: 'a' to 'z' lose 32, and every other byte stays. -/
def upperByte (c : UInt8) : UInt8 := if c < 97 ∨ c > 122 then c else c - 32

def string_to_uppercase (input_string : Bytes) : Bytes := input_string.map upperByte

/-- A text is no prefix of itself here: the length must be larger. -/
def string_starts_with (input_string pre : Bytes) : Bool :=
  decide (input_string.length > pre.length) && decide (input_string.take pre.length = pre)

/-- The loop of `string_replace`, with `rest` the input from `find_start` on. -/
def replaceLoop (search replace : Bytes) : Nat → Bytes → Option Bytes
  | 0, _ => none
  | fuel + 1, rest =>
    match find search rest with
    | none => some rest
    | some found =>
      (replaceLoop search replace fuel (rest.drop (found + search.length))).map
        (rest.take found ++ replace ++ ·)

def string_replace (input_string search replace : Bytes) : Bytes :=
  if input_string = [] ∨ search = [] ∨ input_string.length < search.length ∨ search = replace then
    input_string
  else (replaceLoop search replace (input_string.length + 1) input_string).getD []

/-! ## Generated names -/

/-- The byte of one turn of `generate_uuid_string`, from `std::rand() % 16`. -/
def hexDigit (r : Nat) : UInt8 := if r % 16 < 10 then (48 + r % 16).toUInt8 else (55 + r % 16).toUInt8

/-- `generate_uuid_string`, from the values that `std::rand` gives. -/
def generate_uuid_string (rands : List Nat) : Bytes := rands.map hexDigit

/-- A value of `generate_uuid_string(64)`. -/
structure Uuid where
  val : Bytes
  length_eq : val.length = 64
  hex : ∀ c ∈ val, ∃ r, c = hexDigit r

/-- The value that `generate_uuid_string(64)` gives when every `std::rand` gives `r`. -/
def Uuid.ofRand (r : Nat) : Uuid where
  val := generate_uuid_string (List.replicate 64 r)
  length_eq := by simp [generate_uuid_string]
  hex := by
    intro c hc
    simp only [generate_uuid_string, List.map_replicate] at hc
    exact ⟨r, List.eq_of_mem_replicate hc⟩

theorem hexDigit_ne_zero (r : Nat) : hexDigit r ≠ 0 := by
  intro h
  have := congrArg UInt8.toNat h
  unfold hexDigit at this
  split at this
  · rw [Nat.toUInt8, UInt8.toNat_ofNat'] at this
    simp at this
    omega
  · rw [Nat.toUInt8, UInt8.toNat_ofNat'] at this
    simp at this
    omega

theorem Uuid.ne_nil (u : Uuid) : u.val ≠ [] := by
  intro h
  have := u.length_eq
  simp [h] at this

/-- A generated name has no NUL, so it reads back whole. -/
@[simp] theorem Uuid.c_str_val (u : Uuid) : c_str u.val = u.val := by
  apply c_str_eq_self
  intro c hc
  obtain ⟨r, rfl⟩ := u.hex c hc
  exact hexDigit_ne_zero r

/-! ## A text cut at its last slash -/

/-- Every text with a slash is `d ++ '/' :: n` for exactly one `n` with no slash. -/
theorem exists_last_slash {path : Bytes} (h : slash ∈ path) :
    ∃ d n, path = d ++ slash :: n ∧ slash ∉ n := by
  induction path with
  | nil => simp at h
  | cons c rest ih =>
    by_cases hr : slash ∈ rest
    · obtain ⟨d, n, rfl, hn⟩ := ih hr
      exact ⟨c :: d, n, rfl, hn⟩
    · have hc : c = slash := by
        rcases List.mem_cons.mp h with h | h
        · exact h.symm
        · exact absurd h hr
      exact ⟨[], rest, by rw [hc]; rfl, hr⟩

/-- What stands after the last slash is no slash. -/
theorem getElem?_after_slash {d n : Bytes} (hn : slash ∉ n) (i : Nat) (hi : d.length < i) :
    (d ++ slash :: n)[i]? ≠ some slash := by
  rw [List.getElem?_append_right (by omega)]
  obtain ⟨k, hk⟩ : ∃ k, i - d.length = k + 1 := ⟨i - d.length - 1, by omega⟩
  rw [hk, List.getElem?_cons_succ]
  intro h
  exact hn (List.mem_of_getElem? h)

theorem basenameScan_eq {d n : Bytes} (hn : slash ∉ n) (i : Nat) (hi : d.length ≤ i) :
    basenameScan (d ++ slash :: n) i = some (d.length + 1) := by
  induction i with
  | zero =>
    have hd : d = [] := List.length_eq_zero_iff.mp (by omega)
    subst hd
    simp [basenameScan]
  | succ i ih =>
    unfold basenameScan
    by_cases he : d.length = i + 1
    · rw [if_pos (by rw [← he]; simp), he]
    · rw [if_neg (getElem?_after_slash hn _ (by omega))]
      exact ih (by omega)

theorem parentScan_eq {d n : Bytes} (hn : slash ∉ n) (i : Nat) (hi : d.length ≤ i) (h1 : 1 ≤ i) :
    parentScan (d ++ slash :: n) i = max d.length 1 := by
  induction i with
  | zero => omega
  | succ i ih =>
    rcases i with _ | i
    · simp only [parentScan]
      omega
    · unfold parentScan
      by_cases he : d.length = i + 2
      · rw [if_pos (by rw [← he]; simp)]
        omega
      · rw [if_neg (getElem?_after_slash hn _ (by omega))]
        exact ih (by omega) (by omega)

theorem get_basename_of_slash {d n : Bytes} (hn : slash ∉ n) :
    get_basename (d ++ slash :: n) = n := by
  unfold get_basename
  rw [if_neg (by simp), if_neg (by simp), basenameScan_eq hn _ (by simp)]
  simp only
  rw [List.drop_append, List.drop_of_length_le (by omega)]
  simp

theorem get_basename_of_no_slash {path : Bytes} (h : slash ∉ path) : get_basename path = path := by
  unfold get_basename
  split
  · next he => exact he.symm
  · rfl

/-- A base name has no slash. -/
theorem slash_notMem_get_basename (path : Bytes) : slash ∉ get_basename path := by
  by_cases h : slash ∈ path
  · obtain ⟨d, n, rfl, hn⟩ := exists_last_slash h
    rwa [get_basename_of_slash hn]
  · rwa [get_basename_of_no_slash h]

/-- The parent of an absolute path is what stands before its last slash, and the root for
a path with no other slash. -/
theorem get_parent_path_of_slash {d n : Bytes} (hn : slash ∉ n) (hd : d ≠ [] → d[0]? = some slash) :
    get_parent_path (d ++ slash :: n) = if d = [] then [slash] else d := by
  unfold get_parent_path
  have h0 : (d ++ slash :: n)[0]? = some slash := by
    rcases d with _ | ⟨c, d⟩
    · rfl
    · simpa using hd (by simp)
  split
  · next hl =>
    have : d = [] := List.length_eq_zero_iff.mp (by simp at hl; omega)
    rw [if_pos this]
  · next hl =>
    rw [if_neg (not_not.mpr h0), parentScan_eq hn _ (by simp) (by simp at hl ⊢; omega)]
    split
    · next he => subst he; simp
    · next he =>
      have : 1 ≤ d.length := List.length_pos_iff.mpr he
      rw [Nat.max_eq_left this, List.take_left']
      rfl

theorem one_le_parentScan (path : Bytes) (i : Nat) (h : 1 ≤ i) : 1 ≤ parentScan path i := by
  induction i with
  | zero => omega
  | succ i ih =>
    rcases i with _ | i
    · simp [parentScan]
    · unfold parentScan
      split
      · omega
      · exact ih (by omega)

theorem parentScan_le (path : Bytes) (i : Nat) : parentScan path i ≤ i := by
  induction i with
  | zero => exact Nat.le_refl 0
  | succ i ih =>
    rcases i with _ | i
    · exact Nat.le_refl 1
    · unfold parentScan
      split
      · exact Nat.le_refl _
      · omega

/-- The parent of a path of more than one byte is shorter. -/
theorem length_get_parent_path_lt {path : Bytes} (h : 1 < path.length) :
    (get_parent_path path).length < path.length := by
  unfold get_parent_path
  rw [if_neg (by omega)]
  split
  · exact h
  · have hle := parentScan_le path (path.length - 1)
    rw [List.length_take]
    omega

/-- A parent path is absolute, whatever the path is. -/
theorem getElem?_zero_get_parent_path (path : Bytes) :
    (get_parent_path path)[0]? = some slash := by
  unfold get_parent_path
  split
  · rfl
  · next hl =>
    split
    · rfl
    · next h0 =>
      have h1 := one_le_parentScan path (path.length - 1) (by omega)
      rw [List.getElem?_take_of_lt (by omega)]
      exact not_not.mp h0

/-! ## One separator byte -/

theorem find_byte_none {d : UInt8} {rest : Bytes} (h : d ∉ rest) : find [d] rest = none := by
  induction rest with
  | nil => rfl
  | cons c rest ih =>
    simp only [List.mem_cons, not_or] at h
    unfold find
    rw [if_neg (by simp [h.1]), ih h.2]
    rfl

theorem find_byte_some {d : UInt8} {a b : Bytes} (h : d ∉ a) :
    find [d] (a ++ d :: b) = some a.length := by
  induction a with
  | nil => simp [find]
  | cons c a ih =>
    simp only [List.mem_cons, not_or] at h
    rw [List.cons_append, find, if_neg (by simp [h.1]), ih h.2]
    simp

/-- No piece of a split has the separator. -/
theorem notMem_of_mem_splitOn {d : UInt8} {piece s : Bytes} (h : piece ∈ s.splitOn d) :
    d ∉ piece := by
  induction s generalizing piece with
  | nil =>
    obtain rfl : piece = [] := by simpa using h
    exact List.not_mem_nil
  | cons c s ih =>
    rw [List.splitOn_cons_eq_if_modifyHead] at h
    split at h
    · rcases List.mem_cons.mp h with rfl | h
      · exact List.not_mem_nil
      · exact ih h
    · next hc =>
      obtain ⟨first, rest, hs⟩ := List.exists_cons_of_ne_nil (List.splitOn_ne_nil d s)
      rw [hs] at ih h
      rcases List.mem_cons.mp h with rfl | h
      · have hcd : d ≠ c := fun he => hc (by simp [he])
        have hfirst : d ∉ first := ih List.mem_cons_self
        simp [hcd, hfirst]
      · exact ih (List.mem_cons_of_mem _ h)

theorem splitLoop_byte (d : UInt8) (fuel : Nat) (rest : Bytes) (h : rest.length < fuel) :
    splitLoop [d] fuel rest = some (rest.splitOn d) := by
  induction fuel generalizing rest with
  | zero => omega
  | succ fuel ih =>
    unfold splitLoop
    by_cases hd : d ∈ rest
    · obtain ⟨a, b, rfl, ha⟩ := List.eq_append_cons_of_mem hd
      rw [find_byte_some ha]
      simp only [List.length_append, List.length_cons] at h
      have hdrop : (a ++ d :: b).drop (a.length + [d].length) = b := by simp [List.drop_append]
      simp only
      rw [hdrop, ih b (by omega), List.splitOn_append_cons_self_of_not_mem ha]
      simp
    · rw [find_byte_none hd, List.splitOn_eq_singleton hd]

/-- With one separator byte, `string_split` is the split of the library, and the empty text
has no piece. -/
theorem string_split_byte (s : Bytes) (d : UInt8) :
    string_split s [d] = if s = [] then [] else s.splitOn d := by
  unfold string_split
  split
  · rfl
  · next hs =>
    have : 1 ≤ s.length := List.length_pos_iff.mpr hs
    rw [if_neg (by simp; omega), splitLoop_byte d _ _ (Nat.lt_succ_self _), Option.getD_some]

theorem foldl_join (v : List Bytes) (sep acc : Bytes) :
    v.foldl (fun joined x => joined ++ x ++ sep) acc = acc ++ (v.flatMap (· ++ sep)) := by
  induction v generalizing acc with
  | nil => simp
  | cons x v ih => rw [List.foldl_cons, ih, List.flatMap_cons, List.append_assoc, List.append_assoc,
      List.append_assoc]

theorem string_join_nil (sep : Bytes) : string_join [] sep = [] := rfl

theorem string_join_singleton (x sep : Bytes) : string_join [x] sep = x := by
  simp [string_join]

theorem string_join_cons_cons (x y : Bytes) (v : List Bytes) (sep : Bytes) :
    string_join (x :: y :: v) sep = x ++ sep ++ string_join (y :: v) sep := by
  obtain ⟨back, hb⟩ : ∃ back, (y :: v).getLast? = some back :=
    Option.isSome_iff_exists.mp (by simp)
  unfold string_join
  rw [List.getLast?_cons_cons, hb, List.dropLast_cons_cons]
  simp only
  rw [foldl_join, foldl_join, List.flatMap_cons]
  simp only [List.nil_append, List.append_assoc]

/-- `string_join` is the `intercalate` of the library. -/
theorem string_join_eq (v : List Bytes) (sep : Bytes) : string_join v sep = sep.intercalate v := by
  induction v with
  | nil => simp [string_join_nil, List.intercalate]
  | cons x v ih =>
    rcases v with _ | ⟨y, v⟩
    · simp [string_join_singleton, List.intercalate]
    · rw [string_join_cons_cons, ih]
      simp [List.intercalate, List.intersperse]

/-- A text splits into one piece exactly when it has bytes and no separator. -/
theorem string_split_length_one {s : Bytes} {d : UInt8} (hs : s ≠ []) :
    (string_split s [d]).length = 1 ↔ d ∉ s := by
  rw [string_split_byte, if_neg hs]
  constructor
  · intro h hd
    obtain ⟨a, b, rfl, ha⟩ := List.eq_append_cons_of_mem hd
    rw [List.splitOn_append_cons_self_of_not_mem ha, List.length_cons] at h
    exact List.splitOn_ne_nil d b (List.length_eq_zero_iff.mp (by omega))
  · intro h
    rw [List.splitOn_eq_singleton h]
    rfl

end asio_ftp.helpers
