-- The strings of the server. A `std::string` is a row of bytes, so a name or a
-- control line here is a list of bytes, with no reading of its encoding.
import Mathlib.Data.Nat.Digits.Lemmas
import Mathlib.Data.List.TakeWhile

namespace asio_ftp

abbrev Bytes := List UInt8

/-- The bytes of an ASCII literal. -/
def lit (s : String) : Bytes := s.toList.map (fun c => c.toNat.toUInt8)

/-- The byte '/'. -/
def slash : UInt8 := 47

/-- The byte ' '. -/
def space : UInt8 := 32

def CR : UInt8 := 13

def LF : UInt8 := 10

def crlf : Bytes := [CR, LF]

/-- What `std::string((const char *)p)` keeps of a text: the bytes before the first NUL. -/
def c_str (b : Bytes) : Bytes := b.takeWhile (fun c => c ≠ 0)

theorem c_str_eq_self {b : Bytes} (h : ∀ c ∈ b, c ≠ 0) : c_str b = b := by
  unfold c_str
  rw [List.takeWhile_eq_self_iff]
  simpa using h

/-! ## Decimal numbers -/

/-- The decimal digits of `n`, as `std::to_string` writes them. -/
def digits (n : Nat) : Bytes :=
  if n = 0 then [48] else ((Nat.digits 10 n).map (fun d => (48 + d).toUInt8)).reverse

/-- `std::to_string` of a `long long`. -/
def to_string (n : Int) : Bytes :=
  if n < 0 then 45 :: digits n.natAbs else digits n.natAbs

/-- The value of a row of decimal digits. -/
def digitsValue (b : Bytes) : Nat := b.foldl (fun acc c => acc * 10 + (c.toNat - 48)) 0

/-- `std::stoll` of a text that is a decimal number. -/
def stoll : Bytes → Int
  | 45 :: rest => - (digitsValue rest : Int)
  | b => (digitsValue b : Int)

theorem foldl_value_append (b : Bytes) (c : UInt8) :
    digitsValue (b ++ [c]) = digitsValue b * 10 + (c.toNat - 48) := by
  simp [digitsValue, List.foldl_append]

theorem digitsValue_reverse (ds : List Nat) (h : ∀ d ∈ ds, d < 10) :
    digitsValue ((ds.map (fun d => (48 + d).toUInt8)).reverse) = Nat.ofDigits 10 ds := by
  induction ds with
  | nil => rfl
  | cons d ds ih =>
    have hd : d < 10 := h d List.mem_cons_self
    have hc : ((48 + d).toUInt8).toNat - 48 = d := by
      rw [Nat.toUInt8, UInt8.toNat_ofNat']
      omega
    rw [List.map_cons, List.reverse_cons, foldl_value_append,
      ih (fun x hx => h x (List.mem_cons_of_mem _ hx)), hc, Nat.ofDigits_cons]
    ring

theorem digitsValue_digits (n : Nat) : digitsValue (digits n) = n := by
  unfold digits
  split
  · next h => subst h; rfl
  · rw [digitsValue_reverse _ (fun d hd => Nat.digits_lt_base (by omega) hd), Nat.ofDigits_digits]

/-- A digit is neither the sign nor a NUL. -/
theorem le_of_mem_digits {n : Nat} {c : UInt8} (hc : c ∈ digits n) : 48 ≤ c.toNat := by
  unfold digits at hc
  split at hc
  · rw [List.mem_singleton.mp hc]
    decide
  · simp only [List.mem_reverse, List.mem_map] at hc
    obtain ⟨d, hd, rfl⟩ := hc
    have hd10 : d < 10 := Nat.digits_lt_base (by omega) hd
    rw [Nat.toUInt8, UInt8.toNat_ofNat']
    omega

/-- A decimal number is read whole, because it has no NUL. -/
theorem c_str_to_string (n : Int) : c_str (to_string n) = to_string n := by
  have hdigit : ∀ m, ∀ c ∈ digits m, c ≠ 0 := by
    rintro m c hc rfl
    exact absurd (le_of_mem_digits hc) (by decide)
  refine c_str_eq_self (fun c hc => ?_)
  unfold to_string at hc
  split at hc
  · rcases List.mem_cons.mp hc with rfl | hc
    · decide
    · exact hdigit _ c hc
  · exact hdigit _ c hc

/-- A number that was written in decimal reads back. -/
theorem stoll_to_string (n : Int) : stoll (to_string n) = n := by
  unfold to_string
  split
  · next h =>
    simp only [stoll, digitsValue_digits]
    omega
  · next h =>
    have hne : ∀ rest, digits n.natAbs ≠ 45 :: rest := by
      intro rest he
      have hc : (45 : UInt8) ∈ digits n.natAbs := by rw [he]; exact List.mem_cons_self
      exact absurd (le_of_mem_digits hc) (by decide)
    have hst : stoll (digits n.natAbs) = (digitsValue (digits n.natAbs) : Int) := by
      unfold stoll
      split
      · next rest he => exact absurd he (hne rest)
      · rfl
    rw [hst, digitsValue_digits]
    omega

end asio_ftp
