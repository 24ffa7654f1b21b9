import LetDX.Bytes.LittleEndian
import LetDX.Bytes.Numerals
import Mathlib.Data.List.TakeWhile

/-! # Unsigned integers at the front of a string

How the C library reads one in base ten: it skips white space, takes a sign and
the digits behind it, and leaves the rest. A minus negates the result modulo 2^64.
-/

namespace LetDX.Bytes

/-- `isspace` in the C locale. -/
def isBlank (byte : Byte) : Bool :=
  byte = 0x20 ∨ 0x09 ≤ byte ∧ byte ≤ 0x0D

def isDecimal (byte : Byte) : Bool :=
  0x30 ≤ byte ∧ byte ≤ 0x39

/-- The number that a digit stands for. -/
def figure (byte : Byte) : Nat :=
  byte.toNat - 0x30

inductive Sign
  | absent
  | plus
  | minus
  deriving DecidableEq, Repr

namespace Sign

def bytes : Sign → List Byte
  | absent => []
  | plus => [0x2B]
  | minus => [0x2D]

/-- The integer with this sign in front. -/
def apply : Sign → Nat → Int
  | minus, magnitude => -magnitude
  | absent, magnitude | plus, magnitude => magnitude

theorem apply_of_ne {sign : Sign} (hsign : sign ≠ .minus) (magnitude : Nat) :
    sign.apply magnitude = magnitude := by
  cases sign with
  | absent => rfl
  | plus => rfl
  | minus => exact (hsign rfl).elim

end Sign

/-- The parts of a string that is read as an integer. -/
structure Scanned where
  blanks : List Byte
  sign : Sign
  digits : List Byte
  rest : List Byte
  deriving DecidableEq, Repr

def scanSign : List Byte → Sign × List Byte
  | [] => (.absent, [])
  | byte :: rest =>
      if byte = 0x2D then (.minus, rest)
      else if byte = 0x2B then (.plus, rest)
      else (.absent, byte :: rest)

def scan (input : List Byte) : Scanned :=
  let (sign, rest) := scanSign (input.dropWhile isBlank)
  { blanks := input.takeWhile isBlank
    sign
    digits := rest.takeWhile isDecimal
    rest := rest.dropWhile isDecimal }

/-- The number of the digits. -/
def Scanned.magnitude (scanned : Scanned) : Nat :=
  scanned.digits.foldl (fun value byte => value * 10 + figure byte) 0

/-- What the library returns, how far it has come, and whether it has set `errno`
to `ERANGE`. -/
structure Strtoul where
  value : BitVec 64
  consumed : Nat
  outOfRange : Bool
  deriving DecidableEq, Repr

/-- `strtoul` in base ten. Without a digit it has not come anywhere. -/
def strtoul (input : List Byte) : Strtoul :=
  let scanned := scan input
  if scanned.digits = [] then { value := 0, consumed := 0, outOfRange := false }
  else
    let consumed := input.length - scanned.rest.length
    if 2 ^ 64 ≤ scanned.magnitude then
      { value := BitVec.allOnes 64, consumed, outOfRange := true }
    else
      let value := BitVec.ofNat 64 scanned.magnitude
      { value := if scanned.sign = .minus then -value else value, consumed, outOfRange := false }

/-! ## Numerals -/

/-- The integer that a numeral denotes: digits and, where signs count, a sign in
front of them. -/
inductive DecimalNumeral (signs : Bool) : List Byte → Int → Prop
  | mk {sign : Sign} {digits : List Byte} (hsign : signs = true ∨ sign = .absent)
      (hdigits : digits ≠ []) (hdecimal : ∀ byte ∈ digits, isDecimal byte) :
      DecimalNumeral signs (sign.bytes ++ digits)
        (sign.apply (Nat.ofDigits 10 (digits.map figure).reverse))

section Scanning

variable {input digits : List Byte} {sign : Sign}

theorem foldl_figure (value : Nat) (digits : List Byte) :
    digits.foldl (fun value byte => value * 10 + figure byte) value =
      readFrom 10 value (digits.map figure) := by
  induction digits generalizing value with
  | nil => rw [List.foldl_nil, List.map_nil, readFrom_nil]
  | cons byte digits ih => rw [List.foldl_cons, ih, List.map_cons, readFrom_cons]

theorem Scanned.magnitude_eq (scanned : Scanned) :
    scanned.magnitude = Nat.ofDigits 10 (scanned.digits.map figure).reverse := by
  rw [magnitude, foldl_figure, readFrom_zero]

theorem scanSign_append (input : List Byte) :
    (scanSign input).1.bytes ++ (scanSign input).2 = input := by
  fun_cases scanSign input with
  | case1 => rfl
  | case2 rest => rfl
  | case3 rest => rfl
  | case4 byte rest => rfl

/-- The parts make up the string. -/
theorem scan_append (input : List Byte) :
    (scan input).blanks ++ ((scan input).sign.bytes ++ ((scan input).digits ++ (scan input).rest)) =
      input := by
  simp only [scan, List.takeWhile_append_dropWhile, scanSign_append]

theorem isDecimal_of_mem_digits {byte : Byte} (hbyte : byte ∈ (scan input).digits) :
    isDecimal byte :=
  List.mem_takeWhile_imp hbyte

/-- A digit is neither a blank nor a sign. -/
theorem not_isBlank_of_isDecimal : ∀ byte : Byte, isDecimal byte = true →
    isBlank byte = false ∧ byte ≠ 0x2D ∧ byte ≠ 0x2B := by
  decide

/-- A sign and digits are found where there is nothing else. -/
theorem scan_eq_of_decimal (sign : Sign) (hdigits : digits ≠ [])
    (hdecimal : ∀ byte ∈ digits, isDecimal byte) :
    scan (sign.bytes ++ digits) = { blanks := [], sign, digits, rest := [] } := by
  obtain ⟨byte, rest, rfl⟩ := List.exists_cons_of_ne_nil hdigits
  obtain ⟨hblank, hminus, hplus⟩ := not_isBlank_of_isDecimal byte (hdecimal byte (by simp))
  have htake : (byte :: rest).takeWhile isDecimal = byte :: rest :=
    List.takeWhile_eq_self_iff.mpr hdecimal
  have hdrop : (byte :: rest).dropWhile isDecimal = [] := List.dropWhile_eq_nil_iff.mpr hdecimal
  have hfirst : (sign.bytes ++ byte :: rest).takeWhile isBlank = [] ∧
      (sign.bytes ++ byte :: rest).dropWhile isBlank = sign.bytes ++ byte :: rest := by
    cases sign with
    | absent =>
        have hneg : ¬isBlank byte = true := Bool.eq_false_iff.mp hblank
        exact ⟨List.takeWhile_cons_of_neg hneg, List.dropWhile_cons_of_neg hneg⟩
    | plus => exact ⟨rfl, rfl⟩
    | minus => exact ⟨rfl, rfl⟩
  have hscan : scanSign (sign.bytes ++ byte :: rest) = (sign, byte :: rest) := by
    cases sign with
    | absent => rw [Sign.bytes, List.nil_append, scanSign, if_neg hminus, if_neg hplus]
    | plus => rfl
    | minus => rfl
  rw [scan, hfirst.1, hfirst.2, hscan]
  dsimp only
  rw [htake, hdrop]

/-- Nothing stands around the digits but a sign that counts. -/
def Scanned.Alone (signs : Bool) (scanned : Scanned) : Prop :=
  scanned.blanks = [] ∧ scanned.rest = [] ∧ (signs = true ∨ scanned.sign = .absent)

/-- A numeral is a string in which nothing else is found. -/
theorem decimalNumeral_iff {signs : Bool} {number : Int} : DecimalNumeral signs input number ↔
    (scan input).digits ≠ [] ∧ (scan input).Alone signs ∧
      number = (scan input).sign.apply (scan input).magnitude := by
  constructor
  · rintro ⟨hsign, hdigits, hdecimal⟩
    rw [scan_eq_of_decimal _ hdigits hdecimal, Scanned.magnitude_eq]
    exact ⟨hdigits, ⟨rfl, rfl, hsign⟩, rfl⟩
  · rintro ⟨hdigits, ⟨hblanks, hrest, hsign⟩, rfl⟩
    have hinput := scan_append input
    rw [hblanks, hrest, List.nil_append, List.append_nil] at hinput
    rw [Scanned.magnitude_eq]
    nth_rewrite 1 [← hinput]
    exact .mk hsign hdigits fun _ => isDecimal_of_mem_digits

end Scanning

/-! ## What is returned -/

section Returned

variable {input : List Byte}

/-- Nothing has been consumed exactly when there is no digit. -/
theorem strtoul_consumed_eq_zero_iff :
    (strtoul input).consumed = 0 ↔ (scan input).digits = [] := by
  by_cases hdigits : (scan input).digits = []
  · rw [strtoul, if_pos hdigits]
    exact iff_of_true rfl hdigits
  · have hlength := congrArg List.length (scan_append input)
    have hpositive := List.length_pos_of_ne_nil hdigits
    simp only [List.length_append] at hlength
    have hconsumed : (strtoul input).consumed = input.length - (scan input).rest.length := by
      rw [strtoul, if_neg hdigits]
      dsimp only
      split <;> rfl
    rw [hconsumed]
    exact iff_of_false (by omega) hdigits

theorem strtoul_outOfRange_iff (hdigits : (scan input).digits ≠ []) :
    (strtoul input).outOfRange = true ↔ 2 ^ 64 ≤ (scan input).magnitude := by
  rw [strtoul, if_neg hdigits]
  dsimp only
  split
  next hlarge => exact iff_of_true rfl hlarge
  next hsmall => exact iff_of_false (fun htrue => by cases htrue) hsmall

/-- A number in range is returned modulo 2^64. -/
theorem strtoul_value (hdigits : (scan input).digits ≠ [])
    (hsmall : (scan input).magnitude < 2 ^ 64) : (strtoul input).value =
      BitVec.ofInt 64 ((scan input).sign.apply (scan input).magnitude) := by
  rw [strtoul, if_neg hdigits]
  dsimp only
  rw [if_neg (Nat.not_le.mpr hsmall)]
  cases (scan input).sign with
  | absent => exact (BitVec.ofInt_natCast 64 _).symm
  | plus => exact (BitVec.ofInt_natCast 64 _).symm
  | minus =>
      rw [Sign.apply, BitVec.ofInt_neg, BitVec.ofInt_natCast]
      rfl

example : strtoul [0x20, 0x2D, 0x34, 0x32, 0x78] =
    { value := -42, consumed := 4, outOfRange := false } := by
  decide

end Returned

end LetDX.Bytes
