import LetDX.LetDD.Numerals

/-! # Printing the 128-bit integers and reading them back

In JSON they are strings of decimal digits.
-/

namespace LetDX.LetDD

open Bytes

/-! ## The library -/

/-- `bytes.TrimPrefix` -/
def trimPrefix (bytes leading : List U8) : List U8 :=
  if leading.isPrefixOf bytes then bytes.drop leading.length else bytes

/-- `bytes.TrimSuffix` -/
def trimSuffix (bytes trailing : List U8) : List U8 :=
  if trailing.isSuffixOf bytes then bytes.take (bytes.length - trailing.length) else bytes

def quotationMark : U8 := 0x22

def backslash : U8 := 0x5C

/-- The letters that stand for control characters behind a backslash. -/
def escapeLetters : List (U8 × Char) :=
  [(0x07, 'a'), (0x08, 'b'), (0x0C, 'f'), (0x0A, 'n'), (0x0D, 'r'), (0x09, 't'), (0x0B, 'v')]

def quotedByte (byte : U8) : List U8 :=
  if byte = quotationMark ∨ byte = backslash then [backslash, byte]
  else if 0x20 ≤ byte ∧ byte < 0x7F then [byte]
  else
    match escapeLetters.lookup byte with
    | some letter => [backslash, character letter]
    | none => [backslash, character 'x', character (Nat.digitChar (byte.toNat / 16)),
        character (Nat.digitChar (byte.toNat % 16))]

/-- The verb `%q` of `fmt`, for a text in ASCII. -/
def quoted (bytes : List U8) : List U8 :=
  quotationMark :: (bytes.flatMap quotedByte ++ [quotationMark])

/-! ## The integers -/

namespace Uint128

def string (u : Uint128) : Option (List U8) :=
  u.bytes

def marshalJSON (u : Uint128) : Option (List U8) :=
  u.bytes.map quoted

/-- The receiver afterwards, or nothing where an error leaves it as it was. -/
def unmarshalJSON (u : Uint128) (b : List U8) : Option Uint128 :=
  if b = text ['n', 'u', 'l', 'l'] then some u
  else parse (trimSuffix (trimPrefix b [quotationMark]) [quotationMark]) 10

end Uint128

/-! ## Numerals -/

/-- The numeral of a number, with no sign and no leading zero. -/
structure CanonicalNumeral (number : Nat) (numeral : List U8) : Prop where
  nonempty : numeral ≠ []
  value : ∃ figures, Figures 10 numeral figures ∧ Nat.ofDigits 10 figures.reverse = number
  leading : numeral.head? = some (digit 0) → numeral = [digit 0]

theorem digitValue_digit : ∀ figure < 10, digitValue (digit figure) = some figure := by
  decide

theorem exists_figures_decimal (number : Nat) :
    ∃ figures, Figures 10 (decimal number) figures ∧ Nat.ofDigits 10 figures.reverse = number := by
  induction number using Nat.strongRecOn with
  | ind number ih =>
      by_cases hsmall : number < 10
      · refine ⟨[number], ?_, by simp⟩
        rw [decimal_of_lt hsmall]
        exact .cons ⟨digitValue_digit number hsmall, hsmall⟩ .nil
      · have hlast : number % 10 < 10 := Nat.mod_lt _ (by decide)
        obtain ⟨figures, hfigures, hvalue⟩ := ih (number / 10) (by omega)
        refine ⟨figures ++ [number % 10], ?_, ?_⟩
        · rw [decimal_of_ge (Nat.not_lt.mp hsmall)]
          exact List.rel_append hfigures (.cons ⟨digitValue_digit _ hlast, hlast⟩ .nil)
        · rw [List.reverse_append, List.reverse_singleton, List.singleton_append,
            Nat.ofDigits_cons, hvalue]
          exact Nat.mod_add_div number 10

theorem decimal_ne_nil (number : Nat) : decimal number ≠ [] := by
  obtain hsmall | hlarge := Nat.lt_or_ge number 10
  · rw [decimal_of_lt hsmall]
    exact List.cons_ne_nil _ _
  · rw [decimal_of_ge hlarge]
    exact List.concat_ne_nil _ _

theorem head_decimal {number : Nat} (hpos : 0 < number) :
    (decimal number).head? ≠ some (digit 0) := by
  induction number using Nat.strongRecOn with
  | ind number ih =>
      by_cases hsmall : number < 10
      · have hdigit : ∀ figure < 10, 0 < figure → some (digit figure) ≠ some (digit 0) := by
          decide
        rw [decimal_of_lt hsmall]
        exact hdigit number hsmall hpos
      · rw [decimal_of_ge (Nat.not_lt.mp hsmall),
          List.head?_append_of_ne_nil _ (decimal_ne_nil _)]
        exact ih (number / 10) (by omega) (by omega)

theorem canonicalNumeral_decimal (number : Nat) : CanonicalNumeral number (decimal number) := by
  refine ⟨decimal_ne_nil number, exists_figures_decimal number, ?_⟩
  intro hleading
  cases number with
  | zero => rfl
  | succ number => exact absurd hleading (head_decimal number.succ_pos)

/-! ## Reading back -/

/-- Digits need no escapes. -/
theorem quoted_decimal (number : Nat) :
    quoted (decimal number) = quotationMark :: (decimal number ++ [quotationMark]) := by
  have hdigits : ∀ figure < 10, quotedByte (digit figure) = [digit figure] := by decide
  have hplain : (decimal number).flatMap quotedByte = (decimal number).flatMap ([·]) := by
    refine List.flatMap_congr fun byte hbyte => ?_
    obtain ⟨figure, hfigure, rfl⟩ := mem_decimal hbyte
    exact hdigits figure hfigure
  rw [quoted, hplain, List.flatMap_singleton']

theorem trim_quoted (bytes : List U8) :
    trimSuffix (trimPrefix (quotationMark :: (bytes ++ [quotationMark])) [quotationMark])
      [quotationMark] = bytes := by
  have hleading : trimPrefix (quotationMark :: (bytes ++ [quotationMark])) [quotationMark] =
      bytes ++ [quotationMark] :=
    if_pos rfl
  have htrailing : [quotationMark].isSuffixOf (bytes ++ [quotationMark]) = true :=
    List.isSuffixOf_iff_suffix.mpr ⟨bytes, rfl⟩
  rw [hleading, trimSuffix, if_pos htrailing, List.length_append, Nat.add_sub_cancel,
    List.take_left]

namespace Uint128

theorem toNat_injective {u v : Uint128} (hsame : u.toNat = v.toNat) : u = v := by
  obtain ⟨high, low⟩ := u
  obtain ⟨high', low'⟩ := v
  have hlow := low.isLt
  have hlow' := low'.isLt
  simp only [toNat] at hsame
  have hhighs : high = high' := BitVec.eq_of_toNat_eq (by omega)
  have hlows : low = low' := BitVec.eq_of_toNat_eq (by omega)
  rw [hhighs, hlows]

/-- The words of a printed integer are read back. -/
theorem parse_decimal (u : Uint128) : parse (decimal u.toNat) 10 = some u := by
  have hlt := u.toNat_lt
  have hfits : ¬(u.toNat : Int) > 2 ^ 128 - 1 := by omega
  obtain ⟨figures, hfigures, hvalue⟩ := exists_figures_decimal u.toNat
  have hdenotes := Denotes.unsigned (decimal_ne_nil u.toNat) hfigures
  rw [hvalue] at hdenotes
  rw [parse_of_denotes hdenotes, if_neg hfits, Option.some.injEq]
  exact toNat_injective (toNat_words hlt)

/-- An integer is printed as its canonical numeral, without a panic in the buffer
of forty bytes, and it is read back from that and from its JSON. -/
theorem print_and_read_back (u : Uint128) : ∃ numeral, u.bytes = some numeral ∧
    numeral.length ≤ 40 ∧ CanonicalNumeral u.toNat numeral ∧
    u.string = some numeral ∧ parse numeral 10 = some u ∧
    ∃ json, u.marshalJSON = some json ∧
      ∀ receiver : Uint128, receiver.unmarshalJSON json = some u := by
  have hbytes := u.bytes_eq
  refine ⟨decimal u.toNat, hbytes, u.length_decimal_toNat_le.trans (by decide),
    canonicalNumeral_decimal u.toNat, hbytes, u.parse_decimal, quoted (decimal u.toNat), ?_, ?_⟩
  · rw [marshalJSON, hbytes, Option.map_some]
  · intro receiver
    have hquoted := quoted_decimal u.toNat
    have hnull : quoted (decimal u.toNat) ≠ text ['n', 'u', 'l', 'l'] := by
      intro hsame
      cases (List.cons.inj (hquoted.symm.trans hsame)).1
    rw [unmarshalJSON, if_neg hnull, hquoted, trim_quoted, parse_decimal]

end Uint128

end LetDX.LetDD
