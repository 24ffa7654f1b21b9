import LetDX.Bytes.Numerals
import LetDX.LetDD.Tcp.Response

/-! # Numerals that the proxy parses

A numeral is an optional sign and at least one digit of the base. Parsing keeps
the number of a numeral in two words, which is exact for the numbers of 128
bits; only numbers above them are turned away.
-/

namespace LetDX.LetDD

open Bytes

/-- The bytes are digits of the base and stand for these figures. -/
def Figures (base : Nat) : List U8 → List Nat → Prop :=
  List.Forall₂ fun byte figure => digitValue byte = some figure ∧ figure < base

/-- The integer that a numeral denotes. -/
inductive Denotes (base : Nat) : List U8 → Int → Prop
  | unsigned {digits : List U8} {figures : List Nat} (hdigits : digits ≠ [])
      (hfigures : Figures base digits figures) :
      Denotes base digits (Nat.ofDigits base figures.reverse : Nat)
  | plus {digits : List U8} {figures : List Nat} (hdigits : digits ≠ [])
      (hfigures : Figures base digits figures) :
      Denotes base (character '+' :: digits) (Nat.ofDigits base figures.reverse : Nat)
  | minus {digits : List U8} {figures : List Nat} (hdigits : digits ≠ [])
      (hfigures : Figures base digits figures) :
      Denotes base (character '-' :: digits) (-(Nat.ofDigits base figures.reverse : Nat))

section Digits

variable {base value number : Nat} {input : List U8} {figures : List Nat}

theorem digitsValue_of_figures (hfigures : Figures base input figures) :
    digitsValue base value input = some (readFrom base value figures) := by
  induction hfigures generalizing value with
  | nil => rw [digitsValue, readFrom_nil]
  | cons hbyte _ ih =>
      obtain ⟨hdigit, hless⟩ := hbyte
      rw [digitsValue, hdigit]
      dsimp only
      rw [if_pos hless, ih, readFrom_cons]

theorem exists_figures (hvalue : digitsValue base value input = some number) :
    ∃ figures, Figures base input figures ∧ number = readFrom base value figures := by
  induction input generalizing value with
  | nil =>
      rw [digitsValue, Option.some.injEq] at hvalue
      exact ⟨[], .nil, by rw [readFrom_nil, hvalue]⟩
  | cons byte input ih =>
      rw [digitsValue] at hvalue
      split at hvalue
      next => nomatch hvalue
      next figure hdigit =>
        split at hvalue
        next hless =>
          obtain ⟨figures, hfigures, hnumber⟩ := ih hvalue
          exact ⟨figure :: figures, .cons ⟨hdigit, hless⟩ hfigures, by rw [readFrom_cons, hnumber]⟩
        next => nomatch hvalue

/-- Digits are read without a remainder, and nothing else is. -/
theorem digitsValue_eq_some_iff : digitsValue base 0 input = some number ↔
    ∃ figures, Figures base input figures ∧ number = Nat.ofDigits base figures.reverse := by
  constructor
  · intro hvalue
    obtain ⟨figures, hfigures, hnumber⟩ := exists_figures hvalue
    exact ⟨figures, hfigures, hnumber.trans readFrom_zero⟩
  · rintro ⟨figures, hfigures, rfl⟩
    rw [digitsValue_of_figures hfigures, readFrom_zero]

theorem Figures.head_ne_sign {byte : U8} (hfigures : Figures base (byte :: input) figures) :
    byte ≠ character '-' ∧ byte ≠ character '+' := by
  cases hfigures with
  | cons hbyte _ =>
      constructor
      · rintro rfl
        nomatch hbyte.1
      · rintro rfl
        nomatch hbyte.1

end Digits

/-! ## Signs -/

section Signs

variable {base : Nat} {input : List U8} {number : Int}

theorem setString_minus (rest : List U8) : setString (character '-' :: rest) base =
    if rest = [] then none
    else (digitsValue base 0 rest).map fun value => (-(value : Nat) : Int) := by
  simp only [setString, if_true]
  split
  · rfl
  · cases digitsValue base 0 rest <;> rfl

theorem setString_plus (rest : List U8) : setString (character '+' :: rest) base =
    if rest = [] then none
    else (digitsValue base 0 rest).map fun value => ((value : Nat) : Int) := by
  have hsign : character '+' ≠ character '-' := by decide
  simp only [setString, if_neg hsign, if_true]
  split <;> rfl

/-- Digits behind a sign, if the sign maps their value to this number. -/
theorem signed_eq_some_iff {sign : Nat → Int} {rest : List U8} :
    (if rest = [] then none else (digitsValue base 0 rest).map sign) = some number ↔
      rest ≠ [] ∧ ∃ figures, Figures base rest figures ∧
        number = sign (Nat.ofDigits base figures.reverse) := by
  by_cases hrest : rest = []
  · simp [hrest]
  · rw [if_neg hrest, Option.map_eq_some_iff]
    constructor
    · rintro ⟨value, hvalue, rfl⟩
      obtain ⟨figures, hfigures, rfl⟩ := digitsValue_eq_some_iff.mp hvalue
      exact ⟨hrest, figures, hfigures, rfl⟩
    · rintro ⟨_, figures, hfigures, rfl⟩
      exact ⟨_, digitsValue_eq_some_iff.mpr ⟨figures, hfigures, rfl⟩, rfl⟩

/-- The library reads a string exactly as the integer that it denotes. -/
theorem setString_eq_some_iff : setString input base = some number ↔ Denotes base input number := by
  constructor
  · intro hread
    cases input with
    | nil => nomatch hread
    | cons sign rest =>
        by_cases hminus : sign = character '-'
        · rw [hminus, setString_minus, signed_eq_some_iff] at hread
          obtain ⟨hrest, figures, hfigures, rfl⟩ := hread
          exact hminus ▸ .minus hrest hfigures
        by_cases hplus : sign = character '+'
        · rw [hplus, setString_plus, signed_eq_some_iff] at hread
          obtain ⟨hrest, figures, hfigures, rfl⟩ := hread
          exact hplus ▸ .plus hrest hfigures
        · rw [setString_digits rest hminus hplus, Option.map_eq_some_iff] at hread
          obtain ⟨value, hvalue, rfl⟩ := hread
          obtain ⟨figures, hfigures, rfl⟩ := digitsValue_eq_some_iff.mp hvalue
          exact .unsigned (List.cons_ne_nil _ _) hfigures
  · intro hdenotes
    cases hdenotes with
    | unsigned hdigits hfigures =>
        cases input with
        | nil => exact (hdigits rfl).elim
        | cons byte input =>
            obtain ⟨hminus, hplus⟩ := hfigures.head_ne_sign
            rw [setString_digits input hminus hplus,
              digitsValue_eq_some_iff.mpr ⟨_, hfigures, rfl⟩]
            rfl
    | plus hdigits hfigures =>
        rw [setString_plus]
        exact signed_eq_some_iff.mpr ⟨hdigits, _, hfigures, rfl⟩
    | minus hdigits hfigures =>
        rw [setString_minus]
        exact signed_eq_some_iff.mpr ⟨hdigits, _, hfigures, rfl⟩

theorem Denotes.input_ne_nil (hdenotes : Denotes base input number) : input ≠ [] := by
  cases hdenotes with
  | unsigned hdigits => exact hdigits
  | plus => exact List.cons_ne_nil _ _
  | minus => exact List.cons_ne_nil _ _

end Signs

/-! ## Two words -/

namespace Uint128

variable {base : Nat} {input : List U8}

theorem parse_of_denotes {number : Int} (hdenotes : Denotes base input number) :
    parse input base =
      if number > 2 ^ 128 - 1 then none
      else some
        { high := BitVec.ofNat 64 (number / 2 ^ 64).natAbs
          low := BitVec.ofNat 64 (number % 2 ^ 64).toNat } := by
  rw [parse, if_neg hdenotes.input_ne_nil, setString_eq_some_iff.mpr hdenotes]

theorem parse_of_not_denotes (hno : ∀ number, ¬Denotes base input number) :
    parse input base = none := by
  have hread : setString input base = none :=
    Option.eq_none_iff_forall_ne_some.mpr fun number hread =>
      hno number (setString_eq_some_iff.mp hread)
  rw [parse, hread]
  split <;> rfl

/-- The two words of a number of 128 bits are its quotient and its remainder. -/
theorem toNat_words {number : Nat} (hnumber : number < 2 ^ 128) :
    toNat { high := BitVec.ofNat 64 ((number : Int) / 2 ^ 64).natAbs
            low := BitVec.ofNat 64 ((number : Int) % 2 ^ 64).toNat } = number := by
  have hhigh : ((number : Int) / 2 ^ 64).natAbs = number / 2 ^ 64 := by omega
  have hlow : ((number : Int) % 2 ^ 64).toNat = number % 2 ^ 64 := by omega
  rw [toNat, BitVec.toNat_ofNat, BitVec.toNat_ofNat, hhigh, hlow]
  omega

/-- Only the strings that denote a number of 128 bits are parsed, and to that number. -/
structure ParsesExactly (base : Nat) (input : List U8) : Prop where
  value : ∀ parsed, parse input base = some parsed →
    ∃ number, Denotes base input number ∧ 0 ≤ number ∧ number < 2 ^ 128 ∧ parsed.toNat = number
  outside : ∀ number, Denotes base input number → number < 0 ∨ 2 ^ 128 ≤ number →
    parse input base = none
  malformed : (∀ number, ¬Denotes base input number) → parse input base = none

theorem parsesExactly_iff_of_base (base : Nat) (input : List U8) :
    ParsesExactly base input ↔ ¬∃ number < 0, Denotes base input number := by
  constructor
  · rintro hexact ⟨number, hnegative, hdenotes⟩
    have hsmall : ¬number > 2 ^ 128 - 1 := by omega
    have hnone := hexact.outside number hdenotes (.inl hnegative)
    rw [parse_of_denotes hdenotes, if_neg hsmall] at hnone
    nomatch hnone
  · intro hpositive
    have hnonnegative (number : Int) (hdenotes : Denotes base input number) : 0 ≤ number :=
      Int.not_lt.mp fun hnegative => hpositive ⟨number, hnegative, hdenotes⟩
    refine ⟨fun parsed hparsed => ?_, fun number hdenotes houtside => ?_, parse_of_not_denotes⟩
    · by_cases hexists : ∃ number, Denotes base input number
      · obtain ⟨number, hdenotes⟩ := hexists
        obtain ⟨value, rfl⟩ := Int.eq_ofNat_of_zero_le (hnonnegative number hdenotes)
        rw [parse_of_denotes hdenotes] at hparsed
        split at hparsed
        next => nomatch hparsed
        next hfits =>
          obtain rfl := Option.some.inj hparsed
          exact ⟨value, hdenotes, by omega, by omega, by rw [toNat_words (by omega)]⟩
      · rw [parse_of_not_denotes fun number hdenotes => hexists ⟨number, hdenotes⟩] at hparsed
        nomatch hparsed
    · have hlarge : number > 2 ^ 128 - 1 := by
        have := hnonnegative number hdenotes
        omega
      rw [parse_of_denotes hdenotes, if_pos hlarge]

/-- In either base that the proxy uses a string is parsed exactly unless it denotes
a negative integer: the check is against the greatest number of 128 bits only. -/
theorem parsesExactly_iff (input : List U8) :
    (ParsesExactly 10 input ↔ ¬∃ number < 0, Denotes 10 input number) ∧
      (ParsesExactly 16 input ↔ ¬∃ number < 0, Denotes 16 input number) :=
  ⟨parsesExactly_iff_of_base 10 input, parsesExactly_iff_of_base 16 input⟩

/-- Minus one has both words. -/
theorem not_parsesExactly_minus_one : ¬ParsesExactly 10 (text ['-', '1']) := by
  intro hexact
  have hparsed : parse (text ['-', '1']) 10 = some { high := 1, low := BitVec.allOnes 64 } := by
    decide
  obtain ⟨number, hdenotes, hpositive, _⟩ := hexact.value _ hparsed
  have hnumber : setString (text ['-', '1']) 10 = some (-1) := by decide
  rw [setString_eq_some_iff.mpr hdenotes, Option.some.injEq] at hnumber
  omega

end Uint128

end LetDX.LetDD
