import LetDX.Bytes.Decimal
import LetDX.Common

/-! # The 128-bit integers of the proxy and their printer

A result of `none` is a run-time panic.
-/

namespace LetDX.LetDD

open Bytes

structure Uint128 where
  high : U64
  low : U64
  deriving DecidableEq, Repr

def quintillion : U64 := 1000000000000000000

/-- `bits.Div64`, which panics if the quotient does not fit in a word. -/
def div64 (hi lo y : U64) : Option (U64 × U64) :=
  if y ≤ hi then none
  else
    let value := hi.toNat * 2 ^ 64 + lo.toNat
    some (BitVec.ofNat 64 (value / y.toNat), BitVec.ofNat 64 (value % y.toNat))

namespace Uint128

def toNat (u : Uint128) : Nat :=
  u.high.toNat * 2 ^ 64 + u.low.toNat

def toU128 (u : Uint128) : U128 :=
  u.high ++ u.low

/-- The number divided by 10^18, and the remainder. -/
def divide (u : Uint128) : Option (Uint128 × U64) := do
  let (high, remHigh) ← div64 0 u.high quintillion
  let (low, rem) ← div64 remHigh u.low quintillion
  return ({ high, low }, rem)

/-- The digits of one remainder, written in front of the filled part of the
buffer. With nothing left to divide it stops at the leading digit. -/
def bytesChunk (final : Bool) : Nat → U64 → List U8 → Option (List U8)
  | 0, _, buffer => some buffer
  | count + 1, rem, buffer =>
      if buffer.length = 40 then none
      else
        let buffer := (0x30 + (rem % 10).setWidth 8) :: buffer
        let rem := rem / 10
        if final ∧ rem = 0 then some buffer
        else bytesChunk final count rem buffer

end Uint128

/-! ## Division -/

theorem div64_eq (lo : U64) {hi y : U64} (hhi : hi.toNat < y.toNat) :
    ∃ quotient rem, div64 hi lo y = some (quotient, rem) ∧
      quotient.toNat = (hi.toNat * 2 ^ 64 + lo.toNat) / y.toNat ∧
      rem.toNat = (hi.toNat * 2 ^ 64 + lo.toNat) % y.toNat := by
  have hdivides : ¬y ≤ hi := BitVec.not_le.mpr (BitVec.lt_def.mpr hhi)
  have hy : 0 < y.toNat := Nat.zero_lt_of_lt hhi
  have hquotient : (hi.toNat * 2 ^ 64 + lo.toNat) / y.toNat < 2 ^ 64 := by
    rw [Nat.div_lt_iff_lt_mul hy]
    calc hi.toNat * 2 ^ 64 + lo.toNat < hi.toNat * 2 ^ 64 + 2 ^ 64 := Nat.add_lt_add_left lo.isLt _
      _ = (hi.toNat + 1) * 2 ^ 64 := (Nat.succ_mul _ _).symm
      _ ≤ y.toNat * 2 ^ 64 := Nat.mul_le_mul_right _ hhi
      _ = 2 ^ 64 * y.toNat := Nat.mul_comm _ _
  have hrem : (hi.toNat * 2 ^ 64 + lo.toNat) % y.toNat < 2 ^ 64 :=
    (Nat.mod_lt _ hy).trans y.isLt
  refine ⟨_, _, if_neg hdivides, ?_, ?_⟩
  · rw [BitVec.toNat_ofNat, Nat.mod_eq_of_lt hquotient]
  · rw [BitVec.toNat_ofNat, Nat.mod_eq_of_lt hrem]

/-- One digit of a division by hand. -/
theorem mul_add_eq_quotient (high low base divisor : Nat) :
    high * base + low =
      divisor * (high / divisor * base) + (high % divisor * base + low) := by
  conv_lhs => rw [← Nat.div_add_mod high divisor]
  ring

namespace Uint128

theorem toNat_toU128 (u : Uint128) : u.toU128.toNat = u.toNat := by
  rw [toU128, BitVec.toNat_append, Nat.shiftLeft_eq, toNat, Nat.mul_comm,
    Nat.two_pow_add_eq_or_of_lt u.low.isLt]

theorem toNat_lt (u : Uint128) : u.toNat < 2 ^ 128 :=
  u.toNat_toU128 ▸ u.toU128.isLt

theorem eq_zero_iff (u : Uint128) : (u.high = 0 ∧ u.low = 0) ↔ u.toNat = 0 := by
  rw [BitVec.toNat_eq, BitVec.toNat_eq, toNat]
  simp

theorem divide_eq (u : Uint128) : ∃ quotient rem, u.divide = some (quotient, rem) ∧
    quotient.toNat = u.toNat / 10 ^ 18 ∧ rem.toNat = u.toNat % 10 ^ 18 := by
  have hless : (0 : U64).toNat < quintillion.toNat := by decide
  have hzero : (0 : U64).toNat = 0 := rfl
  have hquintillion : quintillion.toNat = 10 ^ 18 := rfl
  obtain ⟨high, remHigh, hhigh, hhighQuotient, hhighRem⟩ := div64_eq u.high hless
  rw [hquintillion, hzero, Nat.zero_mul, Nat.zero_add] at hhighQuotient hhighRem
  have hremHigh : remHigh.toNat < quintillion.toNat := by
    rw [hhighRem, hquintillion]
    exact Nat.mod_lt _ (by decide)
  -- The remainder of the high word is below the divisor, so this does not panic.
  obtain ⟨low, rem, hlow, hlowQuotient, hlowRem⟩ := div64_eq u.low hremHigh
  rw [hquintillion] at hlowQuotient hlowRem
  refine ⟨{ high, low }, rem, ?_, ?_, ?_⟩
  · rw [divide, hhigh]
    simp only [Option.bind_eq_bind, Option.bind_some, hlow]
    rfl
  · rw [toNat, toNat, mul_add_eq_quotient u.high.toNat _ _ (10 ^ 18),
      Nat.mul_add_div (by decide), ← hhighRem,
      ← hhighQuotient, ← hlowQuotient]
  · rw [toNat, mul_add_eq_quotient _ _ _ (10 ^ 18), Nat.mul_add_mod, ← hhighRem, ← hlowRem]

/-- The loop of the printer. -/
def bytesLoop (u : Uint128) (buffer : List U8) : Option (List U8) :=
  if _hzero : u.high = 0 ∧ u.low = 0 then some buffer
  else
    match _hdivide : u.divide with
    | none => none
    | some (quotient, rem) =>
        match bytesChunk (quotient.high = 0 ∧ quotient.low = 0) 18 rem buffer with
        | none => none
        | some buffer => bytesLoop quotient buffer
termination_by u.toNat
decreasing_by
  obtain ⟨quotient', rem', hdivide', hquotient, _⟩ := u.divide_eq
  obtain ⟨rfl, rfl⟩ := Prod.mk.inj (Option.some.inj (_hdivide.symm.trans hdivide'))
  have hpos : 0 < u.toNat := Nat.pos_of_ne_zero fun h => _hzero (u.eq_zero_iff.mpr h)
  rw [hquotient]
  exact Nat.div_lt_self hpos (by decide)

def bytes (u : Uint128) : Option (List U8) :=
  if u.high = 0 ∧ u.low = 0 then some [0x30]
  else u.bytesLoop []

/-! ## Printing -/

theorem digit_byte {rem : U64} :
    (0x30 + (rem % 10).setWidth 8 : U8) = digit (rem.toNat % 10) := by
  apply BitVec.eq_of_toNat_eq
  simp [digit]

theorem bytesChunk_padded {count : Nat} {rem : U64} {buffer : List U8}
    (hroom : buffer.length + count ≤ 40) :
    bytesChunk false count rem buffer = some (padded count rem.toNat ++ buffer) := by
  induction count generalizing rem buffer with
  | zero => rfl
  | succ count ih =>
      rw [bytesChunk, if_neg (by omega)]
      simp only [Bool.false_eq_true, false_and, if_false]
      rw [ih (by rw [List.length_cons]; omega), padded, List.append_assoc, digit_byte,
        BitVec.toNat_udiv]
      rfl

theorem bytesChunk_decimal {count : Nat} {rem : U64} {buffer : List U8} (hpos : 0 < rem.toNat)
    (hrem : rem.toNat < 10 ^ count) (hroom : buffer.length + (decimal rem.toNat).length ≤ 40) :
    bytesChunk true count rem buffer = some (decimal rem.toNat ++ buffer) := by
  induction count generalizing rem buffer with
  | zero => omega
  | succ count ih =>
      have hten : (rem / 10).toNat = rem.toNat / 10 := BitVec.toNat_udiv
      by_cases hsmall : rem.toNat < 10
      · rw [decimal_of_lt hsmall, List.length_singleton] at hroom
        have hzero : rem / 10 = 0 := by
          apply BitVec.eq_of_toNat_eq
          rw [hten, Nat.div_eq_of_lt hsmall]
          rfl
        rw [bytesChunk, if_neg (by omega)]
        dsimp only
        rw [if_pos ⟨rfl, hzero⟩, digit_byte, Nat.mod_eq_of_lt hsmall, decimal_of_lt hsmall]
        rfl
      · have hlarge : 10 ≤ rem.toNat := Nat.not_lt.mp hsmall
        rw [decimal_of_ge hlarge, List.length_append, List.length_singleton] at hroom
        have hmore : ¬rem / 10 = 0 := by
          intro hzero
          rw [hzero] at hten
          have : (0 : U64).toNat = 0 := rfl
          omega
        rw [bytesChunk, if_neg (by omega)]
        dsimp only
        rw [if_neg (fun h => hmore h.2), ih, hten, digit_byte, decimal_of_ge hlarge,
          List.append_assoc]
        · rfl
        · omega
        · rw [hten]
          rw [pow_succ] at hrem
          omega
        · rw [hten, List.length_cons]
          omega

/-- Every round writes the last eighteen digits of what is left. -/
theorem bytesLoop_eq {u : Uint128} {buffer : List U8} (hpos : 0 < u.toNat)
    (hroom : buffer.length + (decimal u.toNat).length ≤ 40) :
    u.bytesLoop buffer = some (decimal u.toNat ++ buffer) := by
  induction hvalue : u.toNat using Nat.strongRecOn generalizing u buffer with
  | ind value ih =>
      have hmore : ¬(u.high = 0 ∧ u.low = 0) := by
        rw [eq_zero_iff]
        omega
      obtain ⟨quotient, rem, hdivide, hquotient, hrem⟩ := u.divide_eq
      rw [bytesLoop, dif_neg hmore]
      split
      next hnone => nomatch hnone.symm.trans hdivide
      next quotient' rem' hsome =>
        obtain ⟨rfl, rfl⟩ := Prod.mk.inj (Option.some.inj (hsome.symm.trans hdivide))
        -- Only the last chunk is printed without leading zeros.
        by_cases hfinal : quotient'.high = 0 ∧ quotient'.low = 0
        · have hzero := (quotient'.eq_zero_iff).mp hfinal
          have hlast : rem'.toNat = u.toNat := by
            rw [hrem]
            exact Nat.mod_eq_of_lt (by omega)
          have hchunk : bytesChunk true 18 rem' buffer = some (decimal rem'.toNat ++ buffer) := by
            apply bytesChunk_decimal
            · omega
            · rw [hrem]
              exact Nat.mod_lt _ (by decide)
            · rwa [hlast]
          rw [decide_eq_true hfinal, hchunk]
          dsimp only
          rw [bytesLoop, dif_pos hfinal, hlast, hvalue]
        · have hquotientPos : 0 < quotient'.toNat := by
            rw [eq_zero_iff] at hfinal
            omega
          have hsplit := decimal_append_padded 18 (hquotient ▸ hquotientPos)
          have hpadded : padded 18 rem'.toNat = padded 18 u.toNat := by
            rw [hrem, padded_mod]
          have hlength : (decimal quotient'.toNat).length + 18 = (decimal u.toNat).length := by
            rw [← hsplit, List.length_append, length_padded, hquotient]
          have hchunk :
              bytesChunk false 18 rem' buffer = some (padded 18 rem'.toNat ++ buffer) := by
            apply bytesChunk_padded
            omega
          rw [decide_eq_false hfinal, hchunk]
          dsimp only
          rw [ih quotient'.toNat (by omega) hquotientPos _ rfl, ← List.append_assoc, hpadded,
            hquotient, hsplit, hvalue]
          rw [List.length_append, length_padded]
          omega

theorem length_decimal_toNat_le (u : Uint128) : (decimal u.toNat).length ≤ 39 :=
  length_decimal_le (by decide) (u.toNat_lt.trans (by decide))

/-- The printer never panics and prints the canonical numeral. -/
theorem bytes_eq (u : Uint128) : u.bytes = some (decimal u.toNat) := by
  have hlength := u.length_decimal_toNat_le
  unfold bytes
  by_cases hzero : u.high = 0 ∧ u.low = 0
  · rw [if_pos hzero, u.eq_zero_iff.mp hzero]
    rfl
  · rw [if_neg hzero, bytesLoop_eq, List.append_nil]
    · exact Nat.pos_of_ne_zero fun h => hzero (u.eq_zero_iff.mpr h)
    · rw [List.length_nil]
      omega

end Uint128

end LetDX.LetDD
