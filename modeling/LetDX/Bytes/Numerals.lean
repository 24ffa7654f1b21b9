import Mathlib.Data.Nat.Digits.Defs
import Mathlib.Tactic.Ring

/-! # Numerals read from the front

A reader that shifts what it has read by one place and adds the next digit ends
with the number that the digits denote.
-/

namespace LetDX.Bytes

variable {base value figure : Nat} {figures : List Nat}

/-- The number read when these digits follow a number already read. -/
def readFrom (base value : Nat) (figures : List Nat) : Nat :=
  value * base ^ figures.length + Nat.ofDigits base figures.reverse

@[simp] theorem readFrom_nil : readFrom base value [] = value := by
  simp [readFrom]

theorem readFrom_zero : readFrom base 0 figures = Nat.ofDigits base figures.reverse := by
  rw [readFrom, Nat.zero_mul, Nat.zero_add]

theorem readFrom_cons :
    readFrom base value (figure :: figures) = readFrom base (value * base + figure) figures := by
  simp only [readFrom, List.length_cons, List.reverse_cons, Nat.ofDigits_append,
    List.length_reverse, Nat.ofDigits_singleton]
  ring

/-- What has been read never shrinks. -/
theorem le_readFrom (hbase : 0 < base) : value ≤ readFrom base value figures :=
  calc value = value * 1 := (Nat.mul_one value).symm
    _ ≤ value * base ^ figures.length := Nat.mul_le_mul_left _ (Nat.pow_pos hbase)
    _ ≤ readFrom base value figures := Nat.le_add_right _ _

end LetDX.Bytes
