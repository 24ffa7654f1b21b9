import Mathlib.Data.BitVec
import Mathlib.Tactic.Ring

/-! # Fixed-width little-endian integers -/

namespace LetDX.Bytes

abbrev Byte := BitVec 8

/-- The lowest `width` base-256 digits of a number, least significant first. -/
def toLittleEndian : Nat → Nat → List Byte
  | 0, _ => []
  | width + 1, value => BitVec.ofNat 8 value :: toLittleEndian width (value / 256)

def ofLittleEndian : List Byte → Nat
  | [] => 0
  | byte :: rest => byte.toNat + 256 * ofLittleEndian rest

@[simp] theorem length_toLittleEndian (width value : Nat) :
    (toLittleEndian width value).length = width := by
  induction width generalizing value with
  | zero => rfl
  | succ width ih => simp [toLittleEndian, ih]

@[simp] theorem ofLittleEndian_toLittleEndian (width value : Nat) :
    ofLittleEndian (toLittleEndian width value) = value % 256 ^ width := by
  induction width generalizing value with
  | zero => simp [toLittleEndian, ofLittleEndian, Nat.mod_one]
  | succ width ih =>
      have hpow : 256 ^ (width + 1) = 256 * 256 ^ width := pow_succ' 256 width
      rw [hpow, Nat.mod_mul, ← ih]
      simp [toLittleEndian, ofLittleEndian]

/-- Reading an encoded machine integer gives the integer back. -/
theorem ofNat_ofLittleEndian_toNat {bits : Nat} (width : Nat) (value : BitVec bits)
    (hwidth : bits ≤ 8 * width) :
    BitVec.ofNat bits (ofLittleEndian (toLittleEndian width value.toNat)) = value := by
  apply BitVec.eq_of_toNat_eq
  have hpow : 256 ^ width = 2 ^ (8 * width) := (pow_mul 2 8 width).symm
  have hlt : value.toNat < 256 ^ width := by
    rw [hpow]
    exact value.isLt.trans_le (Nat.pow_le_pow_right (by omega) hwidth)
  rw [ofLittleEndian_toLittleEndian, BitVec.toNat_ofNat, Nat.mod_eq_of_lt hlt,
    Nat.mod_eq_of_lt value.isLt]

end LetDX.Bytes
