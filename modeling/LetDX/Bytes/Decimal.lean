import LetDX.Bytes.LittleEndian

/-! # Decimal numerals -/

namespace LetDX.Bytes

/-- The ASCII digit of a number below ten. -/
def digit (value : Nat) : Byte :=
  BitVec.ofNat 8 (0x30 + value)

/-- The canonical decimal numeral of a number. -/
def decimal (value : Nat) : List Byte :=
  (Nat.toDigits 10 value).map fun character => BitVec.ofNat 8 character.toNat

/-- The last digits of a number, with leading zeros. -/
def padded : Nat → Nat → List Byte
  | 0, _ => []
  | count + 1, value => padded count (value / 10) ++ [digit (value % 10)]

theorem digit_eq_digitChar : ∀ value < 10,
    BitVec.ofNat 8 (Nat.digitChar value).toNat = digit value := by
  decide

theorem decimal_of_lt {value : Nat} (hvalue : value < 10) : decimal value = [digit value] := by
  rw [decimal, Nat.toDigits_of_lt_base hvalue, List.map_singleton, digit_eq_digitChar _ hvalue]

theorem decimal_of_ge {value : Nat} (hvalue : 10 ≤ value) :
    decimal value = decimal (value / 10) ++ [digit (value % 10)] := by
  have hdigit : value % 10 < 10 := Nat.mod_lt _ (by decide)
  rw [decimal, Nat.toDigits_of_base_le (by decide) hvalue, List.map_append, List.map_singleton,
    digit_eq_digitChar _ hdigit, decimal]

@[simp] theorem length_padded (count value : Nat) : (padded count value).length = count := by
  induction count generalizing value with
  | zero => rfl
  | succ count ih => rw [padded, List.length_append, ih, List.length_singleton]

theorem padded_mod (count value : Nat) :
    padded count (value % 10 ^ count) = padded count value := by
  induction count generalizing value with
  | zero => rfl
  | succ count ih =>
      have hten : 10 ∣ 10 ^ (count + 1) := dvd_pow_self 10 (Nat.succ_ne_zero count)
      rw [padded, Nat.mod_mod_of_dvd _ hten, pow_succ', Nat.mod_mul_right_div_self, ih, padded]

theorem length_decimal_le {value count : Nat} (hcount : 0 < count) (hvalue : value < 10 ^ count) :
    (decimal value).length ≤ count := by
  rw [decimal, List.length_map]
  exact (Nat.length_toDigits_le_iff (by decide) hcount).mpr hvalue

/-- A numeral is the numeral of its leading part, and then its last digits. -/
theorem decimal_append_padded {value : Nat} (count : Nat) (hvalue : 0 < value / 10 ^ count) :
    decimal (value / 10 ^ count) ++ padded count value = decimal value := by
  induction count generalizing value with
  | zero => rw [padded, List.append_nil, pow_zero, Nat.div_one]
  | succ count ih =>
      have hdivide : value / 10 ^ (count + 1) = value / 10 / 10 ^ count := by
        rw [Nat.div_div_eq_div_mul, pow_succ']
      have hlarge : 10 ≤ value := by
        by_contra hsmall
        rw [hdivide, Nat.div_eq_of_lt (Nat.not_le.mp hsmall), Nat.zero_div] at hvalue
        exact Nat.lt_irrefl 0 hvalue
      rw [hdivide] at hvalue ⊢
      rw [padded, ← List.append_assoc, ih hvalue, decimal_of_ge hlarge]

/-- Numerals have digits only. -/
theorem mem_decimal {value : Nat} {byte : Byte} (hmem : byte ∈ decimal value) :
    ∃ figure < 10, byte = digit figure := by
  induction value using Nat.strongRecOn with
  | ind value ih =>
      by_cases hvalue : value < 10
      · rw [decimal_of_lt hvalue] at hmem
        exact ⟨value, hvalue, List.mem_singleton.mp hmem⟩
      · rw [decimal_of_ge (Nat.not_lt.mp hvalue)] at hmem
        rcases List.mem_append.mp hmem with hmem | hmem
        · exact ih (value / 10) (by omega) hmem
        · exact ⟨value % 10, Nat.mod_lt _ (by decide), List.mem_singleton.mp hmem⟩

end LetDX.Bytes
