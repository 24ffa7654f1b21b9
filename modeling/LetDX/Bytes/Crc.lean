import LetDX.Bytes.LittleEndian
import Mathlib.Logic.Function.Iterate

/-! # Cyclic redundancy checks

The register of a reflected checksum takes in a stream of bits, one shift for
each. A shift is linear, and it is injective when the polynomial has a constant
term. So a register that starts at zero sees any nonzero run of no more bits than
it is wide.
-/

namespace LetDX.Bytes

/-! ## Bits of a byte string -/

/-- The lowest `count` bits of a number, least significant first. -/
def lowBits (count value : Nat) : List Bool :=
  (List.range count).map value.testBit

/-- The bits of the bytes in turn, each from its least significant bit. -/
def bitsOf (bytes : List Byte) : List Bool :=
  bytes.flatMap fun byte => lowBits 8 byte.toNat

/-- Bit `position` of a byte string. -/
def bitAt (bytes : List Byte) (position : Nat) : Bool :=
  (bytes.getD (position / 8) 0).getLsbD (position % 8)

theorem length_lowBits (count value : Nat) : (lowBits count value).length = count := by
  rw [lowBits, List.length_map, List.length_range]

theorem lowBits_zero (count : Nat) : lowBits count 0 = List.replicate count false := by
  rw [List.eq_replicate_iff]
  refine ⟨length_lowBits count 0, ?_⟩
  intro bit hbit
  obtain ⟨position, _, rfl⟩ := List.mem_map.mp hbit
  exact Nat.zero_testBit position

theorem lowBits_ofNat (width value : Nat) :
    lowBits width (BitVec.ofNat width value).toNat = lowBits width value := by
  refine List.map_congr_left fun position hposition => ?_
  rw [BitVec.toNat_ofNat, Nat.testBit_mod_two_pow, decide_eq_true (List.mem_range.mp hposition),
    Bool.true_and]

/-- The lowest bits come first, then those of the shifted number. -/
theorem lowBits_add (first second value : Nat) :
    lowBits (first + second) value = lowBits first value ++ lowBits second (value >>> first) := by
  rw [lowBits, List.range_add, List.map_append, List.map_map]
  refine congrArg _ (List.map_congr_left ?_)
  intro position _
  exact (Nat.testBit_shiftRight ..).symm

theorem lt_of_bitAt {bytes : List Byte} {position : Nat} (hset : bitAt bytes position = true) :
    position < 8 * bytes.length := by
  by_contra hbehind
  have hlength : bytes.length ≤ position / 8 := by omega
  rw [bitAt, List.getD_eq_getElem?_getD, List.getElem?_eq_none hlength, Option.getD_none] at hset
  cases BitVec.getLsbD_zero.symm.trans hset

theorem testBit_ofLittleEndian (bytes : List Byte) (position : Nat) :
    (ofLittleEndian bytes).testBit position = bitAt bytes position := by
  induction bytes generalizing position with
  | nil => simp [ofLittleEndian, bitAt]
  | cons byte rest ih =>
      have hvalue : ofLittleEndian (byte :: rest) = 2 ^ 8 * ofLittleEndian rest + byte.toNat :=
        Nat.add_comm ..
      rw [hvalue, Nat.testBit_two_pow_mul_add _ byte.isLt]
      split
      case isTrue hfirst =>
        rw [bitAt, Nat.div_eq_of_lt hfirst, Nat.mod_eq_of_lt hfirst]
        rfl
      case isFalse hlater =>
        obtain ⟨later, rfl⟩ := Nat.exists_eq_add_of_le (Nat.le_of_not_lt hlater)
        rw [Nat.add_sub_cancel_left, ih, bitAt, bitAt, Nat.add_mod_left,
          Nat.add_div_left later (by decide), List.getD_cons_succ]

theorem bitsOf_eq (bytes : List Byte) :
    bitsOf bytes = lowBits (8 * bytes.length) (ofLittleEndian bytes) := by
  induction bytes with
  | nil => rfl
  | cons byte rest ih =>
      have hvalue : ofLittleEndian (byte :: rest) = 2 ^ 8 * ofLittleEndian rest + byte.toNat :=
        Nat.add_comm ..
      have hfirst : lowBits 8 (ofLittleEndian (byte :: rest)) = lowBits 8 byte.toNat := by
        refine List.map_congr_left ?_
        intro position hposition
        rw [hvalue, Nat.testBit_two_pow_mul_add _ byte.isLt, if_pos (List.mem_range.mp hposition)]
      have hrest : ofLittleEndian (byte :: rest) >>> 8 = ofLittleEndian rest := by
        rw [hvalue, Nat.shiftRight_eq_div_pow, Nat.mul_add_div (by decide),
          Nat.div_eq_of_lt byte.isLt, Nat.add_zero]
      rw [List.length_cons, Nat.mul_add, Nat.add_comm, lowBits_add, hfirst, hrest, ← ih]
      rfl

theorem length_bitsOf (bytes : List Byte) : (bitsOf bytes).length = 8 * bytes.length := by
  rw [bitsOf_eq, length_lowBits]

theorem bitsOf_append (first second : List Byte) :
    bitsOf (first ++ second) = bitsOf first ++ bitsOf second :=
  List.flatMap_append

theorem lowBits_xor (count first second : Nat) : lowBits count (first ^^^ second) =
    List.zipWith (· ^^ ·) (lowBits count first) (lowBits count second) := by
  rw [lowBits, lowBits, lowBits, List.zipWith_map, List.zipWith_self]
  exact List.map_congr_left fun position _ => Nat.testBit_xor first second position

/-- Flipping bits of the bytes flips these bits of the stream. -/
theorem bitsOf_xor {bytes flips : List Byte} (hlength : bytes.length = flips.length) :
    bitsOf (List.zipWith (· ^^^ ·) bytes flips) =
      List.zipWith (· ^^ ·) (bitsOf bytes) (bitsOf flips) := by
  induction bytes generalizing flips with
  | nil => rfl
  | cons byte rest ih =>
      cases flips with
      | nil => cases hlength
      | cons flip flips =>
          have hrest := ih (Nat.succ.inj hlength)
          have hsame : (lowBits 8 byte.toNat).length = (lowBits 8 flip.toNat).length := by
            rw [length_lowBits, length_lowBits]
          change lowBits 8 (byte ^^^ flip).toNat ++ bitsOf (List.zipWith (· ^^^ ·) rest flips) =
            List.zipWith (· ^^ ·) (lowBits 8 byte.toNat ++ bitsOf rest)
              (lowBits 8 flip.toNat ++ bitsOf flips)
          rw [BitVec.toNat_xor, lowBits_xor, hrest, List.zipWith_append hsame]

/-! ## The register -/

variable {width : Nat}

/-- One shift of the register, with feedback when a set bit leaves it. -/
def crcShift (polynomial register : BitVec width) : BitVec width :=
  if register.getLsbD 0 then register >>> 1 ^^^ polynomial else register >>> 1

/-- Take in one bit. -/
def crcFeed (polynomial register : BitVec width) (bit : Bool) : BitVec width :=
  if register.getLsbD 0 ^^ bit then register >>> 1 ^^^ polynomial else register >>> 1

/-- The register after a stream of bits. -/
def crcRegister (polynomial register : BitVec width) (bits : List Bool) : BitVec width :=
  bits.foldl (crcFeed polynomial) register

variable {polynomial : BitVec width}

@[simp] theorem crcShift_zero :
    crcShift polynomial (BitVec.ofNat width 0) = BitVec.ofNat width 0 := by
  simp [crcShift]

theorem crcRegister_append (register : BitVec width) (first second : List Bool) :
    crcRegister polynomial register (first ++ second) =
      crcRegister polynomial (crcRegister polynomial register first) second :=
  List.foldl_append

/-! ### Linearity -/

theorem crcFeed_xor (polynomial register register' : BitVec width) (bit bit' : Bool) :
    crcFeed polynomial (register ^^^ register') (bit ^^ bit') =
      crcFeed polynomial register bit ^^^ crcFeed polynomial register' bit' := by
  have hcancel (first second : BitVec width) :
      (first ^^^ polynomial) ^^^ (second ^^^ polynomial) = first ^^^ second := by
    rw [BitVec.xor_comm second, BitVec.xor_assoc, ← BitVec.xor_assoc polynomial,
      BitVec.xor_self, BitVec.zero_xor]
  have hparity : ((register.getLsbD 0 ^^ register'.getLsbD 0) ^^ (bit ^^ bit')) =
      ((register.getLsbD 0 ^^ bit) ^^ (register'.getLsbD 0 ^^ bit')) := by
    rw [Bool.xor_assoc, Bool.xor_assoc, Bool.xor_left_comm (register'.getLsbD 0)]
  rw [crcFeed, crcFeed, crcFeed, BitVec.getLsbD_xor, hparity, BitVec.ushiftRight_xor_distrib]
  cases register.getLsbD 0 ^^ bit <;> cases register'.getLsbD 0 ^^ bit'
  · rfl
  · exact BitVec.xor_assoc ..
  · simp only [Bool.xor_false, if_true, Bool.false_eq_true, if_false]
    ac_rfl
  · exact (hcancel ..).symm

/-- The registers of two streams add up to that of their sum. -/
theorem crcRegister_xor {bits bits' : List Bool} (hlength : bits.length = bits'.length)
    (polynomial register register' : BitVec width) :
    crcRegister polynomial (register ^^^ register') (List.zipWith (· ^^ ·) bits bits') =
      crcRegister polynomial register bits ^^^ crcRegister polynomial register' bits' := by
  induction bits generalizing bits' register register' with
  | nil =>
      obtain rfl := List.eq_nil_of_length_eq_zero hlength.symm
      rfl
  | cons bit bits ih =>
      cases bits' with
      | nil => cases hlength
      | cons bit' bits' =>
          have hrest := ih (Nat.succ.inj hlength) (crcFeed polynomial register bit)
            (crcFeed polynomial register' bit')
          rwa [← crcFeed_xor] at hrest

/-! ### Words -/

theorem crcFeed_word (register word : BitVec width) :
    crcFeed polynomial register (word.getLsbD 0) ^^^ word >>> 1 =
      crcShift polynomial (register ^^^ word) := by
  rw [crcFeed, crcShift, BitVec.getLsbD_xor, BitVec.ushiftRight_xor_distrib]
  split
  · ac_rfl
  · rfl

/-- Taking in the lowest bits of a word is adding the word and shifting, where the
bits that were not taken in only move down. -/
theorem crcRegister_word (polynomial : BitVec width) (count : Nat) (register word : BitVec width) :
    crcRegister polynomial register (lowBits count word.toNat) ^^^ word >>> count =
      (crcShift polynomial)^[count] (register ^^^ word) := by
  induction count generalizing register word with
  | zero => rfl
  | succ count ih =>
      have hnext := ih (crcFeed polynomial register (word.getLsbD 0)) (word >>> 1)
      rw [crcFeed_word, BitVec.toNat_ushiftRight, ← BitVec.shiftRight_add] at hnext
      rw [Nat.add_comm count 1, lowBits_add, crcRegister_append, Nat.add_comm 1 count,
        Function.iterate_succ_apply, ← hnext, Nat.add_comm count 1]
      rfl

/-- Bits that are not set only shift. -/
theorem crcRegister_zeros (count : Nat) (register : BitVec width) :
    crcRegister polynomial register (List.replicate count false) =
      (crcShift polynomial)^[count] register := by
  have hzero := crcRegister_word polynomial count register (BitVec.ofNat width 0)
  simpa [lowBits_zero] using hzero

/-- A word of no more than `count` bits is added before `count` shifts. -/
theorem crcRegister_short {count : Nat} {word : BitVec width}
    (hshort : word >>> count = BitVec.ofNat width 0) (register : BitVec width) :
    crcRegister polynomial register (lowBits count word.toNat) =
      (crcShift polynomial)^[count] (register ^^^ word) := by
  have hword := crcRegister_word polynomial count register word
  rwa [hshort, BitVec.xor_zero] at hword

/-- Several shifts at once: the feedback depends only on the bits that leave. -/
theorem crcShift_iterate {count : Nat} {register low : BitVec width}
    (hsame : lowBits count register.toNat = lowBits count low.toNat)
    (hlow : low >>> count = BitVec.ofNat width 0) :
    (crcShift polynomial)^[count] register =
      register >>> count ^^^ (crcShift polynomial)^[count] low := by
  have hregister := crcRegister_word polynomial count (BitVec.ofNat width 0) register
  rw [hsame, crcRegister_short hlow, BitVec.zero_xor, BitVec.zero_xor] at hregister
  rw [← hregister, BitVec.xor_comm]

/-! ### Bursts -/

theorem crcShift_xor (register register' : BitVec width) :
    crcShift polynomial (register ^^^ register') =
      crcShift polynomial register ^^^ crcShift polynomial register' := by
  have hfeed := crcFeed_xor polynomial register register' false false
  simpa [crcFeed, crcShift] using hfeed

/-- The feedback sets the highest bit, which a shift leaves clear. -/
theorem eq_zero_of_crcShift (hconstant : polynomial.msb = true) {register : BitVec width}
    (hshift : crcShift polynomial register = BitVec.ofNat width 0) :
    register = BitVec.ofNat width 0 := by
  rw [crcShift] at hshift
  split at hshift
  case isTrue =>
    have hsame : register >>> 1 = polynomial := BitVec.xor_eq_zero_iff.mp hshift
    have hclear : (register >>> 1).msb = false := by simp [BitVec.msb_ushiftRight]
    rw [hsame, hconstant] at hclear
    cases hclear
  case isFalse hlow =>
    refine BitVec.eq_of_getLsbD_eq fun position _ => ?_
    rw [BitVec.getLsbD_zero]
    cases position with
    | zero => exact Bool.eq_false_iff.mpr hlow
    | succ position =>
        have hbit := congrArg (BitVec.getLsbD · position) hshift
        rwa [BitVec.getLsbD_ushiftRight, BitVec.getLsbD_zero, Nat.add_comm] at hbit

/-- No shift loses anything when the polynomial has a constant term. -/
theorem crcShift_injective (hconstant : polynomial.msb = true) :
    Function.Injective (crcShift polynomial) := by
  intro register register' hsame
  refine BitVec.xor_eq_zero_iff.mp (eq_zero_of_crcShift hconstant ?_)
  rw [crcShift_xor, hsame, BitVec.xor_self]

/-- A number whose bits all lie in one window of the register's width. -/
theorem exists_word {start value : Nat} (hburst : ∀ position, value.testBit position = true →
    start ≤ position ∧ position < start + width) :
    ∃ word : BitVec width, value = word.toNat * 2 ^ start := by
  have hword : value >>> start < 2 ^ width := by
    refine Nat.lt_pow_two_of_testBit _ fun position hposition => ?_
    rw [Nat.testBit_shiftRight, Bool.eq_false_iff]
    intro hset
    have hinside := (hburst _ hset).2
    omega
  refine ⟨BitVec.ofNat width (value >>> start), Nat.eq_of_testBit_eq fun position => ?_⟩
  rw [BitVec.toNat_ofNat, Nat.mod_eq_of_lt hword, Nat.testBit_mul_two_pow, Nat.testBit_shiftRight]
  by_cases hbefore : start ≤ position
  · rw [Nat.add_sub_cancel' hbefore]
    simp [hbefore]
  · have hclear : value.testBit position = false :=
      Bool.eq_false_iff.mpr fun hset => hbefore (hburst position hset).1
    simp [hbefore, hclear]

/-- The bits of a word that has been moved up, between zeros. -/
theorem lowBits_word (start after : Nat) (word : BitVec width) :
    lowBits (start + (width + after)) (word.toNat * 2 ^ start) =
      List.replicate start false ++ (lowBits width word.toNat ++ List.replicate after false) := by
  have hbefore : lowBits start (word.toNat * 2 ^ start) = lowBits start 0 := by
    refine List.map_congr_left fun position hposition => ?_
    have hlow := List.mem_range.mp hposition
    rw [Nat.testBit_mul_two_pow, Nat.zero_testBit, decide_eq_false (by omega), Bool.false_and]
  have hafter : word.toNat >>> width = 0 := by
    rw [Nat.shiftRight_eq_div_pow, Nat.div_eq_of_lt word.isLt]
  rw [lowBits_add, lowBits_add, hbefore, lowBits_zero, Nat.shiftRight_eq_div_pow,
    Nat.mul_div_cancel _ (Nat.two_pow_pos start), hafter, lowBits_zero]

/-- A register that starts at zero sees every burst of no more bits than its width. -/
theorem crcRegister_burst (hconstant : polynomial.msb = true) {start total value : Nat}
    (hvalue : value ≠ 0) (hwidth : start + width ≤ total)
    (hburst : ∀ position, value.testBit position = true →
      start ≤ position ∧ position < start + width) :
    crcRegister polynomial (BitVec.ofNat width 0) (lowBits total value) ≠ BitVec.ofNat width 0 := by
  obtain ⟨word, rfl⟩ := exists_word hburst
  obtain ⟨after, rfl⟩ := Nat.exists_eq_add_of_le hwidth
  have hshort : word >>> width = BitVec.ofNat width 0 :=
    BitVec.ushiftRight_eq_zero (Nat.le_refl width)
  have hzero (count : Nat) :
      (crcShift polynomial)^[count] (BitVec.ofNat width 0) = BitVec.ofNat width 0 :=
    Function.iterate_fixed crcShift_zero count
  rw [Nat.add_assoc, lowBits_word, crcRegister_append, crcRegister_append, crcRegister_zeros,
    crcRegister_zeros, crcRegister_short hshort, hzero, BitVec.zero_xor]
  intro hlost
  have hinjective := (crcShift_injective hconstant).iterate after
  have hword := hinjective (hlost.trans (hzero after).symm)
  have hnone := (crcShift_injective hconstant).iterate width (hword.trans (hzero width).symm)
  exact hvalue (by rw [hnone, BitVec.toNat_zero, Nat.zero_mul])

end LetDX.Bytes
