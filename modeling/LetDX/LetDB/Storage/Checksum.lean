import LetDX.Bytes.Crc
import LetDX.LetDB.Storage.Records

/-! # What the checksum is, and what it catches

The table makes eight shifts of the register at once. The register that has taken
in a whole record, its checksum included, holds the same value for every record
that passes.
-/

namespace LetDX.LetDB

open Bytes

/-- The reflected polynomial of the CRC-32C. -/
def crc32cPolynomial : U32 := 0x82F63B78

/-- The CRC-32C, bit by bit. -/
def crc32c (bytes : List U8) : U32 :=
  crcRegister crc32cPolynomial 0xFFFFFFFF (bitsOf bytes) ^^^ 0xFFFFFFFF

theorem storageCrcTableCrc32c_eq : storageCrcTableCrc32c =
    (List.range 256).map fun index =>
      (crcShift crc32cPolynomial)^[8] (BitVec.ofNat 32 index) := by
  decide +kernel

theorem toNat_and_lowest (register : U32) : (register &&& 0xFF).toNat < 256 := by
  rw [BitVec.toNat_and]
  exact Nat.and_le_right.trans_lt (by decide)

/-- The entry for the lowest byte of a register is what its eight bits feed back. -/
theorem storageCrcTableCrc32c_getD (register : U32) :
    storageCrcTableCrc32c.getD (register &&& 0xFF).toNat 0 =
      (crcShift crc32cPolynomial)^[8] (register &&& 0xFF) := by
  rw [storageCrcTableCrc32c_eq, List.getD_eq_getElem?_getD, List.getElem?_map,
    List.getElem?_range (toNat_and_lowest register), Option.map_some, Option.getD_some,
    BitVec.ofNat_toNat, BitVec.setWidth_eq]

theorem lowBits_and_lowest (register : U32) :
    lowBits 8 register.toNat = lowBits 8 (register &&& 0xFF).toNat := by
  refine List.map_congr_left fun position hposition => ?_
  have hmask : (0xFF : U32).toNat.testBit position = decide (position < 8) :=
    Nat.testBit_two_pow_sub_one 8 position
  rw [BitVec.toNat_and, Nat.testBit_and, hmask, decide_eq_true (List.mem_range.mp hposition),
    Bool.and_true]

theorem ushiftRight_eq_zero_of_lt {register : U32} (hlow : register.toNat < 256) :
    register >>> 8 = 0#32 := by
  apply BitVec.eq_of_toNat_eq
  rw [BitVec.toNat_ushiftRight, Nat.shiftRight_eq_div_pow, Nat.div_eq_of_lt hlow]
  rfl

/-- One access to the table takes in the eight bits of a byte. -/
theorem storageCrc32cByte_eq (crc : U32) (byte : U8) :
    storageCrc32cByte crc byte = crcRegister crc32cPolynomial crc (lowBits 8 byte.toNat) := by
  have hbyte : (byte.setWidth 32).toNat = byte.toNat := by
    rw [BitVec.toNat_setWidth]
    exact Nat.mod_eq_of_lt (byte.isLt.trans (by decide))
  have hshort : byte.setWidth 32 >>> 8 = 0#32 :=
    ushiftRight_eq_zero_of_lt (hbyte.trans_lt byte.isLt)
  have hlow := ushiftRight_eq_zero_of_lt (toNat_and_lowest (crc ^^^ byte.setWidth 32))
  rw [← hbyte, crcRegister_short hshort, crcShift_iterate (lowBits_and_lowest _) hlow,
    BitVec.ushiftRight_xor_distrib, hshort, BitVec.xor_zero, storageCrc32cByte,
    storageCrcTableCrc32c_getD]

theorem foldl_storageCrc32cByte (crc : U32) (bytes : List U8) :
    bytes.foldl storageCrc32cByte crc = crcRegister crc32cPolynomial crc (bitsOf bytes) := by
  induction bytes generalizing crc with
  | nil => rfl
  | cons byte rest ih =>
      rw [List.foldl_cons, ih, storageCrc32cByte_eq, ← crcRegister_append]
      rfl

/-- Taking four bytes at a time makes no difference. -/
theorem storageCrc32cBlocks_eq (crc : U32) (bytes : List U8) :
    storageCrc32cBlocks crc bytes = crcRegister crc32cPolynomial crc (bitsOf bytes) := by
  rw [← foldl_storageCrc32cByte]
  fun_induction storageCrc32cBlocks crc bytes with
  | case1 crc first second third fourth rest ih => exact ih
  | case2 => rfl

/-- The register behind a checksum. -/
theorem storageCrc32c_register (bytes : List U8) :
    storageCrc32c bytes =
      crcRegister crc32cPolynomial 0xFFFFFFFF (bitsOf bytes) ^^^ 0xFFFFFFFF := by
  cases bytes with
  | nil => rfl
  | cons byte rest =>
      rw [← storageCrc32cBlocks_eq]
      rfl

/-- The checksum of any bytes is their CRC-32C. -/
theorem storageCrc32c_eq_crc32c (bytes : List U8) : storageCrc32c bytes = crc32c bytes :=
  storageCrc32c_register bytes

/-! ## Corruption -/

/-- The register behind a whole record does not depend on the record. -/
theorem register_of_intact {record : List U8} (hintact : Intact record) :
    crcRegister crc32cPolynomial 0xFFFFFFFF (bitsOf record) =
      (crcShift crc32cPolynomial)^[32] 0xFFFFFFFF := by
  obtain ⟨hlength, hchecksum⟩ := hintact
  have hstored : (record.drop storageWalEntrySize).length = 4 := by
    rw [List.length_drop, hlength]
    rfl
  rw [storageCrc32c_register, readField, List.take_of_length_le hstored.le] at hchecksum
  rw [← List.take_append_drop storageWalEntrySize record, bitsOf_append, crcRegister_append,
    bitsOf_eq (record.drop _), hstored, ← lowBits_ofNat, ← hchecksum,
    crcRegister_short (BitVec.ushiftRight_eq_zero (Nat.le_refl 32)), ← BitVec.xor_assoc,
    BitVec.xor_self, BitVec.zero_xor]

/-- Between two intact records the register sees no difference. -/
theorem register_of_flips {record flips : List U8} (hsame : record.length = flips.length)
    (hintact : Intact record) (haltered : Intact (List.zipWith (· ^^^ ·) record flips)) :
    crcRegister crc32cPolynomial 0#32 (bitsOf flips) = 0#32 := by
  have hstreams : (bitsOf record).length = (bitsOf flips).length := by
    rw [length_bitsOf, length_bitsOf, hsame]
  have hsum := crcRegister_xor hstreams crc32cPolynomial 0xFFFFFFFF 0#32
  rw [← bitsOf_xor hsame, register_of_intact hintact, BitVec.xor_zero,
    register_of_intact haltered] at hsum
  -- The register behind the flips alone is the sum of two equal ones.
  have hcancel := congrArg ((crcShift crc32cPolynomial)^[32] 0xFFFFFFFF ^^^ ·) hsum
  rwa [BitVec.xor_self, ← BitVec.xor_assoc, BitVec.xor_self, BitVec.zero_xor, eq_comm] at hcancel

/-- Flips within 32 consecutive bits of a record never pass the comparison of the
checksums in `storageWalReplayRound`. -/
theorem checksum_detects_burst {record flips : List U8} (hintact : Intact record)
    (hlength : flips.length = storageWalEntrySafeSize)
    (hflips : ∃ position, bitAt flips position = true) {start : Nat}
    (hburst : ∀ position, bitAt flips position = true →
      start ≤ position ∧ position < start + 32) :
    let altered := List.zipWith (· ^^^ ·) record flips
    altered.length = storageWalEntrySafeSize ∧
      storageCrc32c (altered.take storageWalEntrySize) ≠
        BitVec.ofNat 32 (readField altered storageWalEntrySize 4) := by
  intro altered
  have hsame : record.length = flips.length := (intact_length hintact).trans hlength.symm
  have haltered : altered.length = storageWalEntrySafeSize := by
    rw [List.length_zipWith, hsame, Nat.min_self, hlength]
  refine ⟨haltered, ?_⟩
  intro hpasses
  have hlost := register_of_flips hsame hintact ⟨haltered, hpasses⟩
  have hvalue : ofLittleEndian flips ≠ 0 := by
    intro hzero
    obtain ⟨position, hset⟩ := hflips
    rw [← testBit_ofLittleEndian, hzero, Nat.zero_testBit] at hset
    cases hset
  -- A window that reaches past the record is moved back to its end.
  have hwindow (position : Nat) (hset : (ofLittleEndian flips).testBit position = true) :
      min start 400 ≤ position ∧ position < min start 400 + 32 := by
    rw [testBit_ofLittleEndian] at hset
    have hinside := hburst position hset
    have hrecord := lt_of_bitAt hset
    rw [hlength, storageWalEntrySafeSize] at hrecord
    omega
  have hfits : min start 400 + 32 ≤ 8 * storageWalEntrySafeSize :=
    Nat.add_le_add_right (Nat.min_le_right start 400) 32
  rw [bitsOf_eq, hlength] at hlost
  exact crcRegister_burst (by decide) hvalue hfits hwindow hlost

/-- The last bit of an entry and the first of the checksum behind it. -/
def straddlingFlips : List U8 :=
  List.replicate 49 0 ++ [0x80, 1, 0, 0, 0]

/-- Flips on both sides of the boundary between an entry and its checksum. -/
theorem checksum_detects_straddling :
    let record := StorageWalEntry.safe { id := 3, timestamp := 1, data := .updateAccount 2 7 }
    let altered := List.zipWith (· ^^^ ·) record straddlingFlips
    altered.length = storageWalEntrySafeSize ∧
      storageCrc32c (altered.take storageWalEntrySize) ≠
        BitVec.ofNat 32 (readField altered storageWalEntrySize 4) := by
  have hburst : ∀ position < 8 * straddlingFlips.length,
      bitAt straddlingFlips position = true → 399 ≤ position ∧ position < 399 + 32 := by
    decide +kernel
  exact checksum_detects_burst (intact_safe _) rfl ⟨399, by decide⟩
    fun position hset => hburst position (lt_of_bitAt hset) hset

end LetDX.LetDB
