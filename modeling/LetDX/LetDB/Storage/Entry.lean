import LetDX.Bytes.Frames
import LetDX.Bytes.LittleEndian
import LetDX.LetDB.Storage.Crc

/-! # The bytes of a log entry

An entry is its header, with the sequence number, the time and the type, and a
union of the data of the types. On disk a checksum follows. All structures are
packed and every integer is little-endian.
-/

namespace LetDX.LetDB

open Bytes

/-- The operation of an entry: its type and the member of the union. -/
inductive StorageWalEntryData
  | addAccount (credits debits : U128) (flags : U8)
  | makeTransfer (fromId toId : U64) (amount : U128)
  | updateAccount (accountId : U64) (flags : U8)
  deriving DecidableEq, Repr

structure StorageWalEntry where
  id : U64
  timestamp : Time
  data : StorageWalEntryData
  deriving DecidableEq, Repr

/-- `sizeof(let_storage_wal_entry_t)` -/
def storageWalEntrySize : Nat := 50

/-- `sizeof(let_storage_wal_entry_safe_t)` -/
def storageWalEntrySafeSize : Nat := 54

/-- The integer in a field of `width` bytes at `offset`. -/
def readField (bytes : List U8) (offset width : Nat) : Nat :=
  ofLittleEndian ((bytes.drop offset).take width)

/-- Reading a field where an integer was written gives the integer back. -/
theorem readField_of_split {bits : Nat} (value : BitVec bits) (width : Nat)
    (hwidth : bits ≤ 8 * width) (before after : List U8) :
    BitVec.ofNat bits (readField (before ++ (toLittleEndian width value.toNat ++ after))
      before.length width) = value := by
  have hfield : ((before ++ (toLittleEndian width value.toNat ++ after)).drop
      before.length).take width = toLittleEndian width value.toNat := by
    rw [List.drop_left, List.take_append_of_le_length (by simp), List.take_of_length_le (by simp)]
  rw [readField, hfield]
  exact ofNat_ofLittleEndian_toNat width value hwidth

namespace StorageWalEntryData

/-- `let_storage_wal_entry_type_t` -/
def type : StorageWalEntryData → U8
  | addAccount .. => 1
  | makeTransfer .. => 2
  | updateAccount .. => 3

/-- The member of the union in the 33 bytes of its largest one. -/
def image : StorageWalEntryData → List U8
  | addAccount credits debits flags =>
      toLittleEndian 16 credits.toNat ++
        (toLittleEndian 16 debits.toNat ++ (toLittleEndian 1 flags.toNat ++ []))
  | makeTransfer fromId toId amount =>
      toLittleEndian 8 fromId.toNat ++ (toLittleEndian 8 toId.toNat ++
        (toLittleEndian 16 amount.toNat ++ List.replicate 1 0))
  | updateAccount accountId flags =>
      toLittleEndian 8 accountId.toNat ++
        (toLittleEndian 1 flags.toNat ++ List.replicate 24 0)

def read (type : U8) (union : List U8) : Option StorageWalEntryData :=
  let field bits offset width : BitVec bits := BitVec.ofNat bits (readField union offset width)
  if type = 1 then some (addAccount (field 128 0 16) (field 128 16 16) (field 8 32 1))
  else if type = 2 then some (makeTransfer (field 64 0 8) (field 64 8 8) (field 128 16 16))
  else if type = 3 then some (updateAccount (field 64 0 8) (field 8 8 1))
  else none

@[simp] theorem length_image (data : StorageWalEntryData) : data.image.length = 33 := by
  cases data <;> simp [image]

@[simp] theorem read_image (data : StorageWalEntryData) :
    read data.type data.image = some data := by
  cases data with
  | addAccount credits debits flags =>
      have hcredits := readField_of_split credits 16 (by omega) []
        (toLittleEndian 16 debits.toNat ++ (toLittleEndian 1 flags.toNat ++ []))
      have hdebits := readField_of_split debits 16 (by omega)
        (toLittleEndian 16 credits.toNat) (toLittleEndian 1 flags.toNat ++ [])
      have hflags := readField_of_split flags 1 (by omega)
        (toLittleEndian 16 credits.toNat ++ toLittleEndian 16 debits.toNat) []
      simp only [List.length_append, length_toLittleEndian, List.append_assoc] at hdebits hflags
      simp only [read, type, image, if_true]
      rw [hdebits, hflags]
      exact congrArg (fun value => some (addAccount value debits flags)) hcredits
  | makeTransfer fromId toId amount =>
      have hfrom := readField_of_split fromId 8 (by omega) []
        (toLittleEndian 8 toId.toNat ++ (toLittleEndian 16 amount.toNat ++ List.replicate 1 0))
      have hto := readField_of_split toId 8 (by omega) (toLittleEndian 8 fromId.toNat)
        (toLittleEndian 16 amount.toNat ++ List.replicate 1 0)
      have hamount := readField_of_split amount 16 (by omega)
        (toLittleEndian 8 fromId.toNat ++ toLittleEndian 8 toId.toNat) (List.replicate 1 0)
      simp only [List.length_append, length_toLittleEndian, List.append_assoc] at hto hamount
      have htype : ((2 : U8) = 1) = False := by decide
      simp only [read, type, image, htype, if_true, if_false]
      rw [hto, hamount]
      exact congrArg (fun value => some (makeTransfer value toId amount)) hfrom
  | updateAccount accountId flags =>
      have haccount := readField_of_split accountId 8 (by omega) []
        (toLittleEndian 1 flags.toNat ++ List.replicate 24 0)
      have hflags := readField_of_split flags 1 (by omega) (toLittleEndian 8 accountId.toNat)
        (List.replicate 24 0)
      simp only [length_toLittleEndian] at hflags
      have hfirst : ((3 : U8) = 1) = False := by decide
      have hsecond : ((3 : U8) = 2) = False := by decide
      simp only [read, type, image, hfirst, hsecond, if_true, if_false]
      rw [hflags]
      exact congrArg (fun value => some (updateAccount value flags)) haccount

end StorageWalEntryData

namespace StorageWalEntry

def image (entry : StorageWalEntry) : List U8 :=
  toLittleEndian 8 entry.id.toNat ++ (toLittleEndian 8 entry.timestamp.toNat ++
    (toLittleEndian 1 entry.data.type.toNat ++ entry.data.image))

/-- The image of `let_storage_wal_entry_safe_t`. -/
def safe (entry : StorageWalEntry) : List U8 :=
  entry.image ++ toLittleEndian 4 (storageCrc32c entry.image).toNat

/-- The entry in an image, unless its type is unknown. -/
def read (bytes : List U8) : Option StorageWalEntry :=
  (StorageWalEntryData.read (BitVec.ofNat 8 (readField bytes 16 1)) (bytes.drop 17)).map fun data =>
    { id := BitVec.ofNat 64 (readField bytes 0 8)
      timestamp := BitVec.ofNat 64 (readField bytes 8 8)
      data }

@[simp] theorem length_image (entry : StorageWalEntry) :
    entry.image.length = storageWalEntrySize := by
  simp [image, storageWalEntrySize]

@[simp] theorem length_safe (entry : StorageWalEntry) :
    entry.safe.length = storageWalEntrySafeSize := by
  simp [safe, storageWalEntrySize, storageWalEntrySafeSize]

theorem read_image (entry : StorageWalEntry) : read entry.image = some entry := by
  have hid := readField_of_split entry.id 8 (by omega) [] (toLittleEndian 8 entry.timestamp.toNat ++
    (toLittleEndian 1 entry.data.type.toNat ++ entry.data.image))
  have htimestamp := readField_of_split entry.timestamp 8 (by omega)
    (toLittleEndian 8 entry.id.toNat) (toLittleEndian 1 entry.data.type.toNat ++ entry.data.image)
  have htype := readField_of_split entry.data.type 1 (by omega)
    (toLittleEndian 8 entry.id.toNat ++ toLittleEndian 8 entry.timestamp.toNat) entry.data.image
  have hunion : entry.image.drop 17 = entry.data.image := by
    have hsplit : entry.image = (toLittleEndian 8 entry.id.toNat ++
        toLittleEndian 8 entry.timestamp.toNat ++ toLittleEndian 1 entry.data.type.toNat) ++
        entry.data.image := by
      simp only [image, List.append_assoc]
    rw [hsplit]
    exact List.drop_left' (by simp)
  simp only [List.length_append, length_toLittleEndian, List.append_assoc] at htimestamp htype
  rw [read, hunion]
  simp only [image]
  rw [htype, StorageWalEntryData.read_image, htimestamp]
  exact congrArg (fun value => some { entry with id := value }) hid

/-- The part of a safe entry that the checksum covers. -/
theorem take_safe (entry : StorageWalEntry) :
    entry.safe.take storageWalEntrySize = entry.image :=
  List.take_left' (length_image entry)

/-- The stored checksum of a safe entry is the checksum of its image. -/
theorem checksum_safe (entry : StorageWalEntry) :
    (BitVec.ofNat 32 (readField entry.safe storageWalEntrySize 4) : U32) =
      storageCrc32c entry.image := by
  have hchecksum := readField_of_split (storageCrc32c entry.image) 4 (by omega) entry.image []
  rwa [length_image, List.append_nil] at hchecksum

end StorageWalEntry

end LetDX.LetDB
