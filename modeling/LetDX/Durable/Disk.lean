import LetDX.Bytes.Frames
import Mathlib.Data.BitVec

/-! # A file that may lose what it has not synced

The disk holds one file, the cursor of its descriptor, and the length of the
prefix that the last sync covered. A crash keeps that prefix and some of the
bytes after it.
-/

namespace LetDX.Durable

abbrev Byte := BitVec 8

structure Disk where
  file : Option (List Byte) := none
  synced : Nat := 0
  cursor : Nat := 0
  deriving DecidableEq, Repr

namespace Disk

/-- The largest offset of a file, from a signed 64-bit offset type. -/
def offsetMax : Nat := 2 ^ 63 - 1

def bytes (disk : Disk) : List Byte :=
  disk.file.getD []

def create : Disk :=
  { file := some [] }

/-- Write at the cursor, over what is there and past the end. -/
def put (disk : Disk) (data : List Byte) : Disk where
  file := some (disk.bytes.takeD disk.cursor 0 ++ data ++
    disk.bytes.drop (disk.cursor + data.length))
  synced := min disk.synced disk.cursor
  cursor := disk.cursor + data.length

def sync (disk : Disk) : Disk :=
  { disk with synced := disk.bytes.length }

def truncate (disk : Disk) (length : Nat) : Disk where
  file := some (disk.bytes.takeD length 0)
  synced := min disk.synced length
  cursor := disk.cursor

def seek (disk : Disk) (offset : Nat) : Disk :=
  { disk with cursor := offset }

/-- What a read of `count` bytes delivers: less than asked only at the end. -/
def peek (disk : Disk) (count : Nat) : List Byte :=
  (disk.bytes.drop disk.cursor).take count

/-- A crash keeps the synced prefix and any part of the rest. -/
def Crash (disk disk' : Disk) : Prop :=
  ∃ kept, disk.synced ≤ kept ∧ disk'.file = disk.file.map (List.take kept) ∧
    disk'.synced = disk.synced

variable {disk disk' : Disk}

@[simp] theorem bytes_some {content : List Byte} {synced cursor : Nat} :
    (Disk.mk (some content) synced cursor).bytes = content :=
  rfl

@[simp] theorem create_bytes : create.bytes = [] :=
  rfl

@[simp] theorem sync_file : disk.sync.file = disk.file :=
  rfl

@[simp] theorem sync_bytes : disk.sync.bytes = disk.bytes :=
  rfl

@[simp] theorem sync_cursor : disk.sync.cursor = disk.cursor :=
  rfl

@[simp] theorem seek_file {offset : Nat} : (disk.seek offset).file = disk.file :=
  rfl

@[simp] theorem seek_bytes {offset : Nat} : (disk.seek offset).bytes = disk.bytes :=
  rfl

@[simp] theorem seek_synced {offset : Nat} : (disk.seek offset).synced = disk.synced :=
  rfl

@[simp] theorem seek_seek {offset offset' : Nat} :
    (disk.seek offset).seek offset' = disk.seek offset' :=
  rfl

@[simp] theorem seek_cursor {offset : Nat} : (disk.seek offset).cursor = offset :=
  rfl

@[simp] theorem seek_mk {file : Option (List Byte)} {synced cursor offset : Nat} :
    (Disk.mk file synced cursor).seek offset = Disk.mk file synced offset :=
  rfl

@[simp] theorem sync_mk {content : List Byte} {synced cursor : Nat} :
    (Disk.mk (some content) synced cursor).sync = Disk.mk (some content) content.length cursor :=
  rfl

/-- Writing at the end appends. -/
theorem put_end {content data : List Byte} {synced : Nat} (hsynced : synced ≤ content.length) :
    (Disk.mk (some content) synced content.length).put data =
      Disk.mk (some (content ++ data)) synced (content.length + data.length) := by
  simp [put, List.takeD_eq_take, hsynced]

theorem truncate_mk {content : List Byte} {synced cursor length : Nat}
    (hlength : length ≤ content.length) :
    (Disk.mk (some content) synced cursor).truncate length =
      Disk.mk (some (content.take length)) (min synced length) cursor := by
  simp [truncate, List.takeD_eq_take _ hlength]

/-- A crash may keep everything. -/
theorem crash_self (disk : Disk) : disk.Crash disk := by
  refine ⟨max disk.synced disk.bytes.length, Nat.le_max_left _ _, ?_, rfl⟩
  cases hcontent : disk.file with
  | none => rfl
  | some content =>
      have hbytes : disk.bytes = content := by simp [bytes, hcontent]
      rw [hbytes, Option.map_some, List.take_of_length_le (Nat.le_max_right _ _)]

end Disk

end LetDX.Durable
