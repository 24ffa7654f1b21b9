import LetDX.LetDB.Postings
import LetDX.LetDB.Storage.Wal

/-! # What the log functions do to the file

A log file is the header, the images of its entries, and possibly a torn tail
too short to be an entry. Initialization and replay only move the cursor,
except that a torn tail may be cut off; a write appends one entry or tears it.
-/

namespace LetDX.LetDB

open Bytes Durable Effects

def storageWalHeader : List U8 :=
  toLittleEndian 8 storageWalHeaderMagic.toNat ++ toLittleEndian 2 storageWalHeaderVersion.toNat

/-- The file of a log with these entries. -/
def storageWalImage (entries : List StorageWalEntry) : List U8 :=
  storageWalHeader ++ (entries.map StorageWalEntry.safe).flatten

@[simp] theorem length_storageWalHeader : storageWalHeader.length = storageWalHeaderLength := by
  simp [storageWalHeader, storageWalHeaderLength]

theorem framed_safe (entries : List StorageWalEntry) :
    Framed storageWalEntrySafeSize (entries.map StorageWalEntry.safe) := by
  intro frame hframe
  obtain ⟨entry, _, rfl⟩ := List.mem_map.mp hframe
  exact entry.length_safe

theorem length_storageWalImage (entries : List StorageWalEntry) :
    (storageWalImage entries).length =
      storageWalHeaderLength + entries.length * storageWalEntrySafeSize := by
  rw [storageWalImage, List.length_append, length_storageWalHeader,
    (framed_safe entries).length_flatten, List.length_map]

theorem storageWalImage_append (first second : List StorageWalEntry) :
    storageWalImage (first ++ second) =
      storageWalImage first ++ (second.map StorageWalEntry.safe).flatten := by
  simp [storageWalImage]

theorem storageWalImage_concat (entries : List StorageWalEntry) (entry : StorageWalEntry) :
    storageWalImage (entries ++ [entry]) = storageWalImage entries ++ entry.safe := by
  simp [storageWalImage_append]

/-- What is read at the place of an entry. -/
theorem read_storageWalImage {entries : List StorageWalEntry} {index : Nat}
    (hindex : index < entries.length) (tail : List U8) :
    ((storageWalImage entries ++ tail).drop
      (storageWalHeaderLength + index * storageWalEntrySafeSize)).take storageWalEntrySafeSize =
      entries[index].safe := by
  have hsplit : storageWalImage entries ++ tail = storageWalImage (entries.take index) ++
      (entries[index].safe ++
        (((entries.drop (index + 1)).map StorageWalEntry.safe).flatten ++ tail)) := by
    calc storageWalImage entries ++ tail
        = storageWalImage (entries.take index ++ entries.drop index) ++ tail := by
          rw [List.take_append_drop]
      _ = _ := by
          rw [storageWalImage_append, List.drop_eq_getElem_cons hindex]
          simp only [List.map_cons, List.flatten_cons, List.append_assoc]
  have hbefore : (storageWalImage (entries.take index)).length =
      storageWalHeaderLength + index * storageWalEntrySafeSize := by
    rw [length_storageWalImage, List.length_take, Nat.min_eq_left hindex.le]
  rw [hsplit, List.drop_left' hbefore]
  exact List.take_left' (entries[index].length_safe)

section Rules

variable {reliable : Bool} {during : Disk → Prop} {world : World}

theorem storageWalSync_spec {post : Error → World → Prop} (hduring : during world.disk)
    (hfailed : reliable = false → post (.storage .walSyncFailed) world)
    (hsynced : during world.disk.sync ∧ post .none { world with disk := world.disk.sync }) :
    Meets reliable during post storageWalSync world := by
  refine .bind (Proc.fsync_spec hduring ?_ ⟨hsynced.1, ?_⟩)
  · intro hunreliable
    exact .pure hduring (hfailed hunreliable)
  · exact .pure hsynced.1 hsynced.2

theorem storageWalSeek_start_spec {offset : Nat} {post : Error → World → Prop}
    (hduring : during world.disk)
    (hfailed : reliable = false → post (.storage .walSeekFailed) world)
    (hmoved : during (world.disk.seek offset) ∧
      post .none { world with disk := world.disk.seek offset }) :
    Meets reliable during post (storageWalSeek offset .start) world := by
  refine .bind (Proc.lseek_start_spec hduring ?_ ⟨hmoved.1, ?_⟩)
  · intro hunreliable
    exact .pure hduring (hfailed hunreliable)
  · exact .pure hmoved.1 hmoved.2

theorem storageWalSeek_end_spec {post : Error → World → Prop} (hduring : during world.disk)
    (hfailed : reliable = false → post (.storage .walSeekFailed) world)
    (hmoved : during (world.disk.seek world.disk.bytes.length) ∧
      post .none { world with disk := world.disk.seek world.disk.bytes.length }) :
    Meets reliable during post (storageWalSeek 0 .end) world := by
  refine .bind (Proc.lseek_end_spec hduring ?_ ⟨hmoved.1, ?_⟩)
  · intro hunreliable
    exact .pure hduring (hfailed hunreliable)
  · exact .pure hmoved.1 hmoved.2

theorem storageWalTruncate_spec {offset : Nat} {post : Error → World → Prop}
    (hduring : during world.disk)
    (hfailed : reliable = false → post (.storage .walTruncateFailed) world)
    (hcut : during (world.disk.truncate offset) ∧
      post .none { world with disk := world.disk.truncate offset }) :
    Meets reliable during post (storageWalTruncate offset) world := by
  refine .bind (Proc.ftruncate_spec hduring ?_ ⟨hcut.1, ?_⟩)
  · intro hunreliable
    exact .pure hduring (hfailed hunreliable)
  · exact .pure hcut.1 hcut.2

/-! ## Appending -/

/-- The disk after part of an entry was written behind a log. -/
def tornDisk (entries : List StorageWalEntry) (entry : StorageWalEntry) (synced count : Nat) :
    Disk where
  file := some (storageWalImage entries ++ entry.safe.take count)
  synced := synced
  cursor := (storageWalImage entries).length + count

/-- A disk with exactly a log and the cursor at its end. -/
def logDisk (entries : List StorageWalEntry) (synced : Nat) : Disk where
  file := some (storageWalImage entries)
  synced := synced
  cursor := (storageWalImage entries).length

/-- The disk with a log that has been synced. -/
def syncedDisk (entries : List StorageWalEntry) : Disk :=
  logDisk entries (storageWalImage entries).length

theorem tornDisk_full (entries : List StorageWalEntry) (entry : StorageWalEntry) (synced : Nat) :
    tornDisk entries entry synced storageWalEntrySafeSize =
      logDisk (entries ++ [entry]) synced := by
  have htake : entry.safe.take storageWalEntrySafeSize = entry.safe :=
    List.take_of_length_le entry.length_safe.le
  simp only [tornDisk, logDisk, storageWalImage_concat, htake, List.length_append,
    entry.length_safe]

/-- A write appends the entry and syncs it, or refuses it for its number, or
fails with some part of it in the file. -/
theorem storageWalWrite_spec {entries : List StorageWalEntry} {entry : StorageWalEntry}
    {storageWal : StorageWal} {synced : Nat} {post : Error × StorageWal → World → Prop}
    (hdisk : world.disk = logDisk entries synced)
    (hsynced : synced ≤ (storageWalImage entries).length) (hduring : during world.disk)
    (hmismatch : entry.id ≠ storageWal.transactions →
      post (.storage .walNonceMismatch, storageWal) world)
    (htorn : entry.id = storageWal.transactions → ∀ count ≤ storageWalEntrySafeSize,
      (storageWalImage entries).length + count ≤ Disk.offsetMax →
      during (tornDisk entries entry synced count) ∧
      ∀ error ∈ [ErrorStorage.walWriteFailed, .walSyncFailed],
        post (.storage error, storageWal)
          { world with disk := tornDisk entries entry synced count })
    (hwritten : entry.id = storageWal.transactions →
      (storageWalImage (entries ++ [entry])).length ≤ Disk.offsetMax →
      during (syncedDisk (entries ++ [entry])) ∧
      post (.none, { storageWal with transactions := storageWal.transactions + 1 })
        { world with disk := syncedDisk (entries ++ [entry]) })
    (hlimit : (storageWalImage entries).length ≤ Disk.offsetMax) :
    Meets reliable during post (storageWalWrite storageWal entry) world := by
  unfold storageWalWrite
  by_cases hid : entry.id = storageWal.transactions
  -- Any first part of the entry may be written, whole or not.
  · rw [if_neg (not_not.mpr hid)]
    refine .bind (Proc.write_spec hduring ?_)
    intro count hcount hroom _
    have hput : world.disk.put (entry.safe.take count) = tornDisk entries entry synced count := by
      rw [hdisk, logDisk, Disk.put_end hsynced, List.length_take, Nat.min_eq_left hcount, tornDisk]
    rw [entry.length_safe] at hcount
    have hcursor : world.disk.cursor = (storageWalImage entries).length := by
      rw [hdisk, logDisk]
    obtain ⟨hinstant, herror⟩ := htorn hid count hcount (by omega)
    rw [hput]
    refine ⟨hinstant, ?_, ?_⟩
    · by_cases hfull : count = storageWalEntrySafeSize
      · subst hfull
        rw [if_neg (by simp)]
        have hlength : (storageWalImage (entries ++ [entry])).length =
            (storageWalImage entries).length + storageWalEntrySafeSize := by
          rw [storageWalImage_concat, List.length_append, entry.length_safe]
        obtain ⟨hsyncing, hdone⟩ := hwritten hid (by omega)
        have hsync : (tornDisk entries entry synced storageWalEntrySafeSize).sync =
            syncedDisk (entries ++ [entry]) := by
          rw [tornDisk_full]
          rfl
        refine .bind (storageWalSync_spec hinstant ?_ ?_)
        · intro _
          exact .pure hinstant (herror .walSyncFailed (by simp))
        · rw [hsync]
          exact ⟨hsyncing, .pure hsyncing hdone⟩
      · rw [if_pos (by simpa using hfull)]
        exact .pure hinstant (herror .walWriteFailed (by simp))
    · intro _
      rw [if_pos (by simp)]
      exact .pure hinstant (herror .walWriteFailed (by simp))
  · rw [if_pos hid]
    exact .pure hduring (hmismatch hid)

/-! ## Initialization -/

theorem storageWalAbandon_spec {error : ErrorStorage} {post : Error → World → Prop}
    (hduring : during world.disk) (hpost : post (.storage error) world) :
    Meets reliable during post (storageWalAbandon error) world :=
  .bind (Proc.closeFile_spec hduring (.pure hduring hpost))

theorem storageWalInitSeek_spec {post : Error → World → Prop} (hduring : during world.disk)
    (hfailed : reliable = false → post (.storage .walSeekFailed) world)
    (hmoved : during (world.disk.seek world.disk.bytes.length) ∧
      post .none { world with disk := world.disk.seek world.disk.bytes.length }) :
    Meets reliable during post storageWalInitSeek world := by
  refine .bind (storageWalSeek_end_spec hduring ?_ ⟨hmoved.1, ?_⟩)
  · intro hunreliable
    exact .bind (Proc.closeFile_spec hduring (.pure hduring (hfailed hunreliable)))
  · exact .pure hmoved.1 hmoved.2

/-- The disk while the header of a new log is being written. -/
def headerDisk (count : Nat) : Disk where
  file := some (storageWalHeader.take count)
  synced := 0
  cursor := count

theorem headerDisk_put {start count : Nat} (hcount : start + count ≤ storageWalHeaderLength) :
    (headerDisk start).put ((storageWalHeader.drop start).take count) =
      headerDisk (start + count) := by
  have hstart : (storageWalHeader.take start).length = start := by
    rw [List.length_take, length_storageWalHeader]
    omega
  have hdata : ((storageWalHeader.drop start).take count).length = count := by
    rw [List.length_take, List.length_drop, length_storageWalHeader]
    omega
  have hput : (Disk.mk (some (storageWalHeader.take start)) 0
      (storageWalHeader.take start).length).put ((storageWalHeader.drop start).take count) = _ :=
    Disk.put_end (Nat.zero_le _)
  rw [hstart, hdata] at hput
  rw [headerDisk, hput, headerDisk, List.take_add]

theorem storageWalInitCreated_spec {post : Error → World → Prop} (hdisk : world.disk = .create)
    (hduring : ∀ count ≤ storageWalHeaderLength, during (headerDisk count))
    (hfailed : ∀ error, ∀ count ≤ storageWalHeaderLength,
      post (.storage error) { world with disk := headerDisk count })
    (hcreated : post .none { world with disk := logDisk [] 0 }) :
    Meets reliable during post storageWalInitCreated world := by
  -- At every instant the file is a first part of the header.
  have hempty : world.disk = headerDisk 0 := hdisk
  refine .bind (Proc.write_spec (hempty ▸ hduring 0 (Nat.zero_le _)) ?_)
  intro count hcount _ _
  rw [length_toLittleEndian] at hcount
  have hpart : count ≤ storageWalHeaderLength := hcount.trans (by decide)
  have hmagic : world.disk.put ((toLittleEndian 8 storageWalHeaderMagic.toNat).take count) =
      headerDisk count := by
    have hput : (headerDisk 0).put ((storageWalHeader.drop 0).take count) =
        headerDisk (0 + count) := headerDisk_put (by omega)
    rwa [Nat.zero_add, List.drop_zero, storageWalHeader,
      List.take_append_of_le_length (by simpa using hcount), ← hempty] at hput
  rw [hmagic]
  refine ⟨hduring count hpart, ?_, ?_⟩
  · by_cases hfull : count = 8
    · subst hfull
      rw [if_neg (by simp)]
      refine .bind (Proc.write_spec (hduring 8 hpart) ?_)
      intro count hcount _ _
      rw [length_toLittleEndian] at hcount
      have hpart : 8 + count ≤ storageWalHeaderLength := Nat.add_le_add_left hcount 8
      have hversion : (headerDisk 8).put
          ((toLittleEndian 2 storageWalHeaderVersion.toNat).take count) =
          headerDisk (8 + count) := headerDisk_put hpart
      rw [hversion]
      refine ⟨hduring _ hpart, ?_, ?_⟩
      · by_cases hfull : count = 2
        · subst hfull
          rw [if_neg (by simp)]
          refine storageWalInitSeek_spec (hduring _ hpart) (fun _ => hfailed _ _ hpart) ?_
          have hdone : (headerDisk 10).seek (headerDisk 10).bytes.length = logDisk [] 0 := by decide
          exact ⟨hduring 10 hpart, hdone ▸ hcreated⟩
        · rw [if_pos (by simpa using hfull)]
          exact storageWalAbandon_spec (hduring _ hpart) (hfailed _ _ hpart)
      · intro _
        rw [if_pos (by simp)]
        exact storageWalAbandon_spec (hduring _ hpart) (hfailed _ _ hpart)
    · rw [if_pos (by simpa using hfull)]
      exact storageWalAbandon_spec (hduring count hpart) (hfailed _ count hpart)
  · intro _
    rw [if_pos (by simp)]
    exact storageWalAbandon_spec (hduring count hpart) (hfailed _ count hpart)

/-- A file with a complete header is opened, and the cursor moves to its end. -/
theorem storageWalInitOpened_spec {rest : List U8} {post : Error → World → Prop}
    (hcontent : world.disk.bytes = storageWalHeader ++ rest)
    (hduring : ∀ offset, during (world.disk.seek offset)) (hcursor : world.disk.cursor = 0)
    (hfailed : reliable = false → ∀ error offset,
      post (.storage error) { world with disk := world.disk.seek offset })
    (hopened : post .none { world with disk := world.disk.seek world.disk.bytes.length }) :
    Meets reliable during post storageWalInitOpened world := by
  refine .bind (Proc.read_spec (hduring world.disk.cursor) ?_ ?_)
  · intro hunreliable
    exact storageWalAbandon_spec (hduring world.disk.cursor)
      (hfailed hunreliable _ world.disk.cursor)
  intro magic hmagic
  refine ⟨hduring _, ?_⟩
  have hread : magic = toLittleEndian 8 storageWalHeaderMagic.toNat := by
    rw [hmagic, Disk.peek, hcontent, hcursor, List.drop_zero, storageWalHeader, List.append_assoc]
    exact List.take_left' (by simp)
  subst hread
  have hvalue : BitVec.ofNat 64 (ofLittleEndian (toLittleEndian 8 storageWalHeaderMagic.toNat)) =
      storageWalHeaderMagic := ofNat_ofLittleEndian_toNat 8 _ (by omega)
  simp only [length_toLittleEndian, hvalue, ne_eq, not_true_eq_false, if_false]
  refine .bind (Proc.read_spec (hduring _) ?_ ?_)
  · intro hunreliable
    exact storageWalAbandon_spec (hduring _) (hfailed hunreliable _ _)
  intro version hversion
  refine ⟨hduring _, ?_⟩
  have hread : version = toLittleEndian 2 storageWalHeaderVersion.toNat := by
    rw [hversion, Disk.peek, Disk.seek_bytes, Disk.seek_cursor, hcontent, hcursor, storageWalHeader,
      List.append_assoc, List.drop_left' (by simp)]
    exact List.take_left' (by simp)
  subst hread
  have hvalue : BitVec.ofNat 16 (ofLittleEndian (toLittleEndian 2 storageWalHeaderVersion.toNat)) =
      storageWalHeaderVersion := ofNat_ofLittleEndian_toNat 2 _ (by omega)
  simp only [length_toLittleEndian, hvalue, not_true_eq_false, if_false]
  refine storageWalInitSeek_spec (hduring _) ?_ ⟨hduring _, hopened⟩
  intro hunreliable
  exact hfailed hunreliable _ _

/-- A file too short for the header is refused. -/
theorem storageWalInitOpened_short {post : Error → World → Prop}
    (hcontent : world.disk.bytes.length < storageWalHeaderLength)
    (hduring : ∀ offset, during (world.disk.seek offset)) (hcursor : world.disk.cursor = 0)
    (hfailed : ∀ error offset,
      post (.storage error) { world with disk := world.disk.seek offset }) :
    Meets reliable during post storageWalInitOpened world := by
  refine .bind (Proc.read_spec (hduring world.disk.cursor) ?_ ?_)
  · intro _
    exact storageWalAbandon_spec (hduring world.disk.cursor) (hfailed _ world.disk.cursor)
  intro magic hmagic
  refine ⟨hduring _, ?_⟩
  by_cases hlength : magic.length = 8
  · simp only [hlength, ne_eq, not_true_eq_false, if_false]
    by_cases hvalue : BitVec.ofNat 64 (ofLittleEndian magic) = storageWalHeaderMagic
    · simp only [hvalue, not_true_eq_false, if_false]
      refine .bind (Proc.read_spec (hduring _) ?_ ?_)
      · intro _
        exact storageWalAbandon_spec (hduring _) (hfailed _ _)
      intro version hversion
      refine ⟨hduring _, ?_⟩
      have hshort : version.length < 2 := by
        rw [hversion, Disk.peek, List.length_take, List.length_drop, Disk.seek_bytes,
          Disk.seek_cursor]
        simp only [storageWalHeaderLength] at hcontent
        omega
      simp only [hshort.ne, not_false_eq_true, if_true]
      exact storageWalAbandon_spec (hduring _) (hfailed _ _)
    · simp only [hvalue, not_false_eq_true, if_true]
      exact storageWalAbandon_spec (hduring _) (hfailed _ _)
  · simp only [hlength, ne_eq, not_false_eq_true, if_true]
    exact storageWalAbandon_spec (hduring _) (hfailed _ _)

theorem storageWalInit_absent {post : Error → World → Prop} (hdisk : world.disk.file = none)
    (hstart : during world.disk)
    (hduring : ∀ count ≤ storageWalHeaderLength, during (headerDisk count))
    (hrefused : post (.storage .walCreateFailed) world)
    (hfailed : ∀ error, ∀ count ≤ storageWalHeaderLength,
      post (.storage error) { world with disk := headerDisk count })
    (hcreated : post .none { world with disk := logDisk [] 0 }) :
    Meets reliable during post storageWalInit world := by
  refine .bind (Proc.openExclusive_spec hstart ?_ ?_ ?_)
  · intro _
    exact .pure hstart hrefused
  · intro hexists
    rw [hdisk] at hexists
    nomatch hexists
  · intro _
    refine ⟨hduring 0 (Nat.zero_le _), ?_⟩
    exact storageWalInitCreated_spec rfl hduring hfailed hcreated

/-- What initialization does with a file that exists is decided by what it does
once the file is open. -/
theorem storageWalInit_exists {post : Error → World → Prop} (hdisk : world.disk.file.isSome)
    (hduring : ∀ offset, during (world.disk.seek offset))
    (hfailed : reliable = false → ∀ error, post (.storage error) world)
    (hopened : Meets reliable during post storageWalInitOpened
      { world with disk := world.disk.seek 0 }) :
    Meets reliable during post storageWalInit world := by
  refine .bind (Proc.openExclusive_spec (hduring world.disk.cursor) ?_ ?_ ?_)
  · intro hunreliable
    exact .pure (hduring world.disk.cursor) (hfailed hunreliable _)
  · intro _
    refine .bind (Proc.openExisting_spec (hduring world.disk.cursor) hdisk ?_ ⟨hduring 0, hopened⟩)
    intro hunreliable
    exact .pure (hduring world.disk.cursor) (hfailed hunreliable _)
  · intro habsent
    rw [habsent] at hdisk
    nomatch hdisk

end Rules

end LetDX.LetDB
