import LetDX.LetDB.State
import LetDX.LetDB.Storage.Entry

/-! # The write-ahead log -/

namespace LetDX.LetDB

open Bytes Effects

/-- The text `LET__WAL` when stored. -/
def storageWalHeaderMagic : U64 := 0x4C41575F5F54454C

def storageWalHeaderVersion : U16 := 1

def storageWalHeaderLength : Nat := 10

structure StorageWal where
  transactions : U64
  deriving DecidableEq, Repr

def storageWalEmpty : StorageWal := { transactions := 0 }

def storageWalEntryNew (id : U64) (timestamp : Time) (data : StorageWalEntryData) :
    StorageWalEntry :=
  { id, timestamp, data }

/-! ## Internal functions -/

def storageWalSync : Proc Error := do
  if ← Proc.fsync then return .none
  else return .storage .walSyncFailed

def storageWalSeek (offset : Nat) (seek : StorageWalSeek) : Proc Error := do
  if ← Proc.lseek offset seek then return .none
  else return .storage .walSeekFailed

def storageWalTruncate (offset : Nat) : Proc Error := do
  if ← Proc.ftruncate offset then return .none
  else return .storage .walTruncateFailed

/-! ## Initialization -/

/-- Close the file on the way out with an error. -/
def storageWalAbandon (error : ErrorStorage) : Proc Error := do
  Proc.closeFile
  return .storage error

def storageWalInitSeek : Proc Error := do
  let error ← storageWalSeek 0 .end
  if errorExists error then
    Proc.closeFile
    return error
  else return error

/-- The branch of a file that did not exist. -/
def storageWalInitCreated : Proc Error := do
  let written ← Proc.write (toLittleEndian 8 storageWalHeaderMagic.toNat)
  if written ≠ some 8 then storageWalAbandon .walWriteFailed
  else
    let written ← Proc.write (toLittleEndian 2 storageWalHeaderVersion.toNat)
    if written ≠ some 2 then storageWalAbandon .walWriteFailed
    else storageWalInitSeek

/-- The branch of a file that was there already. -/
def storageWalInitOpened : Proc Error := do
  let magic ← Proc.read 8
  match magic with
  | none => storageWalAbandon .walReadFailed
  | some magic =>
      if magic.length ≠ 8 then storageWalAbandon .walReadFailed
      else if BitVec.ofNat 64 (ofLittleEndian magic) ≠ storageWalHeaderMagic then
        storageWalAbandon .walInvalidMagic
      else
        let version ← Proc.read 2
        match version with
        | none => storageWalAbandon .walReadFailed
        | some version =>
            if version.length ≠ 2 then storageWalAbandon .walReadFailed
            else if BitVec.ofNat 16 (ofLittleEndian version) ≠ storageWalHeaderVersion then
              storageWalAbandon .walInvalidVersion
            else storageWalInitSeek

def storageWalInit : Proc Error := do
  match ← Proc.openExclusive with
  | .opened => storageWalInitCreated
  | .exists =>
      if ← Proc.openExisting then storageWalInitOpened
      else return .storage .walOpenFailed
  | .failed => return .storage .walCreateFailed

/-! ## Replay -/

/-- The variables of the replay loop. -/
structure StorageWalReplay where
  state : State
  transactions : U64
  fileOffset : Nat
  deriving DecidableEq, Repr

/-- How the replay loop is left: by a `return`, or with the result of the last
`read`, which is `none` where the call failed. -/
inductive StorageWalReplayExit
  | returned (error : Error)
  | stopped (bytesRead : Option Nat)
  deriving DecidableEq, Repr

/-- The switch over the type of an entry. -/
def storageWalReplayEntry (state : State) (entry : List U8) : Proc (Error × State) :=
  match StorageWalEntry.read entry with
  | some { timestamp, data := .addAccount credits debits flags, .. } => do
      let (error, state, _) ← stateAddAccount state (accountNew credits debits timestamp flags)
      return (error, state)
  | some { data := .makeTransfer fromId toId amount, .. } =>
      stateMakeTransfer state fromId toId amount
  | some { data := .updateAccount accountId flags, .. } =>
      stateUpdateAccount state accountId flags
  | none => return (.storage .walInvalidEntryType, state)

/-- One round of the loop, from the `read` in its condition. -/
def storageWalReplayRound (truncateOnFailure : Bool) (loop : StorageWalReplay) :
    Proc (StorageWalReplay ⊕ StorageWalReplay × StorageWalReplayExit) := do
  match ← Proc.read storageWalEntrySafeSize with
  | none => return .inr (loop, .stopped none)
  | some safeEntry =>
      if safeEntry.length ≠ storageWalEntrySafeSize then
        return .inr (loop, .stopped (some safeEntry.length))
      else
        let entry := safeEntry.take storageWalEntrySize
        let checksum : U32 := BitVec.ofNat 32 (readField safeEntry storageWalEntrySize 4)
        if storageCrc32c entry ≠ checksum then
          if !truncateOnFailure then
            return .inr (loop, .returned (.storage .walChecksumMismatch))
          else
            let error ← storageWalTruncate loop.fileOffset
            if errorExists error then return .inr (loop, .returned error)
            -- The loop breaks here, and `bytes_read` is still that of a whole record.
            else return .inr (loop, .stopped (some storageWalEntrySafeSize))
        else
          -- The offset moves on before the entry is replayed.
          let fileOffset := loop.fileOffset + storageWalEntrySafeSize
          let (error, state) ← storageWalReplayEntry loop.state entry
          if errorExists error then
            return .inr ({ loop with state, fileOffset }, .returned error)
          else return .inl { state, transactions := loop.transactions + 1, fileOffset }

/-- What follows the loop when it was left with the result of a `read`. -/
def storageWalReplayTail (truncateOnFailure : Bool) (fileOffset : Nat) :
    Option Nat → Proc Error
  | none => return .storage .walReadFailed
  | some bytesRead =>
      if 0 < bytesRead ∧ bytesRead < storageWalEntrySafeSize then
        if !truncateOnFailure then return .storage .walReadFailed
        else do
          let error ← storageWalTruncate fileOffset
          if errorExists error then return error
          else storageWalSeek 0 .end
      else storageWalSeek 0 .end

def storageWalReplay (storageWal : StorageWal) (state : State) (truncateOnFailure : Bool) :
    Proc (Error × StorageWal × State) := do
  let error ← storageWalSeek storageWalHeaderLength .start
  if errorExists error then return (error, storageWal, state)
  else
    let (loop, exit) ← Program.iterate (storageWalReplayRound truncateOnFailure)
      { state, transactions := 0, fileOffset := storageWalHeaderLength }
    let storageWal := { storageWal with transactions := loop.transactions }
    match exit with
    | .returned error => return (error, storageWal, loop.state)
    | .stopped bytesRead =>
        let error ← storageWalReplayTail truncateOnFailure loop.fileOffset bytesRead
        return (error, storageWal, loop.state)

/-! ## Appending -/

def storageWalWrite (storageWal : StorageWal) (entry : StorageWalEntry) :
    Proc (Error × StorageWal) := do
  if entry.id ≠ storageWal.transactions then return (.storage .walNonceMismatch, storageWal)
  else
    let written ← Proc.write entry.safe
    if written ≠ some storageWalEntrySafeSize then return (.storage .walWriteFailed, storageWal)
    else
      let error ← storageWalSync
      if errorExists error then return (error, storageWal)
      else return (.none, { storageWal with transactions := storageWal.transactions + 1 })

end LetDX.LetDB
