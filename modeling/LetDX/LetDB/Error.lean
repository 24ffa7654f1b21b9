import LetDX.Common

/-! # Errors and what the server does about them

An error is an identifier of the module it comes from with a code of that
module. The report of an error decides whether the request is answered with an
error line, the connection is closed, or the whole server stops.
-/

namespace LetDX.LetDB

inductive ErrorAccount
  | outOfMemory
  | notFound
  | capacityOverflow
  deriving DecidableEq, Repr

inductive ErrorState
  | invalidAccountList
  | invalidTime
  deriving DecidableEq, Repr

inductive ErrorGuard
  | sameAccount
  | senderNotFound
  | recipientNotFound
  | insufficientBalance
  | transactionOverflow
  | zeroBalance
  | accountCannotSend
  | accountCannotReceive
  | invalidState
  deriving DecidableEq, Repr

inductive ErrorNetwork
  | serverCreateFailed
  | serverBindFailed
  | serverListenFailed
  | serverAcceptFailed
  | serverReadFailed
  | serverWriteFailed
  | serverReadTimeout
  | serverWriteTimeout
  | serverClosed
  | clientClosed
  | requestEmpty
  | requestMalformed
  | requestInvalidCommand
  | requestInvalidInteger
  | requestIntegerOverflow
  | requestExpectedNewLine
  | requestArgumentsMissing
  | requestBufferOverflow
  | responseBufferOverflow
  deriving DecidableEq, Repr

inductive ErrorStorage
  | walCreateFailed
  | walOpenFailed
  | walWriteFailed
  | walReadFailed
  | walSyncFailed
  | walSeekFailed
  | walTruncateFailed
  | walInvalidMagic
  | walInvalidVersion
  | walNonceMismatch
  | walChecksumMismatch
  | walInvalidEntryType
  | walInvalidTime
  | walInvalidState
  | walInvalidPath
  deriving DecidableEq, Repr

inductive ErrorCli
  | invalidOption
  | invalidPort
  | invalidBacklog
  | invalidReadTimeout
  | invalidWriteTimeout
  | invalidLogLevel
  deriving DecidableEq, Repr

/-- `let_error_t`: the module of the error and the code within it. -/
inductive Error
  | none
  | account (error : ErrorAccount)
  | state (error : ErrorState)
  | guard (error : ErrorGuard)
  | network (error : ErrorNetwork)
  | storage (error : ErrorStorage)
  | cli (error : ErrorCli)
  deriving DecidableEq, Repr

namespace Error

/-- The value of `let_error_id_t`. -/
def id (error : Error) : U8 :=
  BitVec.ofNat 8 error.ctorIdx

/-- The code within the module; every enumeration of codes starts at one. -/
def error : Error → U8
  | none => 0
  | account error => BitVec.ofNat 8 (error.ctorIdx + 1)
  | state error => BitVec.ofNat 8 (error.ctorIdx + 1)
  | guard error => BitVec.ofNat 8 (error.ctorIdx + 1)
  | network error => BitVec.ofNat 8 (error.ctorIdx + 1)
  | storage error => BitVec.ofNat 8 (error.ctorIdx + 1)
  | cli error => BitVec.ofNat 8 (error.ctorIdx + 1)

end Error

def errorExists (error : Error) : Bool :=
  error != .none

def errorCode (error : Error) : U16 :=
  if error.id = 0 then 0
  else 1000 * error.id.setWidth 16 + error.error.setWidth 16

inductive ErrorAction
  | none
  | reject
  | ignore
  | close
  | fatal
  deriving DecidableEq, Repr

structure ErrorReport where
  action : ErrorAction
  message : String
  deriving DecidableEq, Repr

def errorReportAccount : ErrorAccount → ErrorReport
  | .outOfMemory => ⟨.fatal, "The account subsystem ran out of memory"⟩
  | .notFound => ⟨.reject, "The requested account cannot be resolved"⟩
  | .capacityOverflow => ⟨.reject, "The account registry is completely full"⟩

def errorReportState : ErrorState → ErrorReport
  | .invalidAccountList => ⟨.fatal, "The provided account list contains corrupted data"⟩
  | .invalidTime => ⟨.fatal, "The provided timestamp for state subsystem is invalid"⟩

def errorReportGuard : ErrorGuard → ErrorReport
  | .sameAccount => ⟨.reject, "The source and destination accounts must be different"⟩
  | .senderNotFound => ⟨.reject, "The transaction sender was not found"⟩
  | .recipientNotFound => ⟨.reject, "The transaction recipient was not found"⟩
  | .insufficientBalance => ⟨.reject, "The account balance is insufficient for this transfer"⟩
  | .transactionOverflow => ⟨.reject, "The transaction registry is completely full"⟩
  | .zeroBalance => ⟨.reject, "The account can only send positive amount of funds"⟩
  | .accountCannotSend => ⟨.reject, "The account is not authorized to send funds"⟩
  | .accountCannotReceive => ⟨.reject, "The account is not authorized to receive funds"⟩
  | .invalidState => ⟨.fatal, "The guard subsystem has been corrupted unexpectedly"⟩

def errorReportNetwork : ErrorNetwork → ErrorReport
  | .serverCreateFailed => ⟨.fatal, "The server failed to create the TCP socket"⟩
  | .serverBindFailed => ⟨.fatal, "The server failed to bind the port"⟩
  | .serverListenFailed => ⟨.fatal, "The server failed to listen for incoming connections"⟩
  | .serverAcceptFailed => ⟨.fatal, "The server failed to accept the incoming connection"⟩
  | .serverReadFailed => ⟨.close, "The system failed to read data from the network"⟩
  | .serverWriteFailed => ⟨.close, "The system failed to write data to the network"⟩
  | .serverReadTimeout => ⟨.close, "The network read operation timed out"⟩
  | .serverWriteTimeout => ⟨.close, "The network write operation timed out"⟩
  | .serverClosed => ⟨.ignore, "The network server is closed"⟩
  | .clientClosed => ⟨.ignore, "The network client is closed"⟩
  | .requestEmpty => ⟨.reject, "The received network request contains no data"⟩
  | .requestMalformed => ⟨.reject, "The network request format is incorrect"⟩
  | .requestInvalidCommand => ⟨.reject, "The requested network command is unknown"⟩
  | .requestInvalidInteger => ⟨.reject, "The network request integer value cannot be parsed"⟩
  | .requestIntegerOverflow => ⟨.reject, "The network request integer value is too large"⟩
  | .requestExpectedNewLine =>
      ⟨.reject, "The network request is missing a final newline character"⟩
  | .requestArgumentsMissing => ⟨.reject, "The network request is missing required parameters"⟩
  | .requestBufferOverflow => ⟨.close, "The incoming network request exceeds the buffer size"⟩
  | .responseBufferOverflow => ⟨.close, "The outgoing network response exceeds the buffer size"⟩

def errorReportStorage : ErrorStorage → ErrorReport
  | .walCreateFailed => ⟨.fatal, "The system failed to create a new storage file"⟩
  | .walOpenFailed => ⟨.fatal, "The system failed to open the storage file"⟩
  | .walWriteFailed => ⟨.fatal, "The system failed to write data to the storage file"⟩
  | .walReadFailed => ⟨.fatal, "The system failed to read data from the storage file"⟩
  | .walSyncFailed => ⟨.fatal, "The system failed to sync the storage data to disk"⟩
  | .walSeekFailed => ⟨.fatal, "The system failed to reposition the storage file pointer"⟩
  | .walTruncateFailed => ⟨.fatal, "The system failed to truncate the storage file"⟩
  | .walInvalidMagic => ⟨.fatal, "The storage file contains an invalid magic number signature"⟩
  | .walInvalidVersion => ⟨.fatal, "The storage file version is not supported by this engine"⟩
  | .walNonceMismatch => ⟨.reject, "The transaction nonce does not match the file metadata"⟩
  | .walChecksumMismatch => ⟨.fatal, "The storage file data failed the checksum validation check"⟩
  | .walInvalidEntryType => ⟨.fatal, "The storage file contains an unknown tracking entry type"⟩
  | .walInvalidTime => ⟨.fatal, "The provided timestamp for storage subsystem is invalid"⟩
  | .walInvalidState =>
      ⟨.fatal, "The storage file contains an invalid state that cannot be processed"⟩
  | .walInvalidPath => ⟨.fatal, "The provided path for storage subsystem is invalid"⟩

def errorReportCli : ErrorCli → ErrorReport
  | .invalidOption => ⟨.fatal, "The specified command line flag is unrecognized"⟩
  | .invalidPort => ⟨.fatal, "The specified network port number is out of range"⟩
  | .invalidBacklog => ⟨.fatal, "The specified connection backlog size must be positive"⟩
  | .invalidReadTimeout => ⟨.fatal, "The specified read timeout value must be positive"⟩
  | .invalidWriteTimeout => ⟨.fatal, "The specified write timeout value must be positive"⟩
  | .invalidLogLevel => ⟨.fatal, "The specified log level is out of range"⟩

def errorReport : Error → ErrorReport
  | .none => ⟨.none, "No error occurred"⟩
  | .account error => errorReportAccount error
  | .state error => errorReportState error
  | .guard error => errorReportGuard error
  | .network error => errorReportNetwork error
  | .storage error => errorReportStorage error
  | .cli error => errorReportCli error

/-- Only the absence of an error lets a request go on undisturbed. -/
theorem errorReport_action_eq_none_iff (error : Error) :
    (errorReport error).action = .none ↔ error = .none := by
  cases error with
  | none => exact ⟨fun _ => rfl, fun _ => rfl⟩
  | account error => cases error <;> simp [errorReport, errorReportAccount]
  | state error => cases error <;> simp [errorReport, errorReportState]
  | guard error => cases error <;> simp [errorReport, errorReportGuard]
  | network error => cases error <;> simp [errorReport, errorReportNetwork]
  | storage error => cases error <;> simp [errorReport, errorReportStorage]
  | cli error => cases error <;> simp [errorReport, errorReportCli]

example : errorCode (.storage .walNonceMismatch) = 0x1392 := by decide

end LetDX.LetDB
