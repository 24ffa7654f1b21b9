import LetDX.Bytes.Strtoul
import LetDX.LetDB.Let

/-! # The command line

What `getopt_long` finds is taken as it comes: the value of an option, its index
in the table if it is a long one, and its argument.
-/

namespace LetDX.LetDB

open Bytes

/-! ## `let_log_level_t` -/

def logLevelInfo : U8 := 1
def logLevelNone : U8 := 5

/-- A string of C, without the zero behind it. -/
structure CString where
  bytes : List U8
  terminated : 0 ∉ bytes
  deriving DecidableEq, Repr

/-- All of `let_cli_t`. -/
structure LetCli extends Cli where
  storageFile : CString
  readTimeout : U32
  writeTimeout : U32
  logLevel : U8
  help : Bool
  version : Bool
  deriving DecidableEq, Repr

/-- The bytes of `LET__WAL`. -/
def cliDefaultStorageFile : List U8 :=
  [0x4C, 0x45, 0x54, 0x5F, 0x5F, 0x57, 0x41, 0x4C]

theorem zero_notMem_cliDefaultStorageFile : 0 ∉ cliDefaultStorageFile := by
  decide

/-- `let_cli_empty` -/
def letCliEmpty : LetCli where
  toCli := cliEmpty
  storageFile := ⟨cliDefaultStorageFile, zero_notMem_cliDefaultStorageFile⟩
  readTimeout := 0
  writeTimeout := 10
  logLevel := logLevelInfo
  help := false
  version := false

/-- An entry of the table: a long name, and what stands for it. -/
structure CliOption where
  name : String
  val : Nat
  deriving DecidableEq, Repr

def cliOptions : List CliOption :=
  [⟨"help", 'h'.toNat⟩, ⟨"version", 'v'.toNat⟩, ⟨"port", 'p'.toNat⟩, ⟨"backlog", 'b'.toNat⟩,
    ⟨"log-level", 'l'.toNat⟩, ⟨"truncate-on-fail", 't'.toNat⟩, ⟨"file", 'f'.toNat⟩,
    ⟨"read-timeout", 0⟩, ⟨"write-timeout", 0⟩]

/-- What `getopt_long` returns and leaves in `index` and `optarg`. -/
structure Matched where
  option : Nat
  index : Fin cliOptions.length
  optarg : CString
  deriving DecidableEq, Repr

/-- The conversion of an argument with its three checks. The comparison with the
maximum is one of signed integers. -/
def cliParseInteger (optarg : CString) (maximum : U64) : Option U64 :=
  let converted := strtoul optarg.bytes
  if converted.consumed = 0 ∨ converted.outOfRange ∨ maximum.slt converted.value then none
  else some converted.value

/-- A branch that stores a number, or returns the error of its option. -/
def cliParseNumber (cli : LetCli) (optarg : CString) (maximum : U64) (error : ErrorCli)
    (store : U64 → LetCli) : Error × LetCli :=
  match cliParseInteger optarg maximum with
  | none => (.cli error, cli)
  | some value => (.none, store value)

def u16Max : U16 := 0xFFFF
def u32Max : U32 := 0xFFFFFFFF

/-- The switch, with the error that it returns. -/
def cliParseOption (cli : LetCli) (matched : Matched) : Error × LetCli :=
  if matched.option = 0 then
    if (cliOptions.get matched.index).name = "read-timeout" then
      cliParseNumber cli matched.optarg (u32Max.setWidth 64) .invalidReadTimeout
        fun value => { cli with readTimeout := value.setWidth 32 }
    else if (cliOptions.get matched.index).name = "write-timeout" then
      cliParseNumber cli matched.optarg (u32Max.setWidth 64) .invalidWriteTimeout
        fun value => { cli with writeTimeout := value.setWidth 32 }
    else (.none, cli)
  else if matched.option = 'h'.toNat then (.none, { cli with help := true })
  else if matched.option = 'v'.toNat then (.none, { cli with version := true })
  else if matched.option = 'p'.toNat then
    cliParseNumber cli matched.optarg (u16Max.setWidth 64) .invalidPort
      fun value => { cli with port := value.setWidth 16 }
  else if matched.option = 'b'.toNat then
    cliParseNumber cli matched.optarg (u16Max.setWidth 64) .invalidBacklog
      fun value => { cli with backlog := value.setWidth 16 }
  else if matched.option = 'l'.toNat then
    cliParseNumber cli matched.optarg (logLevelNone.setWidth 64) .invalidLogLevel
      fun value => { cli with logLevel := value.setWidth 8 }
  else if matched.option = 't'.toNat then (.none, { cli with truncateOnFail := true })
  else if matched.option = 'f'.toNat then (.none, { cli with storageFile := matched.optarg })
  else (.cli .invalidOption, cli)

/-- `let_cli_parse`, over all that `getopt_long` finds. -/
def cliParse (cli : LetCli) : List Matched → Error × LetCli
  | [] => (.none, cli)
  | matched :: rest =>
      let (error, cli) := cliParseOption cli matched
      if errorExists error then (error, cli) else cliParse cli rest

/-! ## The numeric options -/

inductive NumericOption
  | port
  | backlog
  | logLevel
  | readTimeout
  | writeTimeout
  deriving DecidableEq, Repr

namespace NumericOption

def name : NumericOption → String
  | port => "port"
  | backlog => "backlog"
  | logLevel => "log-level"
  | readTimeout => "read-timeout"
  | writeTimeout => "write-timeout"

def maximum : NumericOption → Nat
  | port | backlog => 65535
  | logLevel => logLevelNone.toNat
  | readTimeout | writeTimeout => 2 ^ 32 - 1

/-- The options with this one set to a number. -/
def store (cli : LetCli) (number : Nat) : NumericOption → LetCli
  | port => { cli with port := BitVec.ofNat 16 number }
  | backlog => { cli with backlog := BitVec.ofNat 16 number }
  | logLevel => { cli with logLevel := BitVec.ofNat 8 number }
  | readTimeout => { cli with readTimeout := BitVec.ofNat 32 number }
  | writeTimeout => { cli with writeTimeout := BitVec.ofNat 32 number }

def error : NumericOption → ErrorCli
  | port => .invalidPort
  | backlog => .invalidBacklog
  | logLevel => .invalidLogLevel
  | readTimeout => .invalidReadTimeout
  | writeTimeout => .invalidWriteTimeout

/-- `getopt_long` has found this option with this argument. A long option without
a value of its own is told by its index. -/
def Delivers (option : NumericOption) (argument : CString) (matched : Matched) : Prop :=
  matched.optarg = argument ∧ ∃ position : Fin cliOptions.length,
    (cliOptions.get position).name = option.name ∧
      matched.option = (cliOptions.get position).val ∧
      (matched.option = 0 → matched.index = position)

end NumericOption

end LetDX.LetDB
