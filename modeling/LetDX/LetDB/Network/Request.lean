import LetDX.LetDB.Error

/-! # Requests and their decoder

A request is a line: a command byte and decimal arguments separated by single
spaces, where the final newline is read as one more space. The decoder is a
state machine over the bytes of the line.
-/

namespace LetDX.LetDB

/-- `let_network_request_t`: the type of a request with the member of the union. -/
inductive NetworkRequest
  | magic
  | addAccount (walId : U64) (credits debits : U128) (flags : U8)
  | makeTransfer (walId fromId toId : U64) (amount : U128)
  | getAccount (accountId : U64)
  | countDatabase
  | updateAccount (walId accountId : U64) (flags : U8)
  | close
  deriving DecidableEq, Repr

def networkRequestEmpty : NetworkRequest := .magic

inductive NetworkRequestDecoderState
  | command
  | argument
  | end
  deriving DecidableEq, Repr

structure NetworkRequestDecoder where
  request : NetworkRequest
  requestArgc : Nat
  state : NetworkRequestDecoderState
  deriving DecidableEq, Repr

def networkRequestDecoderEmpty : NetworkRequestDecoder :=
  { request := networkRequestEmpty, requestArgc := 0, state := .command }

/-! ## Bytes of the protocol -/

def asciiSpace : U8 := 0x20

def asciiNewline : U8 := 0x0A

def asciiUnderscore : U8 := 0x5F

/-! ## Integers -/

/-- One byte of an integer: the count of arguments left and the value so far. -/
def networkRequestDecoderParseU128 (argc : Nat) (currentByte : U8) (output : U128) :
    Except Error (Nat × U128) :=
  if 0x30 ≤ currentByte ∧ currentByte ≤ 0x39 then
    let digit : U128 := (currentByte - 0x30).setWidth 128
    if output > BitVec.allOnes 128 / 10 then .error (.network .requestIntegerOverflow)
    else if digit > BitVec.allOnes 128 - output * 10 then
      .error (.network .requestIntegerOverflow)
    else .ok (argc, output * 10 + digit)
  else if currentByte = asciiSpace then .ok (argc - 1, output)
  else if currentByte ≠ asciiUnderscore then .error (.network .requestInvalidInteger)
  else .ok (argc, output)

/-- An integer of fewer bits is parsed as one of 128 bits and then checked. -/
def networkRequestDecoderParseNarrow (bits : Nat) (argc : Nat) (currentByte : U8)
    (output : BitVec bits) : Except Error (Nat × BitVec bits) :=
  match networkRequestDecoderParseU128 argc currentByte (output.setWidth 128) with
  | .error error => .error error
  | .ok (argc, currentOutput) =>
      if currentOutput > (BitVec.allOnes bits).setWidth 128 then
        .error (.network .requestIntegerOverflow)
      else .ok (argc, currentOutput.setWidth bits)

def networkRequestDecoderParseU64 : Nat → U8 → U64 → Except Error (Nat × U64) :=
  networkRequestDecoderParseNarrow 64

def networkRequestDecoderParseU8 : Nat → U8 → U8 → Except Error (Nat × U8) :=
  networkRequestDecoderParseNarrow 8

/-! ## The state machine -/

def networkRequestDecoderRunCommand (decoder : NetworkRequestDecoder) (currentByte : U8) :
    Except Error NetworkRequestDecoder :=
  let started (request : NetworkRequest) (argc : Nat) : Except Error NetworkRequestDecoder :=
    .ok { decoder with request, requestArgc := argc, state := .argument }
  if currentByte = 0x3B then started .magic decoder.requestArgc
  else if currentByte = 0x2B then started (.addAccount 0 0 0 0) 4
  else if currentByte = 0x25 then started (.makeTransfer 0 0 0 0) 4
  else if currentByte = 0x3F then started (.getAccount 0) 1
  else if currentByte = 0x23 then started .countDatabase decoder.requestArgc
  else if currentByte = 0x3D then started (.updateAccount 0 0 0) 3
  else if currentByte = 0x2E then started .close decoder.requestArgc
  else .error (.network .requestInvalidCommand)

/-- Parse the current byte into the argument that is due. -/
def networkRequestDecoderRunValue (decoder : NetworkRequestDecoder) (currentByte : U8) :
    Except Error NetworkRequestDecoder :=
  let argc := decoder.requestArgc
  let store {bits : Nat} (parsed : Except Error (Nat × BitVec bits))
      (request : BitVec bits → NetworkRequest) : Except Error NetworkRequestDecoder :=
    parsed.map fun (argc, value) => { decoder with request := request value, requestArgc := argc }
  match decoder.request with
  | .addAccount walId credits debits flags =>
      if argc = 4 then store (networkRequestDecoderParseU64 argc currentByte walId)
        (.addAccount · credits debits flags)
      else if argc = 3 then store (networkRequestDecoderParseU128 argc currentByte credits)
        (.addAccount walId · debits flags)
      else if argc = 2 then store (networkRequestDecoderParseU128 argc currentByte debits)
        (.addAccount walId credits · flags)
      else if argc = 1 then store (networkRequestDecoderParseU8 argc currentByte flags)
        (.addAccount walId credits debits ·)
      else .ok decoder
  | .makeTransfer walId fromId toId amount =>
      if argc = 4 then store (networkRequestDecoderParseU64 argc currentByte walId)
        (.makeTransfer · fromId toId amount)
      else if argc = 3 then store (networkRequestDecoderParseU64 argc currentByte fromId)
        (.makeTransfer walId · toId amount)
      else if argc = 2 then store (networkRequestDecoderParseU64 argc currentByte toId)
        (.makeTransfer walId fromId · amount)
      else if argc = 1 then store (networkRequestDecoderParseU128 argc currentByte amount)
        (.makeTransfer walId fromId toId ·)
      else .ok decoder
  | .getAccount accountId =>
      if argc = 1 then store (networkRequestDecoderParseU64 argc currentByte accountId) .getAccount
      else .ok decoder
  | .updateAccount walId accountId flags =>
      if argc = 3 then store (networkRequestDecoderParseU64 argc currentByte walId)
        (.updateAccount · accountId flags)
      else if argc = 2 then store (networkRequestDecoderParseU64 argc currentByte accountId)
        (.updateAccount walId · flags)
      else if argc = 1 then store (networkRequestDecoderParseU8 argc currentByte flags)
        (.updateAccount walId accountId ·)
      else .ok decoder
  | .magic | .countDatabase | .close => .ok decoder

def networkRequestDecoderRunArgument (decoder : NetworkRequestDecoder) (currentByte : U8) :
    Except Error NetworkRequestDecoder :=
  if decoder.requestArgc = 0 then
    if currentByte = asciiSpace then .ok { decoder with state := .end }
    else .error (.network .requestExpectedNewLine)
  -- The space after the last argument ends the request; the parser takes the others.
  else if decoder.requestArgc = 1 ∧ currentByte = asciiSpace then
    .ok { decoder with requestArgc := decoder.requestArgc - 1, state := .end }
  else networkRequestDecoderRunValue decoder currentByte

/-- The loop over the buffer, with the bytes left when the end state is reached. -/
def networkRequestDecoderRunBytes :
    NetworkRequestDecoder → List U8 → Except Error (NetworkRequestDecoder × List U8)
  | decoder, [] => .ok (decoder, [])
  | decoder, currentByte :: rest =>
      match decoder.state with
      | .command =>
          match networkRequestDecoderRunCommand decoder currentByte with
          | .error error => .error error
          | .ok decoder => networkRequestDecoderRunBytes decoder rest
      | .argument =>
          match networkRequestDecoderRunArgument decoder currentByte with
          | .error error => .error error
          | .ok decoder => networkRequestDecoderRunBytes decoder rest
      | .end => .ok (decoder, currentByte :: rest)

def networkRequestDecoderRun (buffer : List U8) : Except Error NetworkRequest :=
  if buffer = [] then .error (.network .requestEmpty)
  else
    match networkRequestDecoderRunBytes networkRequestDecoderEmpty buffer with
    | .error error => .error error
    | .ok (decoder, rest) =>
        if decoder.requestArgc ≠ 0 then .error (.network .requestArgumentsMissing)
        else if decoder.state ≠ .end ∨ rest ≠ [] then .error (.network .requestMalformed)
        else .ok decoder.request

/-- The error of the decoder and the output request, which a failure leaves as it was. -/
def networkRequestDecode (buffer : List U8) (output : NetworkRequest) : Error × NetworkRequest :=
  match networkRequestDecoderRun buffer with
  | .error error => (error, output)
  | .ok request => (.none, request)

end LetDX.LetDB
