import LetDX.LetDD.Tcp.Request

/-! # Requests to the HTTP server -/

namespace LetDX.LetDD

/-- What the framework hands to middleware and handlers of a request. The rest
of it is known only to the framework. -/
structure HttpRequest where
  method : String
  path : String
  headers : List (String × List U8) := []
  body : List U8 := []
  deriving DecidableEq, Repr

def methodGet : String := "GET"
def methodPost : String := "POST"
def methodPut : String := "PUT"

/-! ## Flags -/

def flagNone : U8 := 0
def flagCanSend : U8 := 1 <<< 0
def flagCanReceive : U8 := 1 <<< 1
def flagCanDebt : U8 := 1 <<< 2

abbrev Flags := List String

/-- `Flags.ToUint8`, unless one of them is invalid. -/
def Flags.toUint8 (f : Flags) : Option U8 :=
  f.foldlM (fun result flag =>
    if flag = "send" then some (result ||| flagCanSend)
    else if flag = "receive" then some (result ||| flagCanReceive)
    else if flag = "debt" then some (result ||| flagCanDebt)
    else none) flagNone

/-! ## Bodies -/

/-- A field is empty if the body does not set it. -/
structure PostAccountRequest where
  credits : Option Uint128
  debits : Option Uint128
  flags : Option Flags
  deriving DecidableEq, Repr

structure UpdateAccountRequest where
  flags : Option Flags
  deriving DecidableEq, Repr

structure PostTransferRequest where
  fromID : Option U64
  toID : Option U64
  amount : Option Uint128
  deriving DecidableEq, Repr

/-- All fields are required. -/
def PostAccountRequest.validate (request : PostAccountRequest) : Bool :=
  request.credits.isSome && request.debits.isSome && request.flags.isSome

def UpdateAccountRequest.validate (request : UpdateAccountRequest) : Bool :=
  request.flags.isSome

def PostTransferRequest.validate (request : PostTransferRequest) : Bool :=
  request.fromID.isSome && request.toID.isSome && request.amount.isSome

/-- `BindAndValidate` -/
def bindAndValidate {T : Type} (bind : HttpRequest → Option T) (validate : T → Bool)
    (request : HttpRequest) : Option T :=
  (bind request).filter validate

end LetDX.LetDD
