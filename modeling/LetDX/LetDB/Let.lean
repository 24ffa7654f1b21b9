import LetDX.LetDB.Guard
import LetDX.LetDB.Network.Server
import LetDX.LetDB.Storage.Wal

/-! # The application

The application context, the handling of one request, and the main loops. The
loops are a step function over their program points, so that a run of the
server is a sequence of steps and each point of it can be spoken about.
-/

namespace LetDX.LetDB

open Effects

/-- The options that the loops and the initialization use. -/
structure Cli where
  port : U16
  backlog : U16
  truncateOnFail : Bool
  deriving DecidableEq, Repr

/-- The default options. -/
def cliEmpty : Cli := { port := 55543, backlog := 1, truncateOnFail := false }

/-- `let_t`, without the flags shared with the signal handler. The account list
is the one of the state, which the guard and the log share. -/
structure Let where
  state : State
  storageWal : StorageWal
  error : Error
  deriving DecidableEq, Repr

/-- Open the log and replay it into the state. -/
def letInitStorage (state : State) (truncateOnFail : Bool) : Proc (Error × StorageWal × State) := do
  let error ← storageWalInit
  if errorExists error then return (error, storageWalEmpty, state)
  else storageWalReplay storageWalEmpty state truncateOnFail

/-- An error is left in the context, and the server does not run. -/
def letInit (cli : Cli) : Proc (Except Error Let) := do
  match ← accountListNew with
  | none => return .error (.account .outOfMemory)
  | some accountList =>
      let (error, storageWal, state) ← letInitStorage { accountList } cli.truncateOnFail
      if errorExists error then return .error error
      else
        let error ← networkServerInit cli.port cli.backlog
        if errorExists error then return .error error
        else
          Proc.setAccepting true
          return .ok { state, storageWal, error }

/-! ## One request -/

/-- A mutating request once it is admitted: log the entry, then change the state. -/
def letRequestLogged (context : Let) (entry : StorageWalEntry) (response : NetworkResponse)
    (mutate : State → Proc (Error × State × NetworkResponse)) :
    Proc (Error × Let × NetworkResponse) := do
  let (error, storageWal) ← storageWalWrite context.storageWal entry
  if errorExists error then return (error, { context with storageWal }, response)
  else
    let (error, state, response) ← mutate context.state
    return (error, { context with storageWal, state }, response)

def letRequestAddAccount (context : Let) (response : NetworkResponse) (timeNow : Time)
    (walId : U64) (credits debits : U128) (flags : U8) : Proc (Error × Let × NetworkResponse) :=
  letRequestLogged context (storageWalEntryNew walId timeNow (.addAccount credits debits flags))
    response fun state => do
      let (error, state, accountId) ←
        stateAddAccount state (accountNew credits debits timeNow flags)
      if errorExists error then return (error, state, response)
      else return (error, state, .addAccount accountId)

/-- The response is set whatever the state machine returns. -/
def letRequestMakeTransfer (context : Let) (response : NetworkResponse) (timeNow : Time)
    (walId fromId toId : U64) (amount : U128) : Proc (Error × Let × NetworkResponse) :=
  let error := guardMakeTransfer context.state fromId toId amount
  if errorExists error then return (error, context, response)
  else letRequestLogged context
    (storageWalEntryNew walId timeNow (.makeTransfer fromId toId amount)) response fun state => do
      let (error, state) ← stateMakeTransfer state fromId toId amount
      return (error, state, .ok)

/-- The response is set whatever the state machine returns. -/
def letRequestUpdateAccount (context : Let) (response : NetworkResponse) (timeNow : Time)
    (walId accountId : U64) (flags : U8) : Proc (Error × Let × NetworkResponse) :=
  let error := guardUpdateAccount context.state accountId
  if errorExists error then return (error, context, response)
  else letRequestLogged context
    (storageWalEntryNew walId timeNow (.updateAccount accountId flags)) response fun state => do
      let (error, state) ← stateUpdateAccount state accountId flags
      return (error, state, .ok)

def letRequestGetAccount (context : Let) (response : NetworkResponse) (accountId : U64) :
    Error × Let × NetworkResponse :=
  match accountListGet context.state.accountList accountId with
  | .error error => (error, context, response)
  | .ok account => (.none, context, .getAccount account.credits account.debits account.flags)

def letRequest (context : Let) (request : NetworkRequest) (response : NetworkResponse) :
    Proc (Error × Let × NetworkResponse) := do
  let timeNow ← Proc.time
  if timeNow = Time.failed then return (.state .invalidTime, context, response)
  else
    match request with
    | .magic => return (.none, context, .magic)
    | .addAccount walId credits debits flags =>
        letRequestAddAccount context response timeNow walId credits debits flags
    | .makeTransfer walId fromId toId amount =>
        letRequestMakeTransfer context response timeNow walId fromId toId amount
    | .getAccount accountId => return letRequestGetAccount context response accountId
    | .countDatabase =>
        return (.none, context,
          .countDatabase context.state.accountList.length context.storageWal.transactions)
    | .updateAccount walId accountId flags =>
        letRequestUpdateAccount context response timeNow walId accountId flags
    | .close => return (.none, context, .ok)

/-! ## The main loops -/

/-- The program points of `let_run`: about to accept, to read, to process what
was read, to write the response, and the end. -/
inductive LetRun
  | accepting (context : Let)
  | reading (context : Let)
  | processing (context : Let) (request : NetworkRequest)
  | responding (context : Let) (request : NetworkRequest) (response : NetworkResponse)
  | finished (context : Let)
  deriving DecidableEq, Repr

/-- The condition of the outer loop. -/
def letRunAccepting (context : Let) : Proc LetRun := do
  if ← Proc.getAccepting then return .accepting context
  else return .finished context

/-- The condition of the inner loop, and what follows that loop. -/
def letRunExecuting (context : Let) : Proc LetRun := do
  if ← Proc.getExecuting then return .reading context
  else
    Proc.closeSocket
    letRunAccepting context

/-- The switch over the action of the report of the error. -/
def letRunDispatch (context : Let) (request : NetworkRequest) (response : NetworkResponse) :
    Proc LetRun :=
  match (errorReport context.error).action with
  | .none => return .responding context request response
  | .reject => return .responding { context with error := .none } request (.error context.error)
  | .ignore => do
      Proc.setExecuting false
      letRunExecuting { context with error := .none }
  | .close => do
      Proc.setExecuting false
      letRunExecuting context
  | .fatal => do
      Proc.setExecuting false
      Proc.setAccepting false
      letRunExecuting context

/-- What follows the writing of a response. -/
def letRunResponded (context : Let) (request : NetworkRequest) : Proc LetRun := do
  if errorExists context.error then
    let action := (errorReport context.error).action
    if action = .fatal then
      Proc.setAccepting false
      Proc.setExecuting (action ≠ .close)
      letRunExecuting context
    else
      Proc.setExecuting (action ≠ .close)
      letRunExecuting context
  else if request = .close then
    Proc.setExecuting false
    letRunExecuting context
  else letRunExecuting context

/-- The run from one program point to the next. -/
def letRunStep : LetRun → Proc LetRun
  | .accepting context => do
      let error ← networkServerAccept
      if errorExists error then return .finished { context with error }
      else
        Proc.setExecuting true
        letRunExecuting { context with error }
  | .reading context => do
      let (error, request) ← networkClientRead networkRequestEmpty
      if errorExists error then letRunDispatch { context with error } request networkResponseEmpty
      else return .processing { context with error } request
  | .processing context request => do
      let (error, context, response) ← letRequest context request networkResponseEmpty
      letRunDispatch { context with error } request response
  | .responding context request response => do
      let error ← networkClientWrite response
      letRunResponded { context with error } request
  | .finished context => return .finished context

/-- Initialization, and the start of the loops if it succeeded. -/
def letStart (cli : Cli) : Proc (Except Error LetRun) := do
  match ← letInit cli with
  | .error error => return .error error
  | .ok context =>
      let point ← letRunAccepting context
      return .ok point

end LetDX.LetDB
