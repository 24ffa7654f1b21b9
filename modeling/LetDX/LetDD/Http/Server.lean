import LetDX.LetDD.Config.Config
import LetDX.LetDD.Http.Request
import LetDX.LetDD.Tcp.Client

/-! # The HTTP server of the proxy

A request is routed, passes the middleware in the order in which it was
installed, and comes to its handler, which may forward one request to the
client. The framework itself is a parameter.
-/

namespace LetDX.LetDD

open Bytes

inductive Handler
  | getAccount
  | updateAccount
  | postAccount
  | postTransfer
  deriving DecidableEq, Repr

structure Route where
  method : String
  path : String
  handler : Handler
  deriving DecidableEq, Repr

inductive Middleware
  | requestLogger
  | bodyLimit (limit : BitVec 64)
  | keyAuth (validator : HttpRequest → List U8 → Bool)
  | rateLimiter (config : RateLimiterMemoryStoreConfig)
  | contextTimeout (timeout : Duration)

/-- The framework. Its key middleware lets a request through only with one of
the keys of that request, and only if the validator has returned true for it. -/
structure Echo where
  starts : List Middleware → String → Bool
  route : List Route → HttpRequest → Option Route
  keys : HttpRequest → List (List U8)
  keyAuth : (List U8 → Bool) → HttpRequest → Option (List U8)
  bodyLimit : BitVec 64 → HttpRequest → Bool
  allow : RateLimiterMemoryStoreConfig → HttpRequest → List U8 → Bool
  pathParam : HttpRequest → String → Option U64
  bindPostAccount : HttpRequest → Option PostAccountRequest
  bindUpdateAccount : HttpRequest → Option UpdateAccountRequest
  bindPostTransfer : HttpRequest → Option PostTransferRequest
  keyAuth_valid : ∀ {validator request key}, keyAuth validator request = some key →
    key ∈ keys request ∧ validator key = true

/-- A request with what has been stored for it under the name "transfer". -/
structure Context where
  request : HttpRequest
  transfer : Option PostTransferRequest := none
  deriving DecidableEq, Repr

/-! ## The rate limiter -/

/-- Only transfers are limited. -/
def skipper (request : HttpRequest) : Bool :=
  !(request.method = methodPost && request.path = "/transfers")

/-- The account that is to send, with the request stored for the handler. -/
def identifierExtractor (echo : Echo) (ctx : Context) : Option (List U8 × Context) := do
  let postTransfer ←
    bindAndValidate echo.bindPostTransfer PostTransferRequest.validate ctx.request
  let fromID ← postTransfer.fromID
  return (decimal fromID.toNat, { ctx with transfer := some postTransfer })

/-- Whether a request goes on to what was installed next. -/
def Middleware.pass (echo : Echo) (ctx : Context) : Middleware → Option Context
  | requestLogger => some ctx
  | bodyLimit limit => if echo.bodyLimit limit ctx.request then some ctx else none
  | keyAuth validator => (echo.keyAuth (validator ctx.request) ctx.request).map fun _ => ctx
  | rateLimiter config =>
      if skipper ctx.request then some ctx
      else do
        let (identifier, ctx) ← identifierExtractor echo ctx
        if echo.allow config ctx.request identifier then some ctx else none
  | contextTimeout _ => some ctx

/-! ## Handlers -/

namespace Handler

/-- The request that a handler forwards, if it comes to that. -/
def forward (echo : Echo) (ctx : Context) : Handler → Option Request
  | getAccount => do
      let accountID ← echo.pathParam ctx.request "id"
      return .getAccount accountID
  | updateAccount => do
      let accountID ← echo.pathParam ctx.request "id"
      let updateAccount ←
        bindAndValidate echo.bindUpdateAccount UpdateAccountRequest.validate ctx.request
      let flags ← (← updateAccount.flags).toUint8
      return .updateAccount 0 accountID flags
  | postAccount => do
      let postAccount ←
        bindAndValidate echo.bindPostAccount PostAccountRequest.validate ctx.request
      let flags ← (← postAccount.flags).toUint8
      return .addAccount 0 (← postAccount.credits) (← postAccount.debits) flags
  | postTransfer => do
      let transfer ←
        match ctx.transfer with
        | some transfer => some transfer
        | none => bindAndValidate echo.bindPostTransfer PostTransferRequest.validate ctx.request
      return .makeTransfer 0 (← transfer.fromID) (← transfer.toID) (← transfer.amount)

end Handler

/-! ## The server -/

structure Server where
  client : Client
  config : Config
  deriving DecidableEq, Repr

def newServer (client : Client) (config : Config) : Server where
  client
  config

namespace Server

def authorization (s : Server) (request : HttpRequest) (userToken : List U8) : Bool :=
  if !s.config.isMatches userToken then false
  else if request.method = methodGet then s.config.isPermitted permissionRead
  else if request.method = methodPost ∨ request.method = methodPut then
    s.config.isPermitted permissionWrite
  else false

/-- What `Start` installs. -/
def middleware (s : Server) : List Middleware :=
  [.requestLogger, .bodyLimit s.config.bodyLimit] ++
    (if s.config.serverToken.length > 0 then [.keyAuth s.authorization] else []) ++
    (match s.config.rateLimiter with
      | some config => [.rateLimiter config]
      | none => []) ++
    [.contextTimeout s.config.contextTimeout]

def routes : List Route :=
  [⟨methodGet, "/accounts/:id", .getAccount⟩, ⟨methodPut, "/accounts/:id", .updateAccount⟩,
    ⟨methodPost, "/accounts", .postAccount⟩, ⟨methodPost, "/transfers", .postTransfer⟩]

/-- The request that the server forwards to the client for this one, if it does. -/
def serve (s : Server) (echo : Echo) (request : HttpRequest) : Option Request := do
  let route ← echo.route routes request
  let ctx ← s.middleware.foldlM (Middleware.pass echo) { request }
  route.handler.forward echo ctx

end Server

end LetDX.LetDD
