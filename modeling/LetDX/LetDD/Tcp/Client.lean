import LetDX.LetDD.Supervisor
import LetDX.LetDD.Tcp.Response

/-! # The client of the server

One call at a time holds the mutex. It is retried on a new connection until the
supervisor gives up, and every new connection starts with a handshake that asks
for the count of transactions.
-/

namespace LetDX.LetDD

open Effects

structure Client where
  connection : Option Nat
  address : String
  transactions : U64
  supervisor : Supervisor
  deriving DecidableEq, Repr

/-- What `Communicate` reports instead of a response. -/
inductive CommunicateError
  | aborted
  | failed
  deriving DecidableEq, Repr

def newClient (address : String) (observer : Option Supervisor) : Client where
  connection := none
  address
  transactions := 0
  supervisor := observer.getD (newSupervisor 5 5000000000 200000000)

namespace Client

/-- Whether the request was sent. Encoding may panic. -/
def sendRequest (connection : Nat) (request : Request) : Proc Bool :=
  match request.encode with
  | none => .fault
  | some bytes => Proc.write connection bytes

def receiveResponse (connection : Nat) : Proc (Option Response) := do
  match ← Proc.readBytes connection with
  | none => return none
  | some data => return parseResponse data

def disconnect (c : Client) : Proc Client :=
  match c.connection with
  | none => return c
  | some connection => do
      let _ ← Proc.close connection
      return { c with connection := none }

/-- The handshake on a new connection, and whether it succeeded. -/
def handshake (c : Client) (connection : Nat) : Proc (Bool × Client) := do
  if ← sendRequest connection .countDatabase then
    match ← receiveResponse connection with
    | none =>
        let c ← c.disconnect
        return (false, c)
    | some (.countDatabase _ transactions) => return (true, { c with transactions })
    | some _ =>
        let c ← c.disconnect
        return (false, c)
  else
    let c ← c.disconnect
    return (false, c)

/-- Whether there is a connection now. A context that is done after dialing
leaves the new connection behind. -/
def connect (c : Client) : Proc (Bool × Client) :=
  match c.connection with
  | some _ => return (true, c)
  | none => do
      let dialed ← Proc.dial c.address
      -- The context is looked at before the error of dialing is.
      if ← Proc.contextErr then return (false, c)
      else
        match dialed with
        | none => return (false, c)
        | some connection => handshake { c with connection := some connection } connection

/-- The variables of `Communicate`. The outcome is empty before the first
attempt, then the error of the last one or the response. -/
structure Communicate where
  client : Client
  request : Request
  updateTransactions : Bool := false
  outcome : Option (Except Unit Response) := none
  deriving DecidableEq, Repr

/-- An attempt once its request has its number. A response ends the loop. -/
def transmit (s : Communicate) (connection : Nat) : Proc (Communicate ⊕ Communicate) := do
  if ← sendRequest connection s.request then
    match ← receiveResponse connection with
    | some response => return .inr { s with outcome := some (.ok response) }
    | none =>
        let client ← s.client.disconnect
        return .inl { s with client, outcome := some (.error ()) }
  else
    let client ← s.client.disconnect
    return .inl { s with client, outcome := some (.error ()) }

/-- One attempt on the connection there is. -/
def exchange (s : Communicate) (connection : Nat) : Proc (Communicate ⊕ Communicate) :=
  let s := match s.request.setID s.client.transactions with
    | some request => { s with request, updateTransactions := true }
    | none => s
  transmit s connection

theorem exchange_of_none {s : Communicate} (connection : Nat)
    (hset : s.request.setID s.client.transactions = none) :
    exchange s connection = transmit s connection := by
  rw [exchange, hset]

theorem exchange_of_some {s : Communicate} {request : Request} (connection : Nat)
    (hset : s.request.setID s.client.transactions = some request) :
    exchange s connection =
      transmit { s with request, updateTransactions := true } connection := by
  rw [exchange, hset]

/-- One round of the loop, from its condition. -/
def communicateRound (s : Communicate) : Proc (Communicate ⊕ Communicate) := do
  let (proceed, supervisor) ← s.client.supervisor.try
  let client := { s.client with supervisor }
  if proceed then
    let (connected, client) ← client.connect
    match connected, client.connection with
    | true, some connection => exchange { s with client } connection
    -- Without a connection there is no writer to write to.
    | true, none => .fault
    | false, _ => return .inl { s with client, outcome := some (.error ()) }
  else return .inr { s with client }

/-- What follows the loop. A missing response would be dereferenced. -/
def communicateDone (s : Communicate) : Proc (Except CommunicateError Response × Client) := do
  let client := { s.client with supervisor := s.client.supervisor.reset }
  if ← Proc.contextErr then return (.error .aborted, client)
  else
    match s.outcome with
    | none => .fault
    | some (.error _) => return (.error .failed, client)
    | some (.ok response) =>
        if s.updateTransactions ∧ response.kind ≠ .error then
          return (.ok response, { client with transactions := client.transactions + 1 })
        else return (.ok response, client)

def communicate (c : Client) (request : Request) :
    Proc (Except CommunicateError Response × Client) := do
  let s ← Program.iterate communicateRound { client := c, request }
  communicateDone s

end Client

end LetDX.LetDD
