import LetDX.Effects.Relation
import LetDX.LetDB.Server.Step
import LetDX.LetDD.Tcp.Client
import Mathlib.Logic.Function.Basic

/-! # The two programs and the connections between them

The server takes the steps of its loops and serves the connections one after
the other, in the order in which they were dialed. A connection carries a stream
of bytes each way. Either side may lose it at any moment, and what was written to
it may or may not arrive, but nothing arrives out of order.

Some fields only record what has happened: the number of the call that wrote
each byte, that asked for each record of the log, and that sent its request once
more with a record of it in the log already.
-/

namespace LetDX.Wire

open Effects LetDB

/-- A connection: what the client has written, what the server has sent, how
much of that the client has taken, and whether the client has closed it. -/
structure Link where
  written : List (U8 × Nat) := []
  sent : List U8 := []
  taken : Nat := 0
  closed : Bool := false
  deriving DecidableEq, Repr

def Link.bytes (link : Link) : List U8 :=
  link.written.map Prod.fst

/-- What the client can still take. -/
def Link.pending (link : Link) : List U8 :=
  link.sent.drop link.taken

/-- The number of whole records in the file. -/
def recordCount (disk : Durable.Disk) : Nat :=
  (disk.bytes.length - storageWalHeaderLength) / storageWalEntrySafeSize

/-- The server with the connections dialed so far, as many of them accepted, and
the records that its log has had at first. -/
structure Service where
  point : LetRun
  world : World
  initial : Nat
  links : Nat → Link := fun _ => {}
  dialed : Nat := 0
  accepted : Nat := 0
  records : List Nat := []
  repeated : List Nat := []

namespace Service

/-- The connection that was accepted last. -/
def current (service : Service) : Link :=
  service.links (service.accepted - 1)

/-- The call that wrote the byte received last. -/
def author (service : Service) : Nat :=
  ((service.current.written[service.world.received.length - 1]?).map Prod.snd).getD 0

def setLink (service : Service) (connection : Nat) (link : Link) : Service :=
  { service with links := Function.update service.links connection link }

/-- The connection with more bytes written to it by a call. -/
def written (service : Service) (connection call : Nat) (bytes : List U8) : Link :=
  { service.links connection with
    written := (service.links connection).written ++ bytes.map fun byte => (byte, call) }

/-- The server has come to another point. -/
def advance (service : Service) (point : LetRun) (world : World) : Service :=
  { service with
    point
    world
    links := Function.update service.links (service.accepted - 1)
      { service.current with sent := world.sent }
    records := service.records ++
      List.replicate (recordCount world.disk - recordCount service.world.disk) service.author }

end Service

/-- A step of the server. A connection is accepted only if one was dialed, and
bytes are received only as they were written. -/
inductive Served : Service → Service → Prop
  | accepts {service : Service} {point : LetRun} {world : World} {context : Let}
      (accepting : service.point = .accepting context)
      (waiting : service.accepted < service.dialed)
      (stepped : (system false).Returns (letRunStep service.point) service.world point world) :
      Served service { service with point, world, accepted := service.accepted + 1 }
  | stops {service : Service} {world : World} {context context' : Let}
      (accepting : service.point = .accepting context)
      (stepped : (system false).Returns (letRunStep service.point) service.world
        (.finished context') world) :
      Served service { service with point := .finished context', world }
  | serves {service : Service} {point : LetRun} {world : World}
      (serving : ¬service.point.Ended)
      (arrived : world.received <+: service.current.bytes)
      (stepped : (system false).Returns (letRunStep service.point) service.world point world) :
      Served service (service.advance point world)

/-- These bytes are the whole line of a mutating request. -/
def carriesOperation (bytes : List U8) : Bool :=
  bytes.getLast? = some asciiNewline ∧
    (networkRequestDecode (bytes.dropLast ++ [asciiSpace]) networkRequestEmpty).2.operation.isSome

/-- What the client finds around it: the service, the number of the current
call, whether its context is done, and the line it has read last. -/
structure Surroundings where
  service : Service
  call : Nat := 0
  contextDone : Bool := false
  heard : Option (List U8) := none

namespace Surroundings

/-- Another call begins. -/
def begin (around : Surroundings) : Surroundings :=
  { service := around.service, call := around.call + 1 }

def write (around : Surroundings) (connection : Nat) (bytes : List U8) : Surroundings :=
  let service := around.service
  { around with
    service :=
      { service.setLink connection (service.written connection around.call bytes) with
        repeated :=
          if carriesOperation bytes ∧ around.call ∈ service.records then
            around.call :: service.repeated
          else service.repeated } }

def read (around : Surroundings) (connection : Nat) (line : List U8) : Surroundings :=
  let link := around.service.links connection
  { around with
    service := around.service.setLink connection { link with taken := link.taken + line.length }
    heard := some line }

def close (around : Surroundings) (connection : Nat) : Surroundings :=
  { around with
    service := around.service.setLink connection
      { around.service.links connection with closed := true } }

/-- What a call of the client may do at once. A context that is done stays done.
A write that fails may have written some of its bytes. -/
def Allows : (op : LetDD.Syscall) → Surroundings → op.Answer → Surroundings → Prop
  | .contextErr, around, (done : Bool), around' =>
      (around.contextDone = true → done = true) ∧ around' = { around with contextDone := done }
  | .wait _, around, (fired : Bool), around' =>
      ∃ done, (around.contextDone = true → done = true) ∧ (fired = false → done = true) ∧
        around' = { around with contextDone := done }
  | .dial _, around, (dialed : Option Nat), around' =>
      dialed = none ∧ around' = around ∨
        dialed = some around.service.dialed ∧
          around' = { around with
            service := { around.service with dialed := around.service.dialed + 1 } }
  | .write connection bytes, around, (whole : Bool), around' =>
      ∃ delivered, delivered <+: bytes ∧ (whole = true → delivered = bytes) ∧
        around' = around.write connection delivered
  | .readBytes connection, around, (read : Option (List U8)), around' =>
      read = none ∧ around' = around ∨
        ∃ body, asciiNewline ∉ body ∧ read = some (body ++ [asciiNewline]) ∧
          body ++ [asciiNewline] <+: (around.service.links connection).pending ∧
          around' = around.read connection (body ++ [asciiNewline])
  | .close connection, around, (_ : Bool), around' => around' = around.close connection

/-- The same after any number of steps of the server. -/
def Allowed (op : LetDD.Syscall) (around : Surroundings) (answer : op.Answer)
    (around' : Surroundings) : Prop :=
  ∃ service, Relation.ReflTransGen Served around.service service ∧
    Allows op { around with service } answer around'

theorem exists_allows (op : LetDD.Syscall) (around : Surroundings) :
    ∃ answer around', Allows op around answer around' := by
  cases op with
  | contextErr => exact ⟨true, _, fun _ => rfl, rfl⟩
  | wait => exact ⟨false, _, true, fun _ => rfl, fun _ => rfl, rfl⟩
  | dial => exact ⟨none, around, .inl ⟨rfl, rfl⟩⟩
  | write connection bytes => exact ⟨false, _, [], List.nil_prefix, fun h => (nomatch h), rfl⟩
  | readBytes => exact ⟨none, around, .inl ⟨rfl, rfl⟩⟩
  | close => exact ⟨true, _, rfl⟩

theorem exists_allowed {op : LetDD.Syscall} (around : Surroundings) :
    ∃ answer around', Allowed op around answer around' := by
  obtain ⟨answer, around', hallows⟩ := exists_allows op around
  exact ⟨answer, around', around.service, .refl, hallows⟩

end Surroundings

/-- Where the client runs. -/
def network : Machine LetDD.host Surroundings :=
  .allowing Surroundings.Allowed

theorem network_perform_spec (op : LetDD.Syscall) {during : Surroundings → Prop}
    {post : op.Answer → Surroundings → Prop} {around : Surroundings} (invariant : Service → Prop)
    (hstart : invariant around.service)
    (hserved : ∀ service service', invariant service → Served service service' →
      invariant service')
    (hduring : during around)
    (hafter : ∀ service answer around', invariant service →
      Surroundings.Allows op { around with service } answer around' →
      during around' ∧ post answer around') :
    network.Ensures during post (Program.perform (I := LetDD.host) op) around := by
  refine .allowing Surroundings.exists_allowed hduring ?_
  rintro answer around' ⟨service, hreach, hallows⟩
  refine hafter service answer around' ?_ hallows
  clear hallows
  induction hreach with
  | refl => exact hstart
  | tail _ hserve ih => exact hserved _ _ ih hserve

end LetDX.Wire
