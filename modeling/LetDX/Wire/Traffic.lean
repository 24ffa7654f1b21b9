import LetDX.Bytes.Lines
import LetDX.Effects.Outcomes
import LetDX.Wire.Requests
import LetDX.LetDD.Tcp.Client
import Mathlib.Logic.Function.Basic

/-! # The traffic of the client

What the client writes and reads, when all that is known of the server is that
it answers the lines of a connection with one line each, in their order. The
answer to a line is then the line of the same number the other way.
-/

namespace LetDX.Wire

open Bytes Effects LetDB

/-- What a call has written to a connection with one request. -/
structure Transmission where
  call : Nat
  connection : Nat
  bytes : List U8
  deriving DecidableEq, Repr

/-- The call at work, the number of connections dialed, all that was written to
them in its order, what the server has sent, and how much of it was taken. -/
structure Traffic where
  call : Nat := 0
  dialed : Nat := 0
  transmissions : List Transmission := []
  sent : Nat → List U8 := fun _ => []
  taken : Nat → Nat := fun _ => 0

/-- All that these transmissions have brought to a connection. -/
def bytesOn (connection : Nat) (transmissions : List Transmission) : List U8 :=
  (transmissions.filter fun transmission => transmission.connection = connection).flatMap
    Transmission.bytes

namespace Traffic

def written (traffic : Traffic) (connection : Nat) : List U8 :=
  bytesOn connection traffic.transmissions

/-- The lines that the server has received on a connection. -/
def requests (traffic : Traffic) (connection : Nat) : List (List U8) :=
  lines asciiNewline (traffic.written connection)

/-- The lines that the server has sent on a connection. -/
def answers (traffic : Traffic) (connection : Nat) : List (List U8) :=
  lines asciiNewline (traffic.sent connection)

def pending (traffic : Traffic) (connection : Nat) : List U8 :=
  (traffic.sent connection).drop (traffic.taken connection)

def write (traffic : Traffic) (connection : Nat) (bytes : List U8) : Traffic :=
  { traffic with transmissions := traffic.transmissions ++ [⟨traffic.call, connection, bytes⟩] }

def take (traffic : Traffic) (connection count : Nat) : Traffic :=
  { traffic with
    taken := Function.update traffic.taken connection (traffic.taken connection + count) }

/-- The server sends some bytes, but it ends no line before it has received the
line that this one answers. -/
def reply (traffic : Traffic) (connection : Nat) (bytes : List U8) : Traffic :=
  let sent := traffic.sent connection ++ bytes
  if connection < traffic.dialed ∧
      (lines asciiNewline sent).length ≤ (traffic.requests connection).length then
    { traffic with sent := Function.update traffic.sent connection sent }
  else traffic

def replies (traffic : Traffic) (sendings : List (Nat × List U8)) : Traffic :=
  sendings.foldl (fun traffic sending => traffic.reply sending.1 sending.2) traffic

/-- What the environment decides about a call. A write may fail after some
bytes, and so may a read, which also fails if no line comes. -/
def Chance : LetDD.Syscall → Type
  | .contextErr | .wait _ | .dial _ | .close _ => Bool
  | .write .. | .readBytes _ => Option Nat

def act : (call : LetDD.Syscall) → Chance call → Traffic → call.Answer × Traffic
  | .contextErr, (done : Bool), traffic => (done, traffic)
  | .wait _, (fired : Bool), traffic => (fired, traffic)
  | .dial _, (dials : Bool), traffic =>
      if dials then (some traffic.dialed, { traffic with dialed := traffic.dialed + 1 })
      else (none, traffic)
  | .write connection bytes, (failure : Option Nat), traffic =>
      match failure with
      | none => (true, traffic.write connection bytes)
      | some count => (false, traffic.write connection (bytes.take count))
  | .readBytes connection, (failure : Option Nat), traffic =>
      match failure with
      | none =>
          match (lines asciiNewline (traffic.pending connection)).head? with
          | none => (none, traffic)
          | some line =>
              (some (line ++ [asciiNewline]), traffic.take connection (line.length + 1))
      | some count => (none, traffic.take connection count)
  | .close _, (closed : Bool), traffic => (closed, traffic)

end Traffic

/-- Before each call of the client the server sends what it wants to. -/
def answering : Machine LetDD.host Traffic where
  Choice call := List (Nat × List U8) × Traffic.Chance call
  exec call choice traffic := Traffic.act call choice.2 (traffic.replies choice.1)

/-! ## Bytes of a connection -/

section BytesOn

variable {connection : Nat} {transmissions : List Transmission}

theorem bytesOn_concat_self (call : Nat) (bytes : List U8) :
    bytesOn connection (transmissions ++ [⟨call, connection, bytes⟩]) =
      bytesOn connection transmissions ++ bytes := by
  simp [bytesOn]

theorem bytesOn_concat_other {other : Nat} (call : Nat) (bytes : List U8)
    (hother : other ≠ connection) :
    bytesOn connection (transmissions ++ [⟨call, other, bytes⟩]) =
      bytesOn connection transmissions := by
  simp [bytesOn, hother]

end BytesOn

namespace Traffic

variable {traffic traffic' : Traffic} {connection : Nat}

/-- An answer that was sent stays what it is. -/
theorem answers_getElem?_of_prefix
    (hcontinues : traffic.sent connection <+: traffic'.sent connection) {number : Nat}
    {line : List U8} (hline : (traffic.answers connection)[number]? = some line) :
    (traffic'.answers connection)[number]? = some line := by
  obtain ⟨more, hmore⟩ := hcontinues
  have hlines : lines asciiNewline (traffic.sent connection) <+: _ :=
    lines_prefix (traffic.sent connection) more
  obtain ⟨later, hlater⟩ := hlines
  have hlength := (List.getElem?_eq_some_iff.mp hline).1
  unfold answers at hlength hline ⊢
  rw [← hmore, ← hlater, List.getElem?_append_left hlength]
  exact hline

/-! ## What the server changes -/

/-- The server has sent some more. -/
structure Extends (traffic traffic' : Traffic) : Prop where
  call_eq : traffic'.call = traffic.call
  dialed_eq : traffic'.dialed = traffic.dialed
  transmissions_eq : traffic'.transmissions = traffic.transmissions
  taken_eq : traffic'.taken = traffic.taken
  sent_prefix : ∀ connection, traffic.sent connection <+: traffic'.sent connection

namespace Extends

theorem refl (traffic : Traffic) : Extends traffic traffic :=
  ⟨rfl, rfl, rfl, rfl, fun _ => List.prefix_rfl⟩

theorem trans {traffic'' : Traffic} (hfirst : Extends traffic traffic')
    (hsecond : Extends traffic' traffic'') : Extends traffic traffic'' where
  call_eq := hsecond.call_eq.trans hfirst.call_eq
  dialed_eq := hsecond.dialed_eq.trans hfirst.dialed_eq
  transmissions_eq := hsecond.transmissions_eq.trans hfirst.transmissions_eq
  taken_eq := hsecond.taken_eq.trans hfirst.taken_eq
  sent_prefix connection := (hfirst.sent_prefix connection).trans (hsecond.sent_prefix connection)

theorem written_eq (hextends : Extends traffic traffic') (connection : Nat) :
    traffic'.written connection = traffic.written connection := by
  rw [written, hextends.transmissions_eq, written]

end Extends

theorem extends_reply (traffic : Traffic) (connection : Nat) (bytes : List U8) :
    Extends traffic (traffic.reply connection bytes) := by
  unfold reply
  dsimp only
  split
  · refine ⟨rfl, rfl, rfl, rfl, fun other => ?_⟩
    by_cases hother : other = connection
    · subst hother
      simp
    · simp [hother]
  · exact .refl traffic

theorem extends_replies (traffic : Traffic) (sendings : List (Nat × List U8)) :
    Extends traffic (traffic.replies sendings) := by
  induction sendings generalizing traffic with
  | nil => exact .refl traffic
  | cons sending sendings ih => exact (extends_reply traffic _ _).trans (ih _)

theorem perform_yields (call : LetDD.Syscall) {post : call.Answer → Traffic → Prop}
    (hafter : ∀ traffic' chance, Extends traffic traffic' →
      post (act call chance traffic').1 (act call chance traffic').2) :
    answering.Yields post (Program.perform (I := LetDD.host) call) traffic := by
  apply Machine.Yields.perform
  rintro answer traffic' ⟨⟨sendings, chance⟩, hexec⟩
  have hpost := hafter _ chance (extends_replies traffic sendings)
  rwa [show act call chance (traffic.replies sendings) = (answer, traffic') from hexec] at hpost

end Traffic

end LetDX.Wire
