import LetDX.Common
import LetDX.Effects.Ensures

/-! # What the proxy asks of its surroundings

The context of a call, the timer, and the connections to the server. A
connection is known by the handle that dialing has returned.
-/

namespace LetDX.LetDD

open Effects

/-- Nanoseconds, as a signed integer. -/
abbrev Duration := BitVec 64

inductive Syscall
  | contextErr
  | wait (backoff : Duration)
  | dial (address : String)
  | write (connection : Nat) (bytes : List U8)
  | readBytes (connection : Nat)
  | close (connection : Nat)

/-- Whether the context is done; whether the timer has fired before that; the
new connection; whether all was written; a line with its newline, unless the
connection fails before it; whether closing succeeded. -/
def Syscall.Answer : Syscall → Type
  | .contextErr | .wait _ | .write .. | .close _ => Bool
  | .dial _ => Option Nat
  | .readBytes _ => Option (List U8)

abbrev host : Interface := ⟨Syscall, Syscall.Answer⟩

abbrev Proc := Program host

namespace Proc

open Program

def contextErr : Proc Bool := perform (I := host) .contextErr
def wait (backoff : Duration) : Proc Bool := perform (I := host) (.wait backoff)
def dial (address : String) : Proc (Option Nat) := perform (I := host) (.dial address)
def write (connection : Nat) (bytes : List U8) : Proc Bool :=
  perform (I := host) (.write connection bytes)
def readBytes (connection : Nat) : Proc (Option (List U8)) :=
  perform (I := host) (.readBytes connection)
def close (connection : Nat) : Proc Bool := perform (I := host) (.close connection)

end Proc

end LetDX.LetDD
