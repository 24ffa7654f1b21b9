import LetDX.Effects.Footprint
import LetDX.LetDD.Host

/-! # Retries and their delays -/

namespace LetDX.LetDD

open Effects

structure Supervisor where
  cancelAfter : U64
  currentTry : U64
  maximumDelay : Duration
  minimumDelay : Duration
  deriving DecidableEq, Repr

def newSupervisor (cancelAfter : U64) (maximumDelay minimumDelay : Duration) : Supervisor :=
  { cancelAfter, currentTry := 0, maximumDelay, minimumDelay }

namespace Supervisor

def calculateBackoff (s : Supervisor) : Duration :=
  -- Both the shift and the product may overflow, and the result may be negative.
  let backoff := ((1 : Duration) <<< (s.currentTry - 1)) * s.minimumDelay
  let atLeast := if backoff.slt s.minimumDelay then s.minimumDelay else backoff
  if s.maximumDelay.slt atLeast then s.maximumDelay else atLeast

/-- Whether the operation may be attempted, and the supervisor afterwards. -/
def «try» (s : Supervisor) : Proc (Bool × Supervisor) := do
  if ← Proc.contextErr then return (false, s)
  else if s.currentTry = 0 then return (true, { s with currentTry := s.currentTry + 1 })
  else if s.currentTry ≥ s.cancelAfter then return (false, s)
  else if ← Proc.wait s.calculateBackoff then
    return (true, { s with currentTry := s.currentTry + 1 })
  else return (false, s)

/-- Trying asks the context and the timer only. -/
theorem try_uses {allowed : Syscall → Prop} (hcontext : allowed .contextErr)
    (hwait : ∀ backoff, allowed (.wait backoff)) (s : Supervisor) : s.try.Uses allowed := by
  apply Program.Uses.bind
  · exact .perform hcontext
  · intro done
    split
    · exact .pure _
    · split
      · exact .pure _
      · split
        · exact .pure _
        · apply Program.Uses.bind
          · exact .perform (hwait _)
          · intro fired
            split <;> exact .pure _

def reset (s : Supervisor) : Supervisor :=
  { s with currentTry := 0 }

end Supervisor

end LetDX.LetDD
