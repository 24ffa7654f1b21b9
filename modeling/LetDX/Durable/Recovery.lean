import Mathlib.Data.List.Basic
import Mathlib.Tactic.Common

/-! # What a log may hold after crashes

Seen from outside, a lifetime of a logging server acknowledges operations one
after another and may end with one more in flight. A log recovers its lifetimes
when it holds every acknowledged operation in order, and of each lifetime at
most the one in flight besides.
-/

namespace LetDX.Durable

variable {Op : Type}

structure History (Op : Type) where
  acknowledged : List Op := []
  inFlight : Option Op := none
  deriving DecidableEq, Repr

namespace History

/-- What a lifetime has left in the log, with or without the operation in flight. -/
def traces (history : History Op) (kept : Bool) : List Op :=
  history.acknowledged ++ if kept then history.inFlight.toList else []

/-- The number of operations known to be durable at the end of the lifetime: all
of them, if it has acknowledged any, since acknowledging waits for the sync. -/
def durable (history : History Op) (before : Nat) (operations : List Op) : Nat :=
  if history.acknowledged = [] then before else (operations ++ history.acknowledged).length

end History

/-- The log holds the traces of each lifetime in turn; the operations up to the
given number are durable. -/
inductive Recovered : List (History Op) → Nat → List Op → Prop
  | nil : Recovered [] 0 []
  | lost {past : List (History Op)} {history : History Op} {before : Nat} {operations : List Op}
      (recovered : Recovered past before operations) :
      Recovered (past ++ [history]) (history.durable before operations)
        (operations ++ history.acknowledged)
  | kept {past : List (History Op)} {history : History Op} {before : Nat} {operations : List Op}
      {operation : Op} (recovered : Recovered past before operations)
      (inFlight : history.inFlight = some operation) :
      Recovered (past ++ [history]) (history.durable before operations)
        (operations ++ history.acknowledged ++ [operation])

namespace Recovered

variable {past : List (History Op)} {before : Nat} {operations : List Op}

theorem before_le (hrecovered : Recovered past before operations) :
    before ≤ operations.length := by
  induction hrecovered with
  | nil => exact Nat.zero_le _
  | @lost past history before operations recovered ih =>
      unfold History.durable
      split
      · exact Nat.le_trans ih (by simp)
      · exact Nat.le_refl _
  | @kept past history before operations operation recovered inFlight ih =>
      unfold History.durable
      split
      · exact Nat.le_trans ih (by simp)
      · simp

/-- A lifetime that acknowledges nothing may leave nothing. -/
theorem idle (hrecovered : Recovered past before operations) {history : History Op}
    (hnone : history.acknowledged = []) :
    Recovered (past ++ [history]) before operations := by
  have hlost : Recovered (past ++ [history]) (history.durable before operations)
      (operations ++ history.acknowledged) := hrecovered.lost
  rwa [History.durable, if_pos hnone, hnone, List.append_nil] at hlost

/-- Cutting within what a lifetime has acknowledged cuts what was there before it. -/
theorem take_acknowledged (hrecovered : Recovered past before operations) {history : History Op}
    {count : Nat} (hcut : before ≤ count → Recovered past before (operations.take count))
    (hcount : history.durable before operations ≤ count) :
    Recovered (past ++ [history]) (history.durable before operations)
      ((operations ++ history.acknowledged).take count) := by
  by_cases hnone : history.acknowledged = []
  · rw [History.durable, if_pos hnone] at hcount ⊢
    rw [hnone, List.append_nil]
    exact (hcut hcount).idle hnone
  · rw [History.durable, if_neg hnone] at hcount
    rw [List.take_of_length_le hcount]
    exact hrecovered.lost

/-- Cutting the log behind the durable operations loses only operations in flight. -/
theorem take (hrecovered : Recovered past before operations) {count : Nat}
    (hcount : before ≤ count) : Recovered past before (operations.take count) := by
  induction hrecovered generalizing count with
  | nil => simpa using Recovered.nil
  | @lost past history before operations recovered ih =>
      exact recovered.take_acknowledged ih hcount
  | @kept past history before operations operation recovered inFlight ih =>
      by_cases hwhole : count ≤ (operations ++ history.acknowledged).length
      · rw [List.take_append_of_le_length hwhole]
        exact recovered.take_acknowledged ih hcount
      · rw [List.take_of_length_le (by rw [List.length_append, List.length_singleton]; omega)]
        exact recovered.kept inFlight

/-- A recovered log is the traces of the lifetimes, one after another. -/
theorem eq_flatten (hrecovered : Recovered past before operations) :
    ∃ kept : List Bool, kept.length = past.length ∧
      operations = (List.zipWith History.traces past kept).flatten := by
  induction hrecovered with
  | nil => exact ⟨[], rfl, rfl⟩
  | @lost past history before operations recovered ih =>
      obtain ⟨kept, hlength, rfl⟩ := ih
      refine ⟨kept ++ [false], by simp [hlength], ?_⟩
      rw [List.zipWith_append hlength.symm]
      simp [History.traces]
  | @kept past history before operations operation recovered inFlight ih =>
      obtain ⟨kept, hlength, rfl⟩ := ih
      refine ⟨kept ++ [true], by simp [hlength], ?_⟩
      rw [List.zipWith_append hlength.symm]
      simp [History.traces, inFlight]

end Recovered

end LetDX.Durable
