import LetDX.Effects.Footprint
import LetDX.Effects.Relation
import LetDX.LetDB.Host

/-! # The system under a given clock

What a procedure does may depend on the times that the clock shows while it
runs. On the clocked machine the clock shows certain times only; the other calls
do what they do on the system.
-/

namespace LetDX.LetDB

open Durable Effects

/-- The times that a clock may show, one of which at least is a time. -/
structure Clock where
  shows : Time → Prop
  works : ∃ now, now ≠ Time.failed ∧ shows now

namespace Clock

/-- A clock that may show anything. -/
def any : Clock where
  shows _ := True
  works := ⟨0, by decide, trivial⟩

/-- A clock that stands still. -/
def stopped (now : Time) (hnow : now ≠ Time.failed) : Clock where
  shows := (· = now)
  works := ⟨now, hnow, rfl⟩

/-- The answers that the clock does not give. -/
def Hides (clock : Clock) : (call : Syscall) → call.Answer → Prop
  | .time, (now : Time) => ¬clock.shows now
  | _, _ => False

end Clock

/-- The system on which the clock shows these times only. -/
def clocked (clock : Clock) (reliable : Bool) : Machine host World :=
  (system reliable).avoiding clock.Hides

/-- Total correctness under the clock. -/
abbrev MeetsBy {α : Type} (clock : Clock) (reliable : Bool) (during : Disk → Prop)
    (post : α → World → Prop) (program : Proc α) (world : World) : Prop :=
  (clocked clock reliable).Ensures (fun world => during world.disk) post program world

variable {clock : Clock} {reliable : Bool} {during : Disk → Prop} {world : World} {α : Type}
  {post : α → World → Prop} {program : Proc α}

instance (call : Syscall) : Nonempty ((clocked clock reliable).Choice call) := by
  cases call with
  | time =>
      obtain ⟨now, hworks, hshows⟩ := clock.works
      refine ⟨⟨now, fun _ => ?_⟩⟩
      have hanswer : (if reliable && now = Time.failed then (0 : Time) else now) = now := by
        simp [hworks]
      change ¬¬clock.shows (if reliable && now = Time.failed then (0 : Time) else now)
      rw [hanswer]
      exact not_not.mpr hshows
  | _ =>
      obtain ⟨choice⟩ : Nonempty ((system reliable).Choice _) := inferInstance
      exact ⟨⟨choice, fun _ => id⟩⟩

/-- What holds under every clock holds under this one. -/
theorem Meets.clocked (hmeets : Meets reliable during post program world) (clock : Clock) :
    MeetsBy clock reliable during post program world := by
  have hchoice (call : Syscall) :
      Nonempty (((system reliable).avoiding clock.Hides).Choice call) :=
    inferInstanceAs (Nonempty ((LetDB.clocked clock reliable).Choice call))
  exact Machine.Ensures.avoiding hmeets

/-- A clock that may show anything takes no run away. -/
theorem MeetsBy.meets (hmeets : MeetsBy .any reliable during post program world) :
    Meets reliable during post program world := by
  refine hmeets.congr fun call start answer world' =>
    ⟨?_, fun h => (Machine.performs_of_avoiding h).1⟩
  rintro ⟨choice, hexec⟩
  refine ⟨⟨choice, fun _ => ?_⟩, hexec⟩
  cases call with
  | time => exact not_not.mpr trivial
  | _ => exact id

/-- The runs under a clock are runs of the system. -/
theorem returns_of_clocked {value : α} {world' : World}
    (hreturns : (LetDB.clocked clock reliable).Returns program world value world') :
    (system reliable).Returns program world value world' :=
  Machine.Returns.mono (fun _ _ _ _ hperforms => (Machine.performs_of_avoiding hperforms).1)
    hreturns

theorem Proc.time_clocked {post : Time → World → Prop} (hduring : during world.disk)
    (hpost : ∀ now, clock.shows now → (reliable = true → now ≠ Time.failed) → post now world) :
    MeetsBy clock reliable during post time world := by
  obtain ⟨choice⟩ : Nonempty ((clocked clock reliable).Choice .time) := inferInstance
  refine .call hduring ⟨_, _, choice, rfl⟩ ?_
  intro (now : Time) world' hperforms
  obtain ⟨⟨(shown : Time), hexec⟩, hshows⟩ := Machine.performs_of_avoiding hperforms
  obtain ⟨hnow, rfl⟩ := Prod.mk.inj hexec
  refine .done hduring (hpost now (not_not.mp hshows) ?_)
  rintro rfl
  rw [← hnow]
  by_cases hfailed : shown = Time.failed
  · simp [hfailed]
    decide
  · simp [hfailed]

end LetDX.LetDB
