import Mathlib.Logic.Relation

/-! # What is bound to happen

One of several steps may be taken in a state, and nothing says which. A goal is
inevitable if it is reached whichever are taken, and there is one to take until
it is.
-/

namespace LetDX.Effects

variable {σ : Type} {step : σ → σ → Prop} {goal next next' : σ → Prop} {state : σ}

/-- There is a step, and every step leads to such a state. -/
structure Leads (step : σ → σ → Prop) (next : σ → Prop) (state : σ) : Prop where
  moves : ∃ state', step state state'
  each : ∀ state', step state state' → next state'

theorem Leads.weaken (hleads : Leads step next state)
    (hnext : ∀ state, next state → next' state) : Leads step next' state where
  moves := hleads.moves
  each state' hstep := hnext state' (hleads.each state' hstep)

inductive Inevitable (step : σ → σ → Prop) (goal : σ → Prop) : σ → Prop
  | here {state : σ} (holds : goal state) : Inevitable step goal state
  | onward {state : σ} (moves : ∃ state', step state state')
      (each : ∀ state', step state state' → Inevitable step goal state') :
      Inevitable step goal state

namespace Inevitable

theorem lead (hleads : Leads step (Inevitable step goal) state) : Inevitable step goal state :=
  .onward hleads.moves hleads.each

theorem mono {goal' : σ → Prop} (hgoal : Inevitable step goal state)
    (himplies : ∀ state, goal state → goal' state) : Inevitable step goal' state := by
  induction hgoal with
  | here holds => exact .here (himplies _ holds)
  | onward moves _ ih => exact .onward moves ih

/-- What is inevitable can happen. -/
theorem exists_reached (hgoal : Inevitable step goal state) :
    ∃ last, Relation.ReflTransGen step state last ∧ goal last := by
  induction hgoal with
  | here holds => exact ⟨_, .refl, holds⟩
  | onward moves _ ih =>
      obtain ⟨state', hstep⟩ := moves
      obtain ⟨last, hreach, hlast⟩ := ih state' hstep
      exact ⟨last, .head hstep hreach, hlast⟩

/-- A goal is inevitable if every step towards it lowers a rank. -/
theorem of_rank {invariant : σ → Prop} (rank : σ → Nat)
    (hleads : ∀ state, invariant state → ¬goal state →
      Leads step (fun state' => invariant state' ∧ rank state' < rank state) state)
    (hstart : invariant state) : Inevitable step goal state := by
  induction hrank : rank state using Nat.strongRecOn generalizing state with
  | ind bound ih =>
      by_cases hgoal : goal state
      · exact .here hgoal
      · refine .lead ((hleads state hstart hgoal).weaken ?_)
        rintro state' ⟨hinvariant, hless⟩
        exact ih (rank state') (hrank ▸ hless) hinvariant rfl

/-- What comes to a state from which the goal is inevitable. -/
theorem trans (hgoal : Inevitable step (Inevitable step goal) state) :
    Inevitable step goal state := by
  induction hgoal with
  | here holds => exact holds
  | onward moves _ ih => exact .onward moves ih

end Inevitable

/-- What every step keeps, any number of steps keep. -/
theorem preserved {invariant : σ → Prop}
    (hkeeps : ∀ state state', invariant state → step state state' → invariant state')
    {state' : σ} (hreach : Relation.ReflTransGen step state state') (hstart : invariant state) :
    invariant state' := by
  induction hreach with
  | refl => exact hstart
  | tail _ hstep ih => exact hkeeps _ _ ih hstep

end LetDX.Effects
