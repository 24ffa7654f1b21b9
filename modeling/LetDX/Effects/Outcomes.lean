import LetDX.Effects.Footprint

/-! # Partial correctness

What holds of the outcome of every run that ends. Endless runs and undefined
steps have no outcome, so nothing needs to be known about the environment to
exclude them.
-/

namespace LetDX.Effects.Machine

open Program

variable {I : Interface} {W : Type} {α β σ : Type} {machine : Machine I W} {post : α → W → Prop}
  {program : Program I α} {world : W}

/-- Every run that ends does so with such a value in such a world. -/
def Yields {α : Type} (machine : Machine I W) (post : α → W → Prop) (program : Program I α)
    (world : W) : Prop :=
  ∀ value world', machine.Returns program world value world' → post value world'

namespace Yields

theorem weaken {post' : α → W → Prop} (h : machine.Yields post program world)
    (hpost : ∀ value world, post value world → post' value world) :
    machine.Yields post' program world :=
  fun value world' hreturns => hpost value world' (h value world' hreturns)

theorem pure {value : α} (hpost : post value world) : machine.Yields post (pure value) world := by
  intro result world' hreturns
  obtain ⟨rfl, rfl⟩ := returns_pure.mp hreturns
  exact hpost

theorem fault : machine.Yields post .fault world := by
  intro result world' hreturns
  nomatch reaches_fault.mp hreturns

theorem perform {op : I.Op} {post : I.Answer op → W → Prop}
    (hafter : ∀ answer world', machine.Performs op world answer world' → post answer world') :
    machine.Yields post (Program.perform op) world := by
  intro answer world' hreturns
  exact hafter answer world' (returns_perform.mp hreturns)

theorem bind {f : α → Program I β} {post : β → W → Prop}
    (h : machine.Yields (fun value world => machine.Yields post (f value) world) program world) :
    machine.Yields post (program >>= f) world := by
  intro value world' hreturns
  obtain ⟨result, middle, hfirst, hsecond⟩ := returns_bind.mp hreturns
  exact h result middle hfirst value world' hsecond

/-- What is left of a program has the outcomes of the whole. -/
theorem step {program' : Program I α} {world' : W} (h : machine.Yields post program world)
    (hstep : machine.Step (program, world) (program', world')) :
    machine.Yields post program' world' :=
  fun value last hreturns => h value last (.head hstep hreturns)

/-- What the rest of a round leaves, if it is in the middle of a loop. -/
theorem rounds {body : σ → Program I (σ ⊕ β)} {post : β → W → Prop} {invariant : σ → W → Prop}
    (hround : ∀ state world, invariant state world →
      machine.Yields (fun round world' =>
        match round with
        | .inl state' => invariant state' world'
        | .inr result => post result world') (body state) world)
    {rest : Program I (σ ⊕ β)} {value : β} {world' : W}
    (hrest : machine.Yields (fun round world' =>
        match round with
        | .inl state' => invariant state' world'
        | .inr result => post result world') rest world)
    (hreturns : machine.Returns (rest >>= afterRound body .done) world value world') :
    post value world' := by
  rw [Returns, Reaches] at hreturns
  generalize hsource : (rest >>= afterRound body .done, world) = source at hreturns
  -- By induction on the run: the rest of the round changes at every step of it.
  induction hreturns using Relation.ReflTransGen.head_induction_on generalizing rest world with
  | refl =>
      obtain ⟨hprogram, rfl⟩ := Prod.mk.inj hsource
      cases rest with
      | done round =>
          cases round with
          | inl state => cases hprogram
          | inr result =>
              obtain rfl := Program.done.inj hprogram
              exact hrest _ _ .refl
      | fault => cases hprogram
      | call => cases hprogram
      | loop => cases hprogram
  | @head source middle hstep hreach ih =>
      subst hsource
      cases rest with
      | done round =>
          cases round with
          | inl state =>
              obtain rfl := Step.loop_eq hstep
              exact ih (hround state world (hrest _ _ .refl)) rfl
          | inr result => cases hstep
      | fault => cases hstep
      | call op next =>
          cases hstep with
          | call performs => exact ih (hrest.step (.call performs)) rfl
      -- A loop inside the round is one more thing that the round has left to do.
      | loop inner state next =>
          refine ih (hrest.step .loop) ?_
          rw [Step.loop_eq hstep, bind_assoc]
          exact congrArg (fun program => (inner state >>= program, world))
            (funext fun round => afterRound_bind inner next _ round)

/-- A loop has the outcomes of its rounds if they keep the invariant. -/
theorem iterate {body : σ → Program I (σ ⊕ β)} {post : β → W → Prop} (invariant : σ → W → Prop)
    (hround : ∀ state world, invariant state world →
      machine.Yields (fun round world' =>
        match round with
        | .inl state' => invariant state' world'
        | .inr result => post result world') (body state) world)
    {state : σ} (hstart : invariant state world) :
    machine.Yields post (Program.iterate body state) world := by
  intro value world' hreturns
  rw [Program.iterate, returns_loop] at hreturns
  exact rounds hround (hround state world hstart) hreturns

/-- What a program leaves, if its operations move along a preorder. -/
theorem bind_along {allowed : I.Op → Prop} {relation : W → W → Prop} [Std.Refl relation]
    [IsTrans W relation] {f : α → Program I β} {post : β → W → Prop}
    (hmoves : ∀ op, allowed op → ∀ world answer world',
      machine.Performs op world answer world' → relation world world')
    (huses : program.Uses allowed)
    (hnext : ∀ value world', relation world world' → machine.Yields post (f value) world') :
    machine.Yields post (program >>= f) world := by
  apply Yields.bind
  intro value world' hreturns
  exact hnext value world' (Reaches.along hmoves hreturns huses).2

/-- A program whose operations leave such a world as it is does so itself. -/
theorem quiet_bind {allowed : I.Op → Prop} {f : α → Program I β} {post : β → W → Prop}
    (settled : W → Prop)
    (hquiet : ∀ op, allowed op → ∀ world answer world', machine.Performs op world answer world' →
      settled world → world' = world)
    (huses : program.Uses allowed) (hsettled : settled world)
    (hnext : ∀ value, machine.Yields post (f value) world) :
    machine.Yields post (program >>= f) world := by
  have hrefl : Std.Refl fun world world' : W => settled world → world' = world := ⟨fun _ _ => rfl⟩
  have htrans : IsTrans W fun world world' => settled world → world' = world := by
    refine ⟨fun world middle world' hfirst hsecond hworld => ?_⟩
    obtain rfl := hfirst hworld
    exact hsecond hworld
  refine bind_along hquiet huses ?_
  intro value world' hsame
  obtain rfl : world' = world := hsame hsettled
  exact hnext value

end Yields

end LetDX.Effects.Machine
