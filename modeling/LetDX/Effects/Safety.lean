import LetDX.Effects.Ensures

/-! # Partial correctness at every instant

The triples of a crash logic without the part about termination. They ask
nothing of a run that does not end or comes to an undefined step but that each
instant of it is in a world satisfying the predicate.
-/

namespace LetDX.Effects.Machine

open Program

variable {I : Interface} {W : Type} {α β σ : Type}

/-- Every instant of every run is in a world satisfying `during`, and a run that
ends does so in a value and a world satisfying `post`. -/
def Keeps (machine : Machine I W) (during : W → Prop) (post : α → W → Prop)
    (program : Program I α) (world : W) : Prop :=
  ∀ rest world', machine.Reaches (program, world) (rest, world') →
    during world' ∧ ∀ value, rest = .done value → post value world'

variable {machine : Machine I W} {during : W → Prop} {post : α → W → Prop}
  {program : Program I α} {world world' : W}

/-- Total correctness is more. -/
theorem Ensures.keeps (h : machine.Ensures during post program world) :
    machine.Keeps during post program world := by
  intro rest world' hreach
  have hrest := h.reaches hreach
  refine ⟨hrest.instant, ?_⟩
  rintro value rfl
  exact h.returns hreach

namespace Keeps

theorem instant (h : machine.Keeps during post program world) : during world :=
  (h program world .refl).1

theorem returns (h : machine.Keeps during post program world) {value : α}
    (hreturns : machine.Returns program world value world') : post value world' :=
  (h _ world' hreturns).2 value rfl

theorem step (h : machine.Keeps during post program world) {program' : Program I α}
    (hstep : machine.Step (program, world) (program', world')) :
    machine.Keeps during post program' world' :=
  fun rest last hreach => h rest last (.head hstep hreach)

theorem mono {during' : W → Prop} {post' : α → W → Prop}
    (h : machine.Keeps during post program world)
    (hduring : ∀ world, during world → during' world)
    (hpost : ∀ value world, post value world → post' value world) :
    machine.Keeps during' post' program world := by
  intro rest world' hreach
  obtain ⟨hinstant, hholds⟩ := h rest world' hreach
  exact ⟨hduring _ hinstant, fun value hvalue => hpost _ _ (hholds value hvalue)⟩

theorem weaken {post' : α → W → Prop} (h : machine.Keeps during post program world)
    (hpost : ∀ value world, post value world → post' value world) :
    machine.Keeps during post' program world :=
  h.mono (fun _ => id) hpost

/-! ## Rules -/

theorem pure {value : α} (hduring : during world) (hpost : post value world) :
    machine.Keeps during post (pure value) world :=
  (Ensures.pure hduring hpost).keeps

theorem fault (hduring : during world) : machine.Keeps during post .fault world := by
  intro rest world' hreach
  obtain ⟨rfl, rfl⟩ := Prod.mk.inj (reaches_fault.mp hreach)
  exact ⟨hduring, fun value hvalue => nomatch hvalue⟩

theorem perform {op : I.Op} {post : I.Answer op → W → Prop} (hduring : during world)
    (hafter : ∀ answer world', machine.Performs op world answer world' →
      during world' ∧ post answer world') :
    machine.Keeps during post (Program.perform op) world := by
  intro rest last hreach
  cases hreach.cases_head with
  | inl heq =>
      obtain ⟨rfl, rfl⟩ := Prod.mk.inj heq
      exact ⟨hduring, fun value hvalue => nomatch hvalue⟩
  | inr hstep =>
      obtain ⟨middle, hstep, hrest⟩ := hstep
      cases hstep with
      | @call _ _ _ world' answer performs =>
          obtain ⟨rfl, rfl⟩ := Prod.mk.inj (reaches_done.mp hrest)
          obtain ⟨hduring', hpost⟩ := hafter answer last performs
          refine ⟨hduring', fun value hvalue => ?_⟩
          obtain rfl := Program.done.inj hvalue
          exact hpost

theorem bind {f : α → Program I β} {post : β → W → Prop}
    (h : machine.Keeps during (fun value world => machine.Keeps during post (f value) world)
      program world) :
    machine.Keeps during post (program >>= f) world := by
  intro rest last hreach
  rcases reaches_bind_inv hreach with ⟨first, hfirst, hrest⟩ | ⟨value, middle, hreturn, hafter⟩
  · obtain ⟨hduring, hpost⟩ := h first last hfirst
    refine ⟨hduring, fun value hvalue => ?_⟩
    -- Only a program that is done is done after more is bound to it.
    cases first with
    | done result =>
        obtain rfl : rest = f result := hrest
        exact (hpost result rfl _ last .refl).2 value hvalue
    | fault | call | loop =>
        rw [show rest = _ from hrest] at hvalue
        nomatch hvalue
  · exact h.returns hreturn rest last hafter

/-- What holds through the rest of a round and all rounds after it. -/
theorem rounds {body : σ → Program I (σ ⊕ β)} {post : β → W → Prop} {invariant : σ → W → Prop}
    (hround : ∀ state world, invariant state world →
      machine.Keeps during (fun round world' =>
        match round with
        | .inl state' => invariant state' world'
        | .inr result => post result world') (body state) world)
    {rest : Program I (σ ⊕ β)}
    (hrest : machine.Keeps during (fun round world' =>
        match round with
        | .inl state' => invariant state' world'
        | .inr result => post result world') rest world) :
    machine.Keeps during post (rest >>= afterRound body .done) world := by
  intro last final hreach
  generalize hsource : (rest >>= afterRound body .done, world) = source at hreach
  -- By induction on the run: the rest of the round changes at every step of it.
  induction hreach using Relation.ReflTransGen.head_induction_on generalizing rest world with
  | refl =>
      obtain ⟨rfl, rfl⟩ := Prod.mk.inj hsource
      refine ⟨hrest.instant, fun value hvalue => ?_⟩
      cases rest with
      | done round =>
          cases round with
          | inl state => cases hvalue
          | inr result =>
              obtain rfl := Program.done.inj hvalue
              exact hrest.returns .refl
      | fault | call | loop => cases hvalue
  | @head source middle hstep hreach ih =>
      subst hsource
      cases rest with
      | done round =>
          cases round with
          | inl state =>
              obtain rfl := Step.loop_eq hstep
              exact ih (hround state world (hrest.returns .refl)) rfl
          | inr result => cases hstep
      | fault => cases hstep
      | call op next =>
          cases hstep with
          | call performs => exact ih (hrest.step (.call performs)) rfl
      | loop inner state next =>
          refine ih (hrest.step .loop) ?_
          rw [Step.loop_eq hstep, bind_assoc]
          exact congrArg (fun program => (inner state >>= program, world))
            (funext fun round => afterRound_bind inner next _ round)

/-- A loop keeps what its rounds keep. -/
theorem iterate {body : σ → Program I (σ ⊕ β)} {post : β → W → Prop} (invariant : σ → W → Prop)
    (hround : ∀ state world, invariant state world →
      machine.Keeps during (fun round world' =>
        match round with
        | .inl state' => invariant state' world'
        | .inr result => post result world') (body state) world)
    {state : σ} (hstart : invariant state world) :
    machine.Keeps during post (Program.iterate body state) world := by
  have hloop := rounds hround (hround state world hstart)
  intro rest last hreach
  cases hreach.cases_head with
  | inl heq =>
      obtain ⟨rfl, rfl⟩ := Prod.mk.inj heq
      exact ⟨hloop.instant, fun value hvalue => nomatch hvalue⟩
  | inr hstep =>
      obtain ⟨middle, hstep, hrest⟩ := hstep
      obtain rfl := Step.loop_eq hstep
      exact hloop rest last hrest

/-- What the world does by itself changes nothing, if an operation after it is
also one before it. -/
theorem drift {drifts : W → W → Prop}
    (habsorbs : ∀ op world world' answer last, drifts world world' →
      machine.Performs op world' answer last → machine.Performs op world answer last)
    (hduring : ∀ world world', during world → drifts world world' → during world')
    (hpost : ∀ value world world', during world → post value world → drifts world world' →
      post value world')
    (h : machine.Keeps during post program world) (hdrifts : drifts world world') :
    machine.Keeps during post program world' := by
  intro rest last hreach
  generalize hsource : (program, world') = source at hreach
  induction hreach using Relation.ReflTransGen.head_induction_on generalizing program with
  | refl =>
      obtain ⟨rfl, rfl⟩ := Prod.mk.inj hsource
      refine ⟨hduring _ _ h.instant hdrifts, fun value hvalue => ?_⟩
      subst hvalue
      exact hpost value world _ h.instant (h.returns .refl) hdrifts
  | head hstep hreach ih =>
      subst hsource
      cases hstep with
      | call performs =>
          exact h.step (.call (habsorbs _ _ _ _ _ hdrifts performs)) rest last hreach
      | loop => exact ih (h.step .loop) rfl

end Keeps

end LetDX.Effects.Machine
