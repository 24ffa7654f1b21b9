import LetDX.Effects.Program

/-! # Total correctness at every instant

A triple in the manner of a crash logic: besides the postcondition it carries a
predicate on worlds that holds at every instant of every run. It also rules out
undefined steps and endless runs, so a program with a triple has a result
whatever the environment chooses.
-/

namespace LetDX.Effects.Machine

open Program

variable {I : Interface} {W : Type} {α β σ : Type}

/-- Every run of the program is finite and free of undefined steps, is in a
world satisfying `during` at each instant, and ends in a value and a world
satisfying `post`. -/
inductive Ensures (machine : Machine I W) (during : W → Prop) (post : α → W → Prop) :
    Program I α → W → Prop
  | done {value : α} {world : W} (instant : during world) (holds : post value world) :
      Ensures machine during post (.done value) world
  | call {op : I.Op} {next : I.Answer op → Program I α} {world : W} (instant : during world)
      (answered : ∃ answer world', machine.Performs op world answer world')
      (each : ∀ answer world', machine.Performs op world answer world' →
        Ensures machine during post (next answer) world') :
      Ensures machine during post (.call op next) world
  | loop {σ β : Type} {body : σ → Program I (σ ⊕ β)} {state : σ}
      {next : β → Program I α} {world : W}
      (unrolled : Ensures machine during post (body state >>= afterRound body next) world) :
      Ensures machine during post (.loop body state next) world

variable {machine : Machine I W} {during : W → Prop} {post : α → W → Prop}

/-! ## What a triple says about runs -/

theorem Ensures.reaches {source target : Program I α × W}
    (h : machine.Ensures during post source.1 source.2) (hreach : machine.Reaches source target) :
    machine.Ensures during post target.1 target.2 := by
  induction hreach with
  | refl => exact h
  | tail _ hstep ih =>
      cases hstep with
      | call performs =>
          cases ih with
          | call _ _ each => exact each _ _ performs
      | loop =>
          cases ih with
          | loop unrolled => exact unrolled

theorem Ensures.not_faults {program : Program I α} {world : W}
    (h : machine.Ensures during post program world) : ¬machine.Faults program world := by
  rintro ⟨world', hreach⟩
  cases h.reaches hreach

theorem Ensures.instant {program : Program I α} {world : W}
    (h : machine.Ensures during post program world) : during world := by
  induction h with
  | done instant => exact instant
  | call instant => exact instant
  | loop _ ih => exact ih

theorem Ensures.returns {program : Program I α} {world world' : W} {value : α}
    (h : machine.Ensures during post program world)
    (hreturn : machine.Returns program world value world') : post value world' := by
  cases h.reaches hreturn with
  | done _ holds => exact holds

theorem Ensures.passes {program : Program I α} {world world' : W}
    (h : machine.Ensures during post program world)
    (hpass : machine.Passes program world world') : during world' := by
  obtain ⟨rest, hreach⟩ := hpass
  exact (h.reaches hreach).instant

theorem Ensures.during_post {program : Program I α} {world : W}
    (h : machine.Ensures during post program world) :
    machine.Ensures during (fun value world => during world ∧ post value world) program world := by
  induction h with
  | done instant holds => exact .done instant ⟨instant, holds⟩
  | call instant answered _ ih => exact .call instant answered ih
  | loop _ ih => exact .loop ih

/-- A program with a triple has a run that ends. -/
theorem Ensures.exists_returns {program : Program I α} {world : W}
    (h : machine.Ensures during post program world) :
    ∃ value world', machine.Returns program world value world' := by
  induction h with
  | done => exact ⟨_, _, .refl⟩
  | call _ answered _ ih =>
      obtain ⟨answer, middle, hperforms⟩ := answered
      obtain ⟨value, world', hreturn⟩ := ih answer middle hperforms
      exact ⟨value, world', .head (.call hperforms) hreturn⟩
  | loop _ ih =>
      obtain ⟨value, world', hreturn⟩ := ih
      exact ⟨value, world', .head .loop hreturn⟩

/-- Two machines whose operations do the same have the same triples. -/
theorem Ensures.congr {machine' : Machine I W} {program : Program I α} {world : W}
    (h : machine.Ensures during post program world)
    (hperforms : ∀ op world answer world', machine'.Performs op world answer world' ↔
      machine.Performs op world answer world') : machine'.Ensures during post program world := by
  induction h with
  | done instant holds => exact .done instant holds
  | call instant answered _ ih =>
      obtain ⟨answer, world', hanswered⟩ := answered
      refine .call instant ⟨answer, world', (hperforms _ _ _ _).mpr hanswered⟩ ?_
      intro answer world' hanswer
      exact ih answer world' ((hperforms _ _ _ _).mp hanswer)
  | loop _ ih => exact .loop ih

/-! ## Rules -/

theorem Ensures.mono {during' : W → Prop} {post' : α → W → Prop} {program : Program I α}
    {world : W} (h : machine.Ensures during post program world)
    (hduring : ∀ world, during world → during' world)
    (hpost : ∀ value world, post value world → post' value world) :
    machine.Ensures during' post' program world := by
  induction h with
  | done instant holds => exact .done (hduring _ instant) (hpost _ _ holds)
  | call instant answered _ ih => exact .call (hduring _ instant) answered ih
  | loop _ ih => exact .loop ih

theorem Ensures.weaken {post' : α → W → Prop} {program : Program I α} {world : W}
    (h : machine.Ensures during post program world)
    (hpost : ∀ value world, post value world → post' value world) :
    machine.Ensures during post' program world :=
  h.mono (fun _ => id) hpost

theorem Ensures.pure {value : α} {world : W} (hduring : during world) (hpost : post value world) :
    machine.Ensures during post (pure value) world :=
  .done hduring hpost

theorem Ensures.perform {op : I.Op} {post : I.Answer op → W → Prop} {world : W}
    [hchoice : Nonempty (machine.Choice op)] (hduring : during world)
    (hafter : ∀ choice, during (machine.exec op choice world).2 ∧
      post (machine.exec op choice world).1 (machine.exec op choice world).2) :
    machine.Ensures during post (Program.perform op) world := by
  refine .call hduring ?_ ?_
  · obtain ⟨choice⟩ := hchoice
    exact ⟨_, _, choice, rfl⟩
  · rintro answer world' ⟨choice, hexec⟩
    have hchosen := hafter choice
    rw [hexec] at hchosen
    exact .done hchosen.1 hchosen.2

theorem Ensures.bind {program : Program I α} {f : α → Program I β} {world : W}
    {post : β → W → Prop}
    (h : machine.Ensures during (fun value world => machine.Ensures during post (f value) world)
      program world) :
    machine.Ensures during post (program >>= f) world := by
  induction h with
  | done _ holds => exact holds
  | call instant answered _ ih => exact .call instant answered ih
  | @loop _ _ body state next world _ ih =>
      have hunroll : (body state >>= afterRound body next) >>= f =
          body state >>= afterRound body (fun result => next result >>= f) := by
        rw [bind_assoc]
        exact congrArg _ (funext fun round => afterRound_bind body next f round)
      rw [loop_bind]
      exact .loop (hunroll ▸ ih)

/-- A loop ends if every round from a head satisfying the invariant either
delivers the result or comes to another such head with a smaller measure. -/
theorem Ensures.iterate {body : σ → Program I (σ ⊕ β)} {post : β → W → Prop}
    (invariant : σ → W → Prop) (measure : σ → W → Nat)
    (hround : ∀ state world, invariant state world →
      machine.Ensures during (fun round world' =>
        match round with
        | .inl state' => invariant state' world' ∧ measure state' world' < measure state world
        | .inr result => post result world') (body state) world)
    {state : σ} {world : W} (hstart : invariant state world) :
    machine.Ensures during post (Program.iterate body state) world := by
  induction hsize : measure state world using Nat.strongRecOn generalizing state world with
  | ind size ih =>
      refine .loop (.bind ?_)
      refine (hround state world hstart).during_post.weaken ?_
      rintro round world' ⟨hduring, hpost⟩
      cases round with
      | inl state' =>
          obtain ⟨hinvariant, hless⟩ := hpost
          exact ih _ (hsize ▸ hless) hinvariant rfl
      | inr result => exact .done hduring hpost

end LetDX.Effects.Machine
