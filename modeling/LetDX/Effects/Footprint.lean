import LetDX.Effects.Ensures

/-! # Footprints

The operations that occur in a program's text bound what its runs can do. If
each of them moves the world along a preorder, every instant of a run lies
between the start and the end of some run.
-/

namespace LetDX.Effects

variable {I : Interface} {W : Type} {α β σ : Type}

namespace Program

/-- The program performs allowed operations only. -/
def Uses {α : Type} (allowed : I.Op → Prop) : Program I α → Prop
  | done _ => True
  | fault => True
  | call op next => allowed op ∧ ∀ answer, (next answer).Uses allowed
  | loop body _ next => (∀ state, (body state).Uses allowed) ∧ ∀ result, (next result).Uses allowed

namespace Uses

variable {allowed allowed' : I.Op → Prop} {program : Program I α}

theorem pure (value : α) : (pure value : Program I α).Uses allowed :=
  trivial

theorem perform {op : I.Op} (hallowed : allowed op) : (Program.perform op).Uses allowed :=
  ⟨hallowed, fun _ => trivial⟩

theorem bind {f : α → Program I β} (huses : program.Uses allowed)
    (hnext : ∀ value, (f value).Uses allowed) : (program >>= f).Uses allowed := by
  induction program with
  | done value => exact hnext value
  | fault => trivial
  | call op next ih => exact ⟨huses.1, fun answer => ih answer (huses.2 answer) hnext⟩
  | loop body state next _ ih => exact ⟨huses.1, fun result => ih result (huses.2 result) hnext⟩

theorem iterate {body : σ → Program I (σ ⊕ β)} (hbody : ∀ state, (body state).Uses allowed)
    (state : σ) : (Program.iterate body state).Uses allowed :=
  ⟨hbody, fun _ => trivial⟩

theorem mono (huses : program.Uses allowed) (hallowed : ∀ op, allowed op → allowed' op) :
    program.Uses allowed' := by
  induction program with
  | done => trivial
  | fault => trivial
  | call op next ih => exact ⟨hallowed op huses.1, fun answer => ih answer (huses.2 answer)⟩
  | loop body state next ihBody ih =>
      exact ⟨fun state => ihBody state (huses.1 state), fun result => ih result (huses.2 result)⟩

/-- Where everything is allowed nothing is used that is not. -/
theorem any (hall : ∀ op, allowed op) (program : Program I α) : program.Uses allowed := by
  induction program with
  | done => trivial
  | fault => trivial
  | call op next ih => exact ⟨hall op, ih⟩
  | loop body state next ihBody ih => exact ⟨ihBody, ih⟩

end Uses

end Program

namespace Machine

open Program

variable {machine : Machine I W} {allowed : I.Op → Prop} {relation : W → W → Prop}

theorem Step.uses {source target : Program I α × W} (hstep : machine.Step source target)
    (huses : source.1.Uses allowed) : target.1.Uses allowed := by
  cases hstep with
  | call performs => exact huses.2 _
  | loop =>
      refine (huses.1 _).bind fun round => ?_
      cases round with
      | inl state => exact huses
      | inr result => exact huses.2 result

/-- A run moves along the preorder along which the operations move. -/
theorem Reaches.along [hrefl : Std.Refl relation] [htrans : IsTrans W relation]
    (hmoves : ∀ op, allowed op → ∀ world answer world',
      machine.Performs op world answer world' → relation world world')
    {source target : Program I α × W} (hreach : machine.Reaches source target)
    (huses : source.1.Uses allowed) : target.1.Uses allowed ∧ relation source.2 target.2 := by
  induction hreach with
  | refl => exact ⟨huses, hrefl.refl _⟩
  | tail _ hstep ih =>
      obtain ⟨huses, hmoved⟩ := ih
      refine ⟨hstep.uses huses, ?_⟩
      cases hstep with
      | call performs => exact htrans.trans _ _ _ hmoved (hmoves _ huses.1 _ _ _ performs)
      | loop => exact hmoved

/-- Every instant lies between the start and the end of a run. -/
theorem Ensures.between [Std.Refl relation] [IsTrans W relation]
    (hmoves : ∀ op, allowed op → ∀ world answer world',
      machine.Performs op world answer world' → relation world world')
    {during : W → Prop} {post : α → W → Prop} {program : Program I α} {world middle : W}
    (hensures : machine.Ensures during post program world) (huses : program.Uses allowed)
    (hpasses : machine.Passes program world middle) :
    relation world middle ∧
      ∃ value world', machine.Returns program world value world' ∧ relation middle world' := by
  obtain ⟨rest, hreach⟩ := hpasses
  obtain ⟨husesRest, hmoved⟩ := hreach.along hmoves huses
  obtain ⟨value, world', hreturn⟩ := (hensures.reaches hreach).exists_returns
  exact ⟨hmoved, value, world', hreach.trans hreturn, (Reaches.along hmoves hreturn husesRest).2⟩

/-- Two machines are alike for a program whose operations do the same on both. -/
theorem Ensures.congr_on {machine' : Machine I W}
    (hperforms : ∀ op, allowed op → ∀ world answer world',
      machine'.Performs op world answer world' ↔ machine.Performs op world answer world')
    {during : W → Prop} {post : α → W → Prop} {program : Program I α} {world : W}
    (hensures : machine.Ensures during post program world) (huses : program.Uses allowed) :
    machine'.Ensures during post program world := by
  induction hensures with
  | done instant holds => exact .done instant holds
  | call instant answered _ ih =>
      obtain ⟨answer, world', hanswered⟩ := answered
      refine .call instant ⟨answer, world', (hperforms _ huses.1 _ _ _).mpr hanswered⟩ ?_
      intro answer world' hanswer
      exact ih answer world' ((hperforms _ huses.1 _ _ _).mp hanswer) (huses.2 answer)
  | loop _ ih =>
      refine .loop (ih ((huses.1 _).bind fun round => ?_))
      cases round with
      | inl state => exact huses
      | inr result => exact huses.2 result

/-! ## Answers that do not occur -/

/-- The machine on which the environment never gives one of these answers. -/
def avoiding (machine : Machine I W) (avoided : (op : I.Op) → I.Answer op → Prop) :
    Machine I W where
  Choice op := { choice : machine.Choice op //
    ∀ world, ¬avoided op (machine.exec op choice world).1 }
  exec op choice := machine.exec op choice.1

variable {avoided : (op : I.Op) → I.Answer op → Prop}

theorem performs_of_avoiding {op : I.Op} {world world' : W} {answer : I.Answer op}
    (hperforms : (machine.avoiding avoided).Performs op world answer world') :
    machine.Performs op world answer world' ∧ ¬avoided op answer := by
  obtain ⟨⟨choice, havoids⟩, hexec⟩ := hperforms
  have hanswer := havoids world
  rw [show machine.exec op choice world = (answer, world') from hexec] at hanswer
  exact ⟨⟨choice, hexec⟩, hanswer⟩

/-- A triple stays valid when fewer answers occur. -/
theorem Ensures.avoiding [hchoice : ∀ op, Nonempty ((machine.avoiding avoided).Choice op)]
    {during : W → Prop} {post : α → W → Prop} {program : Program I α} {world : W}
    (hensures : machine.Ensures during post program world) :
    (machine.avoiding avoided).Ensures during post program world := by
  induction hensures with
  | done instant holds => exact .done instant holds
  | @call op next world instant _ _ ih =>
      obtain ⟨choice⟩ := hchoice op
      refine .call instant ⟨_, _, choice, rfl⟩ ?_
      intro answer world' hperforms
      exact ih answer world' (performs_of_avoiding hperforms).1
  | loop _ ih => exact .loop ih

end Machine

end LetDX.Effects
