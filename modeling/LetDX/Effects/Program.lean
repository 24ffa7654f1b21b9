import Mathlib.Logic.Relation
import Mathlib.Tactic.Common

/-! # Effectful programs and their runs

A program performs operations of an interface one at a time and continues with
the answers. Loops are part of the syntax, so a program text needs no bound on
how long it runs, and an undefined step is an outcome of its own. A machine
gives the operations a meaning over a world; its choices stand for everything
the environment decides. Runs are small-step, so each instant of a run, and not
only its end, is a reached configuration.
-/

namespace LetDX.Effects

/-- The operations a program may perform and the answers each one may get. -/
structure Interface where
  Op : Type
  Answer : Op → Type

inductive Program (I : Interface) : Type → Type 1
  | done {α : Type} (value : α) : Program I α
  | fault {α : Type} : Program I α
  | call {α : Type} (op : I.Op) (next : I.Answer op → Program I α) : Program I α
  | loop {α σ β : Type} (body : σ → Program I (σ ⊕ β)) (state : σ)
      (next : β → Program I α) : Program I α

namespace Program

variable {I : Interface} {α β σ : Type}

protected def bind {α β : Type} : Program I α → (α → Program I β) → Program I β
  | done value, f => f value
  | fault, _ => fault
  | call op next, f => call op fun answer => (next answer).bind f
  | loop body state next, f => loop body state fun result => (next result).bind f

instance : Monad (Program I) where
  pure := done
  bind := Program.bind

/-- Perform one operation. -/
def perform (op : I.Op) : Program I (I.Answer op) :=
  call op done

/-- Repeat `body` from `state` until it produces a result. -/
def iterate (body : σ → Program I (σ ⊕ β)) (state : σ) : Program I β :=
  loop body state done

/-- What follows one round of a loop: another round, or the rest of the program. -/
def afterRound (body : σ → Program I (σ ⊕ β)) (next : β → Program I α) :
    σ ⊕ β → Program I α
  | .inl state => loop body state next
  | .inr result => next result

private theorem map_id_eq (program : Program I α) : id <$> program = program := by
  induction program with
  | done => rfl
  | fault => rfl
  | call op next ih => exact congrArg (call op) (funext ih)
  | loop body state next _ ih => exact congrArg (loop body state) (funext ih)

private theorem bind_bind_eq {γ : Type} (program : Program I α) (f : α → Program I β)
    (g : β → Program I γ) : program >>= f >>= g = program >>= fun value => f value >>= g := by
  induction program with
  | done => rfl
  | fault => rfl
  | call op next ih => exact congrArg (call op) (funext fun answer => ih answer f)
  | loop body state next _ ih =>
      exact congrArg (loop body state) (funext fun result => ih result f)

instance : LawfulMonad (Program I) :=
  LawfulMonad.mk' _ map_id_eq (fun _ _ => rfl) bind_bind_eq

theorem loop_bind (body : σ → Program I (σ ⊕ β)) (state : σ) {γ : Type}
    (next : β → Program I α) (f : α → Program I γ) :
    loop body state next >>= f = loop body state fun result => next result >>= f :=
  rfl

theorem afterRound_bind (body : σ → Program I (σ ⊕ β)) {γ : Type}
    (next : β → Program I α) (f : α → Program I γ) (round : σ ⊕ β) :
    afterRound body next round >>= f = afterRound body (fun result => next result >>= f) round := by
  cases round <;> rfl

end Program

/-- A meaning for an interface: the environment makes a choice for each
operation, and the choice fixes the answer and the next world. -/
structure Machine (I : Interface) (W : Type) where
  Choice : I.Op → Type
  exec : (op : I.Op) → Choice op → W → I.Answer op × W

variable {I : Interface} {W : Type} {α β σ : Type}

namespace Machine

/-- Some choice lets `op` take `world` to `world'` with this answer. -/
def Performs (machine : Machine I W) (op : I.Op) (world : W) (answer : I.Answer op)
    (world' : W) : Prop :=
  ∃ choice, machine.exec op choice world = (answer, world')

open Program

inductive Step (machine : Machine I W) : Program I α × W → Program I α × W → Prop
  | call {op : I.Op} {next : I.Answer op → Program I α} {world world' : W}
      {answer : I.Answer op} (performs : machine.Performs op world answer world') :
      Step machine (.call op next, world) (next answer, world')
  | loop {σ β : Type} {body : σ → Program I (σ ⊕ β)} {state : σ}
      {next : β → Program I α} {world : W} :
      Step machine (.loop body state next, world)
        (body state >>= afterRound body next, world)

/-- The configurations of a run, from its start to any later instant. -/
def Reaches (machine : Machine I W) : Program I α × W → Program I α × W → Prop :=
  Relation.ReflTransGen machine.Step

/-- Some run of the program ends in `world'` with `value`. -/
def Returns (machine : Machine I W) (program : Program I α) (world : W) (value : α)
    (world' : W) : Prop :=
  machine.Reaches (program, world) (.done value, world')

/-- Some run of the program is in `world'` at some instant. -/
def Passes (machine : Machine I W) (program : Program I α) (world world' : W) : Prop :=
  ∃ rest, machine.Reaches (program, world) (rest, world')

/-- Some run of the program comes to an undefined step. -/
def Faults (machine : Machine I W) (program : Program I α) (world : W) : Prop :=
  ∃ world', machine.Reaches (program, world) (.fault, world')

variable {machine : Machine I W}

/-! ## Runs of composed programs -/

theorem Step.loop_eq {body : σ → Program I (σ ⊕ β)} {state : σ} {next : β → Program I α}
    {world : W} {target : Program I α × W}
    (hstep : machine.Step (.loop body state next, world) target) :
    target = (body state >>= afterRound body next, world) := by
  cases hstep
  rfl

theorem Step.bind {first : Program I α × W} {second : Program I α × W}
    (hstep : machine.Step first second) (f : α → Program I β) :
    machine.Step (first.1 >>= f, first.2) (second.1 >>= f, second.2) := by
  cases hstep with
  | call performs => exact .call performs
  | @loop _ _ body state next world =>
      have hunroll : (body state >>= afterRound body next) >>= f =
          body state >>= afterRound body (fun result => next result >>= f) := by
        rw [bind_assoc]
        exact congrArg _ (funext fun round => afterRound_bind body next f round)
      change machine.Step (Program.loop body state next >>= f, world)
        ((body state >>= afterRound body next) >>= f, world)
      rw [hunroll, loop_bind]
      exact .loop

theorem Reaches.bind {first second : Program I α × W} (hreach : machine.Reaches first second)
    (f : α → Program I β) :
    machine.Reaches (first.1 >>= f, first.2) (second.1 >>= f, second.2) := by
  induction hreach with
  | refl => exact .refl
  | tail _ hstep ih => exact ih.tail (hstep.bind f)

/-- A run of a composed program is inside its first part, or has finished the
first part and is inside the second. -/
theorem reaches_bind_inv {program : Program I α} {f : α → Program I β} {world : W}
    {target : Program I β × W} (hreach : machine.Reaches (program >>= f, world) target) :
    (∃ rest, machine.Reaches (program, world) (rest, target.2) ∧ target.1 = rest >>= f) ∨
      ∃ value world', machine.Returns program world value world' ∧
        machine.Reaches (f value, world') target := by
  generalize hsource : (program >>= f, world) = source at hreach
  -- By induction on the run; a loop unrolls into the program that is left.
  induction hreach using Relation.ReflTransGen.head_induction_on generalizing program world with
  | refl =>
      subst hsource
      exact .inl ⟨program, .refl, rfl⟩
  | @head source middle hstep hrest ih =>
      subst hsource
      cases program with
      | done value => exact .inr ⟨value, world, .refl, .head hstep hrest⟩
      | fault => nomatch hstep
      | call op next =>
          cases hstep with
          | @call _ _ _ world' answer performs =>
              have hfirst : machine.Step (.call op next, world) (next answer, world') :=
                .call performs
              rcases ih rfl with ⟨rest, hreach, heq⟩ | ⟨value, final, hreturn, hreach⟩
              · exact .inl ⟨rest, .head hfirst hreach, heq⟩
              · exact .inr ⟨value, final, .head hfirst hreturn, hreach⟩
      | @loop _ _ _ body state next =>
          have hfirst : machine.Step (.loop body state next, world)
              (body state >>= afterRound body next, world) := .loop
          have hmiddle : ((body state >>= afterRound body next) >>= f, world) = middle := by
            rw [hstep.loop_eq, bind_assoc]
            exact congrArg (fun program => (body state >>= program, world))
              (funext fun round => afterRound_bind body next f round)
          rcases ih hmiddle with ⟨rest, hreach, heq⟩ | ⟨value, final, hreturn, hreach⟩
          · exact .inl ⟨rest, .head hfirst hreach, heq⟩
          · exact .inr ⟨value, final, .head hfirst hreturn, hreach⟩

theorem returns_bind {program : Program I α} {f : α → Program I β} {world world' : W} {value : β} :
    machine.Returns (program >>= f) world value world' ↔
      ∃ result middle, machine.Returns program world result middle ∧
        machine.Returns (f result) middle value world' := by
  constructor
  · intro hreturn
    rcases reaches_bind_inv hreturn with ⟨rest, hreach, heq⟩ | hsplit
    · cases rest with
      | done result =>
          have hvalue : Program.done value = f result := heq
          exact ⟨result, world', hreach, hvalue ▸ .refl⟩
      | fault => nomatch heq
      | call => nomatch heq
      | loop => nomatch heq
    · exact hsplit
  · rintro ⟨result, middle, hfirst, hsecond⟩
    exact (hfirst.bind f).trans hsecond

/-! ## Single steps -/

/-- Where there is no step, nothing else is reached. -/
theorem reaches_stuck {source target : Program I α × W}
    (hstuck : ∀ next, ¬machine.Step source next) :
    machine.Reaches source target ↔ target = source := by
  constructor
  · intro hreach
    cases hreach.cases_head with
    | inl heq => exact heq.symm
    | inr hstep =>
        obtain ⟨next, hstep, _⟩ := hstep
        exact (hstuck next hstep).elim
  · rintro rfl
    exact .refl

theorem reaches_done {value : α} {world : W} {target : Program I α × W} :
    machine.Reaches (.done value, world) target ↔ target = (.done value, world) :=
  reaches_stuck fun _ hstep => by cases hstep

theorem reaches_fault {world : W} {target : Program I α × W} :
    machine.Reaches (.fault, world) target ↔ target = (.fault, world) :=
  reaches_stuck fun _ hstep => by cases hstep

theorem returns_pure {value result : α} {world world' : W} :
    machine.Returns (pure value : Program I α) world result world' ↔
      result = value ∧ world' = world := by
  simp only [Returns, pure, reaches_done, Prod.mk.injEq, Program.done.injEq]

theorem returns_perform {op : I.Op} {answer : I.Answer op} {world world' : W} :
    machine.Returns (Program.perform op) world answer world' ↔
      machine.Performs op world answer world' := by
  constructor
  · intro hreturn
    cases hreturn.cases_head with
    | inl heq => nomatch heq
    | inr hstep =>
        obtain ⟨middle, hstep, hrest⟩ := hstep
        cases hstep with
        | call performs =>
            obtain ⟨hdone, rfl⟩ := Prod.mk.inj (reaches_done.mp hrest)
            obtain rfl := Program.done.inj hdone
            exact performs
  · intro hperforms
    exact .single (.call hperforms)

namespace Returns

theorem pure (value : α) (world : W) : machine.Returns (pure value) world value world :=
  .refl

theorem perform {op : I.Op} (choice : machine.Choice op) (world : W) :
    machine.Returns (Program.perform op) world (machine.exec op choice world).1
      (machine.exec op choice world).2 :=
  returns_perform.mpr ⟨choice, rfl⟩

theorem bind {program : Program I α} {f : α → Program I β} {world middle world' : W} {result : α}
    {value : β} (hfirst : machine.Returns program world result middle)
    (hsecond : machine.Returns (f result) middle value world') :
    machine.Returns (program >>= f) world value world' :=
  returns_bind.mpr ⟨result, middle, hfirst, hsecond⟩

end Returns

/-! ## Loops -/

/-- One unrolling of a loop. -/
theorem returns_loop {body : σ → Program I (σ ⊕ β)} {state : σ} {next : β → Program I α}
    {world world' : W} {value : α} :
    machine.Returns (.loop body state next) world value world' ↔
      machine.Returns (body state >>= Program.afterRound body next) world value world' := by
  constructor
  · intro hreturn
    cases hreturn.cases_head with
    | inl heq => nomatch heq
    | inr hstep =>
        obtain ⟨middle, hstep, hrest⟩ := hstep
        rw [hstep.loop_eq] at hrest
        exact hrest
  · exact .head .loop

theorem returns_iterate {body : σ → Program I (σ ⊕ β)} {state : σ} {world world' : W} {value : β} :
    machine.Returns (Program.iterate body state) world value world' ↔
      ∃ round middle, machine.Returns (body state) world round middle ∧
        match round with
        | .inl state' => machine.Returns (Program.iterate body state') middle value world'
        | .inr result => value = result ∧ world' = middle := by
  rw [Program.iterate, returns_loop, returns_bind]
  refine exists_congr fun round => exists_congr fun middle => and_congr_right fun _ => ?_
  cases round with
  | inl state' => exact Iff.rfl
  | inr result => exact returns_pure

namespace Returns

variable {body : σ → Program I (σ ⊕ β)} {state state' : σ} {world middle world' : W}

theorem leave {result : β} (hround : machine.Returns (body state) world (.inr result) middle) :
    machine.Returns (Program.iterate body state) world result middle :=
  returns_iterate.mpr ⟨.inr result, middle, hround, rfl, rfl⟩

theorem again {result : β} (hround : machine.Returns (body state) world (.inl state') middle)
    (hrest : machine.Returns (Program.iterate body state') middle result world') :
    machine.Returns (Program.iterate body state) world result world' :=
  returns_iterate.mpr ⟨.inl state', middle, hround, hrest⟩

end Returns

/-! ## Undefined steps -/

namespace Faults

theorem bind {program : Program I α} {world : W} (hfaults : machine.Faults program world)
    (f : α → Program I β) : machine.Faults (program >>= f) world := by
  obtain ⟨world', hreach⟩ := hfaults
  exact ⟨world', hreach.bind f⟩

theorem after {first : Program I α × W} {program : Program I α} {world : W}
    (hreach : machine.Reaches first (program, world)) (hfaults : machine.Faults program world) :
    machine.Faults first.1 first.2 := by
  obtain ⟨world', hrest⟩ := hfaults
  exact ⟨world', hreach.trans hrest⟩

variable {body : σ → Program I (σ ⊕ β)} {state state' : σ} {world middle : W}

theorem round (hfaults : machine.Faults (body state) world) :
    machine.Faults (Program.iterate body state) world :=
  after (.single .loop) (hfaults.bind _)

theorem again (hround : machine.Returns (body state) world (.inl state') middle)
    (hfaults : machine.Faults (Program.iterate body state') middle) :
    machine.Faults (Program.iterate body state) world :=
  after (.head .loop (Reaches.bind hround _)) hfaults

end Faults

/-! ## Executing a program -/

/-- The run in which the environment follows a fixed policy, cut off after `fuel` steps. -/
def run (machine : Machine I W) (policy : (op : I.Op) → W → machine.Choice op) :
    Nat → Program I α → W → Option (α × W)
  | 0, _, _ => none
  | _ + 1, .done value, world => some (value, world)
  | _ + 1, .fault, _ => none
  | fuel + 1, .call op next, world =>
      let performed := machine.exec op (policy op world) world
      machine.run policy fuel (next performed.1) performed.2
  | fuel + 1, .loop body state next, world =>
      machine.run policy fuel (body state >>= afterRound body next) world

theorem returns_of_run {policy : (op : I.Op) → W → machine.Choice op} {fuel : Nat}
    {program : Program I α} {world world' : W} {value : α}
    (hrun : machine.run policy fuel program world = some (value, world')) :
    machine.Returns program world value world' := by
  induction fuel generalizing program world with
  | zero => nomatch hrun
  | succ fuel ih =>
      cases program with
      | done result =>
          obtain ⟨rfl, rfl⟩ := Prod.mk.inj (Option.some.inj hrun)
          exact .refl
      | fault => nomatch hrun
      | call op next => exact .head (.call ⟨policy op world, rfl⟩) (ih hrun)
      | loop body state next => exact .head .loop (ih hrun)

/-- The machine on which the environment follows this policy. -/
def under (machine : Machine I W) (policy : (op : I.Op) → W → machine.Choice op) : Machine I W where
  Choice _ := Unit
  exec op _ world := machine.exec op (policy op world) world

instance (policy : (op : I.Op) → W → machine.Choice op) (op : I.Op) :
    Nonempty ((machine.under policy).Choice op) :=
  ⟨()⟩

end Machine

end LetDX.Effects
