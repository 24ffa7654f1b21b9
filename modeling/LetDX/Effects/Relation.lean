import LetDX.Effects.Ensures

/-! # Environments given by a relation

Where several parties act between two operations of a program, the meaning of
an operation is most naturally a relation. The environment then chooses a
function that stays within it.
-/

namespace LetDX.Effects

variable {I : Interface} {W : Type} {α : Type}

namespace Machine

/-- The machine on which an operation does anything that is allowed. -/
def allowing (allowed : (op : I.Op) → W → I.Answer op → W → Prop) : Machine I W where
  Choice op := { effect : W → I.Answer op × W //
    ∀ world, allowed op world (effect world).1 (effect world).2 }
  exec _ effect := effect.1

section Allowing

variable {allowed : (op : I.Op) → W → I.Answer op → W → Prop}

theorem allowed_of_performs {op : I.Op} {world world' : W} {answer : I.Answer op}
    (hperforms : (allowing allowed).Performs op world answer world') :
    allowed op world answer world' := by
  obtain ⟨⟨effect, hallowed⟩, hexec⟩ := hperforms
  have hworld := hallowed world
  rwa [show effect world = (answer, world') from hexec] at hworld

theorem performs_allowing {op : I.Op} {world world' : W} {answer : I.Answer op}
    (htotal : ∀ world, ∃ answer world', allowed op world answer world')
    (hallowed : allowed op world answer world') :
    (allowing allowed).Performs op world answer world' := by
  classical
  choose answerOf worldOf hchosen using htotal
  let effect (start : W) : I.Answer op × W :=
    if start = world then (answer, world') else (answerOf start, worldOf start)
  refine ⟨⟨effect, ?_⟩, if_pos rfl⟩
  intro start
  by_cases hstart : start = world
  · subst hstart
    rwa [show effect start = (answer, world') from if_pos rfl]
  · rw [show effect start = (answerOf start, worldOf start) from if_neg hstart]
    exact hchosen start

variable {during : W → Prop}

theorem Ensures.allowing {op : I.Op} {post : I.Answer op → W → Prop} {world : W}
    (htotal : ∀ world, ∃ answer world', allowed op world answer world') (hduring : during world)
    (hafter : ∀ answer world', allowed op world answer world' →
      during world' ∧ post answer world') :
    (allowing allowed).Ensures during post (Program.perform op) world := by
  obtain ⟨answer, world', hallowed⟩ := htotal world
  refine .call hduring ⟨answer, world', performs_allowing htotal hallowed⟩ ?_
  intro answer world' hperforms
  obtain ⟨hduring', hpost⟩ := hafter answer world' (allowed_of_performs hperforms)
  exact .done hduring' hpost

end Allowing

/-! ## Runs on a machine that allows more -/

theorem Reaches.mono {machine machine' : Machine I W}
    (hperforms : ∀ op world answer world', machine.Performs op world answer world' →
      machine'.Performs op world answer world')
    {source target : Program I α × W} (hreach : machine.Reaches source target) :
    machine'.Reaches source target := by
  induction hreach with
  | refl => exact .refl
  | tail _ hstep ih =>
      refine ih.tail ?_
      cases hstep with
      | call performs => exact .call (hperforms _ _ _ _ performs)
      | loop => exact .loop

theorem Returns.mono {machine machine' : Machine I W}
    (hperforms : ∀ op world answer world', machine.Performs op world answer world' →
      machine'.Performs op world answer world')
    {program : Program I α} {world world' : W} {value : α}
    (hreturn : machine.Returns program world value world') :
    machine'.Returns program world value world' :=
  Reaches.mono hperforms hreturn

/-- A triple stays valid when less is allowed, if something always is, and it
speaks of runs on that machine. -/
theorem Ensures.restrict {machine machine' : Machine I W} {during : W → Prop} {post : α → W → Prop}
    {program : Program I α} {world : W}
    (hperforms : ∀ op world answer world', machine'.Performs op world answer world' →
      machine.Performs op world answer world')
    (htotal : ∀ op world, ∃ answer world', machine'.Performs op world answer world')
    (h : machine.Ensures during post program world) :
    machine'.Ensures during
      (fun value world' => machine'.Returns program world value world' ∧ post value world')
      program world := by
  induction h with
  | done instant holds => exact .done instant ⟨.refl, holds⟩
  | call instant _ _ ih =>
      refine .call instant (htotal _ _) fun answer world' hanswer => ?_
      refine (ih answer world' (hperforms _ _ _ _ hanswer)).weaken ?_
      rintro value last ⟨hreturns, hpost⟩
      exact ⟨.head (.call hanswer) hreturns, hpost⟩
  | loop _ ih =>
      refine .loop (ih.weaken ?_)
      rintro value last ⟨hreturns, hpost⟩
      exact ⟨.head .loop hreturns, hpost⟩

/-! ## Runs that another machine follows -/

section Following

variable {V : Type} {machine : Machine I W} {machine' : Machine I V} {during : W → Prop}
  {post : α → W → Prop} {related : W → V → Prop}

/-- If each operation can be followed from one pair of related worlds to another,
so can a run. -/
theorem Ensures.follows (hfollows : ∀ op world answer world' state, during world →
      related world state → machine.Performs op world answer world' →
      ∃ state', machine'.Performs op state answer state' ∧ related world' state')
    {source target : Program I α × W} (h : machine.Ensures during post source.1 source.2)
    (hreach : machine.Reaches source target) {state : V} (hrelated : related source.2 state) :
    ∃ state', machine'.Reaches (source.1, state) (target.1, state') ∧ related target.2 state' := by
  induction hreach with
  | refl => exact ⟨state, .refl, hrelated⟩
  | tail hreach hstep ih =>
      obtain ⟨middle, hmiddle, hrelated⟩ := ih
      have hduring := (h.reaches hreach).instant
      cases hstep with
      | call performs =>
          obtain ⟨state', hperforms, hrelated'⟩ := hfollows _ _ _ _ _ hduring hrelated performs
          exact ⟨state', hmiddle.tail (.call hperforms), hrelated'⟩
      | loop => exact ⟨middle, hmiddle.tail .loop, hrelated⟩

end Following

end Machine

end LetDX.Effects
