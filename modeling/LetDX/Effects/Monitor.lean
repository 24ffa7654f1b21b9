import LetDX.Effects.Safety

/-! # Calls that share an object

Any number of calls work on one object, each while it holds a mutex, in a world
that also moves by itself. A resource is what holds of the object and the world
whenever the mutex is free. If every call that is given the resource returns it,
then it is kept whatever the interleaving, and each result means between the
invocation and the return of its call what it means to a call that runs alone.
-/

namespace LetDX.Effects

variable {I : Interface} {W C K R : Type}

/-- Calls of a kind `K` on an object of type `C`. The world notices which call
enters, and it may drift. -/
structure Monitor (I : Interface) (W C K R : Type) where
  machine : Machine I W
  program : K → C → Program I (R × C)
  enter : Nat → W → W
  drifts : W → W → Prop

namespace Monitor

/-- A call that was made in a world, and what it has returned in which world. -/
structure Caller (W K R : Type) where
  call : K
  invoked : W
  returned : Option (R × W) := none

/-- The object as it was when the mutex was released last, the calls made so far
by their numbers, and the call that holds the mutex with what it has left to do. -/
structure State (I : Interface) (W C K R : Type) where
  object : C
  world : W
  callers : List (Caller W K R) := []
  holder : Option (Nat × Program I (R × C)) := none

def State.calls (state : State I W C K R) : List K :=
  state.callers.map Caller.call

inductive Step (monitor : Monitor I W C K R) : State I W C K R → State I W C K R → Prop
  | invokes {state : State I W C K R} (call : K) :
      Step monitor state
        { state with callers := state.callers ++ [{ call, invoked := state.world }] }
  | locks {state : State I W C K R} {number : Nat} {call : K} {invoked : W}
      (free : state.holder = none) (waits : state.callers[number]? = some { call, invoked }) :
      Step monitor state
        { state with
          holder := some (number, monitor.program call state.object)
          world := monitor.enter number state.world }
  | runs {state : State I W C K R} {number : Nat} {rest rest' : Program I (R × C)} {world : W}
      (holds : state.holder = some (number, rest))
      (stepped : monitor.machine.Step (rest, state.world) (rest', world)) :
      Step monitor state { state with holder := some (number, rest'), world }
  | returns {state : State I W C K R} {number : Nat} {call : K} {invoked : W} {result : R}
      {object : C} (holds : state.holder = some (number, .done (result, object)))
      (waits : state.callers[number]? = some { call, invoked }) :
      Step monitor state
        { state with
          object
          callers := state.callers.set number
            { call, invoked, returned := some (result, state.world) }
          holder := none }
  | drifts {state : State I W C K R} {world : W} (drifts : monitor.drifts state.world world) :
      Step monitor state { state with world }

/-- The states at any instant. -/
def Reached (monitor : Monitor I W C K R) (object : C) (world : W) :
    State I W C K R → Prop :=
  Relation.ReflTransGen monitor.Step { object, world }

/-- What holds while the mutex is free, and what holds always, of the calls made
so far; the order in which worlds come; and what a result means to its call. -/
structure Resource (W C K R : Type) where
  free : List K → C → W → Prop
  during : List K → W → Prop
  later : W → W → Prop
  means : Nat → K → W → R → W → Prop

/-- The calls keep the resource, and so does the world by itself. -/
structure Respects (monitor : Monitor I W C K R) (resource : Resource W C K R) : Prop where
  refl : ∀ world, resource.later world world
  trans : ∀ {world world' world''}, resource.later world world' →
    resource.later world' world'' → resource.later world world''
  instant : ∀ {calls object world}, resource.free calls object world →
    resource.during calls world
  invokes_free : ∀ {calls object world} call, resource.free calls object world →
    resource.free (calls ++ [call]) object world
  invokes_during : ∀ {calls world} call, resource.during calls world →
    resource.during (calls ++ [call]) world
  program : ∀ {calls object world number call}, resource.free calls object world →
    calls[number]? = some call →
    monitor.machine.Keeps (resource.during calls)
      (fun returned world' => resource.free calls returned.2 world' ∧
        resource.means number call (monitor.enter number world) returned.1 world')
      (monitor.program call object) (monitor.enter number world)
  absorbs : ∀ op world world' answer last, monitor.drifts world world' →
    monitor.machine.Performs op world' answer last → monitor.machine.Performs op world answer last
  drifts_free : ∀ {calls object world world'}, resource.free calls object world →
    monitor.drifts world world' → resource.free calls object world'
  drifts_during : ∀ {calls world world'}, resource.during calls world →
    monitor.drifts world world' → resource.during calls world'
  later_enter : ∀ number world, resource.later world (monitor.enter number world)
  later_performs : ∀ {calls op world answer world'}, resource.during calls world →
    monitor.machine.Performs op world answer world' → resource.later world world'
  later_drifts : ∀ {calls world world'}, resource.during calls world →
    monitor.drifts world world' → resource.later world world'
  means_earlier : ∀ {number call world world' result last}, resource.later world world' →
    resource.means number call world' result last → resource.means number call world result last
  means_later : ∀ {number call world result last last'}, resource.later last last' →
    resource.means number call world result last → resource.means number call world result last'

/-- What holds at every instant. -/
structure Sound (monitor : Monitor I W C K R) (resource : Resource W C K R)
    (state : State I W C K R) : Prop where
  during : resource.during state.calls state.world
  free : state.holder = none → resource.free state.calls state.object state.world
  held : ∀ number rest, state.holder = some (number, rest) → ∃ call invoked,
    state.callers[number]? = some { call, invoked } ∧
    monitor.machine.Keeps (resource.during state.calls)
      (fun returned world => resource.free state.calls returned.2 world ∧
        resource.means number call invoked returned.1 world) rest state.world
  invoked : ∀ caller ∈ state.callers, resource.later caller.invoked state.world
  returned : ∀ number caller result world, state.callers[number]? = some caller →
    caller.returned = some (result, world) →
    resource.means number caller.call caller.invoked result world ∧
      resource.later world state.world

section Rules

variable {monitor : Monitor I W C K R} {resource : Resource W C K R}
  {state state' : State I W C K R}

/-- What a call is given does not change what was called. -/
theorem map_call_set {callers : List (Caller W K R)} {number : Nat} {call : K} {invoked : W}
    {returned : Option (R × W)} (hwaits : callers[number]? = some { call, invoked }) :
    (callers.set number { call, invoked, returned }).map Caller.call =
      callers.map Caller.call := by
  apply List.ext_getElem?
  intro index
  rw [List.getElem?_map, List.getElem?_map, List.getElem?_set]
  by_cases hindex : number = index
  · subst hindex
    rw [if_pos rfl, if_pos (List.getElem?_eq_some_iff.mp hwaits).1, hwaits]
    rfl
  · rw [if_neg hindex]

/-- No call is ever taken back. -/
theorem Step.calls_prefix (hstep : monitor.Step state state') : state.calls <+: state'.calls := by
  cases hstep with
  | invokes new =>
      rw [State.calls, State.calls, List.map_append]
      exact List.prefix_append _ _
  | locks | runs | drifts => exact List.prefix_rfl
  | returns holds waits =>
      refine ⟨[], ?_⟩
      rw [List.append_nil, State.calls, State.calls, map_call_set waits]

/-- Moving the world on leaves what was said about the callers. -/
theorem Sound.moved (hrespects : monitor.Respects resource) (hsound : monitor.Sound resource state)
    {world : W} (hlater : resource.later state.world world) :
    (∀ caller ∈ state.callers, resource.later caller.invoked world) ∧
      ∀ number caller result last, state.callers[number]? = some caller →
        caller.returned = some (result, last) →
        resource.means number caller.call caller.invoked result last ∧
          resource.later last world := by
  refine ⟨fun caller hcaller => hrespects.trans (hsound.invoked caller hcaller) hlater, ?_⟩
  intro number caller result last hcaller hreturned
  obtain ⟨hmeans, hbefore⟩ := hsound.returned number caller result last hcaller hreturned
  exact ⟨hmeans, hrespects.trans hbefore hlater⟩

theorem Sound.invokes (hrespects : monitor.Respects resource)
    (hsound : monitor.Sound resource state) (call : K) :
    monitor.Sound resource
      { state with callers := state.callers ++ [{ call, invoked := state.world }] } := by
  have hcalls : State.calls
      { state with callers := state.callers ++ [{ call, invoked := state.world }] } =
        state.calls ++ [call] := by
    simp [State.calls]
  refine ⟨?_, ?_, ?_, ?_, ?_⟩
  · rw [hcalls]
    exact hrespects.invokes_during call hsound.during
  · intro hfree
    rw [hcalls]
    exact hrespects.invokes_free call (hsound.free hfree)
  · intro number rest hholds
    obtain ⟨held, invoked, hwaits, hkeeps⟩ := hsound.held number rest hholds
    refine ⟨held, invoked, ?_, ?_⟩
    · rw [List.getElem?_append_left (List.getElem?_eq_some_iff.mp hwaits).1]
      exact hwaits
    · rw [hcalls]
      refine hkeeps.mono (fun _ => hrespects.invokes_during call) ?_
      rintro returned world ⟨hfree, hmeans⟩
      exact ⟨hrespects.invokes_free call hfree, hmeans⟩
  · intro caller hcaller
    rcases List.mem_append.mp hcaller with hbefore | hnew
    · exact hsound.invoked caller hbefore
    · obtain rfl := List.mem_singleton.mp hnew
      exact hrespects.refl _
  · intro number caller result world hcaller hreturned
    rw [List.getElem?_append] at hcaller
    split at hcaller
    · exact hsound.returned number caller result world hcaller hreturned
    · obtain rfl := List.mem_singleton.mp (List.mem_of_getElem? hcaller)
      nomatch hreturned

/-- A caller that finds the mutex free is given the resource. -/
theorem Sound.locks (hrespects : monitor.Respects resource) (hsound : monitor.Sound resource state)
    {number : Nat} {call : K} {invoked : W} (hfree : state.holder = none)
    (hwaits : state.callers[number]? = some { call, invoked }) :
    monitor.Sound resource
      { state with
        holder := some (number, monitor.program call state.object)
        world := monitor.enter number state.world } := by
  have hcall : state.calls[number]? = some call := by
    rw [State.calls, List.getElem?_map, hwaits]
    rfl
  have hkeeps := hrespects.program (hsound.free hfree) hcall
  have hlater := hrespects.later_enter number state.world
  have hinvoked := hrespects.trans (hsound.invoked _ (List.mem_of_getElem? hwaits)) hlater
  obtain ⟨hcallers, hreturned⟩ := hsound.moved hrespects hlater
  refine ⟨hkeeps.instant, fun hnone => (nomatch hnone), ?_, hcallers, hreturned⟩
  intro number' rest hholds
  obtain ⟨rfl, rfl⟩ := Prod.mk.inj (Option.some.inj hholds)
  refine ⟨call, invoked, hwaits, hkeeps.weaken ?_⟩
  rintro returned world ⟨hreturn, hmeans⟩
  exact ⟨hreturn, hrespects.means_earlier hinvoked hmeans⟩

theorem Sound.runs (hrespects : monitor.Respects resource) (hsound : monitor.Sound resource state)
    {number : Nat} {rest rest' : Program I (R × C)} {world : W}
    (hholds : state.holder = some (number, rest))
    (hstep : monitor.machine.Step (rest, state.world) (rest', world)) :
    monitor.Sound resource { state with holder := some (number, rest'), world } := by
  obtain ⟨call, invoked, hwaits, hkeeps⟩ := hsound.held number rest hholds
  have hlater : resource.later state.world world := by
    cases hstep with
    | call performs => exact hrespects.later_performs hsound.during performs
    | loop => exact hrespects.refl _
  obtain ⟨hcallers, hreturned⟩ := hsound.moved hrespects hlater
  refine ⟨(hkeeps.step hstep).instant, fun hnone => (nomatch hnone), ?_, hcallers, hreturned⟩
  intro number' rest'' hholds'
  obtain ⟨rfl, rfl⟩ := Prod.mk.inj (Option.some.inj hholds')
  exact ⟨call, invoked, hwaits, hkeeps.step hstep⟩

/-- A call that is done gives the resource back. -/
theorem Sound.returns (hrespects : monitor.Respects resource)
    (hsound : monitor.Sound resource state) {number : Nat} {call : K} {invoked : W} {result : R}
    {object : C} (hholds : state.holder = some (number, .done (result, object)))
    (hwaits : state.callers[number]? = some { call, invoked }) :
    monitor.Sound resource
      { state with
        object
        callers := state.callers.set number
          { call, invoked, returned := some (result, state.world) }
        holder := none } := by
  obtain ⟨call', invoked', hwaits', hkeeps⟩ := hsound.held number _ hholds
  obtain ⟨rfl, rfl, _⟩ := Caller.mk.inj (Option.some.inj (hwaits.symm.trans hwaits'))
  obtain ⟨hfree, hmeans⟩ := hkeeps.returns .refl
  have hcalls : (state.callers.set number
      { call, invoked, returned := some (result, state.world) }).map Caller.call =
        state.calls :=
    map_call_set hwaits
  refine ⟨?_, fun _ => ?_, fun _ _ hheld => (nomatch hheld), ?_, ?_⟩
  · rw [State.calls, hcalls]
    exact hsound.during
  · rw [State.calls, hcalls]
    exact hfree
  · intro caller hcaller
    rcases List.mem_or_eq_of_mem_set hcaller with hbefore | rfl
    · exact hsound.invoked caller hbefore
    · have hbefore := hsound.invoked _ (List.mem_of_getElem? hwaits)
      exact hbefore
  · intro number' caller result' world hcaller hreturned
    -- The caller is the one that returns now, or one that has returned before.
    by_cases hnumber : number = number'
    · subst hnumber
      have hlength := (List.getElem?_eq_some_iff.mp hwaits).1
      rw [List.getElem?_set_self hlength] at hcaller
      obtain rfl := Option.some.inj hcaller
      obtain ⟨rfl, rfl⟩ := Prod.mk.inj (Option.some.inj hreturned)
      exact ⟨hmeans, hrespects.refl _⟩
    · rw [List.getElem?_set_ne hnumber] at hcaller
      exact hsound.returned number' caller result' world hcaller hreturned

theorem Sound.drifts (hrespects : monitor.Respects resource)
    (hsound : monitor.Sound resource state) {world : W}
    (hdrifts : monitor.drifts state.world world) :
    monitor.Sound resource { state with world } := by
  have hlater := hrespects.later_drifts hsound.during hdrifts
  obtain ⟨hcallers, hreturned⟩ := hsound.moved hrespects hlater
  refine ⟨hrespects.drifts_during hsound.during hdrifts, ?_, ?_, hcallers, hreturned⟩
  · exact fun hfree => hrespects.drifts_free (hsound.free hfree) hdrifts
  · intro number rest hholds
    obtain ⟨call, invoked, hwaits, hkeeps⟩ := hsound.held number rest hholds
    refine ⟨call, invoked, hwaits, hkeeps.drift hrespects.absorbs ?_ ?_ hdrifts⟩
    · exact fun world world' => hrespects.drifts_during
    · rintro returned world world' hduring ⟨hfree, hmeans⟩ hmoved
      exact ⟨hrespects.drifts_free hfree hmoved,
        hrespects.means_later (hrespects.later_drifts hduring hmoved) hmeans⟩

theorem Sound.step (hrespects : monitor.Respects resource) (hsound : monitor.Sound resource state)
    (hstep : monitor.Step state state') : monitor.Sound resource state' := by
  cases hstep with
  | invokes call => exact hsound.invokes hrespects call
  | locks free waits => exact hsound.locks hrespects free waits
  | runs holds stepped => exact hsound.runs hrespects holds stepped
  | returns holds waits => exact hsound.returns hrespects holds waits
  | drifts drifts => exact hsound.drifts hrespects drifts

/-- A caller stays what it is, and keeps what it was given. -/
theorem Step.caller (hstep : monitor.Step state state') {number : Nat} {call : K} {invoked : W}
    {returned : Option (R × W)}
    (hcaller : state.callers[number]? = some ⟨call, invoked, returned⟩) :
    ∃ returned', state'.callers[number]? = some ⟨call, invoked, returned'⟩ ∧
      ∀ given, returned = some given → returned' = some given := by
  cases hstep with
  | invokes new =>
      refine ⟨returned, ?_, fun given hgiven => hgiven⟩
      rw [List.getElem?_append_left (List.getElem?_eq_some_iff.mp hcaller).1]
      exact hcaller
  | locks | runs | drifts => exact ⟨returned, hcaller, fun given hgiven => hgiven⟩
  | @returns number' call' invoked' result object holds waits =>
      by_cases hnumber : number' = number
      · subst hnumber
        obtain ⟨rfl, rfl, rfl⟩ := Caller.mk.inj (Option.some.inj (hcaller.symm.trans waits))
        refine ⟨_, List.getElem?_set_self (List.getElem?_eq_some_iff.mp hcaller).1, ?_⟩
        intro given hgiven
        nomatch hgiven
      · refine ⟨returned, ?_, fun given hgiven => hgiven⟩
        rw [List.getElem?_set_ne hnumber]
        exact hcaller

/-- The monitor rule. -/
theorem Reached.sound (hrespects : monitor.Respects resource) {object : C} {world : W}
    (hfree : resource.free [] object world) (hreached : monitor.Reached object world state) :
    monitor.Sound resource state := by
  induction hreached with
  | refl =>
      refine ⟨hrespects.instant hfree, fun _ => hfree, fun _ _ hholds => (nomatch hholds), ?_, ?_⟩
      · exact fun caller hcaller => nomatch hcaller
      · intro number caller result world hcaller
        simp at hcaller
  | tail _ hstep ih => exact ih.step hrespects hstep

end Rules

/-- A call that takes the mutex and is not interrupted until it returns. -/
theorem Step.turn {monitor : Monitor I W C K R} {object' : C} {world' : W}
    {state : State I W C K R} {number : Nat} {call : K} {invoked : W} {result : R}
    (hfree : state.holder = none) (hwaits : state.callers[number]? = some { call, invoked })
    (hreturns : monitor.machine.Returns (monitor.program call state.object)
      (monitor.enter number state.world) (result, object') world') :
    Relation.ReflTransGen monitor.Step state
      { object := object'
        world := world'
        callers := state.callers.set number
          { call, invoked, returned := some (result, world') } } := by
  have hruns {rest : Program I (R × C)} {last : W}
      (hreach : monitor.machine.Reaches (monitor.program call state.object,
        monitor.enter number state.world) (rest, last)) :
      Relation.ReflTransGen monitor.Step state
        { state with holder := some (number, rest), world := last } := by
    generalize htarget : (rest, last) = target at hreach
    induction hreach generalizing rest last with
    | refl =>
        obtain ⟨rfl, rfl⟩ := Prod.mk.inj htarget
        exact .single (.locks hfree hwaits)
    | tail _ hstep ih =>
        subst htarget
        exact (ih rfl).tail (.runs rfl hstep)
  exact (hruns hreturns).tail (.returns rfl hwaits)

end Monitor

end LetDX.Effects
