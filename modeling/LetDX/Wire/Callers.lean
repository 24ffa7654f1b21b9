import LetDX.Wire.Pairing

/-! # Concurrent calls

Any number of callers share the client. A call waits for the mutex and holds it
until it returns, so the others see the client only as a call has left it.
-/

namespace LetDX.Wire

open Effects LetDB

inductive Call
  | communicate (request : LetDD.Request)
  | close
  deriving DecidableEq, Repr

/-- What a call returns, closing apart. -/
abbrev Outcome := Option (Except LetDD.CommunicateError LetDD.Response)

def Call.program (client : LetDD.Client) : Call → LetDD.Proc (Outcome × LetDD.Client)
  | communicate request => do
      let (result, client) ← client.communicate request
      return (some result, client)
  | close => do
      let client ← client.disconnect
      return (none, client)

/-- A call that was made, and what it has returned if it has. -/
structure Caller where
  call : Call
  returned : Option Outcome := none
  deriving DecidableEq

/-- The calls made so far by their numbers, the client as it was when the mutex
was released last, and the call that holds it with what it has left to do. -/
structure Callers where
  client : LetDD.Client
  calls : List Caller := []
  holder : Option (Nat × LetDD.Proc (Outcome × LetDD.Client)) := none
  traffic : Traffic := {}

namespace Callers

def start (address : String) (observer : Option LetDD.Supervisor) : Callers where
  client := LetDD.newClient address observer

inductive Step : Callers → Callers → Prop
  | invokes {callers : Callers} (call : Call) :
      Step callers { callers with calls := callers.calls ++ [{ call }] }
  | locks {callers : Callers} {number : Nat} {call : Call} (free : callers.holder = none)
      (waits : callers.calls[number]? = some { call }) :
      Step callers { callers with
        holder := some (number, call.program callers.client)
        traffic := { callers.traffic with call := number } }
  | runs {callers : Callers} {number : Nat} {rest rest' : LetDD.Proc (Outcome × LetDD.Client)}
      {traffic' : Traffic} (holds : callers.holder = some (number, rest))
      (stepped : answering.Step (rest, callers.traffic) (rest', traffic')) :
      Step callers { callers with holder := some (number, rest'), traffic := traffic' }
  | returns {callers : Callers} {number : Nat} {call : Call} {outcome : Outcome}
      {client : LetDD.Client} (holds : callers.holder = some (number, .done (outcome, client)))
      (waits : callers.calls[number]? = some { call }) :
      Step callers { callers with
        client
        calls := callers.calls.set number { call, returned := some outcome }
        holder := none }

end Callers

/-! ## One step of a call -/

namespace Traffic

variable {traffic traffic' : Traffic}

/-- Only the call at work has written anything. -/
structure Continues (traffic traffic' : Traffic) : Prop where
  call_eq : traffic'.call = traffic.call
  written : ∃ more, traffic'.transmissions = traffic.transmissions ++ more ∧
    ∀ other ∈ more, other.call = traffic.call
  sent_prefix : ∀ connection, traffic.sent connection <+: traffic'.sent connection

theorem continues_act (call : LetDD.Syscall) (chance : Chance call) (traffic : Traffic) :
    Continues traffic (act call chance traffic).2 := by
  have hsame (traffic' : Traffic) (hcall : traffic'.call = traffic.call)
      (htransmissions : traffic'.transmissions = traffic.transmissions)
      (hsent : traffic'.sent = traffic.sent) : Continues traffic traffic' := by
    refine ⟨hcall, ⟨[], by simp [htransmissions]⟩, fun connection => ?_⟩
    rw [hsent]
  have hwrite (connection : Nat) (bytes : List U8) :
      Continues traffic (traffic.write connection bytes) := by
    refine ⟨rfl, ⟨[⟨traffic.call, connection, bytes⟩], rfl, ?_⟩, fun _ => List.prefix_rfl⟩
    simp
  cases call with
  | contextErr | wait | close => exact hsame _ rfl rfl rfl
  | dial => cases (chance : Bool) <;> exact hsame _ rfl rfl rfl
  | write => cases (chance : Option Nat) <;> exact hwrite _ _
  | readBytes connection =>
      cases (chance : Option Nat) with
      | some => exact hsame _ rfl rfl rfl
      | none => unfold act; dsimp only; split <;> exact hsame _ rfl rfl rfl

theorem continues_step {α : Type} {rest rest' : LetDD.Proc α}
    (hstep : answering.Step (rest, traffic) (rest', traffic')) : Continues traffic traffic' := by
  cases hstep with
  | loop => exact ⟨rfl, ⟨[], by simp⟩, fun _ => List.prefix_rfl⟩
  | call performs =>
      obtain ⟨⟨sendings, chance⟩, hexec⟩ := performs
      have hextends := extends_replies traffic sendings
      have hcontinues := continues_act _ chance (traffic.replies sendings)
      rw [show act _ chance (traffic.replies sendings) = _ from hexec] at hcontinues
      obtain ⟨more, hmore, hcall⟩ := hcontinues.written
      refine ⟨hcontinues.call_eq.trans hextends.call_eq, ⟨more, ?_, ?_⟩, fun connection => ?_⟩
      · rw [hmore, hextends.transmissions_eq]
      · intro other hother
        rw [hcall other hother, hextends.call_eq]
      · exact (hextends.sent_prefix connection).trans (hcontinues.sent_prefix connection)

/-- What the others do later leaves a response the answer that it was. -/
theorem Paired.later {call : Nat} {request : LetDD.Request} {response : LetDD.Response}
    (hpaired : Paired call request response traffic) {more : List Transmission}
    (hmore : traffic'.transmissions = traffic.transmissions ++ more)
    (hothers : ∀ other ∈ more, other.call ≠ call)
    (hsent : ∀ connection, traffic.sent connection <+: traffic'.sent connection) :
    Paired call request response traffic' := by
  obtain @⟨asked, earlier, later, sending, transmitted, during, last, same, greeted, answered⟩ :=
    hpaired
  have htransmitted : traffic'.transmissions = earlier ++ sending :: (later ++ more) := by
    rw [hmore, transmitted]
    simp
  refine .intro htransmitted during ?_ same greeted ⟨answered.encoded, answered.whole, ?_⟩
  · intro other hother
    rcases List.mem_append.mp hother with hlater | hnew
    · exact last other hlater
    · exact hothers other hnew
  · obtain ⟨line, hparse, hline⟩ := answered.answered
    exact ⟨line, hparse, answers_getElem?_of_prefix (hsent _) hline⟩

/-- Which call is at work matters to no connection. -/
theorem Settled.at {client : LetDD.Client} (hsettled : Settled client traffic) (number : Nat) :
    Settled client { traffic with call := number } where
  orderly := hsettled.orderly
  level connection hconnection := by
    have hlevel := hsettled.level connection hconnection
    exact ⟨hlevel.dialed, hlevel.whole, hlevel.read⟩
  greeted := hsettled.greeted

end Traffic

/-! ## Every step of the callers -/

namespace Callers

open Traffic

/-- What a call leaves when it returns. -/
def Finished (call : Call) (returned : Outcome × LetDD.Client) (traffic : Traffic) : Prop :=
  Traffic.Settled returned.2 traffic ∧ ∀ request response, call = .communicate request →
    returned.1 = some (.ok response) → Paired traffic.call request response traffic

structure Sound (callers : Callers) : Prop where
  free : callers.holder = none → Traffic.Settled callers.client callers.traffic
  held : ∀ number rest, callers.holder = some (number, rest) →
    callers.traffic.call = number ∧ ∃ call, callers.calls[number]? = some { call } ∧
      answering.Yields (Finished call) rest callers.traffic
  paired : ∀ number request response,
    callers.calls[number]? = some ⟨.communicate request, some (some (.ok response))⟩ →
      Paired number request response callers.traffic

theorem program_yields {client : LetDD.Client} {traffic : Traffic}
    (hsettled : Traffic.Settled client traffic) (call : Call) :
    answering.Yields (Finished call) (call.program client) traffic := by
  cases call with
  | communicate request =>
      refine .bind ((hsettled.communicate_yields request).weaken ?_)
      rintro ⟨result, client'⟩ traffic' ⟨hsettled', hpaired⟩
      refine .pure ⟨hsettled', ?_⟩
      rintro _ response ⟨⟩ hresult
      exact hpaired response (Option.some.inj hresult)
  | close =>
      refine .bind (disconnect_yields hsettled.orderly ?_)
      intro traffic' horderly
      refine .pure ⟨.none horderly rfl, ?_⟩
      rintro request response ⟨⟩

variable {callers callers' : Callers}

theorem Sound.start (address : String) (observer : Option LetDD.Supervisor) :
    (Callers.start address observer).Sound where
  free _ := .none (fun _ _ => ⟨rfl, rfl⟩) rfl
  held _ _ hheld := nomatch hheld
  paired _ _ _ hreturned := by simp [Callers.start] at hreturned

theorem Sound.step (hsound : callers.Sound) (hstep : Step callers callers') : callers'.Sound := by
  cases hstep with
  | invokes call =>
      refine ⟨hsound.free, ?_, ?_⟩
      · intro number rest hheld
        obtain ⟨hcall, call', hwaits, hyields⟩ := hsound.held number rest hheld
        refine ⟨hcall, call', ?_, hyields⟩
        rw [List.getElem?_append_left (List.getElem?_eq_some_iff.mp hwaits).1]
        exact hwaits
      · intro number request response hreturned
        apply hsound.paired
        rw [List.getElem?_append] at hreturned
        split at hreturned
        · exact hreturned
        · have hnew := List.mem_of_getElem? hreturned
          simp at hnew
  -- Whoever finds the mutex free finds the connection settled.
  | @locks number call free waits =>
      refine ⟨fun hfree => (nomatch hfree), ?_, ?_⟩
      · intro number' rest hheld
        obtain ⟨rfl, rfl⟩ := Prod.mk.inj (Option.some.inj hheld)
        exact ⟨rfl, call, waits, program_yields ((hsound.free free).at _) call⟩
      · intro number' request response hreturned
        exact (hsound.paired number' request response hreturned).later
          (List.append_nil _).symm (by simp) fun _ => List.prefix_rfl
  | @runs number rest rest' traffic' holds stepped =>
      obtain ⟨hcall, call, hwaits, hyields⟩ := hsound.held number rest holds
      have hcontinues := continues_step stepped
      refine ⟨fun hfree => (nomatch hfree), ?_, ?_⟩
      · intro number' rest'' hheld
        obtain ⟨rfl, rfl⟩ := Prod.mk.inj (Option.some.inj hheld)
        exact ⟨hcontinues.call_eq.trans hcall, call, hwaits, hyields.step stepped⟩
      · intro number' request response hreturned
        obtain ⟨more, hmore, hothers⟩ := hcontinues.written
        refine (hsound.paired number' request response hreturned).later hmore ?_
          hcontinues.sent_prefix
        -- A call that has returned is not the one at work.
        rintro other hother rfl
        rw [hothers other hother, hcall, hwaits] at hreturned
        nomatch hreturned
  | @returns number call outcome client holds waits =>
      obtain ⟨hcall, call', hwaits, hyields⟩ := hsound.held number _ holds
      obtain ⟨hsettled, hpaired⟩ := hyields _ _ .refl
      refine ⟨fun _ => hsettled, fun _ _ hheld => (nomatch hheld), ?_⟩
      intro number' request response hreturned
      -- The response is that of the call that returns now, or of an earlier one.
      by_cases hnumber : number = number'
      · subst hnumber
        have hlength := (List.getElem?_eq_some_iff.mp waits).1
        rw [List.getElem?_set_self hlength] at hreturned
        obtain ⟨rfl, hresult⟩ := Caller.mk.inj (Option.some.inj hreturned)
        obtain rfl : call' = .communicate request := by
          have hsame := Option.some.inj (hwaits.symm.trans waits)
          exact congrArg Caller.call hsame
        rw [← hcall]
        exact hpaired request response rfl (Option.some.inj hresult)
      · rw [List.getElem?_set_ne hnumber] at hreturned
        exact hsound.paired number' request response hreturned

/-- The callers at any instant. -/
def Reached (address : String) (observer : Option LetDD.Supervisor) : Callers → Prop :=
  Relation.ReflTransGen Step (start address observer)

theorem Reached.sound {address : String} {observer : Option LetDD.Supervisor}
    (hreached : Reached address observer callers) : callers.Sound := by
  induction hreached with
  | refl => exact .start address observer
  | tail _ hstep ih => exact ih.step hstep

/-- However the calls interleave and whatever fails, the response of a call is
the server's answer to a transmission of its request during this call. -/
theorem response_paired {address : String} {observer : Option LetDD.Supervisor}
    (hreached : Reached address observer callers) {number : Nat} {request : LetDD.Request}
    {response : LetDD.Response}
    (hreturned : callers.calls[number]? =
      some ⟨.communicate request, some (some (.ok response))⟩) :
    Paired number request response callers.traffic :=
  hreached.sound.paired number request response hreturned

/-! ## Calls that can be computed -/

/-- Nothing fails, and the server tells a count of nothing whenever it is read from. -/
def counting : (op : LetDD.Syscall) → Traffic → List (Nat × List U8) × Chance op
  | .contextErr, _ => ([], false)
  | .wait _, _ | .dial _, _ | .close _, _ => ([], true)
  | .write .., _ => ([], none)
  | .readBytes connection, _ =>
      ([(connection, LetDD.text ['L', 'E', 'N', ' ', '0', ' ', '0', '\n'])], none)

/-- One call from taking the mutex until it returns. -/
def serve (number : Nat) (callers : Callers) : Option Callers :=
  match callers.holder, callers.calls[number]? with
  | none, some ⟨call, none⟩ =>
      (answering.run counting 100 (call.program callers.client)
        { callers.traffic with call := number }).map fun ((outcome, client), traffic) =>
          { client
            calls := callers.calls.set number { call, returned := some outcome }
            traffic }
  | _, _ => none

theorem reaches_runs (callers : Callers) (number : Nat)
    {rest rest' : LetDD.Proc (Outcome × LetDD.Client)} {traffic traffic' : Traffic}
    (hreach : answering.Reaches (rest, traffic) (rest', traffic')) :
    Relation.ReflTransGen Step { callers with holder := some (number, rest), traffic }
      { callers with holder := some (number, rest'), traffic := traffic' } := by
  generalize htarget : (rest', traffic') = target at hreach
  induction hreach generalizing rest' traffic' with
  | refl =>
      obtain ⟨rfl, rfl⟩ := Prod.mk.inj htarget
      exact .refl
  | tail _ hstep ih =>
      subst htarget
      exact (ih rfl).tail (.runs rfl hstep)

theorem serve_reaches {number : Nat} (hserve : callers.serve number = some callers') :
    Relation.ReflTransGen Step callers callers' := by
  unfold serve at hserve
  split at hserve
  next call hfree hwaits =>
    obtain ⟨⟨⟨outcome, client⟩, traffic⟩, hrun, rfl⟩ := Option.map_eq_some_iff.mp hserve
    have hran := reaches_runs callers number (Machine.returns_of_run hrun)
    exact (hran.head (.locks hfree hwaits)).tail (.returns rfl hwaits)
  next => nomatch hserve

/-- Two calls ask for the count, and the second one takes the mutex first. -/
theorem response_paired_count : ∃ callers response, Reached "" none callers ∧
    callers.calls[0]? = some ⟨.communicate .countDatabase, some (some (.ok response))⟩ ∧
    callers.traffic.transmissions.map Transmission.call = [1, 1, 0] ∧
    Paired 0 .countDatabase response callers.traffic := by
  let asked : Callers := { Callers.start "" none with
    calls := [{ call := .communicate .countDatabase }, { call := .communicate .countDatabase }] }
  have hasked : Reached "" none asked :=
    (Relation.ReflTransGen.single (.invokes (.communicate .countDatabase))).tail
      (.invokes (.communicate .countDatabase))
  have hserved : ((asked.serve 1).bind (serve 0)).any (fun callers =>
      decide (callers.calls[0]? = some ⟨.communicate .countDatabase,
        some (some (.ok (.countDatabase 0 0)))⟩ ∧
      callers.traffic.transmissions.map Transmission.call = [1, 1, 0])) = true := by
    decide +kernel
  obtain ⟨callers, hserve, hchecked⟩ := (Option.any_eq_true _ _).mp hserved
  obtain ⟨hreturned, hcalls⟩ := of_decide_eq_true hchecked
  obtain ⟨first, hfirst, hsecond⟩ := Option.bind_eq_some_iff.mp hserve
  have hreached : Reached "" none callers :=
    hasked.trans ((serve_reaches hfirst).trans (serve_reaches hsecond))
  exact ⟨callers, _, hreached, hreturned, hcalls, response_paired hreached hreturned⟩

end Callers

end LetDX.Wire
