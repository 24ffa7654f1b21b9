import LetDX.LetDD.Http.Response
import LetDX.LetDD.Http.Permissions
import LetDX.Wire.Integrity

/-! # From the request to the ledger

HTTP requests come at any moment, and each is answered at once or forwarded as a
call of the client. What is answered to a request is what the ledger has done
about it, and the ledger has gained nothing but what requests have asked for.
-/

namespace LetDX.Wire

open Durable Effects LetDB

/-- A request and the world when it came, the call that it has led to, and the
answer with the world when it was given. -/
structure Exchange where
  request : LetDD.HttpRequest
  arrived : Surroundings
  call : Option Nat := none
  answer : Option (LetDD.Answer × Surroundings) := none

/-- The callers of the client, and the exchanges by their numbers. -/
structure Proxy where
  callings : Callings
  exchanges : List Exchange := []

namespace Proxy

/-- How the framework treats a request depends on the number of the exchange. -/
inductive Step (server : LetDD.Server) (echoes : Nat → LetDD.Echo) : Proxy → Proxy → Prop
  | refuses {proxy : Proxy} {request : LetDD.HttpRequest} {answer : LetDD.Answer}
      (refused : server.prepare (echoes proxy.exchanges.length) request = .error answer) :
      Step server echoes proxy
        { proxy with
          exchanges := proxy.exchanges ++
            [{ request, arrived := proxy.callings.world
               answer := some (answer, proxy.callings.world) }] }
  | forwards {proxy : Proxy} {request : LetDD.HttpRequest} {forwarded : LetDD.Request}
      (prepared : server.prepare (echoes proxy.exchanges.length) request = .ok forwarded) :
      Step server echoes proxy
        { callings := Script.invoke proxy.callings [.communicate forwarded]
          exchanges := proxy.exchanges ++
            [{ request, arrived := proxy.callings.world
               call := some proxy.callings.callers.length }] }
  | closes {proxy : Proxy} :
      Step server echoes proxy { proxy with callings := Script.invoke proxy.callings [.close] }
  | works {proxy : Proxy} {callings : Callings} (stepped : clients.Step proxy.callings callings)
      (same : callings.calls = proxy.callings.calls) :
      Step server echoes proxy { proxy with callings }
  | answers {proxy : Proxy} {index number : Nat} {request : LetDD.HttpRequest}
      {arrived returned : Surroundings} {call : Call} {invoked : Surroundings}
      {result : Except LetDD.CommunicateError LetDD.Response}
      (waits : proxy.exchanges[index]? = some { request, arrived, call := some number })
      (given : proxy.callings.callers[number]? =
        some { call, invoked, returned := some (some result, returned) }) :
      Step server echoes proxy
        { proxy with
          exchanges := proxy.exchanges.set index
            { request, arrived, call := some number
              answer := some (LetDD.answerTo result, proxy.callings.world) } }

/-- The proxy at any instant. -/
def Reached (server : LetDD.Server) (echoes : Nat → LetDD.Echo) (around : Surroundings) :
    Proxy → Prop :=
  Relation.ReflTransGen (Step server echoes)
    { callings := { object := server.client, world := around } }

/-- What a forwarded exchange is of its call. -/
structure Forwarded (server : LetDD.Server) (echo : LetDD.Echo) (callings : Callings)
    (exchange : Exchange) (number : Nat) : Prop where
  served : ∃ request returned, server.serve echo exchange.request = some request ∧
    callings.callers[number]? =
      some { call := .communicate request, invoked := exchange.arrived, returned }
  answered : ∀ answer last, exchange.answer = some (answer, last) → ∃ call invoked result returned,
    callings.callers[number]? = some { call, invoked, returned := some (some result, returned) } ∧
      answer = LetDD.answerTo result ∧ returned.service.log <+: last.service.log

/-- What holds of the exchanges at every instant. -/
structure Sound (server : LetDD.Server) (echoes : Nat → LetDD.Echo) (around : Surroundings)
    (proxy : Proxy) : Prop where
  sharing : Sharing server.client around proxy.callings
  forwarded : ∀ (index : Nat) (exchange : Exchange) (number : Nat),
    proxy.exchanges[index]? = some exchange → exchange.call = some number →
      Forwarded server (echoes index) proxy.callings exchange number
  made : ∀ (number : Nat) (request : LetDD.Request),
    proxy.callings.calls[number]? = some (.communicate request) →
      ∃ (index : Nat) (exchange : Exchange), proxy.exchanges[index]? = some exchange ∧
        exchange.call = some number

section Steps

variable {server : LetDD.Server} {echo : LetDD.Echo} {echoes : Nat → LetDD.Echo}
  {around : Surroundings} {proxy proxy' : Proxy} {callings callings' : Callings}
  {exchange : Exchange} {number : Nat}

theorem Forwarded.step (hforwarded : Forwarded server echo callings exchange number)
    (hstep : clients.Step callings callings') :
    Forwarded server echo callings' exchange number := by
  obtain ⟨⟨request, returned, hserved, hcaller⟩, hanswered⟩ := hforwarded
  refine ⟨?_, ?_⟩
  · obtain ⟨returned', hcaller', _⟩ := hstep.caller hcaller
    exact ⟨request, returned', hserved, hcaller'⟩
  · intro answer last hanswer
    obtain ⟨call, invoked, result, given, hgiven, heq, hlog⟩ := hanswered answer last hanswer
    obtain ⟨returned', hcaller', hkept⟩ := hstep.caller hgiven
    rw [hkept _ rfl] at hcaller'
    exact ⟨call, invoked, result, given, hcaller', heq, hlog⟩

/-- What is found in a list that has got a new member. -/
theorem getElem?_concat_cases {α : Type} {before : List α} {new found : α} {index : Nat}
    (hfound : (before ++ [new])[index]? = some found) :
    before[index]? = some found ∨ index = before.length ∧ found = new := by
  rw [List.getElem?_append] at hfound
  split at hfound
  next => exact .inl hfound
  next hlength =>
    obtain ⟨hindex, heq⟩ := List.getElem?_eq_some_iff.mp hfound
    rw [List.length_singleton] at hindex
    exact .inr ⟨by omega, by simpa using heq.symm⟩

/-- The calls are those that were made before, and this one. -/
theorem calls_invoke (callings : Callings) (call : Call) :
    (Script.invoke callings [call]).calls = callings.calls ++ [call] := by
  simp [Script.invoke, Monitor.State.calls]

theorem step_invoke (callings : Callings) (call : Call) :
    clients.Step callings (Script.invoke callings [call]) :=
  .invokes call

/-- A new exchange leaves the others as they are. -/
theorem exists_append {exchanges : List Exchange} (new : Exchange)
    (hmade : ∃ (index : Nat) (exchange : Exchange), exchanges[index]? = some exchange ∧
      exchange.call = some number) :
    ∃ (index : Nat) (exchange : Exchange), (exchanges ++ [new])[index]? = some exchange ∧
      exchange.call = some number := by
  obtain ⟨index, exchange, hexchange, hcall⟩ := hmade
  refine ⟨index, exchange, ?_, hcall⟩
  rw [List.getElem?_append_left (List.getElem?_eq_some_iff.mp hexchange).1]
  exact hexchange

theorem Sound.forwards (hsound : Sound server echoes around proxy) {request : LetDD.HttpRequest}
    {forwarded : LetDD.Request}
    (hprepared : server.prepare (echoes proxy.exchanges.length) request = .ok forwarded) :
    Sound server echoes around
      { callings := Script.invoke proxy.callings [.communicate forwarded]
        exchanges := proxy.exchanges ++
          [{ request, arrived := proxy.callings.world
             call := some proxy.callings.callers.length }] } := by
  refine ⟨Script.invoke_sharing hsound.sharing _, ?_, ?_⟩
  · intro index exchange number hexchange hcall
    rcases getElem?_concat_cases hexchange with hbefore | ⟨rfl, rfl⟩
    · exact (hsound.forwarded index exchange number hbefore hcall).step (step_invoke _ _)
    · obtain rfl := Option.some.inj hcall
      refine ⟨⟨forwarded, none, LetDD.Server.prepare_eq_ok_iff.mp hprepared, ?_⟩, ?_⟩
      · simp [Script.invoke]
      · intro answer last hanswer
        cases hanswer
  · intro number request' hcall
    rw [calls_invoke] at hcall
    rcases getElem?_concat_cases hcall with hbefore | ⟨rfl, _⟩
    · exact exists_append _ (hsound.made number request' hbefore)
    · refine ⟨proxy.exchanges.length, _, List.getElem?_concat_length, ?_⟩
      rw [Monitor.State.calls, List.length_map]

theorem Sound.step (hstarts : Starts server.client around)
    (hsound : Sound server echoes around proxy) (hstep : Step server echoes proxy proxy') :
    Sound server echoes around proxy' := by
  cases hstep with
  | refuses refused =>
      refine ⟨hsound.sharing, ?_, ?_⟩
      · intro index exchange number hexchange hcall
        rcases getElem?_concat_cases hexchange with hbefore | ⟨_, rfl⟩
        · exact hsound.forwarded index exchange number hbefore hcall
        · nomatch hcall
      · intro number request hcall
        exact exists_append _ (hsound.made number request hcall)
  | forwards prepared => exact hsound.forwards prepared
  | closes =>
      refine ⟨Script.invoke_sharing hsound.sharing _, ?_, ?_⟩
      · intro index exchange number hexchange hcall
        exact (hsound.forwarded index exchange number hexchange hcall).step (step_invoke _ _)
      · intro number request hcall
        rw [calls_invoke] at hcall
        rcases getElem?_concat_cases hcall with hbefore | ⟨_, hclose⟩
        · exact hsound.made number request hbefore
        · nomatch hclose
  | works stepped same =>
      refine ⟨hsound.sharing.tail stepped, ?_, ?_⟩
      · intro index exchange number hexchange hcall
        exact (hsound.forwarded index exchange number hexchange hcall).step stepped
      · intro number request hcall
        rw [same] at hcall
        exact hsound.made number request hcall
  | @answers index number request arrived returned call invoked result waits given =>
      have hlog := ((sharing_sound hstarts hsound.sharing).returned number _ _ _ given rfl).2.log
      have hlength := (List.getElem?_eq_some_iff.mp waits).1
      refine ⟨hsound.sharing, ?_, ?_⟩
      · intro index' exchange number' hexchange hcall
        by_cases hindex : index = index'
        · subst hindex
          rw [List.getElem?_set_self hlength] at hexchange
          obtain rfl := Option.some.inj hexchange
          obtain rfl := Option.some.inj hcall
          refine ⟨(hsound.forwarded index _ number waits rfl).served, ?_⟩
          rintro answer last ⟨⟩
          exact ⟨call, invoked, result, returned, given, rfl, hlog⟩
        · rw [List.getElem?_set_ne hindex] at hexchange
          exact hsound.forwarded index' exchange number' hexchange hcall
      · intro number' request' hcall
        obtain ⟨index', exchange, hexchange, hmade⟩ := hsound.made number' request' hcall
        by_cases hindex : index = index'
        · subst hindex
          obtain rfl := Option.some.inj (waits.symm.trans hexchange)
          exact ⟨index, _, List.getElem?_set_self hlength, hmade⟩
        · refine ⟨index', exchange, ?_, hmade⟩
          rw [List.getElem?_set_ne hindex]
          exact hexchange

theorem Reached.sound (hstarts : Starts server.client around)
    (hreached : Reached server echoes around proxy) : Sound server echoes around proxy := by
  induction hreached with
  | refl =>
      refine ⟨.refl, ?_, ?_⟩
      · intro index exchange number hexchange
        simp at hexchange
      · intro number request hcall
        simp [Monitor.State.calls] at hcall
  | tail _ hstep ih => exact ih.step hstarts hstep

end Steps

/-! ## Exchanges that can be computed -/

section Scripts

variable {server : LetDD.Server} {echoes : Nat → LetDD.Echo} {around : Surroundings}
  {proxy proxy' : Proxy}

/-- The client and the server at work, with no call made meanwhile. -/
theorem works_of_steps {callings callings' : Callings} (exchanges : List Exchange)
    (hsteps : Relation.ReflTransGen clients.Step callings callings')
    (hcalls : callings'.calls = callings.calls) :
    Relation.ReflTransGen (Step server echoes) { callings, exchanges }
      { callings := callings', exchanges } := by
  induction hsteps with
  | refl => exact .refl
  | @tail middle last hbefore hstep ih =>
      have hgrows : callings.calls <+: middle.calls := by
        clear ih hstep hcalls
        induction hbefore with
        | refl => exact List.prefix_rfl
        | tail _ hstep ih => exact ih.trans hstep.calls_prefix
      have hmiddle : middle.calls = callings.calls :=
        (hcalls ▸ hstep.calls_prefix).eq_of_length_le hgrows.length_le
      exact (ih hmiddle).tail (.works hstep (hcalls.trans hmiddle.symm))

/-- A request that is answered before the next one comes. -/
def respond (server : LetDD.Server) (echoes : Nat → LetDD.Echo) (proxy : Proxy)
    (request : LetDD.HttpRequest) : Option Proxy :=
  let callings := proxy.callings
  let arrived := callings.world
  match server.prepare (echoes proxy.exchanges.length) request with
  | .error answer =>
      some { proxy with
        exchanges := proxy.exchanges ++ [{ request, arrived, answer := some (answer, arrived) }] }
  | .ok forwarded =>
      let number := callings.callers.length
      (Script.attend {} number (Script.invoke callings [.communicate forwarded])).bind
        fun callings =>
          match callings.callers[number]? with
          | some ⟨_, _, some (some result, _)⟩ =>
              some
                { callings
                  exchanges := proxy.exchanges ++
                    [{ request, arrived, call := some number
                       answer := some (LetDD.answerTo result, callings.world) }] }
          | _ => none

theorem respond_steps {request : LetDD.HttpRequest}
    (hrespond : respond server echoes proxy request = some proxy') :
    Relation.ReflTransGen (Step server echoes) proxy proxy' := by
  unfold respond at hrespond
  split at hrespond
  next answer hrefused =>
    obtain rfl := Option.some.inj hrespond
    exact .single (.refuses hrefused)
  next forwarded hprepared =>
    obtain ⟨callings, hattend, hgiven⟩ := Option.bind_eq_some_iff.mp hrespond
    obtain ⟨hsteps, hcalls⟩ := Script.attend_steps hattend
    split at hgiven
    next call invoked result returned hcaller =>
      obtain rfl := Option.some.inj hgiven
      have hworks := (works_of_steps _ hsteps hcalls).head (.forwards hprepared)
      have hanswers := hworks.tail (.answers List.getElem?_concat_length hcaller)
      simpa using hanswers
    next => nomatch hgiven

/-- Requests that come one after the other. -/
def respondAll (server : LetDD.Server) (echoes : Nat → LetDD.Echo) (proxy : Proxy)
    (requests : List LetDD.HttpRequest) : Option Proxy :=
  requests.foldlM (respond server echoes) proxy

theorem respondAll_reached {requests : List LetDD.HttpRequest}
    (hreached : Reached server echoes around proxy)
    (hrespond : respondAll server echoes proxy requests = some proxy') :
    Reached server echoes around proxy' := by
  induction requests generalizing proxy with
  | nil =>
      obtain rfl := Option.some.inj hrespond
      exact hreached
  | cons request requests ih =>
      obtain ⟨middle, hfirst, hrest⟩ := Option.bind_eq_some_iff.mp hrespond
      exact ih (hreached.trans (respond_steps hfirst)) hrest

end Scripts

end Proxy

end LetDX.Wire
