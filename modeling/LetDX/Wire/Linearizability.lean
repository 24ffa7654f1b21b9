import LetDX.Effects.Monitor
import LetDX.Wire.Callers
import LetDX.Wire.Guarantees
import LetDX.Wire.Outcomes

/-! # The two programs are one ledger

Any number of calls share the client, the server takes its steps between any two
of theirs, and connections fail. Whatever the interleaving, each response that a
call returns is that of a sequential ledger at one moment between the invocation
and the return of the call, and the order of these moments is that of the log.
-/

namespace LetDX.Wire

open Durable Effects LetDB

/-- The client as its callers share it, with the server that serves it. -/
def clients : Monitor LetDD.host Surroundings LetDD.Client Call Outcome where
  machine := network
  program call client := call.program client
  enter number around := { service := around.service, call := number }
  drifts around around' :=
    ∃ service, Served around.service service ∧ around' = { around with service }

/-- The operation that a call asks for. -/
def Call.data : Call → Option StorageWalEntryData
  | communicate request => request.meaning.data
  | close => none

def askedBy (calls : List Call) (number : Nat) : Option StorageWalEntryData :=
  calls[number]?.bind Call.data

/-- What the calls keep, from a server with this log. -/
def ledger (first : List StorageWalEntry) :
    Monitor.Resource Surroundings LetDD.Client Call Outcome where
  free calls client around := Sound around.service ∧
    Traced first (askedBy calls) around.service ∧ Attached False client around.service
  during calls around := Sound around.service ∧ Traced first (askedBy calls) around.service
  later around around' := around.service.Later around'.service
  means number call invoked outcome last := ∀ request response,
    call = .communicate request → outcome = some (.ok response) →
    Executed invoked.service.log number request.meaning response last.service

section Rules

variable {first : List StorageWalEntry} {calls : List Call} {number : Nat} {call : Call}
  {client : LetDD.Client} {around around' : Surroundings}

theorem askedBy_append {data : StorageWalEntryData} (more : List Call)
    (hasked : askedBy calls number = some data) : askedBy (calls ++ more) number = some data := by
  obtain ⟨call, hcall, hdata⟩ := Option.bind_eq_some_iff.mp hasked
  rw [askedBy, List.getElem?_append_left (List.getElem?_eq_some_iff.mp hcall).1, hcall]
  exact hdata

/-- The operations of the client leave the log and the records. -/
theorem Surroundings.Allows.later {op : LetDD.Syscall} {answer : op.Answer}
    (hallows : Allows op around answer around') : around.service.Later around'.service := by
  have hsame {service : Service} (hinitial : service.initial = around.service.initial)
      (hworld : service.world = around.service.world)
      (hrecords : service.records = around.service.records) : around.service.Later service := by
    refine ⟨hinitial, ?_, ?_, ?_⟩
    · rw [Service.log_congr (congrArg World.disk hworld)]
    · rw [hrecords]
    · rw [hworld]
  cases op with
  | contextErr =>
      rw [hallows.2]
      exact .refl _
  | wait =>
      obtain ⟨done, _, _, rfl⟩ := hallows
      exact .refl _
  | dial =>
      rcases hallows with ⟨_, rfl⟩ | ⟨_, rfl⟩
      · exact .refl _
      · exact hsame rfl rfl rfl
  | write =>
      obtain ⟨delivered, _, _, rfl⟩ := hallows
      exact hsame rfl rfl rfl
  | readBytes =>
      rcases hallows with ⟨_, rfl⟩ | ⟨body, _, _, _, rfl⟩
      · exact .refl _
      · exact hsame rfl rfl rfl
  | close =>
      rw [show around' = _ from hallows]
      exact hsame rfl rfl rfl

theorem later_of_performs {op : LetDD.Syscall} {answer : op.Answer}
    (hsound : Sound around.service) (hperforms : network.Performs op around answer around') :
    around.service.Later around'.service := by
  obtain ⟨service, hreach, hallows⟩ := Machine.allowed_of_performs hperforms
  suffices hserved : Sound service ∧ around.service.Later service from
    hserved.2.trans hallows.later
  clear hallows
  induction hreach with
  | refl => exact ⟨hsound, .refl _⟩
  | tail _ hserved ih =>
      obtain ⟨hbefore, hlater⟩ := ih
      exact ⟨hbefore.step hserved, hlater.trans (hserved.later hbefore)⟩

/-- What the server does between two operations it may as well do in the second. -/
theorem absorbs (op : LetDD.Syscall) (around around' : Surroundings) (answer : op.Answer)
    (last : Surroundings) (hdrifts : clients.drifts around around')
    (hperforms : network.Performs op around' answer last) :
    network.Performs op around answer last := by
  obtain ⟨service, hserved, rfl⟩ := hdrifts
  obtain ⟨service', hreach, hallows⟩ := Machine.allowed_of_performs hperforms
  exact Machine.performs_allowing Surroundings.exists_allowed
    ⟨service', .head hserved hreach, hallows⟩

theorem program_keeps (hsound : Sound around.service)
    (htraced : Traced first (askedBy calls) around.service)
    (hattached : Attached False client around.service) (hcall : calls[number]? = some call) :
    network.Keeps ((ledger first).during calls)
      (fun returned around' => (ledger first).free calls returned.2 around' ∧
        (ledger first).means number call (clients.enter number around) returned.1 around')
      (call.program client) (clients.enter number around) := by
  have hwatched : Watched first (askedBy calls) around.service.log number
      (clients.enter number around) :=
    ⟨rfl, hsound, htraced, List.prefix_rfl⟩
  cases call with
  | communicate request =>
      have hasked (data : StorageWalEntryData) (hdata : request.meaning.data = some data) :
          askedBy calls number = some data := by
        rw [askedBy, hcall]
        exact hdata
      have hcommunicates := hwatched.communicate hattached hasked
      refine .bind (hcommunicates.mono ?_ ?_)
      · exact fun around' hwatched => ⟨hwatched.sound, hwatched.traced⟩
      · rintro ⟨result, client'⟩ around' hanswered
        obtain ⟨⟨_, hsound', htraced', _⟩, hattached', hexecuted⟩ := hanswered
        refine .pure ⟨hsound', htraced'⟩ ⟨⟨hsound', htraced', hattached'⟩, ?_⟩
        rintro _ response ⟨⟩ hresult
        exact hexecuted response (Option.some.inj hresult)
  | close =>
      have hdone {client' : LetDD.Client} {around' : Surroundings}
          (hafter : Watched first (askedBy calls) around.service.log number around')
          (hnone : client'.connection = none) :
          network.Keeps ((ledger first).during calls)
            (fun returned around' => (ledger first).free calls returned.2 around' ∧
              (ledger first).means number .close (clients.enter number around) returned.1 around')
            (pure (none, client')) around' := by
        refine .pure ⟨hafter.sound, hafter.traced⟩
          ⟨⟨hafter.sound, hafter.traced, attached_none hnone⟩, ?_⟩
        rintro request response ⟨⟩
      cases hconnection : client.connection with
      | none =>
          change network.Keeps _ _ (do let client ← client.disconnect; return (none, client)) _
          rw [LetDD.Client.disconnect, hconnection]
          exact hdone hwatched hconnection
      | some connection =>
          obtain ⟨transactions, hquiet, _⟩ := hattached connection hconnection
          have hdisconnects : network.Keeps
              (Watched first (askedBy calls) around.service.log number)
              (fun client' around' => client'.connection = none ∧
                Watched first (askedBy calls) around.service.log number around')
              client.disconnect (clients.enter number around) :=
            hwatched.disconnect hconnection (hquiet.dialed ▸ Nat.lt_succ_self connection)
              fun around' hafter => ⟨rfl, hafter⟩
          refine .bind (hdisconnects.mono ?_ ?_)
          · exact fun around' hwatched => ⟨hwatched.sound, hwatched.traced⟩
          · exact fun client' around' hafter => hdone hafter.2 hafter.1

/-- The calls and the server keep the log what it is said to be. -/
theorem clients_respects (first : List StorageWalEntry) : clients.Respects (ledger first) where
  refl around := .refl around.service
  trans hfirst hsecond := hfirst.trans hsecond
  instant hfree := ⟨hfree.1, hfree.2.1⟩
  invokes_free call hfree :=
    ⟨hfree.1, hfree.2.1.mono fun _ _ => askedBy_append [call], hfree.2.2⟩
  invokes_during call hduring := ⟨hduring.1, hduring.2.mono fun _ _ => askedBy_append [call]⟩
  program hfree hcall := program_keeps hfree.1 hfree.2.1 hfree.2.2 hcall
  absorbs := absorbs
  drifts_free := by
    rintro calls client around around' ⟨hsound, htraced, hattached⟩ ⟨service, hserved, rfl⟩
    exact ⟨hsound.step hserved, htraced.step hsound hserved,
      persists_attached False client _ _ hsound hattached hserved⟩
  drifts_during := by
    rintro calls around around' ⟨hsound, htraced⟩ ⟨service, hserved, rfl⟩
    exact ⟨hsound.step hserved, htraced.step hsound hserved⟩
  later_enter _ around := .refl around.service
  later_performs hduring hperforms := later_of_performs hduring.1 hperforms
  later_drifts := by
    rintro calls around around' ⟨hsound, _⟩ ⟨service, hserved, rfl⟩
    exact hserved.later hsound
  means_earlier hlater hmeans request response hcall houtcome :=
    (hmeans request response hcall houtcome).earlier hlater.log
  means_later hlater hmeans request response hcall houtcome :=
    (hmeans request response hcall houtcome).later hlater

end Rules

/-! ## Concurrent calls -/

/-- The callers of the client. -/
abbrev Callings :=
  Monitor.State LetDD.host Surroundings LetDD.Client Call Outcome

/-- The callers at any instant, from a client that has just been created and a
server about to accept its first connection. -/
abbrev Sharing (client : LetDD.Client) (around : Surroundings) : Callings → Prop :=
  clients.Reached client around

/-! ## Calls that can be computed -/

namespace Script

/-- These calls are made at once. -/
def invoke (state : Callings) (calls : List Call) : Callings :=
  { state with callers := state.callers ++ calls.map fun call => { call, invoked := state.world } }

/-- One call from taking the mutex until it returns, by the script. -/
def attend (script : Script) (number : Nat) (state : Callings) : Option Callings :=
  match state.holder, state.callers[number]? with
  | none, some ⟨call, invoked, none⟩ =>
      (script.machine.run (fun _ _ => ()) 1000 (call.program state.object)
        (clients.enter number state.world)).map fun ((outcome, client), around) =>
          { object := client
            world := around
            callers := state.callers.set number
              { call, invoked, returned := some (outcome, around) } }
  | _, _ => none

variable {client : LetDD.Client} {around : Surroundings} {state state' : Callings}

theorem invoke_sharing (hreached : Sharing client around state) (calls : List Call) :
    Sharing client around (invoke state calls) := by
  induction calls generalizing state with
  | nil =>
      rw [invoke, List.map_nil, List.append_nil]
      exact hreached
  | cons call calls ih =>
      have hlater := ih (hreached.tail (.invokes call))
      simpa [invoke] using hlater

theorem attend_steps {script : Script} {number : Nat}
    (hattend : script.attend number state = some state') :
    Relation.ReflTransGen clients.Step state state' ∧ state'.calls = state.calls := by
  unfold attend at hattend
  split at hattend
  next call invoked hfree hwaits =>
    obtain ⟨⟨⟨outcome, client'⟩, around'⟩, hrun, rfl⟩ := Option.map_eq_some_iff.mp hattend
    have hreturns : network.Returns (call.program state.object)
        (clients.enter number state.world) (outcome, client') around' :=
      Machine.Returns.mono (fun _ _ _ _ => machine_performs) (Machine.returns_of_run hrun)
    exact ⟨Monitor.Step.turn hfree hwaits hreturns, Monitor.map_call_set hwaits⟩
  next => nomatch hattend

/-- Calls that are made at once, and then take the mutex in this order. -/
def attendAll (script : Script) (numbers : List Nat) (state : Callings) : Option Callings :=
  numbers.foldlM (fun state number => script.attend number state) state

theorem attendAll_sharing {script : Script} {numbers : List Nat}
    (hreached : Sharing client around state)
    (hattend : script.attendAll numbers state = some state') : Sharing client around state' := by
  induction numbers generalizing state with
  | nil =>
      obtain rfl := Option.some.inj hattend
      exact hreached
  | cons number numbers ih =>
      rw [attendAll, List.foldlM_cons] at hattend
      obtain ⟨middle, hfirst, hrest⟩ := Option.bind_eq_some_iff.mp hattend
      exact ih (hreached.trans (attend_steps hfirst).1) hrest

end Script

/-- The calls of these requests, all of them made before the first is served. -/
def crowd (requests : List LetDD.Request) : Callings :=
  Script.invoke { object := freshClient, world := freshAround } (requests.map .communicate)

theorem crowd_sharing (requests : List LetDD.Request) :
    Sharing freshClient freshAround (crowd requests) :=
  Script.invoke_sharing .refl _

/-- A caller that has been given this outcome. -/
def Callings.outcome (state : Callings) (number : Nat) : Option (Call × Outcome) :=
  state.callers[number]?.bind fun caller => caller.returned.map fun returned =>
    (caller.call, returned.1)

section Sharings

variable {client : LetDD.Client} {around : Surroundings} {state : Callings}

theorem Starts.free (hstarts : Starts client around) :
    (ledger around.service.log).free [] client around := by
  have hsettled := hstarts.settled
  refine ⟨hsettled.sound, ?_, ?_⟩
  swap
  · intro connection hconnection
    obtain ⟨transactions, hquiet, _⟩ := hsettled.attached connection hconnection
    exact ⟨transactions, hquiet, False.elim⟩
  obtain @⟨address, observer, context, world, unused, reachable⟩ := hstarts
  have hagrees := hsettled.sound.exists_agrees (by intro _ heq; nomatch heq)
  refine ⟨⟨[], (List.append_nil _).symm, rfl⟩, ⟨[], ?_, by decide, fun hne => (hne rfl).elim⟩,
    storable_agrees hagrees, ?_⟩
  · rw [List.append_nil, hagrees.disk_eq]
    rfl
  · intro call data hcall
    nomatch hcall

theorem sharing_sound (hstarts : Starts client around) (hreached : Sharing client around state) :
    clients.Sound (ledger around.service.log) state :=
  Monitor.Reached.sound (clients_respects _) hstarts.free hreached

/-- Between the invocation and the return of a call that was given a response the
ledger has acted on its request, and what that has added is synced. -/
theorem executed_of_returned (hstarts : Starts client around)
    (hreached : Sharing client around state) {number : Nat} {request : LetDD.Request}
    {response : LetDD.Response} {invoked returned : Surroundings}
    (hreturned : state.callers[number]? = some
      { call := .communicate request, invoked, returned := some (some (.ok response), returned) }) :
    returned.service.Later state.world.service ∧
      ∃ before after, invoked.service.log <+: before ∧
        Acts before request.meaning response after ∧ after <+: returned.service.log ∧
        (after ≠ before →
          (∃ position, before.length = around.service.log.length + position ∧
            state.world.service.records[position]? = some number) ∧
          (storageWalImage after).length ≤ state.world.service.world.disk.synced) := by
  have hheld := sharing_sound hstarts hreached
  obtain ⟨hsound, htraced⟩ := hheld.during
  obtain ⟨hmeans, hlater⟩ := hheld.returned number _ _ _ hreturned rfl
  obtain ⟨before, after, hbefore, hacts, hafter, hrecord⟩ := hmeans request response rfl rfl
  refine ⟨hlater, before, after, hbefore, hacts, hafter, fun hne => ?_⟩
  obtain ⟨⟨position, hposition, hcall⟩, hsynced⟩ := hrecord hne
  rw [← hlater.initial, htraced.initial_eq hsound] at hposition
  exact ⟨⟨position, hposition, hlater.record hcall⟩, hsynced.trans hlater.synced⟩

/-- Each response is that of a sequential ledger at a moment between the
invocation and the return of its call, in the order of the log. An entry that is
added in such a moment is recorded for that call. -/
theorem linearizable (hstarts : Starts client around) (hreached : Sharing client around state)
    {number : Nat} {request : LetDD.Request} {response : LetDD.Response}
    {invoked returned : Surroundings}
    (hreturned : state.callers[number]? = some
      { call := .communicate request, invoked, returned := some (some (.ok response), returned) }) :
    ∃ before after, invoked.service.log <+: before ∧ Acts before request.meaning response after ∧
      after <+: returned.service.log ∧ returned.service.log <+: state.world.service.log ∧
      (after ≠ before → ∃ position, before.length = around.service.log.length + position ∧
        state.world.service.records[position]? = some number) := by
  obtain ⟨hlater, before, after, hbefore, hacts, hafter, hrecord⟩ :=
    executed_of_returned hstarts hreached hreturned
  exact ⟨before, after, hbefore, hacts, hafter, hlater.log, fun hne => (hrecord hne).1⟩

end Sharings

/-- A call that was made and has been given this response, by its number. -/
theorem exists_returned {state : Callings} {number : Nat} {call : Call} {outcome : Outcome}
    (houtcome : state.outcome number = some (call, outcome)) : ∃ invoked returned,
      state.callers[number]? = some
        { call, invoked, returned := some (outcome, returned) } := by
  obtain ⟨⟨call', invoked, result⟩, hcaller, hresult⟩ := Option.bind_eq_some_iff.mp houtcome
  obtain ⟨⟨outcome', returned⟩, rfl, heq⟩ := Option.map_eq_some_iff.mp hresult
  obtain ⟨rfl, rfl⟩ := Prod.mk.inj heq
  exact ⟨invoked, returned, hcaller⟩

/-- Two accounts are asked for at once, and what asked first is served last. -/
theorem exists_crowd : ∃ state invoked returned, Sharing freshClient freshAround state ∧
    state.callers[0]? = some
      { call := .communicate (.addAccount 0 (.ofU128 0) (.ofU128 10) 1), invoked
        returned := some (some (.ok (.addAccount 1)), returned) } ∧
    state.world.service.records = [1, 0] ∧ state.world.service.repeated = [] ∧
    freshAround.service.log = [] := by
  have hserved : (({} : Script).attendAll [1, 0] (crowd transferRequests)).any (fun state =>
      decide (state.outcome 0 = some (.communicate (.addAccount 0 (.ofU128 0) (.ofU128 10) 1),
          some (.ok (.addAccount 1))) ∧
        state.world.service.records = [1, 0] ∧ state.world.service.repeated = [] ∧
        freshAround.service.log = [])) = true := by
    decide +kernel
  obtain ⟨state, hattend, hchecked⟩ := (Option.any_eq_true _ _).mp hserved
  obtain ⟨houtcome, hrecorded⟩ := of_decide_eq_true hchecked
  have hsharing := Script.attendAll_sharing (crowd_sharing transferRequests) hattend
  obtain ⟨invoked, returned, hreturned⟩ := exists_returned houtcome
  exact ⟨state, invoked, returned, hsharing, hreturned, hrecorded⟩

/-- What asked first is given the second account, by the second record. -/
theorem linearizable_crowd : ∃ state invoked returned before after,
    Sharing freshClient freshAround state ∧
    state.callers[0]? = some
      { call := .communicate (.addAccount 0 (.ofU128 0) (.ofU128 10) 1), invoked
        returned := some (some (.ok (.addAccount 1)), returned) } ∧
    invoked.service.log <+: before ∧
    Acts before (LetDD.Request.addAccount 0 (.ofU128 0) (.ofU128 10) 1).meaning (.addAccount 1)
      after ∧
    after <+: returned.service.log ∧ state.world.service.records = [1, 0] ∧
    (after ≠ before → before.length = 1) := by
  obtain ⟨state, invoked, returned, hsharing, hreturned, hrecords, _, hempty⟩ := exists_crowd
  obtain ⟨before, after, hbefore, hacts, hafter, _, hrecord⟩ :=
    linearizable starts_fresh hsharing hreturned
  refine ⟨state, invoked, returned, before, after, hsharing, hreturned, hbefore, hacts, hafter,
    hrecords, fun hne => ?_⟩
  obtain ⟨position, hlength, hcall⟩ := hrecord hne
  rw [hempty, List.length_nil, Nat.zero_add] at hlength
  rw [hrecords] at hcall
  rw [hlength]
  match position with
  | 0 => cases hcall
  | 1 => rfl
  | _ + 2 => cases hcall

end LetDX.Wire
