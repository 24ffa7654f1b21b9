import LetDX.Effects.Noting
import LetDX.LetDB.Network.Language
import LetDX.LetDB.Server.Shutdown

/-! # What stops the server

No client does. A call that fails, of the clock, the allocator, the storage or
the listening socket, ends the loops in the same step, with its own error, and
nothing is written or sent after it. Without such a call and without a signal
the server goes on, whatever the clients send and whenever they leave.
-/

namespace LetDX.LetDB

open Durable Effects Machine

/-- The error that a call which has failed is reported as. The failures of a
connection are not among them. -/
def Syscall.failure : (call : Syscall) → call.Answer → Option Error
  | .time, (now : Time) => if now = Time.failed then some (.state .invalidTime) else none
  | .malloc _, (granted : Bool) | .realloc _, (granted : Bool) =>
      if granted then none else some (.account .outOfMemory)
  | .openExclusive, (result : OpenResult) =>
      if result = .failed then some (.storage .walCreateFailed) else none
  | .openExisting, (opened : Bool) => if opened then none else some (.storage .walOpenFailed)
  | .read _, (data : Option (List U8)) =>
      if data = none then some (.storage .walReadFailed) else none
  | .write bytes, (written : Option Nat) =>
      if written = some bytes.length then none else some (.storage .walWriteFailed)
  | .fsync, (synced : Bool) => if synced then none else some (.storage .walSyncFailed)
  | .lseek .., (sought : Bool) => if sought then none else some (.storage .walSeekFailed)
  | .ftruncate _, (truncated : Bool) =>
      if truncated then none else some (.storage .walTruncateFailed)
  | .socket, (created : Bool) => if created then none else some (.network .serverCreateFailed)
  | .bind _, (bound : Bool) => if bound then none else some (.network .serverBindFailed)
  | .listen _, (listening : Bool) =>
      if listening then none else some (.network .serverListenFailed)
  | .accept, (result : AcceptResult) =>
      match result with
      | .handle _ => none
      | .interrupted => some (.network .serverClosed)
      | .failed => some (.network .serverAcceptFailed)
  | _, _ => none

theorem failure_write_cases (bytes : List U8) (written : Option Nat) :
    written = some bytes.length ∧ Syscall.failure (.write bytes) written = none ∨
      written ≠ some bytes.length ∧
        Syscall.failure (.write bytes) written = some (.storage .walWriteFailed) := by
  by_cases hwhole : written = some bytes.length
  · exact .inl ⟨hwhole, if_pos hwhole⟩
  · exact .inr ⟨hwhole, if_neg hwhole⟩

theorem failure_time_cases (now : Time) :
    now ≠ Time.failed ∧ Syscall.failure .time now = none ∨
      now = Time.failed ∧ Syscall.failure .time now = some (.state .invalidTime) := by
  by_cases hfailed : now = Time.failed
  · exact .inr ⟨hfailed, if_pos hfailed⟩
  · exact .inl ⟨hfailed, if_neg hfailed⟩

/-- A signal is handled just before the flag is accessed. -/
def Syscall.signals : (call : Syscall) → call.Choice → Bool
  | .getAccepting, (signalled : Bool) | .getExecuting, (signalled : Bool)
  | .setAccepting _, (signalled : Bool) | .setExecuting _, (signalled : Bool) => signalled
  | _, _ => false

/-- Whether there was a signal, and the calls that have failed, each with its
error and the world that it has left. -/
structure Incidents where
  signalled : Bool := false
  failures : List (Error × World) := []
  deriving DecidableEq, Repr

def Incidents.note (call : Syscall) (choice : call.Choice) (world : World)
    (incidents : Incidents) : Incidents where
  signalled := incidents.signalled || call.signals choice
  failures := incidents.failures ++
    ((call.failure (call.exec false choice world).1).map fun error =>
      (error, (call.exec false choice world).2)).toList

/-- The system, with notes of all that comes in the way of the server. -/
def observed : Machine host (World × Incidents) :=
  (system false).noting Incidents.note

/-- No call has failed, and the flag is this one unless there was a signal. -/
structure Undisturbed (accepting : Bool) (world : World × Incidents) : Prop where
  failures : world.2.failures = []
  accepting : world.2.signalled = false → world.1.accepting = accepting

/-- One call has failed, with this error, and nothing but flags has changed since. -/
def Failed (error : Error) (world : World × Incidents) : Prop :=
  ∃ failed, world.2.failures = [(error, failed)] ∧ Reflagged failed world.1

/-! ## Single calls -/

section Calls

variable {accepting : Bool} {error : Error} {call : Syscall} {world world' : World × Incidents}

theorem Syscall.exec_accepting {choice : call.Choice}
    (hkeeps : ∀ value, call ≠ .setAccepting value) (hquiet : call.signals choice = false)
    (world : World) : (call.exec false choice world).2.accepting = world.accepting := by
  cases call with
  | setAccepting value => exact (hkeeps value rfl).elim
  | getAccepting | getExecuting | setExecuting value =>
      obtain rfl : choice = false := hquiet
      rfl
  | accept => cases (choice : AcceptResult) <;> rfl
  | recv => cases (choice : RecvResult) <;> rfl
  | send bytes => cases (choice : SendResult) <;> rfl
  | _ =>
      simp only [Syscall.exec]
      repeat' split
      all_goals rfl

theorem observed_call (call : Syscall) {post : call.Answer → World × Incidents → Prop}
    (hafter : ∀ answer world', observed.Performs call world answer world' → post answer world') :
    observed.Yields post (Program.perform (I := host) call) world :=
  .perform hafter

/-- What a call notes. -/
theorem Undisturbed.performs {answer : call.Answer} (hundisturbed : Undisturbed accepting world)
    (hkeeps : ∀ value, call ≠ .setAccepting value)
    (hperforms : observed.Performs call world answer world') :
    call.failure answer = none ∧ Undisturbed accepting world' ∨
      ∃ error, call.failure answer = some error ∧ Failed error world' := by
  obtain ⟨choice, hexec⟩ := hperforms
  obtain ⟨rfl, rfl⟩ := Prod.mk.inj hexec
  obtain ⟨hfailures, haccepting⟩ := hundisturbed
  change call.failure (call.exec false choice world.1).1 = none ∧ _ ∨
    ∃ error, call.failure (call.exec false choice world.1).1 = some error ∧ _
  cases hfailure : call.failure (call.exec false choice world.1).1 with
  | none =>
      refine .inl ⟨rfl, ?_, fun hsignalled => ?_⟩
      · change world.2.failures ++ _ = []
        rw [hfailures, hfailure]
        rfl
      · obtain ⟨hbefore, hquiet⟩ := Bool.or_eq_false_iff.mp hsignalled
        exact (Syscall.exec_accepting hkeeps hquiet world.1).trans (haccepting hbefore)
  | some error =>
      refine .inr ⟨error, rfl, (call.exec false choice world.1).2, ?_, ⟨rfl, rfl, rfl⟩⟩
      change world.2.failures ++ _ = _
      rw [hfailures, hfailure]
      rfl

/-- The end of a call that answers whether it has succeeded. -/
def Checked (accepting : Bool) (failure : Error) (granted : Bool)
    (world : World × Incidents) : Prop :=
  granted = true ∧ Undisturbed accepting world ∨ granted = false ∧ Failed failure world

theorem Checked.of_noted {granted : Bool} {failure : Error}
    (hnoted : (if granted then none else some failure) = none ∧ Undisturbed accepting world ∨
      ∃ error, (if granted then none else some failure) = some error ∧ Failed error world) :
    Checked accepting failure granted world := by
  cases granted with
  | true =>
      rcases hnoted with ⟨_, hafter⟩ | ⟨_, hfailure, _⟩
      · exact .inl ⟨rfl, hafter⟩
      · cases hfailure
  | false =>
      rcases hnoted with ⟨hfailure, _⟩ | ⟨error, hfailure, hfailed⟩
      · cases hfailure
      · obtain rfl := Option.some.inj hfailure
        exact .inr ⟨rfl, hfailed⟩

theorem realloc_checked {bytes : U64} (hundisturbed : Undisturbed accepting world) :
    observed.Yields (Checked accepting (.account .outOfMemory)) (Proc.realloc bytes) world :=
  observed_call (.realloc bytes) fun _ _ hperforms =>
    .of_noted (hundisturbed.performs (by simp) hperforms)

theorem fsync_checked (hundisturbed : Undisturbed accepting world) :
    observed.Yields (Checked accepting (.storage .walSyncFailed)) Proc.fsync world :=
  observed_call .fsync fun _ _ hperforms => .of_noted (hundisturbed.performs (by simp) hperforms)

/-- The calls that follow a failure fail no more, and change flags at most. -/
def Syscall.Closing : Syscall → Prop
  | .closeFile => True
  | call => call.Flagging

theorem Failed.performs {answer : call.Answer} (hfailed : Failed error world)
    (hclosing : call.Closing) (hperforms : observed.Performs call world answer world') :
    Failed error world' := by
  obtain ⟨failed, hfailures, hflags⟩ := hfailed
  obtain ⟨choice, hexec⟩ := hperforms
  obtain ⟨-, rfl⟩ := Prod.mk.inj hexec
  have hnone : call.failure (call.exec false choice world.1).1 = none := by
    cases call <;> first | rfl | exact hclosing.elim
  refine ⟨failed, ?_, hflags.trans ?_⟩
  · change world.2.failures ++ _ = _
    rw [hfailures, hnone]
    rfl
  · cases call with
    | getAccepting | getExecuting => exact reflagged_interrupt _ _
    | setAccepting value | setExecuting value =>
        have hinterrupt := reflagged_interrupt world.1 choice
        exact ⟨hinterrupt.disk, hinterrupt.received, hinterrupt.sent⟩
    | closeSocket | closeFile => exact ⟨rfl, rfl, rfl⟩
    | _ => exact hclosing.elim

variable {α β : Type} {post : α → World × Incidents → Prop} {f : call.Answer → Proc α}

/-- A call is followed by what it is followed by when it succeeds, or when it fails. -/
theorem Undisturbed.bind (hundisturbed : Undisturbed accepting world)
    (hkeeps : ∀ value, call ≠ .setAccepting value)
    (hsucceeded : ∀ answer world', call.failure answer = none → Undisturbed accepting world' →
      observed.Yields post (f answer) world')
    (hfailed : ∀ answer error world', call.failure answer = some error → Failed error world' →
      observed.Yields post (f answer) world') :
    observed.Yields post (Program.perform (I := host) call >>= f) world := by
  refine .bind (.perform ?_)
  intro answer world' hperforms
  rcases hundisturbed.performs hkeeps hperforms with ⟨hnone, hafter⟩ | ⟨error, hsome, hafter⟩
  · exact hsucceeded answer world' hnone hafter
  · exact hfailed answer error world' hsome hafter

end Calls

/-! ## Procedures -/

/-- A procedure has ended with this error. It is the fatal error of the one call
that has failed, or an error of this kind if none has. -/
def Reports (accepting : Bool) (kind : Error → Prop) (error : Error)
    (world : World × Incidents) : Prop :=
  Undisturbed accepting world ∧ kind error ∨
    Failed error world ∧ (errorReport error).action = .fatal

/-- An error, or none, that does not stop the server. -/
def Error.Bearable (error : Error) : Prop :=
  (errorReport error).action ≠ .fatal

section Procedures

variable {accepting : Bool} {kind : Error → Prop} {error : Error} {world : World × Incidents}
  {state : State} {context : Let} {request : NetworkRequest} {response : NetworkResponse}

theorem errorExists_of_fatal (hfatal : (errorReport error).action = .fatal) :
    errorExists error = true := by
  cases error <;> first | rfl | cases hfatal

theorem Undisturbed.reports (hundisturbed : Undisturbed accepting world) (hkind : kind error) :
    Reports accepting kind error world :=
  .inl ⟨hundisturbed, hkind⟩

theorem Failed.reports (hfailed : Failed error world)
    (hfatal : (errorReport error).action = .fatal) : Reports accepting kind error world :=
  .inr ⟨hfailed, hfatal⟩

theorem accountListAdd_reports {list : AccountList} {account : Account}
    (hundisturbed : Undisturbed accepting world) :
    observed.Yields (fun result => Reports accepting Error.Bearable result.1)
      (accountListAdd list account) world := by
  unfold accountListAdd
  split
  · split
    · exact .pure (hundisturbed.reports (by simp [Error.Bearable, errorReport, errorReportAccount]))
    · refine .bind ((realloc_checked hundisturbed).weaken ?_)
      rintro granted world' (⟨rfl, hafter⟩ | ⟨rfl, hfailed⟩)
      · exact .pure (hafter.reports (by simp [Error.Bearable, errorReport]))
      · exact .pure (hfailed.reports rfl)
  · exact .pure (hundisturbed.reports (by simp [Error.Bearable, errorReport]))

theorem stateAddAccount_reports {account : Account} (hundisturbed : Undisturbed accepting world) :
    observed.Yields (fun result => Reports accepting Error.Bearable result.1)
      (stateAddAccount state account) world :=
  .bind ((accountListAdd_reports hundisturbed).weaken fun _ _ hreports => .pure hreports)

theorem stateMakeTransfer_reports {fromId toId : U64} {amount : U128}
    (hundisturbed : Undisturbed accepting world) :
    observed.Yields (fun result => Reports accepting Error.Bearable result.1)
      (stateMakeTransfer state fromId toId amount) world := by
  refine hundisturbed.bind (by simp) ?_ ?_
  · intro (now : Time) world' hnow hafter
    rcases failure_time_cases now with ⟨htime, _⟩ | ⟨_, hfailure⟩
    · rw [if_neg htime]
      split
      · exact .pure (hafter.reports (by simp [Error.Bearable, errorReport]))
      · exact .fault
    · cases hfailure.symm.trans hnow
  · intro (now : Time) error world' hnow hafter
    rcases failure_time_cases now with ⟨_, hfailure⟩ | ⟨htime, hfailure⟩
    · cases hfailure.symm.trans hnow
    · obtain rfl := Option.some.inj (hfailure.symm.trans hnow)
      rw [if_pos htime]
      exact .pure (hafter.reports rfl)

theorem stateUpdateAccount_reports {accountId : U64} {flags : U8}
    (hundisturbed : Undisturbed accepting world) :
    observed.Yields (fun result => Reports accepting Error.Bearable result.1)
      (stateUpdateAccount state accountId flags) world := by
  unfold stateUpdateAccount accountListUpdate
  split
  · exact .bind (.pure (.pure (hundisturbed.reports (by simp [Error.Bearable, errorReport]))))
  · exact .bind .fault

theorem storageWalWrite_reports {storageWal : StorageWal} {entry : StorageWalEntry}
    (hundisturbed : Undisturbed accepting world) :
    observed.Yields (fun result => Reports accepting Error.Bearable result.1)
      (storageWalWrite storageWal entry) world := by
  unfold storageWalWrite
  split
  · exact .pure (hundisturbed.reports (by simp [Error.Bearable, errorReport, errorReportStorage]))
  · refine hundisturbed.bind (by simp) ?_ ?_
    · intro (written : Option Nat) world₁ hwritten hafter₁
      rcases failure_write_cases entry.safe written with ⟨hwhole, _⟩ | ⟨_, hfailure⟩
      swap
      · cases hfailure.symm.trans hwritten
      rw [entry.length_safe] at hwhole
      rw [if_neg (not_not_intro hwhole)]
      refine .bind (.bind ((fsync_checked hafter₁).weaken ?_))
      rintro synced world₂ (⟨rfl, hafter₂⟩ | ⟨rfl, hfailed⟩)
      · exact .pure (.pure (hafter₂.reports (by simp [Error.Bearable, errorReport])))
      · exact .pure (.pure (hfailed.reports rfl))
    · intro (written : Option Nat) error world₁ hwritten hafter₁
      rcases failure_write_cases entry.safe written with ⟨_, hfailure⟩ | ⟨hshort, hfailure⟩
      · cases hfailure.symm.trans hwritten
      · obtain rfl := Option.some.inj (hfailure.symm.trans hwritten)
        rw [entry.length_safe] at hshort
        rw [if_pos hshort]
        exact .pure (hafter₁.reports rfl)

theorem letRequestLogged_reports {entry : StorageWalEntry}
    {mutate : State → Proc (Error × State × NetworkResponse)}
    (hundisturbed : Undisturbed accepting world)
    (hmutate : ∀ state world, Undisturbed accepting world →
      observed.Yields (fun result => Reports accepting Error.Bearable result.1)
        (mutate state) world) :
    observed.Yields (fun result => Reports accepting Error.Bearable result.1)
      (letRequestLogged context entry response mutate) world := by
  refine .bind ((storageWalWrite_reports hundisturbed).weaken ?_)
  rintro ⟨error, storageWal⟩ world₁ hreports
  dsimp only
  split
  · exact .pure hreports
  next hsucceeded =>
    rcases hreports with ⟨hafter₁, _⟩ | ⟨_, hfatal⟩
    · exact .bind ((hmutate _ _ hafter₁).weaken fun _ _ hreports => .pure hreports)
    · exact (hsucceeded (errorExists_of_fatal hfatal)).elim

theorem bearable_none : Error.Bearable .none := by
  simp [Error.Bearable, errorReport]

theorem Error.Bearable.of_reject (haction : (errorReport error).action = .reject) :
    error.Bearable := by
  simp [Error.Bearable, haction]

theorem letRequestAddAccount_reports {timeNow : Time} {walId : U64} {credits debits : U128}
    {flags : U8} (hundisturbed : Undisturbed accepting world) :
    observed.Yields (fun result => Reports accepting Error.Bearable result.1)
      (letRequestAddAccount context response timeNow walId credits debits flags) world := by
  refine letRequestLogged_reports hundisturbed fun state world hafter => ?_
  refine .bind ((stateAddAccount_reports hafter).weaken ?_)
  rintro ⟨error, state', accountId⟩ world' hreports
  dsimp only
  split
  · exact .pure hreports
  · exact .pure hreports

theorem letRequestMakeTransfer_reports {timeNow : Time} {walId fromId toId : U64} {amount : U128}
    (hundisturbed : Undisturbed accepting world) :
    observed.Yields (fun result => Reports accepting Error.Bearable result.1)
      (letRequestMakeTransfer context response timeNow walId fromId toId amount) world := by
  unfold letRequestMakeTransfer
  dsimp only
  split
  next hrefused =>
    refine .pure (hundisturbed.reports (.of_reject (errorReport_guardMakeTransfer ?_)))
    simpa [errorExists] using hrefused
  next =>
    refine letRequestLogged_reports hundisturbed fun state world hafter => ?_
    exact .bind ((stateMakeTransfer_reports hafter).weaken fun _ _ hreports => .pure hreports)

theorem letRequestUpdateAccount_reports {timeNow : Time} {walId accountId : U64} {flags : U8}
    (hundisturbed : Undisturbed accepting world) :
    observed.Yields (fun result => Reports accepting Error.Bearable result.1)
      (letRequestUpdateAccount context response timeNow walId accountId flags) world := by
  unfold letRequestUpdateAccount
  dsimp only
  split
  next hrefused =>
    refine .pure (hundisturbed.reports (.of_reject (errorReport_guardUpdateAccount ?_)))
    simpa [errorExists] using hrefused
  next =>
    refine letRequestLogged_reports hundisturbed fun state world hafter => ?_
    exact .bind ((stateUpdateAccount_reports hafter).weaken fun _ _ hreports => .pure hreports)

theorem letRequest_reports (hundisturbed : Undisturbed accepting world) :
    observed.Yields (fun result => Reports accepting Error.Bearable result.1)
      (letRequest context request response) world := by
  refine hundisturbed.bind (by simp) ?_ ?_
  · intro (now : Time) world' hnow hafter
    rcases failure_time_cases now with ⟨htime, _⟩ | ⟨_, hfailure⟩
    swap
    · cases hfailure.symm.trans hnow
    rw [if_neg htime]
    cases request with
    | magic => exact .pure (hafter.reports bearable_none)
    | countDatabase => exact .pure (hafter.reports bearable_none)
    | close => exact .pure (hafter.reports bearable_none)
    | getAccount accountId =>
        refine .pure (hafter.reports ?_)
        unfold letRequestGetAccount accountListGet
        split
        next error hmissing =>
          split at hmissing
          · obtain rfl := Except.error.inj hmissing
            exact .of_reject rfl
          · cases hmissing
        next => exact bearable_none
    | addAccount => exact letRequestAddAccount_reports hafter
    | makeTransfer => exact letRequestMakeTransfer_reports hafter
    | updateAccount => exact letRequestUpdateAccount_reports hafter
  · intro (now : Time) error world' hnow hafter
    rcases failure_time_cases now with ⟨_, hfailure⟩ | ⟨htime, hfailure⟩
    · cases hfailure.symm.trans hnow
    · obtain rfl := Option.some.inj (hfailure.symm.trans hnow)
      rw [if_pos htime]
      exact .pure (hafter.reports rfl)

end Procedures

/-! ## The loops -/

/-- The loops go on, or they were stopped by the call that has failed. -/
def Proceeds (point : LetRun) (world : World × Incidents) : Prop :=
  Undisturbed true world ∧
      (world.2.signalled = false → ∀ context, point ≠ .finished context) ∨
    ∃ context, point = .finished context ∧ errorExists context.error = true ∧
      Failed context.error world

section Loops

variable {world : World × Incidents} {context : Let} {request : NetworkRequest}
  {response : NetworkResponse} {error : Error}

theorem letRunAccepting_proceeds (hundisturbed : Undisturbed true world) :
    observed.Yields Proceeds (letRunAccepting context) world := by
  refine .bind (observed_call .getAccepting ?_)
  intro (accepting : Bool) world' hperforms
  have hflag : accepting = world'.1.accepting := by
    obtain ⟨choice, hexec⟩ := hperforms
    obtain ⟨rfl, rfl⟩ := Prod.mk.inj hexec
    rfl
  rcases hundisturbed.performs (by simp) hperforms with ⟨_, hafter⟩ | ⟨_, hfailure, _⟩
  · cases haccepting : accepting with
    | true => exact .pure (.inl ⟨hafter, by simp⟩)
    | false =>
        refine .pure (.inl ⟨hafter, fun hquiet => ?_⟩)
        cases haccepting.symm.trans (hflag.trans (hafter.accepting hquiet))
  · cases hfailure

theorem letRunExecuting_proceeds (hundisturbed : Undisturbed true world) :
    observed.Yields Proceeds (letRunExecuting context) world := by
  refine hundisturbed.bind (by simp) ?_ ?_
  · intro (executing : Bool) world₁ _ hafter₁
    cases executing with
    | true => exact .pure (.inl ⟨hafter₁, by simp⟩)
    | false =>
        refine hafter₁.bind (by simp) ?_ ?_
        · exact fun _ world₂ _ hafter₂ => letRunAccepting_proceeds hafter₂
        · intro _ error world₂ hfailure
          cases hfailure
  · intro _ error world₁ hfailure
    cases hfailure

theorem letRunSetExecuting_proceeds {value : Bool} (hundisturbed : Undisturbed true world) :
    observed.Yields Proceeds (do Proc.setExecuting value; letRunExecuting context) world := by
  refine hundisturbed.bind (by simp) ?_ ?_
  · exact fun _ world' _ hafter => letRunExecuting_proceeds hafter
  · intro _ error world' hfailure
    cases hfailure

/-- Both flags are down. -/
def Down (world : World) : Prop :=
  world.executing = false ∧ world.accepting = false

theorem Down.performs {call : Syscall} {answer : call.Answer} {world' : World × Incidents}
    (hdown : Down world.1) (hlowering : call.Lowering)
    (hperforms : observed.Performs call world answer world') : Down world'.1 := by
  obtain ⟨choice, hexec⟩ := performs_of_noting hperforms
  obtain ⟨-, hworld⟩ := Prod.mk.inj hexec
  rw [← hworld]
  exact hlowering.exec choice hdown

theorem yields_lowering (call : Syscall) {post : call.Answer → World × Incidents → Prop}
    (hfailed : Failed error world) (hdown : Down world.1) (hclosing : call.Closing)
    (hlowering : call.Lowering)
    (hpost : ∀ answer world', Failed error world' → Down world'.1 →
      observed.Performs call world answer world' → post answer world') :
    observed.Yields post (Program.perform (I := host) call) world := by
  refine .perform ?_
  intro answer world' hperforms
  exact hpost answer world' (hfailed.performs hclosing hperforms)
    (hdown.performs hlowering hperforms) hperforms

theorem getAccepting_eq {accepting : Bool} {world' : World × Incidents}
    (hperforms : observed.Performs .getAccepting world accepting world') :
    accepting = world'.1.accepting := by
  obtain ⟨choice, hexec⟩ := hperforms
  obtain ⟨rfl, rfl⟩ := Prod.mk.inj hexec
  rfl

theorem getExecuting_eq {executing : Bool} {world' : World × Incidents}
    (hperforms : observed.Performs .getExecuting world executing world') :
    executing = world'.1.executing := by
  obtain ⟨choice, hexec⟩ := hperforms
  obtain ⟨rfl, rfl⟩ := Prod.mk.inj hexec
  rfl

theorem letRunExecuting_failed (hfailed : Failed context.error world)
    (hexists : errorExists context.error = true) (hdown : Down world.1) :
    observed.Yields Proceeds (letRunExecuting context) world := by
  refine .bind (yields_lowering .getExecuting hfailed hdown trivial trivial ?_)
  intro executing world₁ hfailed₁ hdown₁ hperforms₁
  obtain rfl : executing = false := (getExecuting_eq hperforms₁).trans hdown₁.1
  refine .bind (yields_lowering .closeSocket hfailed₁ hdown₁ trivial trivial ?_)
  intro _ world₂ hfailed₂ hdown₂ _
  refine .bind (yields_lowering .getAccepting hfailed₂ hdown₂ trivial trivial ?_)
  intro accepting world₃ hfailed₃ hdown₃ hperforms₃
  obtain rfl : accepting = false := (getAccepting_eq hperforms₃).trans hdown₃.2
  exact .pure (.inr ⟨context, rfl, hexists, hfailed₃⟩)

/-- A signal between the two does not raise a flag again. -/
theorem down_of_cleared {world₁ world₂ : World × Incidents}
    (hexecuting : observed.Performs (.setExecuting false) world () world₁)
    (haccepting : observed.Performs (.setAccepting false) world₁ () world₂) : Down world₂.1 := by
  obtain ⟨first, hfirst⟩ := hexecuting
  obtain ⟨-, rfl⟩ := Prod.mk.inj hfirst
  obtain ⟨second, hsecond⟩ := haccepting
  obtain ⟨-, rfl⟩ := Prod.mk.inj hsecond
  cases (second : Bool) with
  | false => exact ⟨rfl, rfl⟩
  | true => exact ⟨rfl, rfl⟩

/-- The switch ends the loops exactly after a failure. -/
theorem letRunDispatch_proceeds
    (hreports : Reports true Error.Bearable context.error world) :
    observed.Yields Proceeds (letRunDispatch context request response) world := by
  unfold letRunDispatch
  rcases hreports with ⟨hundisturbed, hbearable⟩ | ⟨hfailed, hfatal⟩
  · cases haction : (errorReport context.error).action with
    | none => exact .pure (.inl ⟨hundisturbed, by simp⟩)
    | reject => exact .pure (.inl ⟨hundisturbed, by simp⟩)
    | ignore => exact letRunSetExecuting_proceeds hundisturbed
    | close => exact letRunSetExecuting_proceeds hundisturbed
    | fatal => exact (hbearable haction).elim
  · rw [hfatal]
    refine .bind (observed_call (.setExecuting false) ?_)
    intro _ world₁ hperforms₁
    refine .bind (observed_call (.setAccepting false) ?_)
    intro _ world₂ hperforms₂
    have hclosing₁ : Syscall.Closing (.setExecuting false) := trivial
    have hclosing₂ : Syscall.Closing (.setAccepting false) := trivial
    have hfailed₂ := (hfailed.performs hclosing₁ hperforms₁).performs hclosing₂ hperforms₂
    exact letRunExecuting_failed hfailed₂ (errorExists_of_fatal hfatal)
      (down_of_cleared hperforms₁ hperforms₂)

theorem letRunResponded_proceeds (hundisturbed : Undisturbed true world)
    (hbearable : context.error.Bearable) :
    observed.Yields Proceeds (letRunResponded context request) world := by
  unfold letRunResponded
  dsimp only
  split
  · rw [if_neg hbearable]
    exact letRunSetExecuting_proceeds hundisturbed
  · split
    · exact letRunSetExecuting_proceeds hundisturbed
    · exact letRunExecuting_proceeds hundisturbed

/-! ## Steps -/

/-- Receiving fails for the connection only. -/
theorem networkClientRead_reports (hundisturbed : Undisturbed true world) :
    observed.Yields (fun result world' => Undisturbed true world' ∧ result.1.Bearable)
      (networkClientRead request) world := by
  have hloop : observed.Yields (fun result world => Undisturbed true world ∧
      ∀ error, result = .error error → error.Bearable)
      (Program.iterate networkClientReadRound { readBuffer := [], readByte := 0 }) world := by
    refine .iterate (fun _ world => Undisturbed true world) ?_ hundisturbed
    intro loop world hundisturbed
    unfold networkClientReadRound
    split
    · refine hundisturbed.bind (by simp) ?_ ?_
      · intro (result : RecvResult) world' _ hafter
        cases result with
        | byte readByte =>
            dsimp only
            split
            · exact .pure ⟨hafter, by simp⟩
            · exact .pure hafter
        | closed | wouldBlock | interrupted | failed =>
            refine .pure ⟨hafter, fun error herror => ?_⟩
            obtain rfl := Except.error.inj herror
            simp [Error.Bearable, errorReport, errorReportNetwork]
      · intro _ error world' hfailure
        cases hfailure
    · exact .pure ⟨hundisturbed, by simp⟩
  refine .bind (hloop.weaken ?_)
  rintro result world' ⟨hafter, hbearable⟩
  cases result with
  | error error => exact .pure ⟨hafter, hbearable error rfl⟩
  | ok loop =>
      dsimp only
      split
      · exact .pure ⟨hafter, by simp [Error.Bearable, errorReport, errorReportNetwork]⟩
      · refine .pure ⟨hafter, ?_⟩
        cases hexists : errorExists (networkRequestDecode loop.readBuffer request).1 with
        | true => exact .of_reject (decode_rejects _ _ hexists)
        | false =>
            have hnone : (networkRequestDecode loop.readBuffer request).1 = .none := by
              simpa [errorExists] using hexists
            rw [hnone]
            exact bearable_none

theorem networkClientWrite_reports (hundisturbed : Undisturbed true world) :
    observed.Yields (fun error world' => Undisturbed true world' ∧ error.Bearable)
      (networkClientWrite response) world := by
  rw [networkClientWrite_eq]
  refine .iterate (fun _ world => Undisturbed true world) ?_ hundisturbed
  intro remaining world hundisturbed
  unfold networkClientWriteRound
  split
  · exact .pure ⟨hundisturbed, bearable_none⟩
  · refine hundisturbed.bind (by simp) ?_ ?_
    · intro (result : SendResult) world' _ hafter
      cases result with
      | sent sentBytes =>
          dsimp only
          split
          · exact .pure ⟨hafter, by simp [Error.Bearable, errorReport, errorReportNetwork]⟩
          · exact .pure hafter
      | wouldBlock | interrupted | failed =>
          exact .pure ⟨hafter, by simp [Error.Bearable, errorReport, errorReportNetwork]⟩
    · intro _ error world' hfailure
      cases hfailure

theorem networkServerAccept_reports (hundisturbed : Undisturbed true world) :
    observed.Yields (fun error world' => Undisturbed true world' ∧ error = .none ∨
        Failed error world' ∧ errorExists error = true)
      networkServerAccept world := by
  refine hundisturbed.bind (by simp) ?_ ?_
  · intro (result : AcceptResult) world' haccepted hafter
    cases result with
    | handle handle => exact .pure (.inl ⟨hafter, rfl⟩)
    | interrupted | failed => cases haccepted
  · intro (result : AcceptResult) error world' hfailure hafter
    cases result with
    | handle handle => cases hfailure
    | interrupted | failed =>
        obtain rfl := Option.some.inj hfailure
        exact .pure (.inr ⟨hafter, rfl⟩)

/-- The step lemma. -/
theorem letRunStep_proceeds {point : LetRun} (hundisturbed : Undisturbed true world)
    (hrunning : ∀ context, point ≠ .finished context) :
    observed.Yields Proceeds (letRunStep point) world := by
  cases point with
  | accepting context =>
      refine .bind ((networkServerAccept_reports hundisturbed).weaken ?_)
      rintro error world' (⟨hafter, rfl⟩ | ⟨hfailed, hexists⟩)
      · rw [if_neg (by decide)]
        exact letRunSetExecuting_proceeds hafter
      · rw [if_pos hexists]
        exact .pure (.inr ⟨_, rfl, hexists, hfailed⟩)
  | reading context =>
      refine .bind ((networkClientRead_reports hundisturbed).weaken ?_)
      rintro ⟨error, request⟩ world' ⟨hafter, hbearable⟩
      dsimp only
      split
      · exact letRunDispatch_proceeds (hafter.reports hbearable)
      · exact .pure (.inl ⟨hafter, by simp⟩)
  | processing context request =>
      refine .bind ((letRequest_reports hundisturbed).weaken ?_)
      rintro ⟨error, context', response'⟩ world' hreports
      exact letRunDispatch_proceeds hreports
  | responding context request response =>
      refine .bind ((networkClientWrite_reports hundisturbed).weaken ?_)
      rintro error world' ⟨hafter, hbearable⟩
      exact letRunResponded_proceeds hafter hbearable
  | finished context => exact (hrunning context rfl).elim

end Loops

/-! ## Runs -/

/-- Where the loops come to, with what has come in their way. -/
inductive Observed : LetRun → World × Incidents → Prop
  | start {context : Let} {world : World} {point : LetRun} {world' : World × Incidents}
      (accepting : world.accepting = true)
      (started : observed.Returns (letRunAccepting context) (world, {}) point world') :
      Observed point world'
  | step {point point' : LetRun} {world world' : World × Incidents}
      (before : Observed point world)
      (stepped : observed.Returns (letRunStep point) world point' world') : Observed point' world'

/-- The run lemma. -/
theorem Observed.proceeds {point : LetRun} {world : World × Incidents}
    (hobserved : Observed point world) : Proceeds point world := by
  induction hobserved with
  | start accepting started =>
      exact letRunAccepting_proceeds ⟨rfl, fun _ => accepting⟩ _ _ started
  | @step point point' world world' before stepped ih =>
      have hfinished (context : Let) (hpoint : point = .finished context) :
          Proceeds point' world' := by
        subst hpoint
        obtain ⟨rfl, rfl⟩ := returns_pure.mp stepped
        exact ih
      by_cases hrunning : ∀ context, point ≠ .finished context
      · rcases ih with ⟨hundisturbed, _⟩ | ⟨context, hpoint, _⟩
        · exact letRunStep_proceeds hundisturbed hrunning _ _ stepped
        · exact (hrunning context hpoint).elim
      · obtain ⟨context, hpoint⟩ := not_forall_not.mp hrunning
        exact hfinished context hpoint

/-- In every run the loops are over as soon as a call has failed, with the error
of that call and with nothing written, received or sent after it. Before that and
without a signal they are not over. -/
theorem fail_stop {point : LetRun} {world : World × Incidents} (hobserved : Observed point world) :
    (world.2.failures = [] ∧ (world.2.signalled = false →
      world.1.accepting = true ∧ ∀ context, point ≠ .finished context)) ∨
    ∃ context failed, point = .finished context ∧ world.2.failures = [(context.error, failed)] ∧
      world.1.disk = failed.disk ∧ world.1.received = failed.received ∧
      world.1.sent = failed.sent := by
  rcases hobserved.proceeds with ⟨hundisturbed, hrunning⟩ | ⟨context, hpoint, _, hfailed⟩
  · exact .inl ⟨hundisturbed.failures, fun hquiet =>
      ⟨hundisturbed.accepting hquiet, hrunning hquiet⟩⟩
  · obtain ⟨failed, hfailures, hflags⟩ := hfailed
    exact .inr ⟨context, failed, hpoint, hfailures, hflags.disk, hflags.received, hflags.sent⟩

/-- An environment that obliges, but never syncs the file. -/
def unsyncing (input : List U8) (call : Syscall) (world : World × Incidents) : call.Choice :=
  match call with
  | .fsync => false
  | call => obliging input call world.1

/-- Where the server on a new file comes to in this environment. -/
def unsynced (input : List U8) : Nat → Option (LetRun × World × Incidents)
  | 0 => observed.run (unsyncing input) 100 (letRunAccepting freshContext) (freshWorld, {})
  | steps + 1 => (unsynced input steps).bind fun (point, world) =>
      observed.run (unsyncing input) 10000 (letRunStep point) world

theorem observed_of_unsynced {input : List U8} {steps : Nat} {point : LetRun}
    {world : World × Incidents} (hunsynced : unsynced input steps = some (point, world)) :
    Observed point world := by
  induction steps generalizing point world with
  | zero => exact .start rfl (returns_of_run hunsynced)
  | succ steps ih =>
      obtain ⟨⟨point₀, world₀⟩, hbefore, hrun⟩ := Option.bind_eq_some_iff.mp hunsynced
      exact (ih hbefore).step (returns_of_run hrun)

/-- The account is in the file, and its client is not answered. -/
theorem fail_stop_unsynced : ∃ point world, Observed point world ∧
    world.2.failures.map Prod.fst = [.storage .walSyncFailed] ∧
    ∃ context failed, point = .finished context ∧ world.2.failures = [(context.error, failed)] ∧
      world.1.disk = failed.disk ∧ world.1.received = failed.received ∧
      world.1.sent = failed.sent := by
  have hunsynced : ((unsynced openingInput 3).map fun reached =>
      reached.2.2.failures.map Prod.fst) = some [.storage .walSyncFailed] := by
    decide +kernel
  obtain ⟨⟨point, world⟩, hreached, hfailures⟩ := Option.map_eq_some_iff.mp hunsynced
  have hobserved := observed_of_unsynced hreached
  refine ⟨point, world, hobserved, hfailures, ?_⟩
  rcases fail_stop hobserved with ⟨hnone, _⟩ | hfailed
  · rw [hnone] at hfailures
    cases hfailures
  · exact hfailed

end LetDX.LetDB
