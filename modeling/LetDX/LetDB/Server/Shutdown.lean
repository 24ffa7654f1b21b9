import LetDX.Effects.Outcomes
import LetDX.LetDB.Server.Replies

/-! # Signals while the loops run

The handler of the signals clears both flags, and the loops test them before they
accept and before they read. A signal is lost where `executing` is set after it,
on a new connection and after a send that failed without closing the connection,
and behind a test, when the call that was tested for succeeds all the same.
-/

namespace LetDX.LetDB

open Effects Machine

/-- The world, and whether a signal has been delivered so far; whether a byte was
received since the last test of `executing`, and whether the first signal was
delivered when none was. -/
structure Watch where
  world : World
  delivered : Bool
  begun : Bool := false
  early : Bool := false
  deriving DecidableEq, Repr

/-- A signal is handled in the course of the call: it cuts short a call that
blocks, or comes just before an access to the flags. -/
def Syscall.handles : (call : Syscall) → call.Choice → Bool
  | .accept, (result : AcceptResult) => result == .interrupted
  | .recv, (result : RecvResult) => result == .interrupted
  | .send _, (result : SendResult) => result == .interrupted
  | .getAccepting, (signalled : Bool) | .getExecuting, (signalled : Bool)
  | .setAccepting _, (signalled : Bool) | .setExecuting _, (signalled : Bool) => signalled
  | _, _ => false

/-- Whether a byte has been received since the last test of `executing`. -/
def Syscall.begins : (call : Syscall) → call.Answer → Bool → Bool
  | .getExecuting, _, _ => false
  | .recv, (result : RecvResult), begun =>
      match result with
      | .byte _ => true
      | _ => begun
  | _, _, begun => begun

/-- The system on which a signal may come before any call, and on which one has
come whenever a call is interrupted. -/
def signalling : Machine host Watch where
  Choice call := Bool × call.Choice
  exec call choice watch :=
    let signalled := choice.1 || call.handles choice.2
    let performed := call.exec false choice.2 (watch.world.interrupt signalled)
    (performed.1,
      { world := performed.2
        delivered := watch.delivered || signalled
        begun := call.begins performed.1 watch.begun
        early := watch.early || signalled && !watch.delivered && !watch.begun })

/-- Where `let_run` comes to. -/
inductive Watched (machine : Machine host Watch) : LetRun → Watch → Prop
  | start {context : Let} {world : World} {point : LetRun} {watch : Watch}
      (started : machine.Returns (letRunAccepting context) { world, delivered := false } point
        watch) : Watched machine point watch
  | step {point point' : LetRun} {watch watch' : Watch} (before : Watched machine point watch)
      (stepped : machine.Returns (letRunStep point) watch point' watch') :
      Watched machine point' watch'

/-- The request was read and is not yet answered. -/
def LetRun.InHand (request : NetworkRequest) : LetRun → Prop
  | processing _ request' | responding _ request' _ => request' = request
  | accepting _ | reading _ | finished _ => False

/-- No request is taken in hand after a signal was delivered, unless some of it had
been received by then, and nothing but processing the one in hand changes the
accounts or the log. -/
structure Heeds (machine : Machine host Watch) : Prop where
  read : ∀ point watch point' watch', Watched machine point watch →
    machine.Returns (letRunStep point) watch point' watch' →
    watch.delivered = true ∨ watch'.early = true →
    ∀ request, point'.InHand request → point.InHand request
  applied : ∀ point watch point' watch', Watched machine point watch → watch.delivered = true →
    machine.Returns (letRunStep point) watch point' watch' →
    (∀ context request, point ≠ .processing context request) →
    point'.context.state = point.context.state ∧ watch'.world.disk = watch.world.disk

/-! ## The moments that lose a signal -/

/-- A connection is accepted although a signal was delivered since the test of
`accepting`; a signal comes just before `executing` is set; the first byte of a
request is received although one was delivered since the test of `executing`; or a
send is interrupted, or finds the client gone, once a signal was delivered. -/
inductive Lapse
  | accepted
  | stored
  | received
  | unsent
  deriving DecidableEq, Repr

def Lapse.Occurs : Lapse → (call : Syscall) → Watch → call.Answer → Watch → Prop
  | accepted, .accept, _, (result : AcceptResult), after =>
      (∃ handle, result = .handle handle) ∧ after.delivered = true
  | stored, .setExecuting value, before, _, after =>
      value = true ∧ before.delivered = false ∧ after.delivered = true
  | received, .recv, before, (result : RecvResult), after =>
      (∃ byte, result = .byte byte) ∧ before.begun = false ∧ before.delivered = false ∧
        after.delivered = true
  | unsent, .send bytes, _, result, after =>
      Unreported (.send bytes) result ∧ after.delivered = true
  | _, _, _, _, _ => False

/-- The system on which these lapses do not occur. -/
def sparing (spared : Lapse → Prop) : Machine host Watch :=
  allowing fun call before answer after => signalling.Performs call before answer after ∧
    ∀ lapse, spared lapse → ¬lapse.Occurs call before answer after

section Heard

variable {spared : Lapse → Prop} {call : Syscall} {watch watch' : Watch}

/-- Since the signal was delivered both flags are down. -/
def Heard (watch : Watch) : Prop :=
  watch.delivered = true → watch.world.executing = false ∧ watch.world.accepting = false

/-- The call sets no flag. -/
def Syscall.Lowering : Syscall → Prop
  | .setAccepting value | .setExecuting value => value = false
  | _ => True

theorem Syscall.Lowering.exec (hlowering : call.Lowering) (choice : call.Choice) {world : World}
    (hdown : world.executing = false ∧ world.accepting = false) :
    (call.exec false choice world).2.executing = false ∧
      (call.exec false choice world).2.accepting = false := by
  cases call with
  | accept => cases (choice : AcceptResult) <;> exact hdown
  | recv => cases (choice : RecvResult) <;> exact hdown
  | send bytes => cases (choice : SendResult) <;> exact hdown
  | getAccepting | getExecuting =>
      cases (choice : Bool) with
      | false => exact hdown
      | true => exact ⟨rfl, rfl⟩
  | setAccepting value =>
      obtain rfl : value = false := hlowering
      cases (choice : Bool) with
      | false => exact ⟨hdown.1, rfl⟩
      | true => exact ⟨rfl, rfl⟩
  | setExecuting value =>
      obtain rfl : value = false := hlowering
      cases (choice : Bool) with
      | false => exact ⟨rfl, hdown.2⟩
      | true => exact ⟨rfl, rfl⟩
  | _ =>
      simp only [Syscall.exec]
      repeat' split
      all_goals exact hdown

theorem Heard.interrupt (hheard : Heard watch) (signalled : Bool)
    (hdelivered : (watch.delivered || signalled) = true) :
    (watch.world.interrupt signalled).executing = false ∧
      (watch.world.interrupt signalled).accepting = false := by
  cases signalled with
  | false =>
      rw [Bool.or_false] at hdelivered
      exact hheard hdelivered
  | true => exact ⟨rfl, rfl⟩

theorem Heard.performs {answer : call.Answer} (hheard : Heard watch)
    (hperforms : (sparing spared).Performs call watch answer watch') (hlowering : call.Lowering) :
    Heard watch' := by
  obtain ⟨⟨⟨early, choice⟩, hexec⟩, _⟩ := allowed_of_performs hperforms
  obtain ⟨_, rfl⟩ := Prod.mk.inj hexec
  intro hdelivered
  exact hlowering.exec choice (hheard.interrupt _ hdelivered)

/-- Setting `executing` does not undo a signal that has not come. -/
theorem Heard.setExecuting {value : Bool} {answer : Unit} (hheard : Heard watch)
    (hstored : spared .stored) (hundelivered : value = true → watch.delivered = false)
    (hperforms : (sparing spared).Performs (.setExecuting value) watch answer watch') :
    Heard watch' := by
  cases value with
  | false => exact hheard.performs hperforms rfl
  | true =>
      obtain ⟨_, hspares⟩ := allowed_of_performs hperforms
      intro hdelivered
      exact (hspares .stored hstored ⟨rfl, hundelivered rfl, hdelivered⟩).elim

theorem delivered_of_interrupted {bytes : List U8}
    (hperforms : signalling.Performs (.send bytes) watch SendResult.interrupted watch') :
    watch'.delivered = true := by
  obtain ⟨⟨early, choice⟩, hexec⟩ := hperforms
  cases (choice : SendResult) with
  | interrupted =>
      obtain ⟨_, rfl⟩ := Prod.mk.inj hexec
      simp [Syscall.handles]
  | sent count => cases (Prod.mk.inj hexec).1
  | wouldBlock => cases (Prod.mk.inj hexec).1
  | failed => cases (Prod.mk.inj hexec).1

theorem yields_call (call : Syscall) {post : call.Answer → Watch → Prop}
    (hafter : ∀ answer watch', (sparing spared).Performs call watch answer watch' →
      post answer watch') :
    (sparing spared).Yields post (Program.perform (I := host) call) watch :=
  .perform hafter

end Heard

/-! ## Steps that spare the signals -/

section Steps

variable {spared : Lapse → Prop} {context : Let} {request : NetworkRequest}
  {response : NetworkResponse} {watch watch' : Watch}

/-- The loops go on, or they end, and after a signal they do end. -/
structure Proceeded (context : Let) (point : LetRun) (watch : Watch) : Prop where
  idle : point.Idle
  same : point.context = context
  heard : Heard watch
  ended : watch.delivered = true → point = .finished context

theorem letRunAccepting_heard (hheard : Heard watch) :
    (sparing spared).Yields (Proceeded context) (letRunAccepting context) watch := by
  refine .bind (yields_call .getAccepting ?_)
  intro (accepting : Bool) watch' hperforms
  have hheard' : Heard watch' := hheard.performs hperforms trivial
  have haccepting : accepting = watch'.world.accepting := by
    obtain ⟨⟨choice, hexec⟩, _⟩ := allowed_of_performs hperforms
    obtain ⟨rfl, rfl⟩ := Prod.mk.inj hexec
    rfl
  cases haccepts : accepting with
  | false => exact .pure ⟨trivial, rfl, hheard', fun _ => rfl⟩
  | true =>
      refine .pure ⟨trivial, rfl, hheard', fun hdelivered => ?_⟩
      rw [haccepts, (hheard' hdelivered).2] at haccepting
      cases haccepting

theorem letRunExecuting_heard (hheard : Heard watch) :
    (sparing spared).Yields (Proceeded context) (letRunExecuting context) watch := by
  refine .bind (yields_call .getExecuting ?_)
  intro (executing : Bool) watch' hperforms
  have hheard' : Heard watch' := hheard.performs hperforms trivial
  have hexecuting : executing = watch'.world.executing := by
    obtain ⟨⟨choice, hexec⟩, _⟩ := allowed_of_performs hperforms
    obtain ⟨rfl, rfl⟩ := Prod.mk.inj hexec
    rfl
  cases hexecutes : executing with
  | false =>
      refine .bind (yields_call .closeSocket ?_)
      intro _ watch'' hcloses
      exact letRunAccepting_heard (hheard'.performs hcloses trivial)
  | true =>
      refine .pure ⟨trivial, rfl, hheard', fun hdelivered => ?_⟩
      rw [hexecutes, (hheard' hdelivered).1] at hexecuting
      cases hexecuting

/-- With its flag cleared the connection ends as before. -/
theorem letRunClosing_heard (hheard : Heard watch) :
    (sparing spared).Yields (Proceeded context)
      (do Proc.setExecuting false; letRunExecuting context) watch := by
  refine .bind (yields_call (.setExecuting false) ?_)
  intro _ watch' hperforms
  exact letRunExecuting_heard (hheard.performs hperforms rfl)

/-- The invariant at the program points. -/
structure Heeding (point : LetRun) (watch : Watch) : Prop where
  heard : Heard watch
  still : watch.delivered = true → ∀ context, point ≠ .accepting context ∧ point ≠ .reading context

theorem Proceeded.heeding {point : LetRun} (hproceeded : Proceeded context point watch) :
    Heeding point watch where
  heard := hproceeded.heard
  still := by
    intro hdelivered context'
    rw [hproceeded.ended hdelivered]
    exact ⟨(by simp), (by simp)⟩

theorem Proceeded.not_inHand {point : LetRun} (hproceeded : Proceeded context point watch) :
    ¬point.InHand request := by
  have hidle := hproceeded.idle
  intro hinHand
  cases point <;> first | exact hidle.elim | exact hinHand.elim

/-- An error leaves no other request in hand than the one that it is about, and that
one at once. -/
theorem letRunDispatch_heard (hheard : Heard watch) :
    (sparing spared).Yields
      (fun point watch' => Heeding point watch' ∧ ∀ request', point.InHand request' →
        request' = request ∧ watch' = watch ∧ (errorReport context.error).action ∈ [.none, .reject])
      (letRunDispatch context request response) watch := by
  have hproceeds {program : Proc LetRun} {context' : Let} {watch₀ : Watch} {answered : Prop}
      (hyields : (sparing spared).Yields (Proceeded context') program watch₀) :
      (sparing spared).Yields (fun point watch' => Heeding point watch' ∧
        ∀ request', point.InHand request' → request' = request ∧ watch' = watch ∧ answered)
        program watch₀ :=
    hyields.weaken fun point watch' hproceeded =>
      ⟨hproceeded.heeding, fun _ hinHand => (hproceeded.not_inHand hinHand).elim⟩
  unfold letRunDispatch
  cases (errorReport context.error).action with
  | none =>
      exact .pure ⟨⟨hheard, fun _ _ => ⟨(by simp), (by simp)⟩⟩,
        fun _ hinHand => ⟨hinHand.symm, rfl, by simp⟩⟩
  | reject =>
      exact .pure ⟨⟨hheard, fun _ _ => ⟨(by simp), (by simp)⟩⟩,
        fun _ hinHand => ⟨hinHand.symm, rfl, by simp⟩⟩
  | ignore => exact hproceeds (letRunClosing_heard hheard)
  | close => exact hproceeds (letRunClosing_heard hheard)
  | fatal =>
      refine .bind (yields_call (.setExecuting false) ?_)
      intro _ watch₁ hexecuting
      refine .bind (yields_call (.setAccepting false) ?_)
      intro _ watch₂ haccepting
      have hheard₂ := (hheard.performs hexecuting rfl).performs haccepting rfl
      exact hproceeds (letRunExecuting_heard hheard₂)

/-- How writing a response ends, a signal at the wrong moment apart. -/
def Reported (error : Error) (watch : Watch) : Prop :=
  error = .none ∨ (errorReport error).action = .close ∨
    (errorReport error).action = .ignore ∧ watch.delivered = false

theorem networkClientWrite_heard (hunsent : spared .unsent) (hheard : Heard watch) :
    (sparing spared).Yields (fun error watch' => Heard watch' ∧ Reported error watch')
      (networkClientWrite response) watch := by
  rw [networkClientWrite_eq]
  refine .iterate (fun _ => Heard) ?_ hheard
  intro remaining watch hheard
  unfold networkClientWriteRound
  by_cases hempty : remaining = []
  · rw [if_pos hempty]
    exact .pure ⟨hheard, .inl rfl⟩
  rw [if_neg hempty]
  refine .bind (yields_call (.send remaining) ?_)
  intro (result : SendResult) watch' hperforms
  have hheard' : Heard watch' := hheard.performs hperforms trivial
  obtain ⟨hsends, hspares⟩ := allowed_of_performs hperforms
  cases result with
  | wouldBlock => exact .pure ⟨hheard', .inr (.inl rfl)⟩
  | failed => exact .pure ⟨hheard', .inr (.inl rfl)⟩
  | interrupted =>
      exact (hspares .unsent hunsent ⟨.inl rfl, delivered_of_interrupted hsends⟩).elim
  | sent count =>
      dsimp only
      split
      next hzero =>
        subst hzero
        refine .pure ⟨hheard', .inr (.inr ⟨rfl, ?_⟩)⟩
        by_contra hdelivered
        exact hspares .unsent hunsent ⟨.inr ⟨hempty, rfl⟩, by simpa using hdelivered⟩
      next => exact .pure hheard'

theorem letRunResponded_heard (hstored : spared .stored) (hheard : Heard watch)
    (hreported : Reported context.error watch) :
    (sparing spared).Yields (Proceeded context) (letRunResponded context request) watch := by
  have hexecuting (value : Bool) (hvalue : value = true → watch.delivered = false) :
      (sparing spared).Yields (Proceeded context)
        (do Proc.setExecuting value; letRunExecuting context) watch := by
    refine .bind (yields_call (.setExecuting value) ?_)
    intro _ watch' hperforms
    exact letRunExecuting_heard (hheard.setExecuting hstored hvalue hperforms)
  unfold letRunResponded
  dsimp only
  rcases hreported with hnone | hclose | ⟨hignore, hundelivered⟩
  · rw [if_neg (by rw [hnone]; decide)]
    split
    · exact letRunClosing_heard hheard
    · exact letRunExecuting_heard hheard
  · have hexists : errorExists context.error = true := by
      cases herror : context.error <;> first | rfl | (rw [herror] at hclose; cases hclose)
    rw [if_pos hexists, hclose, if_neg (by decide)]
    exact hexecuting _ (by simp)
  · have hexists : errorExists context.error = true := by
      cases herror : context.error <;> first | rfl | (rw [herror] at hignore; cases hignore)
    rw [if_pos hexists, hignore, if_neg (by decide)]
    exact hexecuting _ fun _ => hundelivered

theorem letRunStep_accepting_heard (haccepted : spared .accepted) (hstored : spared .stored)
    (hheard : Heard watch) :
    (sparing spared).Yields (fun point watch' => Heeding point watch' ∧
      ∀ request, ¬point.InHand request) (letRunStep (.accepting context)) watch := by
  refine .bind (.bind (yields_call .accept ?_))
  intro (result : AcceptResult) watch₁ hperforms
  have hheard₁ : Heard watch₁ := hheard.performs hperforms trivial
  obtain ⟨_, hspares⟩ := allowed_of_performs hperforms
  have hfailed (error : Error) (hexists : errorExists error = true) :
      (sparing spared).Yields
        (fun point watch' => Heeding point watch' ∧ ∀ request, ¬point.InHand request)
        (if errorExists error then return .finished { context with error }
        else do
          Proc.setExecuting true
          letRunExecuting { context with error }) watch₁ := by
    rw [if_pos hexists]
    exact .pure ⟨⟨hheard₁, fun _ _ => ⟨(by simp), (by simp)⟩⟩, fun _ => id⟩
  cases result with
  | interrupted => exact .pure (hfailed _ rfl)
  | failed => exact .pure (hfailed _ rfl)
  | handle handle =>
      have hundelivered : watch₁.delivered = false := by
        by_contra hdelivered
        exact hspares .accepted haccepted ⟨⟨handle, rfl⟩, by simpa using hdelivered⟩
      refine .pure ?_
      rw [if_neg (by decide)]
      refine .bind (yields_call (.setExecuting true) ?_)
      intro _ watch₂ hsets
      have hheard₂ := hheard₁.setExecuting hstored (fun _ => hundelivered) hsets
      exact (letRunExecuting_heard hheard₂).weaken fun _ _ hproceeded =>
        ⟨hproceeded.heeding, fun _ => hproceeded.not_inHand⟩

/-- The calls of a step that sets no flag leave a signal heard. -/
theorem Heard.bind {α β : Type} {program : Proc α} {f : α → Proc β} {post : β → Watch → Prop}
    (hheard : Heard watch) (huses : program.Uses Syscall.Lowering)
    (hnext : ∀ value watch', Heard watch' → (sparing spared).Yields post (f value) watch') :
    (sparing spared).Yields post (program >>= f) watch := by
  have hrefl : Std.Refl fun watch watch' : Watch => Heard watch → Heard watch' := ⟨fun _ => id⟩
  have htrans : IsTrans Watch fun watch watch' => Heard watch → Heard watch' :=
    ⟨fun _ _ _ hfirst hsecond => hsecond ∘ hfirst⟩
  have hmoves (call : Syscall) (hlowering : call.Lowering) (watch : Watch) (answer : call.Answer)
      (watch' : Watch) (hperforms : (sparing spared).Performs call watch answer watch')
      (hheard : Heard watch) : Heard watch' :=
    hheard.performs hperforms hlowering
  refine .bind_along hmoves huses ?_
  intro value watch' hkept
  exact hnext value watch' (hkept hheard)

/-- A request of which something was received when the signal came, or none is read. -/
theorem networkClientRead_heard (hreceived : spared .received) (hheard : Heard watch)
    (hearly : watch.early = false) :
    (sparing spared).Yields (fun result watch' => Heard watch' ∧
      (watch'.early = false ∨ (errorReport result.1).action ∈ [.ignore, .close]))
      (networkClientRead request) watch := by
  have hloop : (sparing spared).Yields
      (fun result watch' => Heard watch' ∧ (watch'.early = false ∨
        ∃ error, result = .error error ∧ (errorReport error).action ∈ [.ignore, .close]))
      (Program.iterate networkClientReadRound { readBuffer := [], readByte := 0 }) watch := by
    refine .iterate (fun _ watch => Heard watch ∧ watch.early = false) ?_ ⟨hheard, hearly⟩
    rintro loop watch ⟨hheard, hearly⟩
    unfold networkClientReadRound
    split
    · refine .bind (yields_call .recv ?_)
      intro (result : RecvResult) watch' hperforms
      have hheard' : Heard watch' := hheard.performs hperforms trivial
      cases result with
      | closed | wouldBlock | interrupted | failed =>
          exact .pure ⟨hheard', .inr ⟨_, rfl, by simp [errorReport, errorReportNetwork]⟩⟩
      | byte byte =>
          have hearly' : watch'.early = false := by
            obtain ⟨⟨⟨signalled, choice⟩, hexec⟩, hspares⟩ := allowed_of_performs hperforms
            obtain ⟨_, rfl⟩ := Prod.mk.inj hexec
            refine Bool.eq_false_of_not_eq_true fun hsignalled => ?_
            simp only [hearly, Bool.false_or, Bool.and_eq_true, Bool.not_eq_true'] at hsignalled
            obtain ⟨⟨hsignalled, hdelivered⟩, hbegun⟩ := hsignalled
            exact hspares .received hreceived
              ⟨⟨byte, rfl⟩, hbegun, hdelivered, by simp [hsignalled]⟩
          dsimp only
          split
          · exact .pure ⟨hheard', .inl hearly'⟩
          · exact .pure ⟨hheard', hearly'⟩
    · exact .pure ⟨hheard, .inl hearly⟩
  refine .bind (hloop.weaken ?_)
  rintro (error | loop) watch' ⟨hheard', hearly' | ⟨error', hresult, hclosing⟩⟩
  · exact .pure ⟨hheard', .inl hearly'⟩
  · obtain rfl := Except.error.inj hresult
    exact .pure ⟨hheard', .inr hclosing⟩
  · dsimp only
    split
    · exact .pure ⟨hheard', .inl hearly'⟩
    · exact .pure ⟨hheard', .inl hearly'⟩
  · cases hresult

theorem letRunStep_reading_heard (hreceived : spared .received) (hheard : Heard watch)
    (hearly : watch.early = false) :
    (sparing spared).Yields (fun point watch' => Heeding point watch' ∧
      ∀ request, point.InHand request → watch'.early = false)
      (letRunStep (.reading context)) watch := by
  refine .bind ((networkClientRead_heard hreceived hheard hearly).weaken ?_)
  rintro ⟨error, request⟩ watch' ⟨hheard', hread⟩
  dsimp only at hread ⊢
  split
  · refine (letRunDispatch_heard hheard').weaken ?_
    rintro point watch'' ⟨hheeding, hinHand⟩
    refine ⟨hheeding, fun request' hrequest => ?_⟩
    obtain ⟨_, rfl, hanswered⟩ := hinHand request' hrequest
    rcases hread with hearly' | hclosing
    · exact hearly'
    · revert hanswered hclosing
      dsimp only
      cases (errorReport error).action <;> simp
  next hnone =>
    refine .pure ⟨⟨hheard', fun _ _ => ⟨(by simp), (by simp)⟩⟩, fun _ _ => ?_⟩
    rcases hread with hearly' | hclosing
    · exact hearly'
    · cases error with
      | none => simp [errorReport] at hclosing
      | _ => exact (hnone rfl).elim

theorem letRunStep_processing_heard (hheard : Heard watch) :
    (sparing spared).Yields
      (fun point watch' => Heeding point watch' ∧ ∀ request', point.InHand request' →
        request' = request)
      (letRunStep (.processing context request)) watch := by
  refine hheard.bind ((internal_letRequest _ _ _).mono ?_) ?_
  · intro call hinternal
    cases call <;> trivial
  · rintro ⟨error, context', response'⟩ watch' hheard'
    refine (letRunDispatch_heard hheard').weaken ?_
    rintro point watch'' ⟨hheeding, hinHand⟩
    exact ⟨hheeding, fun request' hrequest => (hinHand request' hrequest).1⟩

theorem letRunStep_responding_heard (hstored : spared .stored) (hunsent : spared .unsent)
    (hheard : Heard watch) :
    (sparing spared).Yields
      (fun point watch' => ∃ error, Proceeded { context with error } point watch')
      (letRunStep (.responding context request response)) watch := by
  refine .bind ((networkClientWrite_heard hunsent hheard).weaken ?_)
  rintro error watch' ⟨hheard', hreported⟩
  refine (letRunResponded_heard hstored hheard' hreported).weaken ?_
  exact fun point watch'' hproceeded => ⟨error, hproceeded⟩

/-- A signal that came early was delivered. -/
theorem delivered_of_early {α : Type} {program : Proc α} {value : α}
    (hreturns : (sparing spared).Returns program watch value watch')
    (hearly : watch.early = true → watch.delivered = true) :
    watch'.early = true → watch'.delivered = true := by
  let relation (watch watch' : Watch) : Prop :=
    (watch.early = true → watch.delivered = true) → watch'.early = true → watch'.delivered = true
  have hrefl : Std.Refl relation := ⟨fun _ => id⟩
  have htrans : IsTrans Watch relation := ⟨fun _ _ _ hfirst hsecond => hsecond ∘ hfirst⟩
  have hmoves (call : Syscall) (_ : True) (watch : Watch) (answer : call.Answer) (watch' : Watch)
      (hperforms : (sparing spared).Performs call watch answer watch') : relation watch watch' := by
    obtain ⟨⟨⟨signalled, choice⟩, hexec⟩, _⟩ := allowed_of_performs hperforms
    obtain ⟨_, rfl⟩ := Prod.mk.inj hexec
    intro hearly hearly'
    simp only [Bool.or_eq_true, Bool.and_eq_true] at hearly' ⊢
    rcases hearly' with hbefore | ⟨⟨hsignalled, _⟩, _⟩
    · exact .inl (hearly hbefore)
    · exact .inr hsignalled
  have hkept : _ ∧ relation _ _ := Reaches.along hmoves hreturns (.any (fun _ => trivial) _)
  exact hkept.2 hearly

theorem Watched.delivered_of_early {point : LetRun}
    (hwatched : Watched (sparing spared) point watch) :
    watch.early = true → watch.delivered = true := by
  induction hwatched with
  | start started => exact LetDB.delivered_of_early started fun hearly => by cases hearly
  | step _ stepped ih => exact LetDB.delivered_of_early stepped ih

/-- Before a request is read no signal has come. -/
theorem Heeding.not_early (hheeding : Heeding (.reading context) watch)
    (hearly : watch.early = true → watch.delivered = true) : watch.early = false :=
  Bool.eq_false_of_not_eq_true fun hsignalled =>
    (hheeding.still (hearly hsignalled) context).2 rfl

theorem Heeding.step {point point' : LetRun} (hspared : ∀ lapse, spared lapse)
    (hheeding : Heeding point watch) (hearly : watch.early = true → watch.delivered = true)
    (hstepped : (sparing spared).Returns (letRunStep point) watch point' watch') :
    Heeding point' watch' := by
  have hheard := hheeding.heard
  cases point with
  | accepting context =>
      exact (letRunStep_accepting_heard (hspared _) (hspared _) hheard _ _ hstepped).1
  | reading context =>
      exact (letRunStep_reading_heard (hspared _) hheard (hheeding.not_early hearly) _ _ hstepped).1
  | processing context request => exact (letRunStep_processing_heard hheard _ _ hstepped).1
  | responding context request response =>
      obtain ⟨error, hproceeded⟩ :=
        letRunStep_responding_heard (hspared _) (hspared _) hheard _ _ hstepped
      exact hproceeded.heeding
  | finished context =>
      obtain ⟨rfl, rfl⟩ := returns_pure.mp hstepped
      exact hheeding

theorem Watched.heeding {point : LetRun} (hspared : ∀ lapse, spared lapse)
    (hwatched : Watched (sparing spared) point watch) : Heeding point watch := by
  induction hwatched with
  | @start context world point watch started =>
      have hheard : Heard { world, delivered := false } := fun hdelivered => by cases hdelivered
      exact (letRunAccepting_heard hheard point watch started).heeding
  | step before stepped ih => exact ih.step hspared before.delivered_of_early stepped

end Steps

/-! ## What is done after a signal -/

section Heeded

variable {spared : Lapse → Prop} {watch watch' : Watch}

/-- The calls of a step that writes a response. -/
def Syscall.Replying : Syscall → Prop
  | .send _ => True
  | call => call.Flagging

theorem Syscall.Replying.disk {call : Syscall} (hreplying : call.Replying) {answer : call.Answer}
    (hperforms : (sparing spared).Performs call watch answer watch') :
    watch'.world.disk = watch.world.disk := by
  obtain ⟨⟨⟨early, choice⟩, hexec⟩, _⟩ := allowed_of_performs hperforms
  obtain ⟨_, rfl⟩ := Prod.mk.inj hexec
  have hexecuted (world : World) : (call.exec false choice world).2.disk = world.disk := by
    by_cases hcloses : call = .closeSocket
    · subst hcloses
      rfl
    · have hdistant : Proc.Distant call := by
        cases call <;> trivial
      exact Proc.exec_disk_of_distant hdistant choice
  exact (hexecuted _).trans (Proc.interrupt_disk _)

theorem letRunStep_responding_disk {context : Let} {request : NetworkRequest}
    {response : NetworkResponse} {point' : LetRun}
    (hstepped : (sparing spared).Returns (letRunStep (.responding context request response)) watch
      point' watch') : watch'.world.disk = watch.world.disk := by
  have hrefl : Std.Refl fun watch watch' : Watch => watch'.world.disk = watch.world.disk :=
    ⟨fun _ => rfl⟩
  have htrans : IsTrans Watch fun watch watch' => watch'.world.disk = watch.world.disk :=
    ⟨fun _ _ _ hfirst hsecond => hsecond.trans hfirst⟩
  have huses : (letRunStep (.responding context request response)).Uses Syscall.Replying := by
    refine .bind (uses_networkClientWrite (fun _ => trivial) _) fun _ => ?_
    refine (flagging_letRunResponded _ _).mono fun call hflagging => ?_
    cases call <;> trivial
  have hmoves (call : Syscall) (hreplying : call.Replying) (watch : Watch) (answer : call.Answer)
      (watch' : Watch) (hperforms : (sparing spared).Performs call watch answer watch') :
      watch'.world.disk = watch.world.disk :=
    hreplying.disk hperforms
  exact (Reaches.along hmoves hstepped huses).2

/-- Where no lapse occurs every signal is heeded. -/
theorem heeds_sparing (hspared : ∀ lapse, spared lapse) : Heeds (sparing spared) where
  read := by
    intro point watch point' watch' hwatched hstepped hsignalled request' hinHand
    have hheeding := hwatched.heeding hspared
    have hheard := hheeding.heard
    cases point with
    | accepting context =>
        have hstep := letRunStep_accepting_heard (hspared _) (hspared _) hheard _ _ hstepped
        exact (hstep.2 request' hinHand).elim
    | reading context =>
        have hearly := hheeding.not_early hwatched.delivered_of_early
        have hstep := letRunStep_reading_heard (hspared _) hheard hearly _ _ hstepped
        rcases hsignalled with hdelivered | hsignalled
        · exact ((hheeding.still hdelivered context).2 rfl).elim
        · cases hsignalled.symm.trans (hstep.2 request' hinHand)
    | processing context request =>
        exact ((letRunStep_processing_heard hheard _ _ hstepped).2 request' hinHand).symm
    | responding context request response =>
        obtain ⟨error, hproceeded⟩ :=
          letRunStep_responding_heard (hspared _) (hspared _) hheard _ _ hstepped
        exact (hproceeded.not_inHand hinHand).elim
    | finished context =>
        obtain ⟨rfl, rfl⟩ := returns_pure.mp hstepped
        exact hinHand
  applied := by
    intro point watch point' watch' hwatched hdelivered hstepped hpassing
    obtain ⟨hheard, hstill⟩ := hwatched.heeding hspared
    cases point with
    | accepting context => exact ((hstill hdelivered context).1 rfl).elim
    | reading context => exact ((hstill hdelivered context).2 rfl).elim
    | processing context request => exact (hpassing context request rfl).elim
    | responding context request response =>
        obtain ⟨error, hproceeded⟩ :=
          letRunStep_responding_heard (hspared _) (hspared _) hheard _ _ hstepped
        refine ⟨?_, letRunStep_responding_disk hstepped⟩
        rw [hproceeded.same]
        rfl
    | finished context =>
        obtain ⟨rfl, rfl⟩ := returns_pure.mp hstepped
        exact ⟨rfl, rfl⟩

/-! ## Runs in which a signal is lost -/

/-- Two accounts are to be opened. -/
def openingInput : List U8 :=
  "+0 0 10 1\n+1 5 20 2\n".toList.map fun letter => BitVec.ofNat 8 letter.toNat

/-- An environment in which a client sends this input and no lapse occurs but this
one, if any. -/
def lapsing (lapse : Option Lapse) (input : List U8) :
    (call : Syscall) → Watch → Bool × call.Choice
  | .accept, watch => (lapse = some .accepted,
      if lapse ≠ some .accepted ∧ watch.delivered = true then AcceptResult.failed
      else AcceptResult.handle 4)
  | .setExecuting _, _ => (lapse = some .stored, false)
  | .recv, watch => (lapse = some .received, obliging input .recv watch.world)
  | .send bytes, _ => (false,
      if lapse = some .unsent then SendResult.interrupted else SendResult.sent bytes.length)
  | call, watch => (false, obliging input call watch.world)

theorem not_occurs_lapsing {lapse : Option Lapse} {lapse' : Lapse} (hother : lapse ≠ some lapse')
    (input : List U8) (call : Syscall) (watch : Watch) :
    ¬lapse'.Occurs call watch (signalling.exec call (lapsing lapse input call watch) watch).1
      (signalling.exec call (lapsing lapse input call watch) watch).2 := by
  intro hoccurs
  cases lapse' with
  | accepted =>
      cases call with
      | accept =>
          obtain ⟨⟨handle, hhandle⟩, hdelivered⟩ := hoccurs
          cases hbefore : watch.delivered with
          | true => simp [signalling, lapsing, hother, hbefore, Syscall.exec] at hhandle
          | false =>
              simp [signalling, lapsing, hother, hbefore, Syscall.handles] at hdelivered
      | _ => exact hoccurs
  | stored =>
      cases call with
      | setExecuting value =>
          obtain ⟨_, hbefore, hdelivered⟩ := hoccurs
          simp [signalling, lapsing, hother, hbefore, Syscall.handles] at hdelivered
      | _ => exact hoccurs
  | received =>
      cases call with
      | recv =>
          obtain ⟨_, _, hbefore, hdelivered⟩ := hoccurs
          simp only [signalling, lapsing, hother, hbefore, Syscall.handles, obliging] at hdelivered
          split at hdelivered <;> simp at hdelivered
      | _ => exact hoccurs
  | unsent =>
      cases call with
      | send bytes =>
          obtain ⟨hinterrupted | ⟨hbytes, hsent⟩, _⟩ := hoccurs
          · simp [signalling, lapsing, hother, Syscall.exec] at hinterrupted
          · simp [signalling, lapsing, hother, Syscall.exec] at hsent
            exact hbytes hsent
      | _ => exact hoccurs

/-- The signalling system in this environment. -/
def Lapse.system (lapse : Lapse) : Machine host Watch :=
  signalling.under (lapsing (some lapse) openingInput)

theorem Lapse.performs {lapse : Lapse} (hlapses : ¬spared lapse) {call : Syscall}
    {answer : call.Answer} (hperforms : lapse.system.Performs call watch answer watch') :
    (sparing spared).Performs call watch answer watch' := by
  obtain ⟨_, hexec⟩ := hperforms
  refine performs_allowing ?_ ⟨⟨_, hexec⟩, ?_⟩
  · intro watch
    exact ⟨_, _, ⟨lapsing none [] call watch, rfl⟩,
      fun _ _ => not_occurs_lapsing (by simp) [] call watch⟩
  · intro lapse' hspared
    have hother : some lapse ≠ some lapse' := by
      rintro hsame
      exact hlapses (Option.some.inj hsame ▸ hspared)
    obtain ⟨rfl, rfl⟩ := Prod.mk.inj hexec
    exact not_occurs_lapsing hother openingInput call watch

theorem Watched.mono {machine machine' : Machine host Watch} {point : LetRun}
    (hperforms : ∀ call watch answer watch', machine.Performs call watch answer watch' →
      machine'.Performs call watch answer watch')
    (hwatched : Watched machine point watch) : Watched machine' point watch := by
  induction hwatched with
  | start started => exact .start (started.mono hperforms)
  | step _ stepped ih => exact ih.step (stepped.mono hperforms)

/-- Where the server on a new file comes to in this environment. -/
def Lapse.served (lapse : Lapse) : Nat → Option (LetRun × Watch)
  | 0 => lapse.system.run (fun _ _ => ()) 100 (letRunAccepting freshContext)
      { world := freshWorld, delivered := false }
  | steps + 1 => (lapse.served steps).bind fun (point, watch) =>
      lapse.system.run (fun _ _ => ()) 10000 (letRunStep point) watch

theorem Lapse.watched {lapse : Lapse} {steps : Nat} {point : LetRun}
    (hserved : lapse.served steps = some (point, watch)) : Watched lapse.system point watch := by
  induction steps generalizing point watch with
  | zero => exact .start (returns_of_run hserved)
  | succ steps ih =>
      obtain ⟨⟨point₀, watch₀⟩, hbefore, hrun⟩ := Option.bind_eq_some_iff.mp hserved
      exact (ih hbefore).step (returns_of_run hrun)

/-- The server is about to read, and the next step reads a request although a
signal was delivered before there was any of it. -/
def readsOn : Option (LetRun × Watch) → Option (LetRun × Watch) → Bool
  | some (.reading _, watch), some (.processing .., watch') => watch.delivered || watch'.early
  | _, _ => false

/-- The steps after which that is so: the first request is served before a send
can be interrupted. -/
def Lapse.steps : Lapse → Nat
  | accepted | stored | received => 1
  | unsent => 4

theorem Lapse.loses (lapse : Lapse) :
    readsOn (lapse.served lapse.steps) (lapse.served (lapse.steps + 1)) = true := by
  cases lapse <;> decide +kernel

/-- Each lapse alone loses a signal. -/
theorem not_heeds_of_lapse {machine : Machine host Watch} (lapse : Lapse)
    (hperforms : ∀ call watch answer watch', lapse.system.Performs call watch answer watch' →
      machine.Performs call watch answer watch') : ¬Heeds machine := by
  intro hheeds
  have hreadsOn := lapse.loses
  cases hbefore : lapse.served lapse.steps with
  | none => simp [hbefore, readsOn] at hreadsOn
  | some before =>
      obtain ⟨point, watch⟩ := before
      cases hafter : lapse.served (lapse.steps + 1) with
      | none => simp [hbefore, hafter, readsOn] at hreadsOn
      | some after =>
          obtain ⟨point', watch'⟩ := after
          rw [hbefore, hafter] at hreadsOn
          have hwatched := (Lapse.watched hbefore).mono hperforms
          have hstepped := hafter
          rw [Lapse.served, hbefore] at hstepped
          cases point with
          | reading context =>
              cases point' with
              | processing context' request =>
                  exact hheeds.read _ _ _ _ hwatched ((returns_of_run hstepped).mono hperforms)
                    ((Bool.or_eq_true _ _).mp hreadsOn) request rfl
              | _ => cases hreadsOn
          | _ => cases hreadsOn

/-- Signals are heeded exactly where no lapse occurs. -/
theorem shutdown_heeded_iff : Heeds (sparing spared) ↔ ∀ lapse, spared lapse := by
  constructor
  · intro hheeds lapse
    by_contra hlapses
    exact not_heeds_of_lapse lapse (fun _ _ _ _ => Lapse.performs hlapses) hheeds
  · exact heeds_sparing

/-- A client that connects as the signal comes is served. -/
theorem shutdown_lost : ¬Heeds signalling := by
  refine not_heeds_of_lapse .accepted ?_
  rintro call watch answer watch' ⟨_, hexec⟩
  exact ⟨_, hexec⟩

end Heeded

end LetDX.LetDB
