import LetDX.LetDB.Server.Request

/-! # Steps of the main loops

Between requests the loops change only flags and the bytes on the connection. A
processed request leads to a response or, after a fatal error, to the end of
the loops.
-/

namespace LetDX.LetDB

open Durable Effects

def LetRun.context : LetRun → Let
  | accepting context | reading context | processing context _ | responding context _ _
  | finished context => context

/-- The loops are between two requests, or over. -/
def LetRun.Idle : LetRun → Prop
  | accepting _ | reading _ | finished _ => True
  | processing .. | responding .. => False

/-- The connection is over. -/
def LetRun.Ended : LetRun → Prop
  | accepting _ | finished _ => True
  | reading _ | processing .. | responding .. => False

/-- The bytes still to be sent. -/
def LetRun.reply : LetRun → List U8
  | responding _ _ response => response.bytes
  | accepting _ | reading _ | processing .. | finished _ => []

theorem LetRun.Ended.idle {point : LetRun} (hended : point.Ended) : point.Idle := by
  cases point <;> trivial

/-- Nothing but the flags may differ. -/
structure Reflagged (world world' : World) : Prop where
  disk : world'.disk = world.disk
  received : world'.received = world.received
  sent : world'.sent = world.sent

theorem Reflagged.trans {world world' world'' : World} (hfirst : Reflagged world world')
    (hsecond : Reflagged world' world'') : Reflagged world world'' :=
  ⟨hsecond.disk.trans hfirst.disk, hsecond.received.trans hfirst.received,
    hsecond.sent.trans hfirst.sent⟩

theorem reflagged_interrupt (world : World) (signalled : Bool) :
    Reflagged world (world.interrupt signalled) :=
  ⟨Proc.interrupt_disk _, Proc.interrupt_received _, Proc.interrupt_sent _⟩

section Rules

variable {reliable : Bool} {during : Disk → Prop} {world : World} {context : Let}
  {request : NetworkRequest} {response : NetworkResponse} {post : LetRun → World → Prop}

theorem letRunAccepting_spec (hduring : during world.disk)
    (hended : ∀ point world', point.Ended → point.context = context →
      Reflagged world world' → post point world') :
    Meets reliable during post (letRunAccepting context) world := by
  refine .bind (Proc.getAccepting_spec hduring ?_)
  intro signalled
  have hflags := reflagged_interrupt world signalled
  cases (world.interrupt signalled).accepting with
  | true => exact .pure (hflags.disk ▸ hduring) (hended _ _ trivial rfl hflags)
  | false => exact .pure (hflags.disk ▸ hduring) (hended _ _ trivial rfl hflags)

theorem letRunExecuting_spec (hduring : during world.disk)
    (hreading : ∀ world', world.executing = true → Reflagged world world' →
      post (.reading context) world')
    (hended : ∀ point world', point.Ended → point.context = context →
      Reflagged world world' → post point world') :
    Meets reliable during post (letRunExecuting context) world := by
  refine .bind (Proc.getExecuting_spec hduring ?_)
  intro signalled
  have hflags := reflagged_interrupt world signalled
  have hduring' : during (world.interrupt signalled).disk := hflags.disk ▸ hduring
  cases hexecuting : (world.interrupt signalled).executing with
  | true =>
      refine .pure hduring' (hreading _ ?_ hflags)
      cases signalled with
      | false => exact hexecuting
      | true => nomatch hexecuting
  | false =>
      refine .bind (Proc.closeSocket_spec hduring' ?_)
      apply letRunAccepting_spec hduring'
      intro point world' hpoint hcontext hflags'
      exact hended point world' hpoint hcontext (hflags.trans hflags')

theorem setExecuting_flags_spec {value : Bool} {post : Unit → World → Prop}
    (hduring : during world.disk)
    (hpost : ∀ world', Reflagged world world' → world'.executing = value → post () world') :
    Meets reliable during post (Proc.setExecuting value) world := by
  refine Proc.setExecuting_spec hduring ?_
  intro signalled
  have hflags := reflagged_interrupt world signalled
  exact hpost _ ⟨hflags.disk, hflags.received, hflags.sent⟩ rfl

theorem setAccepting_flags_spec {value : Bool} {post : Unit → World → Prop}
    (hduring : during world.disk)
    (hpost : ∀ world', Reflagged world world' → world'.accepting = value →
      (world.executing = false → world'.executing = false) → post () world') :
    Meets reliable during post (Proc.setAccepting value) world := by
  refine Proc.setAccepting_spec hduring ?_
  intro signalled
  have hflags := reflagged_interrupt world signalled
  refine hpost _ ⟨hflags.disk, hflags.received, hflags.sent⟩ rfl ?_
  intro hexecuting
  cases signalled with
  | false => exact hexecuting
  | true => rfl

/-- With its flag cleared the connection ends. -/
theorem letRunClosing_spec (hduring : during world.disk)
    (hended : ∀ point world', point.Ended → point.context = context →
      Reflagged world world' → post point world') :
    Meets reliable during post (do Proc.setExecuting false; letRunExecuting context) world := by
  refine .bind (setExecuting_flags_spec hduring ?_)
  intro world₁ hflags₁ hcleared
  apply letRunExecuting_spec (hflags₁.disk ▸ hduring)
  · intro _ hexecuting
    rw [hcleared] at hexecuting
    nomatch hexecuting
  · intro point world₂ hpoint hcontext hflags₂
    exact hended point world₂ hpoint hcontext (hflags₁.trans hflags₂)

/-- Both flags are cleared, and nothing else has changed. -/
structure Stopped (start world : World) : Prop extends Reflagged start world where
  executing : world.executing = false
  accepting : world.accepting = false

theorem Stopped.interrupt {start : World} (hstopped : Stopped start world) (signalled : Bool) :
    Stopped start (world.interrupt signalled) := by
  cases signalled with
  | false => exact hstopped
  | true => exact ⟨⟨hstopped.disk, hstopped.received, hstopped.sent⟩, rfl, rfl⟩

/-- With both flags cleared the loops are over. -/
theorem letRunExecuting_stopped {start : World} (hstopped : Stopped start world)
    (hduring : during start.disk)
    (hpost : ∀ world', Reflagged start world' → post (.finished context) world') :
    Meets reliable during post (letRunExecuting context) world := by
  have hinstant {world : World} (hstopped : Stopped start world) : during world.disk :=
    hstopped.disk ▸ hduring
  refine .bind (Proc.getExecuting_spec (hinstant hstopped) fun first => ?_)
  have hfirst := hstopped.interrupt first
  rw [hfirst.executing]
  refine .bind (Proc.closeSocket_spec (hinstant hfirst) ?_)
  refine .bind (Proc.getAccepting_spec (hinstant hfirst) fun second => ?_)
  have hsecond := hfirst.interrupt second
  rw [hsecond.accepting]
  exact .pure (hinstant hsecond) (hpost _ hsecond.toReflagged)

/-- A fatal error clears both flags, so the loops are over. -/
theorem letRunDispatch_fatal (hduring : during world.disk)
    (hfatal : (errorReport context.error).action = .fatal)
    (hpost : ∀ world', Reflagged world world' → post (.finished context) world') :
    Meets reliable during post (letRunDispatch context request response) world := by
  unfold letRunDispatch
  rw [hfatal]
  refine .bind (setExecuting_flags_spec hduring fun world₁ hflags₁ hexecuting => ?_)
  refine .bind (setAccepting_flags_spec (hflags₁.disk ▸ hduring)
    fun world₂ hflags₂ haccepting hkept => ?_)
  exact letRunExecuting_stopped ⟨hflags₁.trans hflags₂, hkept hexecuting, haccepting⟩
    hduring hpost

/-- An error that is neither fatal nor answered ends the connection. -/
theorem letRunDispatch_spec (hduring : during world.disk)
    (hresponding : (errorReport context.error).action = .none →
      post (.responding context request response) world)
    (hrejected : (errorReport context.error).action = .reject →
      post (.responding { context with error := .none } request (.error context.error)) world)
    (hended : ∀ point error world', point.Ended → point.context = { context with error } →
      Reflagged world world' → post point world') :
    Meets reliable during post (letRunDispatch context request response) world := by
  cases haction : (errorReport context.error).action with
  | fatal =>
      apply letRunDispatch_fatal hduring haction
      intro world' hflags
      exact hended _ context.error world' trivial rfl hflags
  | none =>
      unfold letRunDispatch
      rw [haction]
      exact .pure hduring (hresponding haction)
  | reject =>
      unfold letRunDispatch
      rw [haction]
      exact .pure hduring (hrejected haction)
  | ignore =>
      unfold letRunDispatch
      rw [haction]
      exact letRunClosing_spec hduring fun point world' => hended point .none world'
  | close =>
      unfold letRunDispatch
      rw [haction]
      exact letRunClosing_spec hduring fun point world' => hended point context.error world'

theorem letRunResponded_spec (hduring : during world.disk)
    (hreading : ∀ world', Reflagged world world' → post (.reading context) world')
    (hended : ∀ point world', point.Ended → point.context = context →
      Reflagged world world' → post point world') :
    Meets reliable during post (letRunResponded context request) world := by
  have hfollowing (world₁ : World) (hflags₁ : Reflagged world world₁) :
      Meets reliable during post (letRunExecuting context) world₁ := by
    apply letRunExecuting_spec (hflags₁.disk ▸ hduring)
    · intro world₂ _ hflags₂
      exact hreading world₂ (hflags₁.trans hflags₂)
    · intro point world₂ hpoint hcontext hflags₂
      exact hended point world₂ hpoint hcontext (hflags₁.trans hflags₂)
  have hexecuting (value : Bool) (world₁ : World) (hflags₁ : Reflagged world world₁) :
      Meets reliable during post (do Proc.setExecuting value; letRunExecuting context) world₁ := by
    refine .bind (setExecuting_flags_spec (hflags₁.disk ▸ hduring) ?_)
    intro world₂ hflags₂ _
    exact hfollowing world₂ (hflags₁.trans hflags₂)
  unfold letRunResponded
  dsimp only
  split
  · split
    · refine .bind (setAccepting_flags_spec hduring ?_)
      intro world₁ hflags₁ _ _
      exact hexecuting _ world₁ hflags₁
    · exact hexecuting _ world ⟨rfl, rfl, rfl⟩
  · split
    · exact hexecuting _ world ⟨rfl, rfl, rfl⟩
    · exact hfollowing world ⟨rfl, rfl, rfl⟩

/-- What a step comes to that processes no request, with the bytes that pass on
the connection. -/
inductive Talked : LetRun → World → LetRun → World → Prop
  | ended {point point' : LetRun} {error : Error} {world world' : World} (ended : point'.Ended)
      (context : point'.context = { point.context with error })
      (disk : world'.disk = world.disk)
      (sent : (∀ context, point ≠ .accepting context) →
        ∃ chunk, chunk <+: point.reply ∧ world'.sent = world.sent ++ chunk) :
      Talked point world point' world'
  | accepted {context : Let} {error : Error} {world world' : World}
      (disk : world'.disk = world.disk) (received : world'.received = [])
      (sent : world'.sent = []) :
      Talked (.accepting context) world (.reading { context with error }) world'
  | decoded {context : Let} {line : List U8} {request : NetworkRequest} {world world' : World}
      (newline : asciiNewline ∉ line)
      (decodes : networkRequestDecode (line ++ [asciiSpace]) networkRequestEmpty =
        (.none, request))
      (disk : world'.disk = world.disk)
      (received : world'.received = world.received ++ line ++ [asciiNewline])
      (sent : world'.sent = world.sent) :
      Talked (.reading context) world (.processing { context with error := .none } request) world'
  | undecoded {context : Let} {line : List U8} {error : Error} {request : NetworkRequest}
      {world world' : World} (newline : asciiNewline ∉ line)
      (decodes : networkRequestDecode (line ++ [asciiSpace]) networkRequestEmpty =
        (error, request)) (exist : errorExists error) (disk : world'.disk = world.disk)
      (received : world'.received = world.received ++ line ++ [asciiNewline])
      (sent : world'.sent = world.sent) :
      Talked (.reading context) world
        (.responding { context with error := .none } request (.error error)) world'
  | responded {context : Let} {request : NetworkRequest} {response : NetworkResponse}
      {chunk : List U8} {error : Error} {world world' : World} (within : chunk <+: response.bytes)
      (disk : world'.disk = world.disk) (received : world'.received = world.received)
      (sent : world'.sent = world.sent ++ chunk) :
      Talked (.responding context request response) world (.reading { context with error }) world'

theorem letRunStep_talking_spec {point : LetRun} (hduring : during world.disk)
    (hpassing : ∀ context request, point ≠ .processing context request) :
    Meets reliable during (Talked point world) (letRunStep point) world := by
  cases point with
  | finished context =>
      exact .pure hduring (.ended trivial rfl rfl fun _ => ⟨[], List.nil_prefix, by simp⟩)
  | processing context request => exact (hpassing _ _ rfl).elim
  | accepting context =>
      have hended {point' : LetRun} {error : Error} {world' : World} (hpoint : point'.Ended)
          (hcontext : point'.context = { context with error }) (hdisk : world'.disk = world.disk) :
          Talked (.accepting context) world point' world' :=
        .ended hpoint hcontext hdisk fun hno => (hno context rfl).elim
      refine .bind (networkServerAccept_spec hduring ?_ ?_)
      · rw [if_neg (by decide)]
        refine .bind (setExecuting_flags_spec hduring ?_)
        intro world₁ hflags₁ _
        apply letRunExecuting_spec (hflags₁.disk ▸ hduring)
        · intro world₂ _ hflags₂
          have hflags := hflags₁.trans hflags₂
          exact .accepted hflags.disk hflags.received hflags.sent
        · intro point world₂ hpoint hcontext hflags₂
          exact hended hpoint hcontext (hflags₁.trans hflags₂).disk
      · intro error hexists
        rw [if_pos hexists]
        exact .pure hduring (hended trivial rfl rfl)
  | reading context =>
      have hended (error : Error) (world₁ : World) (hdisk₁ : world₁.disk = world.disk)
          (hsent₁ : world₁.sent = world.sent) (point' : LetRun) (error' : Error) (world₂ : World)
          (hpoint : point'.Ended) (hcontext : point'.context = { context with error := error' })
          (hflags : Reflagged world₁ world₂) : Talked (.reading context) world point' world₂ := by
        refine .ended hpoint hcontext (hflags.disk.trans hdisk₁) fun _ => ⟨[], List.nil_prefix, ?_⟩
        rw [List.append_nil, hflags.sent, hsent₁]
      refine .bind (networkClientRead_spec hduring ?_ ?_)
      · intro line hnewline
        cases hdecodes : networkRequestDecode (line ++ [asciiSpace]) networkRequestEmpty with
        | mk error request =>
            dsimp only
            split
            next hexists =>
              apply letRunDispatch_spec
              · exact hduring
              · intro haction
                obtain rfl := (errorReport_action_eq_none_iff error).mp haction
                cases hexists
              · intro _
                exact .undecoded hnewline hdecodes hexists rfl rfl rfl
              · exact hended error _ rfl rfl
            next hnone =>
              obtain rfl : error = .none := by simpa [errorExists] using hnone
              exact .pure hduring (.decoded hnewline hdecodes rfl rfl rfl)
      -- All errors of reading are ignored or close the connection; none is answered.
      · intro error line _ haction
        have hexists : errorExists error := by
          rcases haction with haction | haction <;> cases error <;> first | rfl | cases haction
        dsimp only
        rw [if_pos hexists]
        apply letRunDispatch_spec
        · exact hduring
        · intro hnone
          rcases haction with haction | haction <;> cases haction.symm.trans hnone
        · intro hreject
          rcases haction with haction | haction <;> cases haction.symm.trans hreject
        · exact hended error _ rfl rfl
  | responding context request response =>
      refine .bind (networkClientWrite_spec hduring ?_)
      intro error chunk hchunk _
      apply letRunResponded_spec
      · exact hduring
      · intro world₁ hflags₁
        exact .responded hchunk hflags₁.disk hflags₁.received hflags₁.sent
      · intro point' world₁ hpoint hcontext hflags₁
        exact .ended hpoint hcontext hflags₁.disk fun _ => ⟨chunk, hchunk, hflags₁.sent⟩

/-- The same without the bytes on the connection: the loops go on or end, or a
request has been read, or an error is to be answered. -/
inductive Passed (point : LetRun) (world : World) : LetRun → World → Prop
  | idle {point' : LetRun} {error : Error} {world' : World} (idle : point'.Idle)
      (context : point'.context = { point.context with error })
      (disk : world'.disk = world.disk) : Passed point world point' world'
  | decoded {error : Error} {request : NetworkRequest} {world' : World}
      (disk : world'.disk = world.disk) :
      Passed point world (.processing { point.context with error } request) world'
  | undecoded {error error' : Error} {request : NetworkRequest} {world' : World}
      (disk : world'.disk = world.disk) :
      Passed point world (.responding { point.context with error } request (.error error')) world'

theorem Talked.passed {point point' : LetRun} {world world' : World}
    (htalked : Talked point world point' world') : Passed point world point' world' := by
  cases htalked with
  | ended ended context disk _ => exact .idle ended.idle context disk
  | accepted disk => exact .idle trivial rfl disk
  | decoded _ _ disk => exact .decoded disk
  | undecoded _ _ _ disk => exact .undecoded disk
  | responded _ disk => exact .idle trivial rfl disk

theorem letRunStep_passing_spec {point : LetRun} (hduring : during world.disk)
    (hpassing : ∀ context request, point ≠ .processing context request) :
    Meets reliable during (Passed point world) (letRunStep point) world :=
  (letRunStep_talking_spec hduring hpassing).weaken fun _ _ => Talked.passed

/-- What processing a request comes to. -/
inductive Processed (entries : List StorageWalEntry) (context : Let) (request : NetworkRequest)
    (world : World) : LetRun → World → Prop
  | committed {entry : StorageWalEntry} {now : Time} {context' : Let}
      (requested : Requested entries request entry)
      (limit : (storageWalImage (entries ++ [entry])).length ≤ Disk.offsetMax)
      (accounts : context'.state.accountList.accounts =
        entry.data.apply entry.timestamp now context.state.accountList.accounts)
      (transactions : context'.storageWal.transactions = context.storageWal.transactions + 1) :
      Processed entries context request world
        (.responding context' request (entry.data.reply context.state.accountList.length))
        { world with disk := syncedDisk (entries ++ [entry]) }
  | answered {response : NetworkResponse} (inquiry : request.inquiry context = some response) :
      Processed entries context request world
        (.responding { context with error := .none } request response) world
  | refused {error : Error} (action : (errorReport error).action = .reject) :
      Processed entries context request world
        (.responding { context with error := .none } request (.error error)) world
  | fatal {context' : Let} {world' : World}
      (action : (errorReport context'.error).action = .fatal)
      (accounts : context'.state.accountList.accounts = context.state.accountList.accounts)
      (appending : world'.disk = world.disk ∨
        Appending entries request world.disk.synced world'.disk)
      (sent : world'.sent = world.sent) :
      Processed entries context request world (.finished context') world'

theorem letRunStep_processing_spec {entries : List StorageWalEntry}
    (hagrees : Agrees entries context world.disk)
    (hduring : ∀ disk, disk = world.disk ∨ Appending entries request world.disk.synced disk →
      during disk) :
    Meets reliable during (Processed entries context request world)
      (letRunStep (.processing context request)) world := by
  refine .bind ((letRequest_spec hagrees hduring).during_post.weaken ?_)
  rintro ⟨error, context', response⟩ world' ⟨hinstant, houtcome⟩
  cases houtcome with
  | committed requested limit accounts transactions =>
      exact .pure hinstant (.committed requested limit accounts transactions)
  | answered inquiry => exact .pure hinstant (.answered inquiry)
  | refused action =>
      unfold letRunDispatch
      dsimp only
      rw [action]
      exact .pure hinstant (.refused action)
  | fatal action accounts appending =>
      refine letRunDispatch_fatal hinstant action ?_
      intro world'' hflags
      exact .fatal action accounts (hflags.disk ▸ appending) hflags.sent

end Rules

/-! ## Steps that were taken -/

section Steps

variable {point point' : LetRun} {world world' : World}

/-- A step processes a request, or it passes one by. -/
theorem LetRun.passing_or_processing (point : LetRun) :
    (∀ context request, point ≠ .processing context request) ∨
      ∃ context request, point = .processing context request := by
  cases point <;> simp

theorem talked_of_returns (hpassing : ∀ context request, point ≠ .processing context request)
    (hstepped : (system false).Returns (letRunStep point) world point' world') :
    Talked point world point' world' := by
  have hmeets : Meets false (fun _ => True) (Talked point world) (letRunStep point) world :=
    letRunStep_talking_spec trivial hpassing
  exact hmeets.returns hstepped

theorem passed_of_returns (hpassing : ∀ context request, point ≠ .processing context request)
    (hstepped : (system false).Returns (letRunStep point) world point' world') :
    Passed point world point' world' :=
  (talked_of_returns hpassing hstepped).passed

theorem processed_of_returns {entries : List StorageWalEntry} {context : Let}
    {request : NetworkRequest} (hagrees : Agrees entries context world.disk)
    (hstepped : (system false).Returns (letRunStep (.processing context request)) world point'
      world') :
    Processed entries context request world point' world' := by
  have hmeets : Meets false (fun _ => True) (Processed entries context request world)
      (letRunStep (.processing context request)) world :=
    letRunStep_processing_spec hagrees fun _ _ => trivial
  exact hmeets.returns hstepped

end Steps

end LetDX.LetDB
