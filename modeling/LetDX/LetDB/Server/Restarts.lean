import LetDX.LetDB.Server.Agreement

/-! # Restarts of a server on its own file

A server that has stopped without losing track of its file is started on it
again. The log then consists of the requests that were answered with success, in
the order in which they were answered.
-/

namespace LetDX.LetDB

open Bytes Durable Effects

namespace Error

/-- A storage error, or one of the clock. -/
def isStorageOrTime : Error → Bool
  | storage _ | state .invalidTime => true
  | none | account _ | state .invalidAccountList | guard _ | network _ | cli _ => false

end Error

/-- The mutating requests answered with success, once this point has been reached. -/
def answered (requests : List NetworkRequest) : LetRun → List NetworkRequest
  | .responding _ request response =>
      if request.operation.isSome ∧ response.succeeds then requests ++ [request] else requests
  | .accepting _ | .reading _ | .processing .. | .finished _ => requests

/-- The server on a file that did not exist at first, with the requests answered
so far, how many they were each time that its loops ran out of memory, where it is
unless it is stopped, and the world. It is started again after any error that is
harmless. -/
inductive Restarts (harmless : Error → Prop) :
    List NetworkRequest → List Nat → Option LetRun → World → Prop
  | absent {disk : Disk} (absent : disk.file = none) : Restarts harmless [] [] none { disk }
  | starts {requests : List NetworkRequest} {exhausted : List Nat} {world world' : World}
      {cli : Cli} {point : LetRun} (stopped : Restarts harmless requests exhausted none world)
      (started : (system false).Returns (letStart cli) { disk := world.disk } (.ok point) world') :
      Restarts harmless requests exhausted (some point) world'
  | fails {requests : List NetworkRequest} {exhausted : List Nat} {world world' : World} {cli : Cli}
      {error : Error} (stopped : Restarts harmless requests exhausted none world)
      (failed : (system false).Returns (letStart cli) { disk := world.disk } (.error error) world')
      (spared : harmless error) : Restarts harmless requests exhausted none world'
  | step {requests : List NetworkRequest} {exhausted : List Nat} {point point' : LetRun}
      {world world' : World} (running : Restarts harmless requests exhausted (some point) world)
      (stepped : (system false).Returns (letRunStep point) world point' world') :
      Restarts harmless (answered requests point') exhausted (some point') world'
  | stops {requests : List NetworkRequest} {exhausted : List Nat} {context : Let} {world : World}
      (finished : Restarts harmless requests exhausted (some (.finished context)) world)
      (spared : harmless context.error) :
      Restarts harmless requests
        (exhausted ++ if context.error = .account .outOfMemory then [requests.length] else [])
        none world

/-! ## Requests that are not answered -/

/-- What has come of a request before it is answered: an error that is answered,
one of storage or of the clock, or the refusal of the memory for an account
whose entry is in the log. -/
inductive Left (entries : List StorageWalEntry) (request : NetworkRequest) : Error → Disk → Prop
  | answered {error : Error} {disk : Disk}
      (action : (errorReport error).action = .none ∨ (errorReport error).action = .reject) :
      Left entries request error disk
  | spoiled {error : Error} {disk : Disk} (spoiled : error.isStorageOrTime = true) :
      Left entries request error disk
  | logged {entry : StorageWalEntry} {disk : Disk} (requested : Requested entries request entry)
      (limit : (storageWalImage (entries ++ [entry])).length ≤ Disk.offsetMax)
      (synced : disk = syncedDisk (entries ++ [entry])) :
      Left entries request (.account .outOfMemory) disk

theorem action_of_isStorageOrTime {error : Error} (hspoiled : error.isStorageOrTime = true) :
    (errorReport error).action = .reject ∨ (errorReport error).action = .fatal := by
  cases error with
  | storage error => cases error <;> simp [errorReport, errorReportStorage]
  | state error => cases error <;> simp [errorReport, errorReportState]
  | none | account | guard | network | cli => cases hspoiled

section Errors

variable {entries : List StorageWalEntry} {context : Let} {request : NetworkRequest}
  {response : NetworkResponse} {world : World} {during : Disk → Prop} {timeNow : Time}

/-- Once the entry is in the log, only the clock and the allocator may fail. -/
theorem letRequestLogged_left {entry : StorageWalEntry}
    {mutate : State → Proc (Error × State × NetworkResponse)} (hduring : ∀ disk, during disk)
    (hagrees : Agrees entries context world.disk)
    (hoperation : request.operation = some (entry.id, entry.data))
    (hpermitted : guardPolicy (Ledger.balance (entries.map StorageWalEntry.posting)) entry.posting)
    (hmutate : ∀ world', Meets false during (fun mutated world'' =>
      mutated.1 ∈ [.none, .state .invalidTime, .account .outOfMemory] ∧ world'' = world')
      (mutate context.state) world') :
    Meets false during (fun requested world' => Left entries request requested.1 world'.disk)
      (letRequestLogged context entry response mutate) world := by
  refine .bind (storageWalWrite_spec hagrees.disk_eq hagrees.synced_le (hduring _) ?_ ?_ ?_
    hagrees.limit)
  · intro _
    exact .pure (hduring _) (.spoiled rfl)
  · intro _ count _ _
    refine ⟨hduring _, fun error _ => ?_⟩
    exact .pure (hduring _) (.spoiled rfl)
  · intro hid hlimit
    refine ⟨hduring _, .bind ((hmutate _).weaken ?_)⟩
    rintro ⟨error, state, response'⟩ world'' ⟨herror, rfl⟩
    refine .pure (hduring _) ?_
    simp only [List.mem_cons, List.not_mem_nil, or_false] at herror
    rcases herror with rfl | rfl | rfl
    · exact .answered (.inl rfl)
    · exact .spoiled rfl
    · exact .logged ⟨hoperation, hid.trans hagrees.transactions, hpermitted⟩ hlimit rfl

theorem letRequestAddAccount_left {walId : U64} {credits debits : U128} {flags : U8}
    (hduring : ∀ disk, during disk) (hagrees : Agrees entries context world.disk)
    (hrequest : request = .addAccount walId credits debits flags) :
    Meets false during (fun requested world' => Left entries request requested.1 world'.disk)
      (letRequestAddAccount context response timeNow walId credits debits flags) world := by
  refine letRequestLogged_left hduring hagrees (by rw [hrequest]; rfl) trivial fun world' => ?_
  refine .bind (stateAddAccount_spec (hduring _) hagrees.accounts_lt ?_ ?_)
  · intro state' _
    exact .pure (hduring _) (by simp)
  · intro _
    exact .pure (hduring _) (by simp)

theorem letRequestMakeTransfer_left {walId fromId toId : U64} {amount : U128}
    (hduring : ∀ disk, during disk) (hagrees : Agrees entries context world.disk)
    (hrequest : request = .makeTransfer walId fromId toId amount) :
    Meets false during (fun requested world' => Left entries request requested.1 world'.disk)
      (letRequestMakeTransfer context response timeNow walId fromId toId amount) world := by
  unfold letRequestMakeTransfer
  dsimp only
  by_cases hguard : guardMakeTransfer context.state fromId toId amount = .none
  · rw [hguard, if_neg (by decide)]
    have hpolicy := (guardMakeTransfer_eq_none_iff _ _ _ _).mp hguard
    obtain ⟨hfrom, hto, _⟩ := names_of_guardPolicy hpolicy
    rw [length_ledgerOf] at hfrom hto
    refine letRequestLogged_left hduring hagrees (by rw [hrequest]; rfl)
      (hagrees.ledger ▸ hpolicy) fun world' => ?_
    refine .bind (stateMakeTransfer_spec (hduring _) hfrom hto ?_ ?_)
    · intro now state' _
      exact .pure (hduring _) (by simp)
    · intro _
      exact .pure (hduring _) (by simp)
  · rw [if_pos (by simpa [errorExists] using hguard)]
    exact .pure (hduring _) (.answered (.inr (errorReport_guardMakeTransfer hguard)))

theorem letRequestUpdateAccount_left {walId accountId : U64} {flags : U8}
    (hduring : ∀ disk, during disk) (hagrees : Agrees entries context world.disk)
    (hrequest : request = .updateAccount walId accountId flags) :
    Meets false during (fun requested world' => Left entries request requested.1 world'.disk)
      (letRequestUpdateAccount context response timeNow walId accountId flags) world := by
  unfold letRequestUpdateAccount
  dsimp only
  by_cases hguard : guardUpdateAccount context.state accountId = .none
  · rw [hguard, if_neg (by decide)]
    have hpolicy := (guardUpdateAccount_eq_none_iff _ _ flags).mp hguard
    have haccount : accountId.toNat < context.state.accountList.accounts.length := by
      rw [← length_ledgerOf]
      exact hpolicy
    refine letRequestLogged_left hduring hagrees (by rw [hrequest]; rfl)
      (hagrees.ledger ▸ hpolicy) fun world' => ?_
    refine .bind (stateUpdateAccount_spec (hduring _) haccount ?_)
    intro state' _
    exact .pure (hduring _) (by simp)
  · rw [if_pos (by simpa [errorExists] using hguard)]
    exact .pure (hduring _) (.answered (.inr (errorReport_guardUpdateAccount hguard)))

theorem letRequest_left (hduring : ∀ disk, during disk)
    (hagrees : Agrees entries context world.disk) :
    Meets false during (fun requested world' => Left entries request requested.1 world'.disk)
      (letRequest context request response) world := by
  refine .bind (Proc.time_spec (hduring _) fun timeNow _ => ?_)
  split
  · exact .pure (hduring _) (.spoiled rfl)
  · cases hrequest : request with
    | magic => exact .pure (hduring _) (.answered (.inl rfl))
    | countDatabase => exact .pure (hduring _) (.answered (.inl rfl))
    | close => exact .pure (hduring _) (.answered (.inl rfl))
    | getAccount accountId =>
        refine .pure (hduring _) (.answered ?_)
        unfold letRequestGetAccount accountListGet
        split
        next error hget =>
          split at hget
          · obtain rfl := Except.error.inj hget
            exact .inr rfl
          · cases hget
        next => exact .inl rfl
    | addAccount walId credits debits flags => exact letRequestAddAccount_left hduring hagrees rfl
    | makeTransfer walId fromId toId amount => exact letRequestMakeTransfer_left hduring hagrees rfl
    | updateAccount walId accountId flags => exact letRequestUpdateAccount_left hduring hagrees rfl

/-- The log that a request leaves which is not answered. -/
def Unanswered (entries : List StorageWalEntry) (request : NetworkRequest) (error : Error)
    (disk : Disk) : Prop :=
  error.isStorageOrTime = true ∨
    ∃ entry, error = .account .outOfMemory ∧ Requested entries request entry ∧
      (storageWalImage (entries ++ [entry])).length ≤ Disk.offsetMax ∧
      disk = syncedDisk (entries ++ [entry])

theorem letRunStep_processing_left (hduring : ∀ disk, during disk)
    (hagrees : Agrees entries context world.disk) :
    Meets false during (fun point world' => ∀ context', point = .finished context' →
      Unanswered entries request context'.error world'.disk)
      (letRunStep (.processing context request)) world := by
  have hresponding (context : Let) (response : NetworkResponse) (disk : Disk) (context' : Let)
      (heq : LetRun.responding context request response = .finished context') :
      Unanswered entries request context'.error disk := nomatch heq
  refine .bind ((letRequest_left hduring hagrees).weaken ?_)
  rintro ⟨error, context', response⟩ world' hleft
  have hunanswered (hfatal : (errorReport error).action = .fatal) (world'' : World)
      (hdisk : world''.disk = world'.disk) : Unanswered entries request error world''.disk := by
    rw [hdisk]
    cases hleft with
    | answered action => rcases action with action | action <;> nomatch action.symm.trans hfatal
    | spoiled spoiled => exact .inl spoiled
    | logged requested limit synced => exact .inr ⟨_, rfl, requested, limit, synced⟩
  -- No error of a request closes the connection or is ignored.
  have haction : (errorReport error).action = .none ∨ (errorReport error).action = .reject ∨
      (errorReport error).action = .fatal := by
    cases hleft with
    | answered action => exact action.imp_right .inl
    | spoiled spoiled => exact .inr (action_of_isStorageOrTime spoiled)
    | logged => exact .inr (.inr rfl)
  rcases haction with haction | haction | hfatal
  · unfold letRunDispatch
    dsimp only
    rw [haction]
    exact .pure (hduring _) (hresponding _ _ _)
  · unfold letRunDispatch
    dsimp only
    rw [haction]
    exact .pure (hduring _) (hresponding _ _ _)
  · apply letRunDispatch_fatal (hduring _) hfatal
    rintro world'' hflags context'' heq
    obtain rfl := LetRun.finished.inj heq
    exact hunanswered hfatal world'' hflags.disk

end Errors

/-! ## Starting on a whole log -/

/-- No file yet, or one that holds these entries and nothing else. -/
structure Rests (entries : List StorageWalEntry) (disk : Disk) : Prop where
  wellformed : Wellformed entries
  file : disk.file = none ∧ entries = [] ∨ disk.file = some (storageWalImage entries)
  synced_le : disk.file ≠ none → disk.synced ≤ (storageWalImage entries).length
  limit : (storageWalImage entries).length ≤ Disk.offsetMax

section Starting

variable {entries : List StorageWalEntry} {world : World} {during : Disk → Prop}

theorem Agrees.rests {context : Let} {disk : Disk} (hagrees : Agrees entries context disk) :
    Rests entries disk where
  wellformed := hagrees.wellformed
  file := .inr (hagrees.disk_eq ▸ rfl)
  synced_le _ := hagrees.synced_le
  limit := hagrees.limit

theorem rests_absent {disk : Disk} (habsent : disk.file = none) : Rests [] disk where
  wellformed := .nil
  file := .inl ⟨habsent, rfl⟩
  synced_le hfile := (hfile habsent).elim
  limit := by decide

/-- What opening and replaying the log comes to. -/
def Reopened (entries : List StorageWalEntry) (result : Error × StorageWal × State)
    (disk : Disk) : Prop :=
  Agrees entries { storageWal := result.2.1, state := result.2.2, error := result.1 } disk ∧
      result.1 = .none ∨
    errorExists result.1 ∧ (result.1.isStorageOrTime = true ∨ Rests entries disk)

theorem storageWalReplay_rests {state : State} {storageWal : StorageWal} {truncateOnFail : Bool}
    {synced cursor : Nat} (hduring : ∀ disk, during disk) (hempty : state.accountList.accounts = [])
    (hdisk : world.disk = ⟨some (storageWalImage entries), synced, cursor⟩)
    (hwell : Wellformed entries) (hsynced : synced ≤ (storageWalImage entries).length)
    (hlimit : (storageWalImage entries).length ≤ Disk.offsetMax) :
    Meets false during (fun result world' => Reopened entries result world'.disk)
      (storageWalReplay storageWal state truncateOnFail) world := by
  have hwhole : world.disk = ⟨some (storageWalImage entries ++ []), synced, cursor⟩ := by
    rw [List.append_nil]
    exact hdisk
  have hsame : min synced (storageWalImage entries).length = synced := Nat.min_eq_left hsynced
  refine storageWalReplay_spec hwhole (by simpa using hsynced) (by decide) hwell.named
    (length_lt_of_limit hlimit) hempty (fun _ => hduring _) (fun _ => hduring _) ?_ ?_
  · intro _ state' happlied
    refine .inl ⟨⟨hwell, ?_, ?_, hlimit, rfl, happlied.ledger⟩, rfl⟩
    · rw [hsame]
      rfl
    · rw [hsame]
      exact hsynced
  · intro _ error storageWal' state' offset herror
    have hrests (disk : Disk) (hfile : disk.file = some (storageWalImage entries))
        (hdisk : disk.synced = synced) :
        Reopened entries (error, storageWal', state') disk :=
      .inr ⟨herror, .inr ⟨hwell, .inr hfile, fun _ => hdisk ▸ hsynced, hlimit⟩⟩
    constructor
    · exact hrests _ (by rw [hdisk]; rfl) (by rw [hdisk]; rfl)
    · exact hrests _ rfl hsame

theorem letInitStorage_rests {state : State} {truncateOnFail : Bool}
    (hduring : ∀ disk, during disk) (hempty : state.accountList.accounts = [])
    (hrests : Rests entries world.disk) :
    Meets false during (fun result world' => Reopened entries result world'.disk)
      (letInitStorage state truncateOnFail) world := by
  have hfailed {error : ErrorStorage} {world' : World} :
      Meets false during (fun result world' => Reopened entries result world'.disk)
        (return (.storage error, storageWalEmpty, state)) world' :=
    .pure (hduring _) (.inr ⟨rfl, .inl rfl⟩)
  rcases hrests.file with ⟨habsent, rfl⟩ | hfile
  · refine .bind (storageWalInit_absent habsent (hduring _) (fun _ _ => hduring _) hfailed
      (fun _ _ _ => hfailed) ?_)
    exact storageWalReplay_rests hduring hempty rfl hrests.wellformed (Nat.zero_le _) hrests.limit
  · have hsynced := hrests.synced_le (by simp [hfile])
    refine .bind (storageWalInit_exists (by simp [hfile]) (fun _ => hduring _)
      (fun _ _ => hfailed) ?_)
    have hcontent : (world.disk.seek 0).bytes = storageWalHeader ++
        (entries.map StorageWalEntry.safe).flatten := by
      rw [Disk.seek_bytes, Disk.bytes, hfile]
      rfl
    refine storageWalInitOpened_spec hcontent (fun _ => hduring _) rfl (fun _ _ _ => hfailed) ?_
    have hopened (offset : Nat) : world.disk.seek offset =
        ⟨some (storageWalImage entries), world.disk.synced, offset⟩ := by
      rw [← hfile]
      rfl
    exact storageWalReplay_rests hduring hempty (hopened _) hrests.wellformed hsynced hrests.limit

/-- What starting comes to. -/
def Resumed (entries : List StorageWalEntry) (result : Except Error LetRun) (disk : Disk) :
    Prop :=
  match result with
  | .ok point => Agrees entries point.context disk
  | .error error => error.isStorageOrTime = true ∨ Rests entries disk

/-- A server starts on its file with the entries there, or leaves them there. -/
theorem letStart_rests {cli : Cli} (hduring : ∀ disk, during disk)
    (hrests : Rests entries world.disk) :
    Meets false during (fun result world' => Resumed entries result world'.disk)
      (letStart cli) world := by
  refine .bind (.bind (accountListNew_spec (hduring _) ?_ ?_))
  · intro accountList hempty
    refine .bind ((letInitStorage_rests hduring hempty hrests).weaken ?_)
    rintro ⟨error, storageWal, state⟩ world₁ (⟨hagrees, hnone⟩ | ⟨hexists, hleft⟩)
    · dsimp only at hnone ⊢
      subst hnone
      rw [if_neg (by decide)]
      refine .bind (networkServerInit_spec (hduring _) ?_)
      intro error world₂ hdisk₂
      split
      · refine .pure (hduring _) (.pure (hduring _) (.inr ?_))
        rw [hdisk₂]
        exact hagrees.rests
      · refine .bind (setAccepting_flags_spec (hduring _) ?_)
        intro world₃ hflags₃ _ _
        refine .pure (hduring _) (.bind (letRunAccepting_spec (hduring _) ?_))
        intro point world₄ _ hcontext hflags₄
        refine .pure (hduring _) ?_
        change Agrees entries point.context world₄.disk
        rw [hflags₄.disk, hflags₃.disk, hdisk₂, hcontext]
        exact hagrees.withError error
    · dsimp only at hexists ⊢
      rw [if_pos hexists]
      exact .pure (hduring _) (.pure (hduring _) hleft)
  · intro _
    exact .pure (hduring _) (.pure (hduring _) (.inr hrests))

end Starting

/-! ## The log of the answered requests -/

/-- The operations of the answered requests are the entries of the log, in their
order, but for the entries that stand in gaps behind so many requests. -/
inductive Recorded : List Nat → List NetworkRequest → List StorageWalEntry → Prop
  | nil : Recorded [] [] []
  | concat {gaps : List Nat} {requests : List NetworkRequest} {entries : List StorageWalEntry}
      {request : NetworkRequest} {entry : StorageWalEntry}
      (recorded : Recorded gaps requests entries)
      (operation : request.operation = some (entry.id, entry.data)) :
      Recorded gaps (requests ++ [request]) (entries ++ [entry])
  | skip {gaps : List Nat} {requests : List NetworkRequest} {entries : List StorageWalEntry}
      (entry : StorageWalEntry) (recorded : Recorded gaps requests entries) :
      Recorded (gaps ++ [requests.length]) requests (entries ++ [entry])

/-- What holds of the server and its file, unless an error of storage or of the
clock has ended it. There is at most one gap each time that it ran out of memory. -/
inductive Tracked (exhausted : List Nat) (requests : List NetworkRequest) :
    Option LetRun → World → Prop
  | stopped {gaps : List Nat} {entries : List StorageWalEntry} {world : World}
      (excused : gaps.Sublist exhausted) (recorded : Recorded gaps requests entries)
      (rests : Rests entries world.disk) : Tracked exhausted requests none world
  | running {gaps : List Nat} {entries : List StorageWalEntry} {point : LetRun} {world : World}
      (excused : gaps.Sublist exhausted) (recorded : Recorded gaps requests entries)
      (agrees : Agrees entries point.context world.disk) :
      Tracked exhausted requests (some point) world
  | exhausted {gaps : List Nat} {entries : List StorageWalEntry} {entry : StorageWalEntry}
      {context : Let} {world : World} (excused : gaps.Sublist exhausted)
      (recorded : Recorded gaps requests entries) (error : context.error = .account .outOfMemory)
      (rests : Rests (entries ++ [entry]) world.disk) :
      Tracked exhausted requests (some (.finished context)) world
  | wrecked {gaps : List Nat} {entries : List StorageWalEntry} {context : Let} {world : World}
      (excused : gaps.Sublist exhausted) (recorded : Recorded gaps requests entries)
      (rests : ∃ disk, Rests entries disk) (spoiled : context.error.isStorageOrTime = true) :
      Tracked exhausted requests (some (.finished context)) world

section Tracking

variable {gaps exhausted : List Nat} {requests : List NetworkRequest}
  {entries : List StorageWalEntry} {point point' : LetRun} {context : Let}
  {request : NetworkRequest} {world world' : World}

theorem answered_of_idle (hidle : point.Idle) : answered requests point = requests := by
  cases point with
  | accepting | reading | finished => rfl
  | processing | responding => exact hidle.elim

theorem answered_of_refused {error : Error} :
    answered requests (.responding context request (.error error)) = requests := by
  simp [answered, NetworkResponse.succeeds]

theorem answered_committed {entry : StorageWalEntry} {length : U64}
    (hoperation : request.operation = some (entry.id, entry.data)) :
    answered requests (.responding context request (entry.data.reply length)) =
      requests ++ [request] := by
  have hsucceeds : (entry.data.reply length).succeeds = true := by
    cases entry.data <;> rfl
  simp [answered, hoperation, hsucceeds]

theorem answered_inquiry {response : NetworkResponse} (hnone : request.operation = none) :
    answered requests (.responding context request response) = requests := by
  simp [answered, hnone]

theorem Rests.concat {entry : StorageWalEntry} (hrests : Rests entries world.disk)
    (hrequested : Requested entries request entry)
    (hlimit : (storageWalImage (entries ++ [entry])).length ≤ Disk.offsetMax)
    (hdisk : world'.disk = syncedDisk (entries ++ [entry])) :
    Rests (entries ++ [entry]) world'.disk where
  wellformed := hrequested.wellformed hrests.wellformed
  file := .inr (hdisk ▸ rfl)
  synced_le _ := hdisk ▸ Nat.le_refl _
  limit := hlimit

/-- What processing a request makes of it. -/
theorem Tracked.process (hexcused : gaps.Sublist exhausted)
    (hrecorded : Recorded gaps requests entries) (hagrees : Agrees entries context world.disk)
    (hstepped : (system false).Returns (letRunStep (.processing context request)) world point'
      world') :
    Tracked exhausted (answered requests point') (some point') world' := by
  cases processed_of_returns hagrees hstepped with
  | committed requested limit accounts transactions =>
      rw [answered_committed requested.operation]
      exact .running hexcused (hrecorded.concat requested.operation)
        (requested.agrees hagrees limit accounts transactions)
  | answered inquiry =>
      rw [answered_inquiry (Option.map_eq_none_iff.mp (data_of_inquiry inquiry))]
      exact .running hexcused hrecorded (hagrees.withError _)
  | refused action =>
      rw [answered_of_refused]
      exact .running hexcused hrecorded (hagrees.withError _)
  | @fatal context' =>
      have hleft : Meets false (fun _ => True) (fun point world' => ∀ context',
          point = .finished context' → Unanswered entries request context'.error world'.disk)
          (letRunStep (.processing context request)) world :=
        letRunStep_processing_left (fun _ => trivial) hagrees
      rcases hleft.returns hstepped context' rfl with
        hspoiled | ⟨entry, herror, hrequested, hlimit, hdisk⟩
      · exact .wrecked hexcused hrecorded ⟨_, hagrees.rests⟩ hspoiled
      · exact .exhausted hexcused hrecorded herror (hagrees.rests.concat hrequested hlimit hdisk)

/-- The step lemma. -/
theorem Tracked.step (htracked : Tracked exhausted requests (some point) world)
    (hstepped : (system false).Returns (letRunStep point) world point' world') :
    Tracked exhausted (answered requests point') (some point') world' := by
  cases htracked with
  | exhausted excused recorded error rests =>
      obtain ⟨rfl, rfl⟩ := Machine.returns_pure.mp hstepped
      exact .exhausted excused recorded error rests
  | wrecked excused recorded rests spoiled =>
      obtain ⟨rfl, rfl⟩ := Machine.returns_pure.mp hstepped
      exact .wrecked excused recorded rests spoiled
  | @running _ entries _ _ excused recorded agrees =>
      rcases point.passing_or_processing with hpassing | ⟨context, request, rfl⟩
      · cases passed_of_returns hpassing hstepped with
        | idle idle context disk =>
            rw [answered_of_idle idle]
            exact .running excused recorded (disk ▸ context ▸ agrees.withError _)
        | decoded disk => exact .running excused recorded (disk ▸ agrees.withError _)
        | undecoded disk =>
            rw [answered_of_refused]
            exact .running excused recorded (disk ▸ agrees.withError _)
      · exact .process excused recorded agrees hstepped

theorem Rests.resumed {disk : Disk} {cli : Cli} {result : Except Error LetRun}
    (hrests : Rests entries disk)
    (hreturns : (system false).Returns (letStart cli) { disk } result world') :
    Resumed entries result world'.disk := by
  have hmeets : Meets false (fun _ => True)
      (fun result world' => Resumed entries result world'.disk) (letStart cli) { disk } :=
    letStart_rests (fun _ => trivial) hrests
  exact hmeets.returns hreturns

/-- The run lemma: the answered requests are tracked over restarts, and an entry
is skipped only if the server is restarted when its loops have run out of memory. -/
theorem Restarts.tracked {harmless : Error → Prop} {phase : Option LetRun}
    (hharmless : ∀ error, harmless error → error.isStorageOrTime = false)
    (hrestarts : Restarts harmless requests exhausted phase world) :
    Tracked exhausted requests phase world := by
  induction hrestarts with
  | absent absent => exact .stopped (.refl _) .nil (rests_absent absent)
  | starts _ started ih =>
      cases ih with
      | stopped excused recorded rests => exact .running excused recorded (rests.resumed started)
  | fails _ failed spared ih =>
      cases ih with
      | stopped excused recorded rests =>
          rcases rests.resumed failed with hspoiled | hrests
          · nomatch (hharmless _ spared).symm.trans hspoiled
          · exact .stopped excused recorded hrests
  | step _ stepped ih => exact ih.step stepped
  | stops _ spared ih =>
      cases ih with
      | running excused recorded agrees =>
          exact .stopped (excused.trans (List.sublist_append_left _ _)) recorded agrees.rests
      | exhausted excused recorded error rests =>
          rw [if_pos error]
          exact .stopped (excused.append (.refl _)) (recorded.skip _) rests
      | wrecked _ _ _ spoiled => nomatch (hharmless _ spared).symm.trans spoiled

end Tracking

end LetDX.LetDB
