import LetDX.LetDB.Cli
import LetDX.LetDB.Server.FailStop

/-! # The process of the server

Its exit status tells whether it was stopped on purpose: it reports success only
after a signal, or if it was asked for no more than its options or its version.
-/

namespace LetDX.LetDB

open Bytes Effects Machine

def letRunRound (point : LetRun) : Proc (LetRun ⊕ Let) :=
  match point with
  | .finished context => return .inr context
  | point => do
      let point ← letRunStep point
      return .inl point

def letRun (context : Let) : Proc Let := do
  let point ← letRunAccepting context
  Program.iterate letRunRound point

def letCleanup : Proc Unit := do
  Proc.closeSocket
  Proc.closeFile

/-- Whether no error occurred. -/
def applyProcess (options : List Matched) : Proc Bool := do
  let (error, cli) := cliParse letCliEmpty options
  if errorExists error then return false
  else if cli.help then return true
  else if cli.version then return true
  else
    match ← letInit cli.toCli with
    | .error error =>
        letCleanup
        return !errorExists error
    | .ok context =>
        let context ← letRun context
        letCleanup
        return !errorExists context.error

/-! ## Initialization -/

section Initialization

variable {accepting : Bool} {kind : Error → Prop} {error : Error} {world : World × Incidents}
  {state : State}

/-- Any error, or none. -/
def Error.Any (_ : Error) : Prop :=
  True

theorem Reports.any (hreports : Reports accepting kind error world) :
    Reports accepting Error.Any error world :=
  hreports.imp (fun hbearable => ⟨hbearable.1, trivial⟩) id

theorem Reports.undisturbed (hreports : Reports accepting kind error world)
    (hnone : ¬errorExists error = true) : Undisturbed accepting world := by
  rcases hreports with ⟨hundisturbed, _⟩ | ⟨_, hfatal⟩
  · exact hundisturbed
  · exact (hnone (errorExists_of_fatal hfatal)).elim

theorem malloc_checked {bytes : U64} (hundisturbed : Undisturbed accepting world) :
    observed.Yields (Checked accepting (.account .outOfMemory)) (Proc.malloc bytes) world :=
  observed_call (.malloc bytes) fun _ _ hperforms =>
    .of_noted (hundisturbed.performs (by simp) hperforms)

theorem lseek_checked {offset : Nat} {seek : StorageWalSeek}
    (hundisturbed : Undisturbed accepting world) :
    observed.Yields (Checked accepting (.storage .walSeekFailed)) (Proc.lseek offset seek) world :=
  observed_call (.lseek offset seek) fun _ _ hperforms =>
    .of_noted (hundisturbed.performs (by simp) hperforms)

theorem ftruncate_checked {offset : Nat} (hundisturbed : Undisturbed accepting world) :
    observed.Yields (Checked accepting (.storage .walTruncateFailed)) (Proc.ftruncate offset)
      world :=
  observed_call (.ftruncate offset) fun _ _ hperforms =>
    .of_noted (hundisturbed.performs (by simp) hperforms)

theorem openExisting_checked (hundisturbed : Undisturbed accepting world) :
    observed.Yields (Checked accepting (.storage .walOpenFailed)) Proc.openExisting world :=
  observed_call .openExisting fun _ _ hperforms =>
    .of_noted (hundisturbed.performs (by simp) hperforms)

theorem socket_checked (hundisturbed : Undisturbed accepting world) :
    observed.Yields (Checked accepting (.network .serverCreateFailed)) Proc.socket world :=
  observed_call .socket fun _ _ hperforms =>
    .of_noted (hundisturbed.performs (by simp) hperforms)

theorem bind_checked {port : U16} (hundisturbed : Undisturbed accepting world) :
    observed.Yields (Checked accepting (.network .serverBindFailed)) (Proc.bind port) world :=
  observed_call (.bind port) fun _ _ hperforms =>
    .of_noted (hundisturbed.performs (by simp) hperforms)

theorem listen_checked {backlog : U16} (hundisturbed : Undisturbed accepting world) :
    observed.Yields (Checked accepting (.network .serverListenFailed)) (Proc.listen backlog)
      world :=
  observed_call (.listen backlog) fun _ _ hperforms =>
    .of_noted (hundisturbed.performs (by simp) hperforms)

/-- The end of a reading call. -/
theorem read_noted {count : Nat} (hundisturbed : Undisturbed accepting world) :
    observed.Yields (fun data world' =>
        data.isSome = true ∧ Undisturbed accepting world' ∨
          data = none ∧ Failed (.storage .walReadFailed) world')
      (Proc.read count) world := by
  refine observed_call (.read count) fun (data : Option (List U8)) world' hperforms => ?_
  rcases hundisturbed.performs (by simp) hperforms with ⟨hnone, hafter⟩ | ⟨error, hsome, hfailed⟩
  · cases data with
    | none => cases hnone
    | some data => exact .inl ⟨rfl, hafter⟩
  · cases data with
    | none =>
        obtain rfl := Option.some.inj hsome
        exact .inr ⟨rfl, hfailed⟩
    | some data => cases hsome

/-- The end of a writing call. -/
theorem write_noted {bytes : List U8} (hundisturbed : Undisturbed accepting world) :
    observed.Yields (fun written world' =>
        written = some bytes.length ∧ Undisturbed accepting world' ∨
          written ≠ some bytes.length ∧ Failed (.storage .walWriteFailed) world')
      (Proc.write bytes) world := by
  refine observed_call (.write bytes) fun (written : Option Nat) world' hperforms => ?_
  have hnoted := hundisturbed.performs (by simp) hperforms
  rcases failure_write_cases bytes written with ⟨hwhole, hfailure⟩ | ⟨hshort, hfailure⟩
  · rw [hfailure] at hnoted
    rcases hnoted with ⟨_, hafter⟩ | ⟨_, hsome, _⟩
    · exact .inl ⟨hwhole, hafter⟩
    · cases hsome
  · rw [hfailure] at hnoted
    rcases hnoted with ⟨hnone, _⟩ | ⟨error, hsome, hfailed⟩
    · cases hnone
    · obtain rfl := Option.some.inj hsome
      exact .inr ⟨hshort, hfailed⟩

theorem accountListNew_reports (hundisturbed : Undisturbed accepting world) :
    observed.Yields (fun result world' => Undisturbed accepting world' ∧ result.isSome = true ∨
        Failed (.account .outOfMemory) world' ∧ result = none)
      accountListNew world := by
  refine .bind ((malloc_checked hundisturbed).weaken ?_)
  rintro granted world₁ (⟨rfl, hafter₁⟩ | ⟨rfl, hfailed⟩)
  · refine .bind ((malloc_checked hafter₁).weaken ?_)
    rintro granted world₂ (⟨rfl, hafter₂⟩ | ⟨rfl, hfailed⟩)
    · exact .pure (.inl ⟨hafter₂, rfl⟩)
    · exact .pure (.inr ⟨hfailed, rfl⟩)
  · exact .pure (.inr ⟨hfailed, rfl⟩)

/-! ## The log at the start -/

/-- Closing is not noted. -/
theorem closeFile_bind {α : Type} {f : Unit → Proc α} {post : α → World × Incidents → Prop}
    (hnext : observed.Yields post (f ()) world) :
    observed.Yields post (Proc.closeFile >>= f) world := by
  refine .bind (observed_call .closeFile ?_)
  rintro _ world' ⟨choice, hexec⟩
  obtain ⟨-, rfl⟩ := Prod.mk.inj hexec
  rw [show Incidents.note .closeFile choice world.1 world.2 = world.2 by
    simp [Incidents.note, Syscall.signals, Syscall.failure]]
  exact hnext

theorem closeSocket_bind {α : Type} {f : Unit → Proc α} {post : α → World × Incidents → Prop}
    (hnext : observed.Yields post (f ()) world) :
    observed.Yields post (Proc.closeSocket >>= f) world := by
  refine .bind (observed_call .closeSocket ?_)
  rintro _ world' ⟨choice, hexec⟩
  obtain ⟨-, rfl⟩ := Prod.mk.inj hexec
  rw [show Incidents.note .closeSocket choice world.1 world.2 = world.2 by
    simp [Incidents.note, Syscall.signals, Syscall.failure]]
  exact hnext

theorem storageWalAbandon_reports {error : ErrorStorage}
    (hreports : Reports accepting Error.Any (.storage error) world) :
    observed.Yields (Reports accepting Error.Any) (storageWalAbandon error) world :=
  closeFile_bind (.pure hreports)

theorem storageWalSeek_reports {offset : Nat} {seek : StorageWalSeek}
    (hundisturbed : Undisturbed accepting world) :
    observed.Yields (Reports accepting Error.Any) (storageWalSeek offset seek) world := by
  refine .bind ((lseek_checked hundisturbed).weaken ?_)
  rintro sought world' (⟨rfl, hafter⟩ | ⟨rfl, hfailed⟩)
  · exact .pure (hafter.reports trivial)
  · exact .pure (hfailed.reports rfl)

theorem storageWalTruncate_reports {offset : Nat} (hundisturbed : Undisturbed accepting world) :
    observed.Yields (Reports accepting Error.Any) (storageWalTruncate offset) world := by
  refine .bind ((ftruncate_checked hundisturbed).weaken ?_)
  rintro truncated world' (⟨rfl, hafter⟩ | ⟨rfl, hfailed⟩)
  · exact .pure (hafter.reports trivial)
  · exact .pure (hfailed.reports rfl)

theorem storageWalInitSeek_reports (hundisturbed : Undisturbed accepting world) :
    observed.Yields (Reports accepting Error.Any) storageWalInitSeek world := by
  refine .bind ((storageWalSeek_reports hundisturbed).weaken ?_)
  intro error world' hreports
  split
  · exact closeFile_bind (.pure hreports)
  · exact .pure hreports

theorem storageWalInitCreated_reports (hundisturbed : Undisturbed accepting world) :
    observed.Yields (Reports accepting Error.Any) storageWalInitCreated world := by
  refine .bind ((write_noted hundisturbed).weaken ?_)
  rw [length_toLittleEndian]
  rintro written world₁ (⟨rfl, hafter₁⟩ | ⟨hshort, hfailed⟩)
  · rw [if_neg (by simp)]
    refine .bind ((write_noted hafter₁).weaken ?_)
    rw [length_toLittleEndian]
    rintro written world₂ (⟨rfl, hafter₂⟩ | ⟨hshort, hfailed⟩)
    · rw [if_neg (by simp)]
      exact storageWalInitSeek_reports hafter₂
    · rw [if_pos hshort]
      exact storageWalAbandon_reports (hfailed.reports rfl)
  · rw [if_pos hshort]
    exact storageWalAbandon_reports (hfailed.reports rfl)

theorem storageWalInitOpened_reports (hundisturbed : Undisturbed accepting world) :
    observed.Yields (Reports accepting Error.Any) storageWalInitOpened world := by
  refine .bind ((read_noted hundisturbed).weaken ?_)
  rintro (_ | magic) world₁ hread₁
  · rcases hread₁ with ⟨hsome, _⟩ | ⟨_, hfailed⟩
    · cases hsome
    · exact storageWalAbandon_reports (hfailed.reports rfl)
  rcases hread₁ with ⟨_, hafter₁⟩ | ⟨hnone, _⟩
  swap
  · cases hnone
  dsimp only
  split
  · exact storageWalAbandon_reports (hafter₁.reports trivial)
  · split
    · exact storageWalAbandon_reports (hafter₁.reports trivial)
    · refine .bind ((read_noted hafter₁).weaken ?_)
      rintro (_ | version) world₂ hread₂
      · rcases hread₂ with ⟨hsome, _⟩ | ⟨_, hfailed⟩
        · cases hsome
        · exact storageWalAbandon_reports (hfailed.reports rfl)
      rcases hread₂ with ⟨_, hafter₂⟩ | ⟨hnone, _⟩
      swap
      · cases hnone
      dsimp only
      split
      · exact storageWalAbandon_reports (hafter₂.reports trivial)
      · split
        · exact storageWalAbandon_reports (hafter₂.reports trivial)
        · exact storageWalInitSeek_reports hafter₂

theorem storageWalInit_reports (hundisturbed : Undisturbed accepting world) :
    observed.Yields (Reports accepting Error.Any) storageWalInit world := by
  refine hundisturbed.bind (by simp) ?_ ?_
  · intro (result : OpenResult) world₁ hresult hafter₁
    cases result with
    | opened => exact storageWalInitCreated_reports hafter₁
    | «exists» =>
        refine .bind ((openExisting_checked hafter₁).weaken ?_)
        rintro opened world₂ (⟨rfl, hafter₂⟩ | ⟨rfl, hfailed⟩)
        · exact storageWalInitOpened_reports hafter₂
        · exact .pure (hfailed.reports rfl)
    | failed => cases hresult
  · intro (result : OpenResult) error world₁ hfailure hfailed
    cases result with
    | opened | «exists» => cases hfailure
    | failed =>
        obtain rfl := Option.some.inj hfailure
        exact .pure (hfailed.reports rfl)

theorem storageWalReplayEntry_reports {entry : List U8}
    (hundisturbed : Undisturbed accepting world) :
    observed.Yields (fun result => Reports accepting Error.Any result.1)
      (storageWalReplayEntry state entry) world := by
  unfold storageWalReplayEntry
  split
  · exact .bind ((stateAddAccount_reports hundisturbed).weaken fun _ _ hreports =>
      .pure hreports.any)
  · exact (stateMakeTransfer_reports hundisturbed).weaken fun _ _ => Reports.any
  · exact (stateUpdateAccount_reports hundisturbed).weaken fun _ _ => Reports.any
  · exact .pure (hundisturbed.reports trivial)

/-- How the loop is left. -/
def ReplayLeft (accepting : Bool) : StorageWalReplayExit → World × Incidents → Prop
  | .returned error => Reports accepting Error.Any error
  | .stopped none => Failed (.storage .walReadFailed)
  | .stopped (some _) => Undisturbed accepting

theorem storageWalReplayRound_reports {truncateOnFailure : Bool} {loop : StorageWalReplay}
    (hundisturbed : Undisturbed accepting world) :
    observed.Yields (fun round world' =>
        match round with
        | .inl _ => Undisturbed accepting world'
        | .inr result => ReplayLeft accepting result.2 world')
      (storageWalReplayRound truncateOnFailure loop) world := by
  refine .bind ((read_noted hundisturbed).weaken ?_)
  rintro (_ | safeEntry) world₁ hread
  · rcases hread with ⟨hsome, _⟩ | ⟨_, hfailed⟩
    · cases hsome
    · exact .pure hfailed
  rcases hread with ⟨_, hafter₁⟩ | ⟨hnone, _⟩
  swap
  · cases hnone
  dsimp only
  split
  · exact .pure hafter₁
  · split
    · split
      · exact .pure (hafter₁.reports trivial)
      · refine .bind ((storageWalTruncate_reports hafter₁).weaken ?_)
        intro error world₂ hreports
        split
        · exact .pure hreports
        next hnone => exact .pure (hreports.undisturbed hnone)
    · refine .bind ((storageWalReplayEntry_reports hafter₁).weaken ?_)
      rintro ⟨error, state'⟩ world₂ hreports
      dsimp only
      split
      · exact .pure hreports
      next hnone => exact .pure (hreports.undisturbed hnone)

theorem storageWalReplayTail_reports {truncateOnFailure : Bool} {fileOffset : Nat}
    {bytesRead : Option Nat} (hleft : ReplayLeft accepting (.stopped bytesRead) world) :
    observed.Yields (Reports accepting Error.Any)
      (storageWalReplayTail truncateOnFailure fileOffset bytesRead) world := by
  cases bytesRead with
  | none => exact .pure (Failed.reports hleft rfl)
  | some bytesRead =>
      have hundisturbed : Undisturbed accepting world := hleft
      unfold storageWalReplayTail
      dsimp only
      split
      · split
        · exact .pure (hundisturbed.reports trivial)
        · refine .bind ((storageWalTruncate_reports hundisturbed).weaken ?_)
          intro error world' hreports
          split
          · exact .pure hreports
          next hnone => exact storageWalSeek_reports (hreports.undisturbed hnone)
      · exact storageWalSeek_reports hundisturbed

theorem storageWalReplay_reports {storageWal : StorageWal} {truncateOnFailure : Bool}
    (hundisturbed : Undisturbed accepting world) :
    observed.Yields (fun result => Reports accepting Error.Any result.1)
      (storageWalReplay storageWal state truncateOnFailure) world := by
  refine .bind ((storageWalSeek_reports hundisturbed).weaken ?_)
  intro error world₁ hreports₁
  split
  · exact .pure hreports₁
  next hnone =>
    have hloop : observed.Yields (fun result => ReplayLeft accepting result.2)
        (Program.iterate (storageWalReplayRound truncateOnFailure)
          { state, transactions := 0, fileOffset := storageWalHeaderLength }) world₁ := by
      refine .iterate (fun _ => Undisturbed accepting) ?_ (hreports₁.undisturbed hnone)
      intro loop world hafter
      refine (storageWalReplayRound_reports hafter).weaken ?_
      rintro (loop' | result) world' hround
      · exact hround
      · exact hround
    refine .bind (hloop.weaken ?_)
    rintro ⟨loop, exit⟩ world₂ hleft
    cases exit with
    | returned error => exact .pure hleft
    | stopped bytesRead =>
        exact .bind ((storageWalReplayTail_reports hleft).weaken fun _ _ hreports =>
          .pure hreports)

theorem letInitStorage_reports {truncateOnFail : Bool}
    (hundisturbed : Undisturbed accepting world) :
    observed.Yields (fun result => Reports accepting Error.Any result.1)
      (letInitStorage state truncateOnFail) world := by
  refine .bind ((storageWalInit_reports hundisturbed).weaken ?_)
  intro error world' hreports
  split
  · exact .pure hreports
  next hnone => exact storageWalReplay_reports (hreports.undisturbed hnone)

theorem networkServerInit_reports {port backlog : U16}
    (hundisturbed : Undisturbed accepting world) :
    observed.Yields (Reports accepting Error.Any) (networkServerInit port backlog) world := by
  have hclose {error : ErrorNetwork} {world : World × Incidents}
      (hreports : Reports accepting Error.Any (.network error) world) :
      observed.Yields (Reports accepting Error.Any)
        (do Proc.closeSocket; return .network error) world :=
    closeSocket_bind (.pure hreports)
  refine .bind ((socket_checked hundisturbed).weaken ?_)
  rintro created world₁ (⟨rfl, hafter₁⟩ | ⟨rfl, hfailed⟩)
  swap
  · exact .pure (hfailed.reports rfl)
  refine .bind ((bind_checked hafter₁).weaken ?_)
  rintro bound world₂ (⟨rfl, hafter₂⟩ | ⟨rfl, hfailed⟩)
  swap
  · exact hclose (hfailed.reports rfl)
  refine .bind ((listen_checked hafter₂).weaken ?_)
  rintro listening world₃ (⟨rfl, hafter₃⟩ | ⟨rfl, hfailed⟩)
  · exact .pure (hafter₃.reports trivial)
  · exact hclose (hfailed.reports rfl)

theorem letInit_reports {cli : Cli} (hundisturbed : Undisturbed accepting world) :
    observed.Yields (fun result world' =>
        match result with
        | .error error => errorExists error = true ∧ Reports accepting Error.Any error world'
        | .ok _ => Undisturbed true world')
      (letInit cli) world := by
  refine .bind ((accountListNew_reports hundisturbed).weaken ?_)
  rintro (_ | accountList) world₁ hlist
  · rcases hlist with ⟨_, hsome⟩ | ⟨hfailed, _⟩
    · cases hsome
    · exact .pure ⟨rfl, hfailed.reports rfl⟩
  rcases hlist with ⟨hafter₁, _⟩ | ⟨_, hnone⟩
  swap
  · cases hnone
  refine .bind ((letInitStorage_reports hafter₁).weaken ?_)
  rintro ⟨error, storageWal, state⟩ world₂ hreports₂
  dsimp only
  split
  next hexists => exact .pure ⟨hexists, hreports₂⟩
  next hnone₂ =>
    refine .bind ((networkServerInit_reports (hreports₂.undisturbed hnone₂)).weaken ?_)
    intro error world₃ hreports₃
    split
    next hexists => exact .pure ⟨hexists, hreports₃⟩
    next hnone₃ =>
      refine .bind (observed_call (.setAccepting true) ?_)
      rintro _ world₄ ⟨choice, hexec⟩
      obtain ⟨-, rfl⟩ := Prod.mk.inj hexec
      refine .pure ⟨?_, fun _ => rfl⟩
      change world₃.2.failures ++ [] = []
      rw [(hreports₃.undisturbed hnone₃).failures, List.append_nil]

end Initialization

/-! ## The exit status -/

section Exit

variable {accepting : Bool} {world : World × Incidents} {error : Error}

theorem letRun_proceeds {context : Let} (hundisturbed : Undisturbed true world) :
    observed.Yields (fun context world' => Proceeds (.finished context) world')
      (letRun context) world := by
  refine .bind ((letRunAccepting_proceeds hundisturbed).weaken ?_)
  intro point world' hproceeds
  refine .iterate (fun point world => Proceeds point world) ?_ hproceeds
  intro point world hproceeds
  rcases hproceeds with ⟨hafter, hrunning⟩ | ⟨context, rfl, hfailed⟩
  · cases point with
    | finished context => exact .pure (.inl ⟨hafter, hrunning⟩)
    | _ =>
        exact .bind ((letRunStep_proceeds hafter (by simp)).weaken fun _ _ hproceeds =>
          .pure hproceeds)
  · exact .pure (.inr ⟨context, rfl, hfailed⟩)

/-- Why a process has succeeded, and how it has failed. -/
structure Exits (options : List Matched) (succeeded : Bool) (world : World × Incidents) :
    Prop where
  stopped : succeeded = true → (cliParse letCliEmpty options).2.help = true ∨
    (cliParse letCliEmpty options).2.version = true ∨ world.2.signalled = true
  failed : world.2.failures ≠ [] → succeeded = false ∧ ∃ error failed,
    world.2.failures = [(error, failed)] ∧ Reflagged failed world.1

theorem letCleanup_bind {α : Type} {f : Unit → Proc α} {post : α → World × Incidents → Prop}
    (hnext : observed.Yields post (f ()) world) :
    observed.Yields post (letCleanup >>= f) world := by
  rw [letCleanup, bind_assoc]
  exact closeSocket_bind (closeFile_bind hnext)

theorem exits_failed {options : List Matched} (herror : errorExists error = true)
    (hreports : Undisturbed accepting world ∨ Failed error world) :
    Exits options (!errorExists error) world where
  stopped hsucceeded := by
    rw [herror] at hsucceeded
    cases hsucceeded
  failed hfailures := by
    rcases hreports with hundisturbed | ⟨failed, hnoted, hflags⟩
    · exact (hfailures hundisturbed.failures).elim
    · exact ⟨by rw [herror]; rfl, error, failed, hnoted, hflags⟩

theorem applyProcess_exits {options : List Matched}
    (hundisturbed : Undisturbed accepting world) :
    observed.Yields (Exits options) (applyProcess options) world := by
  unfold applyProcess
  dsimp only
  split
  next hexists =>
    refine .pure ⟨by simp, fun hfailures => (hfailures hundisturbed.failures).elim⟩
  split
  next hhelp =>
    exact .pure ⟨fun _ => .inl hhelp, fun hfailures => (hfailures hundisturbed.failures).elim⟩
  split
  next hversion =>
    exact .pure ⟨fun _ => .inr (.inl hversion),
      fun hfailures => (hfailures hundisturbed.failures).elim⟩
  refine .bind ((letInit_reports hundisturbed).weaken ?_)
  rintro (error | context) world₁ hstarted
  · obtain ⟨hexists, hreports⟩ := hstarted
    exact letCleanup_bind (.pure (exits_failed hexists (hreports.imp And.left And.left)))
  · refine .bind ((letRun_proceeds hstarted).weaken ?_)
    intro context world₂ hproceeds
    refine letCleanup_bind (.pure ?_)
    rcases hproceeds with ⟨hafter, hrunning⟩ | ⟨context, hpoint, hexists, hfailed⟩
    · refine ⟨fun _ => .inr (.inr ?_), fun hfailures => (hfailures hafter.failures).elim⟩
      by_contra hquiet
      exact hrunning (by simpa using hquiet) context rfl
    · obtain rfl := LetRun.finished.inj hpoint
      have hreports : Undisturbed true world₂ ∨ Failed _ world₂ := .inr hfailed
      exact exits_failed hexists hreports

/-- In every run of the process that ends: it reports success only if it was asked
for its options or its version, or a signal was handled, and a call that fails is
the last to do anything and makes it report failure. -/
theorem exit_status {options : List Matched} {world : World} {succeeded : Bool}
    {world' : World × Incidents}
    (hreturns : observed.Returns (applyProcess options) (world, {}) succeeded world') :
    (succeeded = true → (cliParse letCliEmpty options).2.help = true ∨
      (cliParse letCliEmpty options).2.version = true ∨ world'.2.signalled = true) ∧
    (world'.2.failures ≠ [] → succeeded = false ∧ ∃ error failed,
      world'.2.failures = [(error, failed)] ∧ world'.1.disk = failed.disk ∧
      world'.1.received = failed.received ∧ world'.1.sent = failed.sent) := by
  have hstart : Undisturbed world.accepting (world, {}) := ⟨rfl, fun _ => rfl⟩
  obtain ⟨hstopped, hfailed⟩ := applyProcess_exits hstart _ _ hreturns
  refine ⟨hstopped, fun hfailures => ?_⟩
  obtain ⟨hstatus, error, failed, hnoted, hflags⟩ := hfailed hfailures
  exact ⟨hstatus, error, failed, hnoted, hflags.disk, hflags.received, hflags.sent⟩

/-- The port cannot be bound. -/
def unbinding (call : Syscall) (world : World × Incidents) : call.Choice :=
  match call with
  | .bind _ => false
  | call => obliging [] call world.1

/-- A process without options, on a new file, whose port is taken. -/
theorem exit_status_unbound : ∃ world', observed.Returns (applyProcess []) ({}, {}) false world' ∧
    ∃ failed, world'.2.failures = [(.network .serverBindFailed, failed)] ∧
      world'.1.disk = failed.disk := by
  have hrun : (observed.run unbinding 1000 (applyProcess []) ({}, {})).any (fun ended =>
      decide (ended.1 = false ∧
        ended.2.2.failures.map Prod.fst = [.network .serverBindFailed])) = true := by
    decide +kernel
  obtain ⟨⟨succeeded, world'⟩, hended, hchecked⟩ := (Option.any_eq_true _ _).mp hrun
  obtain ⟨rfl, hfailures⟩ := of_decide_eq_true hchecked
  have hreturns := returns_of_run hended
  refine ⟨world', hreturns, ?_⟩
  have hnonempty : world'.2.failures ≠ [] := by
    intro hnone
    rw [hnone] at hfailures
    cases hfailures
  obtain ⟨_, error, failed, hnoted, hdisk, _⟩ := (exit_status hreturns).2 hnonempty
  rw [hnoted] at hfailures
  obtain rfl := List.singleton_inj.mp hfailures
  exact ⟨failed, hnoted, hdisk⟩

end Exit

end LetDX.LetDB
