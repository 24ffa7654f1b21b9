import LetDX.LetDB.Storage.Acceptance

/-! # Which files replay indexes within bounds

Replay itself compares no index with the length of the account list. What keeps
it inside is the file alone: it does so exactly when every record that it comes
to names accounts that earlier records have opened.
-/

namespace LetDX.LetDB

open Bytes Durable Effects Machine

/-- Some replay of the file into an empty account list comes to this point. -/
def ReplayReaches (truncateOnFailure : Bool) (file : List U8)
    (rest : Proc (Error × StorageWal × State)) (world' : World) : Prop :=
  ∃ reliable storageWal state world, state.accountList.accounts = [] ∧
    world.disk.file = some file ∧
    (system reliable).Reaches (storageWalReplay storageWal state truncateOnFailure, world)
      (rest, world')

/-- No replay of the file hands on an index outside the account list, and none
that succeeds has met a record that names such an index. -/
structure ReplaysInBounds (truncateOnFailure : Bool) (content : List U8) : Prop where
  transfers : ∀ state fromId toId amount rest world',
    ReplayReaches truncateOnFailure (storageWalHeader ++ content)
      (stateMakeTransfer state fromId toId amount >>= rest) world' →
    fromId.toNat < state.accountList.accounts.length ∧
      toId.toNat < state.accountList.accounts.length
  updates : ∀ state accountId flags rest world',
    ReplayReaches truncateOnFailure (storageWalHeader ++ content)
      (stateUpdateAccount state accountId flags >>= rest) world' →
    accountId.toNat < state.accountList.accounts.length
  inside : ∀ world', ¬ReplayReaches truncateOnFailure (storageWalHeader ++ content) .fault world'
  refuses : ∀ result world', ReplayReaches truncateOnFailure (storageWalHeader ++ content)
    (.done (.none, result)) world' → ∀ records, Longest Intact records content → Named records

variable {reliable truncateOnFailure : Bool} {world world' : World} {α : Type}

section Indices

variable {state : State}

/-- A transfer with an index outside the list is an undefined step once the
clock has shown a time. -/
theorem faults_stateMakeTransfer {fromId toId : U64} {amount : U128}
    (hslots : ¬(fromId.toNat < state.accountList.accounts.length ∧
      toId.toNat < state.accountList.accounts.length)) :
    (system reliable).Faults (stateMakeTransfer state fromId toId amount) world := by
  have hshows : (system reliable).Returns Proc.time world (0 : Time) world := by
    refine returns_perform.mpr ⟨(0 : Time), ?_⟩
    change (if reliable && (0 : Time) = Time.failed then (0 : Time) else 0, world) = (0, world)
    rw [ite_self]
  refine Faults.after (Reaches.bind hshows _) ⟨world, ?_⟩
  change Machine.Reaches _ (if fromId.toNat < _ ∧ toId.toNat < _ then _ else _, world) _
  rw [if_neg hslots]
  exact .refl

theorem faults_stateUpdateAccount {accountId : U64} {flags : U8}
    (hslot : ¬accountId.toNat < state.accountList.accounts.length) :
    (system reliable).Faults (stateUpdateAccount state accountId flags) world := by
  rw [stateUpdateAccount, accountListUpdate, if_neg hslot]
  exact ⟨world, .refl⟩

/-- An entry that names an account that does not exist leads to an undefined
step. -/
theorem faults_storageWalReplayEntry {record : List U8} {entry : StorageWalEntry}
    (hentry : recordEntry record = some entry)
    (houtside : ¬entry.data.InBounds state.accountList.accounts.length) :
    (system reliable).Faults (storageWalReplayEntry state (record.take storageWalEntrySize))
      world := by
  obtain ⟨id, timestamp, data⟩ := entry
  rw [recordEntry] at hentry
  rw [storageWalReplayEntry, hentry]
  cases data with
  | addAccount credits debits flags => exact (houtside trivial).elim
  | makeTransfer fromId toId amount => exact faults_stateMakeTransfer houtside
  | updateAccount accountId flags => exact faults_stateUpdateAccount houtside

end Indices

/-! ## Runs of the loop -/

section Rounds

variable {records rest : List (List U8)} {entries : List StorageWalEntry}
  {loop : StorageWalReplay} {tail record : List U8} {start : World}

/-- A round that reads the next record comes to its entry. -/
theorem reaches_storageWalReplayRecord
    (hcontent : start.disk.bytes = recordsImage records ++ tail)
    (hintact : ∀ record ∈ records, Intact record)
    (hreplaying : Replaying .any records (record :: rest) entries loop) :
    (system reliable).Reaches
      (storageWalReplayRound truncateOnFailure loop,
        { start with disk := start.disk.seek loop.fileOffset })
      (storageWalReplayRecord loop record,
        { start with disk := start.disk.seek (loop.fileOffset + storageWalEntrySafeSize) }) := by
  have hread := hreplaying.peek hcontent hintact
  have hrecord : Intact record := by
    obtain ⟨passed, rfl, _⟩ := hreplaying.known
    exact hintact record (by simp)
  have hreads : (system reliable).Returns (Proc.read storageWalEntrySafeSize)
      { start with disk := start.disk.seek loop.fileOffset } (some record)
      { start with disk := start.disk.seek (loop.fileOffset + storageWalEntrySafeSize) } := by
    refine returns_perform.mpr ⟨true, ?_⟩
    simp only [system, Syscall.exec, Bool.true_or, if_true, hread, intact_length hrecord]
    rfl
  refine (Reaches.bind hreads _).trans ?_
  change Machine.Reaches _ (if record.length ≠ storageWalEntrySafeSize then _
    else if storageCrc32c (record.take storageWalEntrySize) ≠ _ then _ else _, _) _
  rw [if_neg (not_not.mpr (intact_length hrecord)), if_neg (not_not.mpr hrecord.2)]
  exact .refl

/-- On the reliable system a record that names accounts that exist is passed. -/
theorem returns_storageWalReplayRecord (start : World) {entry : StorageWalEntry}
    (hintact : ∀ record ∈ records, Intact record) (hlimit : records.length < 2 ^ 63)
    (hreplaying : Replaying .any records (record :: rest) entries loop)
    (hentry : recordEntry record = some entry)
    (hbounds : entry.data.InBounds loop.state.accountList.accounts.length) :
    ∃ entries' loop', Replaying .any records rest entries' loop' ∧
      (system true).Returns (storageWalReplayRecord loop record)
        { start with disk := start.disk.seek (loop.fileOffset + storageWalEntrySafeSize) }
        (.inl loop') { start with disk := start.disk.seek loop'.fileOffset } := by
  obtain ⟨before, rfl, hknown⟩ := hreplaying.known
  -- The records up to this one are all known, so nothing stands in the way of passing them.
  have hsofar : Known (before ++ [record]) (entries ++ [entry]) :=
    known_append hknown (by simp [Known, hentry])
  have hreplaying' : Replaying .any (before ++ [record]) [record] entries loop :=
    { hreplaying with known := ⟨before, rfl, hknown⟩ }
  have hpasses (result : StorageWalReplay × StorageWalReplayExit) (world' : World)
      (hstops : ReplayStops .any true false (before ++ [record]) [] start result world') :
      ¬result.2.Fails := by
    cases hstops with
    | failed obstructed =>
        rcases obstructed with hunreliable | ⟨_, htorn⟩ | ⟨record', hrecord', hunknown⟩
        · cases hunreliable
        · exact (htorn rfl).elim
        · obtain ⟨entry', _, hentry'⟩ := hsofar.exists_entry hrecord'
          rw [hunknown] at hentry'
          cases hentry'
    | short =>
        rintro (hnone | ⟨_, _, hreturned⟩)
        · cases hnone
        · cases hreturned
    | cut _ truncates => cases truncates
  have hmeets : Meets true (fun _ => True)
      (fun round world' => ∃ entries' loop', round = .inl loop' ∧
        Replaying .any (before ++ [record]) [] entries' loop' ∧
        world' = { start with disk := start.disk.seek loop'.fileOffset })
      (storageWalReplayRecord loop record)
      { start with disk := start.disk.seek (loop.fileOffset + storageWalEntrySafeSize) } := by
    apply MeetsBy.meets
    refine storageWalReplayRecord_spec ?_ ?_ hreplaying' hentry hbounds trivial ?_
      fun result world' hstops hfails => (hpasses result world' hstops hfails).elim
    · intro record' hrecord'
      exact hintact record' (by simp at hrecord' ⊢; tauto)
    · rw [List.length_append, List.length_cons] at hlimit
      rw [List.length_append, List.length_singleton]
      omega
    · intro entries' loop' hnext _
      exact ⟨entries', loop', rfl, hnext, rfl⟩
  obtain ⟨round, world', hreturns⟩ := hmeets.exists_returns
  obtain ⟨entries', loop', rfl, hnext, rfl⟩ := hmeets.returns hreturns
  obtain ⟨passed, hpassed, hknown'⟩ := hnext.known
  rw [List.append_nil] at hpassed
  refine ⟨entries', loop', { hnext with known := ⟨passed, ?_, hknown'⟩ }, hreturns⟩
  rw [← hpassed, List.append_assoc, List.singleton_append]

/-- The loop at this point comes to no undefined step. -/
def StaysInside (truncateOnFailure : Bool) (start : World) (loop : StorageWalReplay) : Prop :=
  ¬(system true).Faults (Program.iterate (storageWalReplayRound truncateOnFailure) loop)
    { start with disk := start.disk.seek loop.fileOffset }

theorem StaysInside.inBounds {entry : StorageWalEntry}
    (hinside : StaysInside truncateOnFailure start loop)
    (hcontent : start.disk.bytes = recordsImage records ++ tail)
    (hintact : ∀ record ∈ records, Intact record)
    (hreplaying : Replaying .any records (record :: rest) entries loop)
    (hentry : recordEntry record = some entry) :
    entry.data.InBounds loop.state.accountList.accounts.length := by
  by_contra houtside
  refine hinside (Faults.round (Faults.after
    (reaches_storageWalReplayRecord hcontent hintact hreplaying) ?_))
  exact (faults_storageWalReplayEntry hentry houtside).bind _

theorem StaysInside.passes {entry : StorageWalEntry}
    (hinside : StaysInside truncateOnFailure start loop)
    (hcontent : start.disk.bytes = recordsImage records ++ tail)
    (hintact : ∀ record ∈ records, Intact record) (hlimit : records.length < 2 ^ 63)
    (hreplaying : Replaying .any records (record :: rest) entries loop)
    (hentry : recordEntry record = some entry)
    (hbounds : entry.data.InBounds loop.state.accountList.accounts.length) :
    ∃ entries' loop', Replaying .any records rest entries' loop' ∧
      StaysInside truncateOnFailure start loop' := by
  obtain ⟨entries', loop', hreplaying', hpasses⟩ :=
    returns_storageWalReplayRecord start hintact hlimit hreplaying hentry hbounds
  refine ⟨entries', loop', hreplaying', fun hfaults => hinside ?_⟩
  refine Faults.again ?_ hfaults
  exact (reaches_storageWalReplayRecord hcontent hintact hreplaying).trans hpasses

end Rounds

/-- Replay that comes to no undefined step finds all accounts that the records of
its file name. -/
theorem named_of_inside {records : List (List U8)} {tail : List U8}
    (hintact : ∀ record ∈ records, Intact record) (hlimit : records.length < 2 ^ 63)
    (hinside : ∀ world', ¬ReplayReaches truncateOnFailure (recordsImage records ++ tail) .fault
      world') : Named records := by
  let state : State := { accountList := .empty }
  let loop : StorageWalReplay :=
    { state, transactions := 0, fileOffset := storageWalHeaderLength }
  let start : World := { disk := ⟨some (recordsImage records ++ tail), 0, 0⟩ }
  have hloop : StaysInside truncateOnFailure start loop := by
    intro hfaults
    have hseek : (system true).Returns (storageWalSeek storageWalHeaderLength .start) start .none
        { start with disk := start.disk.seek storageWalHeaderLength } :=
      .bind (returns_perform.mpr ⟨true, rfl⟩) (.pure _ _)
    have hreplay : (system true).Faults
        (storageWalReplay storageWalEmpty state truncateOnFailure) start := by
      refine Faults.after (Reaches.bind hseek _) ?_
      exact hfaults.bind _
    obtain ⟨world', hfault⟩ := hreplay
    exact hinside world' ⟨true, storageWalEmpty, state, start, rfl, rfl, hfault⟩
  have hreplaying : Replaying .any records records [] loop :=
    ⟨⟨[], rfl, rfl⟩, rfl, by simp [loop], .nil⟩
  have hcontent : start.disk.bytes = recordsImage records ++ tail := rfl
  refine named_of_passing ?_ ?_ hreplaying hloop
  · intro record rest entries loop entry hreplaying hstays hentry
    exact hstays.inBounds hcontent hintact hreplaying hentry
  · intro record rest entries loop entry hreplaying hstays hentry hbounds
    exact hstays.passes hcontent hintact hlimit hreplaying hentry hbounds

/-- Replay stays within the account list exactly when every record that it comes
to, up to the first of unknown type, names accounts that earlier records open. -/
theorem replay_inBounds_iff {content : List U8}
    (hlimit : (storageWalHeader ++ content).length ≤ Disk.offsetMax) :
    ReplaysInBounds truncateOnFailure content ↔
      ∀ records, Longest Intact records content → Named records := by
  obtain ⟨records, hlongest⟩ := exists_longest_intact content
  obtain ⟨tail, rfl, hintact, hstuck⟩ := longest_intact_iff.mp hlongest
  have himage : storageWalHeader ++ (records.flatten ++ tail) = recordsImage records ++ tail := by
    simp [recordsImage]
  have hfew := length_lt_of_recordsImage hintact (himage ▸ hlimit)
  constructor
  · intro hinBounds records' hlongest'
    obtain rfl := longest_intact_unique hlongest hlongest'
    exact named_of_inside hintact hfew (himage ▸ hinBounds.inside)
  · intro hnamed
    have hmeets {rest : Proc (Error × StorageWal × State)} {world' : World}
        (hreaches : ReplayReaches truncateOnFailure
          (storageWalHeader ++ (records.flatten ++ tail)) rest world') :
        ∃ reliable, Meets reliable (fun _ => True) (fun _ _ => True) rest world' := by
      obtain ⟨reliable, storageWal, state, world, hempty, hfile, hreach⟩ := hreaches
      have hreplay : Meets reliable (fun _ => True) (fun _ _ => True)
          (storageWalReplay storageWal state truncateOnFailure) world := by
        apply MeetsBy.meets
        refine storageWalReplay_records_spec (himage ▸ hfile) hintact hstuck
          (hnamed records hlongest) hfew hempty ?_ ?_ ?_
        all_goals intros; trivial
      exact ⟨reliable, hreplay.reaches hreach⟩
    refine ⟨?_, ?_, ?_, fun _ _ _ => hnamed⟩
    · intro state fromId toId amount rest world' hreaches
      obtain ⟨_, htriple⟩ := hmeets hreaches
      by_contra hslots
      exact htriple.not_faults ((faults_stateMakeTransfer hslots).bind rest)
    · intro state accountId flags rest world' hreaches
      obtain ⟨_, htriple⟩ := hmeets hreaches
      by_contra hslot
      exact htriple.not_faults ((faults_stateUpdateAccount hslot).bind rest)
    · intro world' hreaches
      obtain ⟨_, htriple⟩ := hmeets hreaches
      exact htriple.not_faults ⟨world', .refl⟩

/-- An entry that changes the flags of the first account. -/
def updatingEntry : StorageWalEntry := { id := 1, timestamp := 2, data := .updateAccount 0 4 }

/-- The log that opens an account and changes its flags is replayed within bounds. -/
theorem replay_inBounds_iff_opened : ReplaysInBounds false
    ([openingEntry, updatingEntry].map StorageWalEntry.safe).flatten := by
  refine (replay_inBounds_iff (by decide)).mpr ?_
  intro records hlongest
  have hadmitted : Ledger.WellNamed U64
      (([] ++ [openingEntry.posting]) ++ [updatingEntry.posting]) :=
    (Ledger.Admitted.nil.concat trivial).concat Nat.zero_lt_one
  obtain rfl := longest_intact_unique hlongest (longest_safe [openingEntry, updatingEntry])
  exact named_safe hadmitted

/-- When the first record of that log is lost, replay writes to an account that
does not exist, with the flag and without. -/
theorem replay_outside_bounds : ¬ReplaysInBounds true updatingEntry.safe ∧
    ¬ReplaysInBounds false updatingEntry.safe := by
  have hintact : ∀ record ∈ [updatingEntry.safe], Intact record := by
    simpa using intact_safe updatingEntry
  have himage : recordsImage [updatingEntry.safe] ++ [] =
      storageWalHeader ++ updatingEntry.safe := by
    simp [recordsImage]
  have houtside (truncateOnFailure : Bool) :
      ¬ReplaysInBounds truncateOnFailure updatingEntry.safe := by
    intro hinBounds
    have hnamed := named_of_inside hintact (by decide) (himage ▸ hinBounds.inside)
    have hslot := hnamed [] updatingEntry.safe [] [] updatingEntry rfl rfl
      (recordEntry_safe updatingEntry)
    exact Nat.not_lt_zero _ hslot
  exact ⟨houtside true, houtside false⟩

end LetDX.LetDB
