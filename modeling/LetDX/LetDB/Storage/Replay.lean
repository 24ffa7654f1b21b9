import LetDX.LetDB.Storage.Records

/-! # Replay rebuilds the accounts of the records

Whatever the file calls do, replay leaves the records at the start of the file
alone. When it succeeds, the account list is what exactly these records make, in
order, and the counter of transactions is their number. Only what follows the
records may be cut off.
-/

namespace LetDX.LetDB

open Bytes Durable Effects

/-- The file with these records. -/
def recordsImage (records : List (List U8)) : List U8 :=
  storageWalHeader ++ records.flatten

/-- A disk after the cursor has moved, and possibly after what follows the
records was cut off. -/
inductive Trimmed (truncateOnFailure : Bool) (records : List (List U8)) (tail : List U8)
    (disk : Disk) : Disk → Prop
  | moved (offset : Nat) : Trimmed truncateOnFailure records tail disk (disk.seek offset)
  | cut (truncates : truncateOnFailure = true) (torn : tail ≠ []) (offset : Nat) :
      Trimmed truncateOnFailure records tail disk
        ((disk.truncate (recordsImage records).length).seek offset)

/-- What may keep replay from succeeding. -/
def Obstructed (reliable truncateOnFailure : Bool) (records : List (List U8)) (tail : List U8) :
    Prop :=
  reliable = false ∨ (truncateOnFailure = false ∧ tail ≠ []) ∨
    ∃ record ∈ records, recordEntry record = none

/-- The variables of the loop once the entries of all records but the rest are
replayed. -/
structure Replaying (clock : Clock) (records rest : List (List U8))
    (entries : List StorageWalEntry) (loop : StorageWalReplay) : Prop where
  known : ∃ before, records = before ++ rest ∧ Known before entries
  transactions : loop.transactions = BitVec.ofNat 64 entries.length
  fileOffset : loop.fileOffset = storageWalHeaderLength + entries.length * storageWalEntrySafeSize
  applied : Applied clock entries loop.state.accountList.accounts

/-- The loop was left with an error, or after a `read` that failed. -/
def StorageWalReplayExit.Fails (exit : StorageWalReplayExit) : Prop :=
  exit = .stopped none ∨ ∃ error, errorExists error ∧ exit = .returned error

/-- How the loop ends: in a failure, or before a tail too short for a record, or
once a tail was cut off. -/
inductive ReplayStops (clock : Clock) (reliable truncateOnFailure : Bool)
    (records : List (List U8)) (tail : List U8) (start : World) :
    StorageWalReplay × StorageWalReplayExit → World → Prop
  | failed {loop : StorageWalReplay} {exit : StorageWalReplayExit} {offset : Nat}
      (obstructed : Obstructed reliable truncateOnFailure records tail)
      (fails : exit.Fails) :
      ReplayStops clock reliable truncateOnFailure records tail start (loop, exit)
        { start with disk := start.disk.seek offset }
  | short {loop : StorageWalReplay} {entries : List StorageWalEntry} {offset : Nat}
      (replayed : Replaying clock records [] entries loop)
      (short : tail.length < storageWalEntrySafeSize) :
      ReplayStops clock reliable truncateOnFailure records tail start
        (loop, .stopped (some tail.length)) { start with disk := start.disk.seek offset }
  | cut {loop : StorageWalReplay} {entries : List StorageWalEntry} {offset : Nat}
      (replayed : Replaying clock records [] entries loop)
      (truncates : truncateOnFailure = true) (torn : tail ≠ []) :
      ReplayStops clock reliable truncateOnFailure records tail start
        (loop, .stopped (some storageWalEntrySafeSize))
        { start with disk := (start.disk.truncate (recordsImage records).length).seek offset }

theorem framed_of_intact {records : List (List U8)} (hintact : ∀ record ∈ records, Intact record) :
    Framed storageWalEntrySafeSize records :=
  fun record hrecord => intact_length (hintact record hrecord)

theorem length_recordsImage {records : List (List U8)}
    (hintact : ∀ record ∈ records, Intact record) : (recordsImage records).length =
      storageWalHeaderLength + records.length * storageWalEntrySafeSize := by
  rw [recordsImage, List.length_append, length_storageWalHeader,
    (framed_of_intact hintact).length_flatten]

/-- What is there after some of the records. -/
theorem drop_recordsImage {before : List (List U8)} (hintact : ∀ record ∈ before, Intact record)
    (rest : List (List U8)) (tail : List U8) :
    (recordsImage (before ++ rest) ++ tail).drop
      (storageWalHeaderLength + before.length * storageWalEntrySafeSize) =
        rest.flatten ++ tail := by
  have hsplit : recordsImage (before ++ rest) ++ tail =
      recordsImage before ++ (rest.flatten ++ tail) := by
    simp [recordsImage]
  rw [hsplit]
  exact List.drop_left' (length_recordsImage hintact)

/-- Cutting off what follows the records leaves the file of the records. -/
theorem truncate_recordsImage {records : List (List U8)} {tail : List U8} {disk : Disk}
    (hfile : disk.file = some (recordsImage records ++ tail)) :
    (disk.truncate (recordsImage records).length).file = some (recordsImage records) := by
  simp [Disk.truncate, Disk.bytes, hfile, List.takeD_eq_take]

/-- With no rest left, the entries are those of all records. -/
theorem Replaying.all {clock : Clock} {records : List (List U8)} {entries : List StorageWalEntry}
    {loop : StorageWalReplay} (hreplaying : Replaying clock records [] entries loop) :
    Known records entries := by
  obtain ⟨before, hsplit, hknown⟩ := hreplaying.known
  rwa [hsplit, List.append_nil]

/-- With no rest left, the loop stands behind the last record. -/
theorem Replaying.fileOffset_eq {clock : Clock} {records : List (List U8)}
    {entries : List StorageWalEntry} {loop : StorageWalReplay}
    (hreplaying : Replaying clock records [] entries loop)
    (hintact : ∀ record ∈ records, Intact record) :
    loop.fileOffset = (recordsImage records).length := by
  rw [hreplaying.fileOffset, length_recordsImage hintact, hreplaying.all.length]

/-- What the loop reads next is the first record of the rest. -/
theorem Replaying.peek {clock : Clock} {record : List U8} {records rest : List (List U8)}
    {tail : List U8} {entries : List StorageWalEntry} {loop : StorageWalReplay} {disk : Disk}
    (hreplaying : Replaying clock records (record :: rest) entries loop)
    (hcontent : disk.bytes = recordsImage records ++ tail)
    (hintact : ∀ record ∈ records, Intact record) :
    (disk.seek loop.fileOffset).peek storageWalEntrySafeSize = record := by
  obtain ⟨passed, rfl, hreplayed⟩ := hreplaying.known
  have hpassed : ∀ record ∈ passed, Intact record :=
    fun record hrecord => hintact record (List.mem_append_left _ hrecord)
  rw [Disk.peek, Disk.seek_bytes, Disk.seek_cursor, hcontent, hreplaying.fileOffset,
    hreplayed.length, drop_recordsImage hpassed, List.flatten_cons, List.append_assoc]
  exact List.take_left' (intact_length (hintact record (by simp)))

section Rules

variable {clock : Clock} {reliable : Bool} {during : Disk → Prop} {world : World}

theorem storageWalReplayEntry_spec {state : State} {record : List U8} {entry : StorageWalEntry}
    {post : Error × State → World → Prop} (hentry : recordEntry record = some entry)
    (hduring : during world.disk) (hlength : state.accountList.accounts.length < 2 ^ 63)
    (hbounds : entry.data.InBounds state.accountList.accounts.length)
    (happlied : ∀ now state', clock.shows now → state'.accountList.accounts =
      entry.data.apply entry.timestamp now state.accountList.accounts → post (.none, state') world)
    (hfailed : reliable = false → ∀ error state', errorExists error → post (error, state') world) :
    MeetsBy clock reliable during post
      (storageWalReplayEntry state (record.take storageWalEntrySize)) world := by
  obtain ⟨id, timestamp, data⟩ := entry
  obtain ⟨shown, _, hshown⟩ := clock.works
  rw [recordEntry] at hentry
  rw [storageWalReplayEntry, hentry]
  cases data with
  | addAccount credits debits flags =>
      refine .bind (Meets.clocked (stateAddAccount_spec hduring hlength ?_ ?_) clock)
      · intro state' haccounts
        exact .pure hduring (happlied shown state' hshown haccounts)
      · intro hunreliable
        exact .pure hduring (hfailed hunreliable _ _ rfl)
  | makeTransfer fromId toId amount =>
      have hslots : fromId.toNat < state.accountList.accounts.length ∧
          toId.toNat < state.accountList.accounts.length := hbounds
      refine .bind (Proc.time_clocked hduring fun now hshows hnow => ?_)
      by_cases hinvalid : now = Time.failed
      · rw [if_pos hinvalid]
        exact .pure hduring (hfailed (by cases reliable <;> simp_all) _ _ rfl)
      · rw [if_neg hinvalid, if_pos hslots]
        exact .pure hduring (happlied now _ hshows rfl)
  | updateAccount accountId flags =>
      apply Meets.clocked
      apply stateUpdateAccount_spec hduring hbounds
      intro state' haccounts
      exact happlied shown state' hshown haccounts

variable {records rest : List (List U8)} {tail : List U8} {start : World}
  {truncateOnFailure : Bool} {entries : List StorageWalEntry} {loop : StorageWalReplay}

/-- The rest of a round that has read a record. -/
def storageWalReplayRecord (loop : StorageWalReplay) (record : List U8) :
    Proc (StorageWalReplay ⊕ StorageWalReplay × StorageWalReplayExit) := do
  let fileOffset := loop.fileOffset + storageWalEntrySafeSize
  let (error, state) ← storageWalReplayEntry loop.state (record.take storageWalEntrySize)
  if errorExists error then return .inr ({ loop with state, fileOffset }, .returned error)
  else return .inl { state, transactions := loop.transactions + 1, fileOffset }

/-- The rest of a round that has read a record's length of something else. -/
def storageWalReplayTorn (truncateOnFailure : Bool) (loop : StorageWalReplay) :
    Proc (StorageWalReplay ⊕ StorageWalReplay × StorageWalReplayExit) := do
  if !truncateOnFailure then return .inr (loop, .returned (.storage .walChecksumMismatch))
  else
    let error ← storageWalTruncate loop.fileOffset
    if errorExists error then return .inr (loop, .returned error)
    else return .inr (loop, .stopped (some storageWalEntrySafeSize))

section Rounds

variable {record : List U8}
  {post : StorageWalReplay ⊕ StorageWalReplay × StorageWalReplayExit → World → Prop}

/-- A record of a type that is unknown ends the loop. -/
theorem storageWalReplayRecord_unknown_spec (hmem : record ∈ records)
    (hentry : recordEntry record = none) {offset : Nat} (hinstant : during (start.disk.seek offset))
    (hstop : ∀ result world', ReplayStops clock reliable truncateOnFailure records tail start
      result world' → result.2.Fails → post (.inr result) world') :
    MeetsBy clock reliable during post (storageWalReplayRecord loop record)
      { start with disk := start.disk.seek offset } := by
  have hunknown : Obstructed reliable truncateOnFailure records tail :=
    .inr (.inr ⟨record, hmem, hentry⟩)
  have hfails : StorageWalReplayExit.Fails (.returned (.storage .walInvalidEntryType)) :=
    .inr ⟨_, rfl, rfl⟩
  rw [recordEntry] at hentry
  rw [storageWalReplayRecord, storageWalReplayEntry, hentry]
  exact .bind (.pure hinstant (.pure hinstant (hstop _ _ (.failed hunknown hfails) hfails)))

theorem storageWalReplayRecord_spec {entry : StorageWalEntry}
    (hintact : ∀ record ∈ records, Intact record) (hlimit : records.length < 2 ^ 63)
    (hreplaying : Replaying clock records (record :: rest) entries loop)
    (hentry : recordEntry record = some entry)
    (hbounds : entry.data.InBounds loop.state.accountList.accounts.length)
    (hinstant : during (start.disk.seek (loop.fileOffset + storageWalEntrySafeSize)))
    (hnext : ∀ entries' loop', Replaying clock records rest entries' loop' →
      loop'.fileOffset = loop.fileOffset + storageWalEntrySafeSize →
      post (.inl loop') { start with disk := start.disk.seek loop'.fileOffset })
    (hstop : ∀ result world', ReplayStops clock reliable truncateOnFailure records tail start
      result world' → result.2.Fails → post (.inr result) world') :
    MeetsBy clock reliable during post (storageWalReplayRecord loop record)
      { start with disk := start.disk.seek (loop.fileOffset + storageWalEntrySafeSize) } := by
  obtain ⟨before, rfl, hknown⟩ := hreplaying.known
  have hbound := (hreplaying.applied.length_le.trans_eq hknown.length).trans_lt
    ((Nat.le_add_right before.length (record :: rest).length).trans_lt
      (List.length_append ▸ hlimit))
  refine .bind (storageWalReplayEntry_spec hentry hinstant hbound hbounds ?_ ?_)
  · intro now state' hshows haccounts
    refine .pure hinstant (hnext (entries ++ [entry]) _ ⟨⟨before ++ [record],
      by simp, known_append hknown (by simp [Known, hentry])⟩, ?_, ?_, ?_⟩ rfl)
    · rw [List.length_append, BitVec.ofNat_add, ← hreplaying.transactions]
      rfl
    · rw [List.length_append, List.length_singleton, Nat.succ_mul, ← Nat.add_assoc,
        ← hreplaying.fileOffset]
    · rw [haccounts]
      exact hreplaying.applied.concat entry hshows
  · intro hunreliable error state' herror
    have hexists : errorExists error = true := herror
    have hfails : StorageWalReplayExit.Fails (.returned error) := .inr ⟨error, hexists, rfl⟩
    simp only [hexists, if_true]
    exact .pure hinstant (hstop _ _ (.failed (.inl hunreliable) hfails) hfails)

theorem storageWalReplayTorn_spec (hintact : ∀ record ∈ records, Intact record)
    (hreplaying : Replaying clock records [] entries loop) (htorn : tail ≠ [])
    (hduring : ∀ disk, Trimmed truncateOnFailure records tail start.disk disk → during disk)
    (hstop : ∀ result world', ReplayStops clock reliable truncateOnFailure records tail start
      result world' → post (.inr result) world') (offset : Nat) :
    MeetsBy clock reliable during post (storageWalReplayTorn truncateOnFailure loop)
      { start with disk := start.disk.seek offset } := by
  have hinstant : during (start.disk.seek offset) := hduring _ (.moved offset)
  rw [storageWalReplayTorn]
  cases htruncates : truncateOnFailure with
  | false =>
      rw [if_pos (by rfl)]
      refine .pure hinstant (hstop _ _ (.failed ?_ ?_))
      · exact .inr (.inl ⟨htruncates, htorn⟩)
      · exact .inr ⟨.storage .walChecksumMismatch, rfl, rfl⟩
  | true =>
      rw [if_neg (by simp)]
      -- The loop stands where the tail begins, so that the cut leaves all records.
      have hkeep := hreplaying.fileOffset_eq hintact
      refine .bind (Meets.clocked (storageWalTruncate_spec hinstant ?_ ?_) clock)
      · intro hunreliable
        refine .pure hinstant (hstop _ _ (.failed (.inl hunreliable) ?_))
        exact .inr ⟨.storage .walTruncateFailed, rfl, rfl⟩
      · have hcut := hduring _ (.cut htruncates htorn offset)
        rw [← hkeep] at hcut
        refine ⟨hcut, .pure hcut (hstop _ _ ?_)⟩
        rw [hkeep]
        exact .cut hreplaying htruncates htorn

/-- A round replays the next record, or ends the loop. -/
theorem storageWalReplayRound_spec
    (hcontent : start.disk.bytes = recordsImage records ++ tail)
    (hintact : ∀ record ∈ records, Intact record)
    (hstuck : ¬Intact (tail.take storageWalEntrySafeSize)) (hlimit : records.length < 2 ^ 63)
    (hduring : ∀ disk, Trimmed truncateOnFailure records tail start.disk disk → during disk)
    (hreplaying : Replaying clock records rest entries loop)
    (hbounds : ∀ record rest' entry, rest = record :: rest' → recordEntry record = some entry →
      entry.data.InBounds loop.state.accountList.accounts.length)
    (hworld : world = { start with disk := start.disk.seek loop.fileOffset })
    (hnext : ∀ record rest' entries' loop', rest = record :: rest' →
      Replaying clock records rest' entries' loop' →
      loop'.fileOffset = loop.fileOffset + storageWalEntrySafeSize →
      post (.inl loop') { start with disk := start.disk.seek loop'.fileOffset })
    (hstop : ∀ result world', ReplayStops clock reliable truncateOnFailure records tail start
      result world' → rest = [] ∨ result.2.Fails → post (.inr result) world') :
    MeetsBy clock reliable during post (storageWalReplayRound truncateOnFailure loop) world := by
  have hmoved (offset : Nat) : during (start.disk.seek offset) := hduring _ (.moved offset)
  have hread : (world.disk.bytes.drop loop.fileOffset) = rest.flatten ++ tail := by
    obtain ⟨before, rfl, hknown⟩ := hreplaying.known
    rw [hworld, Disk.seek_bytes, hcontent, hreplaying.fileOffset, hknown.length]
    exact drop_recordsImage
      (fun record hrecord => hintact record (List.mem_append_left _ hrecord)) _ _
  have hcursor : world.disk.cursor = loop.fileOffset := by
    rw [hworld, Disk.seek_cursor]
  subst hworld
  refine .bind (Meets.clocked (Proc.read_spec (hmoved loop.fileOffset) ?_ ?_) clock)
  · intro hunreliable
    exact .pure (hmoved _) (hstop _ _ (.failed (.inl hunreliable) (.inl rfl)) (.inr (.inl rfl)))
  intro data hdata
  refine ⟨hmoved _, ?_⟩
  rw [Disk.peek, hcursor, hread] at hdata
  rw [hcursor, Disk.seek_seek]
  cases rest with
  | cons record rest =>
      have hmem : record ∈ records := by
        obtain ⟨before, rfl, _⟩ := hreplaying.known
        simp
      have hrecord : Intact record := hintact record hmem
      have hread : data = record := by
        rw [hdata, List.flatten_cons, List.append_assoc, List.take_left' (intact_length hrecord)]
      subst hread
      have hlength : data.length = storageWalEntrySafeSize := intact_length hrecord
      have hinstant := hmoved (loop.fileOffset + storageWalEntrySafeSize)
      have hfailed : ∀ result world', ReplayStops clock reliable truncateOnFailure records tail
          start result world' → result.2.Fails → post (.inr result) world' :=
        fun result world' hstops hfails => hstop result world' hstops (.inr hfails)
      simp only [hlength, ne_eq, not_true_eq_false, if_false]
      rw [if_neg (not_not.mpr hrecord.2)]
      cases hentry : recordEntry data with
      | none => exact storageWalReplayRecord_unknown_spec hmem hentry hinstant hfailed
      | some entry =>
          exact storageWalReplayRecord_spec hintact hlimit hreplaying hentry
            (hbounds data rest entry rfl hentry) hinstant
            (fun entries' loop' => hnext data rest entries' loop' rfl) hfailed
  | nil =>
      have hended : ∀ result world', ReplayStops clock reliable truncateOnFailure records tail
          start result world' → post (.inr result) world' :=
        fun result world' hstops => hstop result world' hstops (.inl rfl)
      rw [List.flatten_nil, List.nil_append] at hdata
      by_cases hshort : tail.length < storageWalEntrySafeSize
      · rw [List.take_of_length_le hshort.le] at hdata
        subst hdata
        simp only [hshort.ne, ne_eq, not_false_eq_true, if_true]
        exact .pure (hmoved _) (hended _ _ (.short hreplaying hshort))
      · have hlength : data.length = storageWalEntrySafeSize := by
          rw [hdata, List.length_take]
          omega
        have htorn : tail ≠ [] := by
          rintro rfl
          exact hshort (by decide)
        have hbroken : storageCrc32c (data.take storageWalEntrySize) ≠
            BitVec.ofNat 32 (readField data storageWalEntrySize 4) := by
          intro hchecked
          exact hstuck (hdata ▸ ⟨hlength, hchecked⟩)
        simp only [hlength, ne_eq, not_true_eq_false, if_false]
        rw [if_pos hbroken]
        exact storageWalReplayTorn_spec hintact hreplaying htorn hduring hended _

end Rounds

theorem storageWalReplayLoop_spec {post : StorageWalReplay × StorageWalReplayExit → World → Prop}
    (hcontent : start.disk.bytes = recordsImage records ++ tail)
    (hintact : ∀ record ∈ records, Intact record)
    (hstuck : ¬Intact (tail.take storageWalEntrySafeSize)) (hnamed : Named records)
    (hlimit : records.length < 2 ^ 63)
    (hduring : ∀ disk, Trimmed truncateOnFailure records tail start.disk disk → during disk)
    (hreplaying : Replaying clock records records [] loop)
    (hworld : world = { start with disk := start.disk.seek loop.fileOffset })
    (hstop : ∀ result world', ReplayStops clock reliable truncateOnFailure records tail start
      result world' → post result world') :
    MeetsBy clock reliable during post
      (Program.iterate (storageWalReplayRound truncateOnFailure) loop) world := by
  refine Machine.Ensures.iterate
    (fun loop world => ∃ rest entries, Replaying clock records rest entries loop ∧
      world = { start with disk := start.disk.seek loop.fileOffset })
    (fun loop _ => (recordsImage records).length - loop.fileOffset) ?_
    ⟨records, [], hreplaying, hworld⟩
  rintro loop world ⟨rest, entries, hreplaying, hworld⟩
  have hbounds (record : List U8) (rest' : List (List U8)) (entry : StorageWalEntry)
      (hrest : rest = record :: rest') (hentry : recordEntry record = some entry) :
      entry.data.InBounds loop.state.accountList.accounts.length := by
    obtain ⟨before, hsplit, hknown⟩ := hreplaying.known
    rw [hreplaying.applied.length]
    exact hnamed before record rest' entries entry (hrest ▸ hsplit) hknown hentry
  refine storageWalReplayRound_spec hcontent hintact hstuck hlimit hduring hreplaying hbounds
    hworld ?_ fun result world' hstops _ => hstop result world' hstops
  intro record rest' entries' loop' hrest hnext hadvanced
  refine ⟨⟨rest', entries', hnext, rfl⟩, ?_⟩
  -- The loop has not passed the last record, so the distance to it shrinks.
  obtain ⟨before, rfl, hknown⟩ := hreplaying.known
  subst hrest
  have hwithin := length_recordsImage hintact
  have hoffset := hreplaying.fileOffset
  rw [List.length_append, List.length_cons, ← hknown.length, Nat.add_mul,
    Nat.succ_mul] at hwithin
  have hsize : 0 < storageWalEntrySafeSize := by decide
  omega

/-- The end of a replay that has read the torn tail: nothing more to do, or the
tail is cut off, or it is an error. -/
theorem storageWalReplayTail_spec {post : Error → World → Prop} {offset : Nat}
    (hfile : start.disk.file = some (recordsImage records ++ tail))
    (hworld : world = { start with disk := start.disk.seek offset })
    (htail : tail.length < storageWalEntrySafeSize)
    (hduring : ∀ disk, Trimmed truncateOnFailure records tail start.disk disk → during disk)
    (hdone : (truncateOnFailure = true ∨ tail = []) → ∀ disk,
      Trimmed truncateOnFailure records tail start.disk disk →
      disk.file = some (recordsImage records) → disk.cursor = (recordsImage records).length →
      post .none { start with disk })
    (hfailed : Obstructed reliable truncateOnFailure records tail → ∀ error disk,
      errorExists error → Trimmed truncateOnFailure records tail start.disk disk →
      post error { start with disk }) :
    Meets reliable during post (storageWalReplayTail truncateOnFailure
      (recordsImage records).length (some tail.length)) world := by
  subst hworld
  have hmoved (offset : Nat) := hduring _ (.moved offset)
  simp only [storageWalReplayTail]
  cases tail with
  | nil =>
      rw [List.append_nil] at hfile
      rw [if_neg (by simp)]
      have hend : start.disk.bytes.length = (recordsImage records).length := by
        rw [Disk.bytes, hfile, Option.getD_some]
      refine storageWalSeek_end_spec (hmoved offset) ?_ ⟨hmoved _, ?_⟩
      · intro hunreliable
        exact hfailed (.inl hunreliable) _ _ rfl (.moved offset)
      · exact hdone (.inr rfl) _ (.moved _) hfile hend
  | cons byte torn =>
      rw [if_pos ⟨by simp, htail⟩]
      cases truncateOnFailure with
      | false =>
          rw [if_pos (by rfl)]
          exact .pure (hmoved offset) (hfailed (.inr (.inl ⟨rfl, by simp⟩)) _ _ rfl (.moved offset))
      | true =>
          have hcut (offset : Nat) : Trimmed true records (byte :: torn) start.disk
              ((start.disk.truncate (recordsImage records).length).seek offset) :=
            .cut rfl (by simp) offset
          have hkept := truncate_recordsImage hfile
          rw [if_neg (by simp)]
          refine .bind (storageWalTruncate_spec (hmoved offset) ?_ ⟨hduring _ (hcut offset), ?_⟩)
          · intro hunreliable
            exact .pure (hmoved offset)
              (hfailed (.inl hunreliable) _ _ rfl (.moved offset))
          · refine storageWalSeek_end_spec (hduring _ (hcut offset)) ?_ ⟨hduring _ (hcut _), ?_⟩
            · intro hunreliable
              exact hfailed (.inl hunreliable) _ _ rfl (hcut offset)
            · refine hdone (.inl rfl) _ (hcut _) hkept ?_
              change (start.disk.truncate (recordsImage records).length).bytes.length = _
              rw [Disk.bytes, hkept, Option.getD_some]

/-- Replaying a file into an empty account list. -/
theorem storageWalReplay_records_spec {state : State} {storageWal : StorageWal}
    {post : Error × StorageWal × State → World → Prop}
    (hfile : world.disk.file = some (recordsImage records ++ tail))
    (hintact : ∀ record ∈ records, Intact record)
    (hstuck : ¬Intact (tail.take storageWalEntrySafeSize)) (hnamed : Named records)
    (hlimit : records.length < 2 ^ 63) (hempty : state.accountList.accounts = [])
    (hduring : ∀ disk, Trimmed truncateOnFailure records tail world.disk disk → during disk)
    (hrebuilt : (truncateOnFailure = true ∨ tail = []) → ∀ entries state' disk,
      Known records entries → Applied clock entries state'.accountList.accounts →
      Trimmed truncateOnFailure records tail world.disk disk →
      disk.file = some (recordsImage records) → disk.cursor = (recordsImage records).length →
      post (.none, { storageWal with transactions := BitVec.ofNat 64 records.length }, state')
        { world with disk })
    (hfailed : Obstructed reliable truncateOnFailure records tail →
      ∀ error storageWal' state' disk, errorExists error →
      Trimmed truncateOnFailure records tail world.disk disk →
      post (error, storageWal', state') { world with disk }) :
    MeetsBy clock reliable during post (storageWalReplay storageWal state truncateOnFailure)
      world := by
  have hcontent : world.disk.bytes = recordsImage records ++ tail := by
    rw [Disk.bytes, hfile, Option.getD_some]
  have hmoved (offset : Nat) := hduring _ (.moved offset)
  refine .bind (Meets.clocked
    (storageWalSeek_start_spec (hmoved world.disk.cursor) ?_ ⟨hmoved _, ?_⟩) clock)
  · intro hunreliable
    exact .pure (hmoved world.disk.cursor)
      (hfailed (.inl hunreliable) _ _ _ _ rfl (.moved world.disk.cursor))
  have hreplaying : Replaying clock records records []
      { state, transactions := 0, fileOffset := storageWalHeaderLength } :=
    ⟨⟨[], rfl, rfl⟩, rfl, by simp, hempty ▸ .nil⟩
  refine .bind (storageWalReplayLoop_spec hcontent hintact hstuck hnamed hlimit hduring hreplaying
    rfl ?_)
  intro result world' hstops
  cases hstops with
  | @failed loop exit offset obstructed fails =>
      rcases fails with rfl | ⟨error, herror, rfl⟩
      · exact .bind (.pure (hmoved offset) (.pure (hmoved offset)
          (hfailed obstructed _ _ _ _ rfl (.moved offset))))
      · exact .pure (hmoved offset) (hfailed obstructed _ _ _ _ herror (.moved offset))
  | @short loop entries offset replayed short =>
      have hknown := replayed.all
      dsimp only
      rw [replayed.fileOffset_eq hintact, replayed.transactions, hknown.length]
      refine .bind (Meets.clocked (storageWalReplayTail_spec hfile rfl short hduring ?_ ?_) clock)
      · intro hwhole disk htrimmed hkept hcursor
        exact .pure (hduring _ htrimmed)
          (hrebuilt hwhole entries _ _ hknown replayed.applied htrimmed hkept hcursor)
      · intro hobstructed error disk herror htrimmed
        exact .pure (hduring _ htrimmed) (hfailed hobstructed _ _ _ _ herror htrimmed)
  | @cut loop entries offset replayed truncates torn =>
      have hknown := replayed.all
      have hcut (offset : Nat) : Trimmed truncateOnFailure records tail world.disk
          ((world.disk.truncate (recordsImage records).length).seek offset) :=
        .cut truncates torn offset
      have hkept := truncate_recordsImage hfile
      dsimp only
      rw [replayed.transactions, hknown.length]
      simp only [storageWalReplayTail]
      rw [if_neg (by decide)]
      refine .bind (Meets.clocked (storageWalSeek_end_spec (hduring _ (hcut offset)) ?_
        ⟨hduring _ (hcut _), ?_⟩) clock)
      · intro hunreliable
        exact .pure (hduring _ (hcut offset))
          (hfailed (.inl hunreliable) _ _ _ _ rfl (hcut offset))
      · refine .pure (hduring _ (hcut _))
          (hrebuilt (.inl truncates) entries _ _ hknown replayed.applied (hcut _) hkept ?_)
        change (world.disk.truncate (recordsImage records).length).bytes.length = _
        rw [Disk.bytes, hkept, Option.getD_some]

/-- Replaying a log that the server has written into an empty account list. -/
theorem storageWalReplay_spec {entries : List StorageWalEntry} {state : State}
    {storageWal : StorageWal} {synced cursor : Nat}
    {post : Error × StorageWal × State → World → Prop}
    (hdisk : world.disk = ⟨some (storageWalImage entries ++ tail), synced, cursor⟩)
    (hsynced : synced ≤ (storageWalImage entries ++ tail).length)
    (htail : tail.length < storageWalEntrySafeSize)
    (hnamed : Ledger.WellNamed U64 (entries.map StorageWalEntry.posting))
    (hlimit : entries.length < 2 ^ 63) (hempty : state.accountList.accounts = [])
    (hduring : ∀ offset, during (world.disk.seek offset))
    (hcut : ∀ offset,
      during ((logDisk entries (min synced (storageWalImage entries).length)).seek offset))
    (hrebuilt : tail = [] ∨ truncateOnFailure = true → ∀ state',
      Applied .any entries state'.accountList.accounts →
      post (.none, { storageWal with transactions := BitVec.ofNat 64 entries.length }, state')
        { world with disk := logDisk entries (min synced (storageWalImage entries).length) })
    (hfailed : reliable = false ∨ tail ≠ [] ∧ truncateOnFailure = false →
      ∀ error storageWal' state' offset, errorExists error →
        post (error, storageWal', state') { world with disk := world.disk.seek offset } ∧
        post (error, storageWal', state') { world with
          disk := (logDisk entries (min synced (storageWalImage entries).length)).seek offset }) :
    Meets reliable during post (storageWalReplay storageWal state truncateOnFailure) world := by
  have himage : recordsImage (entries.map StorageWalEntry.safe) = storageWalImage entries := rfl
  -- A log with its torn tail cut off is a log again.
  have hshort (offset : Nat) : (world.disk.truncate (storageWalImage entries).length).seek offset =
      (logDisk entries (min synced (storageWalImage entries).length)).seek offset := by
    rw [hdisk, Disk.truncate_mk (by simp), List.take_left]
    rfl
  have htrimmed {disk : Disk} (htrimmed : Trimmed truncateOnFailure
      (entries.map StorageWalEntry.safe) tail world.disk disk) :
      ∃ offset, disk = world.disk.seek offset ∨
        disk = (logDisk entries (min synced (storageWalImage entries).length)).seek offset := by
    cases htrimmed with
    | moved offset => exact ⟨offset, .inl rfl⟩
    | cut _ _ offset => exact ⟨offset, .inr (hshort offset)⟩
  apply MeetsBy.meets
  refine storageWalReplay_records_spec (hdisk ▸ rfl) ?_ (not_intact_take htail) (named_safe hnamed)
    (by simpa using hlimit) hempty ?_ ?_ ?_
  · intro record hrecord
    obtain ⟨entry, _, rfl⟩ := List.mem_map.mp hrecord
    exact intact_safe entry
  · intro disk hdisk'
    obtain ⟨offset, rfl | rfl⟩ := htrimmed hdisk'
    · exact hduring offset
    · exact hcut offset
  · intro hwhole entries' state' disk hknown happlied hdisk' hkept hcursor
    obtain rfl := hknown.eq (known_safe entries)
    have hend : disk = logDisk entries' (min synced (storageWalImage entries').length) := by
      obtain ⟨offset, rfl | rfl⟩ := htrimmed hdisk'
      · have hbytes : storageWalImage entries' ++ tail = storageWalImage entries' := by
          rw [hdisk] at hkept
          exact Option.some.inj hkept
        rw [hbytes] at hdisk hsynced
        rw [hdisk, Nat.min_eq_left hsynced]
        exact congrArg (Disk.mk _ _) hcursor
      · exact congrArg (Disk.mk _ _) hcursor
    rw [hend, List.length_map]
    exact hrebuilt hwhole.symm state' happlied
  · intro hobstructed error storageWal' state' disk herror hdisk'
    have hcause : reliable = false ∨ tail ≠ [] ∧ truncateOnFailure = false := by
      rcases hobstructed with hunreliable | ⟨hkeeps, htorn⟩ | ⟨record, hrecord, hunknown⟩
      · exact .inl hunreliable
      · exact .inr ⟨htorn, hkeeps⟩
      · obtain ⟨entry, _, rfl⟩ := List.mem_map.mp hrecord
        rw [recordEntry_safe] at hunknown
        nomatch hunknown
    obtain ⟨offset, rfl | rfl⟩ := htrimmed hdisk'
    · exact (hfailed hcause error storageWal' state' offset herror).1
    · exact (hfailed hcause error storageWal' state' offset herror).2

end Rules

end LetDX.LetDB
