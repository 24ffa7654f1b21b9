import LetDX.LetDB.Server.Agreement
import LetDX.LetDB.Storage.Acceptance

/-! # When replay does not depend on the clock

The creation and the flags of an account come from the log. The time of its last
change comes from the clock while a transfer is carried out, in the live server
and in replay alike, so a file with a transfer is not replayed to the same
accounts at different times.
-/

namespace LetDX.LetDB

open Bytes Durable Effects

/-! ## Entries that are carried out by the clock -/

def StorageWalEntryData.isTransfer : StorageWalEntryData → Bool
  | makeTransfer .. => true
  | addAccount .. | updateAccount .. => false

theorem apply_of_not_transfer {data : StorageWalEntryData} (hdata : data.isTransfer = false)
    (timestamp now now' : Time) (accounts : List Account) :
    data.apply timestamp now accounts = data.apply timestamp now' accounts := by
  cases data with
  | addAccount credits debits flags => rfl
  | makeTransfer fromId toId amount => nomatch hdata
  | updateAccount accountId flags => rfl

/-- Without transfers the entries alone make the accounts. -/
theorem Applied.eq_foldl {clock : Clock} {entries : List StorageWalEntry} {accounts : List Account}
    (happlied : Applied clock entries accounts)
    (hstill : ∀ entry ∈ entries, entry.data.isTransfer = false) :
    accounts = entries.foldl (fun accounts entry => entry.data.apply entry.timestamp 0 accounts)
      [] := by
  induction happlied with
  | nil => rfl
  | @concat entries accounts now _ entry _ ih =>
      have hbefore := ih fun entry hentry => hstill entry (List.mem_append_left _ hentry)
      rw [List.foldl_append, ← hbefore]
      exact apply_of_not_transfer (hstill entry (by simp)) _ _ _ _

/-- The account was last changed at this time. -/
def ChangedAt (now : Time) (index : Nat) (accounts : List Account) : Prop :=
  ∃ account, accounts[index]? = some account ∧ account.updatedAt = now

theorem changedAt_applyTransfer {accounts : List Account} {fromId toId index : Nat} {amount : U128}
    {now : Time} (hindex : index < accounts.length)
    (hnamed : index = fromId ∨ ChangedAt now index accounts) :
    ChangedAt now index (applyTransfer accounts fromId toId amount now) := by
  simp only [ChangedAt, applyTransfer, List.getElem?_modify, List.getElem?_eq_getElem hindex]
  refine ⟨_, rfl, ?_⟩
  rcases hnamed with rfl | ⟨account, haccount, hchanged⟩
  · by_cases hto : toId = index <;> simp [hto]
  · obtain rfl := Option.some.inj ((List.getElem?_eq_getElem hindex).symm.trans haccount)
    by_cases hfrom : fromId = index <;> by_cases hto : toId = index <;>
      simp [hfrom, hto, hchanged]

theorem ChangedAt.lt {now : Time} {index : Nat} {accounts : List Account}
    (hchanged : ChangedAt now index accounts) : index < accounts.length := by
  obtain ⟨account, haccount, _⟩ := hchanged
  exact (List.getElem?_eq_some_iff.mp haccount).1

/-- While the clock stands still, an account that was changed stays so. -/
theorem ChangedAt.apply {now : Time} {index : Nat} {accounts : List Account}
    (hchanged : ChangedAt now index accounts) (data : StorageWalEntryData) (timestamp : Time) :
    ChangedAt now index (data.apply timestamp now accounts) := by
  have hindex := hchanged.lt
  obtain ⟨account, haccount, hupdated⟩ := hchanged
  cases data with
  | addAccount credits debits flags =>
      exact ⟨account, (List.getElem?_append_left hindex).trans haccount, hupdated⟩
  | makeTransfer fromId toId amount =>
      exact changedAt_applyTransfer hindex (.inr ⟨account, haccount, hupdated⟩)
  | updateAccount accountId flags =>
      simp only [ChangedAt, StorageWalEntryData.apply, List.getElem?_modify, haccount]
      refine ⟨_, rfl, ?_⟩
      by_cases haccountId : accountId.toNat = index <;> simp [haccountId, hupdated]

/-- A transfer leaves its time in the account of the sender. -/
theorem Applied.changedAt {now : Time} {hnow : now ≠ Time.failed}
    {records : List (List U8)} {entries : List StorageWalEntry} {accounts : List Account}
    (happlied : Applied (.stopped now hnow) entries accounts) (hknown : Known records entries)
    (hnamed : Named records) {id : U64} {timestamp : Time} {fromId toId : U64} {amount : U128}
    (hentry : { id, timestamp, data := .makeTransfer fromId toId amount } ∈ entries) :
    ChangedAt now fromId.toNat accounts := by
  induction happlied generalizing records with
  | nil => nomatch hentry
  | @concat entries accounts shown applied entry shows ih =>
      obtain rfl : shown = now := shows
      obtain ⟨before, last, rfl, hbefore, hlast⟩ := List.map_eq_append_iff.mp
        (hknown.trans (List.map_append (f := some)))
      obtain ⟨record, rfl, hrecord⟩ := List.map_eq_singleton_iff.mp hlast
      rcases List.mem_append.mp hentry with hearlier | hnow
      · refine (ih hbefore ?_ hearlier).apply entry.data entry.timestamp
        intro first record' after known entry' hsplit
        exact hnamed first record' (after ++ [record]) known entry' (by simp [hsplit])
      · obtain rfl := List.mem_singleton.mp hnow
        have hbounds := hnamed before record [] entries _ rfl hbefore hrecord
        rw [← applied.length] at hbounds
        exact changedAt_applyTransfer hbounds.1 (.inl rfl)

/-! ## Replays of one file -/

/-- Some run of replay into an empty list accepts the file and makes these
accounts. -/
def Rebuilds (truncateOnFailure : Bool) (file : List U8) (accounts : List Account) : Prop :=
  ∃ reliable state storageWal state' world world', state.accountList.accounts = [] ∧
    world.disk.file = some file ∧ state'.accountList.accounts = accounts ∧
    (system reliable).Returns (storageWalReplay storageWalEmpty state truncateOnFailure) world
      (.none, storageWal, state') world'

/-- All replays of the file agree in every field, also with the server that has
this file and goes on. -/
structure Reproducible (truncateOnFailure : Bool) (file : List U8) : Prop where
  replayed : ∀ accounts accounts', Rebuilds truncateOnFailure file accounts →
    Rebuilds truncateOnFailure file accounts' → accounts = accounts'
  live : ∀ accounts point world, Rebuilds truncateOnFailure file accounts →
    Reachable point world → (∀ context, point ≠ .finished context) →
    world.disk.file = some file → point.context.state.accountList.accounts = accounts

/-- None of the intact records that the content starts with is a transfer. -/
def Transferless (content : List U8) : Prop :=
  ∀ records, Longest Intact records content → ∀ record ∈ records, ∀ entry,
    recordEntry record = some entry → entry.data.isTransfer = false

section Replays

variable {truncateOnFailure : Bool} {records : List (List U8)} {entries : List StorageWalEntry}
  {tail : List U8} {accounts : List Account}

/-- What an accepted file is, and how its accounts are made. -/
theorem Rebuilds.applied
    (hrebuilds : Rebuilds truncateOnFailure (recordsImage records ++ tail) accounts)
    (hintact : ∀ record ∈ records, Intact record)
    (hstuck : ¬Intact (tail.take storageWalEntrySafeSize)) (hlimit : records.length < 2 ^ 63) :
    Named records ∧ (truncateOnFailure = true ∨ tail = []) ∧
      ∃ entries, Known records entries ∧ Applied .any entries accounts := by
  obtain ⟨reliable, state, storageWal, state', world, world', hempty, hfile, haccounts, hreturns⟩ :=
    hrebuilds
  obtain ⟨hnamed, hwhole, _, entries, hknown, happlied⟩ :=
    replayed_of_accepted hfile hintact hstuck hlimit hempty hreturns
  exact ⟨hnamed, hwhole, entries, hknown, haccounts ▸ happlied⟩

/-- Replay can run under any clock. -/
theorem exists_rebuilds (truncateOnFailure : Bool) (hintact : ∀ record ∈ records, Intact record)
    (hstuck : ¬Intact (tail.take storageWalEntrySafeSize)) (hlimit : records.length < 2 ^ 63)
    (hnamed : Named records) (hwhole : truncateOnFailure = true ∨ tail = [])
    (hknown : Known records entries) (clock : Clock) :
    ∃ accounts, Applied clock entries accounts ∧
      Rebuilds truncateOnFailure (recordsImage records ++ tail) accounts := by
  have hmeets : MeetsBy clock true (fun _ => True) _
      (storageWalReplay storageWalEmpty { accountList := .empty } truncateOnFailure)
      { disk := ⟨some (recordsImage records ++ tail), 0, 0⟩ } :=
    storageWalReplay_accepted_spec rfl hintact hstuck hknown hnamed hwhole hlimit rfl
      fun _ _ => trivial
  obtain ⟨⟨error, storageWal, state'⟩, world', hreturns⟩ := hmeets.exists_returns
  obtain ⟨rfl, _, happlied⟩ := hmeets.returns hreturns
  exact ⟨state'.accountList.accounts, happlied, true, _, storageWal, state', _, world', rfl, rfl,
    rfl, returns_of_clocked hreturns⟩

/-- Two replays of a file with a transfer, at different times, disagree. -/
theorem not_reproducible_of_transfer (hintact : ∀ record ∈ records, Intact record)
    (hstuck : ¬Intact (tail.take storageWalEntrySafeSize)) (hlimit : records.length < 2 ^ 63)
    (hnamed : Named records) (hwhole : truncateOnFailure = true ∨ tail = [])
    (hknown : Known records entries) {entry : StorageWalEntry} (hentry : entry ∈ entries)
    (htransfer : entry.data.isTransfer = true) :
    ¬Reproducible truncateOnFailure (recordsImage records ++ tail) := by
  intro hreproducible
  obtain ⟨id, timestamp, data⟩ := entry
  cases data with
  | addAccount credits debits flags => nomatch htransfer
  | updateAccount accountId flags => nomatch htransfer
  | makeTransfer fromId toId amount =>
      have hfirst : (0 : Time) ≠ Time.failed := by decide
      have hsecond : (1 : Time) ≠ Time.failed := by decide
      obtain ⟨accounts, happlied, hrebuilds⟩ :=
        exists_rebuilds _ hintact hstuck hlimit hnamed hwhole hknown (.stopped 0 hfirst)
      obtain ⟨accounts', happlied', hrebuilds'⟩ :=
        exists_rebuilds _ hintact hstuck hlimit hnamed hwhole hknown (.stopped 1 hsecond)
      obtain rfl := hreproducible.replayed accounts accounts' hrebuilds hrebuilds'
      obtain ⟨account, haccount, hchanged⟩ := happlied.changedAt hknown hnamed hentry
      obtain ⟨account', haccount', hchanged'⟩ := happlied'.changedAt hknown hnamed hentry
      obtain rfl := Option.some.inj (haccount.symm.trans haccount')
      rw [hchanged] at hchanged'
      revert hchanged'
      decide

end Replays

/-! ## The live server -/

/-- At every program point at which the server goes on, the entries of the file
have made its accounts. -/
theorem Serves.rebuilt {headed careful : Bool} {past : List ServerHistory} {cli : Cli}
    {start world : World} {history : ServerHistory} {point : LetRun}
    (hserves : Serves careful cli start history point world)
    (hdisk : Recoverable headed past start.disk) (hrunning : ∀ context, point ≠ .finished context) :
    Rebuilt point.context.state world.disk := by
  induction hserves with
  | start started => exact ((letStart_spec hdisk).returns started _ rfl).2
  | @step history point point' world world' served stepped ih =>
      have hbefore : ∀ context, point ≠ .finished context := by
        rintro context rfl
        obtain ⟨rfl, _⟩ := Machine.returns_pure.mp stepped
        exact hrunning context rfl
      have hrebuilt := ih hbefore
      obtain ⟨entries, hagrees⟩ : ∃ entries, Agrees entries point.context world.disk := by
        cases served.holds hdisk with
        | running agrees _ _ => exact ⟨_, agrees⟩
        | finished => exact (hbefore _ rfl).elim
      rcases point.passing_or_processing with hpassing | ⟨context, request, rfl⟩
      · cases passed_of_returns hpassing stepped with
        | idle _ context disk => rwa [disk, context]
        | decoded disk => rwa [disk]
        | undecoded disk => rwa [disk]
      · cases processed_of_returns hagrees stepped with
        | @committed entry now context' requested limit accounts transactions =>
            obtain ⟨entries', hfile, happlied⟩ := hrebuilt
            -- The file has one log only, so the entries are those that the step extends.
            have hsame : storageWalImage entries' = storageWalImage entries := by
              rw [hagrees.disk_eq] at hfile
              exact (Option.some.inj hfile).symm
            obtain rfl := storageWalImage_injective hsame
            refine ⟨entries' ++ [entry], rfl, ?_⟩
            change Applied .any _ context'.state.accountList.accounts
            rw [accounts]
            exact happlied.concat entry trivial
        | answered inquiry => exact hrebuilt
        | refused action => exact hrebuilt
        | fatal action accounts appending sent => exact (hrunning _ rfl).elim

theorem Reachable.rebuilt {point : LetRun} {world : World} (hreachable : Reachable point world)
    (hrunning : ∀ context, point ≠ .finished context) :
    Rebuilt point.context.state world.disk := by
  obtain ⟨past, disk, cli, history, hlives, hserves⟩ := hreachable
  exact hserves.rebuilt (hlives.recoverable .initial) hrunning

/-- Replay of an accepted file depends neither on the clock nor on whether the
server is live, exactly when the file has no transfer. -/
theorem reproducible_iff {content : List U8} {truncateOnFailure : Bool}
    (haccepted : ∃ accounts, Rebuilds truncateOnFailure (storageWalHeader ++ content) accounts)
    (hlimit : (storageWalHeader ++ content).length ≤ Disk.offsetMax) :
    Reproducible truncateOnFailure (storageWalHeader ++ content) ↔ Transferless content := by
  obtain ⟨accounts₀, haccepted⟩ := haccepted
  obtain ⟨records, hlongest⟩ := exists_longest_intact content
  obtain ⟨tail, rfl, hintact, hstuck⟩ := longest_intact_iff.mp hlongest
  have himage : storageWalHeader ++ (records.flatten ++ tail) = recordsImage records ++ tail := by
    simp [recordsImage]
  rw [himage] at haccepted hlimit ⊢
  have hfew := length_lt_of_recordsImage hintact hlimit
  obtain ⟨hnamed, hwhole, entries, hknown, _⟩ := haccepted.applied hintact hstuck hfew
  constructor
  · intro hreproducible records' hlongest' record hrecord entry hentry
    obtain rfl := longest_intact_unique hlongest hlongest'
    obtain ⟨entry', hmem, hentry'⟩ := hknown.exists_entry hrecord
    obtain rfl := Option.some.inj (hentry.symm.trans hentry')
    -- A transfer takes the time of its replay, so two replays can be told apart.
    by_contra htransfer
    exact not_reproducible_of_transfer hintact hstuck hfew hnamed hwhole hknown hmem
      (by simpa using htransfer) hreproducible
  · intro htransferless
    have hstill : ∀ entry ∈ entries, entry.data.isTransfer = false := by
      intro entry hentry
      have hmem : some entry ∈ records.map recordEntry := hknown ▸ List.mem_map_of_mem hentry
      obtain ⟨record, hrecord, heq⟩ := List.mem_map.mp hmem
      exact htransferless records hlongest record hrecord entry heq
    have hmade (accounts : List Account)
        (hrebuilds : Rebuilds truncateOnFailure (recordsImage records ++ tail) accounts) :
        accounts = entries.foldl
          (fun accounts entry => entry.data.apply entry.timestamp 0 accounts) [] := by
      obtain ⟨_, _, entries', hknown', happlied⟩ := hrebuilds.applied hintact hstuck hfew
      obtain rfl := hknown.eq hknown'
      exact happlied.eq_foldl hstill
    refine ⟨?_, ?_⟩
    · intro accounts accounts' hrebuilds hrebuilds'
      rw [hmade accounts hrebuilds, hmade accounts' hrebuilds']
    · intro accounts point world hrebuilds hreachable hrunning hfile
      obtain ⟨entries', hlog, happlied⟩ := hreachable.rebuilt hrunning
      -- The file of the live server is the log that was replayed.
      have hcontent : records.flatten ++ tail = (entries'.map StorageWalEntry.safe).flatten := by
        rw [hfile, ← himage] at hlog
        exact List.append_cancel_left (Option.some.inj hlog)
      have hrecords := longest_intact_unique hlongest (hcontent ▸ longest_safe entries')
      obtain rfl := hknown.eq (hrecords ▸ known_safe entries')
      rw [hmade accounts hrebuilds]
      exact happlied.eq_foldl hstill

/-- Accounts 0 and 1 are opened and 5 is moved from the first to the second. -/
def transferEntries : List StorageWalEntry :=
  [openingEntry, { openingEntry with id := 1 },
    { id := 2, timestamp := 2, data := .makeTransfer 0 1 5 }]

theorem wellNamed_transferEntries :
    Ledger.WellNamed U64 (transferEntries.map StorageWalEntry.posting) := by
  have hopened : Ledger.WellNamed U64
      (([] ++ [openingEntry.posting]) ++ [{ openingEntry with id := 1 }.posting]) :=
    (Ledger.Admitted.nil.concat trivial).concat trivial
  exact hopened.concat ⟨by decide, by decide, by decide⟩

theorem not_intact_nil : ¬Intact (([] : List U8).take storageWalEntrySafeSize) :=
  not_intact_take (by decide)

theorem intact_records_safe (entries : List StorageWalEntry) :
    ∀ record ∈ entries.map StorageWalEntry.safe, Intact record :=
  (longest_safe entries).each

/-- A log of one opening is replayed to the same account at any time. -/
theorem reproducible_opening : Reproducible false (storageWalHeader ++
    ([openingEntry].map StorageWalEntry.safe).flatten) := by
  have hnamed : Ledger.WellNamed U64 ([openingEntry].map StorageWalEntry.posting) :=
    .concat .nil trivial
  obtain ⟨accounts, _, hrebuilds⟩ := exists_rebuilds false
    (intact_records_safe [openingEntry]) not_intact_nil (by decide) (named_safe hnamed) (.inr rfl)
    (known_safe [openingEntry]) .any
  rw [List.append_nil] at hrebuilds
  refine (reproducible_iff ⟨accounts, hrebuilds⟩ (by decide)).mpr ?_
  intro records hlongest record hrecord entry hentry
  obtain rfl := longest_intact_unique hlongest (longest_safe [openingEntry])
  obtain ⟨known, hknown, heq⟩ := (known_safe [openingEntry]).exists_entry hrecord
  obtain rfl := Option.some.inj (hentry.symm.trans heq)
  obtain rfl := List.mem_singleton.mp hknown
  rfl

/-- Replay accepts a log with a transfer, and its replays disagree. -/
theorem not_reproducible_transferEntries :
    (∃ accounts, Rebuilds false (storageWalImage transferEntries) accounts) ∧
      ¬Reproducible false (storageWalImage transferEntries) := by
  have hnamed := named_safe wellNamed_transferEntries
  have hintact := intact_records_safe transferEntries
  have himage : recordsImage (transferEntries.map StorageWalEntry.safe) ++ [] =
      storageWalImage transferEntries := List.append_nil _
  rw [← himage]
  constructor
  · obtain ⟨accounts, _, hrebuilds⟩ := exists_rebuilds false hintact not_intact_nil (by decide)
      hnamed (.inr rfl) (known_safe transferEntries) .any
    exact ⟨accounts, hrebuilds⟩
  · exact not_reproducible_of_transfer hintact not_intact_nil (by decide) hnamed (.inr rfl)
      (known_safe transferEntries) (List.getLast_mem (by decide)) rfl

end LetDX.LetDB
