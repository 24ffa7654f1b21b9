import LetDX.LetDB.Storage.Replay

/-! # Replay keeps the longest intact prefix

Behind a valid header a file may hold anything. Replay that succeeds has kept
the longest run of intact records and nothing else, and it changes nothing when
it is repeated.
-/

namespace LetDX.LetDB

open Bytes Durable Effects

theorem longest_intact_iff {records : List (List U8)} {content : List U8} :
    Longest Intact records content ↔ ∃ tail, content = records.flatten ++ tail ∧
      (∀ record ∈ records, Intact record) ∧ ¬Intact (tail.take storageWalEntrySafeSize) :=
  longest_iff (fun _ => intact_length) (by decide)

/-- Every content starts with a longest run of intact records. -/
theorem exists_longest_intact (content : List U8) :
    ∃ records, Longest Intact records content :=
  exists_longest (fun _ => intact_length) (by decide) content

theorem longest_intact_unique {records records' : List (List U8)} {content : List U8}
    (hlongest : Longest Intact records content) (hlongest' : Longest Intact records' content) :
    records = records' :=
  hlongest.eq (fun _ => intact_length) (by decide) hlongest'

/-- The records of a log that the server has written. -/
theorem longest_safe (entries : List StorageWalEntry) : Longest Intact
    (entries.map StorageWalEntry.safe) (entries.map StorageWalEntry.safe).flatten := by
  refine longest_intact_iff.mpr ⟨[], by simp, ?_, not_intact_take (by decide)⟩
  intro record hrecord
  obtain ⟨entry, _, rfl⟩ := List.mem_map.mp hrecord
  exact intact_safe entry

theorem storageWalImage_injective {entries entries' : List StorageWalEntry}
    (hsame : storageWalImage entries = storageWalImage entries') : entries = entries' := by
  have hflatten := List.append_cancel_left hsame
  have hrecords := longest_intact_unique (longest_safe entries) (hflatten ▸ longest_safe entries')
  exact (known_safe entries).eq (hrecords ▸ known_safe entries')

theorem length_lt_of_recordsImage {records : List (List U8)} {tail : List U8}
    (hintact : ∀ record ∈ records, Intact record)
    (hlimit : (recordsImage records ++ tail).length ≤ Disk.offsetMax) :
    records.length < 2 ^ 63 := by
  rw [List.length_append, length_recordsImage hintact, storageWalEntrySafeSize,
    Disk.offsetMax] at hlimit
  omega

/-- On the reliable system replay accepts a file of named records of known types
if nothing follows them or it may cut off what does. -/
theorem storageWalReplay_accepted_spec {records : List (List U8)} {entries : List StorageWalEntry}
    {tail : List U8} {world : World} {state : State} {storageWal : StorageWal}
    {truncateOnFailure : Bool} {clock : Clock} {during : Disk → Prop}
    (hfile : world.disk.file = some (recordsImage records ++ tail))
    (hintact : ∀ record ∈ records, Intact record)
    (hstuck : ¬Intact (tail.take storageWalEntrySafeSize)) (hknown : Known records entries)
    (hnamed : Named records) (hwhole : truncateOnFailure = true ∨ tail = [])
    (hlimit : records.length < 2 ^ 63) (hempty : state.accountList.accounts = [])
    (hduring : ∀ disk, Trimmed truncateOnFailure records tail world.disk disk → during disk) :
    MeetsBy clock true during
      (fun result _ => result.1 = .none ∧
        result.2.1.transactions = BitVec.ofNat 64 records.length ∧
        Applied clock entries result.2.2.accountList.accounts)
      (storageWalReplay storageWal state truncateOnFailure) world := by
  refine storageWalReplay_records_spec hfile hintact hstuck hnamed hlimit hempty hduring ?_ ?_
  · intro _ entries' state' disk hknown' happlied _ _ _
    rw [hknown.eq hknown']
    exact ⟨rfl, rfl, happlied⟩
  · rintro (hunreliable | ⟨hkeeps, htorn⟩ | ⟨record, hrecord, hunknown⟩)
    · nomatch hunreliable
    · rcases hwhole with htruncates | hnil
      · rw [hkeeps] at htruncates
        nomatch htruncates
      · exact (htorn hnil).elim
    · obtain ⟨entry, _, hentry⟩ := hknown.exists_entry hrecord
      rw [hunknown] at hentry
      nomatch hentry

/-- Replaying a file of whole records of known types succeeds and leaves the
file as it is. -/
theorem storageWalReplay_whole_spec {records : List (List U8)} {entries : List StorageWalEntry}
    {world : World} {state : State} {storageWal : StorageWal} {truncateOnFailure : Bool}
    (hfile : world.disk.file = some (recordsImage records))
    (hintact : ∀ record ∈ records, Intact record) (hknown : Known records entries)
    (hnamed : Named records) (hlimit : records.length < 2 ^ 63)
    (hempty : state.accountList.accounts = []) :
    Meets true (fun disk => disk.file = some (recordsImage records))
      (fun result _ => result.1 = .none ∧
        result.2.1.transactions = BitVec.ofNat 64 records.length ∧
        ledgerOf result.2.2.accountList.accounts =
          Ledger.balance (entries.map StorageWalEntry.posting))
      (storageWalReplay storageWal state truncateOnFailure) world := by
  have hwhole : world.disk.file = some (recordsImage records ++ []) := by rwa [List.append_nil]
  have hkeeps (disk : Disk) (htrimmed : Trimmed truncateOnFailure records [] world.disk disk) :
      disk.file = some (recordsImage records) := by
    cases htrimmed with
    | moved offset => exact hfile
    | cut _ torn _ => exact (torn rfl).elim
  refine (MeetsBy.meets (storageWalReplay_accepted_spec hwhole hintact
    (not_intact_take (by decide)) hknown hnamed (.inr rfl) hlimit hempty hkeeps)).weaken ?_
  rintro result _ ⟨hnone, htransactions, happlied⟩
  exact ⟨hnone, htransactions, happlied.ledger⟩

/-- Without the flag the file never changes, and success means that it was whole.
With it, success leaves the header and the longest intact prefix, with the
cursor behind it and its records applied, and a second replay finds the same. -/
theorem replay_keeps_longest {content : List U8} {records : List (List U8)}
    (hlongest : Longest Intact records content) (hnamed : Named records) {world : World}
    (hfile : world.disk.file = some (storageWalHeader ++ content))
    (hlimit : (storageWalHeader ++ content).length ≤ Disk.offsetMax) {state : State}
    (hempty : state.accountList.accounts = []) (storageWal : StorageWal)
    (truncateOnFailure : Bool) :
    Meets true (fun disk => truncateOnFailure = false → disk.file = world.disk.file)
      (fun result world' => result.1 = .none →
        (truncateOnFailure = false → content = records.flatten) ∧
        (∃ entries, Known records entries ∧
          Applied .any entries result.2.2.accountList.accounts) ∧
        world'.disk.file = some (storageWalHeader ++ records.flatten) ∧
        world'.disk.cursor = (storageWalHeader ++ records.flatten).length ∧
        result.2.1.transactions.toNat = records.length ∧
        ∀ (again : Bool) (storageWal' : StorageWal) (state' : State) (check : World),
          state'.accountList.accounts = [] → check.disk.file = world'.disk.file →
          Meets true (fun disk => disk.file = world'.disk.file)
            (fun result' _ => result'.1 = .none ∧
              result'.2.1.transactions = result.2.1.transactions ∧
              ledgerOf result'.2.2.accountList.accounts =
                ledgerOf result.2.2.accountList.accounts)
            (storageWalReplay storageWal' state' again) check)
      (storageWalReplay storageWal state truncateOnFailure) world := by
  obtain ⟨tail, rfl, hintact, hstuck⟩ := longest_intact_iff.mp hlongest
  have hrecords : storageWalHeader ++ (records.flatten ++ tail) = recordsImage records ++ tail := by
    simp [recordsImage]
  rw [hrecords] at hfile hlimit
  have hfew := length_lt_of_recordsImage hintact hlimit
  apply MeetsBy.meets
  refine storageWalReplay_records_spec hfile hintact hstuck hnamed hfew hempty ?_ ?_ ?_
  -- Without the flag nothing is cut off.
  · intro disk htrimmed hkeeps
    cases htrimmed with
    | moved offset => rfl
    | cut truncates _ _ =>
        rw [hkeeps] at truncates
        cases truncates
  · intro hwhole entries state' disk hknown happlied htrimmed hkept hcursor _
    refine ⟨?_, ⟨entries, hknown, happlied⟩, hkept, hcursor, ?_, ?_⟩
    · intro hkeeps
      rcases hwhole with htruncates | rfl
      · rw [hkeeps] at htruncates
        cases htruncates
      · simp
    · rw [BitVec.toNat_ofNat]
      omega
    -- What is left is a whole file, whose replay neither cuts nor fails.
    · intro again storageWal' state'' check hempty' hcheck
      rw [happlied.ledger]
      change Meets true (fun disk' => disk'.file = disk.file) _ _ check
      rw [hkept]
      exact storageWalReplay_whole_spec (hcheck.trans hkept) hintact hknown hnamed hfew hempty'
  · intro _ error storageWal' state' disk herror _ hnone
    subst hnone
    cases herror

/-- An entry that opens an account. -/
def openingEntry : StorageWalEntry := { id := 0, timestamp := 1, data := .addAccount 3 9 7 }

/-- A file with one record and a torn one. -/
def tornWorld : World :=
  { disk := ⟨some (storageWalHeader ++ (openingEntry.safe ++ [1, 0])), 0, 0⟩ }

/-- The torn record is cut off whenever replay with the flag succeeds. -/
theorem replay_keeps_longest_torn :
    Meets true (fun disk => true = false → disk.file = tornWorld.disk.file)
      (fun result world' => result.1 = .none →
        world'.disk.file = some (storageWalHeader ++ openingEntry.safe) ∧
        result.2.1.transactions.toNat = 1)
      (storageWalReplay storageWalEmpty { accountList := .empty } true) tornWorld := by
  have hadmitted : Ledger.WellNamed U64 ([openingEntry].map StorageWalEntry.posting) :=
    .concat .nil trivial
  have hnamed : Named [openingEntry.safe] := named_safe hadmitted
  have hlongest : Longest Intact [openingEntry.safe] (openingEntry.safe ++ [1, 0]) := by
    refine longest_intact_iff.mpr ⟨[1, 0], by simp, ?_, not_intact_take (by decide)⟩
    simpa using intact_safe openingEntry
  refine (replay_keeps_longest hlongest hnamed rfl ?_ rfl storageWalEmpty true).weaken ?_
  · simp [storageWalEntrySafeSize, storageWalHeaderLength, Disk.offsetMax]
  · intro result world' hkept hnone
    obtain ⟨_, _, hfile, _, htransactions, _⟩ := hkept hnone
    refine ⟨?_, htransactions⟩
    rw [hfile, List.flatten_singleton]

end LetDX.LetDB
