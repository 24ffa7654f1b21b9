import LetDX.LetDB.Storage.Repair

/-! # What acceptance says about a file

Replay writes to the accounts that a record names without a bounds check. A run
that comes to its end without an error has therefore found every account that
the records name.
-/

namespace LetDX.LetDB

open Bytes Durable Effects Machine

variable {reliable truncateOnFailure : Bool} {world world' : World} {records rest : List (List U8)}
  {entries : List StorageWalEntry} {loop : StorageWalReplay} {tail : List U8} {start : World}

/-- An entry that was carried out names accounts that exist. -/
theorem inBounds_of_returns {state state' : State} {record : List U8} {entry : StorageWalEntry}
    {error : Error} (hentry : recordEntry record = some entry)
    (hreturns : (system reliable).Returns
      (storageWalReplayEntry state (record.take storageWalEntrySize)) world (error, state')
      world') :
    errorExists error ∨ entry.data.InBounds state.accountList.accounts.length := by
  obtain ⟨id, timestamp, data⟩ := entry
  rw [recordEntry] at hentry
  rw [storageWalReplayEntry, hentry] at hreturns
  cases data with
  | addAccount credits debits flags => exact .inr trivial
  | makeTransfer fromId toId amount =>
      obtain ⟨now, _, _, hrest⟩ := returns_bind.mp hreturns
      by_cases hinvalid : now = Time.failed
      · rw [if_pos hinvalid] at hrest
        obtain ⟨heq, _⟩ := returns_pure.mp hrest
        obtain ⟨rfl, _⟩ := Prod.mk.inj heq
        exact .inl rfl
      · rw [if_neg hinvalid] at hrest
        by_cases hslots : fromId.toNat < state.accountList.accounts.length ∧
            toId.toNat < state.accountList.accounts.length
        · exact .inr hslots
        · rw [if_neg hslots] at hrest
          cases (Prod.mk.inj (reaches_fault.mp hrest)).1
  | updateAccount accountId flags =>
      by_cases hslot : accountId.toNat < state.accountList.accounts.length
      · exact .inr hslot
      · dsimp only at hreturns
        rw [stateUpdateAccount, accountListUpdate, if_neg hslot] at hreturns
        cases (Prod.mk.inj (reaches_fault.mp hreturns)).1

/-- A round that goes on has found the accounts that its record names. -/
theorem inBounds_of_round {record : List U8} {entry : StorageWalEntry}
    {round : StorageWalReplay ⊕ StorageWalReplay × StorageWalReplayExit}
    (hread : (world.disk.peek storageWalEntrySafeSize) = record) (hintact : Intact record)
    (hentry : recordEntry record = some entry)
    (hreturns : (system reliable).Returns (storageWalReplayRound truncateOnFailure loop) world
      round world') :
    (∃ result, round = .inr result ∧ result.2.Fails) ∨
      entry.data.InBounds loop.state.accountList.accounts.length := by
  obtain ⟨data, middle, hdata, hrest⟩ := returns_bind.mp hreturns
  have hmeets : Meets reliable (fun _ => True) (fun data _ => data = none ∨ data = some record)
      (Proc.read storageWalEntrySafeSize) world := by
    refine Proc.read_spec trivial (fun _ => .inl rfl) ?_
    rintro data rfl
    exact ⟨trivial, .inr (congrArg some hread)⟩
  rcases hmeets.returns hdata with rfl | rfl
  · obtain ⟨rfl, _⟩ := returns_pure.mp hrest
    exact .inl ⟨_, rfl, .inl rfl⟩
  · have hlength := intact_length hintact
    simp only [hlength, ne_eq, not_true_eq_false, if_false] at hrest
    rw [if_neg (not_not.mpr hintact.2)] at hrest
    obtain ⟨⟨error, state⟩, _, hcarried, hrest⟩ := returns_bind.mp hrest
    rcases inBounds_of_returns hentry hcarried with hexists | hbounds
    · have herror : errorExists error = true := hexists
      simp only [herror, if_true] at hrest
      obtain ⟨rfl, _⟩ := returns_pure.mp hrest
      exact .inl ⟨_, rfl, .inr ⟨error, hexists, rfl⟩⟩
    · exact .inr hbounds

/-- What holds of the loop before the first record, goes over from each record to
the next, and lets a record name only accounts that exist, holds up to the end. -/
theorem named_of_passing {head : StorageWalReplay → Prop}
    (hbounds : ∀ record rest entries loop entry,
      Replaying .any records (record :: rest) entries loop → head loop →
      recordEntry record = some entry →
      entry.data.InBounds loop.state.accountList.accounts.length)
    (hpasses : ∀ record rest entries loop entry,
      Replaying .any records (record :: rest) entries loop → head loop →
      recordEntry record = some entry →
      entry.data.InBounds loop.state.accountList.accounts.length →
      ∃ entries' loop', Replaying .any records rest entries' loop' ∧ head loop')
    (hreplaying : Replaying .any records records [] loop) (hhead : head loop) :
    Named records := by
  have hcomes (before : List (List U8)) : ∀ rest known, records = before ++ rest →
      Known before known → ∃ entries loop, Replaying .any records rest entries loop ∧
        head loop := by
    induction before using List.reverseRecOn with
    | nil =>
        rintro rest known rfl _
        exact ⟨[], loop, hreplaying, hhead⟩
    | append_singleton before record ih =>
        intro rest known hsplit hknown
        obtain ⟨first, last, rfl, hfirst, _⟩ := List.append_eq_map_iff.mp
          (List.map_append.symm.trans hknown)
        rw [List.append_assoc, List.singleton_append] at hsplit
        obtain ⟨entries, loop, hreplaying, hhead⟩ := ih (record :: rest) first hsplit hfirst.symm
        have hlast : record ∈ before ++ [record] := by simp
        obtain ⟨entry, _, hentry⟩ := hknown.exists_entry hlast
        exact hpasses record rest entries loop entry hreplaying hhead hentry
          (hbounds record rest entries loop entry hreplaying hhead hentry)
  intro before record after known entry hsplit hknown hentry
  obtain ⟨entries, loop, hreplaying, hhead⟩ := hcomes before (record :: after) known hsplit hknown
  have hnames := hbounds record after entries loop entry hreplaying hhead hentry
  obtain ⟨passed, hpassed, hreplayed⟩ := hreplaying.known
  obtain rfl := List.append_cancel_right (hsplit.symm.trans hpassed)
  obtain rfl := hknown.eq hreplayed
  rwa [hreplaying.applied.length] at hnames

/-- The loop at this point comes to its end. -/
def EndsWell (reliable truncateOnFailure : Bool) (start : World) (loop : StorageWalReplay) : Prop :=
  ∃ loop' exit world', (system reliable).Returns
    (Program.iterate (storageWalReplayRound truncateOnFailure) loop)
    { start with disk := start.disk.seek loop.fileOffset } (loop', exit) world' ∧ ¬exit.Fails

/-- A loop that comes to its end finds the accounts that the next record names. -/
theorem EndsWell.inBounds {record : List U8} {entry : StorageWalEntry}
    (hends : EndsWell reliable truncateOnFailure start loop)
    (hcontent : start.disk.bytes = recordsImage records ++ tail)
    (hintact : ∀ record ∈ records, Intact record)
    (hreplaying : Replaying .any records (record :: rest) entries loop)
    (hentry : recordEntry record = some entry) :
    entry.data.InBounds loop.state.accountList.accounts.length := by
  obtain ⟨loop', exit, world', hreturns, hexit⟩ := hends
  obtain ⟨round, middle, hround, hafter⟩ := returns_iterate.mp hreturns
  obtain ⟨passed, rfl, _⟩ := hreplaying.known
  rcases inBounds_of_round (hreplaying.peek hcontent hintact) (hintact record (by simp)) hentry
    hround with ⟨result, rfl, hfails⟩ | hbounds
  · obtain ⟨rfl, _⟩ := hafter
    exact (hexit hfails).elim
  · exact hbounds

/-- It comes to the record after that one as well. -/
theorem EndsWell.passes {record : List U8} {entry : StorageWalEntry}
    (hends : EndsWell reliable truncateOnFailure start loop)
    (hcontent : start.disk.bytes = recordsImage records ++ tail)
    (hintact : ∀ record ∈ records, Intact record)
    (hstuck : ¬Intact (tail.take storageWalEntrySafeSize)) (hlimit : records.length < 2 ^ 63)
    (hreplaying : Replaying .any records (record :: rest) entries loop)
    (hentry : recordEntry record = some entry)
    (hbounds : entry.data.InBounds loop.state.accountList.accounts.length) :
    ∃ entries' loop', Replaying .any records rest entries' loop' ∧
      EndsWell reliable truncateOnFailure start loop' := by
  obtain ⟨loop', exit, world', hreturns, hexit⟩ := hends
  obtain ⟨round, middle, hround, hafter⟩ := returns_iterate.mp hreturns
  have hmeets : Meets reliable (fun _ => True)
      (fun round middle => (∀ result, round = .inr result → ¬result.2.Fails) →
        ∃ entries' loop', round = .inl loop' ∧ Replaying .any records rest entries' loop' ∧
          middle = { start with disk := start.disk.seek loop'.fileOffset })
      (storageWalReplayRound truncateOnFailure loop)
      { start with disk := start.disk.seek loop.fileOffset } := by
    apply MeetsBy.meets
    refine storageWalReplayRound_spec hcontent hintact hstuck hlimit (fun _ _ => trivial)
      hreplaying ?_ rfl ?_ ?_
    · intro record' rest' entry' hrest hentry'
      obtain ⟨rfl, rfl⟩ := List.cons.inj hrest
      obtain rfl := Option.some.inj (hentry.symm.trans hentry')
      exact hbounds
    · intro record' rest' entries' loop' hrest hnext _ _
      obtain ⟨rfl, rfl⟩ := List.cons.inj hrest
      exact ⟨entries', loop', rfl, hnext, rfl⟩
    · rintro result middle _ (hnone | hfails) hgoes
      · cases hnone
      · exact (hgoes result rfl hfails).elim
  have hgoes (result : StorageWalReplay × StorageWalReplayExit) (hresult : round = .inr result) :
      ¬result.2.Fails := by
    subst hresult
    obtain ⟨rfl, _⟩ := hafter
    exact hexit
  obtain ⟨entries', next, rfl, hnext, rfl⟩ := hmeets.returns hround hgoes
  exact ⟨entries', next, hnext, loop', exit, world', hafter, hexit⟩

/-- The records of a file that replay accepts name only accounts that exist, and
they are of known types. -/
theorem named_of_accepted {storageWal storageWal' : StorageWal} {state state' : State}
    (hfile : world.disk.file = some (recordsImage records ++ tail))
    (hintact : ∀ record ∈ records, Intact record)
    (hstuck : ¬Intact (tail.take storageWalEntrySafeSize)) (hlimit : records.length < 2 ^ 63)
    (hempty : state.accountList.accounts = [])
    (hreturns : (system reliable).Returns (storageWalReplay storageWal state truncateOnFailure)
      world (.none, storageWal', state') world') : Named records := by
  have hcontent : world.disk.bytes = recordsImage records ++ tail := by
    rw [Disk.bytes, hfile, Option.getD_some]
  obtain ⟨error, middle, hseek, hrest⟩ := returns_bind.mp hreturns
  have hmeets : Meets reliable (fun _ => True) (fun error middle => errorExists error ∨
      error = .none ∧ middle = { world with disk := world.disk.seek storageWalHeaderLength })
      (storageWalSeek storageWalHeaderLength .start) world :=
    storageWalSeek_start_spec trivial (fun _ => .inl rfl) ⟨trivial, .inr ⟨rfl, rfl⟩⟩
  rcases hmeets.returns hseek with hexists | ⟨rfl, rfl⟩
  · rw [if_pos hexists] at hrest
    obtain ⟨heq, _⟩ := returns_pure.mp hrest
    obtain ⟨rfl, _⟩ := Prod.mk.inj heq
    cases hexists
  · rw [if_neg (by decide)] at hrest
    obtain ⟨⟨loop, exit⟩, last, hloop, hrest⟩ := returns_bind.mp hrest
    have hexit : ¬exit.Fails := by
      rintro (rfl | ⟨error, hexists, rfl⟩)
      · obtain ⟨error, _, htail, hrest⟩ := returns_bind.mp hrest
        obtain ⟨rfl, _⟩ := returns_pure.mp htail
        cases (returns_pure.mp hrest).1
      · obtain ⟨heq, _⟩ := returns_pure.mp hrest
        obtain ⟨rfl, _⟩ := Prod.mk.inj heq
        cases hexists
    have hreplaying : Replaying .any records records []
        { state, transactions := 0, fileOffset := storageWalHeaderLength } :=
      ⟨⟨[], rfl, rfl⟩, rfl, by simp, hempty ▸ .nil⟩
    have hends : EndsWell reliable truncateOnFailure world
        { state, transactions := 0, fileOffset := storageWalHeaderLength } :=
      ⟨loop, exit, last, hloop, hexit⟩
    refine named_of_passing ?_ ?_ hreplaying hends
    · intro record rest entries loop entry hreplaying hends hentry
      exact hends.inBounds hcontent hintact hreplaying hentry
    · intro record rest entries loop entry hreplaying hends hentry hbounds
      exact hends.passes hcontent hintact hstuck hlimit hreplaying hentry hbounds

/-- What replay that succeeds has found in the file and has made of it. -/
theorem replayed_of_accepted {storageWal storageWal' : StorageWal} {state state' : State}
    (hfile : world.disk.file = some (recordsImage records ++ tail))
    (hintact : ∀ record ∈ records, Intact record)
    (hstuck : ¬Intact (tail.take storageWalEntrySafeSize)) (hlimit : records.length < 2 ^ 63)
    (hempty : state.accountList.accounts = [])
    (hreturns : (system reliable).Returns (storageWalReplay storageWal state truncateOnFailure)
      world (.none, storageWal', state') world') :
    Named records ∧ (truncateOnFailure = true ∨ tail = []) ∧
      storageWal'.transactions = BitVec.ofNat 64 records.length ∧
      ∃ entries, Known records entries ∧ Applied .any entries state'.accountList.accounts := by
  have hnamed := named_of_accepted hfile hintact hstuck hlimit hempty hreturns
  have hmeets : Meets reliable (fun _ => True)
      (fun result _ => result.1 = .none → (truncateOnFailure = true ∨ tail = []) ∧
        result.2.1.transactions = BitVec.ofNat 64 records.length ∧
        ∃ entries, Known records entries ∧ Applied .any entries result.2.2.accountList.accounts)
      (storageWalReplay storageWal state truncateOnFailure) world := by
    apply MeetsBy.meets
    refine storageWalReplay_records_spec hfile hintact hstuck hnamed hlimit hempty
      (fun _ _ => trivial) ?_ ?_
    · intro hwhole entries state' disk hknown happlied _ _ _ _
      exact ⟨hwhole, rfl, entries, hknown, happlied⟩
    · intro _ error storageWal' state' disk herror _ hnone
      subst hnone
      nomatch herror
  exact ⟨hnamed, hmeets.returns hreturns rfl⟩

end LetDX.LetDB
