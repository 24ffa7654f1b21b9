import LetDX.LetDB.Clock
import LetDX.LetDB.Storage.Log

/-! # The records of a log file

Whatever the bytes behind the header are, they start with a longest run of whole
records whose checksums are right. The entries of these records, carried out in
order, make up the accounts.
-/

namespace LetDX.LetDB

open Bytes

/-- A whole record with the right checksum. -/
def Intact (record : List U8) : Prop :=
  record.length = storageWalEntrySafeSize ∧
    storageCrc32c (record.take storageWalEntrySize) =
      BitVec.ofNat 32 (readField record storageWalEntrySize 4)

/-- The entry in a record, unless its type is unknown. -/
def recordEntry (record : List U8) : Option StorageWalEntry :=
  StorageWalEntry.read (record.take storageWalEntrySize)

/-- The records hold these entries, all of known types. -/
def Known (records : List (List U8)) (entries : List StorageWalEntry) : Prop :=
  records.map recordEntry = entries.map some

/-- Every record that is reached names only accounts that exist at that point. A
record of unknown type is the last one reached. -/
def Named (records : List (List U8)) : Prop :=
  ∀ before record after entries entry, records = before ++ record :: after →
    Known before entries → recordEntry record = some entry →
    entry.data.InBounds
      (Ledger.balance (entries.map StorageWalEntry.posting) : List LedgerAccount).length

/-- The accounts after these entries, each carried out in its turn at a time that
the clock shows. -/
inductive Applied (clock : Clock) : List StorageWalEntry → List Account → Prop
  | nil : Applied clock [] []
  | concat {entries : List StorageWalEntry} {accounts : List Account} {now : Time}
      (applied : Applied clock entries accounts) (entry : StorageWalEntry)
      (shows : clock.shows now) :
      Applied clock (entries ++ [entry]) (entry.data.apply entry.timestamp now accounts)

theorem intact_length {record : List U8} (hintact : Intact record) :
    record.length = storageWalEntrySafeSize :=
  hintact.1

theorem not_intact_take {tail : List U8} (hshort : tail.length < storageWalEntrySafeSize) :
    ¬Intact (tail.take storageWalEntrySafeSize) := by
  intro hintact
  have hlength := intact_length hintact
  rw [List.length_take] at hlength
  omega

theorem intact_safe (entry : StorageWalEntry) : Intact entry.safe := by
  refine ⟨entry.length_safe, ?_⟩
  rw [entry.take_safe, entry.checksum_safe]

theorem recordEntry_safe (entry : StorageWalEntry) : recordEntry entry.safe = some entry := by
  rw [recordEntry, entry.take_safe, entry.read_image]

theorem known_safe (entries : List StorageWalEntry) :
    Known (entries.map StorageWalEntry.safe) entries := by
  simp [Known, recordEntry_safe]

theorem known_append {before after : List (List U8)} {first second : List StorageWalEntry}
    (hbefore : Known before first) (hafter : Known after second) :
    Known (before ++ after) (first ++ second) := by
  rw [Known, List.map_append, List.map_append, hbefore, hafter]

theorem Known.length {records : List (List U8)} {entries : List StorageWalEntry}
    (hknown : Known records entries) : entries.length = records.length := by
  simpa using (congrArg List.length hknown).symm

theorem Known.eq {records : List (List U8)} {entries entries' : List StorageWalEntry}
    (hknown : Known records entries) (hknown' : Known records entries') : entries = entries' :=
  List.map_injective_iff.mpr (Option.some_injective _) (hknown.symm.trans hknown')

theorem Known.exists_entry {records : List (List U8)} {entries : List StorageWalEntry}
    (hknown : Known records entries) {record : List U8} (hrecord : record ∈ records) :
    ∃ entry ∈ entries, recordEntry record = some entry := by
  have hmem : recordEntry record ∈ entries.map some := hknown ▸ List.mem_map_of_mem hrecord
  obtain ⟨entry, hentry, heq⟩ := List.mem_map.mp hmem
  exact ⟨entry, hentry, heq.symm⟩

/-- The records that the server writes name only accounts that exist. -/
theorem named_safe {entries : List StorageWalEntry}
    (hnamed : Ledger.WellNamed U64 (entries.map StorageWalEntry.posting)) :
    Named (entries.map StorageWalEntry.safe) := by
  intro before record after known entry hsplit hknown hentry
  obtain ⟨first, rest, rfl, rfl, hrest⟩ := List.map_eq_append_iff.mp hsplit
  obtain ⟨next, later, rfl, rfl, rfl⟩ := List.map_eq_cons_iff.mp hrest
  obtain rfl := Option.some.inj (hentry.symm.trans (recordEntry_safe next))
  obtain rfl := hknown.eq (known_safe first)
  have hadmitted := hnamed.take (known.length + 1)
  rw [← List.map_take, List.take_append, List.take_of_length_le (Nat.le_succ _),
    Nat.add_sub_cancel_left, List.take_one, List.head?_cons, Option.toList_some, List.map_append,
    List.map_singleton, Ledger.Admitted.concat_iff] at hadmitted
  exact StorageWalEntryData.inBounds_of_names hadmitted.2

namespace Applied

variable {clock : Clock} {entries : List StorageWalEntry} {accounts : List Account}

/-- The time of the last change apart, the accounts do not depend on the clock. -/
theorem ledger (happlied : Applied clock entries accounts) :
    ledgerOf accounts = Ledger.balance (entries.map StorageWalEntry.posting) := by
  induction happlied with
  | nil => rfl
  | concat _ entry _ ih =>
      rw [ledgerOf_apply, ih, List.map_append, List.map_singleton, Ledger.balance_concat]
      rfl

theorem length (happlied : Applied clock entries accounts) : accounts.length =
    (Ledger.balance (entries.map StorageWalEntry.posting) : List LedgerAccount).length := by
  rw [← happlied.ledger, length_ledgerOf]

theorem length_le (happlied : Applied clock entries accounts) :
    accounts.length ≤ entries.length := by
  rw [happlied.length]
  have hle :
      (Ledger.balance (entries.map StorageWalEntry.posting) : List LedgerAccount).length ≤ _ :=
    Ledger.length_balance_le _
  rwa [List.length_map] at hle

theorem any (happlied : Applied clock entries accounts) : Applied .any entries accounts := by
  induction happlied with
  | nil => exact .nil
  | concat _ entry _ ih => exact ih.concat entry trivial

end Applied

end LetDX.LetDB
