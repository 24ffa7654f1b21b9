import LetDX.LetDB.Server.Balances

/-! # Accounts are determined by the log -/

namespace LetDX.LetDB

open Durable Effects

/-- The file is this log. Only after a fatal error may something follow it, the
entry that failed, whole or torn. -/
def Logged (point : LetRun) (world : World) (entries : List StorageWalEntry) : Prop :=
  ∃ tail, world.disk.file = some (storageWalImage entries ++ tail) ∧
    tail.length ≤ storageWalEntrySafeSize ∧ ((∀ context, point ≠ .finished context) → tail = [])

/-- At every program point the accounts are the balance of a log on disk. -/
theorem Reachable.ledger {point : LetRun} {world : World} (hreachable : Reachable point world) :
    ∃ entries : List StorageWalEntry, Logged point world entries ∧
      Wellformed entries ∧ (storageWalImage entries).length ≤ Disk.offsetMax ∧
      ledgerOf point.context.state.accountList.accounts =
        Ledger.balance (entries.map StorageWalEntry.posting) := by
  obtain ⟨past, disk, cli, history, hlives, hserves⟩ := hreachable
  cases hserves.holds (hlives.recoverable .initial) with
  | @running _ entries _ agrees _ _ =>
      refine ⟨entries, ⟨[], ?_, Nat.zero_le _, fun _ => rfl⟩, agrees.wellformed, agrees.limit,
        agrees.ledger⟩
      rw [List.append_nil, agrees.disk_eq]
      rfl
  | @finished before context request entries disk _ agrees _ _ accounts appending =>
      have hfinal : ledgerOf context.state.accountList.accounts =
          Ledger.balance (entries.map StorageWalEntry.posting) := accounts ▸ agrees.ledger
      have hlog : ∃ tail, world.disk.file = some (storageWalImage entries ++ tail) ∧
          tail.length ≤ storageWalEntrySafeSize := by
        -- The last request may have left an entry, or a part of one, behind the log.
        rcases appending with hdisk | happending
        · refine ⟨[], ?_, Nat.zero_le _⟩
          rw [hdisk, List.append_nil, agrees.disk_eq]
          rfl
        · generalize world.disk = disk' at happending
          cases happending with
          | @torn entry count _ within _ =>
              refine ⟨entry.safe.take count, rfl, ?_⟩
              rw [List.length_take, entry.length_safe]
              exact Nat.min_le_right _ _
          | @synced entry _ _ =>
              refine ⟨entry.safe, ?_, entry.length_safe.le⟩
              rw [← storageWalImage_concat]
              rfl
      obtain ⟨tail, hfile, htail⟩ := hlog
      exact ⟨entries, ⟨tail, hfile, htail, fun hrunning => (hrunning _ rfl).elim⟩,
        agrees.wellformed, agrees.limit, hfinal⟩

/-- A request changes no account but those it names. -/
theorem letRunStep_processing_untouched {entries : List StorageWalEntry} {context : Let}
    {world : World} (hagrees : Agrees entries context world.disk) (request : NetworkRequest) :
    Meets false (fun _ => True)
      (fun point' _ => ∀ index < context.state.accountList.accounts.length,
        (∀ data timestamp, request.data = some data → ¬(data.posting timestamp).Touches index) →
        point'.context.state.accountList.accounts[index]? =
          context.state.accountList.accounts[index]?)
      (letRunStep (.processing context request)) world := by
  refine (letRunStep_processing_spec hagrees fun _ _ => trivial).weaken ?_
  intro point' world' hprocessed index hindex huntouched
  cases hprocessed with
  | @committed entry now context' requested limit accounts transactions =>
      change context'.state.accountList.accounts[index]? = _
      rw [accounts]
      exact StorageWalEntryData.getElem?_apply_of_not_touches hindex
        (huntouched _ entry.timestamp requested.data)
  | answered inquiry => rfl
  | refused action => rfl
  | @fatal context' world' action accounts appending sent =>
      change context'.state.accountList.accounts[index]? = _
      rw [accounts]

/-- In every reachable state each account is what the log has made of its
opening, its counter has never wrapped, the two sides differ by what they
differed at the openings, and no request touches an account it does not name. -/
theorem accounts_follow_log {point : LetRun} {world : World} (hreachable : Reachable point world) :
    (∃ entries : List StorageWalEntry, Logged point world entries ∧
      let accounts := ledgerOf point.context.state.accountList.accounts
      let log := entries.map StorageWalEntry.posting
      let openings : List LedgerAccount := Ledger.openings log
      accounts.length = openings.length ∧
      (∀ index account, accounts[index]? = some account → ∃ opening,
        openings[index]? = some opening ∧
        account.credits = opening.credits + Ledger.sent log index ∧
        account.debits = opening.debits + Ledger.received log index ∧
        account.transactions.toNat = Ledger.moves log index ∧
        account.flags = (Ledger.lastFlags log index).getD opening.flags ∧
        account.createdAt = opening.createdAt) ∧
      (accounts.map Ledger.Account.debits).sum - (accounts.map Ledger.Account.credits).sum =
        (openings.map Ledger.Account.debits).sum - (openings.map Ledger.Account.credits).sum) ∧
    ((∀ context, point ≠ .finished context) → ∀ request,
      Meets false (fun _ => True)
        (fun point' _ => ∀ index < point.context.state.accountList.accounts.length,
          (∀ data timestamp, request.data = some data → ¬(data.posting timestamp).Touches index) →
          point'.context.state.accountList.accounts[index]? =
            point.context.state.accountList.accounts[index]?)
        (letRunStep (.processing point.context request)) world) := by
  constructor
  · obtain ⟨entries, hlogged, hwell, hlimit, hledger⟩ := hreachable.ledger
    refine ⟨entries, hlogged, ?_⟩
    dsimp only
    rw [hledger]
    refine ⟨(Ledger.length_openings _).symm, ?_, hwell.named.conserves⟩
    intro index account haccount
    rw [hwell.named.getElem?_balance] at haccount
    obtain ⟨opening, hopening, rfl⟩ := Option.map_eq_some_iff.mp haccount
    -- Counters do not wrap because a file cannot hold so many entries.
    have hmoves : Ledger.moves (entries.map StorageWalEntry.posting) index < 2 ^ 64 := by
      have hcount := Ledger.moves_le_length (entries.map StorageWalEntry.posting) index
      have hlength := length_lt_of_limit hlimit
      rw [List.length_map] at hcount
      omega
    refine ⟨opening, hopening, rfl, rfl, ?_, rfl, rfl⟩
    rw [Ledger.Account.after, Ledger.transactions_of_mem_openings (List.mem_of_getElem? hopening),
      zero_add, BitVec.natCast_eq_ofNat, BitVec.toNat_ofNat, Nat.mod_eq_of_lt hmoves]
  · intro hrunning request
    obtain ⟨entries, hagrees⟩ := hreachable.agrees hrunning
    exact letRunStep_processing_untouched hagrees request

/-- The law at the end of a short run. -/
theorem accounts_follow_log_served : ∃ point world,
    served (transferInput "20") 10 = some (point, world) ∧
    ∃ entries : List StorageWalEntry, Logged point world entries ∧
      point.context.state.accountList.accounts.length =
        (Ledger.openings (entries.map StorageWalEntry.posting) : List LedgerAccount).length := by
  have hserved : (served (transferInput "20") 10).isSome = true := by decide +kernel
  obtain ⟨⟨point, world⟩, hserved⟩ := Option.isSome_iff_exists.mp hserved
  obtain ⟨⟨entries, hlogged, hlength, _⟩, _⟩ := accounts_follow_log (reachable_of_served hserved)
  rw [length_ledgerOf] at hlength
  exact ⟨point, world, hserved, entries, hlogged, hlength⟩

end LetDX.LetDB
