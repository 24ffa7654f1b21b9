import LetDX.LetDB.Server.Agreement

/-! # What was acknowledged survives -/

namespace LetDX.LetDB

open Durable Effects

theorem Recoverable.of_header {initial : Disk} (hfile : initial.file = some storageWalHeader)
    (hsynced : initial.synced = storageWalHeaderLength) : Recoverable true [] initial := by
  obtain ⟨file, synced, cursor⟩ := initial
  dsimp only at hfile hsynced
  subst hfile hsynced
  have himage : storageWalHeader = storageWalImage [] ++ [] := by
    simp [storageWalImage]
  rw [himage]
  exact .log .nil .nil (by decide) (fun _ => Nat.le_refl _) (by decide) (by decide) (by decide)

/-- After any lifetimes, ended by shutdown, fatal error or crash at any instant,
a restart succeeds and rebuilds exactly the operations of a log that holds, of
each lifetime in turn, all it has acknowledged and at most the operation that
was in flight at its end. -/
theorem restart_recovers_acknowledged {initial disk : Disk} {past : List ServerHistory}
    (hfile : initial.file = some storageWalHeader)
    (hsynced : initial.synced = storageWalHeaderLength) (hlives : Lives true initial past disk)
    {world : World} {state : State} (hworld : world.disk = disk)
    (hempty : state.accountList.accounts = []) :
    Meets true (fun _ => True)
      (fun result world' => result.1 = .none ∧ ∃ (entries : List StorageWalEntry)
        (kept : List Bool),
        world'.disk.file = some (storageWalImage entries) ∧
        kept.length = past.length ∧
        entries.map StorageWalEntry.data = (List.zipWith History.traces past kept).flatten ∧
        ledgerOf result.2.2.accountList.accounts =
          Ledger.balance (entries.map StorageWalEntry.posting) ∧
        result.2.1.transactions.toNat = entries.length)
      (letInitStorage state true) world := by
  have hdisk : Recoverable true past world.disk :=
    hworld ▸ hlives.recoverable (.of_header hfile hsynced)
  refine (letInitStorage_spec hempty hdisk).mono (fun _ _ => trivial) ?_
  rintro ⟨error, storageWal, state'⟩ world' ⟨hrestarted, _, hsucceeds⟩
  have hnone : error = .none := hsucceeds rfl rfl rfl
  rcases hrestarted with ⟨hexists, _⟩ | ⟨entries, hagrees, hsettled, _⟩
  · rw [hnone] at hexists
    nomatch hexists
  · obtain ⟨before, operations, hrecovered, hdata, _⟩ := hsettled.recovered
    obtain ⟨kept, hlength, hflatten⟩ := hrecovered.eq_flatten
    have hlimit := length_lt_of_limit hagrees.limit
    refine ⟨hnone, entries, kept, ?_, hlength, ?_, hagrees.ledger, ?_⟩
    · rw [hagrees.disk_eq]
      rfl
    · rw [hdata, ← hflatten, List.append_nil]
    · rw [hagrees.transactions, BitVec.toNat_ofNat]
      omega

/-- An environment that obliges until the third record is written, of which only
twenty bytes reach the file. -/
def tearing (input : List U8) (call : Syscall) (world : World) : call.Choice :=
  match call with
  | .write bytes =>
      if storageWalHeaderLength + 2 * storageWalEntrySafeSize ≤ world.disk.cursor then
        ((20, false) : Nat × Bool)
      else (bytes.length, true)
  | call => obliging input call world

/-- Where a server that was started on an empty log comes to in this environment. -/
def torn (input : List U8) : Nat → Option (ServerHistory × LetRun × World)
  | 0 => ((system true).run (obliging input) 100 (letStart { cliEmpty with truncateOnFail := true })
      { disk := syncedDisk [] }).bind fun started =>
        started.1.toOption.map fun point => (observe {} point, point, started.2)
  | steps + 1 => (torn input steps).bind fun before =>
      ((system false).run (tearing input) 10000 (letRunStep before.2.1) before.2.2).map fun after =>
        (observe before.1 after.1, after.1, after.2)

theorem serves_of_torn {input : List U8} {steps : Nat} {history : ServerHistory} {point : LetRun}
    {world : World} (htorn : torn input steps = some (history, point, world)) :
    Serves true { cliEmpty with truncateOnFail := true } { disk := syncedDisk [] } history point
      world := by
  induction steps generalizing history point world with
  | zero =>
      obtain ⟨⟨result, world'⟩, hrun, hstarted⟩ := Option.bind_eq_some_iff.mp htorn
      cases result with
      | error error => cases hstarted
      | ok point' =>
          obtain ⟨rfl, rfl, rfl⟩ := Option.some.inj hstarted
          exact .start (Machine.returns_of_run hrun)
  | succ steps ih =>
      obtain ⟨⟨history', point', world'⟩, hbefore, hafter⟩ := Option.bind_eq_some_iff.mp htorn
      obtain ⟨⟨point'', world''⟩, hrun, heq⟩ := Option.map_eq_some_iff.mp hafter
      obtain ⟨rfl, rfl, rfl⟩ := heq
      exact (ih hbefore).step (Machine.returns_of_run hrun)

/-- The server has acknowledged two accounts when the write of a transfer fails
and it is stopped. Twenty bytes of the record are on the disk. -/
theorem restart_recovers_acknowledged_torn : ∃ (history : ServerHistory) (disk : Disk),
    history.acknowledged = [.addAccount 0 10 1, .addAccount 5 20 2] ∧
    history.inFlight = some (.makeTransfer 0 1 1) ∧
    disk.bytes.length = storageWalHeaderLength + 2 * storageWalEntrySafeSize + 20 ∧
    Meets true (fun _ => True)
      (fun result world' => result.1 = .none ∧ ∃ (entries : List StorageWalEntry)
        (kept : List Bool),
        world'.disk.file = some (storageWalImage entries) ∧
        kept.length = [history].length ∧
        entries.map StorageWalEntry.data = (List.zipWith History.traces [history] kept).flatten ∧
        ledgerOf result.2.2.accountList.accounts =
          Ledger.balance (entries.map StorageWalEntry.posting) ∧
        result.2.1.transactions.toNat = entries.length)
      (letInitStorage { accountList := .empty } true) { disk } := by
  have htorn : (torn (transferInput "20") 9).any (fun reached =>
      decide (reached.1.acknowledged = [.addAccount 0 10 1, .addAccount 5 20 2] ∧
        reached.1.inFlight = some (.makeTransfer 0 1 1) ∧
        reached.2.2.disk.bytes.length =
          storageWalHeaderLength + 2 * storageWalEntrySafeSize + 20)) = true := by decide +kernel
  obtain ⟨⟨history, point, world⟩, hreached, hchecked⟩ := (Option.any_eq_true _ _).mp htorn
  obtain ⟨hacknowledged, hinFlight, hlength⟩ := of_decide_eq_true hchecked
  refine ⟨history, world.disk, hacknowledged, hinFlight, hlength, ?_⟩
  have hinstant := Instant.serving (serves_of_torn hreached) ⟨_, .refl⟩
  have hlives : Lives true (syncedDisk []) ([] ++ [history]) world.disk :=
    .life .nil (fun _ => rfl) hinstant world.disk.crash_self
  exact restart_recovers_acknowledged (by decide) (by decide) hlives rfl rfl

end LetDX.LetDB
