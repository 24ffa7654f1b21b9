import LetDX.LetDB.Server.Recovery
import LetDX.Wire.Answers

/-! # What was promised survives

A response to a mutating request is given only when its entry is synced. So
whatever happens afterwards to the clients, the proxy and the server, and
whenever the machine crashes, a restart rebuilds the ledger with that entry.
-/

namespace LetDX.Wire

open Durable Effects LetDB

/-- A restart that rebuilds this log. -/
def Rebuilds (rebuilt : List StorageWalEntry) (result : Error × StorageWal × State)
    (world : World) : Prop :=
  result.1 = .none ∧ world.disk.file = some (storageWalImage rebuilt) ∧
    ledgerOf result.2.2.accountList.accounts = balanceOf rebuilt ∧
    result.2.1.transactions = BitVec.ofNat 64 rebuilt.length

section Sharings

variable {client : LetDD.Client} {around : Surroundings} {state : Callings} {number : Nat}
  {request : LetDD.Request} {response : LetDD.Response} {invoked returned : Surroundings}
  {data : StorageWalEntryData}

/-- At any instant a crash and a restart keep of the log what was synced. -/
theorem restart_keeps_synced (hstarts : Starts client around)
    (hreached : Sharing client around state)
    (hheader : storageWalHeaderLength ≤ state.world.service.world.disk.synced)
    {disk : Disk} {world : World} {fresh : State}
    (hcrash : state.world.service.world.disk.Crash disk) (hworld : world.disk = disk)
    (hempty : fresh.accountList.accounts = []) :
    Meets true (fun _ => True)
      (fun result world' => ∃ rebuilt, rebuilt <+: state.world.service.log ∧
        (∀ whole, whole <+: state.world.service.log →
          (storageWalImage whole).length ≤ state.world.service.world.disk.synced →
          whole <+: rebuilt) ∧
        Rebuilds rebuilt result world')
      (letInitStorage fresh true) world := by
  obtain ⟨_, htraced⟩ := (sharing_sound hstarts hreached).during
  obtain ⟨tail, hfile, htail, _⟩ := htraced.file
  obtain ⟨hwell, hsynced, hlimit⟩ := htraced.storable
  refine (letInitStorage_crashed hfile hsynced htail hwell hlimit hheader hcrash hworld hempty
    (fun _ => trivial)).weaken ?_
  rintro result world' ⟨hnone, rebuilt, hprefix, hwhole, hrebuilt, hledger, htransactions⟩
  exact ⟨rebuilt, hprefix, hwhole, hnone, hrebuilt, hledger, htransactions⟩

/-- The entry that a call was told of, by its own record, is in every ledger that
a restart after a crash rebuilds, behind the same entries. -/
theorem success_survives_crash (hstarts : Starts client around)
    (hreached : Sharing client around state)
    (hreturned : state.callers[number]? = some
      { call := .communicate request, invoked, returned := some (some (.ok response), returned) })
    (hasks : request.meaning.data = some data) (hsuccess : response.kind ≠ .error)
    {disk : Disk} {world : World} {fresh : State}
    (hcrash : state.world.service.world.disk.Crash disk) (hworld : world.disk = disk)
    (hempty : fresh.accountList.accounts = []) :
    ∃ before entry, invoked.service.log <+: before ∧
      before ++ [entry] <+: returned.service.log ∧ entry.data = data ∧
      response = (data.reply (BitVec.ofNat 64 (balanceOf before).length)).meaning ∧
      (∃ position, before.length = around.service.log.length + position ∧
        state.world.service.records[position]? = some number) ∧
      Meets true (fun _ => True)
        (fun result world' => ∃ rebuilt, before ++ [entry] <+: rebuilt ∧
          rebuilt <+: state.world.service.log ∧ Rebuilds rebuilt result world')
        (letInitStorage fresh true) world := by
  obtain ⟨hlater, before, after, hbefore, hacts, hafter, hrecord⟩ :=
    executed_of_returned hstarts hreached hreturned
  obtain ⟨entry, rfl, hdata, _, _, hresponse⟩ := hacts.committed_of_success hasks hsuccess
  obtain ⟨hposition, hsynced⟩ := hrecord (by simp)
  have hheader : storageWalHeaderLength ≤ state.world.service.world.disk.synced := by
    rw [length_storageWalImage] at hsynced
    omega
  refine ⟨before, entry, hbefore, hafter, hdata, hresponse, hposition, ?_⟩
  refine (restart_keeps_synced hstarts hreached hheader hcrash hworld hempty).weaken ?_
  rintro result world' ⟨rebuilt, hprefix, hwhole, hrebuilds⟩
  exact ⟨rebuilt, hwhole _ (hafter.trans hlater.log) hsynced, hprefix, hrebuilds⟩

end Sharings

/-- The machine crashes when both accounts are added, and keeps only what is synced.
What a restart rebuilds still has the account of the call that was served last. -/
theorem success_survives_crash_crowd : ∃ (state : Callings) (disk : Disk)
    (before : List StorageWalEntry) (entry : StorageWalEntry),
    Sharing freshClient freshAround state ∧ state.world.service.world.disk.Crash disk ∧
    entry.data = .addAccount 0 10 1 ∧ state.world.service.records = [1, 0] ∧
    (∃ position, before.length = freshAround.service.log.length + position ∧
      [1, 0][position]? = some 0) ∧
    Meets true (fun _ => True)
      (fun result world' => ∃ rebuilt, before ++ [entry] <+: rebuilt ∧
        rebuilt <+: state.world.service.log ∧ Rebuilds rebuilt result world')
      (letInitStorage { accountList := .empty } true) { disk } := by
  obtain ⟨state, _, _, hsharing, hreturned, hrecords, _, _⟩ := exists_crowd
  obtain ⟨disk, hcrash⟩ : ∃ disk, state.world.service.world.disk.Crash disk :=
    ⟨{ state.world.service.world.disk with file := _ }, _, le_rfl, rfl, rfl⟩
  have hworld : ({ disk } : World).disk = disk := rfl
  have hempty : ({ accountList := .empty } : State).accountList.accounts = [] := rfl
  obtain ⟨before, entry, _, _, hdata, _, hrecord, hrebuilds⟩ :=
    success_survives_crash starts_fresh hsharing hreturned rfl (by decide) hcrash hworld hempty
  rw [hrecords] at hrecord
  exact ⟨state, disk, before, entry, hsharing, hcrash, hdata, hrecords, hrecord, hrebuilds⟩

end LetDX.Wire
