import LetDX.LetDB.Server.Lifetimes

/-! # Log, memory and replies agree

Whatever the system calls and signals have done, a server that goes on has a
file that is exactly the log of its state, and its replies mean what was
committed.
-/

namespace LetDX.LetDB

open Durable Effects

/-- A program point reached by some server on a file that did not exist at
first, after any earlier lifetimes on that file and any crashes between them. -/
def Reachable (point : LetRun) (world : World) : Prop :=
  ∃ past disk cli history, Lives false {} past disk ∧
    Serves false cli { disk } history point world

/-- The context of a server on a new file. -/
def freshContext : Let :=
  { state := { accountList := .empty }, storageWal := storageWalEmpty, error := .none }

/-- The world of a server on a new file, before the first connection. -/
def freshWorld : World :=
  { disk := logDisk [] 0, accepting := true }

theorem reachable_fresh : Reachable (.accepting freshContext) freshWorld := by
  have hrun : (system false).run (obliging []) 100 (letStart cliEmpty) {} =
      some (.ok (.accepting freshContext), freshWorld) := by rfl
  exact ⟨[], {}, cliEmpty, _, .nil, .start (Machine.returns_of_run hrun)⟩

theorem Reachable.step {point point' : LetRun} {world world' : World}
    (hreachable : Reachable point world)
    (hstepped : (system false).Returns (letRunStep point) world point' world') :
    Reachable point' world' := by
  obtain ⟨past, disk, cli, history, hlives, hserves⟩ := hreachable
  exact ⟨past, disk, cli, _, hlives, hserves.step hstepped⟩

/-- Where a server on a new file comes to in some steps, in an environment in
which every call succeeds and one client sends this input. -/
def served (input : List U8) : Nat → Option (LetRun × World)
  | 0 => some (.accepting freshContext, freshWorld)
  | steps + 1 => (served input steps).bind fun (point, world) =>
      (system false).run (obliging input) 10000 (letRunStep point) world

/-- Two accounts, the second with these debits, and a transfer of one to it. -/
def transferInput (debits : String) : List U8 :=
  ("+0 0 10 1\n+1 5 " ++ debits ++ " 2\n%2 0 1 1\n").toList.map fun letter =>
    BitVec.ofNat 8 letter.toNat

theorem reachable_of_served {input : List U8} {steps : Nat} {point : LetRun} {world : World}
    (hserved : served input steps = some (point, world)) : Reachable point world := by
  induction steps generalizing point world with
  | zero =>
      obtain ⟨rfl, rfl⟩ := Prod.mk.inj (Option.some.inj hserved)
      exact reachable_fresh
  | succ steps ih =>
      obtain ⟨⟨point₀, world₀⟩, hbefore, hrun⟩ := Option.bind_eq_some_iff.mp hserved
      exact (ih hbefore).step (Machine.returns_of_run hrun)

theorem Recoverable.initial : Recoverable false [] {} :=
  .absent rfl .nil

theorem Reachable.agrees {point : LetRun} {world : World} (hreachable : Reachable point world)
    (hrunning : ∀ context, point ≠ .finished context) :
    ∃ entries, Agrees entries point.context world.disk := by
  obtain ⟨past, disk, cli, history, hlives, hserves⟩ := hreachable
  cases hserves.holds (hlives.recoverable .initial) with
  | running agrees _ _ => exact ⟨_, agrees⟩
  | finished => exact (hrunning _ rfl).elim

/-- The ids of a wellformed log are its positions. -/
theorem Wellformed.id_eq {entries : List StorageWalEntry} (hwell : Wellformed entries) {index : Nat}
    (hindex : index < entries.length) : entries[index].id = BitVec.ofNat 64 index := by
  have hid : (entries.map StorageWalEntry.id)[index]? = some (BitVec.ofNat 64 index) := by
    rw [hwell.numbered, List.getElem?_map, List.getElem?_range hindex, Option.map_some]
  rw [List.getElem?_map, List.getElem?_eq_getElem hindex, Option.map_some] at hid
  exact Option.some.inj hid

theorem Agrees.toNat_transactions {entries : List StorageWalEntry} {context : Let} {disk : Disk}
    (hagrees : Agrees entries context disk) :
    context.storageWal.transactions.toNat = entries.length := by
  have hlength := length_lt_of_limit hagrees.limit
  rw [hagrees.transactions, BitVec.toNat_ofNat]
  omega

/-! ## Checking the log -/

/-- Replaying the file of a running server into an empty account list succeeds,
never changes the file, and rebuilds the accounts. -/
theorem Agrees.check {entries : List StorageWalEntry} {context : Let} {world : World}
    {storageWal : StorageWal} {state : State} {disk : Disk} {offset : Nat}
    (hagrees : Agrees entries context disk) (hempty : state.accountList.accounts = [])
    (hworld : world.disk = disk.seek offset) (truncateOnFailure : Bool) :
    Meets true (fun disk' => disk'.file = disk.file)
      (fun result _ => result.1 = .none ∧
        ledgerOf result.2.2.accountList.accounts = ledgerOf context.state.accountList.accounts)
      (storageWalReplay storageWal state truncateOnFailure) world := by
  have hfile : disk.file = some (storageWalImage entries ++ []) := by
    rw [List.append_nil, hagrees.disk_eq]
    rfl
  have hdisk : world.disk = ⟨some (storageWalImage entries ++ []), disk.synced, offset⟩ := by
    rw [hworld, ← hfile]
    rfl
  have hsynced : disk.synced ≤ (storageWalImage entries ++ []).length := by
    rw [List.append_nil]
    exact hagrees.synced_le
  refine storageWalReplay_spec hdisk hsynced (by decide) hagrees.wellformed.named
    (length_lt_of_limit hagrees.limit) hempty ?_ ?_ ?_ ?_
  · intro offset'
    rw [Disk.seek_file, hworld, Disk.seek_file]
  · intro offset'
    rw [Disk.seek_file, hfile, List.append_nil]
    rfl
  · intro _ state' happlied
    exact ⟨rfl, happlied.ledger.trans hagrees.ledger.symm⟩
  · rintro (hunreliable | ⟨htail, _⟩)
    · nomatch hunreliable
    · exact (htail rfl).elim

/-- Whenever the server goes on to read a request or to accept a connection, the
file is the header and whole valid records numbered from zero, as many as the
counter says, and replaying it rebuilds the accounts in memory. -/
theorem log_agrees_with_memory {point : LetRun} {world : World} {context : Let}
    (hreachable : Reachable point world)
    (hpoint : point = .reading context ∨ point = .accepting context) :
    ∃ entries : List StorageWalEntry,
      world.disk.file = some (storageWalImage entries) ∧
      (∀ index (hindex : index < entries.length), entries[index].id.toNat = index) ∧
      context.storageWal.transactions.toNat = entries.length ∧
      ∀ (truncateOnFailure : Bool) (storageWal : StorageWal) (state : State) (check : World)
        (offset : Nat), state.accountList.accounts = [] → check.disk = world.disk.seek offset →
        Meets true (fun disk => disk.file = world.disk.file)
          (fun result _ => result.1 = .none ∧
            ledgerOf result.2.2.accountList.accounts =
              ledgerOf context.state.accountList.accounts)
          (storageWalReplay storageWal state truncateOnFailure) check := by
  have hcontext : point.context = context := by rcases hpoint with rfl | rfl <;> rfl
  have hrunning : ∀ context, point ≠ .finished context := by
    rcases hpoint with rfl | rfl <;> intro _ heq <;> nomatch heq
  obtain ⟨entries, hagrees⟩ := hreachable.agrees hrunning
  rw [hcontext] at hagrees
  refine ⟨entries, ?_, ?_, hagrees.toNat_transactions, ?_⟩
  · rw [hagrees.disk_eq]
    rfl
  · intro index hindex
    have hlength := length_lt_of_limit hagrees.limit
    rw [hagrees.wellformed.id_eq hindex, BitVec.toNat_ofNat]
    omega
  · intro truncateOnFailure storageWal state check offset hempty hcheck
    exact hagrees.check hempty hcheck truncateOnFailure

/-- Two accounts and a transfer are in the log and in memory. -/
theorem log_agrees_with_memory_transferred : ∃ context world,
    served (transferInput "20") 10 = some (.reading context, world) ∧
    context.storageWal.transactions = 3 ∧ context.state.accountList.length = 2 ∧
    ∃ entries : List StorageWalEntry,
      world.disk.file = some (storageWalImage entries) ∧
      (∀ index (hindex : index < entries.length), entries[index].id.toNat = index) ∧
      context.storageWal.transactions.toNat = entries.length ∧
      ∀ (truncateOnFailure : Bool) (storageWal : StorageWal) (state : State) (check : World)
        (offset : Nat), state.accountList.accounts = [] → check.disk = world.disk.seek offset →
        Meets true (fun disk => disk.file = world.disk.file)
          (fun result _ => result.1 = .none ∧
            ledgerOf result.2.2.accountList.accounts =
              ledgerOf context.state.accountList.accounts)
          (storageWalReplay storageWal state truncateOnFailure) check := by
  have hserved : (served (transferInput "20") 10).any (fun reached =>
      decide (reached.1 = .reading reached.1.context ∧
        reached.1.context.storageWal.transactions = 3 ∧
        reached.1.context.state.accountList.length = 2)) = true := by decide +kernel
  obtain ⟨⟨point, world⟩, hreached, hchecked⟩ := (Option.any_eq_true _ _).mp hserved
  obtain ⟨hreading, htransactions, hlength⟩ := of_decide_eq_true hchecked
  dsimp only at hreading htransactions hlength
  refine ⟨point.context, world, ?_, htransactions, hlength, ?_⟩
  · rw [hreached, ← hreading]
  · exact log_agrees_with_memory (reachable_of_served hreached) (.inl hreading)

/-! ## What a reply means -/

/-- The file, the counter and the accounts, as a reply speaks of them. -/
structure Contents where
  bytes : List U8
  transactions : U64
  accounts : List Account
  deriving DecidableEq, Repr

def contents (point : LetRun) (world : World) : Contents where
  bytes := world.disk.bytes
  transactions := point.context.storageWal.transactions
  accounts := point.context.state.accountList.accounts

/-- A success reply to a mutating request, with its operation committed. -/
def RepliedCommitted (context : Let) (world : World) (request : NetworkRequest) (point : LetRun)
    (world' : World) : Prop :=
  ∃ context' walId data timestamp now, request.operation = some (walId, data) ∧
    point = .responding context' request (data.reply context.state.accountList.length) ∧
    contents point world' =
      { bytes := world.disk.bytes ++ StorageWalEntry.safe { id := walId, timestamp, data }
        transactions := context.storageWal.transactions + 1
        accounts := data.apply timestamp now context.state.accountList.accounts }

/-- An error reply or the reply to an inquiry, with nothing changed. -/
def RepliedUnchanged (context : Let) (world : World) (request : NetworkRequest) (point : LetRun)
    (world' : World) : Prop :=
  ∃ context' response, point = .responding context' request response ∧
    ((∃ error, response = .error error) ∨ request.inquiry context = some response) ∧
    contents point world' = contents (.processing context request) world

/-- The end of the loops after a fatal error, with nothing sent. -/
def StoppedFatally (world : World) (point : LetRun) (world' : World) : Prop :=
  ∃ context', point = .finished context' ∧ (errorReport context'.error).action = .fatal ∧
    world'.sent = world.sent

/-- In every reachable state every request ends in exactly one of three ways. -/
theorem reply_means_committed {point : LetRun} {world : World} (hreachable : Reachable point world)
    (hrunning : ∀ context, point ≠ .finished context) (request : NetworkRequest) :
    Meets false (fun _ => True)
      (fun point' world' =>
        (RepliedCommitted point.context world request point' world' ∨
          RepliedUnchanged point.context world request point' world' ∨
          StoppedFatally world point' world') ∧
        ¬(RepliedCommitted point.context world request point' world' ∧
          RepliedUnchanged point.context world request point' world') ∧
        ¬(RepliedCommitted point.context world request point' world' ∧
          StoppedFatally world point' world') ∧
        ¬(RepliedUnchanged point.context world request point' world' ∧
          StoppedFatally world point' world'))
      (letRunStep (.processing point.context request)) world := by
  obtain ⟨entries, hagrees⟩ := hreachable.agrees hrunning
  refine (letRunStep_processing_spec hagrees fun _ _ => trivial).weaken ?_
  intro point' world' hprocessed
  refine ⟨?_, ?_, ?_, ?_⟩
  · cases hprocessed with
    | @committed entry now context' requested limit accounts transactions =>
        refine .inl ⟨context', entry.id, entry.data, entry.timestamp, now, requested.operation,
          rfl, ?_⟩
        have hbytes : (syncedDisk (entries ++ [entry])).bytes = world.disk.bytes ++ entry.safe := by
          rw [hagrees.disk_eq]
          exact storageWalImage_concat entries entry
        change Contents.mk (syncedDisk (entries ++ [entry])).bytes context'.storageWal.transactions
          context'.state.accountList.accounts = _
        rw [hbytes, accounts, transactions]
    | answered inquiry => exact .inr (.inl ⟨_, _, rfl, .inr inquiry, rfl⟩)
    | refused action => exact .inr (.inl ⟨_, _, rfl, .inl ⟨_, rfl⟩, rfl⟩)
    | fatal action _ _ sent => exact .inr (.inr ⟨_, rfl, action, sent⟩)
  -- A record that was added makes the file longer.
  · rintro ⟨⟨_, _, _, _, _, _, _, hgrown⟩, ⟨_, _, _, _, hsame⟩⟩
    have hbytes := congrArg (List.length ∘ Contents.bytes) (hgrown.symm.trans hsame)
    simp [contents, storageWalEntrySafeSize] at hbytes
  · rintro ⟨⟨_, _, _, _, _, _, hresponding, _⟩, ⟨_, hfinished, _⟩⟩
    rw [hresponding] at hfinished
    cases hfinished
  · rintro ⟨⟨_, _, hresponding, _⟩, ⟨_, hfinished, _⟩⟩
    rw [hresponding] at hfinished
    cases hfinished

theorem reply_means_committed_fresh :
    Meets false (fun _ => True)
      (fun point' world' =>
        (RepliedCommitted freshContext freshWorld (.addAccount 0 3 9 7) point' world' ∨
          RepliedUnchanged freshContext freshWorld (.addAccount 0 3 9 7) point' world' ∨
          StoppedFatally freshWorld point' world') ∧
        ¬(RepliedCommitted freshContext freshWorld (.addAccount 0 3 9 7) point' world' ∧
          RepliedUnchanged freshContext freshWorld (.addAccount 0 3 9 7) point' world') ∧
        ¬(RepliedCommitted freshContext freshWorld (.addAccount 0 3 9 7) point' world' ∧
          StoppedFatally freshWorld point' world') ∧
        ¬(RepliedUnchanged freshContext freshWorld (.addAccount 0 3 9 7) point' world' ∧
          StoppedFatally freshWorld point' world'))
      (letRunStep (.processing freshContext (.addAccount 0 3 9 7))) freshWorld :=
  reply_means_committed reachable_fresh (fun _ heq => nomatch heq) (.addAccount 0 3 9 7)

end LetDX.LetDB
