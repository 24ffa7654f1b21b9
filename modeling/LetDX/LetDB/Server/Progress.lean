import LetDX.LetDB.Network.Reading
import LetDX.LetDB.Server.Footprints
import LetDX.LetDB.Server.Restarts

/-! # What the server can do

The specifications say what every run comes to. These are runs that there are:
the environment lets the server go on, or it refuses the memory for an account.
-/

namespace LetDX.LetDB

open Bytes Durable Effects Effects.Machine

/-- The system has a run of the program that ends so. -/
abbrev Can {α : Type} (program : Proc α) (world : World) (value : α) (world' : World) : Prop :=
  (system false).Returns program world value world'

section Calls

variable {world : World}

theorem can_of_connected {α : Type} {program : Proc α} {value : α} {world' : World}
    {input : List U8} (hreturns : (connected input).Returns program world value world') :
    Can program world value world' := by
  apply hreturns.mono
  rintro call world answer world' ⟨_, hexec⟩
  exact ⟨obliging input call world, hexec⟩

theorem can_time (now : Time) : Can Proc.time world now world :=
  returns_perform.mpr ⟨now, rfl⟩

theorem can_write {bytes : List U8} (hroom : bytes.length ≤ Disk.offsetMax - world.disk.cursor) :
    Can (Proc.write bytes) world (some bytes.length)
      { world with disk := world.disk.put bytes } := by
  have htake : bytes.take (min bytes.length (Disk.offsetMax - world.disk.cursor)) = bytes := by
    rw [Nat.min_eq_left hroom, List.take_length]
  refine returns_perform.mpr ⟨((bytes.length, true) : Nat × Bool), ?_⟩
  change (some (bytes.take (min bytes.length (Disk.offsetMax - world.disk.cursor))).length, _) = _
  rw [htake]
  exact congrArg (fun data => (some bytes.length, { world with disk := world.disk.put data })) htake

theorem can_send {bytes : List U8} :
    Can (Proc.send bytes) world (.sent bytes.length)
      { world with sent := world.sent ++ bytes } := by
  refine returns_perform.mpr ⟨SendResult.sent bytes.length, ?_⟩
  change (SendResult.sent (bytes.take bytes.length).length,
    { world with sent := world.sent ++ bytes.take bytes.length }) = _
  rw [List.take_length]
  rfl

end Calls

/-! ## Accounts and log -/

section Requests

variable {world : World} {list : AccountList}

theorem accountSize_mul_le (hcapacity : list.capacity.toNat ≤ 2 ^ 50) :
    (accountSize * (ckdMul list.capacity 2).1).toNat ≤ allocationMax := by
  rw [toNat_accountSize_mul (by omega), allocationMax]
  omega

/-- The room for accounts once one more has been added. -/
def AccountList.capacityAfter (list : AccountList) : Nat :=
  if list.accounts.length < list.capacity.toNat then list.capacity.toNat
  else list.capacity.toNat * 2

theorem can_accountListAdd (account : Account) (hcapacity : list.capacity.toNat ≤ 2 ^ 50) :
    ∃ list' : AccountList, list'.accounts = list.accounts ++ [account] ∧
      list'.capacity.toNat = list.capacityAfter ∧
      ∀ world, Can (accountListAdd list account) world (.none, list') world := by
  have hlength := list.toNat_length
  unfold accountListAdd
  split
  next hfull =>
    rw [ge_iff_le, BitVec.le_def, hlength] at hfull
    rw [dif_neg (not_ckdMul_two (by omega))]
    refine ⟨_, rfl, ?_, fun _ =>
      .bind (Proc.returns_realloc true fun _ => accountSize_mul_le hcapacity) (.pure _ _)⟩
    rw [AccountList.capacityAfter, if_neg (by omega)]
    exact (toNat_ckdMul_two (by omega)).trans (Nat.mul_comm 2 _)
  next hroom =>
    rw [ge_iff_le, BitVec.le_def, hlength] at hroom
    refine ⟨_, rfl, ?_, fun _ => .pure _ _⟩
    rw [AccountList.capacityAfter, if_pos (by omega)]
    rfl

theorem can_refuse_accountListAdd (account : Account)
    (hfull : list.accounts.length = list.capacity.toNat)
    (hcapacity : list.capacity.toNat ≤ 2 ^ 50) :
    Can (accountListAdd list account) world (.account .outOfMemory, list) world := by
  have hlength := list.toNat_length
  unfold accountListAdd
  rw [dif_pos (by bv_omega), dif_neg (not_ckdMul_two (by omega))]
  exact .bind (Proc.returns_realloc false fun _ => accountSize_mul_le hcapacity) (.pure _ _)

variable {entries : List StorageWalEntry} {entry : StorageWalEntry} {storageWal : StorageWal}
  {synced : Nat} {context : Let}

theorem can_storageWalWrite (hdisk : world.disk = logDisk entries synced)
    (hsynced : synced ≤ (storageWalImage entries).length)
    (hlimit : (storageWalImage (entries ++ [entry])).length ≤ Disk.offsetMax)
    (hid : entry.id = storageWal.transactions) :
    Can (storageWalWrite storageWal entry) world
      (.none, { storageWal with transactions := storageWal.transactions + 1 })
      { world with disk := syncedDisk (entries ++ [entry]) } := by
  have hlength := entry.length_safe
  have hroom : storageWalEntrySafeSize ≤ Disk.offsetMax - world.disk.cursor := by
    rw [storageWalImage_concat, List.length_append, hlength] at hlimit
    have hcursor : world.disk.cursor = (storageWalImage entries).length := by
      rw [hdisk, logDisk]
    omega
  have hput : world.disk.put entry.safe = logDisk (entries ++ [entry]) synced := by
    rw [hdisk, logDisk, Disk.put_end hsynced, hlength, ← tornDisk_full, tornDisk, ← hlength,
      List.take_length]
  have hwritten := can_write (hlength ▸ hroom)
  rw [hput, hlength] at hwritten
  unfold storageWalWrite
  rw [if_neg (not_not.mpr hid)]
  refine .bind hwritten ?_
  rw [if_neg (by simp)]
  exact .bind (.bind (.perform true _) (.pure _ _)) (.pure _ _)

/-- A request whose entry is written, and what comes of its change of the state. -/
theorem can_letRequestLogged {response response' : NetworkResponse} {error : Error}
    {state' : State} {mutate : State → Proc (Error × State × NetworkResponse)}
    (hagrees : Agrees entries context world.disk)
    (hid : entry.id = BitVec.ofNat 64 entries.length)
    (hlimit : (storageWalImage (entries ++ [entry])).length ≤ Disk.offsetMax)
    (hmutate : Can (mutate context.state)
      { world with disk := syncedDisk (entries ++ [entry]) } (error, state', response')
      { world with disk := syncedDisk (entries ++ [entry]) }) :
    Can (letRequestLogged context entry response mutate) world
      (error, { context with
        storageWal := { transactions := context.storageWal.transactions + 1 }, state := state' },
        response')
      { world with disk := syncedDisk (entries ++ [entry]) } := by
  have hwritten := can_storageWalWrite hagrees.disk_eq hagrees.synced_le hlimit
    (hid.trans hagrees.transactions.symm)
  exact .bind hwritten (.bind hmutate (.pure _ _))

/-- The entry of a request for an account at the first second of the clock. -/
def accountEntry (walId : U64) (credits debits : U128) (flags : U8) : StorageWalEntry :=
  storageWalEntryNew walId 1 (.addAccount credits debits flags)

variable {walId : U64} {credits debits : U128} {flags : U8}

/-- The world once the entry of a request for an account is in the log. -/
def afterEntry (entries : List StorageWalEntry) (walId : U64) (credits debits : U128) (flags : U8)
    (world : World) : World :=
  { world with disk := syncedDisk (entries ++ [accountEntry walId credits debits flags]) }

/-- The context once the entry is in the log, with this account list. -/
def contextAfter (context : Let) (list : AccountList) (error : Error) : Let where
  state := { accountList := list }
  storageWal := { transactions := context.storageWal.transactions + 1 }
  error := error

theorem can_letRequestAddAccount {error : Error} {list' : AccountList}
    (hagrees : Agrees entries context world.disk)
    (hid : walId = BitVec.ofNat 64 entries.length)
    (hlimit : (storageWalImage (entries ++ [accountEntry walId credits debits flags])).length ≤
      Disk.offsetMax)
    (hadded : ∀ world, Can (accountListAdd context.state.accountList
      (accountNew credits debits 1 flags)) world (error, list') world) :
    Can (letRequest context (.addAccount walId credits debits flags) networkResponseEmpty) world
      (error, contextAfter context list' context.error,
        if errorExists error then networkResponseEmpty
        else .addAccount context.state.accountList.length)
      (afterEntry entries walId credits debits flags world) := by
  refine .bind (can_time 1) ?_
  rw [if_neg (by decide)]
  refine can_letRequestLogged hagrees hid hlimit (.bind (.bind (hadded _) (.pure _ _)) ?_)
  dsimp only
  split
  · exact .pure _ _
  · exact .pure _ _

/-- The step in which an account is added. -/
theorem can_add (world : World) (hagrees : Agrees entries context world.disk)
    (hid : walId = BitVec.ofNat 64 entries.length)
    (hlimit : (storageWalImage (entries ++ [accountEntry walId credits debits flags])).length ≤
      Disk.offsetMax)
    (hcapacity : context.state.accountList.capacity.toNat ≤ 2 ^ 50) :
    ∃ list' : AccountList,
      list'.accounts =
        context.state.accountList.accounts ++ [accountNew credits debits 1 flags] ∧
      list'.capacity.toNat = context.state.accountList.capacityAfter ∧
      Can (letRunStep (.processing context (.addAccount walId credits debits flags))) world
        (.responding (contextAfter context list' .none) (.addAccount walId credits debits flags)
          (.addAccount context.state.accountList.length))
        (afterEntry entries walId credits debits flags world) := by
  obtain ⟨list', haccounts', hcapacity', hadded⟩ :=
    can_accountListAdd (accountNew credits debits 1 flags) hcapacity
  exact ⟨list', haccounts', hcapacity',
    .bind (can_letRequestAddAccount hagrees hid hlimit hadded) (.pure _ _)⟩

/-- The step in which there is no memory for an account. -/
theorem can_exhaust (world : World) (hagrees : Agrees entries context world.disk)
    (hid : walId = BitVec.ofNat 64 entries.length)
    (hlimit : (storageWalImage (entries ++ [accountEntry walId credits debits flags])).length ≤
      Disk.offsetMax)
    (hfull : context.state.accountList.accounts.length =
      context.state.accountList.capacity.toNat)
    (hcapacity : context.state.accountList.capacity.toNat ≤ 2 ^ 50) :
    ∃ world', world'.disk = syncedDisk (entries ++ [accountEntry walId credits debits flags]) ∧
      Can (letRunStep (.processing context (.addAccount walId credits debits flags))) world
        (.finished (contextAfter context context.state.accountList (.account .outOfMemory)))
        world' := by
  have hrefused (world : World) : Can (accountListAdd context.state.accountList
      (accountNew credits debits 1 flags)) world
      (.account .outOfMemory, context.state.accountList) world :=
    can_refuse_accountListAdd _ hfull hcapacity
  have hstopped : Meets false (fun _ => True)
      (fun point world' =>
        point = .finished (contextAfter context context.state.accountList (.account .outOfMemory)) ∧
          world'.disk = syncedDisk (entries ++ [accountEntry walId credits debits flags]))
      (letRunDispatch (contextAfter context context.state.accountList (.account .outOfMemory))
        (.addAccount walId credits debits flags) networkResponseEmpty)
      (afterEntry entries walId credits debits flags world) :=
    letRunDispatch_fatal trivial rfl fun _ hflags => ⟨rfl, hflags.disk⟩
  obtain ⟨point, world', hreturns⟩ := hstopped.exists_returns
  obtain ⟨rfl, hdisk⟩ := hstopped.returns hreturns
  exact ⟨world', hdisk, .bind (can_letRequestAddAccount hagrees hid hlimit hrefused) hreturns⟩

end Requests

/-! ## The loops -/

section Loops

variable {world : World} {context : Let} {request : NetworkRequest} {response : NetworkResponse}

theorem can_letRunExecuting (hexecuting : world.executing = true) :
    Can (letRunExecuting context) world (.reading context) world := by
  refine .bind (returns_perform.mpr ⟨false, rfl⟩) ?_
  change Can (if world.executing then _ else _) world _ world
  rw [if_pos hexecuting]
  exact .pure _ _

theorem can_accept : Can (letRunStep (.accepting context)) world
    (.reading { context with error := .none })
    { world with received := [], sent := [], executing := true } := by
  refine .bind (.bind (returns_perform.mpr ⟨AcceptResult.handle 4, rfl⟩) (.pure _ _)) ?_
  exact .bind (returns_perform.mpr ⟨false, rfl⟩) (can_letRunExecuting rfl)

theorem can_read (request : NetworkRequest) : Can (letRunStep (.reading context)) world
    (.processing { context with error := .none } request)
    { world with received := world.received ++ request.line ++ [asciiNewline] } := by
  have hread : (connected (world.received ++ (request.line ++ asciiNewline :: []))).Ensures
      (fun _ => True) (fun result world' => result = (.none, request) ∧
        world' = { world with received := world.received ++ request.line ++ [asciiNewline] })
      (networkClientRead networkRequestEmpty) world :=
    networkClientRead_request rfl ⟨rfl, rfl⟩
  obtain ⟨result, world', hreturns⟩ := hread.exists_returns
  obtain ⟨rfl, rfl⟩ := hread.returns hreturns
  exact .bind (can_of_connected hreturns) (.pure _ _)

theorem can_networkClientWrite : Can (networkClientWrite response) world .none
    { world with sent := world.sent ++ response.bytes } := by
  rw [networkClientWrite_eq]
  by_cases hempty : response.bytes = []
  · rw [hempty, List.append_nil]
    exact .leave (.pure _ _)
  · have hround : Can (networkClientWriteRound response.bytes) world (.inl [])
        { world with sent := world.sent ++ response.bytes } := by
      unfold networkClientWriteRound
      rw [if_neg hempty]
      refine .bind can_send ?_
      dsimp only
      rw [if_neg (by simpa using hempty), List.drop_length]
      exact .pure _ _
    exact .again hround (.leave (.pure _ _))

theorem can_respond (hexecuting : world.executing = true) (hopen : request ≠ .close) :
    Can (letRunStep (.responding context request response)) world
      (.reading { context with error := .none })
      { world with sent := world.sent ++ response.bytes } := by
  refine .bind can_networkClientWrite ?_
  unfold letRunResponded
  rw [if_neg (by simp [errorExists]), if_neg hopen]
  exact can_letRunExecuting hexecuting

end Loops

/-! ## Starting on a log of new accounts -/

/-- The list has been doubled only when it was full. -/
def AccountList.Frugal (list : AccountList) : Prop :=
  list.capacity.toNat ≤ max 1024 (list.accounts.length * 2)

section Starting

variable {world : World} {entries : List StorageWalEntry}

theorem AccountList.frugal_of_capacityAfter {list list' : AccountList}
    (hfrugal : list.Frugal) (hlength : list'.accounts.length = list.accounts.length + 1)
    (hcapacity : list'.capacity.toNat = list.capacityAfter) : list'.Frugal := by
  have hbounded := list.bounded
  unfold AccountList.Frugal at hfrugal ⊢
  rw [hlength, hcapacity, AccountList.capacityAfter]
  split <;> omega

theorem AccountList.Frugal.capacity_le {list : AccountList} (hfrugal : list.Frugal)
    (hlength : list.accounts.length ≤ 2 ^ 40) : list.capacity.toNat ≤ 2 ^ 50 := by
  unfold AccountList.Frugal at hfrugal
  omega

/-- The entry is one of a new account. -/
def StorageWalEntryData.IsAccount : StorageWalEntryData → Prop
  | addAccount .. => True
  | makeTransfer .. | updateAccount .. => False

theorem can_read_file {count : Nat} : Can (Proc.read count) world (some (world.disk.peek count))
    { world with disk := world.disk.seek (world.disk.cursor + (world.disk.peek count).length) } :=
  returns_perform.mpr ⟨true, rfl⟩

theorem can_seek_end : Can (storageWalSeek 0 .end) world .none
    { world with disk := world.disk.seek world.disk.bytes.length } :=
  .bind (returns_perform.mpr ⟨true, rfl⟩) (.pure _ _)

theorem can_storageWalInit (hfile : world.disk.file = some (storageWalImage entries)) :
    Can storageWalInit world .none
      { world with disk := world.disk.seek (storageWalImage entries).length } := by
  have hbytes : world.disk.bytes = storageWalImage entries := by
    rw [Disk.bytes, hfile, Option.getD_some]
  have hexclusive : Can Proc.openExclusive world .exists world := by
    refine returns_perform.mpr ⟨true, ?_⟩
    simp [system, Syscall.exec, hfile]
  have hexisting : Can Proc.openExisting world true { world with disk := world.disk.seek 0 } := by
    refine returns_perform.mpr ⟨true, ?_⟩
    simp [system, Syscall.exec, hfile]
  refine .bind hexclusive (.bind hexisting (.bind can_read_file ?_))
  have hmagic : (world.disk.seek 0).peek 8 = toLittleEndian 8 storageWalHeaderMagic.toNat := by
    rw [Disk.peek, Disk.seek_bytes, Disk.seek_cursor, hbytes, List.drop_zero, storageWalImage,
      storageWalHeader, List.append_assoc]
    exact List.take_left' (by simp)
  have hvalue : BitVec.ofNat 64 (ofLittleEndian (toLittleEndian 8 storageWalHeaderMagic.toNat)) =
      storageWalHeaderMagic := ofNat_ofLittleEndian_toNat 8 _ (by omega)
  have hversion : (world.disk.seek 8).peek 2 = toLittleEndian 2 storageWalHeaderVersion.toNat := by
    rw [Disk.peek, Disk.seek_bytes, Disk.seek_cursor, hbytes, storageWalImage, storageWalHeader,
      List.append_assoc, List.drop_left' (by simp)]
    exact List.take_left' (by simp)
  have hvalue' : BitVec.ofNat 16 (ofLittleEndian (toLittleEndian 2
      storageWalHeaderVersion.toNat)) = storageWalHeaderVersion :=
    ofNat_ofLittleEndian_toNat 2 _ (by omega)
  simp only [hmagic, length_toLittleEndian, hvalue, ne_eq, not_true_eq_false, if_false]
  refine .bind can_read_file ?_
  simp only [Disk.seek_cursor, Disk.seek_seek, Nat.zero_add, hversion, length_toLittleEndian,
    hvalue', not_true_eq_false, if_false]
  refine .bind can_seek_end ?_
  simp only [Disk.seek_seek, Disk.seek_bytes, hbytes]
  exact .pure _ _

/-- The round in which the entry of an account is replayed. -/
theorem can_storageWalReplayRound {index : Nat} {loop : StorageWalReplay}
    (truncateOnFailure : Bool) (hfile : world.disk.file = some (storageWalImage entries))
    (hindex : index < entries.length) (haccount : entries[index].data.IsAccount)
    (hcapacity : loop.state.accountList.capacity.toNat ≤ 2 ^ 50) :
    ∃ list' : AccountList,
      list'.accounts.length = loop.state.accountList.accounts.length + 1 ∧
      list'.capacity.toNat = loop.state.accountList.capacityAfter ∧
      Can (storageWalReplayRound truncateOnFailure loop)
        { world with
          disk := world.disk.seek (storageWalHeaderLength + index * storageWalEntrySafeSize) }
        (.inl { state := { accountList := list' }, transactions := loop.transactions + 1,
                fileOffset := loop.fileOffset + storageWalEntrySafeSize })
        { world with
          disk := world.disk.seek
            (storageWalHeaderLength + (index + 1) * storageWalEntrySafeSize) } := by
  have hread : (world.disk.seek (storageWalHeaderLength + index * storageWalEntrySafeSize)).peek
      storageWalEntrySafeSize = entries[index].safe := by
    rw [Disk.peek, Disk.bytes, Disk.seek_file, hfile, Option.getD_some, Disk.seek_cursor]
    have hplace := read_storageWalImage hindex []
    rwa [List.append_nil] at hplace
  have hentry := recordEntry_safe entries[index]
  have hintact := (intact_safe entries[index]).2
  have hlength := entries[index].length_safe
  generalize entries[index] = entry at *
  obtain ⟨id, timestamp, data⟩ := entry
  cases data with
  | makeTransfer | updateAccount => exact haccount.elim
  | addAccount credits debits flags =>
      obtain ⟨list', haccounts, hcapacity', hadded⟩ :=
        can_accountListAdd (accountNew credits debits timestamp flags) hcapacity
      refine ⟨list', by rw [haccounts, List.length_append]; rfl, hcapacity',
        .bind can_read_file ?_⟩
      rw [hread, hlength, Disk.seek_cursor, Disk.seek_seek, Nat.add_assoc, ← Nat.succ_mul]
      simp only [hlength, ne_eq, not_true_eq_false, if_false]
      rw [if_neg (not_not.mpr hintact), storageWalReplayEntry]
      rw [recordEntry] at hentry
      rw [hentry]
      exact .bind (.bind (.bind (hadded _) (.pure _ _)) (.pure _ _)) (.pure _ _)

/-- The replay of a log of new accounts. -/
theorem can_storageWalReplayLoop (truncateOnFailure : Bool) (loop : StorageWalReplay)
    {remaining index : Nat} (hfile : world.disk.file = some (storageWalImage entries))
    (haccounts : ∀ entry ∈ entries, entry.data.IsAccount) (hcount : entries.length ≤ 2 ^ 40)
    (hindex : index + remaining = entries.length)
    (hlength : loop.state.accountList.accounts.length = index)
    (hfrugal : loop.state.accountList.Frugal) :
    ∃ loop' : StorageWalReplay, loop'.state.accountList.accounts.length = entries.length ∧
      loop'.state.accountList.Frugal ∧
      Can (Program.iterate (storageWalReplayRound truncateOnFailure) loop)
        { world with
          disk := world.disk.seek (storageWalHeaderLength + index * storageWalEntrySafeSize) }
        (loop', .stopped (some 0))
        { world with disk := world.disk.seek (storageWalImage entries).length } := by
  -- By the number of records that are still ahead.
  induction remaining generalizing index loop with
  | zero =>
      obtain rfl : index = entries.length := hindex
      rw [← length_storageWalImage]
      have hread : (world.disk.seek (storageWalImage entries).length).peek
          storageWalEntrySafeSize = [] := by
        rw [Disk.peek, Disk.bytes, Disk.seek_file, hfile, Option.getD_some, Disk.seek_cursor,
          List.drop_length, List.take_nil]
      refine ⟨loop, hlength, hfrugal, .leave (.bind can_read_file ?_)⟩
      rw [hread]
      exact .pure _ _
  | succ remaining ih =>
      have hwithin : index < entries.length := by omega
      obtain ⟨list', hlength', hcapacity', hround⟩ := can_storageWalReplayRound
        truncateOnFailure hfile hwithin (haccounts _ (List.getElem_mem hwithin))
        (hfrugal.capacity_le (by omega))
      have hfrugal' := AccountList.frugal_of_capacityAfter hfrugal hlength' hcapacity'
      let next : StorageWalReplay :=
        { state := { accountList := list' }, transactions := loop.transactions + 1
          fileOffset := loop.fileOffset + storageWalEntrySafeSize }
      have hindex' : index + 1 + remaining = entries.length := by omega
      obtain ⟨loop', hall, hlast, hrest⟩ :=
        ih next hindex' (hlength'.trans (congrArg Nat.succ hlength)) hfrugal'
      exact ⟨loop', hall, hlast, .again hround hrest⟩

theorem can_letInitStorage {state : State} (truncateOnFail : Bool) (world : World)
    (hfile : world.disk.file = some (storageWalImage entries))
    (haccounts : ∀ entry ∈ entries, entry.data.IsAccount) (hcount : entries.length ≤ 2 ^ 40)
    (hempty : state.accountList.accounts = []) (hfrugal : state.accountList.Frugal) :
    ∃ storageWal state', state'.accountList.accounts.length = entries.length ∧
      state'.accountList.Frugal ∧
      Can (letInitStorage state truncateOnFail) world (.none, storageWal, state')
        { world with disk := world.disk.seek (storageWalImage entries).length } := by
  obtain ⟨loop, hlength, hfrugal', hloop⟩ := can_storageWalReplayLoop truncateOnFail
    { state, transactions := 0, fileOffset := storageWalHeaderLength } hfile haccounts hcount
    (Nat.zero_add _) (congrArg List.length hempty) hfrugal
  rw [Nat.zero_mul, Nat.add_zero] at hloop
  have hstart : Can (storageWalSeek storageWalHeaderLength .start)
      { world with disk := world.disk.seek (storageWalImage entries).length } .none
      { world with disk := world.disk.seek storageWalHeaderLength } :=
    .bind (returns_perform.mpr ⟨true, rfl⟩) (.pure _ _)
  have htail : Can (storageWalReplayTail truncateOnFail loop.fileOffset (some 0))
      { world with disk := world.disk.seek (storageWalImage entries).length } .none
      { world with disk := world.disk.seek (storageWalImage entries).length } := by
    have hend : Can (storageWalSeek 0 .end)
        { world with disk := world.disk.seek (storageWalImage entries).length } .none _ :=
      can_seek_end
    rwa [Disk.bytes, Disk.seek_file, hfile, Option.getD_some, Disk.seek_seek] at hend
  exact ⟨{ transactions := loop.transactions }, loop.state, hlength, hfrugal',
    .bind (can_storageWalInit hfile) (.bind hstart (.bind hloop (.bind htail (.pure _ _))))⟩

/-- A server that starts on a log of new accounts, with no signal. -/
theorem can_letStart {disk : Disk} (hfile : disk.file = some (storageWalImage entries))
    (haccounts : ∀ entry ∈ entries, entry.data.IsAccount) (hcount : entries.length ≤ 2 ^ 40) :
    ∃ context world', context.state.accountList.accounts.length = entries.length ∧
      context.state.accountList.Frugal ∧
      Can (letStart cliEmpty) { disk } (.ok (.accepting context)) world' := by
  have hlist : Can accountListNew { disk } (some .empty) { disk } :=
    .bind (Proc.returns_malloc (by decide)) (.bind (Proc.returns_malloc (by decide)) (.pure _ _))
  have hfrugal : AccountList.empty.Frugal := by
    rw [AccountList.Frugal]
    decide
  obtain ⟨storageWal, state, hlength, hfrugal, hinit⟩ :=
    can_letInitStorage false { disk } hfile haccounts hcount rfl hfrugal
  let context : Let := { state, storageWal, error := .none }
  let ready (accepting : Bool) : World :=
    { disk := disk.seek (storageWalImage entries).length, accepting }
  have hserver (world : World) :
      Can (networkServerInit cliEmpty.port cliEmpty.backlog) world .none world :=
    .bind (returns_perform.mpr ⟨true, rfl⟩) (.bind (returns_perform.mpr ⟨true, rfl⟩)
      (.bind (returns_perform.mpr ⟨true, rfl⟩) (.pure _ _)))
  have hready : Can (letInit cliEmpty) { disk } (.ok context) (ready true) :=
    .bind hlist (.bind hinit (.bind (hserver _)
      (.bind (returns_perform.mpr ⟨false, rfl⟩) (.pure _ _))))
  exact ⟨context, ready true, hlength, hfrugal,
    .bind hready (.bind (.bind (returns_perform.mpr ⟨false, rfl⟩) (.pure _ _)) (.pure _ _))⟩

end Starting

end LetDX.LetDB
