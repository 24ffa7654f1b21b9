import LetDX.LetDB.Let
import LetDX.LetDB.Server.Policy
import LetDX.LetDB.Storage.Replay

/-! # What one request does

While log and memory agree, a request commits its operation in both, or leaves
both alone, or comes to a fatal error. The write of the log is the only moment
at which the file holds anything but a whole log.
-/

namespace LetDX.LetDB

open Durable Effects

/-- The sequence number and the operation of a mutating request. -/
def NetworkRequest.operation : NetworkRequest → Option (U64 × StorageWalEntryData)
  | addAccount walId credits debits flags => some (walId, .addAccount credits debits flags)
  | makeTransfer walId fromId toId amount => some (walId, .makeTransfer fromId toId amount)
  | updateAccount walId accountId flags => some (walId, .updateAccount accountId flags)
  | magic | getAccount _ | countDatabase | close => none

/-- The success reply to an operation on this many accounts. -/
def StorageWalEntryData.reply (length : U64) : StorageWalEntryData → NetworkResponse
  | addAccount .. => .addAccount length
  | makeTransfer .. | updateAccount .. => .ok

/-- The success reply to a request that changes nothing. -/
def NetworkRequest.inquiry (context : Let) : NetworkRequest → Option NetworkResponse
  | magic => some .magic
  | getAccount accountId =>
      (context.state.accountList.accounts[accountId.toNat]?).map fun account =>
        .getAccount account.credits account.debits account.flags
  | countDatabase =>
      some (.countDatabase context.state.accountList.length context.storageWal.transactions)
  | close => some .ok
  | addAccount .. | makeTransfer .. | updateAccount .. => none

/-- Entries as the server writes them: numbered from zero, and each admitted by
the guard after those before it. -/
structure Wellformed (entries : List StorageWalEntry) : Prop where
  numbered : entries.map StorageWalEntry.id = (List.range entries.length).map (BitVec.ofNat 64)
  admitted : Ledger.Admitted guardPolicy (entries.map StorageWalEntry.posting)

/-- The file is a log, and the memory is its replay. -/
structure Agrees (entries : List StorageWalEntry) (context : Let) (disk : Disk) : Prop where
  wellformed : Wellformed entries
  disk_eq : disk = logDisk entries disk.synced
  synced_le : disk.synced ≤ (storageWalImage entries).length
  limit : (storageWalImage entries).length ≤ Disk.offsetMax
  transactions : context.storageWal.transactions = BitVec.ofNat 64 entries.length
  ledger : ledgerOf context.state.accountList.accounts =
    Ledger.balance (entries.map StorageWalEntry.posting)

theorem Wellformed.concat {entries : List StorageWalEntry} {entry : StorageWalEntry}
    (hwell : Wellformed entries) (hid : entry.id = BitVec.ofNat 64 entries.length)
    (hpolicy : guardPolicy (Ledger.balance (entries.map StorageWalEntry.posting)) entry.posting) :
    Wellformed (entries ++ [entry]) where
  numbered := by
    rw [List.map_append, List.length_append, List.length_singleton, List.range_succ,
      List.map_append, hwell.numbered, List.map_singleton, List.map_singleton, hid]
  admitted := by
    rw [List.map_append, List.map_singleton]
    exact hwell.admitted.concat hpolicy

theorem Wellformed.named {entries : List StorageWalEntry} (hwell : Wellformed entries) :
    Ledger.WellNamed U64 (entries.map StorageWalEntry.posting) :=
  hwell.admitted.mono fun _ _ => names_of_guardPolicy

/-- A log that fits in a file has far fewer than 2^63 entries. -/
theorem length_lt_of_limit {entries : List StorageWalEntry}
    (hlimit : (storageWalImage entries).length ≤ Disk.offsetMax) : entries.length < 2 ^ 63 := by
  rw [length_storageWalImage, storageWalEntrySafeSize, Disk.offsetMax] at hlimit
  omega

/-- The entry that a request asks for, if the guard admits it now. -/
structure Requested (entries : List StorageWalEntry) (request : NetworkRequest)
    (entry : StorageWalEntry) : Prop where
  operation : request.operation = some (entry.id, entry.data)
  numbered : entry.id = BitVec.ofNat 64 entries.length
  permitted : guardPolicy (Ledger.balance (entries.map StorageWalEntry.posting)) entry.posting

/-- The disk while the entry of a request is being appended. -/
inductive Appending (entries : List StorageWalEntry) (request : NetworkRequest) (synced : Nat) :
    Disk → Prop
  | torn {entry : StorageWalEntry} {count : Nat} (requested : Requested entries request entry)
      (within : count ≤ storageWalEntrySafeSize)
      (limit : (storageWalImage entries).length + count ≤ Disk.offsetMax) :
      Appending entries request synced (tornDisk entries entry synced count)
  | synced {entry : StorageWalEntry} (requested : Requested entries request entry)
      (limit : (storageWalImage (entries ++ [entry])).length ≤ Disk.offsetMax) :
      Appending entries request synced (syncedDisk (entries ++ [entry]))

inductive RequestOutcome (entries : List StorageWalEntry) (context : Let)
    (request : NetworkRequest) (world : World) : Error × Let × NetworkResponse → World → Prop
  | committed {entry : StorageWalEntry} {now : Time} {context' : Let}
      (requested : Requested entries request entry)
      (limit : (storageWalImage (entries ++ [entry])).length ≤ Disk.offsetMax)
      (accounts : context'.state.accountList.accounts =
        entry.data.apply entry.timestamp now context.state.accountList.accounts)
      (transactions : context'.storageWal.transactions = context.storageWal.transactions + 1) :
      RequestOutcome entries context request world
        (.none, context', entry.data.reply context.state.accountList.length)
        { world with disk := syncedDisk (entries ++ [entry]) }
  | answered {response : NetworkResponse} (inquiry : request.inquiry context = some response) :
      RequestOutcome entries context request world (.none, context, response) world
  | refused {error : Error} {response : NetworkResponse}
      (action : (errorReport error).action = .reject) :
      RequestOutcome entries context request world (error, context, response) world
  | fatal {error : Error} {context' : Let} {response : NetworkResponse} {disk : Disk}
      (action : (errorReport error).action = .fatal)
      (accounts : context'.state.accountList.accounts = context.state.accountList.accounts)
      (appending : disk = world.disk ∨ Appending entries request world.disk.synced disk) :
      RequestOutcome entries context request world (error, context', response)
        { world with disk }

section Rules

variable {reliable : Bool} {world : World} {entries : List StorageWalEntry} {context : Let}
  {request : NetworkRequest} {response : NetworkResponse}

/-- What a request does once it is admitted. -/
theorem letRequestLogged_spec {during : Disk → Prop} {entry : StorageWalEntry}
    {mutate : State → Proc (Error × State × NetworkResponse)}
    (hagrees : Agrees entries context world.disk)
    (hoperation : request.operation = some (entry.id, entry.data))
    (hpermitted : guardPolicy (Ledger.balance (entries.map StorageWalEntry.posting)) entry.posting)
    (hduring : ∀ disk, disk = world.disk ∨ Appending entries request world.disk.synced disk →
      during disk)
    (hmutate : ∀ world', during world'.disk → ∀ post,
      (∀ now state', state'.accountList.accounts =
        entry.data.apply entry.timestamp now context.state.accountList.accounts →
        post (.none, state', entry.data.reply context.state.accountList.length) world') →
      (∀ error response', (errorReport error).action = .fatal →
        post (error, context.state, response') world') →
      Meets reliable during post (mutate context.state) world') :
    Meets reliable during (RequestOutcome entries context request world)
      (letRequestLogged context entry response mutate) world := by
  have hrequested (hid : entry.id = context.storageWal.transactions) :
      Requested entries request entry :=
    ⟨hoperation, hid.trans hagrees.transactions, hpermitted⟩
  refine .bind (storageWalWrite_spec hagrees.disk_eq hagrees.synced_le (hduring _ (.inl rfl))
    ?_ ?_ ?_ hagrees.limit)
  · intro _
    exact .pure (hduring _ (.inl rfl)) (.refused rfl)
  -- The entry is not in the log for certain, and the error is fatal.
  · intro hid count hcount hlimit
    have hdisk : Appending entries request world.disk.synced
        (tornDisk entries entry world.disk.synced count) :=
      .torn (hrequested hid) hcount hlimit
    refine ⟨hduring _ (.inr hdisk), ?_⟩
    intro error herror
    have hfatal : (errorReport (.storage error)).action = .fatal := by
      rcases List.mem_cons.mp herror with rfl | herror
      · rfl
      · obtain rfl := List.mem_singleton.mp herror
        rfl
    exact .pure (hduring _ (.inr hdisk)) (.fatal hfatal rfl (.inr hdisk))
  -- The entry is in the log, and only memory is left to follow.
  · intro hid hlimit
    have hdisk : Appending entries request world.disk.synced (syncedDisk (entries ++ [entry])) :=
      .synced (hrequested hid) hlimit
    refine ⟨hduring _ (.inr hdisk), .bind (hmutate _ (hduring _ (.inr hdisk)) _ ?_ ?_)⟩
    · intro now state' haccounts
      exact .pure (hduring _ (.inr hdisk)) (.committed (hrequested hid) hlimit haccounts rfl)
    · intro error response' hfatal
      exact .pure (hduring _ (.inr hdisk)) (.fatal hfatal rfl (.inr hdisk))

variable {during : Disk → Prop} {timeNow : Time}

theorem Agrees.accounts_length {disk : Disk} (hagrees : Agrees entries context disk) :
    context.state.accountList.accounts.length =
      (Ledger.balance (entries.map StorageWalEntry.posting) : List LedgerAccount).length := by
  rw [← hagrees.ledger, length_ledgerOf]

theorem Agrees.accounts_lt {disk : Disk} (hagrees : Agrees entries context disk) :
    context.state.accountList.accounts.length < 2 ^ 63 := by
  rw [hagrees.accounts_length]
  refine (Ledger.length_balance_le _).trans_lt ?_
  rw [List.length_map]
  exact length_lt_of_limit hagrees.limit

theorem letRequestAddAccount_spec {walId : U64} {credits debits : U128} {flags : U8}
    (hagrees : Agrees entries context world.disk)
    (hrequest : request = .addAccount walId credits debits flags)
    (hduring : ∀ disk, disk = world.disk ∨ Appending entries request world.disk.synced disk →
      during disk) :
    Meets reliable during (RequestOutcome entries context request world)
      (letRequestAddAccount context response timeNow walId credits debits flags) world := by
  refine letRequestLogged_spec hagrees (by rw [hrequest]; rfl) trivial hduring ?_
  intro world' hinstant post happlied hfatal
  refine .bind (stateAddAccount_spec hinstant hagrees.accounts_lt ?_ ?_)
  · intro state' haccounts
    exact .pure hinstant (happlied timeNow state' haccounts)
  · intro _
    exact .pure hinstant (hfatal _ _ rfl)

theorem letRequestMakeTransfer_spec {walId fromId toId : U64} {amount : U128}
    (hagrees : Agrees entries context world.disk)
    (hrequest : request = .makeTransfer walId fromId toId amount)
    (hduring : ∀ disk, disk = world.disk ∨ Appending entries request world.disk.synced disk →
      during disk) :
    Meets reliable during (RequestOutcome entries context request world)
      (letRequestMakeTransfer context response timeNow walId fromId toId amount) world := by
  unfold letRequestMakeTransfer
  dsimp only
  by_cases hguard : guardMakeTransfer context.state fromId toId amount = .none
  · rw [hguard, if_neg (by decide)]
    have hpolicy := (guardMakeTransfer_eq_none_iff _ _ _ _).mp hguard
    obtain ⟨hfrom, hto, _⟩ := names_of_guardPolicy hpolicy
    rw [length_ledgerOf] at hfrom hto
    refine letRequestLogged_spec hagrees (by rw [hrequest]; rfl) (hagrees.ledger ▸ hpolicy)
      hduring ?_
    intro world' hinstant post happlied hfatal
    refine .bind (stateMakeTransfer_spec hinstant hfrom hto ?_ ?_)
    · intro now state' haccounts
      exact .pure hinstant (happlied now state' haccounts)
    · intro _
      exact .pure hinstant (hfatal _ _ rfl)
  · rw [if_pos (by simpa [errorExists] using hguard)]
    exact .pure (hduring _ (.inl rfl)) (.refused (errorReport_guardMakeTransfer hguard))

theorem letRequestUpdateAccount_spec {walId accountId : U64} {flags : U8}
    (hagrees : Agrees entries context world.disk)
    (hrequest : request = .updateAccount walId accountId flags)
    (hduring : ∀ disk, disk = world.disk ∨ Appending entries request world.disk.synced disk →
      during disk) :
    Meets reliable during (RequestOutcome entries context request world)
      (letRequestUpdateAccount context response timeNow walId accountId flags) world := by
  unfold letRequestUpdateAccount
  dsimp only
  by_cases hguard : guardUpdateAccount context.state accountId = .none
  · rw [hguard, if_neg (by decide)]
    have hpolicy := (guardUpdateAccount_eq_none_iff _ _ flags).mp hguard
    have haccount : accountId.toNat < context.state.accountList.accounts.length := by
      rw [← length_ledgerOf]
      exact hpolicy
    refine letRequestLogged_spec hagrees (by rw [hrequest]; rfl) (hagrees.ledger ▸ hpolicy)
      hduring ?_
    intro world' hinstant post happlied hfatal
    refine .bind (stateUpdateAccount_spec hinstant haccount ?_)
    intro state' haccounts
    exact .pure hinstant (happlied timeNow state' haccounts)
  · rw [if_pos (by simpa [errorExists] using hguard)]
    exact .pure (hduring _ (.inl rfl)) (.refused (errorReport_guardUpdateAccount hguard))

theorem letRequestGetAccount_outcome {accountId : U64}
    (hrequest : request = .getAccount accountId) :
    RequestOutcome entries context request world
      (letRequestGetAccount context response accountId) world := by
  have hlength := context.state.accountList.toNat_length
  unfold letRequestGetAccount accountListGet
  split
  next error hget =>
    split at hget
    · obtain rfl := Except.error.inj hget
      exact .refused rfl
    · cases hget
  next account hget =>
    split at hget
    · cases hget
    next hslot =>
      obtain rfl := Except.ok.inj hget
      have hindex : accountId.toNat < context.state.accountList.accounts.length := by
        rw [← hlength]
        exact BitVec.lt_def.mp (BitVec.not_le.mp hslot)
      refine .answered ?_
      rw [hrequest]
      simp [NetworkRequest.inquiry, List.getElem?_eq_getElem hindex, AccountList.slot]

/-- Every way in which a request can go. -/
theorem letRequest_spec (hagrees : Agrees entries context world.disk)
    (hduring : ∀ disk, disk = world.disk ∨ Appending entries request world.disk.synced disk →
      during disk) :
    Meets reliable during (RequestOutcome entries context request world)
      (letRequest context request response) world := by
  have hstart : during world.disk := hduring _ (.inl rfl)
  refine .bind (Proc.time_spec hstart fun timeNow _ => ?_)
  by_cases hinvalid : timeNow = Time.failed
  · rw [if_pos hinvalid]
    exact .pure hstart (.fatal rfl rfl (.inl rfl))
  · rw [if_neg hinvalid]
    cases hrequest : request with
    | magic => exact .pure hstart (.answered rfl)
    | countDatabase => exact .pure hstart (.answered rfl)
    | close => exact .pure hstart (.answered rfl)
    | getAccount accountId => exact .pure hstart (letRequestGetAccount_outcome rfl)
    | addAccount walId credits debits flags =>
        exact letRequestAddAccount_spec hagrees rfl (hrequest ▸ hduring)
    | makeTransfer walId fromId toId amount =>
        exact letRequestMakeTransfer_spec hagrees rfl (hrequest ▸ hduring)
    | updateAccount walId accountId flags =>
        exact letRequestUpdateAccount_spec hagrees rfl (hrequest ▸ hduring)

end Rules

end LetDX.LetDB
