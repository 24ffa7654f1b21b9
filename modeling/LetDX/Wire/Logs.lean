import LetDX.LetDB.Storage.Records
import LetDX.Wire.Responses
import LetDX.Wire.Soundness

/-! # The log as a sequential ledger

What the two programs and the connections between them amount to: a log of
entries to which a request adds at most one, and whose balance answers the
inquiries. The log of the service is read from its file, and only grows.
-/

namespace LetDX.Wire

open Durable Effects LetDB

/-! ## The entries in the file -/

/-- The entry of the record with this number. -/
def entryAt (bytes : List U8) (index : Nat) : Option StorageWalEntry :=
  recordEntry ((bytes.drop (storageWalHeaderLength + index * storageWalEntrySafeSize)).take
    storageWalEntrySafeSize)

/-- The entries of the whole records. -/
def logOf (disk : Disk) : List StorageWalEntry :=
  (List.range (recordCount disk)).filterMap (entryAt disk.bytes)

section Files

variable {entries : List StorageWalEntry} {disk : Disk}

theorem logOf_eq {tail : List U8} (hbytes : disk.bytes = storageWalImage entries ++ tail)
    (htail : tail.length < storageWalEntrySafeSize) : logOf disk = entries := by
  have hlength : disk.bytes.length =
      storageWalHeaderLength + entries.length * storageWalEntrySafeSize + tail.length := by
    rw [hbytes, List.length_append, length_storageWalImage]
  have hcount : recordCount disk = entries.length := by
    rw [recordCount_of_length hlength, Nat.div_eq_of_lt htail, Nat.add_zero]
  have hentries : (List.range entries.length).map (entryAt disk.bytes) = entries.map some := by
    apply List.ext_getElem
    · simp
    · intro index hindex hindex'
      rw [List.length_map] at hindex'
      rw [List.getElem_map, List.getElem_map, List.getElem_range, entryAt, hbytes,
        read_storageWalImage hindex', recordEntry_safe]
  calc logOf disk
      = ((List.range entries.length).map (entryAt disk.bytes)).filterMap id := by
        rw [logOf, hcount, List.filterMap_map, Function.id_comp]
    _ = entries := by
        rw [hentries, List.filterMap_map, Function.id_comp, List.filterMap_some]

theorem logOf_agrees {context : Let} (hagrees : Agrees entries context disk) :
    logOf disk = entries := by
  have hbytes : disk.bytes = storageWalImage entries ++ [] := by
    rw [hagrees.disk_eq, List.append_nil]
    rfl
  exact logOf_eq hbytes (by decide)

/-- A disk with a log that can be replayed, and perhaps a part of one more entry. -/
structure Storable (disk : Disk) : Prop where
  wellformed : Wellformed (logOf disk)
  synced_le : disk.synced ≤ disk.bytes.length
  limit : disk.bytes.length ≤ Disk.offsetMax

theorem storable_agrees {context : Let} (hagrees : Agrees entries context disk) :
    Storable disk := by
  have hbytes : disk.bytes = storageWalImage entries := by
    rw [hagrees.disk_eq]
    rfl
  refine ⟨?_, ?_, ?_⟩
  · rw [logOf_agrees hagrees]
    exact hagrees.wellformed
  · rw [hbytes]
    exact hagrees.synced_le
  · rw [hbytes]
    exact hagrees.limit

theorem logOf_syncedDisk (entries : List StorageWalEntry) : logOf (syncedDisk entries) = entries :=
  logOf_eq (List.append_nil _).symm (by decide)

end Files

/-! ## The ledger -/

/-- The accounts after these entries. -/
def balanceOf (log : List StorageWalEntry) : List LedgerAccount :=
  Ledger.balance (log.map StorageWalEntry.posting)

/-- What the ledger tells in answer to an inquiry. -/
def tells (log : List StorageWalEntry) : NetworkRequest → Option NetworkResponse
  | .magic => some .magic
  | .getAccount accountId => (balanceOf log)[accountId.toNat]?.map fun account =>
      .getAccount account.credits account.debits account.flags
  | .countDatabase =>
      some (.countDatabase (BitVec.ofNat 64 (balanceOf log).length) (BitVec.ofNat 64 log.length))
  | .close => some .ok
  | .addAccount .. | .makeTransfer .. | .updateAccount .. => none

/-- How a ledger with this log may act on a request: its response, and its log
afterwards. A success adds the operation requested, with the next number and
under the rules of the guard; everything else adds nothing. -/
inductive Acts (before : List StorageWalEntry) (request : NetworkRequest) :
    LetDD.Response → List StorageWalEntry → Prop
  | committed {entry : StorageWalEntry} (asks : request.data = some entry.data)
      (numbered : entry.id = BitVec.ofNat 64 before.length)
      (permitted : guardPolicy (balanceOf before) entry.posting) :
      Acts before request
        (entry.data.reply (BitVec.ofNat 64 (balanceOf before).length)).meaning (before ++ [entry])
  | told {response : NetworkResponse} (tells : tells before request = some response) :
      Acts before request response.meaning before
  | refused {error : Error} (rejects : (errorReport error).action = .reject) :
      Acts before request (.error (errorCode error)) before

theorem Acts.wellformed {before after : List StorageWalEntry} {request : NetworkRequest}
    {response : LetDD.Response} (hacts : Acts before request response after)
    (hwell : Wellformed before) : Wellformed after := by
  cases hacts with
  | committed asks numbered permitted => exact hwell.concat numbered permitted
  | told | refused => exact hwell

theorem Acts.grows {before after : List StorageWalEntry} {request : NetworkRequest}
    {response : LetDD.Response} (hacts : Acts before request response after) :
    before <+: after := by
  cases hacts with
  | committed => exact List.prefix_append _ _
  | told | refused => exact List.prefix_rfl

/-- The sequence number of a request does not matter. -/
theorem Acts.congr {before after : List StorageWalEntry} {request request' : NetworkRequest}
    {response : LetDD.Response} (hacts : Acts before request response after)
    (hdata : request'.data = request.data) (htells : tells before request' = tells before request) :
    Acts before request' response after := by
  cases hacts with
  | committed asks numbered permitted => exact .committed (hdata.trans asks) numbered permitted
  | told tells => exact .told (htells.trans tells)
  | refused rejects => exact .refused rejects

theorem tells_of_agrees {entries : List StorageWalEntry} {context : Let} {disk : Disk}
    (hagrees : Agrees entries context disk) (request : NetworkRequest) :
    request.inquiry context = tells entries request := by
  have hledger : ledgerOf context.state.accountList.accounts = balanceOf entries := hagrees.ledger
  have hlength : context.state.accountList.length = BitVec.ofNat 64 (balanceOf entries).length := by
    rw [← hledger, length_ledgerOf]
    rfl
  cases request with
  | magic | close | addAccount | makeTransfer | updateAccount => rfl
  | countDatabase =>
      rw [NetworkRequest.inquiry, tells, hlength, hagrees.transactions]
  | getAccount accountId =>
      rw [NetworkRequest.inquiry, tells, ← hledger, ledgerOf, List.getElem?_map, Option.map_map]
      rfl

/-! ## The log of the service -/

namespace Service

def log (service : Service) : List StorageWalEntry :=
  logOf service.world.disk

theorem log_congr {service service' : Service}
    (hdisk : service'.world.disk = service.world.disk) : service'.log = service.log := by
  rw [log, hdisk, log]

end Service

section Steps

variable {service service' : Service} {context : Let} {request : NetworkRequest}

theorem Sound.exists_agrees (hsound : Sound service)
    (hrunning : ∀ context, service.point ≠ .finished context) :
    Agrees service.log service.point.context service.world.disk := by
  obtain ⟨entries, hagrees⟩ := hsound.agrees hrunning
  rw [Service.log, logOf_agrees hagrees]
  exact hagrees

/-- Only the processing of a request changes the file. -/
theorem Served.disk_eq (hserved : Served service service') (hsound : Sound service)
    (hpassing : ∀ context request, service.point ≠ .processing context request) :
    service'.world.disk = service.world.disk := by
  cases hserved.moved hsound.agrees hsound.front with
  | accepted point waiting disk => exact disk
  | stopped before ended after disk => exact disk
  | closed serving ended after disk => exact disk
  | decoded point unread disk => exact disk
  | responded point within disk => exact disk
  | committed point => exact (hpassing _ _ point).elim
  | answered point => exact (hpassing _ _ point).elim
  | failed point => exact (hpassing _ _ point).elim

/-- What the processing of a request comes to. -/
theorem Served.processed (hserved : Served service service') (hsound : Sound service)
    (hpoint : service.point = .processing context request) : ∃ point world,
      service' = service.advance point world ∧
        Agrees service.log context service.world.disk ∧
        Processed service.log context request service.world point world := by
  have hagrees : Agrees service.log context service.world.disk := by
    have hagrees := hsound.exists_agrees (by rw [hpoint]; exact fun _ heq => nomatch heq)
    rwa [hpoint] at hagrees
  cases hserved with
  | accepts accepting => nomatch hpoint.symm.trans accepting
  | stops accepting => nomatch hpoint.symm.trans accepting
  | @serves point world serving arrived stepped =>
      rw [hpoint] at stepped
      exact ⟨point, world, rfl, hagrees, processed_of_returns hagrees stepped⟩

/-- An entry that is being appended is in the log or not. -/
theorem logOf_appending {entries : List StorageWalEntry} {synced : Nat} {disk : Disk}
    (happending : Appending entries request synced disk) :
    ∃ entry tail, Requested entries request entry ∧
      (logOf disk = entries ∧ disk.bytes = storageWalImage entries ++ tail ∧
          tail <+: entry.safe ∧ tail.length < storageWalEntrySafeSize ∨
        logOf disk = entries ++ [entry] ∧
          disk.bytes = storageWalImage (entries ++ [entry])) := by
  cases happending with
  | @torn entry count requested within limit =>
      have hlength : (entry.safe.take count).length = count := by
        rw [List.length_take, entry.length_safe, Nat.min_eq_left within]
      rcases Nat.lt_or_eq_of_le within with hshort | rfl
      · have htail : (entry.safe.take count).length < storageWalEntrySafeSize := by rwa [hlength]
        exact ⟨entry, _, requested, .inl ⟨logOf_eq rfl htail, rfl, List.take_prefix _ _, htail⟩⟩
      · refine ⟨entry, [], requested, .inr ?_⟩
        rw [tornDisk_full]
        exact ⟨logOf_eq (List.append_nil _).symm (by decide), rfl⟩
  | @synced entry requested limit =>
      exact ⟨entry, [], requested, .inr ⟨logOf_syncedDisk _, rfl⟩⟩

theorem storable_appending {entries : List StorageWalEntry} {synced : Nat} {disk : Disk}
    (hwell : Wellformed entries) (hsynced : synced ≤ (storageWalImage entries).length)
    (happending : Appending entries request synced disk) : Storable disk := by
  obtain ⟨entry, tail, hrequested, hlog⟩ := logOf_appending happending
  refine ⟨?_, ?_, ?_⟩
  · rcases hlog with ⟨hlog, _⟩ | ⟨hlog, _⟩
    · rw [hlog]
      exact hwell
    · rw [hlog]
      exact hrequested.wellformed hwell
  · cases happending with
    | torn =>
        change synced ≤ (storageWalImage entries ++ _).length
        rw [List.length_append]
        exact Nat.le_add_right_of_le hsynced
    | synced => exact Nat.le_refl _
  · cases happending with
    | torn requested within limit =>
        change (storageWalImage entries ++ _).length ≤ _
        rw [List.length_append, List.length_take, StorageWalEntry.length_safe,
          Nat.min_eq_left within]
        exact limit
    | synced requested limit => exact limit

theorem Served.storable (hserved : Served service service') (hsound : Sound service)
    (hstorable : Storable service.world.disk) : Storable service'.world.disk := by
  rcases service.point.passing_or_processing with hpassing | ⟨context, request, hpoint⟩
  · rw [hserved.disk_eq hsound hpassing]
    exact hstorable
  · obtain ⟨point, world, rfl, hagrees, hprocessed⟩ := hserved.processed hsound hpoint
    change Storable world.disk
    cases hprocessed with
    | committed requested limit =>
        exact storable_appending hagrees.wellformed hagrees.synced_le (.synced requested limit)
    | answered | refused => exact hstorable
    | fatal _ _ appending =>
        rcases appending with hsame | happending
        · rw [hsame]
          exact hstorable
        · exact storable_appending hagrees.wellformed hagrees.synced_le happending

/-- The log only grows. -/
theorem Served.log_prefix (hserved : Served service service') (hsound : Sound service) :
    service.log <+: service'.log := by
  rcases service.point.passing_or_processing with hpassing | ⟨context, request, hpoint⟩
  · rw [Service.log_congr (hserved.disk_eq hsound hpassing)]
  · obtain ⟨point, world, rfl, hagrees, hprocessed⟩ := hserved.processed hsound hpoint
    change service.log <+: logOf world.disk
    cases hprocessed with
    | committed =>
        rw [logOf_syncedDisk]
        exact List.prefix_append _ _
    | answered | refused => exact List.prefix_rfl
    | fatal _ _ appending =>
        rcases appending with hsame | happending
        · rw [hsame]
          exact List.prefix_rfl
        · obtain ⟨entry, tail, _, ⟨hlog, _⟩ | ⟨hlog, _⟩⟩ := logOf_appending happending
          · rw [hlog]
          · rw [hlog]
            exact List.prefix_append _ _

/-- What was synced stays synced. -/
theorem Served.synced_le (hserved : Served service service') (hsound : Sound service) :
    service.world.disk.synced ≤ service'.world.disk.synced := by
  rcases service.point.passing_or_processing with hpassing | ⟨context, request, hpoint⟩
  · rw [hserved.disk_eq hsound hpassing]
  · obtain ⟨point, world, rfl, hagrees, hprocessed⟩ := hserved.processed hsound hpoint
    have hwhole (entry : StorageWalEntry) : service.world.disk.synced ≤
        (storageWalImage (service.log ++ [entry])).length := by
      have hsynced := hagrees.synced_le
      rw [length_storageWalImage] at hsynced ⊢
      rw [List.length_append, List.length_singleton, Nat.add_mul]
      omega
    change service.world.disk.synced ≤ world.disk.synced
    cases hprocessed with
    | committed => exact hwhole _
    | answered | refused => exact Nat.le_refl _
    | fatal _ _ appending =>
        rcases appending with hsame | happending
        · rw [hsame]
        · generalize world.disk = disk at happending
          cases happending with
          | torn => exact Nat.le_refl _
          | synced => exact hwhole _

end Steps

end LetDX.Wire
