import LetDX.LetDB.Server.Progress

/-! # The sequence numbers of the answered requests -/

namespace LetDX.LetDB

open Bytes Durable Effects

/-- The sequence number of a mutating request. -/
def NetworkRequest.walId (request : NetworkRequest) : Option U64 :=
  request.operation.map Prod.fst

/-- The requests carry the numbers from zero on. -/
def Consecutive (requests : List NetworkRequest) : Prop :=
  requests.map NetworkRequest.walId =
    (List.range requests.length).map fun number => some (BitVec.ofNat 64 number)

instance (requests : List NetworkRequest) : Decidable (Consecutive requests) :=
  inferInstanceAs (Decidable (_ = _))

/-- The requests carry the numbers from zero on, but for one number in each gap. -/
def ConsecutiveBut (gaps : List Nat) (requests : List NetworkRequest) : Prop :=
  requests.map NetworkRequest.walId = (List.range requests.length).map fun index =>
    some (BitVec.ofNat 64 (index + gaps.countP (· ≤ index)))

theorem ConsecutiveBut.consecutive {requests : List NetworkRequest}
    (hrequests : ConsecutiveBut [] requests) : Consecutive requests :=
  hrequests

section Numbering

variable {gaps exhausted : List Nat} {requests : List NetworkRequest}
  {entries : List StorageWalEntry} {phase : Option LetRun} {world : World}

/-- The sequence numbers of a log. -/
def logIds (count : Nat) : List U64 :=
  (List.range count).map (BitVec.ofNat 64)

theorem pairwise_logIds {count : Nat} (hcount : count < 2 ^ 63) :
    (logIds count).Pairwise (· < ·) := by
  apply List.Pairwise.map (R := fun first second => first < second ∧ second < count)
  · rintro first second ⟨hless, hsecond⟩
    rw [BitVec.lt_def, BitVec.toNat_ofNat, BitVec.toNat_ofNat]
    omega
  · refine List.pairwise_lt_range.imp_of_mem ?_
    intro first second _ hsecond hless
    exact ⟨hless, List.mem_range.mp hsecond⟩

theorem notMem_logIds {count : Nat} (hcount : count < 2 ^ 63) :
    BitVec.ofNat 64 count ∉ logIds count := by
  intro hmem
  obtain ⟨number, hnumber, heq⟩ := List.mem_map.mp hmem
  rw [List.mem_range] at hnumber
  have hnat := congrArg BitVec.toNat heq
  simp only [BitVec.toNat_ofNat] at hnat
  omega

theorem Recorded.gap_le (hrecorded : Recorded gaps requests entries) :
    ∀ gap ∈ gaps, gap ≤ requests.length := by
  induction hrecorded with
  | nil => exact fun _ hgap => (List.not_mem_nil hgap).elim
  | concat _ _ ih =>
      intro gap hgap
      rw [List.length_append]
      exact (ih gap hgap).trans (Nat.le_add_right _ _)
  | skip _ _ ih =>
      intro gap hgap
      rcases List.mem_append.mp hgap with hbefore | hlast
      · exact ih gap hbefore
      · exact (List.mem_singleton.mp hlast).le

theorem Recorded.length_eq (hrecorded : Recorded gaps requests entries) :
    entries.length = requests.length + gaps.length := by
  induction hrecorded with
  | nil => rfl
  | concat _ _ ih | skip _ _ ih =>
      simp only [List.length_append, List.length_singleton]
      omega

/-- An answered request carries the number of the entries before its own: of the
requests before it and of all gaps so far. -/
theorem Recorded.numbered (hrecorded : Recorded gaps requests entries)
    (hwell : Wellformed entries) : ConsecutiveBut gaps requests := by
  induction hrecorded with
  | nil => rfl
  | @concat gaps requests entries request entry recorded operation ih =>
      have hbefore := hwell.take entries.length
      rw [List.take_left] at hbefore
      have hid : entry.id =
          BitVec.ofNat 64 (requests.length + gaps.countP (· ≤ requests.length)) := by
        have hall : gaps.countP (· ≤ requests.length) = gaps.length :=
          List.countP_eq_length.mpr fun gap hgap => decide_eq_true (recorded.gap_le gap hgap)
        have hlength : entries.length < (entries ++ [entry]).length := by
          rw [List.length_append]
          exact Nat.lt_succ_self _
        have hlast := hwell.id_eq hlength
        rw [List.getElem_concat_length rfl, recorded.length_eq] at hlast
        rw [hlast, hall]
      have hwalId : request.walId = some entry.id := by
        rw [NetworkRequest.walId, operation, Option.map_some]
      rw [ConsecutiveBut, List.map_append, ih hbefore, List.length_append, List.length_singleton,
        List.range_succ, List.map_append, List.map_singleton, List.map_singleton, hwalId, hid]
  | @skip gaps requests entries entry recorded ih =>
      have hbefore := hwell.take entries.length
      rw [List.take_left] at hbefore
      rw [ConsecutiveBut, ih hbefore]
      refine List.map_congr_left fun index hindex => ?_
      have hlater : ¬requests.length ≤ index := Nat.not_le.mpr (List.mem_range.mp hindex)
      rw [List.countP_append, List.countP_singleton, decide_eq_false hlater]
      rfl

theorem Recorded.sublist (hrecorded : Recorded gaps requests entries) :
    (requests.map NetworkRequest.operation).Sublist
      (entries.map fun entry => some (entry.id, entry.data)) := by
  induction hrecorded with
  | nil => exact .slnil
  | concat _ operation ih =>
      rw [List.map_append, List.map_append, List.map_singleton, List.map_singleton, operation]
      exact ih.append (.refl _)
  | skip _ _ ih =>
      rw [List.map_append]
      exact ih.trans (List.sublist_append_left _ _)

theorem Recorded.sublist_ids (hrecorded : Recorded gaps requests entries)
    (hwell : Wellformed entries) :
    (requests.map NetworkRequest.walId).Sublist ((logIds entries.length).map some) := by
  have hids := hrecorded.sublist.map fun operation => Option.map Prod.fst operation
  have hnumbered : (logIds entries.length).map some =
      entries.map fun entry => some entry.id := by
    rw [logIds, ← hwell.numbered, List.map_map]
    rfl
  rw [hnumbered]
  rwa [List.map_map, List.map_map] at hids

theorem Recorded.increasing (hrecorded : Recorded gaps requests entries)
    (hwell : Wellformed entries) (hlimit : entries.length < 2 ^ 63) :
    (requests.filterMap NetworkRequest.walId).Pairwise (· < ·) := by
  have hids := (hrecorded.sublist_ids hwell).filterMap id
  rw [List.filterMap_map, List.filterMap_map] at hids
  have hsame : (logIds entries.length).filterMap (id ∘ some) = logIds entries.length :=
    List.filterMap_some
  exact (pairwise_logIds hlimit).sublist (hsame ▸ hids)

theorem Recorded.nodup (hrecorded : Recorded gaps requests entries) (hwell : Wellformed entries)
    (hlimit : entries.length < 2 ^ 63) : (requests.map NetworkRequest.walId).Nodup := by
  refine (hrecorded.sublist_ids hwell).nodup (List.Nodup.map (Option.some_injective _) ?_)
  refine (pairwise_logIds hlimit).imp ?_
  rintro id _ hless rfl
  exact BitVec.lt_irrefl id hless

/-- The log of the answered requests, whatever has happened. -/
theorem Tracked.exists_recorded (htracked : Tracked exhausted requests phase world) :
    ∃ gaps entries, gaps.Sublist exhausted ∧ Recorded gaps requests entries ∧
      Wellformed entries ∧ entries.length < 2 ^ 63 := by
  cases htracked with
  | stopped excused recorded rests =>
      exact ⟨_, _, excused, recorded, rests.wellformed, length_lt_of_limit rests.limit⟩
  | running excused recorded agrees =>
      exact ⟨_, _, excused, recorded, agrees.wellformed, length_lt_of_limit agrees.limit⟩
  | @exhausted _ entries _ _ _ excused recorded error rests =>
      have hlimit := length_lt_of_limit rests.limit
      rw [List.length_append] at hlimit
      have hwell := rests.wellformed.take entries.length
      rw [List.take_left] at hwell
      exact ⟨_, entries, excused, recorded, hwell, (Nat.le_add_right _ _).trans_lt hlimit⟩
  | wrecked excused recorded rests =>
      obtain ⟨disk, hrests⟩ := rests
      exact ⟨_, _, excused, recorded, hrests.wellformed, length_lt_of_limit hrests.limit⟩

/-- A number that was answered is not the next one. -/
theorem Recorded.not_requested {request earlier : NetworkRequest} {entry : StorageWalEntry}
    (hrecorded : Recorded gaps requests entries) (hwell : Wellformed entries)
    (hlimit : entries.length < 2 ^ 63) (hearlier : earlier ∈ requests)
    (hsame : request.walId = earlier.walId) : ¬Requested entries request entry := by
  intro hrequested
  have hid : earlier.walId = some (BitVec.ofNat 64 entries.length) := by
    rw [← hsame, NetworkRequest.walId, hrequested.operation, Option.map_some, hrequested.numbered]
  have hmem : some (BitVec.ofNat 64 entries.length) ∈ requests.map NetworkRequest.walId :=
    hid ▸ List.mem_map_of_mem hearlier
  obtain ⟨id, hnumber, heq⟩ := List.mem_map.mp ((hrecorded.sublist_ids hwell).subset hmem)
  exact notMem_logIds hlimit (Option.some.inj heq ▸ hnumber)

end Numbering

/-- Nothing comes of the request: it is not answered with success, and at no
instant does the file change or afterwards an account. -/
structure Repelled (context : Let) (request : NetworkRequest) (world : World) : Prop where
  file : ∀ world', (system false).Passes (letRunStep (.processing context request)) world world' →
    world'.disk = world.disk
  accounts : ∀ point' world',
    (system false).Returns (letRunStep (.processing context request)) world point' world' →
      point'.context.state.accountList.accounts = context.state.accountList.accounts
  reply : ∀ point' world',
    (system false).Returns (letRunStep (.processing context request)) world point' world' →
      ∀ context' response, point' = .responding context' request response →
        response.succeeds = false

theorem repelled {entries : List StorageWalEntry} {context : Let} {request : NetworkRequest}
    {world : World} (hagrees : Agrees entries context world.disk)
    (hmutating : request.operation.isSome)
    (hrefused : ∀ entry, ¬Requested entries request entry) : Repelled context request world := by
  have hmeets : Meets false (fun disk => disk = world.disk)
      (Processed entries context request world)
      (letRunStep (.processing context request)) world := by
    refine letRunStep_processing_spec hagrees ?_
    rintro disk (hsame | happending)
    · exact hsame
    · cases happending with
      | torn requested => exact (hrefused _ requested).elim
      | synced requested => exact (hrefused _ requested).elim
  refine ⟨fun world' hpasses => hmeets.passes hpasses, ?_, ?_⟩
  · intro point' world' hreturns
    cases hmeets.returns hreturns with
    | committed requested => exact (hrefused _ requested).elim
    | answered => rfl
    | refused => rfl
    | fatal _ accounts => exact accounts
  · intro point' world' hreturns context' response hpoint
    cases hmeets.returns hreturns with
    | committed requested => exact (hrefused _ requested).elim
    | answered inquiry =>
        rw [Option.map_eq_none_iff.mp (data_of_inquiry inquiry)] at hmutating
        nomatch hmutating
    | refused =>
        obtain ⟨_, _, rfl⟩ := LetRun.responding.inj hpoint
        rfl
    | fatal => nomatch hpoint

/-- If the server is restarted after errors that are not of the storage or of the
clock, the answered requests carry the numbers from zero on, in order, but for at
most one number each time that the loops have stopped out of memory, and a request
with one of these numbers is repelled. -/
theorem answered_in_order {requests : List NetworkRequest} {exhausted : List Nat}
    {phase : Option LetRun} {world : World}
    (hrestarts : Restarts (fun error => error.isStorageOrTime = false) requests exhausted phase
      world) :
    (∃ gaps, gaps.Sublist exhausted ∧ ConsecutiveBut gaps requests) ∧
      (requests.filterMap NetworkRequest.walId).Pairwise (· < ·) ∧
      (requests.map NetworkRequest.walId).Nodup ∧
      ∀ context request, phase = some (.processing context request) →
        ∀ earlier ∈ requests, request.walId = earlier.walId → Repelled context request world := by
  have htracked := hrestarts.tracked fun _ => id
  obtain ⟨gaps, entries, hexcused, hrecorded, hwell, hlimit⟩ := htracked.exists_recorded
  refine ⟨⟨gaps, hexcused, hrecorded.numbered hwell⟩, hrecorded.increasing hwell hlimit,
    hrecorded.nodup hwell hlimit, ?_⟩
  rintro context request rfl earlier hearlier hsame
  cases htracked with
  | running excused recorded agrees =>
      have hmutating : request.operation.isSome := by
        have hmem := List.mem_map_of_mem hearlier (f := NetworkRequest.walId)
        obtain ⟨id, _, hid⟩ :=
          List.mem_map.mp ((recorded.sublist_ids agrees.wellformed).subset hmem)
        have hmutates := hsame.trans hid.symm
        cases hoperation : request.operation with
        | none => simp [NetworkRequest.walId, hoperation] at hmutates
        | some operation => rfl
      exact repelled agrees hmutating fun entry =>
        recorded.not_requested agrees.wellformed (length_lt_of_limit agrees.limit) hearlier hsame

/-! ## Stops -/

section Stops

variable {harmless : Error → Prop} {requests : List NetworkRequest} {exhausted : List Nat}
  {context : Let} {world : World}

theorem Restarts.stops_exhausted
    (hfinished : Restarts harmless requests exhausted (some (.finished context)) world)
    (hspared : harmless context.error) (herror : context.error = .account .outOfMemory) :
    Restarts harmless requests (exhausted ++ [requests.length]) none world := by
  have hstopped := hfinished.stops hspared
  rwa [if_pos herror] at hstopped

theorem Restarts.stops_otherwise
    (hfinished : Restarts harmless requests exhausted (some (.finished context)) world)
    (hspared : harmless context.error) (herror : context.error ≠ .account .outOfMemory) :
    Restarts harmless requests exhausted none world := by
  have hstopped := hfinished.stops hspared
  rwa [if_neg herror, List.append_nil] at hstopped

end Stops

/-! ## A request that is sent again -/

/-- The steps of a server from here in this environment, with the requests
answered so far. -/
def advanced (policy : (call : Syscall) → World → call.Choice) :
    Nat → List NetworkRequest × LetRun × World → Option (List NetworkRequest × LetRun × World)
  | 0, reached => some reached
  | steps + 1, (requests, point, world) =>
      ((system false).run policy 10000 (letRunStep point) world).bind fun (point', world') =>
        advanced policy steps (answered requests point', point', world')

theorem Restarts.advanced {harmless : Error → Prop}
    {policy : (call : Syscall) → World → call.Choice} {steps : Nat}
    {requests requests' : List NetworkRequest} {exhausted : List Nat} {point point' : LetRun}
    {world world' : World} (hrestarts : Restarts harmless requests exhausted (some point) world)
    (hadvanced : LetDB.advanced policy steps (requests, point, world) =
      some (requests', point', world')) :
    Restarts harmless requests' exhausted (some point') world' := by
  induction steps generalizing requests point world with
  | zero =>
      cases hadvanced
      exact hrestarts
  | succ steps ih =>
      obtain ⟨⟨point₁, world₁⟩, hrun, hrest⟩ := Option.bind_eq_some_iff.mp hadvanced
      exact ih (hrestarts.step (Machine.returns_of_run hrun)) hrest

/-- The server once more, after it has stopped as on a failed accept. -/
def startedAgain : List NetworkRequest × LetRun × World →
    Option (List NetworkRequest × LetRun × World)
  | (requests, .finished { error := .network .serverAcceptFailed, .. }, world) =>
      match (system false).run (obliging []) 10000 (letStart cliEmpty) { disk := world.disk } with
      | some (.ok point, world') => some (requests, point, world')
      | _ => none
  | _ => none

theorem Restarts.startedAgain {harmless : Error → Prop} {requests requests' : List NetworkRequest}
    {exhausted : List Nat} {point point' : LetRun} {world world' : World}
    (hrestarts : Restarts harmless requests exhausted (some point) world)
    (hspared : harmless (.network .serverAcceptFailed))
    (hstarted : LetDB.startedAgain (requests, point, world) = some (requests', point', world')) :
    Restarts harmless requests' exhausted (some point') world' := by
  unfold LetDB.startedAgain at hstarted
  split at hstarted
  next heq =>
    cases heq
    split at hstarted
    next hrun =>
      cases hstarted
      exact .starts (hrestarts.stops_otherwise hspared nofun) (Machine.returns_of_run hrun)
    next => nomatch hstarted
  next => nomatch hstarted

theorem restarts_fresh (harmless : Error → Prop) :
    Restarts harmless [] [] (some (.accepting freshContext)) freshWorld := by
  have hrun : (system false).run (obliging []) 100 (letStart cliEmpty) { disk := {} } =
      some (.ok (.accepting freshContext), freshWorld) := by rfl
  exact .starts (.absent rfl) (Machine.returns_of_run hrun)

/-- The line of a request for an account. -/
def accountLine : List U8 :=
  "+0 0 10 1\n".toList.map fun letter => BitVec.ofNat 8 letter.toNat

/-- An environment in which accepting a connection fails. -/
def unaccepting : (call : Syscall) → World → call.Choice
  | .accept, _ => AcceptResult.failed
  | call, world => obliging [] call world

/-- An account is added, the server stops, and the line is sent to the next one. -/
def resent : Option (List NetworkRequest × LetRun × World) :=
  (advanced (obliging accountLine) 5 ([], .accepting freshContext, freshWorld)).bind fun reached =>
    (advanced unaccepting 1 reached).bind fun stopped =>
      (startedAgain stopped).bind fun started => advanced (obliging accountLine) 2 started

theorem restarts_of_resent {harmless : Error → Prop} {requests : List NetworkRequest}
    {point : LetRun} {world : World} (hspared : harmless (.network .serverAcceptFailed))
    (hresent : resent = some (requests, point, world)) :
    Restarts harmless requests [] (some point) world := by
  obtain ⟨⟨_, _, _⟩, hreached, hresent⟩ := Option.bind_eq_some_iff.mp hresent
  obtain ⟨⟨_, _, _⟩, hstopped, hresent⟩ := Option.bind_eq_some_iff.mp hresent
  obtain ⟨⟨_, _, _⟩, hstarted, hresent⟩ := Option.bind_eq_some_iff.mp hresent
  have hfirst := ((restarts_fresh harmless).advanced hreached).advanced hstopped
  exact (hfirst.startedAgain hspared hstarted).advanced hresent

/-- The request that the server is about to process. -/
def LetRun.request : LetRun → Option NetworkRequest
  | processing _ request => some request
  | accepting _ | reading _ | responding .. | finished _ => none

theorem answered_in_order_resent : ∃ context world, resent =
      some ([.addAccount 0 0 10 1], .processing context (.addAccount 0 0 10 1), world) ∧
    Consecutive [.addAccount 0 0 10 1] ∧ Repelled context (.addAccount 0 0 10 1) world := by
  have hserved : resent.map (fun (requests, point, _) => (requests, point.request)) =
      some ([.addAccount 0 0 10 1], some (.addAccount 0 0 10 1)) := by decide +kernel
  obtain ⟨⟨requests, point, world⟩, hresent, heq⟩ := Option.map_eq_some_iff.mp hserved
  obtain ⟨rfl, hrequest⟩ := Prod.mk.inj heq
  cases point with
  | processing context request =>
      obtain rfl := Option.some.inj hrequest
      obtain ⟨⟨gaps, hexcused, hconsecutive⟩, _, _, hrepelled⟩ :=
        answered_in_order (restarts_of_resent rfl hresent)
      rw [List.sublist_nil.mp hexcused] at hconsecutive
      exact ⟨context, world, hresent, hconsecutive.consecutive,
        hrepelled context _ rfl _ (List.mem_singleton_self _) rfl⟩
  | accepting | reading | responding | finished => nomatch hrequest

/-! ## A server that runs out of memory -/

/-- The server is about to read, after it has added this many accounts in the
room that it has had from the start. -/
structure Stocked (harmless : Error → Prop) (count : Nat) (requests : List NetworkRequest)
    (entries : List StorageWalEntry) (context : Let) (world : World) : Prop where
  restarts : Restarts harmless requests [] (some (.reading context)) world
  agrees : Agrees entries context world.disk
  accounts : ∀ entry ∈ entries, entry.data.IsAccount
  requested : requests.length = count
  logged : entries.length = count
  length : context.state.accountList.accounts.length = count
  capacity : context.state.accountList.capacity.toNat = 1024
  executing : world.executing = true

/-- There is room for another entry after a small log. -/
theorem image_concat_le {entries : List StorageWalEntry} (hcount : entries.length < 2 ^ 40)
    (entry : StorageWalEntry) : (storageWalImage (entries ++ [entry])).length ≤ Disk.offsetMax := by
  rw [length_storageWalImage, List.length_append, List.length_singleton, storageWalHeaderLength,
    storageWalEntrySafeSize, Disk.offsetMax]
  omega

theorem agrees_fresh : Agrees [] freshContext (logDisk [] 0) where
  wellformed := .nil
  disk_eq := rfl
  synced_le := Nat.zero_le _
  limit := by decide
  transactions := rfl
  ledger := rfl

theorem stocked_fresh (harmless : Error → Prop) :
    ∃ world, Stocked harmless 0 [] [] freshContext world :=
  ⟨_, (restarts_fresh harmless).step can_accept, agrees_fresh, by simp, rfl, rfl, rfl, rfl, rfl⟩

/-- The request for an empty account with this number. -/
def accountRequest (count : Nat) : NetworkRequest :=
  .addAccount (BitVec.ofNat 64 count) 0 0 0

section Stocking

variable {harmless : Error → Prop} {count : Nat} {requests : List NetworkRequest}
  {entries : List StorageWalEntry} {context : Let} {world : World}

theorem requested_account (hlength : entries.length = count) :
    Requested entries (accountRequest count) (accountEntry (BitVec.ofNat 64 count) 0 0 0) where
  operation := rfl
  numbered := hlength ▸ rfl
  permitted := trivial

theorem isAccount_concat (haccounts : ∀ entry ∈ entries, entry.data.IsAccount) (number : U64) :
    ∀ entry ∈ entries ++ [accountEntry number 0 0 0], entry.data.IsAccount := by
  intro entry hentry
  rcases List.mem_append.mp hentry with hbefore | hlast
  · exact haccounts entry hbefore
  · obtain rfl := List.mem_singleton.mp hlast
    trivial

theorem Stocked.add (hstocked : Stocked harmless count requests entries context world)
    (hroom : count < 1024) :
    ∃ requests' entries' context' world',
      Stocked harmless (count + 1) requests' entries' context' world' := by
  have hcapacity := hstocked.capacity
  have hlength := hstocked.length
  have hlimit := image_concat_le (hstocked.logged.trans_lt (by omega))
    (accountEntry (BitVec.ofNat 64 count) 0 0 0)
  have hagrees : Agrees entries { context with error := .none } world.disk :=
    hstocked.agrees.withError _
  have hrequested := requested_account hstocked.logged
  let after : World :=
    { world with received := world.received ++ (accountRequest count).line ++ [asciiNewline] }
  obtain ⟨list', haccounts, hcapacity', hadded⟩ :=
    can_add after hagrees hrequested.numbered hlimit (hcapacity ▸ by decide)
  -- The server reads the request, commits it and answers it.
  have hread := hstocked.restarts.step (can_read (accountRequest count))
  have hanswered := hread.step hadded
  have hresponded := hanswered.step (can_respond hstocked.executing nofun)
  have happlied : (contextAfter context list' .none).state.accountList.accounts =
      (StorageWalEntryData.addAccount 0 0 0).apply 1 1 context.state.accountList.accounts :=
    haccounts
  have hroom' : context.state.accountList.accounts.length <
      context.state.accountList.capacity.toNat := by omega
  refine ⟨requests ++ [accountRequest count], _, _, _,
    ⟨hresponded, hrequested.agrees hagrees hlimit happlied rfl, ?_, ?_, ?_, ?_, ?_,
      hstocked.executing⟩⟩
  · exact isAccount_concat hstocked.accounts _
  · rw [List.length_append, hstocked.requested, List.length_singleton]
  · rw [List.length_append, hstocked.logged, List.length_singleton]
  · change list'.accounts.length = count + 1
    rw [haccounts, List.length_append, hlength, List.length_singleton]
  · change list'.capacity.toNat = 1024
    rw [hcapacity', AccountList.capacityAfter, if_pos hroom', hcapacity]

theorem exists_stocked (harmless : Error → Prop) (hcount : count ≤ 1024) :
    ∃ requests entries context world, Stocked harmless count requests entries context world := by
  induction count with
  | zero =>
      obtain ⟨world, hstocked⟩ := stocked_fresh harmless
      exact ⟨[], [], freshContext, world, hstocked⟩
  | succ count ih =>
      obtain ⟨_, _, _, _, hstocked⟩ := ih (Nat.le_of_succ_le hcount)
      exact hstocked.add hcount

/-- The server stops as it runs out of memory for an account whose entry is written. -/
theorem Stocked.exhaust (hstocked : Stocked harmless 1024 requests entries context world)
    (hspared : harmless (.account .outOfMemory)) :
    ∃ world', Restarts harmless requests [1024] none world' ∧
      world'.disk = syncedDisk (entries ++ [accountEntry 1024 0 0 0]) := by
  have hagrees : Agrees entries { context with error := .none } world.disk :=
    hstocked.agrees.withError _
  have hrequested := requested_account hstocked.logged
  have hlimit := image_concat_le (hstocked.logged.trans_lt (by decide)) (accountEntry 1024 0 0 0)
  let after : World :=
    { world with received := world.received ++ (accountRequest 1024).line ++ [asciiNewline] }
  obtain ⟨world', hdisk, hexhausted⟩ :=
    can_exhaust after hagrees hrequested.numbered hlimit
      (hstocked.length.trans hstocked.capacity.symm) (hstocked.capacity ▸ by decide)
  have hread := hstocked.restarts.step (can_read (accountRequest 1024))
  have hstopped := (hread.step hexhausted).stops_exhausted hspared rfl
  exact ⟨world', hstocked.requested ▸ hstopped, hdisk⟩

/-- The next server answers the request with the number after its log. -/
theorem Restarts.resume {exhausted : List Nat}
    (hrestarts : Restarts harmless requests exhausted none world)
    (hdisk : world.disk = syncedDisk entries) (hrests : Rests entries world.disk)
    (haccounts : ∀ entry ∈ entries, entry.data.IsAccount) (hcount : entries.length < 2 ^ 40) :
    ∃ phase world',
      Restarts harmless (requests ++ [accountRequest entries.length]) exhausted phase world' := by
  have hfile : world.disk.file = some (storageWalImage entries) := by
    rw [hdisk]
    rfl
  obtain ⟨context, started, hlength, hfrugal, hstarted⟩ := can_letStart hfile haccounts hcount.le
  have hresumed : Agrees entries context started.disk := hrests.resumed hstarted
  have hagrees : Agrees entries { context with error := .none } started.disk :=
    hresumed.withError _
  have hrequested : Requested entries (accountRequest entries.length) _ := requested_account rfl
  have hlimit := image_concat_le hcount (accountEntry (BitVec.ofNat 64 entries.length) 0 0 0)
  let after : World :=
    { started with executing := true, sent := []
                   received := [] ++ (accountRequest entries.length).line ++ [asciiNewline] }
  have hread := ((hrestarts.starts hstarted).step can_accept).step
    (can_read (accountRequest entries.length))
  obtain ⟨list', _, _, hadded⟩ := can_add after hagrees hrequested.numbered hlimit
    (hfrugal.capacity_le (hlength.trans_le hcount.le))
  exact ⟨_, _, hread.step hadded⟩

end Stocking

/-- The memory for the 1025th account is refused after its entry was written. The
next server answers the request after it. -/
theorem not_consecutive_outOfMemory : ∃ requests exhausted phase world,
    Restarts (fun error => error.isStorageOrTime = false) requests exhausted phase world ∧
      ¬Consecutive requests := by
  obtain ⟨requests, entries, context, world, hstocked⟩ :=
    exists_stocked (fun error => error.isStorageOrTime = false) (Nat.le_refl 1024)
  obtain ⟨world', hstopped, hdisk⟩ := hstocked.exhaust rfl
  have hlength : (entries ++ [accountEntry 1024 0 0 0]).length = 1025 := by
    rw [List.length_append, hstocked.logged, List.length_singleton]
  have hrests := hstocked.agrees.rests.concat (requested_account hstocked.logged)
    (image_concat_le (hstocked.logged.trans_lt (by decide)) _) hdisk
  obtain ⟨phase, world'', hrestarts⟩ := hstopped.resume hdisk hrests
    (isAccount_concat hstocked.accounts _) (hlength.trans_lt (by decide))
  refine ⟨_, _, phase, world'', hrestarts, fun hconsecutive => ?_⟩
  rw [Consecutive, hlength, List.map_append, List.length_append, hstocked.requested,
    List.length_singleton, List.range_succ, List.map_append] at hconsecutive
  obtain ⟨_, hlast⟩ := List.append_inj' hconsecutive rfl
  revert hlast
  decide

end LetDX.LetDB
