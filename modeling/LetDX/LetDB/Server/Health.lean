import LetDX.Effects.Outcomes
import LetDX.LetDB.Network.Reading
import LetDX.LetDB.Server.Agreement
import LetDX.LetDB.Server.Footprints

/-! # A server in good health

No call fails, no signal comes, and a client sends some bytes and then closes
the connection. What the time is, and how much of a response is taken at once,
is left to chance. On such a system a request is refused only for what it asks.
-/

namespace LetDX.LetDB

open Bytes Durable Effects Machine

/-- What is left to chance: the time, the handle of a connection, and how much of
a response is taken besides its first byte. -/
def Syscall.Fortune : Syscall → Type
  | .time => { now : Time // now ≠ Time.failed }
  | .accept | .send _ => Nat
  | _ => Unit

def fortunate (input : List U8) : (call : Syscall) → call.Fortune → World → call.Choice
  | .time, now, _ => now.1
  | .accept, (handle : Nat), _ => AcceptResult.handle handle
  | .send _, (more : Nat), _ => SendResult.sent (more + 1)
  | .write bytes, _, _ => (bytes.length, true)
  | .recv, _, world => obliging input .recv world
  | .closeFile, _, _ | .closeSocket, _, _ => ()
  | .getAccepting, _, _ | .getExecuting, _, _ | .setAccepting _, _, _ | .setExecuting _, _, _ =>
      false
  | .malloc _, _, _ | .realloc _, _, _ | .openExclusive, _, _ | .openExisting, _, _ | .read _, _, _
  | .fsync, _, _ | .lseek .., _, _ | .ftruncate _, _, _ | .socket, _, _ | .bind _, _, _
  | .listen _, _, _ => true

def healthy (input : List U8) : Machine host World where
  Choice := Syscall.Fortune
  exec call fortune world := call.exec false (fortunate input call fortune world) world

/-- Total correctness in good health. -/
abbrev Thrives {α : Type} (input : List U8) (post : α → World → Prop) (program : Proc α)
    (world : World) : Prop :=
  (healthy input).Ensures (fun _ => True) post program world

section Calls

variable {input : List U8} {world world' : World}

theorem healthy_performs {call : Syscall} {answer : call.Answer}
    (hperforms : (healthy input).Performs call world answer world') :
    (system false).Performs call world answer world' := by
  obtain ⟨fortune, hexec⟩ := hperforms
  exact ⟨fortunate input call fortune world, hexec⟩

instance (call : Syscall) : Nonempty ((healthy input).Choice call) := by
  cases call with
  | time => exact ⟨⟨(0 : Time), by decide⟩⟩
  | accept | send => exact ⟨(0 : Nat)⟩
  | _ => exact ⟨()⟩

theorem thrives_call (call : Syscall) {post : call.Answer → World → Prop}
    (hafter : ∀ fortune : call.Fortune,
      post (call.exec false (fortunate input call fortune world) world).1
        (call.exec false (fortunate input call fortune world) world).2) :
    Thrives input post (Program.perform (I := host) call) world :=
  .perform trivial fun fortune => ⟨trivial, hafter fortune⟩

theorem exists_healthy (call : Syscall) (world : World) :
    ∃ answer world', (healthy input).Performs call world answer world' := by
  obtain ⟨fortune⟩ : Nonempty ((healthy input).Choice call) := inferInstance
  exact ⟨_, _, fortune, rfl⟩

/-- What is known of every run is known of those in good health. -/
theorem Thrives.restrict {α : Type} {post : α → World → Prop} {program : Proc α}
    (hmeets : Meets false (fun _ => True) post program world) :
    Thrives input post program world := by
  refine (hmeets.restrict (fun _ _ _ _ => healthy_performs) exists_healthy).weaken ?_
  exact fun _ _ => And.right

/-- Two things that are known of a run. -/
theorem Thrives.and {α : Type} {post post' : α → World → Prop} {program : Proc α}
    (hthrives : Thrives input post program world) (hthrives' : Thrives input post' program world) :
    Thrives input (fun value world' => post value world' ∧ post' value world') program world := by
  refine (Ensures.restrict (fun _ _ _ _ => id) exists_healthy hthrives).weaken ?_
  rintro value world' ⟨hreturns, hpost⟩
  exact ⟨hpost, hthrives'.returns hreturns⟩

theorem time_thrives {post : Time → World → Prop}
    (hpost : ∀ now, now ≠ Time.failed → post now world) : Thrives input post Proc.time world :=
  thrives_call .time fun now => hpost now.1 now.2

theorem realloc_thrives {bytes : U64} {post : Bool → World → Prop}
    (hbytes : bytes.toNat ≤ allocationMax) (hpost : post true world) :
    Thrives input post (Proc.realloc bytes) world := by
  refine thrives_call (.realloc bytes) fun _ => ?_
  change post (false || true && decide (bytes.toNat ≤ allocationMax)) world
  simpa [hbytes] using hpost

theorem write_thrives {bytes : List U8} {post : Option Nat → World → Prop}
    (hroom : bytes.length ≤ Disk.offsetMax - world.disk.cursor)
    (hpost : post (some bytes.length) { world with disk := world.disk.put bytes }) :
    Thrives input post (Proc.write bytes) world := by
  have htake : bytes.take (min bytes.length (Disk.offsetMax - world.disk.cursor)) = bytes := by
    rw [Nat.min_eq_left hroom, List.take_length]
  refine thrives_call (.write bytes) fun _ => ?_
  change post (some (bytes.take (min bytes.length (Disk.offsetMax - world.disk.cursor))).length)
    { world with
      disk := world.disk.put
        (bytes.take (min bytes.length (Disk.offsetMax - world.disk.cursor))) }
  rwa [htake]

theorem setExecuting_thrives {value : Bool} {post : Unit → World → Prop}
    (hpost : post () { world with executing := value }) :
    Thrives input post (Proc.setExecuting value) world :=
  thrives_call (.setExecuting value) fun _ => hpost

end Calls

/-! ## Accounts and log -/

section Storing

variable {input : List U8} {world : World} {entries : List StorageWalEntry} {context : Let}
  {request : NetworkRequest} {response : NetworkResponse}

/-- The array is reallocated only when it is full, so that the accounts bound its size. -/
theorem accountListAdd_thrives {list : AccountList} {account : Account}
    (hlength : list.accounts.length < 2 ^ 56) :
    Thrives input (fun result _ => result.1 = .none) (accountListAdd list account) world := by
  unfold accountListAdd
  split
  next hfull =>
    have hcapacity : list.capacity.toNat < 2 ^ 56 := by
      have := list.toNat_length
      bv_omega
    rw [dif_neg (not_ckdMul_two (by omega))]
    have hbytes : (accountSize * (ckdMul list.capacity 2).1).toNat ≤ allocationMax := by
      rw [toNat_accountSize_mul (by omega), allocationMax]
      omega
    exact .bind (realloc_thrives hbytes (.pure trivial rfl))
  next hroom => exact .pure trivial rfl

theorem storageWalWrite_thrives {entry : StorageWalEntry} {storageWal : StorageWal} {synced : Nat}
    {post : Error × StorageWal → World → Prop} (hdisk : world.disk = logDisk entries synced)
    (hlimit : (storageWalImage (entries ++ [entry])).length ≤ Disk.offsetMax)
    (hmismatch : entry.id ≠ storageWal.transactions →
      post (.storage .walNonceMismatch, storageWal) world)
    (hwritten : entry.id = storageWal.transactions → ∀ storageWal' world',
      post (.none, storageWal') world') :
    Thrives input post (storageWalWrite storageWal entry) world := by
  have hlength := entry.length_safe
  have hroom : entry.safe.length ≤ Disk.offsetMax - world.disk.cursor := by
    rw [storageWalImage_concat, List.length_append] at hlimit
    have hcursor : world.disk.cursor = (storageWalImage entries).length := by
      rw [hdisk, logDisk]
    omega
  unfold storageWalWrite
  split
  next hid => exact .pure trivial (hmismatch hid)
  next hid =>
    refine .bind (write_thrives hroom ?_)
    rw [hlength, if_neg (by simp)]
    refine .bind (.bind (thrives_call .fsync fun _ => ?_))
    exact .pure trivial (.pure trivial (hwritten (not_not.mp hid) _ _))

/-- Nothing has failed, and what is refused is neither an operation that the ledger
permits nor an inquiry that it can answer. -/
def Prompt (entries : List StorageWalEntry) (context : Let) (request : NetworkRequest)
    (error : Error) : Prop :=
  (errorReport error).action ≠ .fatal ∧
    ((errorReport error).action = .reject →
      (∀ entry, ¬Requested entries request entry) ∧ request.inquiry context = none)

theorem prompt_none : Prompt entries context request .none := by
  constructor
  · intro heq
    cases heq
  · intro heq
    cases heq

theorem Prompt.refused {error : Error} (haction : (errorReport error).action = .reject)
    (hunasked : ∀ entry, ¬Requested entries request entry)
    (hunknown : request.inquiry context = none) : Prompt entries context request error := by
  refine ⟨?_, fun _ => ⟨hunasked, hunknown⟩⟩
  rw [haction]
  exact fun heq => by cases heq

/-- The posting of an entry is that of the operation that was asked for. -/
theorem Requested.posting_eq {entry : StorageWalEntry} {walId : U64} {data : StorageWalEntryData}
    (hrequested : Requested entries request entry)
    (hoperation : request.operation = some (walId, data)) :
    entry.posting = data.posting entry.timestamp := by
  have hsame := Option.some.inj (hrequested.operation.symm.trans hoperation)
  rw [StorageWalEntry.posting, (Prod.mk.inj hsame).2]

theorem letRequestLogged_thrives {entry : StorageWalEntry}
    {mutate : State → Proc (Error × State × NetworkResponse)}
    (hagrees : Agrees entries context world.disk)
    (hoperation : request.operation = some (entry.id, entry.data))
    (hinquiry : request.inquiry context = none)
    (hlimit : (storageWalImage (entries ++ [entry])).length ≤ Disk.offsetMax)
    (hmutate : ∀ world', Thrives input (fun result _ => result.1 = .none) (mutate context.state)
      world') :
    Thrives input (fun result _ => Prompt entries context request result.1)
      (letRequestLogged context entry response mutate) world := by
  refine .bind (storageWalWrite_thrives hagrees.disk_eq hlimit ?_ ?_)
  · intro hmismatch
    refine .pure trivial (.refused rfl ?_ hinquiry)
    intro other hother
    have hsame := Option.some.inj (hoperation.symm.trans hother.operation)
    rw [hagrees.transactions, ← hother.numbered, ← (Prod.mk.inj hsame).1] at hmismatch
    exact hmismatch rfl
  · intro _ storageWal' world'
    refine .bind ((hmutate world').weaken ?_)
    rintro ⟨error, state', response'⟩ _ rfl
    exact .pure trivial prompt_none

/-- A request is refused only for what it asks. -/
theorem letRequest_thrives (hagrees : Agrees entries context world.disk)
    (hroom : entries.length < 2 ^ 56) :
    Thrives input (fun result _ => Prompt entries context request result.1)
      (letRequest context request response) world := by
  have hlimit (entry : StorageWalEntry) :
      (storageWalImage (entries ++ [entry])).length ≤ Disk.offsetMax := by
    rw [length_storageWalImage, List.length_append, List.length_singleton, storageWalEntrySafeSize,
      storageWalHeaderLength, Disk.offsetMax]
    omega
  have haccounts : context.state.accountList.accounts.length < 2 ^ 56 := by
    rw [hagrees.accounts_length]
    refine (Ledger.length_balance_le _).trans_lt ?_
    rwa [List.length_map]
  refine .bind (time_thrives fun timeNow hnow => ?_)
  rw [if_neg hnow]
  cases hrequest : request with
  | magic | countDatabase | close => exact .pure trivial prompt_none
  | getAccount accountId =>
      refine .pure trivial ?_
      unfold letRequestGetAccount
      split
      next error hget =>
        have hlength := context.state.accountList.toNat_length
        unfold accountListGet at hget
        split at hget
        next hmissing =>
          obtain rfl := Except.error.inj hget
          refine .refused rfl (fun entry hasked => ?_) ?_
          · cases hasked.operation
          · rw [NetworkRequest.inquiry, List.getElem?_eq_none (by bv_omega)]
            rfl
        next => cases hget
      next => exact prompt_none
  | addAccount walId credits debits flags =>
      refine letRequestLogged_thrives hagrees rfl rfl (hlimit _) fun world' => ?_
      refine .bind (.bind ((accountListAdd_thrives haccounts).weaken ?_))
      rintro ⟨error, accountList⟩ _ rfl
      exact .pure trivial (.pure trivial rfl)
  | makeTransfer walId fromId toId amount =>
      simp only [letRequestMakeTransfer]
      split
      next hrefused =>
        have hguard : guardMakeTransfer context.state fromId toId amount ≠ .none := by
          simpa [errorExists] using hrefused
        refine .pure trivial (.refused (errorReport_guardMakeTransfer hguard) ?_ rfl)
        intro entry hasked
        have hpermitted := hasked.permitted
        rw [hasked.posting_eq rfl, ← hagrees.ledger] at hpermitted
        exact hguard ((guardMakeTransfer_eq_none_iff _ _ _ _).mpr hpermitted)
      next hadmitted =>
        have hguard : guardMakeTransfer context.state fromId toId amount = .none := by
          simpa [errorExists] using hadmitted
        have hnames := names_of_guardPolicy ((guardMakeTransfer_eq_none_iff _ _ _ _).mp hguard)
        rw [length_ledgerOf] at hnames
        refine letRequestLogged_thrives hagrees rfl rfl (hlimit _) fun world' => ?_
        refine .bind (.bind (time_thrives fun now hnow => ?_))
        rw [if_neg hnow, if_pos ⟨hnames.1, hnames.2.1⟩]
        exact .pure trivial (.pure trivial rfl)
  | updateAccount walId accountId flags =>
      simp only [letRequestUpdateAccount]
      split
      next hrefused =>
        have hguard : guardUpdateAccount context.state accountId ≠ .none := by
          simpa [errorExists] using hrefused
        refine .pure trivial (.refused (errorReport_guardUpdateAccount hguard) ?_ rfl)
        intro entry hasked
        have hpermitted := hasked.permitted
        rw [hasked.posting_eq rfl, ← hagrees.ledger] at hpermitted
        exact hguard ((guardUpdateAccount_eq_none_iff _ _ _).mpr hpermitted)
      next hadmitted =>
        have hguard : guardUpdateAccount context.state accountId = .none := by
          simpa [errorExists] using hadmitted
        have haccount := (guardUpdateAccount_eq_none_iff _ _ flags).mp hguard
        have haccount : accountId.toNat < context.state.accountList.accounts.length := by
          rw [← length_ledgerOf]
          exact haccount
        refine letRequestLogged_thrives hagrees rfl rfl (hlimit _) fun world' => ?_
        refine .bind (.bind ?_)
        unfold accountListUpdate
        rw [if_pos haccount]
        exact .pure trivial (.pure trivial (.pure trivial rfl))

/-- What processing a request comes to. -/
inductive Handled (entries : List StorageWalEntry) (context : Let) (request : NetworkRequest)
    (world : World) : LetRun → World → Prop
  | committed {entry : StorageWalEntry} {context' : Let}
      (requested : Requested entries request entry)
      (agrees : Agrees (entries ++ [entry]) context' (syncedDisk (entries ++ [entry]))) :
      Handled entries context request world
        (.responding context' request (entry.data.reply context.state.accountList.length))
        { world with disk := syncedDisk (entries ++ [entry]) }
  | answered {response : NetworkResponse} (inquiry : request.inquiry context = some response) :
      Handled entries context request world
        (.responding { context with error := .none } request response) world
  | refused {error : Error} (action : (errorReport error).action = .reject)
      (unasked : ∀ entry, ¬Requested entries request entry)
      (unknown : request.inquiry context = none) :
      Handled entries context request world
        (.responding { context with error := .none } request (.error error)) world

theorem letRunStep_processing_thrives (hagrees : Agrees entries context world.disk)
    (hroom : entries.length < 2 ^ 56) :
    Thrives input (Handled entries context request world)
      (letRunStep (.processing context request)) world := by
  have houtcomes : Thrives input (RequestOutcome entries context request world)
      (letRequest context request networkResponseEmpty) world :=
    .restrict (letRequest_spec hagrees fun _ _ => trivial)
  refine .bind ((houtcomes.and (letRequest_thrives hagrees hroom)).weaken ?_)
  rintro ⟨error, context', response⟩ world' ⟨houtcome, hprompt⟩
  cases houtcome with
  | committed requested limit accounts transactions =>
      have hagrees' := requested.agrees hagrees limit accounts transactions
      exact .pure trivial (.committed requested (hagrees'.withError .none))
  | answered inquiry => exact .pure trivial (.answered inquiry)
  | refused action =>
      obtain ⟨hunasked, hunknown⟩ := hprompt.2 action
      unfold letRunDispatch
      dsimp only
      rw [action]
      exact .pure trivial (.refused action hunasked hunknown)
  | fatal action => exact (hprompt.1 action).elim

end Storing

/-! ## The connection -/

section Connection

variable {input : List U8} {world : World} {context : Let} {request : NetworkRequest}
  {response : NetworkResponse}

/-- The client sends its next byte, or it closes the connection. -/
theorem recv_thrives {post : RecvResult → World → Prop}
    (hbyte : ∀ byte, input[world.received.length]? = some byte →
      post (.byte byte) { world with received := world.received ++ [byte] })
    (hclosed : input[world.received.length]? = none → post .closed world) :
    Thrives input post Proc.recv world := by
  refine thrives_call .recv fun _ => ?_
  change post (Syscall.exec false .recv (obliging input .recv world) world).1
    (Syscall.exec false .recv (obliging input .recv world) world).2
  cases hnext : input[world.received.length]? with
  | some byte =>
      simp only [obliging, hnext]
      exact hbyte byte hnext
  | none =>
      simp only [obliging, hnext]
      exact hclosed hnext

theorem read_thrives {line rest : List U8} {post : Error × NetworkRequest → World → Prop}
    (hinput : world.received ++ (line ++ asciiNewline :: rest) = input)
    (hline : asciiNewline ∉ line) (hlength : line.length < networkBufferLength)
    (hpost : post (networkRequestDecode (line ++ [asciiSpace]) request)
      { world with received := world.received ++ line ++ [asciiNewline] }) :
    Thrives input post (networkClientRead request) world := by
  have huses : (networkClientRead request).Uses (Eq Syscall.recv) :=
    uses_networkClientRead rfl request
  apply (networkClientRead_line hinput hline hlength hpost).congr_on _ huses
  rintro _ rfl world answer world'
  rfl

/-- The client closes the connection in the middle of a line. -/
theorem read_closed_thrives {rest : List U8} {post : Error × NetworkRequest → World → Prop}
    (hinput : world.received ++ rest = input) (hrest : asciiNewline ∉ rest)
    (hlength : rest.length < networkBufferLength)
    (hpost : post (.network .clientClosed, request) { world with received := input }) :
    Thrives input post (networkClientRead request) world := by
  have hloop : Thrives input
      (fun result world' => result = .error (.network .clientClosed) ∧
        world' = { world with received := input })
      (Program.iterate networkClientReadRound { readBuffer := [], readByte := 0 }) world := by
    -- What is in the buffer and what is still to come make up the rest.
    let invariant (loop : NetworkClientRead) (world' : World) : Prop :=
      ∃ todo, rest = loop.readBuffer ++ todo ∧
        world' = { world with received := world.received ++ loop.readBuffer }
    refine .iterate invariant (fun loop _ => rest.length - loop.readBuffer.length) ?_
      ⟨rest, rfl, by rw [List.append_nil]⟩
    rintro ⟨done, readByte⟩ world' ⟨todo, rfl, rfl⟩
    have hroom : done.length < networkBufferLength := by
      rw [List.length_append] at hlength
      exact (Nat.le_add_right _ _).trans_lt hlength
    have hnext : input[(world.received ++ done).length]? = todo[0]? := by
      rw [← hinput, ← List.append_assoc, List.getElem?_append_right (Nat.le_refl _), Nat.sub_self]
    unfold networkClientReadRound
    dsimp only
    rw [if_pos hroom]
    refine .bind (recv_thrives ?_ ?_)
    · intro byte hbyte
      cases todo with
      | nil => nomatch hnext.symm.trans hbyte
      | cons first todo =>
          obtain rfl := Option.some.inj (hnext.symm.trans hbyte)
          have hother : first ≠ asciiNewline := by
            rintro rfl
            exact hrest (by simp)
          dsimp only
          rw [if_neg hother]
          refine .pure trivial ⟨⟨todo, by simp, ?_⟩, ?_⟩
          · rw [List.append_assoc]
          · simp
            omega
    · intro hclosed
      cases todo with
      | cons first todo => nomatch hnext.symm.trans hclosed
      | nil =>
          rw [List.append_nil] at hinput
          exact .pure trivial ⟨rfl, by rw [hinput]⟩
  refine .bind (hloop.weaken ?_)
  rintro _ _ ⟨rfl, rfl⟩
  exact .pure trivial hpost

/-- Something is taken of what is sent. -/
theorem send_thrives {bytes : List U8} {post : SendResult → World → Prop} (hmore : bytes ≠ [])
    (hpost : ∀ count, 0 < count → count ≤ bytes.length →
      post (.sent count) { world with sent := world.sent ++ bytes.take count }) :
    Thrives input post (Proc.send bytes) world := by
  refine thrives_call (.send bytes) fun (more : Nat) => ?_
  have hpositive := List.length_pos_of_ne_nil hmore
  have hlength : (bytes.take (more + 1)).length = min (more + 1) bytes.length := List.length_take
  have hsent := hpost (bytes.take (more + 1)).length (by omega) (by omega)
  rwa [hlength, ← List.take_eq_take_min, ← hlength] at hsent

/-- However little is taken at once, all of a response is sent. -/
theorem networkClientWrite_thrives {post : Error → World → Prop}
    (hpost : post .none { world with sent := world.sent ++ response.bytes }) :
    Thrives input post (networkClientWrite response) world := by
  rw [networkClientWrite_eq]
  -- What was sent and what remains make up the response.
  let invariant (rest : List U8) (world' : World) : Prop :=
    ∃ chunk, response.bytes = chunk ++ rest ∧ world' = { world with sent := world.sent ++ chunk }
  refine .iterate invariant (fun rest _ => rest.length) ?_ ⟨[], rfl, by rw [List.append_nil]⟩
  rintro rest world' ⟨chunk, hbytes, rfl⟩
  unfold networkClientWriteRound
  split
  next hempty =>
    subst hempty
    rw [hbytes, List.append_nil] at hpost
    exact .pure trivial hpost
  next hmore =>
    refine .bind (send_thrives hmore fun count hpositive hcount => ?_)
    dsimp only
    rw [if_neg hpositive.ne']
    refine .pure trivial ⟨⟨chunk ++ rest.take count, ?_, ?_⟩, ?_⟩
    · rw [hbytes, List.append_assoc, List.take_append_drop]
    · rw [List.append_assoc]
    · rw [List.length_drop]
      omega

theorem letRunExecuting_thrives {post : LetRun → World → Prop}
    (hreading : world.executing = true → post (.reading context) world)
    (haccepting : world.executing = false → world.accepting = true →
      post (.accepting context) world) (hraised : world.accepting = true) :
    Thrives input post (letRunExecuting context) world := by
  refine .bind (thrives_call .getExecuting fun _ => ?_)
  change Thrives input post (if world.executing then _ else _) world
  cases hexecuting : world.executing with
  | true => exact .pure trivial (hreading hexecuting)
  | false =>
      refine .bind (thrives_call .closeSocket fun _ => ?_)
      refine .bind (thrives_call .getAccepting fun _ => ?_)
      change Thrives input post (if world.accepting then _ else _) world
      rw [hraised]
      exact .pure trivial (haccepting hexecuting hraised)

end Connection

/-! ## The flags -/

/-- The flag is up if a connection is to be accepted. -/
def Raised (point : LetRun) (world : World) : Prop :=
  ∀ context, point = .accepting context → world.accepting = true

/-- The other flag is up while a connection is served. -/
def Executing (point : LetRun) (world : World) : Prop :=
  ¬point.Ended → world.executing = true

/-- The call leaves the flags as they are. -/
def Syscall.Unflagging : Syscall → Prop
  | .getAccepting | .getExecuting | .setAccepting _ | .setExecuting _ => False
  | _ => True

section Flags

variable {world : World} {context : Let} {request : NetworkRequest} {response : NetworkResponse}

theorem letRunAccepting_raised : (system false).Yields Raised (letRunAccepting context) world := by
  refine .bind fun (accepting : Bool) world' hreturns => ?_
  have hraised : world'.accepting = accepting := by
    obtain ⟨(signalled : Bool), hexec⟩ := returns_perform.mp hreturns
    obtain ⟨rfl, rfl⟩ := Prod.mk.inj hexec
    rfl
  dsimp only
  split
  next haccepting => exact .pure fun _ _ => hraised.trans haccepting
  next => exact .pure fun _ heq => by cases heq

theorem letRunExecuting_raised : (system false).Yields Raised (letRunExecuting context) world := by
  refine .bind fun executing world' _ => ?_
  dsimp only
  split
  · exact .pure fun _ heq => by cases heq
  · exact .bind fun _ _ _ => letRunAccepting_raised

theorem letRunDispatch_raised :
    (system false).Yields Raised (letRunDispatch context request response) world := by
  unfold letRunDispatch
  split
  · exact .pure fun _ heq => by cases heq
  · exact .pure fun _ heq => by cases heq
  · exact .bind fun _ _ _ => letRunExecuting_raised
  · exact .bind fun _ _ _ => letRunExecuting_raised
  · exact .bind fun _ _ _ => .bind fun _ _ _ => letRunExecuting_raised

theorem letRunResponded_raised :
    (system false).Yields Raised (letRunResponded context request) world := by
  unfold letRunResponded
  dsimp only
  split
  · split
    · exact .bind fun _ _ _ => .bind fun _ _ _ => letRunExecuting_raised
    · exact .bind fun _ _ _ => letRunExecuting_raised
  · split
    · exact .bind fun _ _ _ => letRunExecuting_raised
    · exact letRunExecuting_raised

theorem letRunStep_raised (point : LetRun) :
    (system false).Yields Raised (letRunStep point) world := by
  cases point with
  | finished context => exact .pure fun _ heq => by cases heq
  | accepting context =>
      refine .bind fun error world' _ => ?_
      dsimp only
      split
      · exact .pure fun _ heq => by cases heq
      · exact .bind fun _ _ _ => letRunExecuting_raised
  | reading context =>
      refine .bind fun result world' _ => ?_
      dsimp only
      split
      · exact letRunDispatch_raised
      · exact .pure fun _ heq => by cases heq
  | processing context request => exact .bind fun _ _ _ => letRunDispatch_raised
  | responding context request response => exact .bind fun _ _ _ => letRunResponded_raised

theorem letStart_raised {cli : Cli} :
    (system false).Yields (fun result world' => ∀ point, result = .ok point → Raised point world')
      (letStart cli) world := by
  refine .bind fun result world' _ => ?_
  cases result with
  | error error => exact .pure fun _ heq => by cases heq
  | ok context =>
      refine .bind (letRunAccepting_raised.weaken fun point world'' hraised => .pure ?_)
      rintro _ ⟨⟩
      exact hraised

theorem Reachable.raised {point : LetRun} (hreachable : Reachable point world) :
    Raised point world := by
  obtain ⟨past, disk, cli, history, _, hserves⟩ := hreachable
  cases hserves with
  | start started => exact letStart_raised _ _ started _ rfl
  | step _ stepped => exact letRunStep_raised _ _ _ stepped

theorem Syscall.Unflagging.executing_eq {call : Syscall} (hunflagging : call.Unflagging)
    (reliable : Bool) (choice : call.Choice) (world : World) :
    (call.exec reliable choice world).2.executing = world.executing := by
  cases call with
  | getAccepting | getExecuting | setAccepting | setExecuting => exact hunflagging.elim
  | time | malloc | realloc | write | closeFile | socket | bind | listen | closeSocket => rfl
  | accept => cases (choice : AcceptResult) <;> rfl
  | recv => cases (choice : RecvResult) <;> rfl
  | send => cases (choice : SendResult) <;> rfl
  | openExclusive | openExisting | read | fsync | lseek | ftruncate =>
      simp only [Syscall.exec]
      repeat' split
      all_goals rfl

theorem unflagging_bind {α β : Type} {program : Proc α} {f : α → Proc β} {post : β → World → Prop}
    (huses : program.Uses Syscall.Unflagging) (hexecuting : world.executing = true)
    (hnext : ∀ value world', world'.executing = true →
      (system false).Yields post (f value) world') :
    (system false).Yields post (program >>= f) world := by
  have hrefl : Std.Refl fun world world' : World => world'.executing = world.executing :=
    ⟨fun _ => rfl⟩
  have htrans : IsTrans World fun world world' => world'.executing = world.executing :=
    ⟨fun _ _ _ hfirst hsecond => hsecond.trans hfirst⟩
  have hmoves (call : Syscall) (hunflagging : call.Unflagging) (world : World)
      (answer : call.Answer) (world' : World)
      (hperforms : (system false).Performs call world answer world') :
      world'.executing = world.executing := by
    obtain ⟨choice, hexec⟩ := hperforms
    have hsame := hunflagging.executing_eq false choice world
    rwa [show call.exec false choice world = (answer, world') from hexec] at hsame
  refine .bind_along hmoves huses fun value world' hsame => ?_
  exact hnext value world' (hsame.trans hexecuting)

theorem letRunExecuting_executing :
    (system false).Yields Executing (letRunExecuting context) world := by
  refine .bind fun (executing : Bool) world' hreturns => ?_
  have hflag : world'.executing = executing := by
    obtain ⟨(signalled : Bool), hexec⟩ := returns_perform.mp hreturns
    obtain ⟨rfl, rfl⟩ := Prod.mk.inj hexec
    rfl
  dsimp only
  split
  next hexecuting => exact .pure fun _ => hflag.trans hexecuting
  next =>
    refine .bind fun _ _ _ => .bind fun (accepting : Bool) _ _ => ?_
    cases accepting with
    | true => exact .pure fun hopen => (hopen trivial).elim
    | false => exact .pure fun hopen => (hopen trivial).elim

theorem letRunDispatch_executing (hexecuting : world.executing = true) :
    (system false).Yields Executing (letRunDispatch context request response) world := by
  unfold letRunDispatch
  split
  · exact .pure fun _ => hexecuting
  · exact .pure fun _ => hexecuting
  · exact .bind fun _ _ _ => letRunExecuting_executing
  · exact .bind fun _ _ _ => letRunExecuting_executing
  · exact .bind fun _ _ _ => .bind fun _ _ _ => letRunExecuting_executing

theorem letRunStep_executing {point : LetRun} (hexecuting : Executing point world) :
    (system false).Yields Executing (letRunStep point) world := by
  cases point with
  | finished context => exact .pure fun hopen => (hopen trivial).elim
  | accepting context =>
      refine .bind fun error world' _ => ?_
      dsimp only
      split
      · exact .pure fun hopen => (hopen trivial).elim
      · exact .bind fun _ _ _ => letRunExecuting_executing
  | reading context =>
      refine unflagging_bind (uses_networkClientRead trivial _) (hexecuting id) ?_
      intro result world' hexecuting'
      dsimp only
      split
      · exact letRunDispatch_executing hexecuting'
      · exact .pure fun _ => hexecuting'
  | processing context request =>
      refine unflagging_bind ((internal_letRequest _ _ _).mono ?_) (hexecuting id) ?_
      · intro call hinternal
        cases call <;> trivial
      · intro result world' hexecuting'
        exact letRunDispatch_executing hexecuting'
  | responding context request response =>
      refine .bind fun _ _ _ => ?_
      unfold letRunResponded
      dsimp only
      split
      · split
        · exact .bind fun _ _ _ => .bind fun _ _ _ => letRunExecuting_executing
        · exact .bind fun _ _ _ => letRunExecuting_executing
      · split
        · exact .bind fun _ _ _ => letRunExecuting_executing
        · exact letRunExecuting_executing

end Flags

end LetDX.LetDB
