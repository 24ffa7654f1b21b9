import LetDX.LetDB.Network.Decoding
import LetDX.LetDB.Server.Agreement
import LetDX.Wire.Network

/-! # What the server does with its connections

A step of the server comes to one of eight ends. On each connection the client
has at most one request unread, and no request is both unread and logged.
-/

namespace LetDX.Wire

open Durable Effects LetDB

/-! ## Records -/

theorem recordCount_of_length {disk : Disk} {count rest : Nat}
    (hlength : disk.bytes.length =
      storageWalHeaderLength + count * storageWalEntrySafeSize + rest) :
    recordCount disk = count + rest / storageWalEntrySafeSize := by
  have hbytes : disk.bytes.length - storageWalHeaderLength =
      rest + count * storageWalEntrySafeSize := by omega
  rw [recordCount, hbytes, Nat.add_mul_div_right _ _ (by decide), Nat.add_comm]

theorem recordCount_log (entries : List StorageWalEntry) (synced : Nat) :
    recordCount (logDisk entries synced) = entries.length := by
  have hlength : (logDisk entries synced).bytes.length =
      storageWalHeaderLength + entries.length * storageWalEntrySafeSize + 0 :=
    length_storageWalImage entries
  exact recordCount_of_length hlength

theorem recordCount_agrees {entries : List StorageWalEntry} {context : Let} {disk : Disk}
    (hagrees : Agrees entries context disk) : recordCount disk = entries.length := by
  rw [hagrees.disk_eq, recordCount_log]

/-- While an entry is appended there is at most one record more, and only for a
mutating request. -/
theorem recordCount_appending {entries : List StorageWalEntry} {request : NetworkRequest}
    {synced : Nat} {disk : Disk} (happending : Appending entries request synced disk) :
    entries.length ≤ recordCount disk ∧ recordCount disk ≤ entries.length + 1 ∧
      request.operation.isSome := by
  cases happending with
  | @torn entry count requested within limit =>
      have hlength : (tornDisk entries entry synced count).bytes.length =
          storageWalHeaderLength + entries.length * storageWalEntrySafeSize + count := by
        change (storageWalImage entries ++ entry.safe.take count).length = _
        rw [List.length_append, length_storageWalImage, List.length_take, entry.length_safe,
          Nat.min_eq_left within]
      rw [recordCount_of_length hlength]
      refine ⟨Nat.le_add_right _ _, ?_, by rw [requested.operation]; rfl⟩
      exact Nat.add_le_add_left (Nat.div_le_of_le_mul (by omega)) _
  | @synced entry requested limit =>
      rw [syncedDisk, recordCount_log, List.length_append, List.length_singleton]
      exact ⟨Nat.le_succ _, Nat.le_refl _, by rw [requested.operation]; rfl⟩

/-! ## What a client writes -/

/-- The bytes of a request on the wire. -/
def requestBytes (request : NetworkRequest) : List U8 :=
  request.line ++ [asciiNewline]

theorem requestBytes_ne_nil (request : NetworkRequest) : requestBytes request ≠ [] := by
  simp [requestBytes]

theorem networkRequestDecode_line (request : NetworkRequest) :
    networkRequestDecode (request.line ++ [asciiSpace]) networkRequestEmpty = (.none, request) := by
  rw [networkRequestDecode, networkRequestDecoderRun_line]

/-- A line at the front of a part of a request is the whole request. -/
theorem line_eq_of_within {line unread : List U8} {request : NetworkRequest}
    (hline : line ++ [asciiNewline] <+: unread) (hunread : unread <+: requestBytes request) :
    line = request.line ∧ unread = requestBytes request := by
  obtain ⟨rest, hrest⟩ := hline.trans hunread
  have hnewline := request.newline_notMem_line
  have hlength : line.length = request.line.length := by
    rw [requestBytes, List.append_assoc, List.singleton_append] at hrest
    rcases List.append_eq_append_iff.mp hrest with ⟨middle, hfirst, hsecond⟩ |
      ⟨middle, hfirst, hsecond⟩
    · cases middle with
      | nil => rw [hfirst, List.append_nil]
      | cons byte middle =>
          obtain ⟨rfl, _⟩ := List.cons.inj hsecond
          rw [hfirst] at hnewline
          exact (hnewline (by simp)).elim
    · have hmiddle := congrArg List.length hsecond
      rw [hfirst, List.length_append]
      simp only [List.length_cons, List.length_append, List.length_nil] at hmiddle
      omega
  have hwhole : line ++ [asciiNewline] = requestBytes request := by
    refine List.IsPrefix.eq_of_length ⟨rest, hrest⟩ ?_
    rw [requestBytes, List.length_append, List.length_append, hlength]
  refine ⟨?_, ?_⟩
  · exact List.append_cancel_right hwhole
  · exact hunread.eq_of_length (Nat.le_antisymm hunread.length_le
      (hwhole ▸ hline.length_le))

theorem carriesOperation_requestBytes (request : NetworkRequest) :
    carriesOperation (requestBytes request) = request.operation.isSome := by
  rw [carriesOperation, requestBytes, List.getLast?_concat, List.dropLast_concat,
    networkRequestDecode_line]
  simp

/-- A part of a request without its end carries nothing. -/
theorem carriesOperation_of_within {bytes : List U8} {request : NetworkRequest}
    (hwithin : bytes <+: requestBytes request)
    (hcarries : carriesOperation bytes = true) :
    bytes = requestBytes request ∧ request.operation.isSome := by
  have hlast : bytes.getLast? = some asciiNewline := by
    simp only [carriesOperation, decide_eq_true_eq] at hcarries
    exact hcarries.1
  obtain ⟨line, rfl⟩ := List.getLast?_eq_some_iff.mp hlast
  have hwhole := (line_eq_of_within (List.prefix_refl _) hwithin).2
  refine ⟨hwhole, ?_⟩
  rwa [hwhole, carriesOperation_requestBytes] at hcarries

/-! ## Steps -/

/-- Nothing is lost or waiting: the bytes received are all that is read, and at
most one request is unread. -/
def Front (service : Service) : LetRun → Prop
  | .reading _ => ∃ request unread, unread <+: requestBytes request ∧
      service.current.bytes = service.world.received ++ unread
  | .processing .. | .responding .. => service.current.bytes = service.world.received
  | .accepting _ | .finished _ => True

/-- Where a step of the server may come to. -/
inductive Moved (service : Service) : Service → Prop
  | accepted {context : Let} {error : Error} {world : World}
      (point : service.point = .accepting context) (waiting : service.accepted < service.dialed)
      (disk : world.disk = service.world.disk) (received : world.received = [])
      (sent : world.sent = []) :
      Moved service
        { service with
          point := .reading { context with error }, world, accepted := service.accepted + 1 }
  | stopped {context : Let} {error : Error} {point : LetRun} {world : World} {accepted : Nat}
      (before : service.point = .accepting context) (ended : point.Ended)
      (after : point.context = { context with error }) (disk : world.disk = service.world.disk)
      (count : accepted = service.accepted ∨
        accepted = service.accepted + 1 ∧ service.accepted < service.dialed) :
      Moved service { service with point, world, accepted }
  | closed {error : Error} {point : LetRun} {world : World} {chunk : List U8}
      (serving : ¬service.point.Ended) (ended : point.Ended)
      (after : point.context = { service.point.context with error })
      (disk : world.disk = service.world.disk) (within : chunk <+: service.point.reply)
      (sent : world.sent = service.world.sent ++ chunk) :
      Moved service (service.advance point world)
  | decoded {context : Let} {request : NetworkRequest} {world : World}
      (point : service.point = .reading context)
      (unread : service.current.bytes = service.world.received ++ requestBytes request)
      (disk : world.disk = service.world.disk) (received : world.received = service.current.bytes)
      (sent : world.sent = service.world.sent) :
      Moved service (service.advance (.processing { context with error := .none } request) world)
  | responded {context : Let} {request : NetworkRequest} {response : NetworkResponse}
      {chunk : List U8} {error : Error} {world : World}
      (point : service.point = .responding context request response)
      (within : chunk <+: response.bytes) (disk : world.disk = service.world.disk)
      (received : world.received = service.world.received)
      (sent : world.sent = service.world.sent ++ chunk) :
      Moved service (service.advance (.reading { context with error }) world)
  | committed {context context' : Let} {request : NetworkRequest} {response : NetworkResponse}
      {disk : Disk} (point : service.point = .processing context request)
      (mutating : request.operation.isSome) (succeeds : response.succeeds)
      (transactions : context'.storageWal.transactions = context.storageWal.transactions + 1)
      (agrees : ∃ entries, Agrees entries context' disk)
      (count : recordCount disk = recordCount service.world.disk + 1) :
      Moved service
        (service.advance (.responding context' request response) { service.world with disk })
  | answered {context : Let} {request : NetworkRequest} {response : NetworkResponse}
      (point : service.point = .processing context request)
      (unchanged : request.inquiry context = some response ∨
        ∃ error, response = .error error) :
      Moved service
        (service.advance (.responding { context with error := .none } request response)
          service.world)
  | failed {context context' : Let} {request : NetworkRequest} {world : World}
      (point : service.point = .processing context request)
      (grows : recordCount service.world.disk ≤ recordCount world.disk)
      (count : recordCount world.disk ≤ recordCount service.world.disk + 1)
      (mutating : recordCount service.world.disk < recordCount world.disk →
        request.operation.isSome) (sent : world.sent = service.world.sent) :
      Moved service (service.advance (.finished context') world)

section Moves

variable {service service' : Service} {context : Let} {request : NetworkRequest} {point : LetRun}
  {world : World}

/-- A step that ends the connection sends a part of what there was to send. -/
theorem Moved.ended {error : Error} (hserving : ¬service.point.Ended) (hended : point.Ended)
    (hcontext : point.context = { service.point.context with error })
    (hdisk : world.disk = service.world.disk)
    (hsent : (∀ context, service.point ≠ .accepting context) →
      ∃ chunk, chunk <+: service.point.reply ∧ world.sent = service.world.sent ++ chunk) :
    Moved service (service.advance point world) := by
  have hpoint : ∀ context, service.point ≠ .accepting context := by
    intro context heq
    exact hserving (heq ▸ trivial)
  obtain ⟨chunk, hwithin, hsent⟩ := hsent hpoint
  exact .closed hserving hended hcontext hdisk hwithin hsent

/-- A line is read only when it is all of the request that is unread. -/
theorem Moved.reading (hpoint : service.point = .reading context)
    (hfront : Front service service.point)
    (harrived : world.received <+: service.current.bytes)
    (htalked : Talked (.reading context) service.world point world) :
    Moved service (service.advance point world) := by
  rw [hpoint] at hfront
  obtain ⟨request, unread, hwithin, hbytes⟩ := hfront
  have hwhole {line : List U8} (hreceived : world.received =
      service.world.received ++ line ++ [asciiNewline]) :
      line = request.line ∧ unread = requestBytes request := by
    refine line_eq_of_within ?_ hwithin
    rwa [hreceived, hbytes, List.append_assoc, List.prefix_append_right_inj] at harrived
  cases htalked with
  | ended ended context disk sent =>
      exact .ended (hpoint ▸ id) ended (hpoint ▸ context) disk (hpoint ▸ sent)
  | decoded newline decodes disk received sent =>
      obtain ⟨rfl, rfl⟩ := hwhole received
      obtain rfl := (Prod.mk.inj ((networkRequestDecode_line request).symm.trans decodes)).2
      refine .decoded hpoint hbytes disk ?_ sent
      rw [received, hbytes, requestBytes, List.append_assoc]
  | undecoded newline decodes exist disk received sent =>
      -- The client sends nothing but lines that decode.
      obtain ⟨rfl, rfl⟩ := hwhole received
      obtain rfl := (Prod.mk.inj ((networkRequestDecode_line request).symm.trans decodes)).1
      nomatch exist

/-- At most one record is written in processing a request, and only for a mutating one. -/
theorem Moved.processing {entries : List StorageWalEntry}
    (hpoint : service.point = .processing context request)
    (hagrees : Agrees entries context service.world.disk)
    (hprocessed : Processed entries context request service.world point world) :
    Moved service (service.advance point world) := by
  cases hprocessed with
  | @committed entry now context' requested limit accounts transactions =>
      refine .committed hpoint (by rw [requested.operation]; rfl) ?_ transactions
        ⟨_, requested.agrees hagrees limit accounts transactions⟩ ?_
      · cases entry.data <;> rfl
      · rw [recordCount_agrees hagrees, syncedDisk, recordCount_log, List.length_append,
          List.length_singleton]
  | answered inquiry => exact .answered hpoint (.inl inquiry)
  | refused action => exact .answered hpoint (.inr ⟨_, rfl⟩)
  | fatal action accounts appending sent =>
      rcases appending with hsame | happending
      · refine .failed hpoint (by rw [hsame]) (by rw [hsame]; exact Nat.le_succ _) ?_ sent
        intro hmore
        rw [hsame] at hmore
        exact (Nat.lt_irrefl _ hmore).elim
      · obtain ⟨hgrows, hcount, hmutating⟩ := recordCount_appending happending
        rw [← recordCount_agrees hagrees] at hgrows hcount
        exact .failed hpoint hgrows hcount (fun _ => hmutating) sent

theorem Served.moved (hserved : Served service service')
    (hagrees : (∀ context, service.point ≠ .finished context) →
      ∃ entries, Agrees entries service.point.context service.world.disk)
    (hfront : Front service service.point) : Moved service service' := by
  have htalks {point before : LetRun} {world : World} (hpoint : service.point = before)
      (hpassing : ∀ context request, before ≠ .processing context request)
      (hstepped : (system false).Returns (letRunStep service.point) service.world point world) :
      Talked before service.world point world := by
    subst hpoint
    exact talked_of_returns hpassing hstepped
  cases hserved with
  | accepts accepting waiting stepped =>
      cases htalks accepting (by intro _ _ heq; nomatch heq) stepped with
      | ended ended context disk =>
          exact .stopped accepting ended context disk (.inr ⟨rfl, waiting⟩)
      | accepted disk received sent => exact .accepted accepting waiting disk received sent
  | stops accepting stepped =>
      cases htalks accepting (by intro _ _ heq; nomatch heq) stepped with
      | ended ended context disk => exact .stopped accepting ended context disk (.inl rfl)
  | @serves point world serving arrived stepped =>
      cases hpoint : service.point with
      | accepting context => exact (serving (hpoint ▸ trivial)).elim
      | finished context => exact (serving (hpoint ▸ trivial)).elim
      | reading context =>
          exact .reading hpoint hfront arrived
            (htalks hpoint (by intro _ _ heq; nomatch heq) stepped)
      | responding context request response =>
          cases htalks hpoint (by intro _ _ heq; nomatch heq) stepped with
          | ended ended context disk sent =>
              exact .ended serving ended (hpoint ▸ context) disk (hpoint ▸ sent)
          | responded within disk received sent =>
              exact .responded hpoint within disk received sent
      | processing context request =>
          obtain ⟨entries, hagrees⟩ := hagrees fun _ heq => nomatch hpoint.symm.trans heq
          rw [hpoint] at hagrees stepped
          exact .processing hpoint hagrees (processed_of_returns hagrees stepped)

end Moves

end LetDX.Wire
