import LetDX.Wire.Tracing

/-! # What has been done about a request

Between the writing of a request and the reading of its response the ledger has
acted on the request exactly once, and the response is the one of that moment.
-/

namespace LetDX.Wire

open Durable Effects LetDB

/-- Since this was the log, the ledger has acted on a request of this call. If
that has added an entry, it is synced, and its record is one of this call. -/
def Executed (floor : List StorageWalEntry) (call : Nat) (request : NetworkRequest)
    (response : LetDD.Response) (service : Service) : Prop :=
  ∃ before after, floor <+: before ∧ Acts before request response after ∧
    after <+: service.log ∧ (after ≠ before →
      (∃ position, before.length = service.initial + position ∧
        service.records[position]? = some call) ∧
      (storageWalImage after).length ≤ service.world.disk.synced)

namespace Executed

variable {floor : List StorageWalEntry} {call : Nat} {request : NetworkRequest}
  {response : LetDD.Response} {service service' : Service}

theorem later (hexecuted : Executed floor call request response service)
    (hlater : service.Later service') : Executed floor call request response service' := by
  obtain ⟨before, after, hfloor, hacts, hafter, hrecord⟩ := hexecuted
  refine ⟨before, after, hfloor, hacts, hafter.trans hlater.log, fun hne => ?_⟩
  obtain ⟨⟨position, hposition, hcall⟩, hsynced⟩ := hrecord hne
  refine ⟨⟨position, ?_, hlater.record hcall⟩, hsynced.trans hlater.synced⟩
  rw [hlater.initial]
  exact hposition

theorem earlier (hexecuted : Executed floor call request response service)
    {floor' : List StorageWalEntry} (hfloor : floor' <+: floor) :
    Executed floor' call request response service := by
  obtain ⟨before, after, hbefore, hacts⟩ := hexecuted
  exact ⟨before, after, hfloor.trans hbefore, hacts⟩

theorem congr (hexecuted : Executed floor call request response service)
    {request' : NetworkRequest} (hdata : request'.data = request.data)
    (htells : ∀ log, tells log request' = tells log request) :
    Executed floor call request' response service := by
  obtain ⟨before, after, hbefore, hacts, hafter⟩ := hexecuted
  exact ⟨before, after, hbefore, hacts.congr hdata (htells before), hafter⟩

end Executed

/-- The server is about to send this response, or the client to read it. -/
def Service.Replying (service : Service) (response : NetworkResponse) : Prop :=
  (∃ context request, service.point = .responding context request response) ∨
    service.current.pending = response.bytes

/-- The last request on the connection is that of a call. Once there is a
response, the request has been executed. -/
structure Executing (floor : List StorageWalEntry) (call connection : Nat)
    (request : NetworkRequest) (before : U64) (service : Service) : Prop where
  await : Await connection request before service
  since : floor <+: service.log
  author : service.current.written.getLast?.map Prod.snd = some call
  executed : ∀ response, service.Replying response →
    Executed floor call request response.meaning service

/-- A response is known by its bytes. -/
theorem meaning_eq_of_bytes {response response' : NetworkResponse}
    (hbytes : response.bytes = response'.bytes) : response.meaning = response'.meaning := by
  have hparsed := parseResponse_bytes response
  rw [hbytes, parseResponse_bytes] at hparsed
  exact (Option.some.inj hparsed).symm

theorem newline_mem_bytes (response : NetworkResponse) : asciiNewline ∈ response.bytes := by
  obtain ⟨body, hbytes, _⟩ := response.exists_bytes_eq
  rw [hbytes]
  exact List.mem_concat_self

/-- Without a line to read there is no response unless the server is about to send it. -/
theorem not_replying {service : Service} (hnewline : asciiNewline ∉ service.current.pending)
    (hpoint : ∀ context request response, service.point ≠ .responding context request response)
    (response : NetworkResponse) : ¬service.Replying response := by
  rintro (⟨context, request, hresponding⟩ | hpending)
  · exact hpoint _ _ _ hresponding
  · rw [hpending] at hnewline
    exact hnewline (newline_mem_bytes response)

theorem responding_ne_of_ended {point : LetRun} (hended : point.Ended)
    (context : Let) (request : NetworkRequest) (response : NetworkResponse) :
    point ≠ .responding context request response := by
  intro hresponding
  rw [hresponding] at hended
  exact hended

section Steps

variable {floor : List StorageWalEntry} {call connection : Nat} {request : NetworkRequest}
  {before : U64} {service service' : Service} {context : Let}

/-- With all connections accepted the server leaves what was written as it is. -/
theorem Served.written_eq (hserved : Served service service')
    (hall : service.accepted = service.dialed) :
    service'.current.written = service.current.written := by
  cases hserved with
  | accepts accepting waiting => exact (Nat.lt_irrefl _ (hall ▸ waiting)).elim
  | stops => rfl
  | @serves point world => rw [service.advance_current]

/-- A step of the connection that takes a part of what there is to send, with the
response of a request that has been executed. -/
theorem Executed.sent {response : NetworkResponse} {point : LetRun} {world : World}
    {chunk : List U8} (hsound : Sound service) (hserving : ¬service.point.Ended)
    (htaken : service.current.taken = service.current.sent.length)
    (hexecuted : Executed floor call request response.meaning service)
    (hwithin : chunk <+: response.bytes) (hsent : world.sent = service.world.sent ++ chunk)
    (hlater : service.Later (service.advance point world))
    (hpoint : ∀ context request response, point ≠ .responding context request response)
    {response' : NetworkResponse} (hreplying : (service.advance point world).Replying response') :
    Executed floor call request response'.meaning (service.advance point world) := by
  have hpending : (service.advance point world).current.pending = chunk :=
    hsound.pending_advance hserving htaken hsent
  rcases hreplying with ⟨_, _, hresponding⟩ | hread
  · exact (hpoint _ _ _ hresponding).elim
  · have hchunk : chunk = response'.bytes := hpending.symm.trans hread
    -- A part of the response with a newline is all of it.
    rcases eq_bytes_or_newline_notMem hwithin with hwhole | hnewline
    · rw [← meaning_eq_of_bytes (hwhole.symm.trans hchunk)]
      exact hexecuted.later hlater
    · rw [hchunk] at hnewline
      exact (hnewline (newline_mem_bytes response')).elim

/-- The response to a request that was processed is the one of its execution. -/
theorem executed_processing (hsound : Sound service) (hserved : Served service service')
    (hpoint : service.point = .processing context request)
    (htaken : service.current.taken = service.current.sent.length)
    (hsince : floor <+: service.log)
    (hauthor : service.current.written.getLast?.map Prod.snd = some call)
    {response : NetworkResponse} (hreplying : service'.Replying response) :
    Executed floor call request response.meaning service' := by
  have hserving : ¬service.point.Ended := hpoint ▸ id
  have hlater := hserved.later hsound
  obtain ⟨point, world, rfl, hagrees, hprocessed⟩ := hserved.processed hsound hpoint
  have hnewline (hsent : world.sent = service.world.sent) :
      asciiNewline ∉ (service.advance point world).current.pending := by
    rw [hsound.pending_advance hserving htaken (hsent.trans (List.append_nil _).symm)]
    exact List.not_mem_nil
  have hresponse {context' : Let} {response' : NetworkResponse}
      (hsent : world.sent = service.world.sent)
      (hresponding : point = .responding context' request response') : response' = response := by
    subst hresponding
    rcases hreplying with ⟨_, _, heq⟩ | hpending
    · exact (LetRun.responding.inj heq).2.2
    · exact (hnewline hsent (hpending ▸ newline_mem_bytes response)).elim
  cases hprocessed with
  | @committed entry now context' requested limit accounts transactions =>
      obtain rfl := hresponse rfl rfl
      have hlength : context.state.accountList.length =
          BitVec.ofNat 64 (balanceOf service.log).length := by
        rw [balanceOf, ← hagrees.ledger, length_ledgerOf]
        rfl
      have hcall : service.author = call := by
        have hfront := hsound.front
        rw [hpoint] at hfront
        exact Service.author_eq hauthor hfront.symm
      have hcount : recordCount (syncedDisk (service.log ++ [entry])) -
          recordCount service.world.disk = 1 := by
        rw [recordCount_agrees hagrees, syncedDisk, recordCount_log, List.length_append,
          List.length_singleton]
        omega
      have hposition : service.log.length = service.initial + service.records.length := by
        rw [← hsound.complete, recordCount_agrees hagrees]
      refine ⟨service.log, service.log ++ [entry], hsince, ?_, ?_,
        fun _ => ⟨⟨service.records.length, hposition, ?_⟩, Nat.le_refl _⟩⟩
      · rw [hlength]
        exact .committed requested.data requested.numbered requested.permitted
      · change _ <+: logOf (syncedDisk (service.log ++ [entry]))
        rw [logOf_syncedDisk]
      · rw [Service.advance]
        dsimp only
        rw [hcount, hcall]
        exact List.getElem?_concat_length
  | answered inquiry =>
      obtain rfl := hresponse rfl rfl
      refine ⟨service.log, service.log, hsince, .told ?_, hlater.log, fun hne => (hne rfl).elim⟩
      rw [← tells_of_agrees hagrees]
      exact inquiry
  | refused action =>
      obtain rfl := hresponse rfl rfl
      exact ⟨service.log, service.log, hsince, .refused action, hlater.log,
        fun hne => (hne rfl).elim⟩
  | fatal action accounts appending sent =>
      exact (not_replying (hnewline sent) (by intro _ _ _ heq; cases heq) response hreplying).elim

/-- No step of the server executes a request once more. -/
theorem Executing.step (hexecuting : Executing floor call connection request before service)
    (hsound : Sound service) (hserved : Served service service') :
    Executing floor call connection request before service' := by
  have hawait := hexecuting.await
  have hall : service.accepted = service.dialed := hawait.accepted.trans hawait.dialed.symm
  have hlater := hserved.later hsound
  have hmoved := hserved.moved hsound.agrees hsound.front
  refine ⟨hawait.step hsound hserved, hexecuting.since.trans hlater.log, ?_, ?_⟩
  · rw [hserved.written_eq hall]
    exact hexecuting.author
  intro response hreplying
  cases hawait.stage with
  | @unread context point bytes taken =>
      have hserving : ¬service.point.Ended := point ▸ id
      have hnothing {point' : LetRun} {world : World} {chunk : List U8} (hchunk : chunk = [])
          (hsent : world.sent = service.world.sent ++ chunk) :
          asciiNewline ∉ (service.advance point' world).current.pending := by
        rw [hsound.pending_advance hserving taken hsent, hchunk]
        exact List.not_mem_nil
      cases hmoved with
      | closed _ ended after disk within sent =>
          rw [point] at within
          exact (not_replying (hnothing (List.prefix_nil.mp within) sent)
            (responding_ne_of_ended ended) response hreplying).elim
      | decoded point' unread disk received sent =>
          exact (not_replying (hnothing rfl (sent.trans (List.append_nil _).symm))
            (by intro _ _ _ heq; nomatch heq) response hreplying).elim
      | accepted point' | stopped point' | responded point' | committed point' | answered point'
      | failed point' => nomatch point.symm.trans point'
  | processing point taken =>
      exact executed_processing hsound hserved point taken hexecuting.since hexecuting.author
        hreplying
  | responding point taken =>
      have hserving : ¬service.point.Ended := point ▸ id
      have hexecuted := hexecuting.executed _ (.inl ⟨_, _, point⟩)
      cases hmoved with
      | @closed error point' world chunk _ ended after disk within sent =>
          rw [point] at within
          exact hexecuted.sent hsound hserving taken within sent hlater
            (responding_ne_of_ended ended) hreplying
      | responded point' within disk received sent =>
          obtain ⟨_, _, rfl⟩ := LetRun.responding.inj (point.symm.trans point')
          exact hexecuted.sent hsound hserving taken within sent hlater
            (fun _ _ _ heq => nomatch heq) hreplying
      | accepted point' | stopped point' | decoded point' | committed point' | answered point'
      | failed point' => nomatch point.symm.trans point'
  | replied idle pending =>
      obtain ⟨hended, _, _, hcurrent, _⟩ := idle.moved hsound hall hmoved
      rcases hreplying with ⟨_, _, hresponding⟩ | hread
      · exact (responding_ne_of_ended hended _ _ _ hresponding).elim
      · rw [hcurrent] at hread
        exact (hexecuting.executed response (.inr hread)).later hlater
  | lost idle newline =>
      obtain ⟨hended, _, _, hcurrent, _⟩ := idle.moved hsound hall hmoved
      rw [← hcurrent] at newline
      exact (not_replying newline (responding_ne_of_ended hended) response hreplying).elim

end Steps

end LetDX.Wire
