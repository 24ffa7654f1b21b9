import LetDX.Wire.Serving

/-! # The invariant of the service

It holds whatever the server and the client do: the log agrees with the memory,
the connections not yet accepted carry nothing but a handshake, every record
since the start is on the list, and no call has two of them, counting the one it
may still get, unless its request was sent once more with a record of it in the
log.
-/

namespace LetDX.Wire

open Effects LetDB

namespace Service

/-- What the server has still to receive on the current connection. -/
def unread (service : Service) : List (U8 × Nat) :=
  service.current.written.drop service.world.received.length

/-- The call with a mutating request that is unread or in processing. -/
def live (service : Service) : Option Nat :=
  match service.point with
  | .reading _ =>
      if carriesOperation (service.unread.map Prod.fst) then
        service.unread.getLast?.map Prod.snd
      else none
  | .processing _ request => if request.operation.isSome then some service.author else none
  | .responding .. | .accepting _ | .finished _ => none

/-- The records of a call, with the one it may still get. -/
def tally (service : Service) (call : Nat) : Nat :=
  service.records.count call + if service.live = some call then 1 else 0

theorem count_le_tally (service : Service) (call : Nat) :
    service.records.count call ≤ service.tally call :=
  Nat.le_add_right _ _

theorem tally_le (service service' : Service) (hrecords : service'.records = service.records)
    (hlive : service'.live = service.live ∨ service'.live = none) (call : Nat) :
    service'.tally call ≤ service.tally call := by
  rcases hlive with hsame | hnone
  · rw [tally, tally, hrecords, hsame]
  · rw [tally, hrecords, hnone, if_neg (fun heq => nomatch heq)]
    exact service.count_le_tally call

/-! ## Advancing -/

section Advance

variable (service : Service) (point : LetRun) (world : World)

@[simp] theorem advance_point : (service.advance point world).point = point := rfl
@[simp] theorem advance_world : (service.advance point world).world = world := rfl
@[simp] theorem advance_dialed : (service.advance point world).dialed = service.dialed := rfl
@[simp] theorem advance_accepted : (service.advance point world).accepted = service.accepted := rfl
@[simp] theorem advance_repeated : (service.advance point world).repeated = service.repeated := rfl

@[simp] theorem advance_current : (service.advance point world).current =
    { service.current with sent := world.sent } :=
  Function.update_self ..

theorem advance_links {connection : Nat} (hnot : connection ≠ service.accepted - 1) :
    (service.advance point world).links connection = service.links connection :=
  Function.update_of_ne hnot ..

theorem advance_records (hdisk : world.disk = service.world.disk) :
    (service.advance point world).records = service.records := by
  simp [advance, hdisk]

theorem count_advance (call : Nat) : (service.advance point world).records.count call =
    service.records.count call +
      if service.author = call then recordCount world.disk - recordCount service.world.disk
      else 0 := by
  simp [advance, List.count_replicate]

end Advance

/-- With the bytes of one request unread, that request is what is live. -/
theorem live_reading {service : Service} {context : Let} {bytes : List U8}
    (hpoint : service.point = .reading context)
    (hbytes : service.current.bytes = service.world.received ++ bytes) :
    service.live =
      if carriesOperation bytes then service.current.written.getLast?.map Prod.snd else none := by
  have hunread : service.unread.map Prod.fst = bytes := by
    rw [unread, List.map_drop]
    change service.current.bytes.drop _ = _
    rw [hbytes, List.drop_left]
  rw [live, hpoint]
  dsimp only
  rw [hunread]
  split
  next hcarries =>
    have hnonempty : bytes ≠ [] := by
      rintro rfl
      nomatch hcarries
    have hlength : ¬service.current.written.length ≤ service.world.received.length := by
      have hwritten := congrArg List.length hbytes
      rw [Link.bytes, List.length_map, List.length_append] at hwritten
      have hpositive := List.length_pos_of_ne_nil hnonempty
      omega
    rw [unread, List.getLast?_drop, if_neg hlength]
  · rfl

theorem live_eq_none {service : Service} {context : Let}
    (hpoint : service.point = .reading context)
    (hbytes : service.current.bytes = service.world.received) : service.live = none := by
  rw [live_reading hpoint (hbytes.trans (List.append_nil _).symm)]
  rfl

theorem live_of_ended {service : Service} (hended : service.point.Ended) : service.live = none := by
  unfold live
  cases hpoint : service.point with
  | accepting | responding | finished => rfl
  | reading | processing =>
      rw [hpoint] at hended
      exact hended.elim

/-- With everything received the author is the one who wrote last. -/
theorem author_eq {service : Service} {call : Nat}
    (hlast : service.current.written.getLast?.map Prod.snd = some call)
    (hreceived : service.world.received = service.current.bytes) : service.author = call := by
  rw [author, hreceived, Link.bytes, List.length_map, ← List.getLast?_eq_getElem?, hlast]
  rfl

/-- A request stays live from its last byte on. -/
theorem live_decoded (service : Service) {context : Let} {request : NetworkRequest} {world : World}
    (hpoint : service.point = .reading context)
    (hunread : service.current.bytes = service.world.received ++ requestBytes request)
    (hreceived : world.received = service.current.bytes) :
    (service.advance (.processing { context with error := .none } request) world).live =
      service.live := by
  rw [live_reading hpoint hunread, carriesOperation_requestBytes]
  cases hlast : service.current.written.getLast? with
  | none =>
      rw [Link.bytes, List.getLast?_eq_none_iff.mp hlast] at hunread
      exact (requestBytes_ne_nil request (List.append_eq_nil_iff.mp hunread.symm).2).elim
  | some tagged =>
      have hauthor : (service.advance (.processing { context with error := .none } request)
          world).author = tagged.2 := by
        apply author_eq
        · rw [service.advance_current, hlast]
          rfl
        · rw [service.advance_current]
          exact hreceived
      rw [live, service.advance_point]
      dsimp only
      rw [hauthor]
      rfl

end Service

theorem Front.of_ended {service : Service} {point : LetRun} (hended : point.Ended) :
    Front service point := by
  cases point <;> trivial

/-- What holds of the service at every instant. -/
structure Sound (service : Service) : Prop where
  agrees : (∀ context, service.point ≠ .finished context) →
    ∃ entries, Agrees entries service.point.context service.world.disk
  accepted_le : service.accepted ≤ service.dialed
  accepted_pos : ¬service.point.Ended → 0 < service.accepted
  sent : ¬service.point.Ended → service.current.sent = service.world.sent
  front : Front service service.point
  waiting : ∀ connection, service.accepted ≤ connection →
    (service.links connection).bytes <+: requestBytes .countDatabase ∧
      (service.links connection).sent = [] ∧ (service.links connection).taken = 0
  undialed : ∀ connection, service.dialed ≤ connection → service.links connection = {}
  complete : recordCount service.world.disk = service.initial + service.records.length
  once : ∀ call, call ∉ service.repeated → service.tally call ≤ 1

namespace Sound

variable {service service' : Service}

theorem agrees_context (hsound : Sound service)
    (hrunning : ∀ context, service.point ≠ .finished context) {point : LetRun} {error : Error}
    {world : World} (hcontext : point.context = { service.point.context with error })
    (hdisk : world.disk = service.world.disk) :
    ∃ entries, Agrees entries point.context world.disk := by
  obtain ⟨entries, hagrees⟩ := hsound.agrees hrunning
  refine ⟨entries, ?_⟩
  rw [hcontext, hdisk]
  exact hagrees.withError error

/-- What stays as it is when the server advances. -/
theorem advance (hsound : Sound service) (hserving : ¬service.point.Ended) {point : LetRun}
    {world : World} (hgrows : recordCount service.world.disk ≤ recordCount world.disk)
    (hagrees : (∀ context, point ≠ .finished context) →
      ∃ entries, Agrees entries point.context world.disk)
    (hfront : Front (service.advance point world) point)
    (honce : ∀ call, call ∉ service.repeated → (service.advance point world).tally call ≤ 1) :
    Sound (service.advance point world) := by
  have hcurrent := hsound.accepted_pos hserving
  have hlinks {connection : Nat} (hconnection : service.accepted ≤ connection) :
      (service.advance point world).links connection = service.links connection :=
    service.advance_links point world (by omega)
  refine ⟨hagrees, hsound.accepted_le, fun _ => hcurrent, ?_, hfront, ?_, ?_, ?_, honce⟩
  · intro _
    rw [service.advance_current]
    rfl
  · intro connection hconnection
    rw [hlinks hconnection]
    exact hsound.waiting connection hconnection
  · intro connection hconnection
    rw [hlinks (hsound.accepted_le.trans hconnection)]
    exact hsound.undialed connection hconnection
  · have hcomplete := hsound.complete
    rw [Service.advance, List.length_append, List.length_replicate, ← Nat.add_assoc, ← hcomplete,
      Nat.add_sub_of_le hgrows]

/-- The record of a live call takes the place of the request. -/
theorem tally_advance (hsound : Sound service) {context : Let} {request : NetworkRequest}
    {point : LetRun} {world : World} (hpoint : service.point = .processing context request)
    (hcount : recordCount world.disk ≤ recordCount service.world.disk + 1)
    (hmutating : recordCount service.world.disk < recordCount world.disk →
      request.operation.isSome) (hlive : (service.advance point world).live = none) (call : Nat)
    (hcall : call ∉ service.repeated) : (service.advance point world).tally call ≤ 1 := by
  have hbefore := hsound.once call hcall
  rw [Service.tally, hlive, if_neg (fun heq => nomatch heq), Nat.add_zero, service.count_advance]
  -- If there is a new record, its author was the live call, which is live no more.
  by_cases hmore : recordCount service.world.disk < recordCount world.disk
  · have hauthor : service.live = some service.author := by
      rw [Service.live, hpoint]
      exact if_pos (hmutating hmore)
    rw [Service.tally, hauthor] at hbefore
    simp only [Option.some.injEq] at hbefore
    split
    next heq =>
      rw [if_pos heq] at hbefore
      omega
    next hne =>
      rw [if_neg hne] at hbefore
      omega
  · have hnone : recordCount world.disk - recordCount service.world.disk = 0 := by omega
    rw [hnone, ite_self, Nat.add_zero]
    exact (service.count_le_tally call).trans hbefore

/-- Without another record and another live call, no call gets a second record. -/
theorem tally_kept (hsound : Sound service) (hrecords : service'.records = service.records)
    (hlive : service'.live = service.live ∨ service'.live = none) (call : Nat)
    (hcall : call ∉ service.repeated) : service'.tally call ≤ 1 :=
  (service.tally_le service' hrecords hlive call).trans (hsound.once call hcall)

/-- A step that keeps the disk and the context keeps all but the front. -/
theorem advance_kept (hsound : Sound service) (hserving : ¬service.point.Ended) {point : LetRun}
    {error : Error} {world : World}
    (hcontext : point.context = { service.point.context with error })
    (hdisk : world.disk = service.world.disk) (hfront : Front (service.advance point world) point)
    (hlive : (service.advance point world).live = service.live ∨
      (service.advance point world).live = none) :
    Sound (service.advance point world) := by
  refine hsound.advance hserving (by rw [hdisk]) ?_ hfront ?_
  · intro _
    refine hsound.agrees_context ?_ hcontext hdisk
    intro context heq
    exact hserving (heq ▸ trivial)
  · exact hsound.tally_kept (service.advance_records point world hdisk) hlive

/-- A connection that is accepted carries a part of a handshake, so nothing is live. -/
theorem accept (hsound : Sound service) {context : Let} {error : Error} {world : World}
    (hpoint : service.point = .accepting context) (hwaiting : service.accepted < service.dialed)
    (hdisk : world.disk = service.world.disk) (hreceived : world.received = [])
    (hsent : world.sent = []) :
    Sound { service with
      point := .reading { context with error }, world, accepted := service.accepted + 1 } := by
  have hrunning : ∀ context, service.point ≠ .finished context := by
    intro _ heq
    nomatch hpoint.symm.trans heq
  obtain ⟨hbytes, hunsent, _⟩ := hsound.waiting service.accepted (Nat.le_refl _)
  have hunread : (service.links service.accepted).bytes =
      world.received ++ (service.links service.accepted).bytes := by
    rw [hreceived, List.nil_append]
  have hhandshake : ¬carriesOperation (service.links service.accepted).bytes := by
    intro hcarries
    nomatch (carriesOperation_of_within hbytes hcarries).2
  refine ⟨fun _ => ?_, hwaiting, fun _ => Nat.succ_pos _, fun _ => hunsent.trans hsent.symm, ?_, ?_,
    hsound.undialed, (congrArg recordCount hdisk).trans hsound.complete, ?_⟩
  · exact hsound.agrees_context hrunning (by rw [hpoint]; rfl) hdisk
  · exact ⟨.countDatabase, _, hbytes, hunread⟩
  · intro connection hconnection
    exact hsound.waiting connection (Nat.le_of_succ_le hconnection)
  · refine hsound.tally_kept ?_ (.inr ?_)
    · rfl
    · exact Eq.trans (Service.live_reading rfl hunread) (if_neg hhandshake)

/-- The server ends without another connection, or right after it accepted one. -/
theorem stop (hsound : Sound service) {context : Let} {error : Error} {point : LetRun}
    {world : World} {accepted : Nat} (hpoint : service.point = .accepting context)
    (hended : point.Ended) (hcontext : point.context = { context with error })
    (hdisk : world.disk = service.world.disk)
    (hcount : accepted = service.accepted ∨
      accepted = service.accepted + 1 ∧ service.accepted < service.dialed) :
    Sound { service with point, world, accepted } := by
  have hrunning : ∀ context, service.point ≠ .finished context := by
    intro _ heq
    nomatch hpoint.symm.trans heq
  have haccepted : service.accepted ≤ accepted ∧ accepted ≤ service.dialed := by
    have := hsound.accepted_le
    omega
  refine ⟨fun _ => ?_, haccepted.2, fun hno => (hno hended).elim, fun hno => (hno hended).elim,
    ?_, ?_, hsound.undialed, (congrArg recordCount hdisk).trans hsound.complete, ?_⟩
  · exact hsound.agrees_context hrunning (by rw [hpoint]; exact hcontext) hdisk
  · exact .of_ended hended
  · intro connection hconnection
    exact hsound.waiting connection (haccepted.1.trans hconnection)
  · refine hsound.tally_kept ?_ (.inr (Service.live_of_ended hended))
    rfl

/-- The step lemma. -/
theorem step (hsound : Sound service) (hserved : Served service service') : Sound service' := by
  have hat {point : LetRun} (hpoint : service.point = point) (hno : ¬point.Ended) :
      ¬service.point.Ended ∧ Front service point :=
    ⟨hpoint ▸ hno, hpoint ▸ hsound.front⟩
  cases hserved.moved hsound.agrees hsound.front with
  | accepted point waiting disk received sent =>
      exact hsound.accept point waiting disk received sent
  | stopped before ended after disk count => exact hsound.stop before ended after disk count
  | closed serving ended after disk within sent =>
      exact hsound.advance_kept serving after disk (.of_ended ended)
        (.inr (Service.live_of_ended ended))
  | @decoded context request world point unread disk received sent =>
      obtain ⟨hserving, _⟩ := hat point id
      refine hsound.advance_kept hserving (by rw [point]; rfl) disk ?_ (.inl ?_)
      · rw [Front, service.advance_current]
        exact received.symm
      · exact service.live_decoded point unread received
  | @responded context request response chunk error world point within disk received sent =>
      obtain ⟨hserving, hfront⟩ := hat point id
      have hbytes : (service.advance (.reading { context with error }) world).current.bytes =
          world.received := by
        rw [service.advance_current, received]
        exact hfront
      refine hsound.advance_kept hserving (by rw [point]; rfl) disk ?_ (.inr ?_)
      · exact ⟨request, [], List.nil_prefix, hbytes.trans (List.append_nil _).symm⟩
      · exact Service.live_eq_none rfl hbytes
  | @committed context context' request response disk point mutating succeeds transactions agrees
      count =>
      obtain ⟨hserving, hfront⟩ := hat point id
      refine hsound.advance hserving (count ▸ Nat.le_succ _) (fun _ => agrees) ?_ ?_
      · rw [Front, service.advance_current]
        exact hfront
      · exact hsound.tally_advance point count.le (fun _ => mutating) rfl
  | @answered context request response point unchanged =>
      obtain ⟨hserving, hfront⟩ := hat point id
      refine hsound.advance_kept hserving (by rw [point]; rfl) rfl ?_ (.inr rfl)
      rw [Front, service.advance_current]
      exact hfront
  | @failed context context' request world point grows count mutating sent =>
      obtain ⟨hserving, _⟩ := hat point id
      -- The server is about to end, so that nothing has to agree with memory any more.
      refine hsound.advance hserving grows (fun hno => (hno context' rfl).elim) trivial ?_
      exact hsound.tally_advance point count mutating rfl

end Sound

end LetDX.Wire
