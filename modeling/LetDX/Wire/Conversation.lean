import LetDX.LetDB.Network.Encoding
import LetDX.Wire.Soundness

/-! # The client's side of a connection

The client writes a request only when nothing is under way on its connection,
so that the next line it reads is the reply to that request. Dialed connections
are served in order, so nothing is under way on any other one either.
-/

namespace LetDX.Wire

open Effects LetDB

/-- The server is done with all it has received, or with the connection. -/
def Service.Idle (service : Service) : Prop :=
  service.point.Ended ∨
    ∃ context, service.point = .reading context ∧ service.current.bytes = service.world.received

/-- The connection is the last one dialed and has not been accepted. -/
structure Waiting (connection : Nat) (bytes : List U8) (service : Service) : Prop where
  dialed : service.dialed = connection + 1
  accepted : service.accepted ≤ connection
  bytes : (service.links connection).bytes = bytes

/-- The connection is the last one dialed and accepted, and nothing is under way
on it. The server counts this many transactions. -/
structure Quiet (connection : Nat) (transactions : U64) (service : Service) : Prop where
  dialed : service.dialed = connection + 1
  accepted : service.accepted = connection + 1
  taken : service.current.taken = service.current.sent.length
  idle : service.Idle
  transactions : service.point.context.storageWal.transactions = transactions

/-- How a request may be answered, with the transactions before and after. -/
inductive Answers (request : NetworkRequest) (before : U64) : NetworkResponse → U64 → Prop
  | committed {response : NetworkResponse} (mutating : request.operation.isSome)
      (succeeds : response.succeeds) : Answers request before response (before + 1)
  | refused {error : Error} : Answers request before (.error error) before
  | told {context : Let} {response : NetworkResponse}
      (transactions : context.storageWal.transactions = before)
      (inquiry : request.inquiry context = some response) : Answers request before response before

/-- How far a request has come. -/
inductive Stage (request : NetworkRequest) (before : U64) (service : Service) : Prop
  | unread {context : Let} (point : service.point = .reading context)
      (bytes : service.current.bytes = service.world.received ++ requestBytes request)
      (taken : service.current.taken = service.current.sent.length)
      (transactions : context.storageWal.transactions = before)
  | processing {context : Let} (point : service.point = .processing context request)
      (taken : service.current.taken = service.current.sent.length)
      (transactions : context.storageWal.transactions = before)
  | responding {context : Let} {response : NetworkResponse}
      (point : service.point = .responding context request response)
      (taken : service.current.taken = service.current.sent.length)
      (answers : Answers request before response context.storageWal.transactions)
  | replied {response : NetworkResponse} (idle : service.Idle)
      (pending : service.current.pending = response.bytes)
      (answers : Answers request before response service.point.context.storageWal.transactions)
  | lost (idle : service.Idle) (newline : asciiNewline ∉ service.current.pending)

/-- The request is all that is under way on the last connection. -/
structure Await (connection : Nat) (request : NetworkRequest) (before : U64)
    (service : Service) : Prop where
  dialed : service.dialed = connection + 1
  accepted : service.accepted = connection + 1
  stage : Stage request before service

theorem requestBytes_injective {request request' : NetworkRequest}
    (heq : requestBytes request = requestBytes request') : request = request' := by
  have hline : request.line = request'.line := List.append_cancel_right heq
  have hdecode := networkRequestDecode_line request
  rw [hline, networkRequestDecode_line] at hdecode
  exact (Prod.mk.inj hdecode).2.symm

/-! ## Steps of the server -/

section Steps

variable {service service' : Service} {connection : Nat} {before : U64} {request : NetworkRequest}

theorem Link.pending_eq_nil {link : Link} (htaken : link.taken = link.sent.length) :
    link.pending = [] := by
  rw [pending, htaken, List.drop_length]

/-- With all connections accepted an idle server can only end the connection. -/
theorem Service.Idle.moved (hidle : service.Idle) (hsound : Sound service)
    (hall : service.accepted = service.dialed) (hmoved : Moved service service') :
    service'.point.Ended ∧ service'.dialed = service.dialed ∧
      service'.accepted = service.accepted ∧ service'.current = service.current ∧
      service'.point.context.storageWal = service.point.context.storageWal := by
  have hreading {context : Let} (hpoint : service.point = .reading context) :
      service.current.bytes = service.world.received := by
    rcases hidle with hended | ⟨_, _, hbytes⟩
    · rw [hpoint] at hended
      exact hended.elim
    · exact hbytes
  have hbusy {point : LetRun} (hpoint : service.point = point) (hserving : ¬point.Ended)
      (hno : ∀ context, point ≠ .reading context) : False := by
    rcases hidle with hended | ⟨context, heq, _⟩
    · exact hserving (hpoint ▸ hended)
    · exact hno context (hpoint.symm.trans heq)
  cases hmoved with
  | accepted _ waiting => exact (Nat.lt_irrefl _ (hall ▸ waiting)).elim
  | stopped point ended after disk count =>
      rcases count with rfl | ⟨_, hless⟩
      · refine ⟨ended, rfl, rfl, rfl, ?_⟩
        rw [after, point]
        rfl
      · exact (Nat.lt_irrefl _ (hall ▸ hless)).elim
  | @closed error point world chunk serving ended after disk within sent =>
      have hchunk : chunk = [] := by
        rcases hidle with hended | ⟨_, hpoint, _⟩
        · exact (serving hended).elim
        · rw [hpoint] at within
          exact List.prefix_nil.mp within
      refine ⟨ended, rfl, rfl, ?_, by rw [service.advance_point, after]⟩
      rw [service.advance_current, sent, hchunk, List.append_nil, ← hsound.sent serving]
  | decoded point unread =>
      rw [hreading point] at unread
      exact (requestBytes_ne_nil _ (List.self_eq_append_right.mp unread)).elim
  | responded point =>
      exact (hbusy point id (by intro _ heq; nomatch heq)).elim
  | committed point =>
      exact (hbusy point id (by intro _ heq; nomatch heq)).elim
  | answered point =>
      exact (hbusy point id (by intro _ heq; nomatch heq)).elim
  | failed point =>
      exact (hbusy point id (by intro _ heq; nomatch heq)).elim

theorem Quiet.step (hquiet : Quiet connection before service) (hsound : Sound service)
    (hserved : Served service service') : Quiet connection before service' := by
  obtain ⟨hended, hdialed, haccepted, hcurrent, hwal⟩ := hquiet.idle.moved hsound
    (hquiet.accepted.trans hquiet.dialed.symm) (hserved.moved hsound.agrees hsound.front)
  refine ⟨hdialed.trans hquiet.dialed, haccepted.trans hquiet.accepted, ?_, .inl hended, ?_⟩
  · rw [hcurrent]
    exact hquiet.taken
  · rw [hwal]
    exact hquiet.transactions

/-- A part of a response without its end has no newline. -/
theorem eq_bytes_or_newline_notMem {chunk : List U8} {response : NetworkResponse}
    (hwithin : chunk <+: response.bytes) : chunk = response.bytes ∨ asciiNewline ∉ chunk := by
  obtain ⟨body, hbytes, hnewline⟩ := response.exists_bytes_eq
  rw [hbytes] at hwithin ⊢
  rcases List.prefix_concat_iff.mp hwithin with hwhole | hpart
  · exact .inl hwhole
  · exact .inr fun hmem => hnewline (hpart.subset hmem)

section Stages

variable {point : LetRun} {world : World} {chunk : List U8} {context : Let}
  {response : NetworkResponse}

theorem Sound.pending_advance (hsound : Sound service) (hserving : ¬service.point.Ended)
    (htaken : service.current.taken = service.current.sent.length)
    (hsent : world.sent = service.world.sent ++ chunk) :
    (service.advance point world).current.pending = chunk := by
  rw [service.advance_current, Link.pending, hsent, htaken, hsound.sent hserving, List.drop_left]

theorem Sound.taken_advance (hsound : Sound service) (hserving : ¬service.point.Ended)
    (htaken : service.current.taken = service.current.sent.length)
    (hsent : world.sent = service.world.sent) :
    (service.advance point world).current.taken =
      (service.advance point world).current.sent.length := by
  rw [service.advance_current, hsent, htaken, hsound.sent hserving]

/-- Before there is a response, the end of the connection loses it. -/
theorem Stage.closed (hsound : Sound service) (hserving : ¬service.point.Ended)
    (htaken : service.current.taken = service.current.sent.length)
    (hreply : service.point.reply = []) (hended : point.Ended)
    (hwithin : chunk <+: service.point.reply) (hsent : world.sent = service.world.sent ++ chunk) :
    Stage request before (service.advance point world) := by
  refine .lost (.inl hended) ?_
  rw [hsound.pending_advance hserving htaken hsent]
  rw [hreply] at hwithin
  rw [List.prefix_nil.mp hwithin]
  exact List.not_mem_nil

/-- What of the response was sent is either all of it or no line. -/
theorem Stage.answered (hsound : Sound service) (hserving : ¬service.point.Ended)
    (htaken : service.current.taken = service.current.sent.length)
    (hidle : (service.advance point world).Idle) (hwithin : chunk <+: response.bytes)
    (hsent : world.sent = service.world.sent ++ chunk)
    (hanswers : Answers request before response point.context.storageWal.transactions) :
    Stage request before (service.advance point world) := by
  have hpending : (service.advance point world).current.pending = chunk :=
    hsound.pending_advance hserving htaken hsent
  rcases eq_bytes_or_newline_notMem hwithin with rfl | hnewline
  · exact .replied hidle hpending hanswers
  · exact .lost hidle (hpending.symm ▸ hnewline)

theorem Stage.moved_unread (hsound : Sound service) (hpoint : service.point = .reading context)
    (hbytes : service.current.bytes = service.world.received ++ requestBytes request)
    (htaken : service.current.taken = service.current.sent.length)
    (htransactions : context.storageWal.transactions = before) (hmoved : Moved service service') :
    service'.dialed = service.dialed ∧ service'.accepted = service.accepted ∧
      Stage request before service' := by
  have hserving : ¬service.point.Ended := hpoint ▸ id
  cases hmoved with
  | closed _ ended after disk within sent =>
      exact ⟨rfl, rfl, .closed hsound hserving htaken (hpoint ▸ rfl) ended within sent⟩
  | decoded point unread disk received sent =>
      obtain rfl := LetRun.reading.inj (hpoint.symm.trans point)
      obtain rfl := requestBytes_injective (List.append_cancel_left (hbytes.symm.trans unread))
      exact ⟨rfl, rfl, .processing rfl (hsound.taken_advance hserving htaken sent) htransactions⟩
  | accepted point | stopped point | responded point | committed point | answered point
  | failed point => nomatch hpoint.symm.trans point

theorem Stage.moved_processing (hsound : Sound service)
    (hpoint : service.point = .processing context request)
    (htaken : service.current.taken = service.current.sent.length)
    (htransactions : context.storageWal.transactions = before) (hmoved : Moved service service') :
    service'.dialed = service.dialed ∧ service'.accepted = service.accepted ∧
      Stage request before service' := by
  have hserving : ¬service.point.Ended := hpoint ▸ id
  cases hmoved with
  | closed _ ended after disk within sent =>
      exact ⟨rfl, rfl, .closed hsound hserving htaken (hpoint ▸ rfl) ended within sent⟩
  | committed point mutating succeeds transactions =>
      obtain ⟨rfl, rfl⟩ := LetRun.processing.inj (hpoint.symm.trans point)
      refine ⟨rfl, rfl, .responding rfl (hsound.taken_advance hserving htaken rfl) ?_⟩
      rw [transactions, htransactions]
      exact .committed mutating succeeds
  | answered point unchanged =>
      obtain ⟨rfl, rfl⟩ := LetRun.processing.inj (hpoint.symm.trans point)
      refine ⟨rfl, rfl, .responding rfl (hsound.taken_advance hserving htaken rfl) ?_⟩
      rcases unchanged with hinquiry | ⟨error, rfl⟩
      · exact htransactions ▸ .told rfl hinquiry
      · exact htransactions ▸ .refused
  | failed point grows count mutating sent =>
      exact ⟨rfl, rfl, .closed hsound hserving htaken (hpoint ▸ rfl) trivial List.nil_prefix
        (sent.trans (List.append_nil _).symm)⟩
  | accepted point | stopped point | decoded point | responded point =>
      nomatch hpoint.symm.trans point

theorem Stage.moved_responding (hsound : Sound service)
    (hpoint : service.point = .responding context request response)
    (htaken : service.current.taken = service.current.sent.length)
    (hanswers : Answers request before response context.storageWal.transactions)
    (hmoved : Moved service service') :
    service'.dialed = service.dialed ∧ service'.accepted = service.accepted ∧
      Stage request before service' := by
  have hserving : ¬service.point.Ended := hpoint ▸ id
  have hfront := hsound.front
  rw [hpoint] at hfront
  cases hmoved with
  | closed _ ended after disk within sent =>
      rw [hpoint] at within after
      refine ⟨rfl, rfl, .answered hsound hserving htaken (.inl ended) within sent ?_⟩
      rw [after]
      exact hanswers
  | responded point within disk received sent =>
      obtain ⟨rfl, rfl, rfl⟩ := LetRun.responding.inj (hpoint.symm.trans point)
      refine ⟨rfl, rfl, .answered hsound hserving htaken (.inr ⟨_, rfl, ?_⟩) within sent hanswers⟩
      rw [service.advance_current, service.advance_world, received]
      exact hfront
  | accepted point | stopped point | decoded point | committed point | answered point
  | failed point => nomatch hpoint.symm.trans point

end Stages

theorem Await.step (hawait : Await connection request before service) (hsound : Sound service)
    (hserved : Served service service') : Await connection request before service' := by
  have hall : service.accepted = service.dialed := hawait.accepted.trans hawait.dialed.symm
  have hmoved := hserved.moved hsound.agrees hsound.front
  suffices hstage : service'.dialed = service.dialed ∧ service'.accepted = service.accepted ∧
      Stage request before service' by
    obtain ⟨hdialed, haccepted, hstage⟩ := hstage
    exact ⟨hdialed.trans hawait.dialed, haccepted.trans hawait.accepted, hstage⟩
  cases hawait.stage with
  | unread point bytes taken transactions =>
      exact Stage.moved_unread hsound point bytes taken transactions hmoved
  | processing point taken transactions =>
      exact Stage.moved_processing hsound point taken transactions hmoved
  | responding point taken answers => exact Stage.moved_responding hsound point taken answers hmoved
  | replied idle pending answers =>
      obtain ⟨hended, hdialed, haccepted, hcurrent, hwal⟩ := idle.moved hsound hall hmoved
      refine ⟨hdialed, haccepted, .replied (.inl hended) (hcurrent ▸ pending) ?_⟩
      rw [hwal]
      exact answers
  | lost idle newline =>
      obtain ⟨hended, hdialed, haccepted, hcurrent, _⟩ := idle.moved hsound hall hmoved
      exact ⟨hdialed, haccepted, .lost (.inl hended) (hcurrent ▸ newline)⟩

theorem Waiting.advance {bytes : List U8} (hwaiting : Waiting connection bytes service)
    (hsound : Sound service) (hserving : ¬service.point.Ended) (point : LetRun) (world : World) :
    Waiting connection bytes (service.advance point world) := by
  have hpositive := hsound.accepted_pos hserving
  have haccepted := hwaiting.accepted
  refine ⟨hwaiting.dialed, haccepted, ?_⟩
  rw [service.advance_links point world (by omega)]
  exact hwaiting.bytes

/-- What was written to a connection is there when it is accepted. -/
theorem Waiting.step {bytes : List U8} (hwaiting : Waiting connection bytes service)
    (hsound : Sound service) (hserved : Served service service') :
    Waiting connection bytes service' ∨
      service'.dialed = connection + 1 ∧ service'.accepted = connection + 1 ∧
        service'.current.taken = 0 ∧ service'.current.sent = [] ∧
        (service'.point.Ended ∨ ∃ context, service'.point = .reading context ∧
          service'.world.received = [] ∧ service'.current.bytes = bytes) := by
  have haccepted := hwaiting.accepted
  obtain ⟨_, hsent, htaken⟩ := hsound.waiting connection hwaiting.accepted
  have hstay (point : LetRun) (hpoint : service.point = point) (hno : ¬point.Ended)
      (point' : LetRun) (world : World) :
      Waiting connection bytes (service.advance point' world) :=
    hwaiting.advance hsound (hpoint ▸ hno) point' world
  cases hserved.moved hsound.agrees hsound.front with
  | accepted point waiting disk received sent =>
      by_cases hnext : service.accepted = connection
      · subst hnext
        exact .inr ⟨hwaiting.dialed, rfl, htaken, hsent,
          .inr ⟨_, rfl, received, hwaiting.bytes⟩⟩
      · exact .inl ⟨hwaiting.dialed, Nat.lt_of_le_of_ne haccepted hnext, hwaiting.bytes⟩
  | stopped point ended after disk count =>
      rcases count with rfl | ⟨rfl, _⟩
      · exact .inl ⟨hwaiting.dialed, haccepted, hwaiting.bytes⟩
      · by_cases hnext : service.accepted = connection
        · subst hnext
          exact .inr ⟨hwaiting.dialed, rfl, htaken, hsent, .inl ended⟩
        · exact .inl ⟨hwaiting.dialed, Nat.lt_of_le_of_ne haccepted hnext, hwaiting.bytes⟩
  | closed serving => exact .inl (hwaiting.advance hsound serving _ _)
  | decoded point => exact .inl (hstay _ point id _ _)
  | responded point => exact .inl (hstay _ point id _ _)
  | committed point => exact .inl (hstay _ point id _ _)
  | answered point => exact .inl (hstay _ point id _ _)
  | failed point => exact .inl (hstay _ point id _ _)

/-- The connection is new. -/
def Opened (connection : Nat) (service : Service) : Prop :=
  Waiting connection [] service ∨ ∃ transactions, Quiet connection transactions service

/-- The handshake is under way on the connection. -/
def Greeted (connection : Nat) (service : Service) : Prop :=
  Waiting connection (requestBytes .countDatabase) service ∨
    ∃ before, Await connection .countDatabase before service

theorem Opened.step (hopened : Opened connection service) (hsound : Sound service)
    (hserved : Served service service') : Opened connection service' := by
  rcases hopened with hwaiting | ⟨transactions, hquiet⟩
  · rcases hwaiting.step hsound hserved with hwaiting' |
      ⟨hdialed, haccepted, htaken, hsent, hpoint⟩
    · exact .inl hwaiting'
    · refine .inr ⟨_, hdialed, haccepted, by rw [htaken, hsent]; rfl, ?_, rfl⟩
      rcases hpoint with hended | ⟨context, hreading, hreceived, hbytes⟩
      · exact .inl hended
      · exact .inr ⟨context, hreading, hbytes.trans hreceived.symm⟩
  · exact .inr ⟨transactions, hquiet.step hsound hserved⟩

theorem Greeted.step (hgreeted : Greeted connection service) (hsound : Sound service)
    (hserved : Served service service') : Greeted connection service' := by
  rcases hgreeted with hwaiting | ⟨before, hawait⟩
  · rcases hwaiting.step hsound hserved with hwaiting' |
      ⟨hdialed, haccepted, htaken, hsent, hpoint⟩
    · exact .inl hwaiting'
    · rcases hpoint with hended | ⟨context, hreading, hreceived, hbytes⟩
      · refine .inr ⟨0, hdialed, haccepted, .lost (.inl hended) ?_⟩
        rw [Link.pending, hsent, List.drop_nil]
        exact List.not_mem_nil
      · refine .inr ⟨_, hdialed, haccepted, .unread hreading ?_ (by rw [htaken, hsent]; rfl) rfl⟩
        rw [hbytes, hreceived, List.nil_append]
  · exact .inr ⟨before, hawait.step hsound hserved⟩

end Steps

end LetDX.Wire
