import LetDX.Effects.Inevitable
import LetDX.Wire.Conversation
import LetDX.Wire.Exchanges

/-! # A healthy server on its connections

While no call of the server fails, a request that was written to the connection
that is next, or that it serves, is answered as the ledger answers it, whenever
the server takes its steps.
-/

namespace LetDX.Wire

open Effects LetDB

/-- There is something for the server to do. On a connection it waits for a whole
line or for the end. -/
def Service.Ready (service : Service) : Prop :=
  match service.point with
  | .accepting _ => service.accepted < service.dialed
  | .reading _ =>
      asciiNewline ∈ service.current.bytes.drop service.world.received.length ∨
        service.current.closed = true
  | .processing .. | .responding .. => True
  | .finished _ => False

/-- A step of a server on which no call fails. -/
inductive Works : Service → Service → Prop
  | accepts {service : Service} {context : Let} {point : LetRun} {world : World}
      (accepting : service.point = .accepting context) (ready : service.Ready)
      (stepped : (healthy []).Returns (letRunStep service.point) service.world point world) :
      Works service { service with point, world, accepted := service.accepted + 1 }
  | serves {service : Service} {point : LetRun} {world : World}
      (serving : ¬service.point.Ended) (ready : service.Ready)
      (stepped : (healthy service.current.bytes).Returns (letRunStep service.point) service.world
        point world) :
      Works service (service.advance point world)

section Steps

variable {service service' : Service}

theorem healthy_arrives {input : List U8} {call : LetDB.Syscall} {world world' : World}
    {answer : call.Answer} (hperforms : (healthy input).Performs call world answer world')
    (harrived : world.received <+: input) : world'.received <+: input := by
  obtain ⟨fortune, hexec⟩ := hperforms
  obtain rfl : _ = world' := congrArg Prod.snd hexec
  cases call with
  | accept => exact List.nil_prefix
  | recv =>
      change (Syscall.exec false .recv (obliging input .recv world) world).2.received <+: input
      cases hnext : input[world.received.length]? with
      | none =>
          simp only [obliging, hnext]
          exact harrived
      | some byte =>
          simp only [obliging, hnext]
          obtain ⟨rest, rfl⟩ := harrived
          rw [List.getElem?_append_right (Nat.le_refl _), Nat.sub_self] at hnext
          cases rest with
          | nil => cases hnext
          | cons first rest =>
              obtain rfl := Option.some.inj hnext
              exact ⟨rest, List.append_assoc ..⟩
  | openExclusive =>
      simp only [healthy, fortunate, Syscall.exec]
      cases world.disk.file <;> exact harrived
  | openExisting =>
      simp only [healthy, fortunate, Syscall.exec]
      split <;> exact harrived
  | _ => exact harrived

/-- A step of a healthy server is a step of the server. -/
theorem Works.served (hworks : Works service service')
    (harrived : ¬service.point.Ended → service.world.received <+: service.current.bytes) :
    Served service service' := by
  have hstepped {input : List U8} {point : LetRun} {world : World}
      (hreturns : (healthy input).Returns (letRunStep service.point) service.world point world) :
      (system false).Returns (letRunStep service.point) service.world point world :=
    hreturns.mono fun _ _ _ _ => healthy_performs
  cases hworks with
  | accepts accepting ready stepped =>
      refine .accepts accepting ?_ (hstepped stepped)
      rwa [Service.Ready, accepting] at ready
  | @serves point world serving ready stepped =>
      refine .serves serving ?_ (hstepped stepped)
      let relation (world world' : World) : Prop :=
        world.received <+: service.current.bytes → world'.received <+: service.current.bytes
      have hrefl : Std.Refl relation := ⟨fun _ => id⟩
      have htrans : IsTrans World relation := ⟨fun _ _ _ hfirst hsecond => hsecond ∘ hfirst⟩
      have hmoves : _ ∧ relation service.world world :=
        Machine.Reaches.along (fun _ _ _ _ _ hperforms => healthy_arrives hperforms) stepped
          (.any (fun _ => trivial) _)
      exact hmoves.2 (harrived serving)

theorem Sound.arrived (hsound : Sound service) (hserving : ¬service.point.Ended) :
    service.world.received <+: service.current.bytes := by
  have hfront := hsound.front
  cases hpoint : service.point with
  | accepting | finished =>
      rw [hpoint] at hserving
      exact (hserving trivial).elim
  | reading =>
      rw [hpoint] at hfront
      obtain ⟨_, unread, _, hbytes⟩ := hfront
      exact ⟨unread, hbytes.symm⟩
  | processing | responding =>
      rw [hpoint] at hfront
      exact hfront ▸ List.prefix_rfl

theorem Sound.works (hsound : Sound service) (hworks : Works service service') :
    Served service service' ∧ Sound service' := by
  have hserved := hworks.served hsound.arrived
  exact ⟨hserved, hsound.step hserved⟩

theorem not_works (hbusy : ¬service.Ready) : ¬Works service service' := by
  intro hworks
  cases hworks with
  | accepts _ ready => exact hbusy ready
  | serves _ ready => exact hbusy ready

variable {next : Service → Prop}

theorem leads_serving {post : LetRun → World → Prop} (hserving : ¬service.point.Ended)
    (hready : service.Ready)
    (hthrives : Thrives service.current.bytes post (letRunStep service.point) service.world)
    (hnext : ∀ point world, post point world → next (service.advance point world)) :
    Leads Works next service := by
  constructor
  · obtain ⟨point, world, hreturns⟩ := hthrives.exists_returns
    exact ⟨_, .serves hserving hready hreturns⟩
  · intro service' hworks
    cases hworks with
    | accepts accepting =>
        rw [accepting] at hserving
        exact (hserving trivial).elim
    | serves _ _ stepped => exact hnext _ _ (hthrives.returns stepped)

theorem leads_accepting {context : Let} {post : LetRun → World → Prop}
    (haccepting : service.point = .accepting context) (hready : service.Ready)
    (hthrives : Thrives [] post (letRunStep service.point) service.world)
    (hnext : ∀ point world, post point world →
      next { service with point, world, accepted := service.accepted + 1 }) :
    Leads Works next service := by
  constructor
  · obtain ⟨point, world, hreturns⟩ := hthrives.exists_returns
    exact ⟨_, .accepts haccepting hready hreturns⟩
  · intro service' hworks
    cases hworks with
    | accepts _ _ stepped => exact hnext _ _ (hthrives.returns stepped)
    | serves serving =>
        rw [haccepting] at serving
        exact (serving trivial).elim

end Steps

/-! ## Where the server is -/

/-- The server is up, with this log. -/
structure Up (log : List StorageWalEntry) (service : Service) : Prop where
  agrees : Agrees log service.point.context service.world.disk
  raised : service.world.accepting = true
  accepted_le : service.accepted ≤ service.dialed
  undialed : ∀ connection, service.dialed ≤ connection → service.links connection = {}

/-- It accepts the next connection, or will when it has seen that the client has
closed the last one. -/
inductive Free (log : List StorageWalEntry) (service : Service) : Prop
  | accepting {context : Let} (up : Up log service) (point : service.point = .accepting context)
  | leaving {context : Let} (up : Up log service) (point : service.point = .reading context)
      (accepted : 0 < service.accepted)
      (received : service.world.received = service.current.bytes)
      (closed : service.current.closed = true)

/-- The connection is next, with these bytes written to it. -/
structure Queued (connection : Nat) (written : List U8) (log : List StorageWalEntry)
    (service : Service) : Prop where
  free : Free log service
  dialed : service.dialed = connection + 1
  accepted : service.accepted = connection
  bytes : (service.links connection).bytes = written
  sent : (service.links connection).sent = []
  taken : (service.links connection).taken = 0
  closed : (service.links connection).closed = false

/-- The server serves the connection. -/
structure Held (connection : Nat) (log : List StorageWalEntry) (service : Service) : Prop where
  up : Up log service
  executing : service.world.executing = true
  dialed : service.dialed = connection + 1
  accepted : service.accepted = connection + 1
  sent : (service.links connection).sent = service.world.sent
  closed : (service.links connection).closed = false

/-- The server reads on the connection, with these bytes unread. -/
structure Attends (connection : Nat) (unread : List U8) (log : List StorageWalEntry)
    (service : Service) : Prop where
  held : Held connection log service
  point : ∃ context, service.point = .reading context
  bytes : (service.links connection).bytes = service.world.received ++ unread

/-- The server is done with the connection and waits for another. -/
structure Gone (connection : Nat) (log : List StorageWalEntry) (service : Service) : Prop where
  up : Up log service
  point : ∃ context, service.point = .accepting context
  accepted : service.accepted = service.dialed
  dialed : connection < service.dialed

namespace Service

/-- The client has taken all that was sent. -/
def Taken (service : Service) (connection : Nat) : Prop :=
  (service.links connection).taken = (service.links connection).sent.length

/-- The client can take a line. -/
def HasLine (service : Service) (connection : Nat) : Prop :=
  asciiNewline ∈ (service.links connection).pending

end Service

/-- The response of the ledger to the request is what is left to take. -/
structure Replied (connection : Nat) (request : NetworkRequest) (log : List StorageWalEntry)
    (response : NetworkResponse) (log' : List StorageWalEntry) (service : Service) : Prop where
  obliges : Obliges log request response log'
  pending : (service.links connection).pending = response.bytes
  rests : Attends connection [] log' service ∨ request = .close ∧ Gone connection log' service

/-- The request was written to the connection, and its response was not taken yet. -/
inductive Underway (connection : Nat) (request : NetworkRequest) (log : List StorageWalEntry)
    (service : Service) : Prop
  | queued (queued : Queued connection (requestBytes request) log service)
  | unread (attends : Attends connection (requestBytes request) log service)
      (taken : service.Taken connection)
  | processing {context : Let} (held : Held connection log service)
      (point : service.point = .processing context request)
      (bytes : (service.links connection).bytes = service.world.received)
      (taken : service.Taken connection)
  | responding {context : Let} {response : NetworkResponse} {log' : List StorageWalEntry}
      (held : Held connection log' service)
      (point : service.point = .responding context request response)
      (bytes : (service.links connection).bytes = service.world.received)
      (taken : service.Taken connection) (obliges : Obliges log request response log')
  | replied {response : NetworkResponse} {log' : List StorageWalEntry}
      (replied : Replied connection request log response log' service)

section Phases

variable {service service' : Service} {connection : Nat} {log log' : List StorageWalEntry}
  {written : List U8} {request : NetworkRequest} {response : NetworkResponse} {context : Let}
  {point : LetRun} {world : World} {input : List U8}

theorem Held.current_eq (hheld : Held connection log service) :
    service.current = service.links connection := by
  rw [Service.current, hheld.accepted]
  rfl

theorem Held.advance_link (hheld : Held connection log service) (point : LetRun) (world : World) :
    (service.advance point world).links connection =
      { service.links connection with sent := world.sent } := by
  rw [Service.advance, hheld.current_eq, hheld.accepted]
  exact Function.update_self ..

/-- What a step of the server on a connection leaves of its other ones. -/
theorem Up.advance (hup : Up log service) (haccepted : 0 < service.accepted)
    (hagrees : Agrees log' point.context world.disk) (hraised : world.accepting = true) :
    Up log' (service.advance point world) where
  agrees := hagrees
  raised := hraised
  accepted_le := hup.accepted_le
  undialed := by
    intro connection hconnection
    have hother : connection ≠ service.accepted - 1 := by
      have haccepted_le := hup.accepted_le
      rw [service.advance_dialed] at hconnection
      omega
    rw [service.advance_links point world hother]
    exact hup.undialed connection hconnection

theorem Held.advance (hheld : Held connection log service)
    (hagrees : Agrees log' point.context world.disk) (hraised : world.accepting = true)
    (hexecuting : world.executing = true) : Held connection log' (service.advance point world) where
  up := hheld.up.advance (hheld.accepted ▸ Nat.succ_pos connection) hagrees hraised
  executing := hexecuting
  dialed := hheld.dialed
  accepted := hheld.accepted
  sent := by rw [hheld.advance_link]; rfl
  closed := by rw [hheld.advance_link]; exact hheld.closed

theorem Attends.not_ready (hattends : Attends connection [] log service) : ¬service.Ready := by
  obtain ⟨context, hpoint⟩ := hattends.point
  rw [Service.Ready, hpoint]
  dsimp only
  rw [hattends.held.current_eq, hattends.bytes, List.append_nil, List.drop_length,
    hattends.held.closed]
  simp

theorem Gone.not_ready (hgone : Gone connection log service) : ¬service.Ready := by
  obtain ⟨context, hpoint⟩ := hgone.point
  rw [Service.Ready, hpoint]
  exact Nat.not_lt.mpr (Nat.le_of_eq hgone.accepted.symm)

/-! ## The phases -/

theorem letRunStep_leaving_thrives {rest : List U8} (hinput : world.received ++ rest = input)
    (hrest : asciiNewline ∉ rest) (hlength : rest.length < networkBufferLength)
    (hraised : world.accepting = true) :
    Thrives input (fun point world' => point = .accepting { context with error := .none } ∧
        world'.disk = world.disk ∧ world'.accepting = true)
      (letRunStep (.reading context)) world := by
  refine .bind (read_closed_thrives hinput hrest hlength (.bind (setExecuting_thrives ?_)))
  exact letRunExecuting_thrives (fun heq => by cases heq) (fun _ _ => ⟨rfl, rfl, hraised⟩) hraised

/-- The server sees that the client has closed the connection. -/
theorem leads_leaving (hup : Up log service) (hpoint : service.point = .reading context)
    (haccepted : 0 < service.accepted) (hreceived : service.world.received = service.current.bytes)
    (hclosed : service.current.closed = true) :
    Leads Works (fun service' => (∃ context, service'.point = .accepting context) ∧
        Up log service' ∧ service'.dialed = service.dialed ∧
        service'.accepted = service.accepted ∧
        ∀ connection, service.accepted ≤ connection →
          service'.links connection = service.links connection) service := by
  have hagrees := hup.agrees
  have hserving : ¬service.point.Ended := by
    rw [hpoint]
    exact id
  have hready : service.Ready := by
    rw [Service.Ready, hpoint]
    exact .inr hclosed
  have hthrives : Thrives service.current.bytes _ (letRunStep (.reading context)) service.world :=
    letRunStep_leaving_thrives ((List.append_nil _).trans hreceived) List.not_mem_nil (by decide)
      hup.raised
  rw [← hpoint] at hthrives
  refine leads_serving hserving hready hthrives ?_
  rintro _ world ⟨rfl, hdisk, hraised⟩
  rw [hpoint] at hagrees
  refine ⟨⟨_, rfl⟩, hup.advance haccepted ?_ hraised, rfl, rfl, ?_⟩
  · rw [hdisk]
    exact hagrees.withError .none
  · intro connection hconnection
    exact service.advance_links _ _ (by omega)

theorem letRunStep_accepting_thrives (hraised : world.accepting = true) :
    Thrives input (fun point world' => point = .reading { context with error := .none } ∧
        world' = { world with received := [], sent := [], executing := true })
      (letRunStep (.accepting context)) world := by
  refine .bind (.bind (thrives_call .accept fun handle => .pure trivial ?_))
  rw [if_neg (by decide)]
  refine .bind (setExecuting_thrives ?_)
  exact letRunExecuting_thrives (fun _ => ⟨rfl, rfl⟩) (fun heq => by cases heq) hraised

/-- The server accepts the connection and finds on it what was written to it. -/
theorem Queued.accepting_leads (hqueued : Queued connection written log service)
    (hpoint : service.point = .accepting context) :
    Leads Works (fun service' => Attends connection written log service' ∧
      service'.Taken connection) service := by
  have hup : Up log service := by
    cases hqueued.free with
    | accepting up => exact up
    | leaving up => exact up
  have hagrees := hup.agrees
  have hready : service.Ready := by
    rw [Service.Ready, hpoint]
    change service.accepted < service.dialed
    rw [hqueued.accepted, hqueued.dialed]
    exact Nat.lt_succ_self connection
  have hthrives : Thrives [] _ (letRunStep (.accepting context)) service.world :=
    letRunStep_accepting_thrives hup.raised
  rw [← hpoint] at hthrives
  refine leads_accepting hpoint hready hthrives ?_
  rintro _ _ ⟨rfl, rfl⟩
  rw [hpoint] at hagrees
  have haccepted : service.accepted + 1 ≤ service.dialed := by
    rw [hqueued.accepted, hqueued.dialed]
  refine ⟨⟨⟨⟨hagrees.withError .none, hup.raised, haccepted, hup.undialed⟩, rfl, hqueued.dialed, ?_,
    ?_, ?_⟩, ⟨_, rfl⟩, ?_⟩, ?_⟩
  · exact congrArg (· + 1) hqueued.accepted
  · exact hqueued.sent
  · exact hqueued.closed
  · exact hqueued.bytes
  · exact hqueued.taken.trans (congrArg List.length hqueued.sent).symm

/-- The server is first done with the connection before it. -/
theorem Queued.leaving_leads (hqueued : Queued connection written log service)
    (hpoint : service.point = .reading context) :
    Leads Works (fun service' => Queued connection written log service' ∧
      ∃ context, service'.point = .accepting context) service := by
  cases hqueued.free with
  | accepting _ point => nomatch hpoint.symm.trans point
  | leaving up point accepted received closed =>
      refine (leads_leaving up point accepted received closed).weaken ?_
      rintro service' ⟨⟨context', hpoint'⟩, hup, hdialed, haccepted, hlinks⟩
      have hlink := hlinks connection (Nat.le_of_eq hqueued.accepted)
      refine ⟨⟨.accepting hup hpoint', hdialed.trans hqueued.dialed,
        haccepted.trans hqueued.accepted, ?_, ?_, ?_, ?_⟩, context', hpoint'⟩
      · rw [hlink]
        exact hqueued.bytes
      · rw [hlink]
        exact hqueued.sent
      · rw [hlink]
        exact hqueued.taken
      · rw [hlink]
        exact hqueued.closed

theorem letRunStep_reading_thrives (hinput : world.received ++ requestBytes request = input) :
    Thrives input (fun point world' =>
        point = .processing { context with error := .none } request ∧
          world' = { world with received := input })
      (letRunStep (.reading context)) world := by
  have hshort : request.line.length < networkBufferLength :=
    request.length_line_le.trans_lt (by decide)
  refine .bind (read_thrives hinput request.newline_notMem_line hshort ?_)
  rw [networkRequestDecode_line]
  refine .pure trivial ⟨rfl, ?_⟩
  rw [← hinput, requestBytes, ← List.append_assoc]

/-- The server reads the request. -/
theorem Attends.leads (hattends : Attends connection (requestBytes request) log service)
    (htaken : service.Taken connection) :
    Leads Works (fun service' => ∃ context, Held connection log service' ∧
      service'.point = .processing context request ∧
      (service'.links connection).bytes = service'.world.received ∧
      service'.Taken connection) service := by
  obtain ⟨context, hpoint⟩ := hattends.point
  have hheld := hattends.held
  have hbytes := hattends.bytes
  have hagrees := hheld.up.agrees
  rw [← hheld.current_eq] at hbytes
  have hserving : ¬service.point.Ended := by
    rw [hpoint]
    exact id
  have hready : service.Ready := by
    rw [Service.Ready, hpoint]
    refine .inl ?_
    rw [hbytes, List.drop_left]
    exact List.mem_concat_self
  have hthrives : Thrives service.current.bytes _ (letRunStep (.reading context)) service.world :=
    letRunStep_reading_thrives hbytes.symm
  rw [← hpoint] at hthrives
  refine leads_serving hserving hready hthrives ?_
  rintro _ _ ⟨rfl, rfl⟩
  rw [hpoint] at hagrees
  refine ⟨_, hheld.advance ?_ hheld.up.raised hheld.executing, rfl, ?_, ?_⟩
  · exact hagrees.withError .none
  · rw [hheld.advance_link, hheld.current_eq]
    rfl
  · rw [Service.Taken, hheld.advance_link]
    exact htaken.trans (congrArg List.length hheld.sent)

/-- The server acts on the request as the ledger does. -/
theorem Held.processing_leads (hheld : Held connection log service)
    (hpoint : service.point = .processing context request)
    (hbytes : (service.links connection).bytes = service.world.received)
    (htaken : service.Taken connection) (hroom : log.length < 2 ^ 56) :
    Leads Works (fun service' => ∃ context response log', Held connection log' service' ∧
      service'.point = .responding context request response ∧
      (service'.links connection).bytes = service'.world.received ∧
      service'.Taken connection ∧ Obliges log request response log') service := by
  have hagrees := hheld.up.agrees
  rw [hpoint] at hagrees
  have hserving : ¬service.point.Ended := by
    rw [hpoint]
    exact id
  have hready : service.Ready := by
    rw [Service.Ready, hpoint]
    trivial
  have hthrives : Thrives service.current.bytes _ (letRunStep (.processing context request))
      service.world := letRunStep_processing_thrives hagrees hroom
  rw [← hpoint] at hthrives
  refine leads_serving hserving hready hthrives ?_
  intro point world hhandled
  obtain ⟨context', response, log', rfl, hobliges, hagrees', hworld⟩ :=
    obliges_handled hagrees hhandled
  have hsent : world.sent = service.world.sent := by rw [hworld]
  have hreceived : world.received = service.world.received := by rw [hworld]
  have hraised : world.accepting = true := by
    rw [hworld]
    exact hheld.up.raised
  have hexecuting : world.executing = true := by
    rw [hworld]
    exact hheld.executing
  refine ⟨_, _, _, hheld.advance hagrees' hraised hexecuting, rfl, ?_, ?_, hobliges⟩
  · rw [hheld.advance_link, service.advance_world, hreceived]
    exact hbytes
  · rw [Service.Taken, hheld.advance_link]
    change (service.links connection).taken = world.sent.length
    rw [hsent, ← hheld.sent]
    exact htaken

theorem letRunStep_responding_thrives (hexecuting : world.executing = true)
    (hraised : world.accepting = true) :
    Thrives input (fun point world' => world'.disk = world.disk ∧
        world'.received = world.received ∧ world'.sent = world.sent ++ response.bytes ∧
        world'.accepting = true ∧
        (point = .reading { context with error := .none } ∧ world'.executing = true ∨
          request = .close ∧ point = .accepting { context with error := .none }))
      (letRunStep (.responding context request response)) world := by
  have hnone : ¬errorExists Error.none := by decide
  refine .bind (networkClientWrite_thrives ?_)
  unfold letRunResponded
  rw [if_neg hnone]
  split
  next hclose =>
    refine .bind (setExecuting_thrives ?_)
    refine letRunExecuting_thrives (fun heq => by cases heq) (fun _ _ => ?_) hraised
    exact ⟨rfl, rfl, rfl, hraised, .inr ⟨hclose, rfl⟩⟩
  next =>
    refine letRunExecuting_thrives (fun _ => ?_) (fun heq => ?_) hraised
    · exact ⟨rfl, rfl, rfl, hraised, .inl ⟨rfl, hexecuting⟩⟩
    · nomatch hexecuting.symm.trans heq

/-- The server sends the response. -/
theorem Held.responding_leads (hheld : Held connection log' service)
    (hpoint : service.point = .responding context request response)
    (hbytes : (service.links connection).bytes = service.world.received)
    (htaken : service.Taken connection) (hobliges : Obliges log request response log') :
    Leads Works (Replied connection request log response log') service := by
  have hagrees := hheld.up.agrees
  rw [hpoint] at hagrees
  have hserving : ¬service.point.Ended := by
    rw [hpoint]
    exact id
  have hready : service.Ready := by
    rw [Service.Ready, hpoint]
    trivial
  have hthrives : Thrives service.current.bytes _
      (letRunStep (.responding context request response)) service.world :=
    letRunStep_responding_thrives hheld.executing hheld.up.raised
  rw [← hpoint] at hthrives
  refine leads_serving hserving hready hthrives ?_
  rintro point world ⟨hdisk, hreceived, hsent, hraised, hrests⟩
  refine ⟨hobliges, ?_, ?_⟩
  · have hpending : (service.links connection).taken = service.world.sent.length :=
      htaken.trans (congrArg List.length hheld.sent)
    rw [hheld.advance_link, Link.pending, hsent, hpending, List.drop_left]
  · have hagrees' : Agrees log' { context with error := .none } world.disk := by
      rw [hdisk]
      exact hagrees.withError .none
    rcases hrests with ⟨rfl, hexecuting⟩ | ⟨hclose, rfl⟩
    · refine .inl ⟨hheld.advance hagrees' hraised hexecuting, ⟨_, rfl⟩, ?_⟩
      rw [hheld.advance_link, service.advance_world, hreceived, List.append_nil]
      exact hbytes
    · have haccepted : 0 < service.accepted := hheld.accepted ▸ Nat.succ_pos connection
      refine .inr ⟨hclose, hheld.up.advance haccepted hagrees' hraised, ⟨_, rfl⟩, ?_, ?_⟩
      · exact hheld.accepted.trans hheld.dialed.symm
      · exact hheld.dialed ▸ Nat.lt_succ_self connection

/-! ## Whenever the server takes its steps -/

theorem Replied.not_ready (hreplied : Replied connection request log response log' service) :
    ¬service.Ready := by
  rcases hreplied.rests with hattends | ⟨_, hgone⟩
  · exact hattends.not_ready
  · exact hgone.not_ready

/-- Whatever steps the server takes, it comes to reply to the request. -/
def BoundToReply (connection : Nat) (request : NetworkRequest) (log : List StorageWalEntry)
    (service : Service) : Prop :=
  Inevitable Works (fun service' => ∃ response log',
    Replied connection request log response log' service') service

theorem Underway.boundToReply (hunderway : Underway connection request log service)
    (hroom : log.length < 2 ^ 56) : BoundToReply connection request log service := by
  have hresponding {service : Service} {context : Let} {response : NetworkResponse}
      {log' : List StorageWalEntry} (held : Held connection log' service)
      (point : service.point = .responding context request response)
      (bytes : (service.links connection).bytes = service.world.received)
      (taken : service.Taken connection) (obliges : Obliges log request response log') :
      BoundToReply connection request log service :=
    .lead ((held.responding_leads point bytes taken obliges).weaken
      fun _ hreplied => .here ⟨_, _, hreplied⟩)
  have hprocessing {service : Service} {context : Let} (held : Held connection log service)
      (point : service.point = .processing context request)
      (bytes : (service.links connection).bytes = service.world.received)
      (taken : service.Taken connection) : BoundToReply connection request log service := by
    refine .lead ((held.processing_leads point bytes taken hroom).weaken ?_)
    rintro service' ⟨context, response, log', held, point, bytes, taken, obliges⟩
    exact hresponding held point bytes taken obliges
  have hunread {service : Service}
      (attends : Attends connection (requestBytes request) log service)
      (taken : service.Taken connection) : BoundToReply connection request log service := by
    refine .lead ((attends.leads taken).weaken ?_)
    rintro service' ⟨context, held, point, bytes, taken⟩
    exact hprocessing held point bytes taken
  have haccepting {service : Service} {context : Let}
      (queued : Queued connection (requestBytes request) log service)
      (point : service.point = .accepting context) : BoundToReply connection request log service :=
    .lead ((queued.accepting_leads point).weaken fun _ hattends => hunread hattends.1 hattends.2)
  cases hunderway with
  | queued queued =>
      cases queued.free with
      | accepting up point => exact haccepting queued point
      | leaving up point =>
          refine .lead ((queued.leaving_leads point).weaken ?_)
          rintro service' ⟨queued, context, point⟩
          exact haccepting queued point
  | unread attends taken => exact hunread attends taken
  | processing held point bytes taken => exact hprocessing held point bytes taken
  | responding held point bytes taken obliges => exact hresponding held point bytes taken obliges
  | replied replied => exact .here ⟨_, _, replied⟩

theorem Queued.works (hqueued : Queued connection written log service)
    (hworks : Works service service') : Queued connection written log service' ∨
      Attends connection written log service' ∧ service'.Taken connection := by
  cases hqueued.free with
  | accepting up point => exact .inr ((hqueued.accepting_leads point).each _ hworks)
  | leaving up point => exact .inl ((hqueued.leaving_leads point).each _ hworks).1

theorem Underway.works (hunderway : Underway connection request log service)
    (hroom : log.length < 2 ^ 56) (hworks : Works service service') :
    Underway connection request log service' := by
  cases hunderway with
  | queued queued =>
      rcases queued.works hworks with hqueued | ⟨hattends, htaken⟩
      · exact .queued hqueued
      · exact .unread hattends htaken
  | unread attends taken =>
      obtain ⟨context, held, point, bytes, taken⟩ := (attends.leads taken).each _ hworks
      exact .processing held point bytes taken
  | processing held point bytes taken =>
      obtain ⟨context, response, log', held, point, bytes, taken, obliges⟩ :=
        (held.processing_leads point bytes taken hroom).each _ hworks
      exact .responding held point bytes taken obliges
  | responding held point bytes taken obliges =>
      exact .replied ((held.responding_leads point bytes taken obliges).each _ hworks)
  | replied replied => exact (not_works replied.not_ready hworks).elim

end Phases

end LetDX.Wire
