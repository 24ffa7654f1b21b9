import LetDX.Wire.Fairness
import LetDX.Wire.Ownership

/-! # Connections that were left behind

A healthy server finishes with the connections that the client has closed, and
then comes to the next one. At most the operation that it has in hand is added
to its log on the way.
-/

namespace LetDX.Wire

open Effects LetDB

/-! ## What the server has in hand -/

/-- The records that may come of the request that is unread or in processing. -/
def Service.owed (service : Service) : Nat :=
  service.live.toList.length

section Owing

variable {service service' : Service} {context : Let} {request : NetworkRequest}

theorem Service.owed_le_one (service : Service) : service.owed ≤ 1 := by
  rw [owed]
  cases service.live with
  | none => exact Nat.zero_le 1
  | some call => exact Nat.le_refl 1

theorem Service.owed_eq_zero (hlive : service.live = none) : service.owed = 0 := by
  rw [owed, hlive]
  rfl

theorem Service.owed_processing (hpoint : service.point = .processing context request)
    (hmutating : request.operation.isSome) : service.owed = 1 := by
  rw [owed, live, hpoint]
  dsimp only
  rw [if_pos hmutating]
  rfl

/-- A record comes only of the request in hand. -/
theorem Served.owed_le (hserved : Served service service') (hsound : Sound service) :
    recordCount service'.world.disk + service'.owed ≤
      recordCount service.world.disk + service.owed := by
  have hnothing {service' : Service} (hdisk : service'.world.disk = service.world.disk)
      (hlive : service'.live = none) :
      recordCount service'.world.disk + service'.owed ≤
        recordCount service.world.disk + service.owed := by
    rw [hdisk, Service.owed_eq_zero hlive]
    exact Nat.le_add_right _ _
  have hfront := hsound.front
  cases hserved.moved hsound.agrees hsound.front with
  | @accepted context error world point waiting disk received sent =>
      obtain ⟨hbytes, _⟩ := hsound.waiting service.accepted (Nat.le_refl _)
      have hunread : (service.links service.accepted).bytes =
          world.received ++ (service.links service.accepted).bytes := by
        rw [received, List.nil_append]
      refine hnothing disk (Eq.trans (Service.live_reading rfl hunread) (if_neg fun hcarries => ?_))
      nomatch (carriesOperation_of_within hbytes hcarries).2
  | stopped before ended after disk => exact hnothing disk (Service.live_of_ended ended)
  | closed serving ended after disk => exact hnothing disk (Service.live_of_ended ended)
  | decoded point unread disk received =>
      rw [Service.owed, service.live_decoded point unread received]
      exact Nat.le_of_eq (congrArg (recordCount · + service.owed) disk)
  | responded point within disk received =>
      refine hnothing disk (Service.live_eq_none rfl ?_)
      rw [service.advance_current, service.advance_world, received]
      rw [point] at hfront
      exact hfront
  | committed point mutating succeeds transactions agrees count =>
      rw [Service.owed_processing point mutating]
      exact Nat.le_of_eq count
  | answered point => exact hnothing rfl rfl
  | failed point grows count mutating =>
      rcases Nat.lt_or_eq_of_le grows with hmore | hsame
      · rw [Service.owed_processing point (mutating hmore)]
        exact count
      · rw [Service.owed_eq_zero rfl]
        exact hsame ▸ Nat.le_add_right _ _

end Owing

/-! ## A server that runs -/

/-- The server is not over and was not told to stop. -/
structure Running (service : Service) : Prop where
  unfinished : ∀ context, service.point ≠ .finished context
  raised : service.world.accepting = true

/-- The server runs, and there is room in its log. -/
structure Hale (service : Service) : Prop where
  sound : Sound service
  running : Running service
  executing : Executing service.point service.world
  room : service.log.length + service.owed < 2 ^ 56

namespace Service

/-- How far the server is from being done with the current connection. -/
def stage (service : Service) : Nat :=
  match service.point with
  | .accepting _ | .finished _ => 0
  | .reading _ =>
      if asciiNewline ∈ service.current.bytes.drop service.world.received.length then 4 else 1
  | .processing .. => 3
  | .responding .. => 2

/-- How far it is from being done with all connections. -/
def workload (service : Service) : Nat :=
  5 * (service.dialed - service.accepted) + service.stage

theorem stage_le (service : Service) : service.stage ≤ 4 := by
  unfold stage
  split
  · exact Nat.zero_le 4
  · exact Nat.zero_le 4
  · split <;> decide
  · decide
  · decide

theorem workload_advance {service : Service} {point : LetRun} {world : World}
    (hless : (service.advance point world).stage < service.stage) :
    (service.advance point world).workload < service.workload :=
  Nat.add_lt_add_left hless _

end Service

section Steps

variable {service service' : Service} {context : Let} {request : NetworkRequest}
  {response : NetworkResponse}

theorem Sound.length_log (hsound : Sound service)
    (hrunning : ∀ context, service.point ≠ .finished context) :
    recordCount service.world.disk = service.log.length :=
  recordCount_agrees (hsound.exists_agrees hrunning)

theorem Served.executing (hserved : Served service service')
    (hexecuting : Executing service.point service.world) :
    Executing service'.point service'.world := by
  cases hserved with
  | accepts _ _ stepped => exact letRunStep_executing hexecuting _ _ stepped
  | stops _ stepped => exact letRunStep_executing hexecuting _ _ stepped
  | serves _ _ stepped => exact letRunStep_executing hexecuting _ _ stepped

theorem Hale.up (hhale : Hale service) : Up service.log service where
  agrees := hhale.sound.exists_agrees hhale.running.unfinished
  raised := hhale.running.raised
  accepted_le := hhale.sound.accepted_le
  undialed := hhale.sound.undialed

theorem Hale.works (hhale : Hale service) (hworks : Works service service')
    (hrunning : Running service') : Hale service' := by
  obtain ⟨hserved, hsound⟩ := hhale.sound.works hworks
  refine ⟨hsound, hrunning, hserved.executing hhale.executing, ?_⟩
  rw [← hsound.length_log hrunning.unfinished]
  refine (hserved.owed_le hhale.sound).trans_lt ?_
  rw [hhale.sound.length_log hhale.running.unfinished]
  exact hhale.room

/-- Where a step of the server leads. -/
abbrev Proceeds (service : Service) : Prop :=
  Leads Works (fun service' => Running service' ∧ service'.workload < service.workload) service

theorem Hale.accepting_leads (hhale : Hale service) (hpoint : service.point = .accepting context)
    (hready : service.Ready) : Proceeds service := by
  have hthrives : Thrives [] _ (letRunStep (.accepting context)) service.world :=
    letRunStep_accepting_thrives hhale.running.raised
  rw [← hpoint] at hthrives
  refine leads_accepting hpoint hready hthrives ?_
  rintro _ _ ⟨rfl, rfl⟩
  refine ⟨⟨(fun _ heq => by cases heq), hhale.running.raised⟩, ?_⟩
  rw [Service.Ready, hpoint] at hready
  refine (Nat.add_le_add_left (Service.stage_le _) _).trans_lt ?_
  change service.accepted < service.dialed at hready
  change 5 * (service.dialed - (service.accepted + 1)) + 4 <
    5 * (service.dialed - service.accepted) + service.stage
  omega

/-- A line at the front of a part of a request ends that request. -/
theorem whole_of_newline {unread : List U8} (hwithin : unread <+: requestBytes request)
    (hnewline : asciiNewline ∈ unread) : unread = requestBytes request := by
  obtain ⟨line, rest, rfl, hline⟩ := List.eq_append_cons_of_mem hnewline
  have hfront : line ++ [asciiNewline] <+: line ++ asciiNewline :: rest :=
    ⟨rest, List.append_assoc ..⟩
  exact (line_eq_of_within hfront hwithin).2

theorem length_within {unread : List U8} (hwithin : unread <+: requestBytes request) :
    unread.length < networkBufferLength := by
  refine hwithin.length_le.trans_lt ?_
  have hline := request.length_line_le
  rw [requestBytes, List.length_append, List.length_singleton, networkBufferLength]
  omega

/-- The server reads the rest of a request, or finds that the connection is closed. -/
theorem Hale.reading_leads (hhale : Hale service) (hpoint : service.point = .reading context)
    (hready : service.Ready) : Proceeds service := by
  have hserving : ¬service.point.Ended := hpoint ▸ id
  have hfront := hhale.sound.front
  rw [hpoint] at hfront
  obtain ⟨request, unread, hwithin, hbytes⟩ := hfront
  have hstage : service.stage = if asciiNewline ∈ unread then 4 else 1 := by
    rw [Service.stage, hpoint]
    dsimp only
    rw [hbytes, List.drop_left]
  by_cases hnewline : asciiNewline ∈ unread
  · rw [whole_of_newline hwithin hnewline] at hbytes
    have hthrives : Thrives service.current.bytes _ (letRunStep (.reading context)) service.world :=
      letRunStep_reading_thrives hbytes.symm
    rw [← hpoint] at hthrives
    refine leads_serving hserving hready hthrives ?_
    rintro _ _ ⟨rfl, rfl⟩
    refine ⟨⟨(fun _ heq => by cases heq), hhale.running.raised⟩, Service.workload_advance ?_⟩
    rw [hstage, if_pos hnewline]
    exact Nat.lt_succ_self 3
  · have hthrives : Thrives service.current.bytes _ (letRunStep (.reading context)) service.world :=
      letRunStep_leaving_thrives hbytes.symm hnewline (length_within hwithin)
        hhale.running.raised
    rw [← hpoint] at hthrives
    refine leads_serving hserving hready hthrives ?_
    rintro _ world ⟨rfl, _, hraised⟩
    refine ⟨⟨(fun _ heq => by cases heq), hraised⟩, Service.workload_advance ?_⟩
    rw [hstage, if_neg hnewline]
    exact Nat.zero_lt_one

theorem Hale.processing_leads (hhale : Hale service)
    (hpoint : service.point = .processing context request) : Proceeds service := by
  have hserving : ¬service.point.Ended := hpoint ▸ id
  have hready : service.Ready := by
    rw [Service.Ready, hpoint]
    trivial
  have hagrees := hhale.up.agrees
  rw [hpoint] at hagrees
  have hroom : service.log.length < 2 ^ 56 := (Nat.le_add_right _ _).trans_lt hhale.room
  have hthrives : Thrives service.current.bytes _ (letRunStep (.processing context request))
      service.world := letRunStep_processing_thrives hagrees hroom
  rw [← hpoint] at hthrives
  refine leads_serving hserving hready hthrives ?_
  intro point world hhandled
  obtain ⟨context', response, log', rfl, _, _, hworld⟩ := obliges_handled hagrees hhandled
  have hraised : world.accepting = true := by
    rw [hworld]
    exact hhale.running.raised
  refine ⟨⟨(fun _ heq => by cases heq), hraised⟩, Service.workload_advance ?_⟩
  have hstage : service.stage = 3 := by rw [Service.stage, hpoint]
  rw [hstage]
  exact Nat.lt_succ_self 2

theorem Hale.responding_leads (hhale : Hale service)
    (hpoint : service.point = .responding context request response) : Proceeds service := by
  have hserving : ¬service.point.Ended := hpoint ▸ id
  have hready : service.Ready := by
    rw [Service.Ready, hpoint]
    trivial
  have hfront := hhale.sound.front
  rw [hpoint] at hfront
  have hthrives : Thrives service.current.bytes _
      (letRunStep (.responding context request response)) service.world :=
    letRunStep_responding_thrives (hhale.executing hserving) hhale.running.raised
  rw [← hpoint] at hthrives
  have hstage : service.stage = 2 := by rw [Service.stage, hpoint]
  refine leads_serving hserving hready hthrives ?_
  rintro point world ⟨_, hreceived, _, hraised, ⟨rfl, _⟩ | ⟨_, rfl⟩⟩
  · refine ⟨⟨(fun _ heq => by cases heq), hraised⟩, Service.workload_advance ?_⟩
    have hnothing : service.current.bytes.drop world.received.length = [] := by
      rw [hreceived, ← hfront, List.drop_length]
    rw [hstage, Service.stage, service.advance_point, service.advance_current]
    change (if asciiNewline ∈ service.current.bytes.drop world.received.length then 4 else 1) < 2
    rw [hnothing, if_neg List.not_mem_nil]
    exact Nat.lt_succ_self 1
  · refine ⟨⟨(fun _ heq => by cases heq), hraised⟩, Service.workload_advance ?_⟩
    rw [hstage]
    exact Nat.zero_lt_two

/-- The step lemma. -/
theorem Hale.leads (hhale : Hale service) (hready : service.Ready) :
    Leads Works (fun service' => Hale service' ∧ service'.workload < service.workload) service := by
  have hproceeds : Proceeds service := by
    cases hpoint : service.point with
    | finished context => exact (hhale.running.unfinished context hpoint).elim
    | accepting context => exact hhale.accepting_leads hpoint hready
    | reading context => exact hhale.reading_leads hpoint hready
    | processing context request => exact hhale.processing_leads hpoint
    | responding context request response => exact hhale.responding_leads hpoint
  refine ⟨hproceeds.moves, fun service' hworks => ?_⟩
  obtain ⟨hrunning, hless⟩ := hproceeds.each _ hworks
  exact ⟨hhale.works hworks hrunning, hless⟩

theorem Hale.step (hhale : Hale service) (hworks : Works service service') : Hale service' := by
  by_cases hready : service.Ready
  · exact ((hhale.leads hready).each _ hworks).1
  · exact (not_works hready hworks).elim

end Steps

/-! ## Behind the connections that were left -/

/-- The server is about to accept the connection. -/
def Service.Awaits (service : Service) (connection : Nat) : Prop :=
  (∃ context, service.point = .accepting context) ∧ service.accepted = connection

/-- The client has closed all its connections. -/
structure Abandoned (service : Service) : Prop where
  hale : Hale service
  left : ∀ other < service.dialed, (service.links other).closed = true

/-- The connection is the only one that the client has not closed, and the server
has not come to it yet. -/
structure Pending (connection : Nat) (written : List U8) (service : Service) : Prop where
  hale : Hale service
  dialed : service.dialed = connection + 1
  accepted : service.accepted ≤ connection
  bytes : (service.links connection).bytes = written
  opened : (service.links connection).closed = false
  left : ∀ other < connection, (service.links other).closed = true

/-- The log was this at first, and no more than so many records have come and are
still to come. -/
def Grown (first : List StorageWalEntry) (count : Nat) (service : Service) : Prop :=
  ∃ late, service.log = first ++ late ∧ late.length + service.owed ≤ count

/-- So many records at most have come to the log. -/
def Extended (first : List StorageWalEntry) (count : Nat) (log : List StorageWalEntry) : Prop :=
  ∃ late, log = first ++ late ∧ late.length ≤ count

section Queue

variable {service service' : Service} {around : Surroundings} {connection count : Nat}
  {written : List U8} {first log : List StorageWalEntry}

theorem Grown.extended (hgrown : Grown first count service) : Extended first count service.log := by
  obtain ⟨late, hlog, hcount⟩ := hgrown
  exact ⟨late, hlog, (Nat.le_add_right _ _).trans hcount⟩

theorem Extended.length_le (hextended : Extended first count log) :
    log.length ≤ first.length + count := by
  obtain ⟨late, rfl, hcount⟩ := hextended
  rw [List.length_append]
  exact Nat.add_le_add_left hcount _

theorem Hale.grown (hhale : Hale service) (hworks : Works service service')
    (hgrown : Grown first count service) : Grown first count service' := by
  obtain ⟨late, hlog, hcount⟩ := hgrown
  obtain ⟨hserved, hsound⟩ := hhale.sound.works hworks
  obtain ⟨more, hmore⟩ := hserved.log_prefix hhale.sound
  have hrunning := (hhale.step hworks).running.unfinished
  have howed := hserved.owed_le hhale.sound
  rw [hsound.length_log hrunning, hhale.sound.length_log hhale.running.unfinished, ← hmore,
    List.length_append] at howed
  refine ⟨late ++ more, ?_, ?_⟩
  · rw [← hmore, hlog, List.append_assoc]
  · rw [List.length_append]
    omega

theorem Grown.congr (hgrown : Grown first count service) (hworld : service'.world = service.world)
    (howed : service'.owed = service.owed) : Grown first count service' := by
  rwa [Grown, Service.log_congr (congrArg World.disk hworld), howed]

theorem Hale.congr (hhale : Hale service) (hsound : Sound service')
    (hpoint : service'.point = service.point) (hworld : service'.world = service.world)
    (howed : service'.owed = service.owed) : Hale service' := by
  refine ⟨hsound, ⟨?_, ?_⟩, ?_, ?_⟩
  · rw [hpoint]
    exact hhale.running.unfinished
  · rw [hworld]
    exact hhale.running.raised
  · rw [hpoint, hworld]
    exact hhale.executing
  · rw [Service.log_congr (congrArg World.disk hworld), howed]
    exact hhale.room

/-! ### What a step of the server leaves as it is -/

theorem Works.links_eq (hworks : Works service service') (hsound : Sound service)
    (hconnection : service.accepted ≤ connection) :
    service'.links connection = service.links connection := by
  cases hworks with
  | accepts => rfl
  | serves serving =>
      have hpositive := hsound.accepted_pos serving
      exact service.advance_links _ _ (by omega)

theorem Abandoned.works (habandoned : Abandoned service) (hworks : Works service service') :
    Abandoned service' := by
  obtain ⟨hserved, _⟩ := habandoned.hale.sound.works hworks
  refine ⟨habandoned.hale.step hworks, fun other hother => ?_⟩
  rw [hserved.closed_eq]
  exact habandoned.left other (hserved.dialed_eq ▸ hother)

theorem Pending.works (hpending : Pending connection written service)
    (hbehind : ¬service.Awaits connection) (hworks : Works service service') :
    Pending connection written service' := by
  obtain ⟨hserved, _⟩ := hpending.hale.sound.works hworks
  have hlink := hworks.links_eq hpending.hale.sound hpending.accepted
  refine ⟨hpending.hale.step hworks, hserved.dialed_eq.trans hpending.dialed, ?_, ?_, ?_, ?_⟩
  · cases hworks with
    | accepts accepting =>
        exact Nat.lt_of_le_of_ne hpending.accepted fun heq => hbehind ⟨⟨_, accepting⟩, heq⟩
    | serves => exact hpending.accepted
  · rw [hlink]
    exact hpending.bytes
  · rw [hlink]
    exact hpending.opened
  · intro other hother
    rw [hserved.closed_eq]
    exact hpending.left other hother

/-! ### The way to the connection -/

/-- There is always something to do before the connection. -/
theorem Pending.ready (hpending : Pending connection written service) : service.Ready := by
  have haccepted := hpending.accepted
  cases hpoint : service.point with
  | finished context => exact (hpending.hale.running.unfinished context hpoint).elim
  | accepting context =>
      rw [Service.Ready, hpoint]
      exact hpending.dialed ▸ Nat.lt_succ_of_le haccepted
  | reading context =>
      have hpositive : 0 < service.accepted := hpending.hale.sound.accepted_pos (hpoint ▸ id)
      rw [Service.Ready, hpoint]
      exact .inr (hpending.left (service.accepted - 1) (by omega))
  | processing | responding =>
      rw [Service.Ready, hpoint]
      trivial

/-- Whatever steps the server takes, it comes to the connection. -/
theorem Pending.boundToCome (hpending : Pending connection written service) :
    Inevitable Works (fun service' => Pending connection written service' ∧
      service'.Awaits connection) service := by
  refine .of_rank Service.workload ?_ hpending
  intro service hpending hgoal
  have hbehind : ¬service.Awaits connection := fun hawaits => hgoal ⟨hpending, hawaits⟩
  have hleads := hpending.hale.leads hpending.ready
  refine ⟨hleads.moves, fun service' hworks => ?_⟩
  exact ⟨hpending.works hbehind hworks, (hleads.each _ hworks).2⟩

theorem Pending.queued (hpending : Pending connection written service)
    (hawaits : service.Awaits connection) : Queued connection written service.log service := by
  obtain ⟨⟨context, hpoint⟩, haccepted⟩ := hawaits
  obtain ⟨_, hsent, htaken⟩ := hpending.hale.sound.waiting connection (Nat.le_of_eq haccepted)
  exact ⟨.accepting hpending.hale.up hpoint, hpending.dialed, haccepted, hpending.bytes, hsent,
    htaken, hpending.opened⟩

/-! ### What the client does -/

theorem Abandoned.dial (habandoned : Abandoned service) :
    Pending service.dialed [] { service with dialed := service.dialed + 1 } := by
  have hnew := habandoned.hale.sound.undialed service.dialed (Nat.le_refl _)
  refine ⟨habandoned.hale.congr habandoned.hale.sound.dial.1 rfl rfl rfl, rfl,
    habandoned.hale.sound.accepted_le, ?_, ?_, habandoned.left⟩
  · exact congrArg Link.bytes hnew
  · exact congrArg Link.closed hnew

theorem Pending.owed_write (hpending : Pending connection written around.service)
    (bytes : List U8) :
    (around.write connection bytes).service.owed = around.service.owed := by
  by_cases hended : around.service.point.Ended
  · rw [Service.owed_eq_zero (Service.live_of_ended hended)]
    exact Service.owed_eq_zero (Service.live_of_ended hended)
  · have hpositive := hpending.hale.sound.accepted_pos hended
    have haccepted := hpending.accepted
    have hcurrent : (around.write connection bytes).service.current = around.service.current :=
      (around.service.setLink_current connection _).trans (if_neg (by omega))
    have hlive : (around.write connection bytes).service.live = around.service.live :=
      Service.live_congr rfl rfl (congrArg Link.written hcurrent)
    rw [Service.owed, hlive, Service.owed]

theorem Pending.write {bytes : List U8} (hpending : Pending connection [] around.service)
    (hwithin : bytes <+: requestBytes .countDatabase) :
    Pending connection bytes (around.write connection bytes).service := by
  have hwaiting : Waiting connection [] around.service :=
    ⟨hpending.dialed, hpending.accepted, hpending.bytes⟩
  obtain ⟨hsound, hwaiting'⟩ := hwaiting.write hpending.hale.sound hwithin
  refine ⟨hpending.hale.congr hsound rfl rfl (hpending.owed_write bytes), hpending.dialed,
    hpending.accepted, hwaiting'.bytes, ?_, ?_⟩
  · rw [write_link]
    exact hpending.opened
  · intro other hother
    have hlink : (around.write connection bytes).service.links other = around.service.links other :=
      Function.update_of_ne (Nat.ne_of_lt hother) ..
    rw [hlink]
    exact hpending.left other hother

end Queue

end LetDX.Wire
