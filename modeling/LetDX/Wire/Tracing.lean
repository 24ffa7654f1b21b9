import LetDX.Wire.Logs
import LetDX.Wire.Operations

/-! # Where the entries of the log come from

Each entry that the log has gained is the operation that some call asked for,
and the call is the one that wrote the last byte of the request. What is under
way in the server can be traced back to its call just so.
-/

namespace LetDX.Wire

open Durable Effects LetDB

/-- The operation that these bytes carry, if they are the whole line of a
mutating request. -/
def operationIn (bytes : List U8) : Option StorageWalEntryData :=
  if bytes.getLast? = some asciiNewline then
    (networkRequestDecode (bytes.dropLast ++ [asciiSpace]) networkRequestEmpty).2.data
  else none

theorem operationIn_requestBytes (request : NetworkRequest) :
    operationIn (requestBytes request) = request.data := by
  rw [operationIn, requestBytes, List.getLast?_concat, List.dropLast_concat,
    networkRequestDecode_line, if_pos rfl]

/-- A part of a request carries an operation only if it is all of the request. -/
theorem eq_of_operationIn {bytes : List U8} {request : NetworkRequest}
    {data : StorageWalEntryData} (hwithin : bytes <+: requestBytes request)
    (hcarries : operationIn bytes = some data) :
    bytes = requestBytes request ∧ request.data = some data := by
  have hlast : bytes.getLast? = some asciiNewline := by
    rw [operationIn] at hcarries
    split at hcarries
    next hlast => exact hlast
    next => nomatch hcarries
  obtain ⟨line, rfl⟩ := List.getLast?_eq_some_iff.mp hlast
  obtain ⟨_, hwhole⟩ := line_eq_of_within (List.prefix_refl _) hwithin
  refine ⟨hwhole, ?_⟩
  rwa [hwhole, operationIn_requestBytes] at hcarries

namespace Service

/-- The operation that may still come to the log, with the call that asked for it. -/
def undertaken (service : Service) : Option (Nat × StorageWalEntryData) :=
  match service.point with
  | .reading _ =>
      (operationIn (service.unread.map Prod.fst)).bind fun data =>
        service.unread.getLast?.map fun byte => (byte.2, data)
  | .processing _ request => request.data.map fun data => (service.author, data)
  | .responding .. | .accepting _ | .finished _ => none

theorem undertaken_congr {service service' : Service} (hpoint : service'.point = service.point)
    (hworld : service'.world = service.world)
    (hwritten : service'.current.written = service.current.written) :
    service'.undertaken = service.undertaken := by
  unfold undertaken unread author
  rw [hpoint, hworld, hwritten]

theorem undertaken_of_ended {service : Service} (hended : service.point.Ended) :
    service.undertaken = none := by
  unfold undertaken
  cases hpoint : service.point with
  | accepting | responding | finished => rfl
  | reading | processing =>
      rw [hpoint] at hended
      exact hended.elim

/-- With these bytes unread, their operation is undertaken for whoever wrote last. -/
theorem undertaken_reading {service : Service} {context : Let} {bytes : List U8}
    (hpoint : service.point = .reading context)
    (hbytes : service.current.bytes = service.world.received ++ bytes) :
    service.undertaken = (operationIn bytes).bind fun data =>
      service.current.written.getLast?.map fun byte => (byte.2, data) := by
  have hunread : service.unread.map Prod.fst = bytes := by
    rw [unread, List.map_drop]
    change service.current.bytes.drop _ = _
    rw [hbytes, List.drop_left]
  rw [undertaken, hpoint]
  dsimp only
  rw [hunread]
  cases hcarries : operationIn bytes with
  | none => rfl
  | some data =>
      have hnonempty : bytes ≠ [] := by
        rintro rfl
        cases hcarries
      have hlength : ¬service.current.written.length ≤ service.world.received.length := by
        have hwritten := congrArg List.length hbytes
        rw [Link.bytes, List.length_map, List.length_append] at hwritten
        have hpositive := List.length_pos_of_ne_nil hnonempty
        omega
      rw [unread, List.getLast?_drop, if_neg hlength]

theorem undertaken_eq_none {service : Service} {context : Let}
    (hpoint : service.point = .reading context)
    (hbytes : service.current.bytes = service.world.received) : service.undertaken = none := by
  rw [undertaken_reading hpoint (hbytes.trans (List.append_nil _).symm)]
  rfl

/-- An operation stays undertaken when its request has been read. -/
theorem undertaken_decoded (service : Service) {context : Let} {request : NetworkRequest}
    {world : World} (hpoint : service.point = .reading context)
    (hunread : service.current.bytes = service.world.received ++ requestBytes request)
    (hreceived : world.received = service.current.bytes) :
    (service.advance (.processing { context with error := .none } request) world).undertaken =
      service.undertaken := by
  rw [undertaken_reading hpoint hunread, operationIn_requestBytes]
  cases hlast : service.current.written.getLast? with
  | none =>
      rw [Link.bytes, List.getLast?_eq_none_iff.mp hlast] at hunread
      exact (requestBytes_ne_nil request (List.append_eq_nil_iff.mp hunread.symm).2).elim
  | some tagged =>
      have hauthor : (service.advance (.processing { context with error := .none } request)
          world).author = tagged.2 := by
        apply author_eq
        · rw [service.advance_current, hlast]
          rfl
        · rw [service.advance_current]
          exact hreceived
      rw [undertaken, service.advance_point]
      dsimp only
      rw [hauthor]
      cases request.data <;> rfl

/-- Nothing is lost of the log, the list of records and what has been synced. -/
structure Later (service service' : Service) : Prop where
  initial : service'.initial = service.initial
  log : service.log <+: service'.log
  records : service.records <+: service'.records
  synced : service.world.disk.synced ≤ service'.world.disk.synced

theorem Later.refl (service : Service) : Later service service :=
  ⟨rfl, List.prefix_rfl, List.prefix_rfl, Nat.le_refl _⟩

theorem Later.trans {service service' service'' : Service} (hfirst : Later service service')
    (hsecond : Later service' service'') : Later service service'' :=
  ⟨hsecond.initial.trans hfirst.initial, hfirst.log.trans hsecond.log,
    hfirst.records.trans hsecond.records, hfirst.synced.trans hsecond.synced⟩

theorem Later.record {service service' : Service} (hlater : Later service service')
    {position call : Nat} (hcall : service.records[position]? = some call) :
    service'.records[position]? = some call := by
  obtain ⟨hlt, rfl⟩ := List.getElem?_eq_some_iff.mp hcall
  exact List.prefix_iff_getElem?.mp hlater.records position hlt

end Service

theorem Served.later {service service' : Service} (hserved : Served service service')
    (hsound : Sound service) : service.Later service' := by
  refine ⟨?_, hserved.log_prefix hsound, ?_, hserved.synced_le hsound⟩
  · cases hserved with
    | accepts | stops | serves => rfl
  · cases hserved with
    | accepts | stops => exact List.prefix_rfl
    | serves => exact List.prefix_append _ _

/-- The log has begun with these entries, and the calls have asked for the
others, as they have for what is under way. -/
structure Traced (first : List StorageWalEntry) (asked : Nat → Option StorageWalEntryData)
    (service : Service) : Prop where
  log : ∃ more, service.log = first ++ more ∧
    more.map (fun entry => some entry.data) = service.records.map asked
  file : ∃ tail, service.world.disk.file = some (storageWalImage service.log ++ tail) ∧
    tail.length < storageWalEntrySafeSize ∧
    (tail ≠ [] → ∃ (call : Nat) (entry : StorageWalEntry),
      asked call = some entry.data ∧ tail <+: entry.safe)
  storable : Storable service.world.disk
  undertaken : ∀ call data, service.undertaken = some (call, data) → asked call = some data

namespace Traced

variable {first : List StorageWalEntry} {asked asked' : Nat → Option StorageWalEntryData}
  {service service' : Service}

theorem mono (htraced : Traced first asked service)
    (hasked : ∀ call data, asked call = some data → asked' call = some data) :
    Traced first asked' service := by
  obtain ⟨more, hlog, hrecords⟩ := htraced.log
  obtain ⟨tail, hfile, htail, hwhose⟩ := htraced.file
  refine ⟨⟨more, hlog, ?_⟩, ⟨tail, hfile, htail, fun hne => ?_⟩, htraced.storable, ?_⟩
  · rw [hrecords]
    apply List.map_congr_left
    intro call hcall
    have hmem : asked call ∈ more.map fun entry => some entry.data :=
      hrecords ▸ List.mem_map_of_mem hcall
    obtain ⟨entry, _, hentry⟩ := List.mem_map.mp hmem
    rw [← hentry, hasked call entry.data hentry.symm]
  · obtain ⟨call, entry, hcall, hwithin⟩ := hwhose hne
    exact ⟨call, entry, hasked call entry.data hcall, hwithin⟩
  · exact fun call data hundertaken => hasked call data (htraced.undertaken call data hundertaken)

/-- The records have begun behind the first entries. -/
theorem initial_eq (htraced : Traced first asked service) (hsound : Sound service) :
    service.initial = first.length := by
  obtain ⟨more, hlog, hrecords⟩ := htraced.log
  obtain ⟨tail, hfile, htail, _⟩ := htraced.file
  have hmore : more.length = service.records.length := by
    simpa using congrArg List.length hrecords
  have hlength : service.world.disk.bytes.length = storageWalHeaderLength +
      service.log.length * storageWalEntrySafeSize + tail.length := by
    rw [Disk.bytes, hfile, Option.getD_some, List.length_append, length_storageWalImage]
  have hcount := recordCount_of_length hlength
  rw [hsound.complete, Nat.div_eq_of_lt htail, hlog, List.length_append, hmore] at hcount
  omega

/-- The file and the records apart, only what is undertaken matters. -/
theorem kept (htraced : Traced first asked service)
    (hdisk : service'.world.disk = service.world.disk)
    (hrecords : service'.records = service.records)
    (hundertaken : service'.undertaken = service.undertaken ∨ service'.undertaken = none) :
    Traced first asked service' := by
  refine ⟨?_, ?_, ?_, ?_⟩
  · rw [Service.log_congr hdisk, hrecords]
    exact htraced.log
  · rw [Service.log_congr hdisk, hdisk]
    exact htraced.file
  · rw [hdisk]
    exact htraced.storable
  · intro call data hcall
    rcases hundertaken with hsame | hnone
    · exact htraced.undertaken call data (hsame ▸ hcall)
    · nomatch hnone.symm.trans hcall

/-- A server that does not process a request leaves the log, and what it has
undertaken. -/
theorem step_passing (htraced : Traced first asked service) (hsound : Sound service)
    (hserved : Served service service')
    (hpassing : ∀ context request, service.point ≠ .processing context request) :
    Traced first asked service' := by
  have hdisk := hserved.disk_eq hsound hpassing
  have hrecords : service'.records = service.records := by
    cases hserved with
    | accepts | stops => rfl
    | @serves point world => exact service.advance_records point world hdisk
  refine htraced.kept hdisk hrecords ?_
  have hfront := hsound.front
  cases hserved.moved hsound.agrees hsound.front with
  | @accepted context error world point waiting disk received sent =>
      -- The new connection carries a part of a handshake.
      obtain ⟨hbytes, _⟩ := hsound.waiting service.accepted (Nat.le_refl _)
      have hcarries : operationIn (service.links service.accepted).bytes = none := by
        cases hcarries : operationIn (service.links service.accepted).bytes with
        | none => rfl
        | some data => nomatch (eq_of_operationIn hbytes hcarries).2
      right
      refine Eq.trans
        (@Service.undertaken_reading _ _ (service.links service.accepted).bytes rfl ?_) ?_
      · rw [received]
        rfl
      · rw [hcarries]
        rfl
  | stopped before ended => exact .inr (Service.undertaken_of_ended ended)
  | closed serving ended => exact .inr (Service.undertaken_of_ended ended)
  | decoded point unread disk received =>
      exact .inl (service.undertaken_decoded point unread received)
  | @responded context request response chunk error world point within disk received =>
      rw [point] at hfront
      refine .inr (Service.undertaken_eq_none rfl ?_)
      rw [service.advance_current, service.advance_world, received]
      exact hfront
  | committed point => exact (hpassing _ _ point).elim
  | answered point => exact (hpassing _ _ point).elim
  | failed point => exact (hpassing _ _ point).elim

/-- What a request adds to the log was asked for by its call. -/
theorem advance (htraced : Traced first asked service) {context : Let} {request : NetworkRequest}
    {entry : StorageWalEntry} {point : LetRun} {world : World}
    (hpoint : service.point = .processing context request)
    (hrequested : Requested service.log request entry)
    (hcount : recordCount service.world.disk = service.log.length)
    (hbytes : world.disk.file = some (storageWalImage (service.log ++ [entry])))
    (hstorable : Storable world.disk)
    (hundertaken : (service.advance point world).undertaken = none) :
    Traced first asked (service.advance point world) := by
  obtain ⟨more, hlog, hrecords⟩ := htraced.log
  have hauthor : asked service.author = some entry.data := by
    apply htraced.undertaken
    rw [Service.undertaken, hpoint]
    dsimp only
    rw [hrequested.data]
    rfl
  have hfile : world.disk.bytes = storageWalImage (service.log ++ [entry]) ++ [] := by
    rw [Disk.bytes, hbytes, List.append_nil]
    rfl
  have hgrown : (service.advance point world).log = service.log ++ [entry] :=
    logOf_eq hfile (by decide)
  have hmore : recordCount world.disk - recordCount service.world.disk = 1 := by
    have hlength : world.disk.bytes.length = storageWalHeaderLength +
        (service.log ++ [entry]).length * storageWalEntrySafeSize + 0 := by
      rw [hfile, List.append_nil, length_storageWalImage, Nat.add_zero]
    rw [recordCount_of_length hlength, hcount, List.length_append, List.length_singleton,
      Nat.zero_div]
    omega
  refine ⟨⟨more ++ [entry], ?_, ?_⟩, ⟨[], ?_, by decide, fun hne => (hne rfl).elim⟩, hstorable, ?_⟩
  · rw [hgrown, hlog, List.append_assoc]
  · rw [Service.advance]
    dsimp only
    rw [hmore, List.map_append, List.map_append, hrecords, List.map_singleton]
    simp [hauthor]
  · rw [hgrown, List.append_nil]
    exact hbytes
  · intro call data hcall
    rw [hundertaken] at hcall
    cases hcall

/-- A request that is processed adds its operation to the log, a part of it to
the file, or nothing. -/
theorem step_processing (htraced : Traced first asked service) (hsound : Sound service)
    (hserved : Served service service') {context : Let} {request : NetworkRequest}
    (hpoint : service.point = .processing context request) : Traced first asked service' := by
  have hstorable := hserved.storable hsound htraced.storable
  obtain ⟨point, world, rfl, hagrees, hprocessed⟩ := hserved.processed hsound hpoint
  have hcount := recordCount_agrees hagrees
  have hsame {point : LetRun} {world : World} (hdisk : world.disk = service.world.disk)
      (hundertaken : (service.advance point world).undertaken = none) :
      Traced first asked (service.advance point world) :=
    htraced.kept hdisk (service.advance_records point world hdisk) (.inr hundertaken)
  cases hprocessed with
  | committed requested => exact htraced.advance hpoint requested hcount rfl hstorable rfl
  | answered | refused => exact hsame rfl rfl
  | @fatal context' world action accounts appending =>
      rcases appending with hdisk | happending
      · exact hsame hdisk rfl
      · have hfile : world.disk.file = some world.disk.bytes := by
          generalize world.disk = disk at happending
          cases happending <;> rfl
        obtain ⟨entry, tail, hrequested, ⟨hlog, hbytes, hwithin, htail⟩ | ⟨hlog, hbytes⟩⟩ :=
          logOf_appending happending
        · obtain ⟨more, hmore, hrecords⟩ := htraced.log
          have hnone : recordCount world.disk - recordCount service.world.disk = 0 := by
            have hlength : world.disk.bytes.length = storageWalHeaderLength +
                service.log.length * storageWalEntrySafeSize + tail.length := by
              rw [hbytes, List.length_append, length_storageWalImage]
            rw [recordCount_of_length hlength, Nat.div_eq_of_lt htail, hcount]
            omega
          have hauthor : asked service.author = some entry.data := by
            apply htraced.undertaken
            rw [Service.undertaken, hpoint]
            dsimp only
            rw [hrequested.data]
            rfl
          have hkept : (service.advance (.finished context') world).log = service.log := hlog
          refine ⟨⟨more, hkept.trans hmore, ?_⟩, ⟨tail, ?_, htail, fun _ => ?_⟩, hstorable, ?_⟩
          · rw [hrecords, Service.advance]
            dsimp only
            rw [hnone, List.replicate_zero, List.append_nil]
          · rw [hkept, ← hbytes]
            exact hfile
          · exact ⟨_, entry, hauthor, hwithin⟩
          · intro call data hcall
            cases hcall
        · exact htraced.advance hpoint hrequested hcount (hfile.trans (congrArg some hbytes))
            hstorable rfl

theorem step (htraced : Traced first asked service) (hsound : Sound service)
    (hserved : Served service service') : Traced first asked service' := by
  rcases service.point.passing_or_processing with hpassing | ⟨context, request, hpoint⟩
  · exact htraced.step_passing hsound hserved hpassing
  · exact htraced.step_processing hsound hserved hpoint

/-! ## Operations of the client -/

variable {connection : Nat} {link : Link}

theorem dial (htraced : Traced first asked service) :
    Traced first asked { service with dialed := service.dialed + 1 } :=
  ⟨htraced.log, htraced.file, htraced.storable, htraced.undertaken⟩

theorem setLink (htraced : Traced first asked service)
    (hwritten : link.written = (service.links connection).written) :
    Traced first asked (service.setLink connection link) := by
  have hcurrent : (service.setLink connection link).current.written = service.current.written := by
    rw [service.setLink_current]
    split
    next heq =>
      subst heq
      exact hwritten
    · rfl
  exact htraced.kept rfl rfl (.inl (Service.undertaken_congr rfl rfl hcurrent))

variable {around : Surroundings} {bytes : List U8}

/-- What is written to a connection that waits is not undertaken yet. -/
theorem write_waiting (htraced : Traced first asked around.service)
    (hwaiting : Waiting connection [] around.service) (hsound : Sound around.service) :
    Traced first asked (around.write connection bytes).service := by
  by_cases hended : around.service.point.Ended
  · exact htraced.kept rfl rfl (.inr (Service.undertaken_of_ended hended))
  · have hpositive := hsound.accepted_pos hended
    have haccepted := hwaiting.accepted
    have hcurrent : (around.write connection bytes).service.current = around.service.current := by
      refine (around.service.setLink_current connection _).trans (if_neg ?_)
      omega
    exact htraced.kept rfl rfl
      (.inl (Service.undertaken_congr rfl rfl (congrArg Link.written hcurrent)))

/-- A request that is written whole may be undertaken for the call at work. -/
theorem write_quiet (htraced : Traced first asked around.service) {before : U64}
    {request : NetworkRequest} (hquiet : Quiet connection before around.service)
    (hwithin : bytes <+: requestBytes request)
    (hasked : ∀ data, request.data = some data → asked around.call = some data) :
    Traced first asked (around.write connection bytes).service := by
  rcases hquiet.idle with hended | ⟨context, hpoint, hreceived⟩
  · exact htraced.kept rfl rfl (.inr (Service.undertaken_of_ended hended))
  · refine ⟨htraced.log, htraced.file, htraced.storable, ?_⟩
    intro call data hcall
    have hbytes : (around.write connection bytes).service.current.bytes =
        (around.write connection bytes).service.world.received ++ bytes := by
      rw [hquiet.write_current, Service.bytes_written, ← hquiet.current_eq, hreceived]
      rfl
    have hundertaken : (around.write connection bytes).service.undertaken =
        (operationIn bytes).bind fun data =>
          (around.write connection bytes).service.current.written.getLast?.map fun byte =>
            (byte.2, data) := Service.undertaken_reading hpoint hbytes
    rw [hundertaken] at hcall
    obtain ⟨data', hcarries, hlast⟩ := Option.bind_eq_some_iff.mp hcall
    obtain ⟨byte, hbyte, hpair⟩ := Option.map_eq_some_iff.mp hlast
    obtain ⟨rfl, rfl⟩ := Prod.mk.inj hpair
    obtain ⟨hwhole, hdata⟩ := eq_of_operationIn hwithin hcarries
    have hcallEq : byte.2 = around.call := by
      rw [hquiet.write_current, Service.written, List.getLast?_append, List.getLast?_map] at hbyte
      cases hend : bytes.getLast? with
      | none =>
          rw [List.getLast?_eq_none_iff] at hend
          exact (requestBytes_ne_nil request (hwhole ▸ hend)).elim
      | some final =>
          rw [hend] at hbyte
          rw [← Option.some.inj hbyte]
    rw [hcallEq]
    exact hasked _ hdata

end Traced

end LetDX.Wire
