import LetDX.Wire.Availability
import LetDX.Wire.Backlog

/-! # The system heals

Whatever has failed while calls were made, the next call is answered once nothing
fails any more, if the server runs or was started again. A call that is late, or
that leaves a connection open behind it, is all that the system does not recover
from by itself.
-/

namespace LetDX.Wire

open Effects LetDB

/-! ## A client without a connection -/

/-- The client has no open connection, and the server is to finish with the old ones. -/
def Deserted (first : List StorageWalEntry) (count : Nat) (service : Service) : Prop :=
  Abandoned service ∧ Grown first count service

/-- Nothing was written to the connection, which the server serves or will come to. -/
def Opening (connection : Nat) (first : List StorageWalEntry) (count : Nat)
    (service : Service) : Prop :=
  Pending connection [] service ∧ Grown first count service ∨
    ∃ log, Extended first count log ∧ Calm connection log service

/-- The handshake was written to it. -/
def Greeting (connection : Nat) (first : List StorageWalEntry) (count : Nat)
    (service : Service) : Prop :=
  Pending connection (requestBytes .countDatabase) service ∧ Grown first count service ∨
    ∃ log, Extended first count log ∧ Underway connection .countDatabase log service

section States

variable {service : Service} {around : Surroundings} {connection count : Nat}
  {written : List U8} {first : List StorageWalEntry}

/-- The server accepts the connection, or it does something else before. -/
theorem Pending.moves {service' : Service} (hpending : Pending connection written service)
    (hgrown : Grown first count service) (hworks : Works service service') :
    Pending connection written service' ∧ Grown first count service' ∨
      ∃ log, Extended first count log ∧ Attends connection written log service' ∧
        service'.Taken connection := by
  by_cases hawaits : service.Awaits connection
  · obtain ⟨context, hpoint⟩ := hawaits.1
    have hleads := (hpending.queued hawaits).accepting_leads hpoint
    exact .inr ⟨service.log, hgrown.extended, hleads.each _ hworks⟩
  · exact .inl ⟨hpending.works hawaits hworks, hpending.hale.grown hworks hgrown⟩

theorem lasts_deserted : Lasts (Deserted first count) := by
  rintro service service' ⟨habandoned, hgrown⟩ hworks
  exact ⟨habandoned.works hworks, habandoned.hale.grown hworks hgrown⟩

theorem lasts_opening : Lasts (Opening connection first count) := by
  rintro service service' (⟨hpending, hgrown⟩ | ⟨log, hextended, hcalm⟩) hworks
  · exact hpending.moves hgrown hworks
  · exact .inr ⟨log, hextended, lasts_calm _ _ hcalm hworks⟩

theorem lasts_greeting (hroom : first.length + count < 2 ^ 56) :
    Lasts (Greeting connection first count) := by
  rintro service service' (⟨hpending, hgrown⟩ | ⟨log, hextended, hunderway⟩) hworks
  · rcases hpending.moves hgrown hworks with hpending' | ⟨log, hextended, hattends, htaken⟩
    · exact .inl hpending'
    · exact .inr ⟨log, hextended, .unread hattends htaken⟩
  · have hlog := hextended.length_le.trans_lt hroom
    exact .inr ⟨log, hextended, hunderway.works hlog hworks⟩

theorem Deserted.dial (hdeserted : Deserted first count service) :
    Opening service.dialed first count { service with dialed := service.dialed + 1 } :=
  .inl ⟨hdeserted.1.dial, hdeserted.2.congr rfl rfl⟩

theorem Opening.not_left (hopening : Opening connection first count service) :
    ¬service.Left connection := by
  rcases hopening with ⟨hpending, _⟩ | ⟨log, _, hcalm⟩
  · rintro ⟨hless, _⟩
    exact Nat.not_lt.mpr hpending.accepted hless
  · exact Begun.not_left (.inr hcalm)

theorem Opening.write (hopening : Opening connection first count around.service) :
    Greeting connection first count
      (around.write connection (requestBytes .countDatabase)).service := by
  rcases hopening with ⟨hpending, hgrown⟩ | ⟨log, hextended, hcalm⟩
  · exact .inl ⟨hpending.write List.prefix_rfl, hgrown.congr rfl (hpending.owed_write _)⟩
  · exact .inr ⟨log, hextended, Begun.write (.inr hcalm)⟩

/-- Whatever steps the server takes, it comes to reply to the handshake. -/
theorem Greeting.bound (hgreeting : Greeting connection first count service)
    (hroom : first.length + count < 2 ^ 56) :
    Inevitable Works (fun service => service.HasLine connection) service := by
  have hreplies {log : List StorageWalEntry} {service : Service}
      (hunderway : Underway connection .countDatabase log service) (hlog : log.length < 2 ^ 56) :
      Inevitable Works (fun service => service.HasLine connection) service := by
    refine (hunderway.boundToReply hlog).mono ?_
    rintro service' ⟨response, log', hreplied⟩
    exact hreplied.hasLine
  rcases hgreeting with ⟨hpending, _⟩ | ⟨log, hextended, hunderway⟩
  · refine .trans (hpending.boundToCome.mono ?_)
    rintro service' ⟨hpending', hawaits⟩
    exact hreplies (.queued (hpending'.queued hawaits))
      ((Nat.le_add_right _ _).trans_lt hpending'.hale.room)
  · exact hreplies hunderway (hextended.length_le.trans_lt hroom)

theorem Greeting.underway_of_line (hgreeting : Greeting connection first count service)
    (hline : service.HasLine connection) :
    ∃ log, Extended first count log ∧ Underway connection .countDatabase log service := by
  rcases hgreeting with ⟨hpending, _⟩ | hunderway
  · obtain ⟨_, hsent, htaken⟩ := hpending.hale.sound.waiting connection hpending.accepted
    rw [Service.HasLine, Link.pending, hsent, htaken] at hline
    exact (List.not_mem_nil hline).elim
  · exact hunderway

end States

section Procedures

variable {around : Surroundings} {connection count : Nat} {first : List StorageWalEntry}
  {c : LetDD.Client}

theorem Deserted.dial_fares {address : String} {post : Option Nat → Surroundings → Prop}
    (hwithin : Within (Deserted first count) around)
    (hpost : ∀ connection around', Within (Opening connection first count) around' →
      post (some connection) around') :
    Fares post (LetDD.Proc.dial address) around := by
  refine fares_call (.dial address) lasts_deserted hwithin ?_
  rintro service _ _ hdeserted (⟨rfl, _⟩ | ⟨rfl, rfl⟩) hfair
  · exact (hfair rfl).elim
  · exact hpost _ _ ⟨hwithin.undone, hdeserted.dial⟩

theorem Opening.send_fares {post : Bool → Surroundings → Prop}
    (hwithin : Within (Opening connection first count) around)
    (hpost : ∀ around', Within (Greeting connection first count) around' → post true around') :
    Fares post (LetDD.Client.sendRequest connection .countDatabase) around := by
  rw [sendRequest_eq]
  refine fares_call (.write connection _) lasts_opening hwithin ?_
  rintro service whole _ hopening ⟨delivered, _, hwhole, rfl⟩ hfair
  cases (whole : Bool) with
  | false => exact (hopening.not_left (hfair rfl)).elim
  | true =>
      obtain rfl := hwhole rfl
      have hopening' : Opening connection first count
        ({ around with service } : Surroundings).service := hopening
      exact hpost _ ⟨hwithin.undone, hopening'.write⟩

/-- The reply comes however much the server has to do before. -/
theorem Greeting.receive_fares {post : Option LetDD.Response → Surroundings → Prop}
    (hwithin : Within (Greeting connection first count) around)
    (hroom : first.length + count < 2 ^ 56)
    (hpost : ∀ around' log, Extended first count log → Within (Calm connection log) around' →
      post (some (.countDatabase (BitVec.ofNat 64 (balanceOf log).length)
        (BitVec.ofNat 64 log.length))) around') :
    Fares post (LetDD.Client.receiveResponse connection) around := by
  refine .bind (fares_call (.readBytes connection) (lasts_greeting hroom) hwithin ?_)
  rintro service _ _ hgreeting (⟨rfl, rfl⟩ | ⟨body, hbody, rfl, hline, rfl⟩) hfair
  · exact (hfair rfl (hgreeting.bound hroom)).elim
  · have hhas : service.HasLine connection := hline.subset List.mem_concat_self
    obtain ⟨log, hextended, hunderway⟩ := hgreeting.underway_of_line hhas
    obtain ⟨response, log', hreplied⟩ := hunderway.replied_of_line hhas
    have hreplied' : Replied connection .countDatabase log response log'
      ({ around with service } : Surroundings).service := hreplied
    obtain ⟨hwhole, hrested⟩ := hreplied'.read hline
    obtain ⟨rfl, rfl⟩ := obliges_countDatabase hreplied.obliges
    rw [hwhole] at hrested ⊢
    dsimp only
    rw [parseResponse_bytes]
    refine .pure trivial (hpost _ log' hextended ⟨hwithin.undone, hrested.calm ?_⟩)
    intro heq
    cases heq

theorem Deserted.connect_fares {post : Bool × LetDD.Client → Surroundings → Prop}
    (hnone : c.connection = none) (hwithin : Within (Deserted first count) around)
    (hroom : first.length + count < 2 ^ 56)
    (hpost : ∀ c' connection log around', Extended first count log →
      c'.connection = some connection → c'.transactions = BitVec.ofNat 64 log.length →
      c'.supervisor = c.supervisor → Within (Calm connection log) around' →
      post (true, c') around') :
    Fares post c.connect around := by
  rw [LetDD.Client.connect, hnone]
  refine .bind (dial_fares hwithin fun connection around' hopening => ?_)
  refine .bind (contextErr_fares lasts_opening hopening fun around'' hopening => ?_)
  rw [if_neg (by decide)]
  refine .bind (Opening.send_fares hopening fun last hgreeting => ?_)
  refine .bind (Greeting.receive_fares hgreeting hroom fun final log hextended hcalm => ?_)
  exact .pure trivial (hpost _ connection log final hextended rfl rfl rfl hcalm)

end Procedures

/-! ## The next call -/

/-- What the next call finds, and what it has come to once the client is well
again: the calls since then are those of a ledger. -/
inductive Healing (first : List StorageWalEntry) (count : Nat) :
    List (LetDD.Request × Except LetDD.CommunicateError LetDD.Response) → LetDD.Client →
      Surroundings → Prop
  | ailing {client : LetDD.Client} {around : Surroundings} (none : client.connection = none)
      (deserted : Deserted first count around.service) (undone : around.contextDone = false)
      (unused : client.supervisor.currentTry = 0)
      (many : 2 ≤ client.supervisor.cancelAfter) : Healing first count [] client around
  | well {calls : List (LetDD.Request × Except LetDD.CommunicateError LetDD.Response)}
      {start log : List StorageWalEntry} {client : LetDD.Client} {around : Surroundings}
      (extended : Extended first count start) (fulfilled : Fulfilled start calls log)
      (between : Between log client around) : Healing first count calls client around

/-- The last of the calls was answered as well. -/
def Healed (first : List StorageWalEntry) (count : Nat)
    (calls : List (LetDD.Request × Except LetDD.CommunicateError LetDD.Response))
    (client : LetDD.Client) (around : Surroundings) : Prop :=
  ∃ start log, Extended first count start ∧ Fulfilled start calls log ∧ Between log client around

open LetDD.Client (Communicate)

section Calls

variable {client : LetDD.Client} {around : Surroundings} {count : Nat}
  {first : List StorageWalEntry} {request : LetDD.Request}
  {calls : List (LetDD.Request × Except LetDD.CommunicateError LetDD.Response)}

/-- The first round connects and is answered. -/
theorem Deserted.round_fares {post : Communicate ⊕ Communicate → Surroundings → Prop}
    (hnone : client.connection = none) (hwithin : Within (Deserted first count) around)
    (hunused : client.supervisor.currentTry = 0) (hmany : 2 ≤ client.supervisor.cancelAfter)
    (hroom : first.length + count < 2 ^ 56)
    (hpost : ∀ s around' connection log response log', Extended first count log →
      Responded log request s around' connection response log' → post (.inr s) around') :
    Fares post (LetDD.Client.communicateRound { client, request }) around := by
  have hfew : client.supervisor.currentTry < 2 := by
    rw [hunused]
    decide
  refine .bind (try_fares lasts_deserted hwithin hfew hmany fun around' hwithin => ?_)
  dsimp only
  rw [if_pos rfl]
  refine .bind (Deserted.connect_fares hnone hwithin hroom ?_)
  intro c' connection log around'' hextended hconnected hcounted hsupervisor hcalm
  dsimp only
  rw [hconnected]
  have hlog := hextended.length_le.trans_lt hroom
  refine exchange_fares (fun _ => rfl) rfl hconnected hcounted ?_ hcalm hlog ?_
  · rw [hsupervisor]
    exact hmany
  · intro s last response log' hresponded
    exact hpost s last connection log response log' hextended hresponded

theorem Deserted.communicate_fares (hnone : client.connection = none)
    (hdeserted : Deserted first count around.service)
    (hunused : client.supervisor.currentTry = 0) (hmany : 2 ≤ client.supervisor.cancelAfter)
    (hroom : first.length + count < 2 ^ 56) :
    Fares (fun returned around' => Healed first count [(request, returned.1)] returned.2 around')
      (client.communicate request) around.begin := by
  have hloop : Fares (fun s around' => ∃ connection log response log',
        Extended first count log ∧ Responded log request s around' connection response log')
      (Program.iterate LetDD.Client.communicateRound { client, request }) around.begin := by
    refine .loop (.bind (Deserted.round_fares hnone ⟨rfl, hdeserted⟩ hunused hmany hroom ?_))
    intro s around' connection log response log' hextended hresponded
    exact .pure trivial ⟨connection, log, response, log', hextended, hresponded⟩
  refine .bind (hloop.weaken ?_)
  rintro s around' ⟨connection, log, response, log', hextended, hresponded⟩
  refine hresponded.done_fares.weaken ?_
  rintro ⟨result, client'⟩ around'' ⟨rfl, hbetween⟩
  exact ⟨log, log', hextended, Fulfilled.nil.concat hresponded.serves, hbetween⟩

/-- A call heals the client, if it is not well already. -/
theorem Healing.communicate_fares (hhealing : Healing first count calls client around)
    (hroom : first.length + count + calls.length < 2 ^ 56) :
    Fares (fun returned around' =>
        Healed first count (calls ++ [(request, returned.1)]) returned.2 around')
      (client.communicate request) around.begin := by
  cases hhealing with
  | ailing none deserted undone unused many =>
      exact Deserted.communicate_fares none deserted unused many hroom
  | @well _ start log _ _ extended fulfilled between =>
      have hstart := extended.length_le
      have hlength := fulfilled.length_le
      refine (between.communicate_fares (by omega)).weaken ?_
      rintro ⟨result, client'⟩ around' ⟨response, log', rfl, hserves, hbetween⟩
      exact ⟨start, log', extended, fulfilled.concat hserves, hbetween⟩

theorem Healed.healing (hhealed : Healed first count calls client around) :
    Healing first count calls client around := by
  obtain ⟨start, log, hextended, hfulfilled, hbetween⟩ := hhealed
  exact .well hextended hfulfilled hbetween

end Calls

/-! ## Between the calls -/

section Dialogues

variable {client client' : LetDD.Client} {around around' : Surroundings} {service : Service}
  {count : Nat} {first : List StorageWalEntry}
  {calls : List (LetDD.Request × Except LetDD.CommunicateError LetDD.Response)}

/-- The server loses a connection that the client has closed. -/
theorem Deserted.drops {context context' : Let} {world : World}
    (hdeserted : Deserted first count service) (hreading : service.point = .reading context)
    (hstepped : (system false).Returns (letRunStep service.point) service.world
      (.accepting context') world) :
    Deserted first count (service.advance (.accepting context') world) := by
  obtain ⟨habandoned, late, hlog, hcount⟩ := hdeserted
  have hhale := habandoned.hale
  have hraised : world.accepting = true := letRunStep_raised _ _ _ hstepped context' rfl
  have hserving : ¬service.point.Ended := hreading ▸ id
  have howed : (service.advance (.accepting context') world).owed = 0 := Service.owed_eq_zero rfl
  have htalked : Talked service.point service.world (.accepting context') world := by
    refine talked_of_returns ?_ hstepped
    rw [hreading]
    intro _ _ heq
    cases heq
  generalize hpoint : service.point = point at htalked hserving
  cases htalked with
  | ended ended context disk =>
      have hsame : (service.advance (.accepting context') world).log = service.log :=
        Service.log_congr disk
      have hsound : Sound (service.advance (.accepting context') world) :=
        hhale.sound.advance_kept (hpoint ▸ hserving) (hpoint ▸ context) disk trivial (.inr rfl)
      refine ⟨⟨⟨hsound, ⟨(fun _ heq => by cases heq), hraised⟩,
        fun hopen => (hopen trivial).elim, ?_⟩, ?_⟩, late, hsame.trans hlog, ?_⟩
      · rw [hsame, howed]
        exact (Nat.le_add_right _ _).trans_lt hhale.room
      · intro other hother
        rw [service.advance_closed]
        exact habandoned.left other hother
      · rw [howed]
        exact (Nat.le_add_right _ _).trans hcount

/-- A server that was started again has nothing to finish. -/
theorem Deserted.restarts {context : Let} {world : World}
    (hdeserted : Deserted first count service) (hreachable : Reachable (.accepting context) world)
    (hkept : logOf world.disk = logOf service.world.disk) :
    Vacant service.log
      { service with point := .accepting context, world, accepted := service.dialed } := by
  obtain ⟨log, hagrees⟩ := hreachable.agrees fun _ heq => by cases heq
  obtain rfl : log = service.log := (logOf_agrees hagrees).symm.trans hkept
  refine ⟨.accepting ⟨hagrees, hreachable.raised context rfl, Nat.le_refl _, ?_⟩ rfl, rfl⟩
  exact hdeserted.1.hale.sound.undialed

theorem Dialogue.healing (hdialogue : Dialogue client around calls client' around')
    (hstart : Healing first count [] client around)
    (hroom : first.length + count + calls.length ≤ 2 ^ 56) :
    Healing first count calls client' around' := by
  induction hdialogue with
  | start => exact hstart
  | call _ returned ih =>
      rw [List.length_append, List.length_singleton] at hroom
      exact (((ih (by omega)).communicate_fares (by omega)).returns returned).healing
  | works _ worked ih =>
      cases ih hroom with
      | ailing none deserted undone unused many =>
          exact .ailing none (lasts_deserted _ _ deserted worked) undone unused many
      | well extended fulfilled between =>
          exact .well extended fulfilled
            ⟨between.steady.works worked, between.undone, between.unused, between.many⟩
  | drops _ reading stepped ih =>
      cases ih hroom with
      | ailing none deserted undone unused many =>
          exact .ailing none (deserted.drops reading stepped) undone unused many
      | well extended fulfilled between =>
          exact .well extended fulfilled
            ⟨between.steady.drops reading stepped, between.undone, between.unused, between.many⟩
  | restarts _ reachable kept ih =>
      cases ih hroom with
      | ailing none deserted undone unused many =>
          exact .well deserted.2.extended .nil
            ⟨.apart none (deserted.restarts reachable kept), undone, unused, many⟩
      | well extended fulfilled between =>
          exact .well extended fulfilled
            ⟨between.steady.restarts reachable kept, between.undone, between.unused, between.many⟩
  | closes _ returned ih =>
      cases ih hroom with
      | ailing none deserted undone unused many =>
          rw [LetDD.Client.disconnect, none] at returned
          obtain ⟨rfl, rfl⟩ := Machine.returns_pure.mp returned
          exact .ailing none deserted undone unused many
      | well extended fulfilled between =>
          exact .well extended fulfilled (between.disconnect_fares.returns returned)

end Dialogues

/-! ## After any calls -/

/-- What calls have left during which anything may have failed. Either no call was
late or has left a connection behind, and the server runs, or the server was started
again, with any file. -/
inductive Aftermath (client : LetDD.Client) (around : Surroundings) :
    LetDD.Client → Surroundings → Prop
  | survived {returns : List Return} {client' : LetDD.Client} {around' : Surroundings}
      (session : Session client around returns client' around')
      (punctual : ∀ returned ∈ returns, ¬returned.Late) (owns : Owns client' around'.service)
      (running : Running around'.service) :
      Aftermath client around client' { service := around'.service, call := around'.call }
  | restarted {returns : List Return} {client' : LetDD.Client} {around' : Surroundings}
      {context : Let} {world : World} (session : Session client around returns client' around')
      (reachable : Reachable (.accepting context) world) :
      Aftermath client around client'
        { service :=
            { point := .accepting context, world, initial := recordCount world.disk
              links := around'.service.links, dialed := around'.service.dialed
              accepted := around'.service.dialed }
          call := around'.call }

section Aftermaths

variable {client client' client'' : LetDD.Client} {around around' around'' : Surroundings}
  {returns : List Return} {connection : Nat} {transactions : U64}

/-- No call is late and none leaves a connection behind if no context is done. -/
theorem Aftermath.undisturbed (hstarts : Starts client around)
    (hsession : Session client around returns client' around')
    (hundone : ∀ returned ∈ returns, returned.around.contextDone = false)
    (hrunning : Running around'.service) :
    Aftermath client around client' { service := around'.service, call := around'.call } := by
  refine .survived hsession ?_ (hsession.owns hstarts hundone) hrunning
  rintro returned hreturned ⟨_, _, hdone⟩
  exact Bool.false_ne_true ((hundone returned hreturned).symm.trans hdone)

theorem Surroundings.Allows.executing {op : LetDD.Syscall} {answer : op.Answer}
    (hallows : Allows op around answer around')
    (hexecuting : Executing around.service.point around.service.world) :
    Executing around'.service.point around'.service.world := by
  cases op with
  | contextErr =>
      rw [hallows.2]
      exact hexecuting
  | wait =>
      obtain ⟨done, _, _, rfl⟩ := hallows
      exact hexecuting
  | dial => rcases hallows with ⟨_, rfl⟩ | ⟨_, rfl⟩ <;> exact hexecuting
  | write =>
      obtain ⟨delivered, _, _, rfl⟩ := hallows
      exact hexecuting
  | readBytes => rcases hallows with ⟨_, rfl⟩ | ⟨body, _, _, _, rfl⟩ <;> exact hexecuting
  | close =>
      rw [show around' = _ from hallows]
      exact hexecuting

theorem executing_of_performs {op : LetDD.Syscall} {answer : op.Answer}
    (hperforms : network.Performs op around answer around')
    (hexecuting : Executing around.service.point around.service.world) :
    Executing around'.service.point around'.service.world := by
  obtain ⟨service, hreach, hallows⟩ := Machine.allowed_of_performs hperforms
  suffices hmiddle : Executing service.point service.world from hallows.executing hmiddle
  clear hallows
  induction hreach with
  | refl => exact hexecuting
  | tail _ hserved ih => exact hserved.executing ih

theorem Session.executing (hsession : Session client around returns client' around')
    (hstarts : Starts client around) :
    Executing around'.service.point around'.service.world := by
  induction hsession with
  | start =>
      cases hstarts with
      | intro => exact fun hopen => (hopen trivial).elim
  | serves _ served ih => exact served.executing ih
  | call _ returned ih =>
      let relation (around around' : Surroundings) : Prop :=
        Executing around.service.point around.service.world →
          Executing around'.service.point around'.service.world
      have hrefl : Std.Refl relation := ⟨fun _ => id⟩
      have htrans : IsTrans Surroundings relation := ⟨fun _ _ _ hfirst hsecond => hsecond ∘ hfirst⟩
      have hkept : _ ∧ relation _ _ :=
        Machine.Reaches.along (fun _ _ _ _ _ => executing_of_performs) returned
          (.any (fun _ => trivial) _)
      exact hkept.2 ih

/-- Nothing is under way on a connection that the server has left. -/
theorem Quiet.lost {service : Service} (hquiet : Quiet connection transactions service)
    {service' : Service} (hup : Up service'.log service')
    (hpoint : ∃ context, service'.point = .accepting context)
    (hall : service'.accepted = service'.dialed) (hdialed : service'.dialed = service.dialed)
    (hlinks : service'.links = service.links) : Lost connection service'.log service' := by
  refine ⟨⟨hup, hpoint, hall, ?_⟩, ?_⟩
  · rw [hdialed, hquiet.dialed]
    exact Nat.lt_succ_self connection
  · rw [hlinks]
    exact Link.pending_eq_nil (hquiet.current_eq ▸ hquiet.taken)

theorem Quiet.calm {service : Service} {context : Let}
    (hquiet : Quiet connection transactions service) (hhale : Hale service)
    (hpoint : service.point = .reading context)
    (hbytes : service.current.bytes = service.world.received)
    (hopened : (service.links connection).closed = false) :
    Calm connection service.log service := by
  have hserving : ¬service.point.Ended := hpoint ▸ id
  have hcurrent := hquiet.current_eq
  refine ⟨⟨⟨hhale.up, hhale.executing hserving, hquiet.dialed, hquiet.accepted, ?_, hopened⟩,
    ⟨context, hpoint⟩, ?_⟩, ?_⟩
  · rw [← hcurrent]
    exact hhale.sound.sent hserving
  · rw [← hcurrent, hbytes, List.append_nil]
  · rw [Service.Taken, ← hcurrent]
    exact hquiet.taken

/-- On the connection that the client has kept it goes on. -/
theorem Settled.steady (hsettled : Settled returns client around.service)
    (hpunctual : ∀ returned ∈ returns, ¬returned.Late) (howns : Owns client around.service)
    (hhale : Hale around.service) (hconnection : client.connection = some connection) :
    Steady around.service.log client around.service := by
  obtain ⟨transactions, hquiet, hcounted⟩ := hsettled.attached connection hconnection
  have hall : around.service.accepted = around.service.dialed :=
    hquiet.accepted.trans hquiet.dialed.symm
  rcases hquiet.idle with hended | ⟨context, hpoint, hbytes⟩
  · refine .lost hconnection (hquiet.lost hhale.up ?_ hall rfl rfl)
    cases hpoint : around.service.point with
    | accepting context => exact ⟨context, rfl⟩
    | finished context => exact (hhale.running.unfinished context hpoint).elim
    | reading | processing | responding =>
        rw [hpoint] at hended
        exact hended.elim
  · have hopened : (around.service.links connection).closed = false :=
      (howns connection (hquiet.dialed ▸ Nat.lt_succ_self connection)).mpr hconnection
    refine .calm hconnection (hquiet.calm hhale hpoint hbytes hopened) ?_
    rw [hcounted (hsettled.inSync.mpr hpunctual), ← hquiet.transactions]
    exact hhale.up.agrees.transactions

theorem Settled.healing (hsettled : Settled returns client around.service)
    (hpunctual : ∀ returned ∈ returns, ¬returned.Late) (howns : Owns client around.service)
    (hhale : Hale around.service) (hundone : around.contextDone = false)
    (hmany : 2 ≤ client.supervisor.cancelAfter) :
    Healing around.service.log around.service.owed [] client around := by
  cases hconnection : client.connection with
  | none =>
      refine .ailing hconnection ⟨⟨hhale, fun other hother => ?_⟩, [], ?_, ?_⟩ hundone
        hsettled.reset hmany
      · refine Bool.eq_true_of_not_eq_false fun hopened => ?_
        nomatch hconnection.symm.trans ((howns other hother).mp hopened)
      · exact (List.append_nil _).symm
      · exact Nat.le_of_eq (Nat.zero_add _)
  | some connection =>
      exact .well ⟨[], (List.append_nil _).symm, Nat.zero_le _⟩ .nil
        ⟨hsettled.steady hpunctual howns hhale hconnection, hundone, hsettled.reset, hmany⟩

theorem Aftermath.healing (haftermath : Aftermath client around client' around')
    (hstarts : Starts client around) (hmany : 2 ≤ client'.supervisor.cancelAfter)
    (hroom : around'.service.log.length + around'.service.owed < 2 ^ 56) :
    Healing around'.service.log around'.service.owed [] client' around' := by
  cases haftermath with
  | @survived returns _ around' session punctual owns running =>
      have hsettled := session.settled hstarts
      have hhale : Hale around'.service :=
        ⟨hsettled.sound, running, session.executing hstarts, hroom⟩
      have hsettled' : Settled returns client'
        ({ service := around'.service, call := around'.call } : Surroundings).service := hsettled
      exact hsettled'.healing punctual owns hhale rfl hmany
  | @restarted returns _ around' context world session reachable =>
      have hsettled := session.settled hstarts
      obtain ⟨log, hagrees⟩ := reachable.agrees fun _ heq => by cases heq
      let service : Service :=
        { point := .accepting context, world, initial := recordCount world.disk
          links := around'.service.links, dialed := around'.service.dialed
          accepted := around'.service.dialed }
      have hlog : service.log = log := logOf_agrees hagrees
      have hup : Up service.log service := by
        rw [hlog]
        exact ⟨hagrees, reachable.raised context rfl, Nat.le_refl _, hsettled.sound.undialed⟩
      refine .well ⟨[], (List.append_nil _).symm, Nat.zero_le _⟩ .nil
        ⟨?_, rfl, hsettled.reset, hmany⟩
      cases hconnection : client'.connection with
      | none => exact .apart hconnection ⟨.accepting hup rfl, rfl⟩
      | some connection =>
          obtain ⟨transactions, hquiet, _⟩ := hsettled.attached connection hconnection
          exact .lost hconnection (hquiet.lost hup ⟨context, rfl⟩ rfl rfl rfl)

/-- Whatever has failed before, every call since then has returned what the ledger
answers, and so does the next one. The log is what it was, and perhaps the record
of the operation that the server still had in hand. -/
theorem next_call_answered (hstarts : Starts client around)
    (haftermath : Aftermath client around client' around')
    (hmany : 2 ≤ client'.supervisor.cancelAfter)
    {calls : List (LetDD.Request × Except LetDD.CommunicateError LetDD.Response)}
    (hdialogue : Dialogue client' around' calls client'' around'')
    (hroom : around'.service.log.length + around'.service.owed + calls.length < 2 ^ 56)
    (request : LetDD.Request) :
    Fares (fun returned last => ∃ late, late.length ≤ around'.service.owed ∧ late.length ≤ 1 ∧
        Fulfilled (around'.service.log ++ late) (calls ++ [(request, returned.1)])
          last.service.log)
      (client''.communicate request) around''.begin := by
  have hstart := haftermath.healing hstarts hmany ((Nat.le_add_right _ _).trans_lt hroom)
  have hhealing := hdialogue.healing hstart (Nat.le_of_lt hroom)
  refine (hhealing.communicate_fares hroom).weaken ?_
  rintro ⟨result, client⟩ last ⟨start, log, ⟨late, rfl, hlate⟩, hfulfilled, hbetween⟩
  have hlog : last.service.log = log := logOf_agrees hbetween.steady.up.agrees
  exact ⟨late, hlate, hlate.trans around'.service.owed_le_one, hlog ▸ hfulfilled⟩

/-- The network on which the server takes no step, and nothing else fails. -/
def stalled : Machine LetDD.host Surroundings where
  Choice _ := Unit
  exec op _ around := Script.exec {} op around

theorem stalled_performs {op : LetDD.Syscall} {answer : op.Answer}
    (hperforms : stalled.Performs op around answer around') :
    network.Performs op around answer around' := by
  obtain ⟨_, hexec⟩ := hperforms
  have hallows := Script.exec_allows {} op around
  rw [show Script.exec {} op around = (answer, around') from hexec] at hallows
  exact Machine.performs_allowing Surroundings.exists_allowed ⟨around.service, .refl, hallows⟩

/-- The server stalls during the first call, which leaves five connections for it
to finish with. -/
theorem next_call_answered_stalled : ∃ client' around',
    Aftermath freshClient freshAround client' around' ∧ client'.connection = none ∧
    around'.service.dialed = 5 ∧ around'.service.accepted = 0 ∧
    Fares (fun returned last => ∃ late, late.length ≤ around'.service.owed ∧ late.length ≤ 1 ∧
        Fulfilled (around'.service.log ++ late) [(.addAccount 0 ⟨0, 0⟩ ⟨0, 0⟩ 0, returned.1)]
          last.service.log)
      (client'.communicate (.addAccount 0 ⟨0, 0⟩ ⟨0, 0⟩ 0)) around'.begin := by
  have hcomputed : (stalled.run (fun _ _ => ()) 1000 (freshClient.communicate .countDatabase)
      freshAround.begin).any (fun returned =>
        decide (returned.2.contextDone = false ∧ returned.1.2.connection = none ∧
          2 ≤ returned.1.2.supervisor.cancelAfter ∧ returned.2.service.dialed = 5 ∧
          returned.2.service.accepted = 0 ∧ returned.2.service.point = .accepting freshContext ∧
          returned.2.service.world = freshWorld)) = true := by decide +kernel
  obtain ⟨⟨⟨result, client'⟩, around'⟩, hrun, hchecked⟩ :=
    (Option.any_eq_true _ _).mp hcomputed
  obtain ⟨hundone, hnone, hmany, hdialed, haccepted, hpoint, hworld⟩ := of_decide_eq_true hchecked
  have hsession : Session freshClient freshAround [⟨.countDatabase, client', around'⟩] client'
      around' :=
    Session.start.call ((Machine.returns_of_run hrun).mono fun _ _ _ _ => stalled_performs)
  have hrunning : Running around'.service := by
    refine ⟨?_, by rw [hworld]; rfl⟩
    rw [hpoint]
    exact fun _ heq => by cases heq
  have hroom : around'.service.log.length + around'.service.owed + 0 < 2 ^ 56 := by
    have hidle : around'.service.live = none := Service.live_of_ended (by rw [hpoint]; trivial)
    have hempty : (logOf freshWorld.disk).length = 0 := by decide
    rw [Service.log, hworld, hempty, Service.owed_eq_zero hidle]
    decide
  have haftermath := Aftermath.undisturbed starts_fresh hsession (by simpa using hundone) hrunning
  exact ⟨client', _, haftermath, hnone, hdialed, haccepted,
    next_call_answered starts_fresh haftermath hmany .start hroom _⟩

end Aftermaths

end LetDX.Wire
