import LetDX.Wire.Calls
import LetDX.Wire.Health

/-! # A network on which nothing fails

The context is not done, timers fire and dialing succeeds. Writing and reading
fail only for a reason: the server has left the connection, or no line is bound
to come. The server is healthy and takes any number of steps before each
operation of the client.
-/

namespace LetDX.Wire

open Effects LetDB

/-- The server has accepted the connection and serves it no more. -/
def Service.Left (service : Service) (connection : Nat) : Prop :=
  connection < service.accepted ∧ (connection ≠ service.accepted - 1 ∨ service.point.Ended)

namespace Surroundings

def Fair : (op : LetDD.Syscall) → Surroundings → op.Answer → Surroundings → Prop
  | .contextErr, around, (done : Bool), _ => done = around.contextDone
  | .wait _, around, (fired : Bool), around' =>
      fired = true ∧ around'.contextDone = around.contextDone
  | .dial _, _, (dialed : Option Nat), _ => dialed ≠ none
  | .write connection _, around, (whole : Bool), _ =>
      whole = false → around.service.Left connection
  | .readBytes connection, around, (read : Option (List U8)), _ =>
      read = none → ¬Inevitable Works (fun service => service.HasLine connection) around.service
  | .close _, _, _, _ => True

/-- The same after any number of steps of the server. -/
def Fairly (op : LetDD.Syscall) (around : Surroundings) (answer : op.Answer)
    (around' : Surroundings) : Prop :=
  ∃ service, Relation.ReflTransGen Works around.service service ∧
    Allows op { around with service } answer around' ∧
    Fair op { around with service } answer around'

theorem exists_fairly {op : LetDD.Syscall} (around : Surroundings) :
    ∃ answer around', Fairly op around answer around' := by
  cases op with
  | contextErr => exact ⟨around.contextDone, around, around.service, .refl, ⟨id, rfl⟩, rfl⟩
  | wait =>
      refine ⟨true, around, around.service, .refl, ⟨around.contextDone, id, ?_, rfl⟩, rfl, rfl⟩
      intro heq
      cases heq
  | dial =>
      refine ⟨some around.service.dialed, _, around.service, .refl, .inr ⟨rfl, rfl⟩, ?_⟩
      intro heq
      cases heq
  | write connection bytes =>
      refine ⟨true, _, around.service, .refl, ⟨bytes, List.prefix_rfl, fun _ => rfl, rfl⟩, ?_⟩
      intro heq
      cases heq
  | readBytes connection =>
      by_cases hline : Inevitable Works (fun service => service.HasLine connection) around.service
      · obtain ⟨service, hreach, hhas⟩ := hline.exists_reached
        obtain ⟨body, rest, hpending, hbody⟩ := List.eq_append_cons_of_mem hhas
        refine ⟨some (body ++ [asciiNewline]), _, service, hreach,
          .inr ⟨body, hbody, rfl, ⟨rest, ?_⟩, rfl⟩, ?_⟩
        · rw [List.append_assoc]
          exact hpending.symm
        · intro heq
          cases heq
      · exact ⟨none, around, around.service, .refl, .inl ⟨rfl, rfl⟩, fun _ => hline⟩
  | close => exact ⟨true, _, around.service, .refl, rfl, trivial⟩

/-- A network on which nothing fails is a network. -/
theorem Fairly.allowed {op : LetDD.Syscall} {around around' : Surroundings} {answer : op.Answer}
    (hfairly : Fairly op around answer around') (hsound : Sound around.service) :
    Allowed op around answer around' := by
  obtain ⟨service, hreach, hallows, hfair⟩ := hfairly
  suffices hserved : Relation.ReflTransGen Served around.service service ∧ Sound service from
    ⟨service, hserved.1, hallows⟩
  clear hallows hfair
  induction hreach with
  | refl => exact ⟨.refl, hsound⟩
  | tail _ hworks ih =>
      obtain ⟨hreach, hsound⟩ := ih
      obtain ⟨hserved, hsound⟩ := hsound.works hworks
      exact ⟨hreach.tail hserved, hsound⟩

end Surroundings

/-- Where the client runs while nothing fails. -/
def fairNetwork : Machine LetDD.host Surroundings :=
  .allowing Surroundings.Fairly

abbrev Fares {α : Type} (post : α → Surroundings → Prop) (program : LetDD.Proc α)
    (around : Surroundings) : Prop :=
  fairNetwork.Ensures (fun _ => True) post program around

/-- The context is not done, and the service is so. -/
structure Within (state : Service → Prop) (around : Surroundings) : Prop where
  undone : around.contextDone = false
  holds : state around.service

/-- No step of a healthy server ends it. -/
def Lasts (state : Service → Prop) : Prop :=
  ∀ service service', state service → Works service service' → state service'

section Operations

variable {around : Surroundings} {state : Service → Prop} {connection : Nat}
  {log : List StorageWalEntry}

theorem fares_call (op : LetDD.Syscall) {post : op.Answer → Surroundings → Prop}
    (hlasts : Lasts state) (hwithin : Within state around)
    (hafter : ∀ service answer around', state service →
      Surroundings.Allows op { around with service } answer around' →
      Surroundings.Fair op { around with service } answer around' → post answer around') :
    Fares post (Program.perform (I := LetDD.host) op) around := by
  refine .allowing Surroundings.exists_fairly trivial ?_
  rintro answer around' ⟨service, hreach, hallows, hfair⟩
  exact ⟨trivial, hafter service answer around' (preserved hlasts hreach hwithin.holds) hallows
    hfair⟩

theorem contextErr_fares {post : Bool → Surroundings → Prop} (hlasts : Lasts state)
    (hwithin : Within state around) (hpost : ∀ around', Within state around' → post false around') :
    Fares post LetDD.Proc.contextErr around := by
  refine fares_call .contextErr hlasts hwithin ?_
  rintro service _ _ hstate ⟨_, rfl⟩ rfl
  rw [show ({ around with service } : Surroundings).contextDone = false from hwithin.undone]
  exact hpost _ ⟨rfl, hstate⟩

theorem wait_fares {backoff : LetDD.Duration} {post : Bool → Surroundings → Prop}
    (hlasts : Lasts state) (hwithin : Within state around)
    (hpost : ∀ around', Within state around' → post true around') :
    Fares post (LetDD.Proc.wait backoff) around := by
  refine fares_call (.wait backoff) hlasts hwithin ?_
  rintro service _ _ hstate ⟨done, _, _, rfl⟩ ⟨rfl, hdone⟩
  exact hpost _ ⟨hdone.trans hwithin.undone, hstate⟩

end Operations

/-! ## States that last -/

/-- The server is done with all connections. -/
def Vacant (log : List StorageWalEntry) (service : Service) : Prop :=
  Free log service ∧ service.accepted = service.dialed

/-- Nothing is under way on the connection, and the server reads on it. -/
def Calm (connection : Nat) (log : List StorageWalEntry) (service : Service) : Prop :=
  Attends connection [] log service ∧ service.Taken connection

/-- Nothing was written to the connection since it was dialed. -/
def Begun (connection : Nat) (log : List StorageWalEntry) (service : Service) : Prop :=
  Queued connection [] log service ∨ Calm connection log service

/-- Nothing will come on the connection. -/
def Lost (connection : Nat) (log : List StorageWalEntry) (service : Service) : Prop :=
  Gone connection log service ∧ (service.links connection).pending = []

/-- The response to the request was taken. -/
def Rested (connection : Nat) (request : NetworkRequest) (log : List StorageWalEntry)
    (service : Service) : Prop :=
  Calm connection log service ∨ request = .close ∧ Lost connection log service

section States

variable {around : Surroundings} {service : Service} {connection : Nat} {bytes : List U8}
  {log log' : List StorageWalEntry} {request : NetworkRequest} {response : NetworkResponse}

theorem lasts_vacant : Lasts (Vacant log) := by
  rintro service service' ⟨hfree, hall⟩ hworks
  cases hfree with
  | accepting up point =>
      have hbusy : ¬service.Ready := by
        rw [Service.Ready, point]
        exact Nat.not_lt.mpr (Nat.le_of_eq hall.symm)
      exact (not_works hbusy hworks).elim
  | leaving up point accepted received closed =>
      obtain ⟨⟨context, hpoint⟩, hup, hdialed, haccepted, _⟩ :=
        (leads_leaving up point accepted received closed).each _ hworks
      exact ⟨.accepting hup hpoint, haccepted.trans (hall.trans hdialed.symm)⟩

theorem lasts_calm : Lasts (Calm connection log) :=
  fun _ _ hcalm hworks => (not_works hcalm.1.not_ready hworks).elim

theorem lasts_lost : Lasts (Lost connection log) :=
  fun _ _ hlost hworks => (not_works hlost.1.not_ready hworks).elim

theorem lasts_begun : Lasts (Begun connection log) := by
  rintro service service' (hqueued | hcalm) hworks
  · exact hqueued.works hworks
  · exact .inr (lasts_calm _ _ hcalm hworks)

theorem lasts_rested : Lasts (Rested connection request log) := by
  rintro service service' (hcalm | ⟨_, hlost⟩) hworks
  · exact .inl (lasts_calm _ _ hcalm hworks)
  · exact (not_works hlost.1.not_ready hworks).elim

theorem lasts_underway (hroom : log.length < 2 ^ 56) : Lasts (Underway connection request log) :=
  fun _ _ hunderway hworks => hunderway.works hroom hworks

/-! ## What the client does to a connection -/

theorem Up.setLink (hup : Up log service) (hdialed : connection < service.dialed) (link : Link)
    (repeated : List Nat) : Up log { service.setLink connection link with repeated } where
  agrees := hup.agrees
  raised := hup.raised
  accepted_le := hup.accepted_le
  undialed := by
    intro other hother
    have hne : other ≠ connection := Nat.ne_of_gt (hdialed.trans_le hother)
    exact (Function.update_of_ne hne ..).trans (hup.undialed other hother)

theorem Held.setLink (hheld : Held connection log service) {link : Link} {repeated : List Nat}
    (hsent : link.sent = (service.links connection).sent) (hclosed : link.closed = false) :
    Held connection log { service.setLink connection link with repeated } where
  up := hheld.up.setLink (hheld.dialed ▸ Nat.lt_succ_self connection) link repeated
  executing := hheld.executing
  dialed := hheld.dialed
  accepted := hheld.accepted
  sent := (congrArg Link.sent (Function.update_self ..)).trans (hsent.trans hheld.sent)
  closed := (congrArg Link.closed (Function.update_self ..)).trans hclosed

theorem Gone.setLink (hgone : Gone connection log service) (link : Link) (repeated : List Nat) :
    Gone connection log { service.setLink connection link with repeated } where
  up := hgone.up.setLink hgone.dialed link repeated
  point := hgone.point
  accepted := hgone.accepted
  dialed := hgone.dialed

theorem write_link (around : Surroundings) (connection : Nat) (bytes : List U8) :
    (around.write connection bytes).service.links connection =
      around.service.written connection around.call bytes :=
  Function.update_self ..

theorem Queued.write (hqueued : Queued connection [] log around.service) :
    Queued connection bytes log (around.write connection bytes).service := by
  have hless : connection < around.service.dialed := hqueued.dialed ▸ Nat.lt_succ_self connection
  have hlink := write_link around connection bytes
  refine ⟨?_, hqueued.dialed, hqueued.accepted, ?_, ?_, ?_, ?_⟩
  · cases hqueued.free with
    | accepting up point => exact .accepting (up.setLink hless _ _) point
    | leaving up point accepted received closed =>
        -- The connection that is written to is not the one that is read.
        have hcurrent : (around.write connection bytes).service.current =
            around.service.current := by
          refine (around.service.setLink_current connection _).trans (if_neg ?_)
          have haccepted := hqueued.accepted
          omega
        refine .leaving (up.setLink hless _ _) point accepted ?_ ?_
        · rw [hcurrent]
          exact received
        · rw [hcurrent]
          exact closed
  · rw [hlink, Service.bytes_written, hqueued.bytes, List.nil_append]
  · rw [hlink]
    exact hqueued.sent
  · rw [hlink]
    exact hqueued.taken
  · rw [hlink]
    exact hqueued.closed

theorem Calm.write (hcalm : Calm connection log around.service) :
    Attends connection bytes log (around.write connection bytes).service ∧
      (around.write connection bytes).service.Taken connection := by
  obtain ⟨hattends, htaken⟩ := hcalm
  have hlink := write_link around connection bytes
  refine ⟨⟨hattends.held.setLink rfl hattends.held.closed, hattends.point, ?_⟩, ?_⟩
  · rw [hlink, Service.bytes_written, hattends.bytes, List.append_nil]
    rfl
  · rw [Service.Taken, hlink]
    exact htaken

theorem Begun.write (hbegun : Begun connection log around.service) :
    Underway connection request log
      (around.write connection (requestBytes request)).service := by
  rcases hbegun with hqueued | hcalm
  · exact .queued hqueued.write
  · exact .unread hcalm.write.1 hcalm.write.2

theorem Lost.write (hlost : Lost connection log around.service) :
    Lost connection log (around.write connection bytes).service := by
  refine ⟨hlost.1.setLink _ _, ?_⟩
  rw [write_link]
  exact hlost.2

theorem Begun.not_left (hbegun : Begun connection log service) : ¬service.Left connection := by
  rintro ⟨hless, hleft⟩
  rcases hbegun with hqueued | ⟨hattends, _⟩
  · rw [hqueued.accepted] at hless
    exact Nat.lt_irrefl _ hless
  · rcases hleft with hother | hended
    · rw [hattends.held.accepted] at hother
      exact hother rfl
    · obtain ⟨context, hpoint⟩ := hattends.point
      rw [hpoint] at hended
      exact hended

theorem read_link (around : Surroundings) (connection : Nat) (line : List U8) :
    (around.read connection line).service.links connection =
      { around.service.links connection with
        taken := (around.service.links connection).taken + line.length } :=
  Function.update_self ..

/-- The line that can be taken is the response, and then nothing is under way. -/
theorem Replied.read {body : List U8}
    (hreplied : Replied connection request log response log' around.service)
    (hline : body ++ [asciiNewline] <+: (around.service.links connection).pending) :
    body ++ [asciiNewline] = response.bytes ∧
      Rested connection request log' (around.read connection (body ++ [asciiNewline])).service := by
  have hpending := hreplied.pending
  have hwhole : body ++ [asciiNewline] = response.bytes := by
    rw [hpending] at hline
    rcases eq_bytes_or_newline_notMem hline with hwhole | hno
    · exact hwhole
    · exact (hno (by simp)).elim
  have htaken : (around.read connection (body ++ [asciiNewline])).service.Taken connection := by
    have hlength := congrArg List.length hpending
    have hpositive := congrArg List.length hwhole
    rw [Link.pending, List.length_drop] at hlength
    rw [List.length_append, List.length_singleton] at hpositive
    rw [Service.Taken, read_link, hwhole]
    dsimp only
    omega
  refine ⟨hwhole, ?_⟩
  rcases hreplied.rests with hattends | ⟨hclose, hgone⟩
  · refine .inl ⟨⟨hattends.held.setLink rfl hattends.held.closed, hattends.point, ?_⟩, htaken⟩
    rw [read_link]
    exact hattends.bytes
  · exact .inr ⟨hclose, hgone.setLink _ _, Link.pending_eq_nil htaken⟩

/-- There is a line to take only once the reply was sent. -/
theorem Underway.replied_of_line (hunderway : Underway connection request log service)
    (hline : service.HasLine connection) :
    ∃ response log', Replied connection request log response log' service := by
  have htaken (htaken : service.Taken connection) : False := by
    rw [Service.HasLine, Link.pending_eq_nil htaken] at hline
    exact List.not_mem_nil hline
  cases hunderway with
  | queued queued =>
      have hnothing := queued.taken.trans (congrArg List.length queued.sent).symm
      exact (htaken hnothing).elim
  | unread _ taken => exact (htaken taken).elim
  | processing _ _ _ taken => exact (htaken taken).elim
  | responding _ _ _ taken => exact (htaken taken).elim
  | replied replied => exact ⟨_, _, replied⟩

theorem Replied.hasLine (hreplied : Replied connection request log response log' service) :
    service.HasLine connection := by
  obtain ⟨body, hbytes, _⟩ := response.exists_bytes_eq
  rw [Service.HasLine, hreplied.pending, hbytes]
  exact List.mem_concat_self

theorem Vacant.dial (hvacant : Vacant log service) :
    Begun service.dialed log { service with dialed := service.dialed + 1 } := by
  obtain ⟨hfree, hall⟩ := hvacant
  have hup {log : List StorageWalEntry} (hup : Up log service) :
      Up log { service with dialed := service.dialed + 1 } :=
    ⟨hup.agrees, hup.raised, Nat.le_succ_of_le hup.accepted_le,
      fun other hother => hup.undialed other (Nat.le_of_succ_le hother)⟩
  have hnew : service.links service.dialed = {} := by
    cases hfree with
    | accepting up => exact up.undialed _ (Nat.le_refl _)
    | leaving up => exact up.undialed _ (Nat.le_refl _)
  refine .inl ⟨?_, rfl, hall, ?_, ?_, ?_, ?_⟩
  · cases hfree with
    | accepting up point => exact .accepting (hup up) point
    | leaving up point accepted received closed =>
        exact .leaving (hup up) point accepted received closed
  · exact congrArg Link.bytes hnew
  · exact congrArg Link.sent hnew
  · exact congrArg Link.taken hnew
  · exact congrArg Link.closed hnew

theorem Calm.close (hcalm : Calm connection log around.service) :
    Vacant log (around.close connection).service := by
  obtain ⟨hattends, _⟩ := hcalm
  obtain ⟨context, hpoint⟩ := hattends.point
  have hheld := hattends.held
  have hless : connection < around.service.dialed := hheld.dialed ▸ Nat.lt_succ_self connection
  have hcurrent : (around.close connection).service.current =
      { around.service.links connection with closed := true } := by
    refine (around.service.setLink_current connection _).trans (if_pos ?_)
    rw [hheld.accepted]
    rfl
  refine ⟨.leaving (hheld.up.setLink hless _ _) hpoint ?_ ?_ ?_, ?_⟩
  · exact hheld.accepted ▸ Nat.succ_pos connection
  · rw [hcurrent]
    exact ((List.append_nil _).symm.trans hattends.bytes.symm)
  · rw [hcurrent]
  · exact hheld.accepted.trans hheld.dialed.symm

theorem Lost.close (hlost : Lost connection log around.service) :
    Vacant log (around.close connection).service := by
  obtain ⟨hgone, _⟩ := hlost
  obtain ⟨context, hpoint⟩ := hgone.point
  exact ⟨.accepting (hgone.up.setLink hgone.dialed _ _) hpoint, hgone.accepted⟩

end States

end LetDX.Wire
