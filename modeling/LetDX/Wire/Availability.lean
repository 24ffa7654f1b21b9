import LetDX.Wire.Fairness
import LetDX.Wire.Guarantees

/-! # Every call is answered

While nothing fails, a call returns what the ledger answers, also if the server
was started again, the connection was lost or the client has closed it before
the call.
-/

namespace LetDX.Wire

open Effects LetDB

section Procedures

variable {around : Surroundings} {connection : Nat} {log : List StorageWalEntry}
  {c : LetDD.Client}

theorem dial_fares {address : String} {post : Option Nat → Surroundings → Prop}
    (hwithin : Within (Vacant log) around)
    (hpost : ∀ connection around', Within (Begun connection log) around' →
      post (some connection) around') :
    Fares post (LetDD.Proc.dial address) around := by
  refine fares_call (.dial address) lasts_vacant hwithin ?_
  rintro service _ _ hvacant (⟨rfl, _⟩ | ⟨rfl, rfl⟩) hfair
  · exact (hfair rfl).elim
  · exact hpost _ _ ⟨hwithin.undone, hvacant.dial⟩

theorem send_fares {request : LetDD.Request} {post : Bool → Surroundings → Prop}
    (hwithin : Within (Begun connection log) around)
    (hpost : ∀ around', Within (Underway connection request.meaning log) around' →
      post true around') :
    Fares post (LetDD.Client.sendRequest connection request) around := by
  rw [sendRequest_eq]
  refine fares_call (.write connection _) lasts_begun hwithin ?_
  rintro service whole _ hbegun ⟨delivered, _, hwhole, rfl⟩ hfair
  cases (whole : Bool) with
  | false => exact (hbegun.not_left (hfair rfl)).elim
  | true =>
      obtain rfl := hwhole rfl
      have hbegun' : Begun connection log ({ around with service } : Surroundings).service := hbegun
      exact hpost _ ⟨hwithin.undone, hbegun'.write⟩

theorem receive_fares {request : NetworkRequest}
    {post : Option LetDD.Response → Surroundings → Prop}
    (hwithin : Within (Underway connection request log) around) (hroom : log.length < 2 ^ 56)
    (hpost : ∀ around' response log', Obliges log request response log' →
      Within (Rested connection request log') around' → post (some response.meaning) around') :
    Fares post (LetDD.Client.receiveResponse connection) around := by
  refine .bind (fares_call (.readBytes connection) (lasts_underway hroom) hwithin ?_)
  rintro service _ _ hunderway (⟨rfl, rfl⟩ | ⟨body, hbody, rfl, hline, rfl⟩) hfair
  · refine (hfair rfl ?_).elim
    refine (hunderway.boundToReply hroom).mono ?_
    rintro service' ⟨response, log', hreplied⟩
    exact hreplied.hasLine
  · have hhas : service.HasLine connection := hline.subset List.mem_concat_self
    obtain ⟨response, log', hreplied⟩ := hunderway.replied_of_line hhas
    have hreplied' : Replied connection request log response log'
      ({ around with service } : Surroundings).service := hreplied
    obtain ⟨hwhole, hrested⟩ := hreplied'.read hline
    rw [hwhole] at hrested ⊢
    dsimp only
    rw [parseResponse_bytes]
    exact .pure trivial (hpost _ response log' hreplied.obliges ⟨hwithin.undone, hrested⟩)

/-- What is written to a connection that is lost is not answered. -/
theorem lost_send_fares {request : LetDD.Request} {post : Bool → Surroundings → Prop}
    (hwithin : Within (Lost connection log) around)
    (hpost : ∀ whole around', Within (Lost connection log) around' → post whole around') :
    Fares post (LetDD.Client.sendRequest connection request) around := by
  rw [sendRequest_eq]
  refine fares_call (.write connection _) lasts_lost hwithin ?_
  rintro service whole _ hlost ⟨delivered, _, _, rfl⟩ _
  have hlost' : Lost connection log ({ around with service } : Surroundings).service := hlost
  exact hpost whole _ ⟨hwithin.undone, hlost'.write⟩

theorem lost_receive_fares {post : Option LetDD.Response → Surroundings → Prop}
    (hwithin : Within (Lost connection log) around)
    (hpost : ∀ around', Within (Lost connection log) around' → post none around') :
    Fares post (LetDD.Client.receiveResponse connection) around := by
  refine .bind (fares_call (.readBytes connection) lasts_lost hwithin ?_)
  rintro service _ _ hlost (⟨rfl, rfl⟩ | ⟨body, _, _, hline, _⟩) _
  · exact .pure trivial (hpost _ ⟨hwithin.undone, hlost⟩)
  · rw [hlost.2] at hline
    have hnothing := List.prefix_nil.mp hline
    simp at hnothing

/-- The client closes a connection that is lost, or on which nothing is under way. -/
theorem disconnect_fares {post : LetDD.Client → Surroundings → Prop}
    (hconnection : c.connection = some connection)
    (hwithin : Within (fun service => Calm connection log service ∨ Lost connection log service)
      around)
    (hpost : ∀ around', Within (Vacant log) around' →
      post { c with connection := none } around') :
    Fares post c.disconnect around := by
  have hlasts : Lasts fun service => Calm connection log service ∨ Lost connection log service := by
    rintro service service' (hcalm | hlost) hworks
    · exact .inl (lasts_calm _ _ hcalm hworks)
    · exact .inr (lasts_lost _ _ hlost hworks)
  rw [LetDD.Client.disconnect, hconnection]
  refine .bind (fares_call (.close connection) hlasts hwithin ?_)
  rintro service _ _ hstate rfl _
  refine .pure trivial (hpost _ ⟨hwithin.undone, ?_⟩)
  have hstate' : Calm connection log ({ around with service } : Surroundings).service ∨
    Lost connection log ({ around with service } : Surroundings).service := hstate
  rcases hstate' with hcalm | hlost
  · exact hcalm.close
  · exact hlost.close

theorem Rested.calm {request : NetworkRequest} {service : Service}
    (hrested : Rested connection request log service) (hopen : request ≠ .close) :
    Calm connection log service := by
  rcases hrested with hcalm | ⟨hclose, _⟩
  · exact hcalm
  · exact (hopen hclose).elim

theorem obliges_countDatabase {response : NetworkResponse} {log' : List StorageWalEntry}
    (hobliges : Obliges log .countDatabase response log') :
    log' = log ∧ response = .countDatabase (BitVec.ofNat 64 (balanceOf log).length)
      (BitVec.ofNat 64 log.length) := by
  cases hobliges with
  | committed requested => nomatch requested.operation
  | told tells => exact ⟨rfl, (Option.some.inj tells).symm⟩
  | refused rejects unasked untold => nomatch untold

/-- The handshake gives the client the number of the next transaction. -/
theorem handshake_fares {post : Bool × LetDD.Client → Surroundings → Prop}
    (hwithin : Within (Begun connection log) around) (hroom : log.length < 2 ^ 56)
    (hpost : ∀ around', Within (Calm connection log) around' →
      post (true, { c with transactions := BitVec.ofNat 64 log.length }) around') :
    Fares post (c.handshake connection) around := by
  refine .bind (send_fares hwithin fun around' hunderway => ?_)
  refine .bind (receive_fares hunderway hroom fun around'' response log' hobliges hrested => ?_)
  obtain ⟨rfl, rfl⟩ := obliges_countDatabase hobliges
  exact .pure trivial (hpost around'' ⟨hrested.undone, hrested.holds.calm fun heq => nomatch heq⟩)

theorem connect_fares {post : Bool × LetDD.Client → Surroundings → Prop}
    (hnone : c.connection = none) (hwithin : Within (Vacant log) around)
    (hroom : log.length < 2 ^ 56)
    (hpost : ∀ c' connection around', c'.connection = some connection →
      c'.transactions = BitVec.ofNat 64 log.length → c'.supervisor = c.supervisor →
      Within (Calm connection log) around' → post (true, c') around') :
    Fares post c.connect around := by
  rw [LetDD.Client.connect, hnone]
  refine .bind (dial_fares hwithin fun connection around' hbegun => ?_)
  refine .bind (contextErr_fares lasts_begun hbegun fun around'' hbegun => ?_)
  rw [if_neg (by decide)]
  exact handshake_fares hbegun hroom fun last hcalm => hpost _ connection last rfl rfl rfl hcalm

theorem try_fares {state : Service → Prop} {s : LetDD.Supervisor}
    {post : Bool × LetDD.Supervisor → Surroundings → Prop} (hlasts : Lasts state)
    (hwithin : Within state around) (hless : s.currentTry < 2) (hmany : 2 ≤ s.cancelAfter)
    (hpost : ∀ around', Within state around' →
      post (true, { s with currentTry := s.currentTry + 1 }) around') :
    Fares post s.try around := by
  have hagain : ¬s.currentTry ≥ s.cancelAfter := by bv_omega
  refine .bind (contextErr_fares hlasts hwithin fun around' hwithin => ?_)
  rw [if_neg (by decide)]
  by_cases hfirst : s.currentTry = 0
  · rw [if_pos hfirst]
    exact .pure trivial (hpost around' hwithin)
  · rw [if_neg hfirst, if_neg hagain]
    refine .bind (wait_fares hlasts hwithin fun around'' hwithin => ?_)
    rw [if_pos rfl]
    exact .pure trivial (hpost around'' hwithin)

end Procedures

/-! ## Numbers -/

/-- The request with this number, if it is one that has a number. -/
def numbered (count : U64) (request : LetDD.Request) : LetDD.Request :=
  (request.setID count).getD request

theorem numbered_numbered (count count' : U64) (request : LetDD.Request) :
    numbered count (numbered count' request) = numbered count request := by
  cases request <;> rfl

theorem mutating_numbered (count : U64) (request : LetDD.Request) :
    mutating (numbered count request) = mutating request := by
  cases request <;> rfl

/-- What the ledger answers to a request with its next number. -/
def Serves (log : List StorageWalEntry) (request : LetDD.Request) (response : NetworkResponse)
    (log' : List StorageWalEntry) : Prop :=
  Obliges log (numbered (BitVec.ofNat 64 log.length) request).meaning response log'

theorem Serves.transactions_eq {log log' : List StorageWalEntry} {request : LetDD.Request}
    {response : NetworkResponse} (hserves : Serves log request response log') :
    BitVec.ofNat 64 log'.length =
      if mutating request = true ∧ response.meaning.kind ≠ .error then
        BitVec.ofNat 64 log.length + 1
      else BitVec.ofNat 64 log.length := by
  rw [Serves] at hserves
  rw [← mutating_numbered (BitVec.ofNat 64 log.length), ← meaning_operation]
  generalize (numbered (BitVec.ofNat 64 log.length) request).meaning = asked at hserves
  cases hserves with
  | @committed entry requested =>
      have hsucceeds : (entry.data.reply
          (BitVec.ofNat 64 (balanceOf log).length)).succeeds = true := by
        cases entry.data <;> rfl
      have hmutating : asked.operation.isSome = true := by
        rw [requested.operation]
        rfl
      rw [if_pos ⟨hmutating, kind_ne_error hsucceeds⟩, List.length_append, List.length_singleton]
      exact BitVec.ofNat_add ..
  | told tells =>
      have hinquiry : ¬asked.operation.isSome = true := by
        cases asked with
        | addAccount | makeTransfer | updateAccount => nomatch tells
        | magic | getAccount | countDatabase | close => exact Bool.false_ne_true
      rw [if_neg fun hand => hinquiry hand.1]
  | refused => rw [if_neg fun hand => hand.2 rfl]

/-! ## A call -/

/-- Where the client and the server are between two calls. -/
inductive Steady (log : List StorageWalEntry) (client : LetDD.Client) (service : Service) : Prop
  | apart (connection : client.connection = none) (vacant : Vacant log service)
  | calm {connection : Nat} (connected : client.connection = some connection)
      (calm : Calm connection log service)
      (counted : client.transactions = BitVec.ofNat 64 log.length)
  | lost {connection : Nat} (connected : client.connection = some connection)
      (lost : Lost connection log service)

structure Between (log : List StorageWalEntry) (client : LetDD.Client)
    (around : Surroundings) : Prop where
  steady : Steady log client around.service
  undone : around.contextDone = false
  unused : client.supervisor.currentTry = 0
  many : 2 ≤ client.supervisor.cancelAfter

open LetDD.Client (Communicate)

/-- Between two rounds of the loop. Only a connection that was lost before the
call takes a second round. -/
structure Rounding (log : List StorageWalEntry) (request : LetDD.Request) (s : Communicate)
    (around : Surroundings) : Prop where
  steady : Steady log s.client around.service
  undone : around.contextDone = false
  few : s.client.supervisor.currentTry < 2
  unused : s.client.connection ≠ none → s.client.supervisor.currentTry = 0
  many : 2 ≤ s.client.supervisor.cancelAfter
  asked : ∀ count, numbered count s.request = numbered count request
  updates : (s.updateTransactions || mutating s.request) = mutating request

/-- After the loop. -/
structure Responded (log : List StorageWalEntry) (request : LetDD.Request) (s : Communicate)
    (around : Surroundings) (connection : Nat) (response : NetworkResponse)
    (log' : List StorageWalEntry) : Prop where
  serves : Serves log request response log'
  outcome : s.outcome = some (.ok response.meaning)
  updates : s.updateTransactions = mutating request
  connected : s.client.connection = some connection
  counted : s.client.transactions = BitVec.ofNat 64 log.length
  many : 2 ≤ s.client.supervisor.cancelAfter
  rested : Within (Rested connection
    (numbered (BitVec.ofNat 64 log.length) request).meaning log') around

section Rounds

variable {around : Surroundings} {connection : Nat} {log : List StorageWalEntry}
  {request : LetDD.Request} {s : Communicate}
  {post : Communicate ⊕ Communicate → Surroundings → Prop}

theorem exchange_eq (s : Communicate) (connection : Nat) :
    LetDD.Client.exchange s connection =
      LetDD.Client.transmit { s with
        request := numbered s.client.transactions s.request
        updateTransactions := s.updateTransactions || mutating s.request } connection := by
  cases hset : s.request.setID s.client.transactions with
  | none =>
      rw [LetDD.Client.exchange_of_none connection hset, numbered, hset,
        mutating_of_setID_none hset, Bool.or_false]
      rfl
  | some asked =>
      rw [LetDD.Client.exchange_of_some connection hset, numbered, hset,
        (mutating_of_setID hset).1, Bool.or_true]
      rfl

theorem exchange_fares (hasked : ∀ count, numbered count s.request = numbered count request)
    (hupdates : (s.updateTransactions || mutating s.request) = mutating request)
    (hconnected : s.client.connection = some connection)
    (hcounted : s.client.transactions = BitVec.ofNat 64 log.length)
    (hmany : 2 ≤ s.client.supervisor.cancelAfter) (hwithin : Within (Calm connection log) around)
    (hroom : log.length < 2 ^ 56)
    (hpost : ∀ s' around' response log', Responded log request s' around' connection response log' →
      post (.inr s') around') :
    Fares post (LetDD.Client.exchange s connection) around := by
  rw [exchange_eq]
  refine .bind (send_fares ⟨hwithin.undone, .inr hwithin.holds⟩ fun around' hunderway => ?_)
  refine .bind (receive_fares hunderway hroom fun around'' response log' hobliges hrested => ?_)
  refine .pure trivial (hpost _ around'' response log' ?_)
  dsimp only at hobliges hrested
  rw [hcounted, hasked] at hobliges hrested
  exact ⟨hobliges, rfl, hupdates, hconnected, hcounted, hmany, hrested⟩

theorem exchange_lost_fares (hconnected : s.client.connection = some connection)
    (hwithin : Within (Lost connection log) around)
    (hpost : ∀ around', Within (Vacant log) around' →
      post (.inl { s with
        client := { s.client with connection := none }
        request := numbered s.client.transactions s.request
        updateTransactions := s.updateTransactions || mutating s.request
        outcome := some (.error ()) }) around') :
    Fares post (LetDD.Client.exchange s connection) around := by
  rw [exchange_eq]
  refine .bind (lost_send_fares hwithin fun whole around' hlost => ?_)
  have hdisconnect {around : Surroundings} (hlost : Within (Lost connection log) around) :
      Fares post (do
        let client ← s.client.disconnect
        return .inl { s with
          client
          request := numbered s.client.transactions s.request
          updateTransactions := s.updateTransactions || mutating s.request
          outcome := some (.error ()) }) around := by
    refine .bind (disconnect_fares hconnected ⟨hlost.undone, .inr hlost.holds⟩ ?_)
    intro around' hvacant
    exact .pure trivial (hpost around' hvacant)
  cases whole with
  | false => exact hdisconnect hlost
  | true => exact .bind (lost_receive_fares hlost fun around'' hlost => hdisconnect hlost)

/-- The request is answered in the first round, or in the second if the
connection was lost. -/
theorem Rounding.round_fares (hrounding : Rounding log request s around)
    (hroom : log.length < 2 ^ 56)
    (hagain : ∀ s' around', Rounding log request s' around' →
      s'.client.supervisor.currentTry = s.client.supervisor.currentTry + 1 → post (.inl s') around')
    (hover : ∀ s' around' connection response log',
      Responded log request s' around' connection response log' → post (.inr s') around') :
    Fares post (LetDD.Client.communicateRound s) around := by
  cases hrounding.steady with
  | apart hnone hvacant =>
      refine .bind (try_fares lasts_vacant ⟨hrounding.undone, hvacant⟩ hrounding.few
        hrounding.many ?_)
      intro around' hvacant
      dsimp only
      rw [if_pos rfl]
      refine .bind (connect_fares hnone hvacant hroom ?_)
      intro c' connection around'' hconnected hcounted hsupervisor hcalm
      dsimp only
      rw [hconnected]
      refine exchange_fares hrounding.asked hrounding.updates hconnected hcounted ?_ hcalm hroom
        fun s' last => hover s' last connection
      rw [hsupervisor]
      exact hrounding.many
  | @calm connection hconnected hcalm hcounted =>
      refine .bind (try_fares lasts_calm ⟨hrounding.undone, hcalm⟩ hrounding.few hrounding.many ?_)
      intro around' hcalm
      dsimp only
      rw [if_pos rfl, LetDD.Client.connect, hconnected]
      refine .bind (.pure trivial ?_)
      exact exchange_fares hrounding.asked hrounding.updates rfl hcounted hrounding.many hcalm
        hroom fun s' last => hover s' last connection
  | @lost connection hconnected hlost =>
      have hunused : s.client.supervisor.currentTry = 0 :=
        hrounding.unused (by rw [hconnected]; exact Option.some_ne_none _)
      refine .bind (try_fares lasts_lost ⟨hrounding.undone, hlost⟩ hrounding.few hrounding.many ?_)
      intro around' hlost
      dsimp only
      rw [if_pos rfl, LetDD.Client.connect, hconnected]
      refine .bind (.pure trivial ?_)
      refine exchange_lost_fares rfl hlost fun around'' hvacant => hagain _ around'' ?_ rfl
      refine ⟨.apart rfl hvacant.holds, hvacant.undone, ?_, fun hsome => (hsome rfl).elim,
        hrounding.many, ?_, ?_⟩
      · change s.client.supervisor.currentTry + 1 < 2
        rw [hunused]
        decide
      · intro count
        rw [numbered_numbered, hrounding.asked]
      · rw [mutating_numbered, Bool.or_assoc, Bool.or_self]
        exact hrounding.updates

theorem Responded.done_fares {response : NetworkResponse} {log' : List StorageWalEntry}
    (hresponded : Responded log request s around connection response log') :
    Fares (fun returned around' => returned.1 = .ok response.meaning ∧
        Between log' returned.2 around') (LetDD.Client.communicateDone s) around := by
  have hcount := hresponded.serves.transactions_eq
  refine .bind (contextErr_fares lasts_rested hresponded.rested fun around' hrested => ?_)
  have hbetween (client : LetDD.Client) (hconnected : client.connection = some connection)
      (hcounted : client.transactions = BitVec.ofNat 64 log'.length)
      (hsupervisor : client.supervisor = s.client.supervisor.reset) :
      Between log' client around' := by
    refine ⟨?_, hrested.undone, by rw [hsupervisor]; rfl, ?_⟩
    · rcases hrested.holds with hcalm | ⟨_, hlost⟩
      · exact .calm hconnected hcalm hcounted
      · exact .lost hconnected hlost
    · rw [hsupervisor]
      exact hresponded.many
  rw [if_neg (by decide), hresponded.outcome]
  dsimp only
  rw [hresponded.updates]
  split
  next hcommitted =>
    refine .pure trivial ⟨rfl, hbetween _ hresponded.connected ?_ rfl⟩
    rw [hcount, if_pos hcommitted]
    exact congrArg (· + 1) hresponded.counted
  next hcommitted =>
    refine .pure trivial ⟨rfl, hbetween _ hresponded.connected ?_ rfl⟩
    rw [hcount, if_neg hcommitted]
    exact hresponded.counted

/-- A call returns the response of the ledger. -/
theorem Between.communicate_fares {client : LetDD.Client} (hbetween : Between log client around)
    (hroom : log.length < 2 ^ 56) :
    Fares (fun returned around' => ∃ response log', returned.1 = .ok response.meaning ∧
        Serves log request response log' ∧ Between log' returned.2 around')
      (client.communicate request) around.begin := by
  have hloop : Fares (fun s around' => ∃ connection response log',
        Responded log request s around' connection response log')
      (Program.iterate LetDD.Client.communicateRound { client, request }) around.begin := by
    refine .iterate (Rounding log request)
      (fun s _ => 2 - s.client.supervisor.currentTry.toNat) ?_ ?_
    · intro s around hrounding
      refine hrounding.round_fares hroom ?_ fun s' around' connection response log' hresponded =>
        ⟨connection, response, log', hresponded⟩
      intro s' around' hagain hcount
      refine ⟨hagain, ?_⟩
      have hfew := hrounding.few
      rw [hcount]
      bv_omega
    · refine ⟨hbetween.steady, rfl, ?_, fun _ => hbetween.unused, hbetween.many, fun _ => rfl, rfl⟩
      change client.supervisor.currentTry < 2
      rw [hbetween.unused]
      decide
  refine .bind (hloop.weaken ?_)
  rintro s around' ⟨connection, response, log', hresponded⟩
  refine hresponded.done_fares.weaken ?_
  rintro returned around'' ⟨hresult, hbetween⟩
  exact ⟨response, log', hresult, hresponded.serves, hbetween⟩

end Rounds

/-! ## Many calls -/

/-- The calls so far with their results. Nothing fails while a call is made.
Before a call the server may lose the connection on which nothing is under way,
or be started again with its log, and the client may close its connection. -/
inductive Dialogue (client : LetDD.Client) (around : Surroundings) :
    List (LetDD.Request × Except LetDD.CommunicateError LetDD.Response) → LetDD.Client →
      Surroundings → Prop
  | start : Dialogue client around [] client around
  | call {calls : List (LetDD.Request × Except LetDD.CommunicateError LetDD.Response)}
      {client' client'' : LetDD.Client} {around' around'' : Surroundings} {request : LetDD.Request}
      {result : Except LetDD.CommunicateError LetDD.Response}
      (dialogue : Dialogue client around calls client' around')
      (returned : fairNetwork.Returns (client'.communicate request) around'.begin
        (result, client'') around'') :
      Dialogue client around (calls ++ [(request, result)]) client'' around''
  | works {calls : List (LetDD.Request × Except LetDD.CommunicateError LetDD.Response)}
      {client' : LetDD.Client} {around' : Surroundings} {service : Service}
      (dialogue : Dialogue client around calls client' around')
      (worked : Works around'.service service) :
      Dialogue client around calls client' { around' with service }
  | drops {calls : List (LetDD.Request × Except LetDD.CommunicateError LetDD.Response)}
      {client' : LetDD.Client} {around' : Surroundings} {context context' : Let} {world : World}
      (dialogue : Dialogue client around calls client' around')
      (reading : around'.service.point = .reading context)
      (stepped : (system false).Returns (letRunStep around'.service.point) around'.service.world
        (.accepting context') world) :
      Dialogue client around calls client'
        { around' with service := around'.service.advance (.accepting context') world }
  | restarts {calls : List (LetDD.Request × Except LetDD.CommunicateError LetDD.Response)}
      {client' : LetDD.Client} {around' : Surroundings} {context : Let} {world : World}
      (dialogue : Dialogue client around calls client' around')
      (reachable : Reachable (.accepting context) world)
      (kept : logOf world.disk = logOf around'.service.world.disk) :
      Dialogue client around calls client'
        { around' with
          service :=
            { around'.service with
              point := .accepting context, world, accepted := around'.service.dialed } }
  | closes {calls : List (LetDD.Request × Except LetDD.CommunicateError LetDD.Response)}
      {client' client'' : LetDD.Client} {around' around'' : Surroundings}
      (dialogue : Dialogue client around calls client' around')
      (returned : fairNetwork.Returns client'.disconnect around' client'' around'') :
      Dialogue client around calls client'' around''

/-- Every call has returned the response of a ledger that serves one after the
other, each with its next number. -/
inductive Fulfilled (first : List StorageWalEntry) :
    List (LetDD.Request × Except LetDD.CommunicateError LetDD.Response) →
      List StorageWalEntry → Prop
  | nil : Fulfilled first [] first
  | concat {calls : List (LetDD.Request × Except LetDD.CommunicateError LetDD.Response)}
      {request : LetDD.Request} {response : NetworkResponse} {before after : List StorageWalEntry}
      (fulfilled : Fulfilled first calls before) (serves : Serves before request response after) :
      Fulfilled first (calls ++ [(request, .ok response.meaning)]) after

section Dialogues

variable {client client' : LetDD.Client} {around around' : Surroundings} {service : Service}
  {first log : List StorageWalEntry}
  {calls : List (LetDD.Request × Except LetDD.CommunicateError LetDD.Response)}

theorem Fulfilled.length_le (hfulfilled : Fulfilled first calls log) :
    log.length ≤ first.length + calls.length := by
  induction hfulfilled with
  | nil => exact Nat.le_refl _
  | concat _ serves ih =>
      have hlength := Obliges.length_le serves
      rw [List.length_append, List.length_singleton]
      omega

theorem Free.up (hfree : Free log service) : Up log service := by
  cases hfree with
  | accepting up => exact up
  | leaving up => exact up

theorem Steady.up (hsteady : Steady log client service) : Up log service := by
  cases hsteady with
  | apart _ vacant => exact vacant.1.up
  | calm _ calm => exact calm.1.held.up
  | lost _ lost => exact lost.1.up

theorem Starts.between (hstarts : Starts client around)
    (hmany : 2 ≤ client.supervisor.cancelAfter) :
    Between (logOf around.service.world.disk) client around := by
  obtain @⟨address, observer, context, world, unused, reachable⟩ := hstarts
  obtain ⟨log, hagrees⟩ := reachable.agrees fun _ heq => by cases heq
  have hraised : world.accepting = true := reachable.raised context rfl
  rw [logOf_agrees hagrees]
  have hup : Up log { point := .accepting context, world, initial := recordCount world.disk } :=
    ⟨hagrees, hraised, Nat.le_refl 0, fun _ _ => rfl⟩
  refine ⟨.apart rfl ⟨.accepting hup rfl, rfl⟩, rfl, ?_, hmany⟩
  cases observer with
  | none => rfl
  | some s => exact unused s rfl

theorem Steady.works {service' : Service} (hsteady : Steady log client service)
    (hworks : Works service service') : Steady log client service' := by
  cases hsteady with
  | apart none vacant => exact .apart none (lasts_vacant _ _ vacant hworks)
  | calm connected calm counted => exact .calm connected (lasts_calm _ _ calm hworks) counted
  | lost connected lost => exact .lost connected (lasts_lost _ _ lost hworks)

/-- The client finds out only by its next call. -/
theorem Steady.drops {context context' : Let} {world : World}
    (hsteady : Steady log client service) (hreading : service.point = .reading context)
    (hstepped : (system false).Returns (letRunStep service.point) service.world
      (.accepting context') world) :
    Steady log client (service.advance (.accepting context') world) := by
  have hraised : world.accepting = true := letRunStep_raised _ _ _ hstepped context' rfl
  rw [hreading] at hstepped
  have htalked : Talked (.reading context) service.world (.accepting context') world :=
    talked_of_returns (by intro _ _ heq; cases heq) hstepped
  cases htalked with
  | ended ended hcontext disk sent =>
      obtain ⟨chunk, hchunk, hsent⟩ := sent (by intro _ heq; cases heq)
      rw [List.prefix_nil.mp hchunk, List.append_nil] at hsent
      have hagrees : Agrees log context' world.disk := by
        have hagrees := hsteady.up.agrees
        rw [hreading] at hagrees
        rw [show context' = _ from hcontext, disk]
        exact hagrees.withError _
      cases hsteady with
      | apart none vacant =>
          obtain ⟨hfree, hall⟩ := vacant
          cases hfree with
          | accepting _ point => nomatch hreading.symm.trans point
          | leaving up _ accepted =>
              exact .apart none ⟨.accepting (up.advance accepted hagrees hraised) rfl, hall⟩
      | @calm connection connected calm counted =>
          obtain ⟨hattends, htaken⟩ := calm
          have hheld := hattends.held
          have haccepted : 0 < service.accepted := hheld.accepted ▸ Nat.succ_pos connection
          have hup : Up log (service.advance (.accepting context') world) :=
            hheld.up.advance haccepted hagrees hraised
          refine .lost connected ⟨⟨hup, ⟨_, rfl⟩, ?_, ?_⟩, ?_⟩
          · exact hheld.accepted.trans hheld.dialed.symm
          · exact hheld.dialed ▸ Nat.lt_succ_self connection
          · rw [hheld.advance_link]
            refine Link.pending_eq_nil ?_
            change (service.links connection).taken = world.sent.length
            rw [hsent, ← hheld.sent]
            exact htaken
      | lost _ lost =>
          obtain ⟨context', hpoint⟩ := lost.1.point
          nomatch hreading.symm.trans hpoint

theorem Steady.restarts {context : Let} {world : World} (hsteady : Steady log client service)
    (hreachable : Reachable (.accepting context) world)
    (hkept : logOf world.disk = logOf service.world.disk) :
    Steady log client
      { service with point := .accepting context, world, accepted := service.dialed } := by
  obtain ⟨log', hagrees⟩ := hreachable.agrees fun _ heq => by cases heq
  have hraised : world.accepting = true := hreachable.raised context rfl
  obtain rfl : log' = log := by
    rw [logOf_agrees hagrees, logOf_agrees hsteady.up.agrees] at hkept
    exact hkept
  have hup : Up log'
      { service with point := .accepting context, world, accepted := service.dialed } :=
    ⟨hagrees, hraised, Nat.le_refl _, hsteady.up.undialed⟩
  cases hsteady with
  | apart none => exact .apart none ⟨.accepting hup rfl, rfl⟩
  | @calm connection connected calm =>
      refine .lost connected ⟨⟨hup, ⟨_, rfl⟩, rfl, ?_⟩, ?_⟩
      · change connection < service.dialed
        rw [calm.1.held.dialed]
        exact Nat.lt_succ_self connection
      · exact Link.pending_eq_nil calm.2
  | lost connected lost => exact .lost connected ⟨⟨hup, ⟨_, rfl⟩, rfl, lost.1.dialed⟩, lost.2⟩

theorem Between.disconnect_fares (hbetween : Between log client around) :
    Fares (fun client' around' => Between log client' around') client.disconnect around := by
  cases hbetween.steady with
  | apart none vacant =>
      rw [LetDD.Client.disconnect, none]
      exact .pure trivial hbetween
  | calm connected calm =>
      refine Wire.disconnect_fares connected ⟨hbetween.undone, .inl calm⟩ fun around' hvacant => ?_
      exact ⟨.apart rfl hvacant.holds, hvacant.undone, hbetween.unused, hbetween.many⟩
  | lost connected lost =>
      refine Wire.disconnect_fares connected ⟨hbetween.undone, .inr lost⟩ fun around' hvacant => ?_
      exact ⟨.apart rfl hvacant.holds, hvacant.undone, hbetween.unused, hbetween.many⟩

theorem Dialogue.between (hdialogue : Dialogue client around calls client' around')
    (hstart : Between first client around) (hroom : first.length + calls.length ≤ 2 ^ 56) :
    ∃ log, Fulfilled first calls log ∧ Between log client' around' := by
  induction hdialogue with
  | start => exact ⟨first, .nil, hstart⟩
  | call _ returned ih =>
      rw [List.length_append, List.length_singleton] at hroom
      obtain ⟨log, hfulfilled, hbetween⟩ := ih (by omega)
      have hlength := hfulfilled.length_le
      obtain ⟨response, log', rfl, hserves, hbetween'⟩ :=
        (hbetween.communicate_fares (by omega)).returns returned
      exact ⟨log', hfulfilled.concat hserves, hbetween'⟩
  | works _ worked ih =>
      obtain ⟨log, hfulfilled, hbetween⟩ := ih hroom
      exact ⟨log, hfulfilled, hbetween.steady.works worked, hbetween.undone, hbetween.unused,
        hbetween.many⟩
  | drops _ reading stepped ih =>
      obtain ⟨log, hfulfilled, hbetween⟩ := ih hroom
      exact ⟨log, hfulfilled, hbetween.steady.drops reading stepped, hbetween.undone,
        hbetween.unused, hbetween.many⟩
  | restarts _ reachable kept ih =>
      obtain ⟨log, hfulfilled, hbetween⟩ := ih hroom
      exact ⟨log, hfulfilled, hbetween.steady.restarts reachable kept, hbetween.undone,
        hbetween.unused, hbetween.many⟩
  | closes _ returned ih =>
      obtain ⟨log, hfulfilled, hbetween⟩ := ih hroom
      exact ⟨log, hfulfilled, hbetween.disconnect_fares.returns returned⟩

/-- Every call has returned what the ledger answers, and so does the next one. -/
theorem every_call_answered (hstarts : Starts client around)
    (hmany : 2 ≤ client.supervisor.cancelAfter)
    (hdialogue : Dialogue client around calls client' around')
    (hroom : (logOf around.service.world.disk).length + calls.length < 2 ^ 56)
    (request : LetDD.Request) :
    Fulfilled (logOf around.service.world.disk) calls (logOf around'.service.world.disk) ∧
      Fares (fun returned around'' =>
          Fulfilled (logOf around.service.world.disk) (calls ++ [(request, returned.1)])
            (logOf around''.service.world.disk))
        (client'.communicate request) around'.begin := by
  obtain ⟨log, hfulfilled, hbetween⟩ := hdialogue.between (hstarts.between hmany) (by omega)
  have hlength := hfulfilled.length_le
  have hlog : logOf around'.service.world.disk = log := logOf_agrees hbetween.steady.up.agrees
  refine ⟨hlog ▸ hfulfilled, (hbetween.communicate_fares (by omega)).weaken ?_⟩
  rintro ⟨result, client''⟩ around'' ⟨response, log', rfl, hserves, hbetween'⟩
  rw [logOf_agrees hbetween'.steady.up.agrees]
  exact hfulfilled.concat hserves

theorem log_fresh : logOf freshAround.service.world.disk = [] :=
  logOf_eq (List.append_nil _).symm (by decide)

theorem many_fresh : 2 ≤ freshClient.supervisor.cancelAfter := by decide

/-- The server is started again before the client opens an account. -/
theorem exists_opening : ∃ result client' around', Dialogue freshClient freshAround
    [(.addAccount 0 ⟨0, 0⟩ ⟨0, 0⟩ 0, result)] client' around' := by
  have hagain : Dialogue freshClient freshAround [] freshClient freshAround :=
    Dialogue.start.restarts reachable_fresh rfl
  have hbetween : Between [] freshClient freshAround := by
    have hbetween := starts_fresh.between many_fresh
    rwa [log_fresh] at hbetween
  have hopening : Fares _ (freshClient.communicate (.addAccount 0 ⟨0, 0⟩ ⟨0, 0⟩ 0))
      freshAround.begin := hbetween.communicate_fares (by decide)
  obtain ⟨⟨result, client'⟩, around', hreturned⟩ := hopening.exists_returns
  exact ⟨result, client', around', hagain.call hreturned⟩

/-- The account that was opened after the start is counted. -/
theorem every_call_answered_opening : ∃ calls client' around',
    Dialogue freshClient freshAround calls client' around' ∧ calls.length = 1 ∧
    Fulfilled [] calls (logOf around'.service.world.disk) ∧
    Fares (fun returned around'' =>
        Fulfilled [] (calls ++ [(.countDatabase, returned.1)]) (logOf around''.service.world.disk))
      (client'.communicate .countDatabase) around'.begin := by
  obtain ⟨result, client', around', hdialogue⟩ := exists_opening
  have hroom : (logOf freshAround.service.world.disk).length + 1 < 2 ^ 56 := by
    rw [log_fresh]
    decide
  have hanswered := every_call_answered starts_fresh many_fresh hdialogue hroom .countDatabase
  rw [log_fresh] at hanswered
  exact ⟨_, client', around', hdialogue, rfl, hanswered⟩

end Dialogues

end LetDX.Wire
