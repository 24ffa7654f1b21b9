import LetDX.Wire.Traffic

/-! # Replies to the requests of a call

Between two exchanges as many lines were read from the connection as were
written to it. A request is then answered by the next line, and whatever goes
wrong before that line was read and understood costs the connection.
-/

namespace LetDX.Wire.Traffic

open Bytes Effects LetDB

variable {traffic traffic' : Traffic} {connection : Nat}

/-! ## States of a connection -/

/-- Nothing has happened on connections that were not dialed. -/
def Orderly (traffic : Traffic) : Prop :=
  ∀ connection, traffic.dialed ≤ connection →
    traffic.written connection = [] ∧ traffic.taken connection = 0

/-- So many lines were read from the connection, and no part of another one. -/
def Read (connection count : Nat) (traffic : Traffic) : Prop :=
  ∃ past pending, traffic.sent connection = past ++ pending ∧
    traffic.taken connection = past.length ∧ Whole asciiNewline past ∧
    (lines asciiNewline past).length = count

/-- Every line that was written to the connection has its answer read. -/
structure Level (connection : Nat) (traffic : Traffic) : Prop where
  dialed : connection < traffic.dialed
  whole : Whole asciiNewline (traffic.written connection)
  read : Read connection (traffic.requests connection).length traffic

/-- The connection was level until the request was written to it. -/
structure Await (connection : Nat) (request : LetDD.Request) (earlier : List Transmission)
    (sending : Transmission) (traffic : Traffic) : Prop where
  dialed : connection < traffic.dialed
  transmitted : traffic.transmissions = earlier ++ [sending]
  during : sending.call = traffic.call
  upon : sending.connection = connection
  encoded : request.encode = some sending.bytes
  whole : Whole asciiNewline (bytesOn connection earlier)
  read : Read connection (lines asciiNewline (bytesOn connection earlier)).length traffic

/-- The response is the line of the server that answers the transmission of the
request after the earlier ones. -/
structure Answered (request : LetDD.Request) (response : LetDD.Response)
    (earlier : List Transmission) (sending : Transmission) (traffic : Traffic) : Prop where
  encoded : request.encode = some sending.bytes
  whole : Whole asciiNewline (bytesOn sending.connection earlier)
  answered : ∃ line, LetDD.parseResponse (line ++ [asciiNewline]) = some response ∧
    (traffic.answers sending.connection)[
      (lines asciiNewline (bytesOn sending.connection earlier)).length]? = some line

/-- The handshake was the first line on the connection. -/
def Greeted (connection : Nat) (transmissions : List Transmission) : Prop :=
  (lines asciiNewline (bytesOn connection transmissions)).head? = some [LetDD.character '#']

/-- The other request is the same one, with whatever sequence number. -/
def Renumbered (request other : LetDD.Request) : Prop :=
  other = request ∨ ∃ id, request.setID id = some other

/-- The response is the answer to the last transmission of the call, which was
one of the request, after the handshake. -/
inductive Paired (call : Nat) (request : LetDD.Request) (response : LetDD.Response)
    (traffic : Traffic) : Prop
  | intro {asked : LetDD.Request} {earlier later : List Transmission} {sending : Transmission}
      (transmitted : traffic.transmissions = earlier ++ sending :: later)
      (during : sending.call = call)
      (last : ∀ other ∈ later, other.call ≠ call)
      (same : Renumbered request asked)
      (greeted : Greeted sending.connection earlier)
      (answered : Answered asked response earlier sending traffic)

/-- Between two exchanges the client's connection is level. -/
structure Settled (client : LetDD.Client) (traffic : Traffic) : Prop where
  orderly : Orderly traffic
  level : ∀ connection, client.connection = some connection → Level connection traffic
  greeted : ∀ connection, client.connection = some connection →
    Greeted connection traffic.transmissions

/-! ## The server sends more -/

namespace Extends

variable (hextends : Extends traffic traffic')
include hextends

theorem orderly (horderly : Orderly traffic) : Orderly traffic' := by
  intro connection hconnection
  rw [hextends.dialed_eq] at hconnection
  rw [hextends.written_eq, hextends.taken_eq]
  exact horderly connection hconnection

theorem read {count : Nat} (hread : Read connection count traffic) :
    Read connection count traffic' := by
  obtain ⟨past, pending, hsent, htaken, hwhole, hcount⟩ := hread
  obtain ⟨more, hmore⟩ := hextends.sent_prefix connection
  refine ⟨past, pending ++ more, ?_, ?_, hwhole, hcount⟩
  · rw [← hmore, hsent, List.append_assoc]
  · rw [hextends.taken_eq, htaken]

theorem level (hlevel : Level connection traffic) : Level connection traffic' where
  dialed := hextends.dialed_eq ▸ hlevel.dialed
  whole := hextends.written_eq connection ▸ hlevel.whole
  read := by
    rw [requests, hextends.written_eq]
    exact hextends.read hlevel.read

theorem await {request : LetDD.Request} {earlier : List Transmission} {sending : Transmission}
    (hawait : Await connection request earlier sending traffic) :
    Await connection request earlier sending traffic' where
  dialed := hextends.dialed_eq ▸ hawait.dialed
  transmitted := hextends.transmissions_eq.trans hawait.transmitted
  during := hawait.during.trans hextends.call_eq.symm
  upon := hawait.upon
  encoded := hawait.encoded
  whole := hawait.whole
  read := hextends.read hawait.read

theorem answered {request : LetDD.Request} {response : LetDD.Response}
    {earlier : List Transmission} {sending : Transmission}
    (hanswered : Answered request response earlier sending traffic) :
    Answered request response earlier sending traffic' := by
  obtain ⟨line, hparse, hline⟩ := hanswered.answered
  exact ⟨hanswered.encoded, hanswered.whole, line, hparse,
    answers_getElem?_of_prefix (hextends.sent_prefix _) hline⟩

theorem paired {call : Nat} {request : LetDD.Request} {response : LetDD.Response}
    (hpaired : Paired call request response traffic) :
    Paired call request response traffic' := by
  obtain ⟨transmitted, during, last, same, greeted, answered⟩ := hpaired
  exact .intro (hextends.transmissions_eq.trans transmitted) during last same greeted
    (hextends.answered answered)

theorem settled {client : LetDD.Client} (hsettled : Settled client traffic) :
    Settled client traffic' where
  orderly := hextends.orderly hsettled.orderly
  level connection hconnection := hextends.level (hsettled.level connection hconnection)
  greeted connection hconnection :=
    hextends.transmissions_eq ▸ hsettled.greeted connection hconnection

end Extends

theorem Settled.none {client : LetDD.Client} (horderly : Orderly traffic)
    (hnone : client.connection = none) : Settled client traffic := by
  refine ⟨horderly, ?_, ?_⟩ <;> intro connection hconnection
  · nomatch hnone.symm.trans hconnection
  · nomatch hnone.symm.trans hconnection

/-! ## The client writes and reads -/

theorem Orderly.write (horderly : Orderly traffic) (hdialed : connection < traffic.dialed)
    (bytes : List U8) : Orderly (traffic.write connection bytes) := by
  intro other hother
  have hapart : connection ≠ other := Nat.ne_of_lt (Nat.lt_of_lt_of_le hdialed hother)
  change bytesOn other (traffic.transmissions ++ [⟨traffic.call, connection, bytes⟩]) = [] ∧ _
  rw [bytesOn_concat_other _ _ hapart]
  exact horderly other hother

theorem Orderly.take (horderly : Orderly traffic) (hdialed : connection < traffic.dialed)
    (count : Nat) : Orderly (traffic.take connection count) := by
  intro other hother
  have hapart : other ≠ connection := Nat.ne_of_gt (Nat.lt_of_lt_of_le hdialed hother)
  refine ⟨(horderly other hother).1, ?_⟩
  change Function.update traffic.taken connection _ other = 0
  rw [Function.update_of_ne hapart]
  exact (horderly other hother).2

theorem Orderly.dial (horderly : Orderly traffic) :
    Orderly { traffic with dialed := traffic.dialed + 1 } :=
  fun connection hconnection => horderly connection (Nat.le_of_succ_le hconnection)

/-- A new connection is level, since nothing was written to it. -/
theorem Orderly.level_dial (horderly : Orderly traffic) :
    Level traffic.dialed { traffic with dialed := traffic.dialed + 1 } ∧
      bytesOn traffic.dialed traffic.transmissions = [] := by
  obtain ⟨hwritten, htaken⟩ := horderly traffic.dialed (Nat.le_refl _)
  refine ⟨⟨Nat.lt_succ_self _, ?_, [], traffic.sent traffic.dialed, rfl, htaken, .nil, ?_⟩,
    hwritten⟩
  · change Whole asciiNewline (traffic.written traffic.dialed)
    rw [hwritten]
    exact .nil
  · change _ = (lines asciiNewline (traffic.written traffic.dialed)).length
    rw [hwritten]

theorem Level.write {request : LetDD.Request} {bytes : List U8}
    (hlevel : Level connection traffic) (hencode : request.encode = some bytes) :
    Await connection request traffic.transmissions ⟨traffic.call, connection, bytes⟩
      (traffic.write connection bytes) where
  dialed := hlevel.dialed
  transmitted := rfl
  during := rfl
  upon := rfl
  encoded := hencode
  whole := hlevel.whole
  read := hlevel.read

/-- Every request is one line. -/
theorem encode_line {request : LetDD.Request} {bytes : List U8}
    (hencode : request.encode = some bytes) :
    ∃ body, bytes = body ++ [asciiNewline] ∧ asciiNewline ∉ body := by
  rw [request.encode_eq] at hencode
  exact ⟨_, (Option.some.inj hencode).symm, request.meaning.newline_notMem_line⟩

theorem Read.pending_eq {count : Nat} (hread : Read connection count traffic) :
    ∃ past, traffic.sent connection = past ++ traffic.pending connection ∧
      traffic.taken connection = past.length ∧ Whole asciiNewline past ∧
      (lines asciiNewline past).length = count := by
  obtain ⟨past, pending, hsent, htaken, hwhole, hcount⟩ := hread
  refine ⟨past, ?_, htaken, hwhole, hcount⟩
  rw [Traffic.pending, htaken, hsent, List.drop_left]

/-- The next line is the answer of the same number. -/
theorem Read.take {count : Nat} {line : List U8} (hread : Read connection count traffic)
    (hline : (lines asciiNewline (traffic.pending connection)).head? = some line) :
    (traffic.answers connection)[count]? = some line ∧
      Read connection (count + 1) (traffic.take connection (line.length + 1)) := by
  obtain ⟨past, hsent, htaken, hwhole, hcount⟩ := hread.pending_eq
  obtain ⟨hbody, rest, hpending⟩ := head_lines hline
  constructor
  · rw [answers, hsent, hwhole.lines_append, ← hcount, List.getElem?_append_right (Nat.le_refl _),
      Nat.sub_self, ← List.head?_eq_getElem?]
    exact hline
  · refine ⟨past ++ (line ++ [asciiNewline]), rest, ?_, ?_, hwhole.append (.single hbody), ?_⟩
    · change traffic.sent connection = _
      rw [hsent, hpending]
      simp
    · simp [Traffic.take, htaken]
    · rw [hwhole.length_lines_concat hbody, hcount]

theorem Await.take {request : LetDD.Request} {response : LetDD.Response}
    {earlier : List Transmission} {sending : Transmission} {line : List U8}
    (hawait : Await connection request earlier sending traffic)
    (hline : (lines asciiNewline (traffic.pending connection)).head? = some line)
    (hparse : LetDD.parseResponse (line ++ [asciiNewline]) = some response) :
    Level connection (traffic.take connection (line.length + 1)) ∧
      Answered request response earlier sending (traffic.take connection (line.length + 1)) := by
  obtain ⟨hanswer, hread⟩ := hawait.read.take hline
  obtain ⟨body, hbytes, hbody⟩ := encode_line hawait.encoded
  obtain ⟨call, upon, bytes⟩ := sending
  obtain rfl : upon = connection := hawait.upon
  have hwritten : (traffic.take upon (line.length + 1)).written upon =
      bytesOn upon earlier ++ (body ++ [asciiNewline]) := by
    change bytesOn upon traffic.transmissions = _
    rw [hawait.transmitted, bytesOn_concat_self, ← hbytes]
  refine ⟨⟨hawait.dialed, ?_, ?_⟩, hawait.encoded, hawait.whole, line, hparse, hanswer⟩
  · rw [hwritten]
    exact hawait.whole.append (.single hbody)
  · rw [requests, hwritten, hawait.whole.length_lines_concat hbody]
    exact hread

/-- What is written later leaves the handshake the first line. -/
theorem Greeted.concat {earlier : List Transmission} {call : Nat} {bytes : List U8}
    (hgreeted : Greeted connection earlier) :
    Greeted connection (earlier ++ [⟨call, connection, bytes⟩]) := by
  have hstarts : lines asciiNewline (bytesOn connection earlier) <+: _ :=
    lines_prefix (bytesOn connection earlier) bytes
  obtain ⟨later, hlater⟩ := hstarts
  rw [Greeted, bytesOn_concat_self, ← hlater, List.head?_append, hgreeted]
  rfl

/-! ## Requests and responses -/

section Procedures

variable {c : LetDD.Client} {request : LetDD.Request}

/-- Calls that read and write nothing. -/
def Idle : LetDD.Syscall → Prop
  | .contextErr | .wait _ | .close _ => True
  | .dial _ | .write .. | .readBytes _ => False

instance : Std.Refl Extends := ⟨Extends.refl⟩

instance : IsTrans Traffic Extends := ⟨fun _ _ _ => Extends.trans⟩

theorem idle_extends (call : LetDD.Syscall) (hidle : Idle call) (traffic : Traffic)
    (answer : call.Answer) (traffic' : Traffic)
    (hperforms : answering.Performs call traffic answer traffic') : Extends traffic traffic' := by
  obtain ⟨⟨sendings, chance⟩, hexec⟩ := hperforms
  have hsame : traffic' = traffic.replies sendings := by
    rw [← show _ = traffic' from congrArg Prod.snd hexec]
    cases call with
    | contextErr | wait | close => rfl
    | dial | write | readBytes => exact hidle.elim
  rw [hsame]
  exact extends_replies traffic sendings

theorem idle_bind {α β : Type} {program : LetDD.Proc α} {f : α → LetDD.Proc β}
    {post : β → Traffic → Prop} (hidle : program.Uses Idle)
    (hnext : ∀ value traffic', Extends traffic traffic' →
      answering.Yields post (f value) traffic') :
    answering.Yields post (program >>= f) traffic :=
  .bind_along idle_extends hidle hnext

theorem Level.send_yields {post : Bool → Traffic → Prop} (hlevel : Level connection traffic)
    (horderly : Orderly traffic) (hfailed : ∀ traffic', Orderly traffic' → post false traffic')
    (hsent : ∀ traffic' sending, Orderly traffic' →
      Await connection request traffic.transmissions sending traffic' → post true traffic') :
    answering.Yields post (LetDD.Client.sendRequest connection request) traffic := by
  unfold LetDD.Client.sendRequest
  split
  next => exact .fault
  next bytes hencode =>
    refine perform_yields (.write connection bytes) ?_
    intro traffic' failure hextends
    have hlevel' := hextends.level hlevel
    have horderly' := hextends.orderly horderly
    cases (failure : Option Nat) with
    | some count => exact hfailed _ (horderly'.write hlevel'.dialed _)
    | none =>
        have hawait := hlevel'.write hencode
        rw [hextends.transmissions_eq] at hawait
        exact hsent _ _ (horderly'.write hlevel'.dialed _) hawait

/-- The connection and its last transmission after the response was read. -/
structure Heard (connection : Nat) (request : LetDD.Request) (response : LetDD.Response)
    (earlier : List Transmission) (sending : Transmission) (traffic : Traffic) : Prop where
  level : Level connection traffic
  transmitted : traffic.transmissions = earlier ++ [sending]
  during : sending.call = traffic.call
  upon : sending.connection = connection
  answered : Answered request response earlier sending traffic

theorem Await.receive_yields {earlier : List Transmission} {sending : Transmission}
    {post : Option LetDD.Response → Traffic → Prop}
    (hawait : Await connection request earlier sending traffic) (horderly : Orderly traffic)
    (hfailed : ∀ traffic', Orderly traffic' → post none traffic')
    (hreceived : ∀ traffic' response, Orderly traffic' →
      Heard connection request response earlier sending traffic' →
      post (some response) traffic') :
    answering.Yields post (LetDD.Client.receiveResponse connection) traffic := by
  refine .bind (perform_yields (.readBytes connection) ?_)
  intro traffic' failure hextends
  have hawait' := hextends.await hawait
  have horderly' := hextends.orderly horderly
  cases (failure : Option Nat) with
  | some count => exact .pure (hfailed _ (horderly'.take hawait'.dialed count))
  | none =>
      cases hline : (lines asciiNewline (traffic'.pending connection)).head? with
      | none =>
          simp only [act, hline]
          exact .pure (hfailed _ horderly')
      | some line =>
          simp only [act, hline]
          have htaken := horderly'.take hawait'.dialed (line.length + 1)
          cases hparse : LetDD.parseResponse (line ++ [asciiNewline]) with
          | none => exact .pure (hfailed _ htaken)
          | some response =>
              obtain ⟨hlevel, hanswered⟩ := hawait'.take hline hparse
              exact .pure (hreceived _ response htaken
                ⟨hlevel, hawait'.transmitted, hawait'.during, hawait'.upon, hanswered⟩)

theorem disconnect_yields {post : LetDD.Client → Traffic → Prop} (horderly : Orderly traffic)
    (hpost : ∀ traffic', Orderly traffic' → post { c with connection := none } traffic') :
    answering.Yields post c.disconnect traffic := by
  rw [LetDD.Client.disconnect]
  split
  next hnone =>
    have hsame : { c with connection := none } = c := by rw [← hnone]
    exact .pure (hsame ▸ hpost traffic horderly)
  next connection hconnection =>
    apply idle_bind
    · exact .perform trivial
    · intro closed traffic' hextends
      exact .pure (hpost traffic' (hextends.orderly horderly))

theorem handshake_yields {post : Bool × LetDD.Client → Traffic → Prop}
    (hconnection : c.connection = some connection) (hlevel : Level connection traffic)
    (hnew : bytesOn connection traffic.transmissions = []) (horderly : Orderly traffic)
    (hpost : ∀ connected c' traffic', Settled c' traffic' → post (connected, c') traffic') :
    answering.Yields post (c.handshake connection) traffic := by
  have hdisconnect (traffic : Traffic) (horderly : Orderly traffic) :
      answering.Yields post (do let c ← c.disconnect; return (false, c)) traffic := by
    refine .bind (disconnect_yields horderly ?_)
    intro traffic' horderly'
    exact .pure (hpost false _ traffic' (.none horderly' rfl))
  refine .bind (hlevel.send_yields horderly hdisconnect ?_)
  intro traffic' sending horderly' hawait
  refine .bind (hawait.receive_yields horderly' hdisconnect ?_)
  intro traffic' response horderly' hheard
  cases response with
  | countDatabase accounts transactions =>
      refine .pure (hpost true _ traffic' ⟨horderly', ?_, ?_⟩)
      · intro other hother
        obtain rfl := Option.some.inj (hconnection.symm.trans hother)
        exact hheard.level
      · intro other hother
        obtain rfl := Option.some.inj (hconnection.symm.trans hother)
        obtain ⟨call, upon, bytes⟩ := sending
        obtain rfl : upon = connection := hheard.upon
        have hbytes : [LetDD.character '#', LetDD.character '\n'] = bytes :=
          Option.some.inj hheard.answered.encoded
        rw [Greeted, hheard.transmitted, bytesOn_concat_self, hnew, ← hbytes]
        decide
  | magic | addAccount | getAccount | ok | error => exact hdisconnect traffic' horderly'

theorem connect_yields {post : Bool × LetDD.Client → Traffic → Prop} (hsettled : Settled c traffic)
    (hpost : ∀ connected c' traffic', Settled c' traffic' → post (connected, c') traffic') :
    answering.Yields post c.connect traffic := by
  rw [LetDD.Client.connect]
  split
  next connection hconnection => exact .pure (hpost true c traffic hsettled)
  next hnone =>
    refine .bind (perform_yields (.dial c.address) ?_)
    intro traffic' dials hextends
    have hsettled' := hextends.settled hsettled
    -- Neither a failed dial nor the check of the context carries bytes.
    cases (dials : Bool) with
    | false =>
        apply idle_bind
        · exact .perform trivial
        · intro done traffic'' hextends'
          have hsettled'' := hextends'.settled hsettled'
          cases done with
          | false => exact .pure (hpost false c traffic'' hsettled'')
          | true => exact .pure (hpost false c traffic'' hsettled'')
    | true =>
        obtain ⟨hlevel, hnew⟩ := hsettled'.orderly.level_dial
        have horderly := hsettled'.orderly.dial
        apply idle_bind
        · exact .perform trivial
        · intro done traffic'' hextends'
          have horderly' := hextends'.orderly horderly
          cases done with
          | true => exact .pure (hpost false c traffic'' (.none horderly' hnone))
          | false =>
              refine handshake_yields rfl (hextends'.level hlevel) ?_ horderly' hpost
              rw [hextends'.transmissions_eq]
              exact hnew

end Procedures

/-! ## Calls -/

section Rounds

variable {c : LetDD.Client} {request : LetDD.Request} {s : LetDD.Client.Communicate}

/-- At the head of the loop no response has been received. -/
structure Attempting (request : LetDD.Request) (s : LetDD.Client.Communicate)
    (traffic : Traffic) : Prop where
  settled : Settled s.client traffic
  same : Renumbered request s.request
  failed : ∀ response, s.outcome ≠ some (.ok response)

/-- After the loop the response, if any, is the answer to its last transmission. -/
structure Attempted (request : LetDD.Request) (s : LetDD.Client.Communicate)
    (traffic : Traffic) : Prop where
  settled : Settled s.client traffic
  paired : ∀ response, s.outcome = some (.ok response) →
    Paired traffic.call request response traffic

def Rounded (request : LetDD.Request)
    (round : LetDD.Client.Communicate ⊕ LetDD.Client.Communicate) (traffic : Traffic) : Prop :=
  match round with
  | .inl s => Attempting request s traffic
  | .inr s => Attempted request s traffic

theorem Renumbered.setID {other third : LetDD.Request} {id : U64}
    (hsame : Renumbered request other) (hset : other.setID id = some third) :
    Renumbered request third := by
  rcases hsame with rfl | ⟨id', hset'⟩
  · exact .inr ⟨id, hset⟩
  · refine .inr ⟨id, ?_⟩
    cases request with
    | addAccount | makeTransfer | updateAccount =>
        obtain rfl := Option.some.inj hset'
        exact hset
    | magic | getAccount | countDatabase | close => nomatch hset'

theorem Attempting.transmit_yields (hattempting : Attempting request s traffic)
    (hconnection : s.client.connection = some connection) :
    answering.Yields (Rounded request) (LetDD.Client.transmit s connection) traffic := by
  have hsettled := hattempting.settled
  have hdisconnect (traffic : Traffic) (horderly : Orderly traffic) :
      answering.Yields (Rounded request) (do
        let client ← s.client.disconnect
        return .inl { s with client, outcome := some (.error ()) }) traffic := by
    refine .bind (disconnect_yields horderly ?_)
    intro traffic' horderly'
    refine .pure ⟨.none horderly' rfl, hattempting.same, ?_⟩
    intro response hresponse
    cases hresponse
  have hlevel := hsettled.level connection hconnection
  refine .bind (hlevel.send_yields hsettled.orderly hdisconnect ?_)
  intro traffic' sending horderly hawait
  refine .bind (hawait.receive_yields horderly hdisconnect ?_)
  intro traffic' response horderly' hheard
  -- The connection is level again, and nothing was written after the request.
  have hgreeted := hsettled.greeted connection hconnection
  obtain ⟨call, upon, bytes⟩ := sending
  obtain rfl : upon = connection := hheard.upon
  refine .pure ⟨⟨horderly', ?_, ?_⟩, ?_⟩
  · intro other hother
    obtain rfl := Option.some.inj (hconnection.symm.trans hother)
    exact hheard.level
  · intro other hother
    obtain rfl := Option.some.inj (hconnection.symm.trans hother)
    rw [hheard.transmitted]
    exact hgreeted.concat
  · intro response' hresponse
    obtain rfl := Except.ok.inj (Option.some.inj hresponse)
    exact .intro hheard.transmitted hheard.during (by simp) hattempting.same hgreeted
      hheard.answered

theorem Attempting.exchange_yields (hattempting : Attempting request s traffic)
    (hconnection : s.client.connection = some connection) :
    answering.Yields (Rounded request) (LetDD.Client.exchange s connection) traffic := by
  cases hset : s.request.setID s.client.transactions with
  | none =>
      rw [LetDD.Client.exchange_of_none connection hset]
      exact hattempting.transmit_yields hconnection
  | some asked =>
      have hrenumbered : Attempting request
          { s with request := asked, updateTransactions := true } traffic :=
        ⟨hattempting.settled, hattempting.same.setID hset, hattempting.failed⟩
      rw [LetDD.Client.exchange_of_some connection hset]
      exact hrenumbered.transmit_yields hconnection

theorem Attempting.round_yields (hattempting : Attempting request s traffic) :
    answering.Yields (Rounded request) (LetDD.Client.communicateRound s) traffic := by
  apply idle_bind
  · exact LetDD.Supervisor.try_uses trivial (fun _ => trivial) _
  · rintro ⟨proceed, supervisor⟩ traffic' hextends
    have hsettled := hextends.settled hattempting.settled
    have hclient : Settled { s.client with supervisor } traffic' :=
      ⟨hsettled.orderly, hsettled.level, hsettled.greeted⟩
    cases proceed with
    | false =>
        refine .pure ⟨hclient, ?_⟩
        intro response hresponse
        exact (hattempting.failed response hresponse).elim
    | true =>
        refine .bind (connect_yields hclient ?_)
        intro connected c' traffic'' hsettled'
        cases connected with
        | false =>
            refine .pure ⟨hsettled', hattempting.same, ?_⟩
            intro response hresponse
            nomatch hresponse
        | true =>
            cases hconnection : c'.connection with
            | none =>
                dsimp only
                rw [hconnection]
                exact .fault
            | some connection =>
                dsimp only
                rw [hconnection]
                have hround : Attempting request { s with client := c' } traffic'' :=
                  ⟨hsettled', hattempting.same, hattempting.failed⟩
                exact hround.exchange_yields hconnection

theorem Attempted.done_yields (hattempted : Attempted request s traffic) :
    answering.Yields (fun returned traffic' => Settled returned.2 traffic' ∧
      ∀ response, returned.1 = .ok response → Paired traffic'.call request response traffic')
      (LetDD.Client.communicateDone s) traffic := by
  apply idle_bind
  · exact .perform trivial
  · intro done traffic' hextends
    have hsettled := hextends.settled hattempted.settled
    have hclient (transactions : U64) (supervisor : LetDD.Supervisor) :
        Settled { s.client with transactions, supervisor } traffic' :=
      ⟨hsettled.orderly, hsettled.level, hsettled.greeted⟩
    have herror (error : LetDD.CommunicateError) (response : LetDD.Response) :
        (.error error : Except _ LetDD.Response) = .ok response →
          Paired traffic'.call request response traffic' := by
      intro hresponse
      nomatch hresponse
    cases done with
    | true => exact .pure ⟨hclient _ _, herror _⟩
    | false =>
        cases houtcome : s.outcome with
        | none => exact .fault
        | some outcome =>
            cases outcome with
            | error => exact .pure ⟨hclient _ _, herror _⟩
            | ok response =>
                have hpaired : Paired traffic'.call request response traffic' := by
                  rw [hextends.call_eq]
                  exact hextends.paired (hattempted.paired response houtcome)
                have hreturned (response' : LetDD.Response) :
                    (.ok response : Except LetDD.CommunicateError _) = .ok response' →
                      Paired traffic'.call request response' traffic' := by
                  intro hresponse
                  exact Except.ok.inj hresponse ▸ hpaired
                rw [if_neg (by decide)]
                dsimp only
                split
                · exact .pure ⟨hclient _ _, hreturned⟩
                · exact .pure ⟨hclient _ _, hreturned⟩

/-- A call leaves the connection level, and its response is paired. -/
theorem Settled.communicate_yields (hsettled : Settled c traffic) (request : LetDD.Request) :
    answering.Yields (fun returned traffic' => Settled returned.2 traffic' ∧
      ∀ response, returned.1 = .ok response → Paired traffic'.call request response traffic')
      (c.communicate request) traffic := by
  have hloop : answering.Yields (Attempted request)
      (Program.iterate LetDD.Client.communicateRound { client := c, request }) traffic := by
    refine .iterate (Attempting request) ?_ ⟨hsettled, .inl rfl, ?_⟩
    · intro s traffic hattempting
      refine hattempting.round_yields.weaken ?_
      intro round traffic' hrounded
      cases round <;> exact hrounded
    · intro response hresponse
      nomatch hresponse
  refine .bind (hloop.weaken ?_)
  intro s traffic' hattempted
  exact hattempted.done_yields

end Rounds

end LetDX.Wire.Traffic
