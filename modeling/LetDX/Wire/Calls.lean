import LetDX.Wire.Operations
import LetDX.Wire.Requests
import LetDX.Wire.Responses

/-! # One call of the client

Whatever fails during a call, the client keeps a connection only if nothing is
under way on it. If its count of transactions agreed with that of the server
before the call, then it agrees afterwards, unless the context was found done
after a success reply to a mutating request had been read.
-/

namespace LetDX.Wire

open Effects LetDB

/-- Total correctness of a procedure of the client, with the invariant of the
service at every instant. -/
abbrev Calling {α : Type} (post : α → Surroundings → Prop) (program : LetDD.Proc α)
    (around : Surroundings) : Prop :=
  network.Ensures (fun around => Sound around.service) post program around

/-- No step of the server ends it. -/
def Persists (state : Service → Prop) : Prop :=
  ∀ service service', Sound service → state service → Served service service' → state service'

theorem persists_true : Persists fun _ => True :=
  fun _ _ _ _ _ => trivial

/-! ## System calls -/

section Syscalls

variable {around : Surroundings} {state : Service → Prop} {connection : Nat}

theorem perform_spec (op : LetDD.Syscall) {post : op.Answer → Surroundings → Prop}
    (hpersists : Persists state) (hsound : Sound around.service) (hstate : state around.service)
    (hafter : ∀ service answer around', Sound service → state service →
      Surroundings.Allows op { around with service } answer around' →
      Sound around'.service ∧ post answer around') :
    Calling post (Program.perform (I := LetDD.host) op) around := by
  refine network_perform_spec op (fun service => Sound service ∧ state service) ⟨hsound, hstate⟩ ?_
    hsound ?_
  · rintro service service' ⟨hsound, hstate⟩ hserved
    exact ⟨hsound.step hserved, hpersists _ _ hsound hstate hserved⟩
  · rintro service answer around' ⟨hsound, hstate⟩ hallows
    exact hafter service answer around' hsound hstate hallows

theorem contextErr_spec {post : Bool → Surroundings → Prop} (hpersists : Persists state)
    (hsound : Sound around.service) (hstate : state around.service)
    (hpost : ∀ service done, Sound service → state service →
      (around.contextDone = true → done = true) →
      post done { around with service, contextDone := done }) :
    Calling post LetDD.Proc.contextErr around := by
  refine perform_spec .contextErr hpersists hsound hstate ?_
  rintro service done _ hsound hstate ⟨hdone, rfl⟩
  exact ⟨hsound, hpost service done hsound hstate hdone⟩

theorem wait_spec {backoff : LetDD.Duration} {post : Bool → Surroundings → Prop}
    (hpersists : Persists state) (hsound : Sound around.service) (hstate : state around.service)
    (hpost : ∀ service fired done, Sound service → state service →
      post fired { around with service, contextDone := done }) :
    Calling post (LetDD.Proc.wait backoff) around := by
  refine perform_spec (.wait backoff) hpersists hsound hstate ?_
  rintro service fired _ hsound hstate ⟨done, _, _, rfl⟩
  exact ⟨hsound, hpost service fired done hsound hstate⟩

theorem dial_spec {address : String} {post : Option Nat → Surroundings → Prop}
    (hsound : Sound around.service)
    (hfailed : ∀ service, Sound service → post none { around with service })
    (hdialed : ∀ service connection, Sound service → Waiting connection [] service →
      post (some connection) { around with service }) :
    Calling post (LetDD.Proc.dial address) around := by
  refine perform_spec (.dial address) persists_true hsound trivial ?_
  rintro service dialed around' hsound _ (⟨rfl, rfl⟩ | ⟨rfl, rfl⟩)
  · exact ⟨hsound, hfailed service hsound⟩
  · obtain ⟨hsound', hwaiting⟩ := hsound.dial
    exact ⟨hsound', hdialed _ _ hsound' hwaiting⟩

theorem Served.dialed_eq {service service' : Service} (hserved : Served service service') :
    service'.dialed = service.dialed := by
  cases hserved <;> rfl

theorem persists_dialed (connection : Nat) :
    Persists fun service => connection < service.dialed := by
  intro service service' _ hdialed hserved
  rwa [hserved.dialed_eq]

theorem close_spec {post : Bool → Surroundings → Prop} (hsound : Sound around.service)
    (hdialed : connection < around.service.dialed)
    (hpost : ∀ service closed, Sound service → post closed { around with service }) :
    Calling post (LetDD.Proc.close connection) around := by
  refine perform_spec (.close connection) (persists_dialed connection) hsound hdialed ?_
  rintro service closed _ hsound hdialed rfl
  have hsound' : Sound (Surroundings.close { around with service } connection).service :=
    hsound.setLink_of_written hdialed rfl rfl fun hconnection =>
      (hsound.waiting connection hconnection).2.2
  exact ⟨hsound', hpost _ closed hsound'⟩

/-! ## Requests and responses -/

theorem sendRequest_eq (connection : Nat) (request : LetDD.Request) :
    LetDD.Client.sendRequest connection request =
      LetDD.Proc.write connection (requestBytes request.meaning) := by
  rw [LetDD.Client.sendRequest, request.encode_eq]
  rfl

theorem persists_opened (connection : Nat) : Persists (Opened connection) :=
  fun _ _ hsound hopened hserved => hopened.step hsound hserved

theorem persists_greeted (connection : Nat) : Persists (Greeted connection) :=
  fun _ _ hsound hgreeted hserved => hgreeted.step hsound hserved

theorem persists_quiet (connection : Nat) (transactions : U64) :
    Persists (Quiet connection transactions) :=
  fun _ _ hsound hquiet hserved => hquiet.step hsound hserved

theorem persists_await (connection : Nat) (request : NetworkRequest) (before : U64) :
    Persists (Await connection request before) :=
  fun _ _ hsound hawait hserved => hawait.step hsound hserved

theorem Quiet.send_spec {request : LetDD.Request} {before : U64}
    {post : Bool → Surroundings → Prop} (hquiet : Quiet connection before around.service)
    (hsound : Sound around.service)
    (hfailed : ∀ service, Sound service → connection < service.dialed →
      post false { around with service })
    (hsent : ∀ service, Sound service → Await connection request.meaning before service →
      post true { around with service }) :
    Calling post (LetDD.Client.sendRequest connection request) around := by
  rw [sendRequest_eq]
  refine perform_spec (.write connection _) (persists_quiet connection before) hsound hquiet ?_
  rintro service whole _ hsound hquiet ⟨delivered, hdelivered, hwhole, rfl⟩
  have hquiet' : Quiet connection before ({ around with service } : Surroundings).service := hquiet
  obtain ⟨hsound', hawait⟩ := hquiet'.write hsound hdelivered
  refine ⟨hsound', ?_⟩
  cases (whole : Bool) with
  | false => exact hfailed _ hsound' (hquiet.dialed ▸ Nat.lt_succ_self connection)
  | true => exact hsent _ hsound' (hawait (hwhole rfl))

theorem Opened.send_spec {post : Bool → Surroundings → Prop}
    (hopened : Opened connection around.service) (hsound : Sound around.service)
    (hfailed : ∀ service, Sound service → connection < service.dialed →
      post false { around with service })
    (hsent : ∀ service, Sound service → Greeted connection service →
      post true { around with service }) :
    Calling post (LetDD.Client.sendRequest connection .countDatabase) around := by
  rw [sendRequest_eq]
  refine perform_spec (.write connection _) (persists_opened connection) hsound hopened ?_
  rintro service whole _ hsound (hwaiting | ⟨transactions, hquiet⟩)
    ⟨delivered, hdelivered, hwhole, rfl⟩
  · have hwaiting' : Waiting connection [] ({ around with service } : Surroundings).service :=
      hwaiting
    obtain ⟨hsound', hwritten⟩ := hwaiting'.write hsound hdelivered
    refine ⟨hsound', ?_⟩
    cases (whole : Bool) with
    | false => exact hfailed _ hsound' (hwritten.dialed ▸ Nat.lt_succ_self connection)
    | true => exact hsent _ hsound' (.inl (hwhole rfl ▸ hwritten))
  · have hquiet' : Quiet connection transactions ({ around with service } : Surroundings).service :=
      hquiet
    obtain ⟨hsound', hawait⟩ := hquiet'.write hsound hdelivered
    refine ⟨hsound', ?_⟩
    cases (whole : Bool) with
    | false => exact hfailed _ hsound' (hquiet.dialed ▸ Nat.lt_succ_self connection)
    | true => exact hsent _ hsound' (.inr ⟨transactions, hawait (hwhole rfl)⟩)

/-- The service after a line was read. -/
structure Heard (connection : Nat) (request : NetworkRequest) (before : U64)
    (response : NetworkResponse) (transactions : U64) (service : Service) : Prop where
  sound : Sound service
  answers : Answers request before response transactions
  quiet : Quiet connection transactions service

/-- Reading the line that is there and parsing it. -/
theorem Await.parse_spec {request : NetworkRequest} {body : List U8}
    {post : Option LetDD.Response → Surroundings → Prop}
    (hawait : Await connection request before around.service) (hsound : Sound around.service)
    (hline : body ++ [asciiNewline] <+: (around.service.links connection).pending)
    (hreceived : ∀ service response transactions,
      Heard connection request before response transactions service →
      post (some response.meaning) { around with service, heard := some response.bytes }) :
    Sound (around.read connection (body ++ [asciiNewline])).service ∧
      Calling post (pure (LetDD.parseResponse (body ++ [asciiNewline])))
        (around.read connection (body ++ [asciiNewline])) := by
  obtain ⟨response, transactions, hwhole, hanswers, hsound', hquiet⟩ := hawait.read hsound hline
  refine ⟨hsound', ?_⟩
  rw [hwhole] at hsound' hquiet ⊢
  rw [parseResponse_bytes]
  exact .pure hsound' (hreceived _ response transactions ⟨hsound', hanswers, hquiet⟩)

theorem Await.receive_spec {request : NetworkRequest} {before : U64}
    {post : Option LetDD.Response → Surroundings → Prop}
    (hawait : Await connection request before around.service) (hsound : Sound around.service)
    (hfailed : ∀ service, Sound service → connection < service.dialed →
      post none { around with service })
    (hreceived : ∀ service response transactions,
      Heard connection request before response transactions service →
      post (some response.meaning) { around with service, heard := some response.bytes }) :
    Calling post (LetDD.Client.receiveResponse connection) around := by
  refine .bind (perform_spec (.readBytes connection) (persists_await connection request before)
    hsound hawait ?_)
  rintro service read around' hsound hawait (⟨rfl, rfl⟩ | ⟨body, hbody, rfl, hline, rfl⟩)
  · exact ⟨hsound, .pure hsound
      (hfailed service hsound (hawait.dialed ▸ Nat.lt_succ_self connection))⟩
  · have hawait' : Await connection request before
      ({ around with service } : Surroundings).service := hawait
    exact hawait'.parse_spec hsound hline hreceived

theorem Greeted.receive_spec {post : Option LetDD.Response → Surroundings → Prop}
    (hgreeted : Greeted connection around.service) (hsound : Sound around.service)
    (hfailed : ∀ service, Sound service → connection < service.dialed →
      post none { around with service })
    (hreceived : ∀ service response before transactions,
      Heard connection .countDatabase before response transactions service →
      post (some response.meaning) { around with service, heard := some response.bytes }) :
    Calling post (LetDD.Client.receiveResponse connection) around := by
  refine .bind (perform_spec (.readBytes connection) (persists_greeted connection) hsound hgreeted
    ?_)
  rintro service read around' hsound (hwaiting | ⟨before, hawait⟩)
    (⟨rfl, rfl⟩ | ⟨body, hbody, rfl, hline, rfl⟩)
  · exact ⟨hsound, .pure hsound
      (hfailed service hsound (hwaiting.dialed ▸ Nat.lt_succ_self connection))⟩
  · rw [Link.pending, (hsound.waiting connection hwaiting.accepted).2.1, List.drop_nil] at hline
    simp at hline
  · exact ⟨hsound, .pure hsound
      (hfailed service hsound (hawait.dialed ▸ Nat.lt_succ_self connection))⟩
  · have hawait' : Await connection .countDatabase before
      ({ around with service } : Surroundings).service := hawait
    exact hawait'.parse_spec hsound hline fun _ response transactions =>
      hreceived _ response before transactions

theorem disconnect_spec {c : LetDD.Client} {post : LetDD.Client → Surroundings → Prop}
    (hconnection : c.connection = some connection) (hsound : Sound around.service)
    (hdialed : connection < around.service.dialed)
    (hpost : ∀ service, Sound service →
      post { c with connection := none } { around with service }) :
    Calling post c.disconnect around := by
  rw [LetDD.Client.disconnect, hconnection]
  refine .bind (close_spec hsound hdialed ?_)
  intro service closed hsound
  exact .pure hsound (hpost service hsound)

end Syscalls

/-! ## Connecting -/

/-- The line is a success reply to a mutating request, or to a closing one. -/
def succeeded (heard : Option (List U8)) : Bool :=
  match heard.bind LetDD.parseResponse with
  | some (.addAccount _) | some .ok => true
  | _ => false

theorem succeeded_bytes (response : NetworkResponse) :
    succeeded (some response.bytes) = response.succeeds := by
  rw [succeeded, Option.bind_some, parseResponse_bytes]
  cases response <;> rfl

/-- Nothing is under way on the connection that the client keeps, and if its
count agreed with that of the server, it still does. -/
def Attached (synced : Prop) (client : LetDD.Client) (service : Service) : Prop :=
  ∀ connection, client.connection = some connection → ∃ transactions,
    Quiet connection transactions service ∧ (synced → client.transactions = transactions)

section Connecting

variable {around : Surroundings} {synced : Prop} {c : LetDD.Client} {connection : Nat}

theorem persists_attached (synced : Prop) (c : LetDD.Client) : Persists (Attached synced c) := by
  intro service service' hsound hattached hserved connection hconnection
  obtain ⟨transactions, hquiet, hcount⟩ := hattached connection hconnection
  exact ⟨transactions, hquiet.step hsound hserved, hcount⟩

theorem attached_none {service : Service} (hnone : c.connection = none) :
    Attached synced c service := by
  intro connection hconnection
  nomatch hnone.symm.trans hconnection

/-- The handshake tells the count of transactions. -/
theorem answers_countDatabase {before transactions : U64} {response : NetworkResponse}
    (hanswers : Answers .countDatabase before response transactions) :
    response.succeeds = false ∧
      ((∃ accounts, response = .countDatabase accounts transactions) ∨
        ∃ error, response = .error error) := by
  cases hanswers with
  | committed mutating => nomatch mutating
  | refused => exact ⟨rfl, .inr ⟨_, rfl⟩⟩
  | @told context _ counted inquiry =>
      obtain rfl := Option.some.inj inquiry
      subst counted
      exact ⟨rfl, .inl ⟨_, rfl⟩⟩

theorem handshake_spec {post : Bool × LetDD.Client → Surroundings → Prop}
    (hconnection : c.connection = some connection) (hopened : Opened connection around.service)
    (hsound : Sound around.service) (hheard : succeeded around.heard = false)
    (hfailed : ∀ service heard, Sound service → succeeded heard = false →
      post (false, { c with connection := none }) { around with service, heard })
    (hgreeted : ∀ service heard transactions, Sound service →
      Quiet connection transactions service → succeeded heard = false →
      post (true, { c with transactions }) { around with service, heard }) :
    Calling post (c.handshake connection) around := by
  have hdisconnect (service : Service) (heard : Option (List U8)) (hsound : Sound service)
      (hdialed : connection < service.dialed) (hheard : succeeded heard = false) :
      Calling post (do let c ← c.disconnect; return (false, c)) { around with service, heard } := by
    refine .bind (disconnect_spec hconnection hsound hdialed ?_)
    intro service hsound
    exact .pure hsound (hfailed service heard hsound hheard)
  refine .bind (hopened.send_spec hsound ?_ ?_)
  · intro service hsound hdialed
    exact hdisconnect service around.heard hsound hdialed hheard
  · intro service hsound hgreeting
    refine .bind (hgreeting.receive_spec hsound ?_ ?_)
    · intro service hsound hdialed
      exact hdisconnect service around.heard hsound hdialed hheard
    · intro service response before transactions hheard
      obtain ⟨hfails, ⟨accounts, rfl⟩ | ⟨error, rfl⟩⟩ := answers_countDatabase hheard.answers
      · refine .pure hheard.sound (hgreeted service _ transactions hheard.sound hheard.quiet ?_)
        rw [succeeded_bytes]
        exact hfails
      · refine hdisconnect service _ hheard.sound ?_ ?_
        · exact hheard.quiet.dialed ▸ Nat.lt_succ_self connection
        · rw [succeeded_bytes]
          exact hfails

theorem connect_spec {post : Bool × LetDD.Client → Surroundings → Prop}
    (hattached : Attached synced c around.service) (hsound : Sound around.service)
    (hheard : succeeded around.heard = false)
    (hfailed : ∀ c' service contextDone heard, Sound service → succeeded heard = false →
      c'.connection = none → c'.supervisor = c.supervisor →
      post (false, c') { around with service, contextDone, heard })
    (hconnected : ∀ c' connection service contextDone heard, Sound service →
      succeeded heard = false → c'.connection = some connection →
      Attached synced c' service → c'.supervisor = c.supervisor →
      post (true, c') { around with service, contextDone, heard }) :
    Calling post c.connect around := by
  cases hconnection : c.connection with
  | some connection =>
      rw [LetDD.Client.connect, hconnection]
      exact .pure hsound (hconnected c connection around.service around.contextDone around.heard
        hsound hheard hconnection hattached rfl)
  | none =>
      rw [LetDD.Client.connect, hconnection]
      refine .bind (dial_spec hsound ?_ ?_)
      · intro service hsound
        refine .bind (contextErr_spec persists_true hsound trivial ?_)
        intro service done hsound _ _
        cases done with
        | true =>
          exact .pure hsound (hfailed c service true around.heard hsound hheard hconnection rfl)
        | false =>
          exact .pure hsound (hfailed c service false around.heard hsound hheard hconnection rfl)
      · intro service connection hsound hwaiting
        refine .bind (contextErr_spec (persists_opened connection) hsound (.inl hwaiting) ?_)
        intro service done hsound hopened _
        cases done with
        | true =>
          exact .pure hsound (hfailed c service true around.heard hsound hheard hconnection rfl)
        | false =>
            refine handshake_spec rfl hopened hsound hheard ?_ ?_
            · intro service heard hsound hheard
              exact hfailed _ service false heard hsound hheard rfl rfl
            · intro service heard transactions hsound hquiet hheard
              refine hconnected _ connection service false heard hsound hheard rfl ?_ rfl
              rintro _ ⟨⟩
              exact ⟨transactions, hquiet, fun _ => rfl⟩

end Connecting

/-! ## One round -/

/-- How often the supervisor may still be asked. -/
def attemptsLeft (s : LetDD.Supervisor) : Nat :=
  if s.currentTry = 0 then s.cancelAfter.toNat + 2
  else s.cancelAfter.toNat - s.currentTry.toNat + 1

theorem attemptsLeft_succ {s : LetDD.Supervisor}
    (hgranted : s.currentTry = 0 ∨ s.currentTry < s.cancelAfter) :
    attemptsLeft { s with currentTry := s.currentTry + 1 } < attemptsLeft s := by
  unfold attemptsLeft
  dsimp only
  by_cases hzero : s.currentTry = 0
  · rw [if_pos hzero, hzero, if_neg (by decide)]
    have hone : ((0 : U64) + 1).toNat = 1 := by decide
    rw [hone]
    omega
  · have hless : s.currentTry.toNat < s.cancelAfter.toNat :=
      BitVec.lt_def.mp (hgranted.resolve_left hzero)
    have hnext : (s.currentTry + 1).toNat = s.currentTry.toNat + 1 := by
      rw [BitVec.toNat_add_of_lt]
      · rfl
      · have hlimit := s.cancelAfter.isLt
        change s.currentTry.toNat + 1 < 2 ^ 64
        omega
    have hnonzero : s.currentTry + 1 ≠ 0 := by
      intro heq
      rw [heq] at hnext
      nomatch hnext
    rw [if_neg hzero, if_neg hnonzero, hnext]
    omega

theorem try_spec {around : Surroundings} {state : Service → Prop} {s : LetDD.Supervisor}
    {post : Bool × LetDD.Supervisor → Surroundings → Prop} (hpersists : Persists state)
    (hsound : Sound around.service) (hstate : state around.service)
    (hrefused : ∀ service contextDone, Sound service → state service →
      (s.currentTry = 0 → contextDone = true) →
      post (false, s) { around with service, contextDone })
    (hgranted : ∀ service contextDone, Sound service → state service →
      s.currentTry = 0 ∨ s.currentTry < s.cancelAfter →
      post (true, { s with currentTry := s.currentTry + 1 })
        { around with service, contextDone }) :
    Calling post s.try around := by
  refine .bind (contextErr_spec hpersists hsound hstate ?_)
  intro service done hsound hstate _
  cases done with
  | true => exact .pure hsound (hrefused service true hsound hstate fun _ => rfl)
  | false =>
      rw [if_neg (by decide)]
      split
      next hzero => exact .pure hsound (hgranted service false hsound hstate (.inl hzero))
      next hnonzero =>
        split
        · exact .pure hsound (hrefused service false hsound hstate fun hzero =>
            (hnonzero hzero).elim)
        next hless =>
          refine .bind (wait_spec hpersists hsound hstate ?_)
          intro service fired done hsound hstate
          cases fired with
          | true =>
              exact .pure hsound (hgranted service done hsound hstate
                (.inr (BitVec.not_le.mp hless)))
          | false =>
              exact .pure hsound (hrefused service done hsound hstate fun hzero =>
                (hnonzero hzero).elim)

/-- The request carries a sequence number. -/
def mutating (request : LetDD.Request) : Bool :=
  (request.setID 0).isSome

theorem meaning_operation (request : LetDD.Request) :
    request.meaning.operation.isSome = mutating request := by
  cases request <;> rfl

theorem mutating_of_setID {request request' : LetDD.Request} {id : U64}
    (hset : request.setID id = some request') :
    mutating request = true ∧ mutating request' = true := by
  cases request with
  | addAccount | makeTransfer | updateAccount =>
      obtain rfl := Option.some.inj hset
      exact ⟨rfl, rfl⟩
  | magic | getAccount | countDatabase | close => cases hset

theorem mutating_of_setID_none {request : LetDD.Request} {id : U64}
    (hset : request.setID id = none) : mutating request = false := by
  cases request with
  | addAccount | makeTransfer | updateAccount => cases hset
  | magic | getAccount | countDatabase | close => rfl

open LetDD.Client (Communicate)

/-- Between two rounds of the loop. -/
structure Attempting (synced : Prop) (request : LetDD.Request) (s : Communicate)
    (around : Surroundings) : Prop where
  sound : Sound around.service
  attached : Attached synced s.client around.service
  heard : succeeded around.heard = false
  asked : mutating s.request = mutating request
  updates : s.updateTransactions = true → mutating request = true
  retried : s.outcome ≠ none → s.outcome = some (.error ()) ∧ s.client.connection = none
  first : s.outcome = none → s.client.supervisor.currentTry = 0

/-- After the loop. -/
inductive Attempted (synced : Prop) (request : LetDD.Request) (s : Communicate)
    (around : Surroundings) : Prop
  | gaveUp (sound : Sound around.service) (attached : Attached synced s.client around.service)
      (heard : succeeded around.heard = false)
      (outcome : s.outcome = some (.error ()) ∨ s.outcome = none ∧ around.contextDone = true)
  | answered {connection : Nat} {asked : LetDD.Request} {before transactions : U64}
      {response : NetworkResponse} (asks : mutating asked = mutating request)
      (connects : s.client.connection = some connection)
      (hears : Heard connection asked.meaning before response transactions around.service)
      (heard : around.heard = some response.bytes)
      (outcome : s.outcome = some (.ok response.meaning))
      (updates : s.updateTransactions = mutating request)
      (counted : synced → s.client.transactions = before)

section Rounds

variable {around : Surroundings} {synced : Prop} {request : LetDD.Request} {s : Communicate}
  {connection : Nat}

theorem disconnected_spec {post : Communicate ⊕ Communicate → Surroundings → Prop}
    (hconnection : s.client.connection = some connection) (hsound : Sound around.service)
    (hdialed : connection < around.service.dialed)
    (hpost : ∀ service, Sound service →
      post (.inl { s with
        client := { s.client with connection := none }, outcome := some (.error ()) })
        { around with service }) :
    Calling post (do
      let client ← s.client.disconnect
      return .inl { s with client, outcome := some (.error ()) }) around := by
  refine .bind (disconnect_spec hconnection hsound hdialed ?_)
  intro service hsound
  exact .pure hsound (hpost service hsound)

/-- One transmission of a request that has its number. -/
theorem transmit_spec {before : U64} {post : Communicate ⊕ Communicate → Surroundings → Prop}
    (hconnection : s.client.connection = some connection) (hsound : Sound around.service)
    (hquiet : Quiet connection before around.service)
    (hfailed : ∀ service, Sound service →
      post (.inl { s with
        client := { s.client with connection := none }, outcome := some (.error ()) })
        { around with service })
    (hanswered : ∀ service response transactions,
      Heard connection s.request.meaning before response transactions service →
      post (.inr { s with outcome := some (.ok response.meaning) })
        { around with service, heard := some response.bytes }) :
    Calling post (LetDD.Client.transmit s connection) around := by
  refine .bind (hquiet.send_spec hsound ?_ ?_)
  · intro service hsound hdialed
    exact disconnected_spec hconnection hsound hdialed hfailed
  · intro service hsound hawait
    refine .bind (hawait.receive_spec hsound ?_ ?_)
    · intro service hsound hdialed
      exact disconnected_spec hconnection hsound hdialed hfailed
    · intro service response transactions hheard
      exact .pure hheard.sound (hanswered service response transactions hheard)

theorem exchange_spec {post : Communicate ⊕ Communicate → Surroundings → Prop}
    (hconnection : s.client.connection = some connection) (hsound : Sound around.service)
    (hattached : Attached synced s.client around.service)
    (hheard : succeeded around.heard = false) (hasked : mutating s.request = mutating request)
    (hupdates : s.updateTransactions = true → mutating request = true)
    (hfailed : ∀ s' around', Attempting synced request s' around' →
      s'.client.supervisor = s.client.supervisor → post (.inl s') around')
    (hanswered : ∀ s' around', Attempted synced request s' around' → post (.inr s') around') :
    Calling post (LetDD.Client.exchange s connection) around := by
  obtain ⟨before, hquiet, hcounted⟩ := hattached connection hconnection
  -- A request takes a number exactly if it may change something.
  cases hset : s.request.setID s.client.transactions with
  | none =>
      have hinquiry : mutating request = false := hasked ▸ mutating_of_setID_none hset
      have hnoupdates : s.updateTransactions = mutating request := by
        rw [hinquiry]
        exact Bool.eq_false_iff.mpr fun h => Bool.false_ne_true (hinquiry.symm.trans (hupdates h))
      rw [LetDD.Client.exchange_of_none connection hset]
      refine transmit_spec hconnection hsound hquiet ?_ ?_
      · intro service hsound
        refine hfailed _ _ ⟨hsound, attached_none rfl, hheard, hasked, hupdates, ?_, ?_⟩ rfl
        · exact fun _ => ⟨rfl, rfl⟩
        · exact fun hnone => nomatch hnone
      · intro service response transactions hears
        exact hanswered _ _ (.answered hasked hconnection hears rfl rfl hnoupdates hcounted)
  | some asked =>
      obtain ⟨hmutating, hmutating'⟩ := mutating_of_setID hset
      have hasks : mutating asked = mutating request := by rw [← hasked, hmutating, hmutating']
      have hupdates' : true = mutating request := hmutating.symm.trans hasked
      rw [LetDD.Client.exchange_of_some connection hset]
      refine transmit_spec (s := { s with request := asked, updateTransactions := true })
        hconnection hsound hquiet ?_ ?_
      · intro service hsound
        refine hfailed _ _ ⟨hsound, attached_none rfl, hheard, hasks, fun _ => hupdates'.symm, ?_,
          ?_⟩ rfl
        · exact fun _ => ⟨rfl, rfl⟩
        · exact fun hnone => nomatch hnone
      · intro service response transactions hears
        exact hanswered _ _ (.answered hasks hconnection hears rfl rfl hupdates' hcounted)

theorem Attempting.round_spec {post : Communicate ⊕ Communicate → Surroundings → Prop}
    (hattempting : Attempting synced request s around)
    (hagain : ∀ s' around', Attempting synced request s' around' →
      attemptsLeft s'.client.supervisor < attemptsLeft s.client.supervisor →
      post (.inl s') around')
    (hover : ∀ s' around', Attempted synced request s' around' → post (.inr s') around') :
    Calling post (LetDD.Client.communicateRound s) around := by
  refine .bind (try_spec (persists_attached synced s.client) hattempting.sound
    hattempting.attached ?_ ?_)
  · intro service contextDone hsound hattached hdone
    refine .pure hsound (hover _ _ (.gaveUp hsound hattached hattempting.heard ?_))
    -- A first attempt is refused only by a context that is done.
    cases houtcome : s.outcome with
    | none => exact .inr ⟨rfl, hdone (hattempting.first houtcome)⟩
    | some outcome =>
        have hretried := (hattempting.retried (by simp [houtcome])).1
        exact .inl (houtcome.symm.trans hretried)
  · intro service contextDone hsound hattached hgranted
    have hless := attemptsLeft_succ hgranted
    refine .bind (connect_spec hattached hsound hattempting.heard ?_ ?_)
    · intro c' service contextDone heard hsound hheard hnone hsupervisor
      refine .pure hsound (hagain _ _ ⟨hsound, attached_none hnone, hheard, hattempting.asked,
        hattempting.updates, fun _ => ⟨rfl, hnone⟩, fun h => nomatch h⟩ ?_)
      rw [hsupervisor]
      exact hless
    · intro c' connection service contextDone heard hsound hheard hconnection hattached hsupervisor
      dsimp only
      rw [hconnection]
      refine exchange_spec hconnection hsound hattached hheard hattempting.asked
        hattempting.updates ?_ hover
      intro s' around' hattempting' hsame
      refine hagain s' around' hattempting' ?_
      rw [hsame, hsupervisor]
      exact hless

/-! ## The whole call -/

/-- If the client has a connection, its count is that of the server. -/
def InSync (client : LetDD.Client) (service : Service) : Prop :=
  client.connection ≠ none →
    client.transactions = service.point.context.storageWal.transactions

/-- A success reply to a mutating request has been read, and then the context
was found done. -/
def Late (request : LetDD.Request) (around : Surroundings) : Prop :=
  mutating request = true ∧ succeeded around.heard = true ∧ around.contextDone = true

/-- After the call. -/
structure Called (synced : Prop) (request : LetDD.Request) (client : LetDD.Client)
    (around : Surroundings) : Prop where
  sound : Sound around.service
  attached : Attached False client around.service
  reset : client.supervisor.currentTry = 0
  inSync : synced → (InSync client around.service ↔ ¬Late request around)

theorem Attached.inSync {client : LetDD.Client} {service : Service}
    (hattached : Attached synced client service) (hsynced : synced) : InSync client service := by
  intro hsome
  obtain ⟨connection, hconnection⟩ := Option.ne_none_iff_exists'.mp hsome
  obtain ⟨transactions, hquiet, hcounted⟩ := hattached connection hconnection
  exact (hcounted hsynced).trans hquiet.transactions.symm

theorem Attached.inSync_of {client : LetDD.Client} {service : Service}
    (hattached : Attached synced client service) :
    Attached (InSync client service) client service := by
  intro connection hconnection
  obtain ⟨transactions, hquiet, _⟩ := hattached connection hconnection
  refine ⟨transactions, hquiet, fun hsync => ?_⟩
  exact (hsync (by simp [hconnection])).trans hquiet.transactions

theorem kind_ne_error {response : NetworkResponse} (hsucceeds : response.succeeds = true) :
    response.meaning.kind ≠ .error := by
  intro herror
  cases response with
  | error => cases hsucceeds
  | magic | ok | addAccount | getAccount | countDatabase => cases herror

theorem Answers.transactions_eq {asked : NetworkRequest} {before transactions : U64}
    {response : NetworkResponse} (hanswers : Answers asked before response transactions) :
    transactions =
      if asked.operation.isSome ∧ response.meaning.kind ≠ .error then before + 1 else before := by
  cases hanswers with
  | committed mutating succeeds => rw [if_pos ⟨mutating, kind_ne_error succeeds⟩]
  | refused => rw [if_neg fun hand => hand.2 rfl]
  | told counted inquiry =>
      have hnone : asked.operation = none := Option.map_eq_none_iff.mp (data_of_inquiry inquiry)
      rw [if_neg (by simp [hnone])]

theorem Answers.succeeds_iff {asked : NetworkRequest} {before transactions : U64}
    {response : NetworkResponse} (hanswers : Answers asked before response transactions)
    (hmutating : asked.operation.isSome) :
    response.succeeds = true ↔ response.meaning.kind ≠ .error := by
  refine ⟨kind_ne_error, fun hkind => ?_⟩
  cases hanswers with
  | committed _ succeeds => exact succeeds
  | refused => exact (hkind rfl).elim
  | told _ inquiry =>
      rw [Option.map_eq_none_iff.mp (data_of_inquiry inquiry)] at hmutating
      nomatch hmutating

theorem Quiet.called {client : LetDD.Client} {transactions : U64}
    (hquiet : Quiet connection transactions around.service) (hsound : Sound around.service)
    (hconnection : client.connection = some connection)
    (hreset : client.supervisor.currentTry = 0)
    (hcounted : synced → (client.transactions = transactions ↔ ¬Late request around)) :
    Called synced request client around := by
  refine ⟨hsound, ?_, hreset, fun hsynced => ?_⟩
  · intro connection' hconnection'
    obtain rfl := Option.some.inj (hconnection.symm.trans hconnection')
    exact ⟨transactions, hquiet, False.elim⟩
  · have hsome : client.connection ≠ none := by simp [hconnection]
    rw [← hcounted hsynced, InSync, hquiet.transactions]
    exact ⟨fun hsync => hsync hsome, fun heq _ => heq⟩

/-- The loop was left with a response. The count has to be increased exactly if
the server has done so, which the check of the context may prevent. -/
theorem done_answered_spec {asked : LetDD.Request} {before transactions : U64}
    {response : NetworkResponse} (hasks : mutating asked = mutating request)
    (hconnection : s.client.connection = some connection)
    (hears : Heard connection asked.meaning before response transactions around.service)
    (hheard : around.heard = some response.bytes)
    (houtcome : s.outcome = some (.ok response.meaning))
    (hupdates : s.updateTransactions = mutating request)
    (hcounted : synced → s.client.transactions = before) :
    Calling (fun returned around' => Called synced request returned.2 around')
      (LetDD.Client.communicateDone s) around := by
  have htransactions := hears.answers.transactions_eq
  rw [meaning_operation, hasks] at htransactions
  have hsucceeded : mutating request = true →
      (succeeded around.heard = true ↔ response.meaning.kind ≠ .error) := by
    intro hmutating
    rw [hheard, succeeded_bytes]
    apply hears.answers.succeeds_iff
    rw [meaning_operation, hasks, hmutating]
  refine .bind (contextErr_spec (persists_quiet connection transactions) hears.sound hears.quiet ?_)
  intro service done hsound hquiet _
  have hquiet' : Quiet connection transactions
    ({ around with service, contextDone := done } : Surroundings).service := hquiet
  cases done with
  | true =>
      refine .pure hsound (hquiet'.called hsound hconnection rfl fun hsynced => ?_)
      rw [htransactions]
      change s.client.transactions = _ ↔ _
      rw [hcounted hsynced]
      by_cases hcommitted : mutating request = true ∧ response.meaning.kind ≠ .error
      · have hlate : Late request { around with service, contextDone := true } :=
          ⟨hcommitted.1, (hsucceeded hcommitted.1).mpr hcommitted.2, rfl⟩
        rw [if_pos hcommitted]
        simp [hlate]
      · rw [if_neg hcommitted]
        have hpunctual : ¬Late request { around with service, contextDone := true } :=
          fun hlate => hcommitted ⟨hlate.1, (hsucceeded hlate.1).mp hlate.2.1⟩
        simp [hpunctual]
  | false =>
      have hpunctual : ¬Late request { around with service, contextDone := false } :=
        fun hlate => Bool.false_ne_true hlate.2.2
      rw [if_neg (by decide), houtcome]
      dsimp only
      rw [hupdates]
      split
      next hcommitted =>
        refine .pure hsound (hquiet'.called hsound hconnection rfl fun hsynced => ?_)
        rw [htransactions, if_pos hcommitted]
        simp [hcounted hsynced, hpunctual]
      next hcommitted =>
        refine .pure hsound (hquiet'.called hsound hconnection rfl fun hsynced => ?_)
        rw [htransactions, if_neg hcommitted]
        simp [hcounted hsynced, hpunctual]

theorem Attempted.done_spec (hattempted : Attempted synced request s around) :
    Calling (fun returned around' => Called synced request returned.2 around')
      (LetDD.Client.communicateDone s) around := by
  cases hattempted with
  | gaveUp hsound hattached hheard houtcome =>
      refine .bind (contextErr_spec (persists_attached synced s.client) hsound hattached ?_)
      intro service done hsound hattached hdone
      have hcalled (client : LetDD.Client) (hclient : client.connection = s.client.connection)
          (hcount : client.transactions = s.client.transactions)
          (hreset : client.supervisor.currentTry = 0) :
          Called synced request client { around with service, contextDone := done } := by
        have hattached' : Attached synced client service := by
          intro connection hconnection
          rw [hcount]
          exact hattached connection (hclient ▸ hconnection)
        refine ⟨hsound, fun connection hconnection => ?_, hreset, fun hsynced => ?_⟩
        · obtain ⟨transactions, hquiet, _⟩ := hattached' connection hconnection
          exact ⟨transactions, hquiet, False.elim⟩
        · refine ⟨fun _ hlate => ?_, fun _ => hattached'.inSync hsynced⟩
          exact Bool.false_ne_true (hheard.symm.trans hlate.2.1)
      cases done with
      | true => exact .pure hsound (hcalled _ rfl rfl rfl)
      | false =>
          rcases houtcome with hfailed | ⟨_, hcontext⟩
          · rw [if_neg (by decide)]
            rw [hfailed]
            exact .pure hsound (hcalled _ rfl rfl rfl)
          · exact (Bool.false_ne_true (hdone hcontext)).elim
  | answered asks connects hears heard outcome updates counted =>
      exact done_answered_spec asks connects hears heard outcome updates counted

/-- A call keeps the invariants. It keeps the agreement of the two counts unless
it is late, and then it loses it. -/
theorem communicate_spec {c : LetDD.Client} (hsound : Sound around.service)
    (hattached : Attached synced c around.service) (hreset : c.supervisor.currentTry = 0)
    (hheard : succeeded around.heard = false) :
    Calling (fun returned around' => Called synced request returned.2 around')
      (c.communicate request) around := by
  have hloop : Calling (Attempted synced request)
      (Program.iterate LetDD.Client.communicateRound { client := c, request }) around := by
    refine .iterate (Attempting synced request)
      (fun s _ => attemptsLeft s.client.supervisor) ?_ ?_
    · intro s around hattempting
      exact hattempting.round_spec (fun s' around' hagain hless => ⟨hagain, hless⟩)
        fun s' around' hover => hover
    · exact ⟨hsound, hattached, hheard, rfl, (fun h => nomatch h), (fun h => (h rfl).elim),
        fun _ => hreset⟩
  exact .bind (hloop.weaken fun s around' hattempted => hattempted.done_spec)

end Rounds

end LetDX.Wire
