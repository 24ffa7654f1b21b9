import LetDX.Effects.Safety
import LetDX.Wire.Calls
import LetDX.Wire.Execution

/-! # What a call keeps, and what its response means

At every instant of a call the log can be traced back to the calls, and if the
call returns a response, the ledger has acted on its request meanwhile.
-/

namespace LetDX.Wire

open Effects LetDB

/-- What holds throughout a call with this number, since this was the log. -/
structure Watched (first : List StorageWalEntry) (asked : Nat → Option StorageWalEntryData)
    (floor : List StorageWalEntry) (call : Nat) (around : Surroundings) : Prop where
  call_eq : around.call = call
  sound : Sound around.service
  traced : Traced first asked around.service
  since : floor <+: around.service.log

section Syscalls

variable {first floor : List StorageWalEntry} {asked : Nat → Option StorageWalEntryData}
  {call connection : Nat} {around : Surroundings} {state : Service → Prop}

/-- The server may take any steps first. -/
theorem Watched.perform (op : LetDD.Syscall) {post : op.Answer → Surroundings → Prop}
    (hwatched : Watched first asked floor call around) (hpersists : Persists state)
    (hstate : state around.service)
    (hafter : ∀ middle answer around', Watched first asked floor call middle →
      state middle.service → Surroundings.Allows op middle answer around' →
      Watched first asked floor call around' ∧ post answer around') :
    network.Keeps (Watched first asked floor call) post
      (Program.perform (I := LetDD.host) op) around := by
  refine .perform hwatched ?_
  intro answer around' hperforms
  obtain ⟨service, hreach, hallows⟩ := Machine.allowed_of_performs hperforms
  suffices hmiddle : Watched first asked floor call { around with service } ∧ state service from
    hafter _ answer around' hmiddle.1 hmiddle.2 hallows
  clear hallows
  induction hreach with
  | refl => exact ⟨hwatched, hstate⟩
  | tail _ hserved ih =>
      obtain ⟨hbefore, hholds⟩ := ih
      refine ⟨⟨hbefore.call_eq, hbefore.sound.step hserved,
        hbefore.traced.step hbefore.sound hserved,
        hbefore.since.trans (hserved.log_prefix hbefore.sound)⟩, ?_⟩
      exact hpersists _ _ hbefore.sound hholds hserved

theorem Watched.contextErr {post : Bool → Surroundings → Prop}
    (hwatched : Watched first asked floor call around) (hpersists : Persists state)
    (hstate : state around.service)
    (hpost : ∀ done around', Watched first asked floor call around' → state around'.service →
      post done around') :
    network.Keeps (Watched first asked floor call) post LetDD.Proc.contextErr around := by
  refine hwatched.perform .contextErr hpersists hstate ?_
  rintro middle done _ hwatched hstate ⟨_, rfl⟩
  have hsame : Watched first asked floor call { middle with contextDone := done } :=
    ⟨hwatched.call_eq, hwatched.sound, hwatched.traced, hwatched.since⟩
  exact ⟨hsame, hpost done _ hsame hstate⟩

theorem Watched.wait {backoff : LetDD.Duration} {post : Bool → Surroundings → Prop}
    (hwatched : Watched first asked floor call around) (hpersists : Persists state)
    (hstate : state around.service)
    (hpost : ∀ fired around', Watched first asked floor call around' → state around'.service →
      post fired around') :
    network.Keeps (Watched first asked floor call) post (LetDD.Proc.wait backoff) around := by
  refine hwatched.perform (.wait backoff) hpersists hstate ?_
  rintro middle fired _ hwatched hstate ⟨done, _, _, rfl⟩
  have hsame : Watched first asked floor call { middle with contextDone := done } :=
    ⟨hwatched.call_eq, hwatched.sound, hwatched.traced, hwatched.since⟩
  exact ⟨hsame, hpost fired _ hsame hstate⟩

theorem Watched.dial {address : String} {post : Option Nat → Surroundings → Prop}
    (hwatched : Watched first asked floor call around)
    (hfailed : ∀ around', Watched first asked floor call around' → post none around')
    (hdialed : ∀ connection around', Watched first asked floor call around' →
      Waiting connection [] around'.service → post (some connection) around') :
    network.Keeps (Watched first asked floor call) post (LetDD.Proc.dial address) around := by
  refine hwatched.perform (.dial address) persists_true trivial ?_
  rintro middle dialed around' hwatched _ (⟨rfl, rfl⟩ | ⟨rfl, rfl⟩)
  · exact ⟨hwatched, hfailed _ hwatched⟩
  · obtain ⟨hsound, hwaiting⟩ := hwatched.sound.dial
    have hafter : Watched first asked floor call
        { middle with
          service := { middle.service with dialed := middle.service.dialed + 1 } } :=
      ⟨hwatched.call_eq, hsound, hwatched.traced.dial, hwatched.since⟩
    exact ⟨hafter, hdialed _ _ hafter hwaiting⟩

theorem Watched.close {post : Bool → Surroundings → Prop}
    (hwatched : Watched first asked floor call around)
    (hdialed : connection < around.service.dialed)
    (hpost : ∀ closed around', Watched first asked floor call around' → post closed around') :
    network.Keeps (Watched first asked floor call) post (LetDD.Proc.close connection) around := by
  refine hwatched.perform (.close connection) (persists_dialed connection) hdialed ?_
  rintro middle closed _ hwatched hdialed rfl
  have hsound : Sound (middle.close connection).service :=
    hwatched.sound.setLink_of_written hdialed rfl rfl fun hconnection =>
      (hwatched.sound.waiting connection hconnection).2.2
  have hafter : Watched first asked floor call (middle.close connection) :=
    ⟨hwatched.call_eq, hsound, hwatched.traced.setLink rfl, hwatched.since⟩
  exact ⟨hafter, hpost closed _ hafter⟩

/-! ## Requests and responses -/

theorem persists_executing (floor : List StorageWalEntry) (call connection : Nat)
    (request : NetworkRequest) (before : U64) :
    Persists (Executing floor call connection request before) :=
  fun _ _ hsound hexecuting hserved => hexecuting.step hsound hserved

/-- A request that was written has not been executed yet. -/
theorem Quiet.executing {before : U64} {request : NetworkRequest}
    (hquiet : Quiet connection before around.service)
    (hwatched : Watched first asked floor call around) :
    Executing floor call connection request before
      (around.write connection (requestBytes request)).service := by
  have hcurrent := hquiet.write_current (requestBytes request)
  obtain ⟨_, hawait⟩ := hquiet.write hwatched.sound (List.prefix_refl (requestBytes request))
  refine ⟨hawait rfl, hwatched.since, ?_, ?_⟩
  · rw [hcurrent, Service.written, List.getLast?_append, List.getLast?_map]
    cases hlast : (requestBytes request).getLast? with
    | none => exact (requestBytes_ne_nil request (List.getLast?_eq_none_iff.mp hlast)).elim
    | some byte => exact congrArg some hwatched.call_eq
  · intro response hreplying
    refine (not_replying ?_ ?_ response hreplying).elim
    · rw [hcurrent, Link.pending_eq_nil]
      · exact List.not_mem_nil
      · rw [Service.written, ← hquiet.current_eq]
        exact hquiet.taken
    · intro context request response hresponding
      have hpoint : around.service.point = .responding context request response := hresponding
      rcases hquiet.idle with hended | ⟨_, hreading, _⟩
      · exact responding_ne_of_ended hended _ _ _ hpoint
      · cases hpoint.symm.trans hreading

theorem Watched.send_quiet {request : LetDD.Request} {before : U64}
    {post : Bool → Surroundings → Prop} (hwatched : Watched first asked floor call around)
    (hquiet : Quiet connection before around.service)
    (hasked : ∀ data, request.meaning.data = some data → asked call = some data)
    (hfailed : ∀ around', Watched first asked floor call around' →
      connection < around'.service.dialed → post false around')
    (hsent : ∀ around', Watched first asked floor call around' →
      Executing floor call connection request.meaning before around'.service →
      post true around') :
    network.Keeps (Watched first asked floor call) post
      (LetDD.Client.sendRequest connection request) around := by
  rw [sendRequest_eq]
  refine hwatched.perform (.write connection _) (persists_quiet connection before) hquiet ?_
  rintro middle whole _ hwatched hquiet ⟨delivered, hdelivered, hwhole, rfl⟩
  obtain ⟨hsound, _⟩ := hquiet.write hwatched.sound hdelivered
  have htraced := hwatched.traced.write_quiet hquiet hdelivered
    (by rw [hwatched.call_eq]; exact hasked)
  have hafter : Watched first asked floor call (middle.write connection delivered) :=
    ⟨hwatched.call_eq, hsound, htraced, hwatched.since⟩
  refine ⟨hafter, ?_⟩
  cases (whole : Bool) with
  | false => exact hfailed _ hafter (hquiet.dialed ▸ Nat.lt_succ_self connection)
  | true =>
      obtain rfl := hwhole rfl
      exact hsent _ hafter (hquiet.executing hwatched)

theorem Watched.send_handshake {post : Bool → Surroundings → Prop}
    (hwatched : Watched first asked floor call around)
    (hopened : Opened connection around.service)
    (hfailed : ∀ around', Watched first asked floor call around' →
      connection < around'.service.dialed → post false around')
    (hsent : ∀ around', Watched first asked floor call around' →
      Greeted connection around'.service → post true around') :
    network.Keeps (Watched first asked floor call) post
      (LetDD.Client.sendRequest connection .countDatabase) around := by
  rw [sendRequest_eq]
  refine hwatched.perform (.write connection _) (persists_opened connection) hopened ?_
  rintro middle whole _ hwatched (hwaiting | ⟨transactions, hquiet⟩)
    ⟨delivered, hdelivered, hwhole, rfl⟩
  · obtain ⟨hsound, hwritten⟩ := hwaiting.write hwatched.sound hdelivered
    have hafter : Watched first asked floor call (middle.write connection delivered) :=
      ⟨hwatched.call_eq, hsound, hwatched.traced.write_waiting hwaiting hwatched.sound,
        hwatched.since⟩
    refine ⟨hafter, ?_⟩
    cases (whole : Bool) with
    | false => exact hfailed _ hafter (hwritten.dialed ▸ Nat.lt_succ_self connection)
    | true => exact hsent _ hafter (.inl (hwhole rfl ▸ hwritten))
  · obtain ⟨hsound, hawait⟩ := hquiet.write hwatched.sound hdelivered
    have htraced := hwatched.traced.write_quiet hquiet hdelivered fun _ hdata => nomatch hdata
    have hafter : Watched first asked floor call (middle.write connection delivered) :=
      ⟨hwatched.call_eq, hsound, htraced, hwatched.since⟩
    refine ⟨hafter, ?_⟩
    cases (whole : Bool) with
    | false => exact hfailed _ hafter (hquiet.dialed ▸ Nat.lt_succ_self connection)
    | true => exact hsent _ hafter (.inr ⟨transactions, hawait (hwhole rfl)⟩)

/-- A line to read is the response that is pending. -/
theorem Await.replying {request : NetworkRequest} {before : U64} {body : List U8}
    {response : NetworkResponse} (hawait : Await connection request before around.service)
    (hline : body ++ [asciiNewline] <+: (around.service.links connection).pending)
    (hwhole : body ++ [asciiNewline] = response.bytes) : around.service.Replying response := by
  have hlink : around.service.current = around.service.links connection := by
    rw [Service.current, hawait.accepted]
    rfl
  rw [← hlink] at hline
  have hmem : asciiNewline ∈ around.service.current.pending := hline.subset (by simp)
  have hnothing (taken : around.service.current.taken = around.service.current.sent.length) :
      False := by
    rw [Link.pending_eq_nil taken] at hmem
    exact List.not_mem_nil hmem
  cases hawait.stage with
  | unread point bytes taken => exact (hnothing taken).elim
  | processing point taken => exact (hnothing taken).elim
  | responding point taken => exact (hnothing taken).elim
  | lost idle newline => exact (newline hmem).elim
  | replied idle pending =>
      refine .inr ?_
      rw [pending, hwhole] at hline
      rw [pending]
      rcases eq_bytes_or_newline_notMem hline with hsame | hno
      · exact hsame.symm
      · exact (hno (newline_mem_bytes response)).elim

/-- Reading the line that is there and parsing it. -/
theorem Watched.parse {request : NetworkRequest} {before : U64} {body : List U8}
    {post : Option LetDD.Response → Surroundings → Prop}
    (hwatched : Watched first asked floor call around)
    (hawait : Await connection request before around.service)
    (hline : body ++ [asciiNewline] <+: (around.service.links connection).pending)
    (hreceived : ∀ around' response transactions, Watched first asked floor call around' →
      Quiet connection transactions around'.service → around.service.Replying response →
      around.service.Later around'.service → post (some response.meaning) around') :
    Watched first asked floor call (around.read connection (body ++ [asciiNewline])) ∧
      network.Keeps (Watched first asked floor call) post
        (pure (LetDD.parseResponse (body ++ [asciiNewline])))
        (around.read connection (body ++ [asciiNewline])) := by
  obtain ⟨response, transactions, hwhole, _, hsound, hquiet⟩ := hawait.read hwatched.sound hline
  have hafter : Watched first asked floor call
      (around.read connection (body ++ [asciiNewline])) :=
    ⟨hwatched.call_eq, hsound, hwatched.traced.setLink rfl, hwatched.since⟩
  refine ⟨hafter, ?_⟩
  have hreplying := hawait.replying hline hwhole
  have hparsed : LetDD.parseResponse (body ++ [asciiNewline]) = some response.meaning := by
    rw [hwhole, parseResponse_bytes]
  rw [hparsed]
  exact .pure hafter (hreceived _ response transactions hafter hquiet hreplying
    ⟨rfl, List.prefix_rfl, List.prefix_rfl, Nat.le_refl _⟩)

theorem Watched.receive {request : NetworkRequest} {before : U64}
    {post : Option LetDD.Response → Surroundings → Prop}
    (hwatched : Watched first asked floor call around)
    (hexecuting : Executing floor call connection request before around.service)
    (hfailed : ∀ around', Watched first asked floor call around' →
      connection < around'.service.dialed → post none around')
    (hreceived : ∀ around' response transactions, Watched first asked floor call around' →
      Quiet connection transactions around'.service →
      Executed floor call request response around'.service → post (some response) around') :
    network.Keeps (Watched first asked floor call) post
      (LetDD.Client.receiveResponse connection) around := by
  refine .bind (hwatched.perform (.readBytes connection)
    (persists_executing floor call connection request before) hexecuting ?_)
  rintro middle read around' hwatched hexecuting (⟨rfl, rfl⟩ | ⟨body, _, rfl, hline, rfl⟩)
  · exact ⟨hwatched, .pure hwatched
      (hfailed _ hwatched (hexecuting.await.dialed ▸ Nat.lt_succ_self connection))⟩
  · refine hwatched.parse hexecuting.await hline ?_
    intro around' response transactions hafter hquiet hreplying hlater
    exact hreceived around' _ transactions hafter hquiet
      ((hexecuting.executed response hreplying).later hlater)

theorem Watched.receive_handshake {post : Option LetDD.Response → Surroundings → Prop}
    (hwatched : Watched first asked floor call around)
    (hgreeted : Greeted connection around.service)
    (hfailed : ∀ around', Watched first asked floor call around' →
      connection < around'.service.dialed → post none around')
    (hreceived : ∀ around' response transactions, Watched first asked floor call around' →
      Quiet connection transactions around'.service → post (some response) around') :
    network.Keeps (Watched first asked floor call) post
      (LetDD.Client.receiveResponse connection) around := by
  refine .bind (hwatched.perform (.readBytes connection) (persists_greeted connection) hgreeted ?_)
  rintro middle read around' hwatched (hwaiting | ⟨before, hawait⟩)
    (⟨rfl, rfl⟩ | ⟨body, _, rfl, hline, rfl⟩)
  · exact ⟨hwatched, .pure hwatched
      (hfailed _ hwatched (hwaiting.dialed ▸ Nat.lt_succ_self connection))⟩
  · rw [Link.pending, (hwatched.sound.waiting connection hwaiting.accepted).2.1,
      List.drop_nil] at hline
    simp at hline
  · exact ⟨hwatched, .pure hwatched
      (hfailed _ hwatched (hawait.dialed ▸ Nat.lt_succ_self connection))⟩
  · refine hwatched.parse hawait hline ?_
    intro around' response transactions hafter hquiet _ _
    exact hreceived around' _ transactions hafter hquiet

theorem Watched.disconnect {c : LetDD.Client} {post : LetDD.Client → Surroundings → Prop}
    (hwatched : Watched first asked floor call around)
    (hconnection : c.connection = some connection)
    (hdialed : connection < around.service.dialed)
    (hpost : ∀ around', Watched first asked floor call around' →
      post { c with connection := none } around') :
    network.Keeps (Watched first asked floor call) post c.disconnect around := by
  rw [LetDD.Client.disconnect, hconnection]
  refine .bind (hwatched.close hdialed ?_)
  intro closed around' hafter
  exact .pure hafter (hpost around' hafter)

/-! ## Connecting -/

theorem Watched.handshake {c : LetDD.Client} {post : Bool × LetDD.Client → Surroundings → Prop}
    (hwatched : Watched first asked floor call around)
    (hconnection : c.connection = some connection) (hopened : Opened connection around.service)
    (hfailed : ∀ around', Watched first asked floor call around' →
      post (false, { c with connection := none }) around')
    (hgreeted : ∀ around' counted, Watched first asked floor call around' →
      (∃ transactions, Quiet connection transactions around'.service) →
      post (true, { c with transactions := counted }) around') :
    network.Keeps (Watched first asked floor call) post (c.handshake connection) around := by
  have hgone (middle : Surroundings) (hwatched : Watched first asked floor call middle)
      (hdialed : connection < middle.service.dialed) :
      network.Keeps (Watched first asked floor call) post
        (do let c ← c.disconnect; return (false, c)) middle := by
    refine .bind (hwatched.disconnect hconnection hdialed ?_)
    intro around' hafter
    exact .pure hafter (hfailed around' hafter)
  refine .bind (hwatched.send_handshake hopened hgone ?_)
  intro middle hwatched hgreeting
  refine .bind (hwatched.receive_handshake hgreeting hgone ?_)
  intro around' response transactions hafter hquiet
  have hdialed : connection < around'.service.dialed :=
    hquiet.dialed ▸ Nat.lt_succ_self connection
  cases response with
  | countDatabase accounts counted =>
      exact .pure hafter (hgreeted around' counted hafter ⟨transactions, hquiet⟩)
  | magic | addAccount | getAccount | ok | error => exact hgone around' hafter hdialed

theorem Watched.connect {c : LetDD.Client} {post : Bool × LetDD.Client → Surroundings → Prop}
    (hwatched : Watched first asked floor call around)
    (hattached : Attached False c around.service)
    (hfailed : ∀ c' around', Watched first asked floor call around' → c'.connection = none →
      post (false, c') around')
    (hconnected : ∀ c' connection around', Watched first asked floor call around' →
      c'.connection = some connection → Attached False c' around'.service →
      post (true, c') around') :
    network.Keeps (Watched first asked floor call) post c.connect around := by
  cases hconnection : c.connection with
  | some connection =>
      rw [LetDD.Client.connect, hconnection]
      exact .pure hwatched (hconnected c connection around hwatched hconnection hattached)
  | none =>
      rw [LetDD.Client.connect, hconnection]
      refine .bind (hwatched.dial ?_ ?_)
      · intro middle hwatched
        refine .bind (hwatched.contextErr persists_true trivial ?_)
        intro done around' hafter _
        cases done with
        | true | false => exact .pure hafter (hfailed c around' hafter hconnection)
      · intro connection middle hwatched hwaiting
        refine .bind (hwatched.contextErr (persists_opened connection) (.inl hwaiting) ?_)
        intro done around' hafter hopened
        cases done with
        | true => exact .pure hafter (hfailed c around' hafter hconnection)
        | false =>
            refine hafter.handshake rfl hopened ?_ ?_
            · exact fun around' hafter => hfailed _ around' hafter rfl
            · rintro around' counted hafter ⟨transactions, hquiet⟩
              refine hconnected _ connection around' hafter rfl ?_
              rintro _ ⟨⟩
              exact ⟨transactions, hquiet, False.elim⟩

end Syscalls

/-! ## Attempts -/

open LetDD.Client (Communicate)

/-- The requests differ in their sequence numbers only. -/
structure Alike (request request' : LetDD.Request) : Prop where
  data : request.meaning.data = request'.meaning.data
  tells : ∀ log, tells log request.meaning = tells log request'.meaning

theorem Alike.of_setID {request request' : LetDD.Request} {id : U64}
    (hset : request.setID id = some request') : Alike request' request := by
  cases request with
  | addAccount | makeTransfer | updateAccount =>
      obtain rfl := Option.some.inj hset
      exact ⟨rfl, fun _ => rfl⟩
  | magic | getAccount | countDatabase | close => cases hset

theorem Alike.trans {request request' request'' : LetDD.Request} (hfirst : Alike request request')
    (hsecond : Alike request' request'') : Alike request request'' :=
  ⟨hfirst.data.trans hsecond.data, fun log => (hfirst.tells log).trans (hsecond.tells log)⟩

/-- Between two attempts. -/
structure Trying (request : LetDD.Request) (s : Communicate) (service : Service) : Prop where
  attached : Attached False s.client service
  alike : Alike s.request request
  unanswered : ∀ response, s.outcome ≠ some (.ok response)

/-- After the last attempt. -/
structure Tried (floor : List StorageWalEntry) (call : Nat) (request : LetDD.Request)
    (s : Communicate) (service : Service) : Prop where
  attached : Attached False s.client service
  executed : ∀ response, s.outcome = some (.ok response) →
    Executed floor call request.meaning response service

section Attempts

variable {first floor : List StorageWalEntry} {asked : Nat → Option StorageWalEntryData}
  {call connection : Nat} {around : Surroundings} {request : LetDD.Request} {s : Communicate}

theorem persists_trying (request : LetDD.Request) (s : Communicate) :
    Persists (Trying request s) :=
  fun _ _ hsound htrying hserved => ⟨persists_attached False s.client _ _ hsound htrying.attached
    hserved, htrying.alike, htrying.unanswered⟩

theorem persists_tried (floor : List StorageWalEntry) (call : Nat) (request : LetDD.Request)
    (s : Communicate) : Persists (Tried floor call request s) := by
  intro service service' hsound htried hserved
  refine ⟨persists_attached False s.client _ _ hsound htried.attached hserved, ?_⟩
  intro response houtcome
  exact (htried.executed response houtcome).later (hserved.later hsound)

/-- What one round of the loop leaves. -/
def Rounded (first : List StorageWalEntry) (asked : Nat → Option StorageWalEntryData)
    (floor : List StorageWalEntry) (call : Nat) (request : LetDD.Request)
    (round : Communicate ⊕ Communicate) (around : Surroundings) : Prop :=
  Watched first asked floor call around ∧
    match round with
    | .inl s => Trying request s around.service
    | .inr s => Tried floor call request s around.service

/-- The invariant of the loop. -/
abbrev Round (first : List StorageWalEntry) (asked : Nat → Option StorageWalEntryData)
    (floor : List StorageWalEntry) (call : Nat) (request : LetDD.Request)
    (program : LetDD.Proc (Communicate ⊕ Communicate)) (around : Surroundings) : Prop :=
  network.Keeps (Watched first asked floor call) (Rounded first asked floor call request) program
    around

theorem Trying.try {supervisor : LetDD.Supervisor}
    {post : Bool × LetDD.Supervisor → Surroundings → Prop}
    (htrying : Trying request s around.service) (hwatched : Watched first asked floor call around)
    (hpost : ∀ granted supervisor' around', Watched first asked floor call around' →
      Trying request s around'.service → post (granted, supervisor') around') :
    network.Keeps (Watched first asked floor call) post supervisor.try around := by
  refine .bind (hwatched.contextErr (persists_trying request s) htrying ?_)
  intro done middle hwatched htrying
  split
  · exact .pure hwatched (hpost false supervisor middle hwatched htrying)
  · split
    · exact .pure hwatched (hpost true _ middle hwatched htrying)
    · split
      · exact .pure hwatched (hpost false supervisor middle hwatched htrying)
      · refine .bind (hwatched.wait (persists_trying request s) htrying ?_)
        intro fired around' hafter htrying
        cases fired with
        | true => exact .pure hafter (hpost true _ around' hafter htrying)
        | false => exact .pure hafter (hpost false supervisor around' hafter htrying)

/-- An attempt that fails leaves no connection. -/
theorem Watched.disconnected (hwatched : Watched first asked floor call around)
    (hconnection : s.client.connection = some connection) (halike : Alike s.request request)
    (hdialed : connection < around.service.dialed) :
    Round first asked floor call request (do
      let client ← s.client.disconnect
      return .inl { s with client, outcome := some (.error ()) }) around := by
  refine .bind (hwatched.disconnect hconnection hdialed ?_)
  intro around' hafter
  refine .pure hafter ⟨hafter, attached_none rfl, halike, ?_⟩
  intro response houtcome
  nomatch houtcome

theorem Watched.transmit {before : U64} (hwatched : Watched first asked floor call around)
    (hconnection : s.client.connection = some connection) (halike : Alike s.request request)
    (hquiet : Quiet connection before around.service)
    (hasked : ∀ data, request.meaning.data = some data → asked call = some data) :
    Round first asked floor call request (LetDD.Client.transmit s connection) around := by
  have hgone (middle : Surroundings) (hwatched : Watched first asked floor call middle)
      (hdialed : connection < middle.service.dialed) :=
    hwatched.disconnected hconnection halike hdialed
  refine .bind (hwatched.send_quiet hquiet (by rw [halike.data]; exact hasked) hgone ?_)
  intro middle hwatched hexecuting
  refine .bind (hwatched.receive hexecuting hgone ?_)
  intro around' response transactions hafter hquiet hexecuted
  refine .pure hafter ⟨hafter, ?_, ?_⟩
  · intro connection' hconnection'
    obtain rfl := Option.some.inj (hconnection.symm.trans hconnection')
    exact ⟨transactions, hquiet, False.elim⟩
  · rintro _ ⟨⟩
    exact hexecuted.congr halike.data.symm fun log => (halike.tells log).symm

theorem Watched.exchange (hwatched : Watched first asked floor call around)
    (htrying : Trying request s around.service)
    (hconnection : s.client.connection = some connection)
    (hasked : ∀ data, request.meaning.data = some data → asked call = some data) :
    Round first asked floor call request (LetDD.Client.exchange s connection) around := by
  obtain ⟨before, hquiet, _⟩ := htrying.attached connection hconnection
  cases hset : s.request.setID s.client.transactions with
  | none =>
      rw [LetDD.Client.exchange_of_none connection hset]
      exact hwatched.transmit hconnection htrying.alike hquiet hasked
  | some numbered =>
      have halike : Alike numbered request := (Alike.of_setID hset).trans htrying.alike
      rw [LetDD.Client.exchange_of_some connection hset]
      exact hwatched.transmit hconnection halike hquiet hasked

theorem Trying.round (htrying : Trying request s around.service)
    (hwatched : Watched first asked floor call around)
    (hasked : ∀ data, request.meaning.data = some data → asked call = some data) :
    Round first asked floor call request (LetDD.Client.communicateRound s) around := by
  refine .bind (htrying.try hwatched ?_)
  intro granted supervisor middle hwatched htrying
  cases granted with
  | false =>
      refine .pure hwatched ⟨hwatched, htrying.attached, ?_⟩
      intro response houtcome
      exact (htrying.unanswered response houtcome).elim
  | true =>
      have hattached : Attached False { s.client with supervisor } middle.service :=
        htrying.attached
      refine .bind (hwatched.connect hattached ?_ ?_)
      · intro c' around' hafter hnone
        refine .pure hafter ⟨hafter, attached_none hnone, htrying.alike, ?_⟩
        intro response houtcome
        nomatch houtcome
      · intro c' connection around' hafter hconnection hattached
        dsimp only
        rw [hconnection]
        exact hafter.exchange ⟨hattached, htrying.alike, htrying.unanswered⟩ hconnection hasked

/-! ## The whole call -/

/-- What a call leaves. -/
structure Answered (first floor : List StorageWalEntry) (asked : Nat → Option StorageWalEntryData)
    (call : Nat) (request : LetDD.Request)
    (returned : Except LetDD.CommunicateError LetDD.Response × LetDD.Client)
    (around : Surroundings) : Prop where
  watched : Watched first asked floor call around
  attached : Attached False returned.2 around.service
  executed : ∀ response, returned.1 = .ok response →
    Executed floor call request.meaning response around.service

theorem Tried.done (htried : Tried floor call request s around.service)
    (hwatched : Watched first asked floor call around) :
    network.Keeps (Watched first asked floor call) (Answered first floor asked call request)
      (LetDD.Client.communicateDone s) around := by
  refine .bind (hwatched.contextErr (persists_tried floor call request s) htried ?_)
  intro done around' hafter htried
  have hleft {returned : Except LetDD.CommunicateError LetDD.Response × LetDD.Client}
      (hconnection : returned.2.connection = s.client.connection)
      (hresult : ∀ response, returned.1 = .ok response → s.outcome = some (.ok response)) :
      Answered first floor asked call request returned around' := by
    refine ⟨hafter, ?_, fun response heq => htried.executed response (hresult response heq)⟩
    intro connection hconnected
    obtain ⟨transactions, hquiet, _⟩ := htried.attached connection (hconnection ▸ hconnected)
    exact ⟨transactions, hquiet, False.elim⟩
  cases done with
  | true => exact .pure hafter (hleft rfl fun _ heq => nomatch heq)
  | false =>
      rw [if_neg (by decide)]
      cases houtcome : s.outcome with
      | none => exact .fault hafter
      | some outcome =>
          cases outcome with
          | error => exact .pure hafter (hleft rfl fun _ heq => nomatch heq)
          | ok response =>
              dsimp only
              split
              · refine .pure hafter (hleft rfl ?_)
                rintro _ ⟨⟩
                exact houtcome
              · refine .pure hafter (hleft rfl ?_)
                rintro _ ⟨⟩
                exact houtcome

/-- Whatever fails during a call, its response is that of an execution since it
began, and what it wrote can be traced back to it. -/
theorem Watched.communicate {c : LetDD.Client} (hwatched : Watched first asked floor call around)
    (hattached : Attached False c around.service)
    (hasked : ∀ data, request.meaning.data = some data → asked call = some data) :
    network.Keeps (Watched first asked floor call) (Answered first floor asked call request)
      (c.communicate request) around := by
  have htrying : Trying request { client := c, request } around.service :=
    ⟨hattached, ⟨rfl, fun _ => rfl⟩, fun _ heq => nomatch heq⟩
  have hloop : network.Keeps (Watched first asked floor call)
      (fun s around' => Watched first asked floor call around' ∧
        Tried floor call request s around'.service)
      (Program.iterate LetDD.Client.communicateRound { client := c, request }) around := by
    refine .iterate (fun s around' => Watched first asked floor call around' ∧
      Trying request s around'.service) ?_ ⟨hwatched, htrying⟩
    rintro s around' ⟨hbefore, hbetween⟩
    refine (hbetween.round hbefore hasked).weaken ?_
    rintro (s' | s') last hrounded
    · exact hrounded
    · exact hrounded
  exact .bind (hloop.weaken fun s around' hafter => hafter.2.done hafter.1)

end Attempts

end LetDX.Wire
