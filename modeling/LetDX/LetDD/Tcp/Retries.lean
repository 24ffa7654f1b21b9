import LetDX.Effects.Noting
import LetDX.LetDD.Numerals
import LetDX.LetDD.Tcp.Client

/-! # How a call retries

Whatever the server and the network do, a call makes no more attempts than the
supervisor allows, waits before each but the first for the delay that belongs to
it, and comes to an end. It gives the supervisor back as it was, so that no call
has to pay for the failures of another. Each of its operations returns here: a read
has no deadline and is not cut short by the context, so it returns only if the
server answers or the connection fails.
-/

namespace LetDX.LetDD

open Effects Machine

/-- Any answer may be given, but a context that is done stays done, and a timer
that has not fired was cut short by the context. -/
def contextual : Machine host Bool where
  Choice := Syscall.Answer
  exec
    | .contextErr, (cancelled : Bool), done => (done || cancelled, done || cancelled)
    | .wait _, (fired : Bool), done => (fired, done || !fired)
    | .dial _, (connection : Option Nat), done => (connection, done)
    | .write .., (whole : Bool), done => (whole, done)
    | .readBytes _, (read : Option (List U8)), done => (read, done)
    | .close _, (closed : Bool), done => (closed, done)

/-- The delays that were waited for, how often the server was dialed, and the
lines that were written, in whole or in part. -/
structure Effort where
  waits : List Duration := []
  dials : Nat := 0
  lines : List (List U8) := []
  deriving DecidableEq, Repr

def Effort.note (call : Syscall) (_ : call.Answer) (_ : Bool) (effort : Effort) : Effort :=
  match call with
  | .wait backoff => { effort with waits := effort.waits ++ [backoff] }
  | .dial _ => { effort with dials := effort.dials + 1 }
  | .write _ bytes => { effort with lines := effort.lines ++ [bytes] }
  | .contextErr | .readBytes _ | .close _ => effort

/-- Any surroundings, with notes of the effort of the call. -/
def enduring : Machine host (Bool × Effort) :=
  contextual.noting Effort.note

abbrev Endures {α : Type} (post : α → Bool × Effort → Prop) (program : Proc α)
    (world : Bool × Effort) : Prop :=
  enduring.Ensures (fun _ => True) post program world

/-- The delay before an attempt, counted from zero for the second. -/
def Supervisor.delay (s : Supervisor) (index : Nat) : Duration :=
  { s with currentTry := BitVec.ofNat 64 (index + 1) }.calculateBackoff

/-- How many attempts a call may make: one, even if none is allowed. -/
def Supervisor.attempts (s : Supervisor) : Nat :=
  max 1 s.cancelAfter.toNat

/-- The same request, with a sequence number or without. -/
def Request.Means (request asked : Request) : Prop :=
  asked = request ∨ ∃ id, request.setID id = some asked

theorem Request.Means.setID {request asked renumbered : Request} {id : U64}
    (hmeans : request.Means asked) (hset : asked.setID id = some renumbered) :
    request.Means renumbered := by
  rcases hmeans with rfl | ⟨first, hfirst⟩
  · exact .inr ⟨id, hset⟩
  · refine .inr ⟨id, ?_⟩
    rw [← hset]
    cases request with
    | magic | getAccount | countDatabase | close => cases hfirst
    | addAccount | makeTransfer | updateAccount =>
        obtain rfl := Option.some.inj hfirst
        rfl

theorem Request.exists_encode (request : Request) : ∃ line, request.encode = some line := by
  cases request with
  | magic | countDatabase | close | getAccount | updateAccount => exact ⟨_, rfl⟩
  | addAccount walID credits debits flags =>
      rw [encode, credits.bytes_eq, debits.bytes_eq]
      exact ⟨_, rfl⟩
  | makeTransfer walID fromID toID amount =>
      rw [encode, amount.bytes_eq]
      exact ⟨_, rfl⟩

/-- A line of the handshake or of the request. -/
def Spoken (request : Request) (line : List U8) : Prop :=
  Request.countDatabase.encode = some line ∨
    ∃ asked, request.Means asked ∧ asked.encode = some line

/-- The effort of so many attempts, with no more dials and no more lines than these. -/
structure Spent (supervisor : Supervisor) (request : Request) (attempts dialing sending : Nat)
    (effort : Effort) : Prop where
  waits : effort.waits = (List.range (attempts - 1)).map supervisor.delay
  dials : effort.dials ≤ dialing
  lines : effort.lines.length ≤ sending
  spoken : ∀ line ∈ effort.lines, Spoken request line

/-- Between two rounds of the loop. -/
structure Persisting (supervisor : Supervisor) (request : Request) (s : Client.Communicate)
    (effort : Effort) : Prop where
  same : s.client.supervisor =
    { supervisor with currentTry := s.client.supervisor.currentTry }
  allowed : s.client.supervisor.currentTry.toNat ≤ supervisor.attempts
  means : request.Means s.request
  first : s.outcome = none → s.client.supervisor.currentTry = 0
  failed : s.outcome ≠ none → s.outcome = some (.error ())
  spent : Spent supervisor request s.client.supervisor.currentTry.toNat
    s.client.supervisor.currentTry.toNat (2 * s.client.supervisor.currentTry.toNat) effort

/-! ## Single calls -/

section Calls

variable {world : Bool × Effort} {supervisor : Supervisor} {request : Request}
  {attempts dialing sending : Nat} {c : Client}

theorem enduring_call (call : Syscall) {post : call.Answer → Bool × Effort → Prop}
    (hafter : ∀ answer : call.Answer, post (contextual.exec call answer world.1).1
      ((contextual.exec call answer world.1).2, Effort.note call answer world.1 world.2)) :
    Endures post (Program.perform (I := host) call) world := by
  have hchoice : Nonempty (enduring.Choice call) := by
    cases call with
    | dial | readBytes => exact ⟨(none : Option _)⟩
    | contextErr | wait | write | close => exact ⟨false⟩
  exact .perform trivial fun answer => ⟨trivial, hafter answer⟩

theorem contextErr_endures {post : Bool → Bool × Effort → Prop}
    (hdone : post true (true, world.2)) (hgoes : world.1 = false → post false (false, world.2)) :
    Endures post Proc.contextErr world := by
  obtain ⟨done, effort⟩ := world
  refine enduring_call .contextErr fun (cancelled : Bool) => ?_
  cases done with
  | true => exact hdone
  | false =>
      cases cancelled with
      | true => exact hdone
      | false => exact hgoes rfl

theorem disconnect_endures {post : Client → Bool × Effort → Prop}
    (hpost : post { c with connection := none } world) : Endures post c.disconnect world := by
  rw [Client.disconnect]
  split
  next hnone =>
    rw [← hnone] at hpost
    exact .pure trivial hpost
  next connection _ =>
    exact .bind (enduring_call (.close connection) fun _ => .pure trivial hpost)

theorem Spent.write {effort : Effort} {asked : Request} {line : List U8}
    (hspent : Spent supervisor request attempts dialing sending effort)
    (hasked : request.Means asked ∨ asked = .countDatabase) (hline : asked.encode = some line) :
    Spent supervisor request attempts dialing (sending + 1)
      { effort with lines := effort.lines ++ [line] } where
  waits := hspent.waits
  dials := hspent.dials
  lines := by
    rw [List.length_append, List.length_singleton]
    exact Nat.succ_le_succ hspent.lines
  spoken := by
    intro other hother
    rcases List.mem_append.mp hother with hbefore | hlast
    · exact hspent.spoken other hbefore
    · obtain rfl := List.mem_singleton.mp hlast
      rcases hasked with hmeans | rfl
      · exact .inr ⟨asked, hmeans, hline⟩
      · exact .inl hline

theorem sendRequest_endures {connection : Nat} {asked : Request}
    {post : Bool → Bool × Effort → Prop}
    (hspent : Spent supervisor request attempts dialing sending world.2)
    (hasked : request.Means asked ∨ asked = .countDatabase)
    (hpost : ∀ whole effort, Spent supervisor request attempts dialing (sending + 1) effort →
      post whole (world.1, effort)) :
    Endures post (Client.sendRequest connection asked) world := by
  obtain ⟨line, hline⟩ := asked.exists_encode
  rw [Client.sendRequest, hline]
  exact enduring_call (.write connection line) fun whole =>
    hpost whole _ (hspent.write hasked hline)

theorem receiveResponse_endures {connection : Nat} {post : Option Response → Bool × Effort → Prop}
    (hpost : ∀ response, post response world) :
    Endures post (Client.receiveResponse connection) world := by
  refine .bind (enduring_call (.readBytes connection) fun (read : Option (List U8)) => ?_)
  cases read with
  | none => exact .pure trivial (hpost none)
  | some data => exact .pure trivial (hpost (parseResponse data))

/-- A new connection, and the line of the handshake on it. -/
theorem handshake_endures {connection : Nat} {post : Bool × Client → Bool × Effort → Prop}
    (hspent : Spent supervisor request attempts dialing sending world.2)
    (hconnection : c.connection = some connection)
    (hpost : ∀ greeted c' effort, c'.supervisor = c.supervisor →
      (greeted = true → c'.connection ≠ none) →
      Spent supervisor request attempts dialing (sending + 1) effort →
      post (greeted, c') (world.1, effort)) :
    Endures post (c.handshake connection) world := by
  have hdisconnect {effort : Effort}
      (hspent : Spent supervisor request attempts dialing (sending + 1) effort) :
      Endures post (do let c ← c.disconnect; return (false, c)) (world.1, effort) := by
    refine .bind (disconnect_endures (.pure trivial ?_))
    exact hpost false _ effort rfl (by simp) hspent
  refine .bind (sendRequest_endures hspent (.inr rfl) ?_)
  intro whole effort hspent'
  cases whole with
  | false => exact hdisconnect hspent'
  | true =>
      refine .bind (receiveResponse_endures fun response => ?_)
      cases response with
      | none => exact hdisconnect hspent'
      | some response =>
          cases response with
          | countDatabase accounts transactions =>
              refine .pure trivial (hpost true _ effort rfl (fun _ => ?_) hspent')
              simp [hconnection]
          | _ => exact hdisconnect hspent'

theorem Spent.mono {dialing' sending' : Nat} {effort : Effort}
    (hspent : Spent supervisor request attempts dialing sending effort)
    (hdialing : dialing ≤ dialing') (hsending : sending ≤ sending') :
    Spent supervisor request attempts dialing' sending' effort :=
  ⟨hspent.waits, hspent.dials.trans hdialing, hspent.lines.trans hsending, hspent.spoken⟩

theorem connect_endures {post : Bool × Client → Bool × Effort → Prop}
    (hspent : Spent supervisor request attempts dialing sending world.2)
    (hpost : ∀ connected c' done effort, c'.supervisor = c.supervisor →
      (connected = true → c'.connection ≠ none) →
      Spent supervisor request attempts (dialing + 1) (sending + 1) effort →
      post (connected, c') (done, effort)) :
    Endures post c.connect world := by
  rw [Client.connect]
  split
  next connection hconnection =>
    refine .pure trivial (hpost true c world.1 world.2 rfl ?_ (hspent.mono ?_ ?_))
    · simp [hconnection]
    · exact Nat.le_succ _
    · exact Nat.le_succ _
  next hnone =>
    refine .bind (enduring_call (.dial c.address) fun (dialed : Option Nat) => ?_)
    have hdialed : Spent supervisor request attempts (dialing + 1) sending
        { world.2 with dials := world.2.dials + 1 } :=
      ⟨hspent.waits, Nat.succ_le_succ hspent.dials, hspent.lines, hspent.spoken⟩
    have hfailed (done : Bool) : post (false, c)
        (done, { world.2 with dials := world.2.dials + 1 }) :=
      hpost false c done _ rfl (by simp) (hdialed.mono le_rfl (Nat.le_succ _))
    refine .bind (contextErr_endures (.pure trivial (hfailed true)) fun _ => ?_)
    rw [if_neg (by decide)]
    cases dialed with
    | none => exact .pure trivial (hfailed false)
    | some connection =>
        refine handshake_endures hdialed rfl ?_
        intro greeted c' effort hsupervisor hconnected hspent'
        exact hpost greeted c' false effort hsupervisor hconnected hspent'

/-- The end of an attempt on a connection. -/
theorem transmit_endures {s : Client.Communicate} {connection : Nat}
    {post : Client.Communicate ⊕ Client.Communicate → Bool × Effort → Prop}
    (hspent : Spent supervisor request attempts dialing sending world.2)
    (hmeans : request.Means s.request)
    (hanswered : ∀ response effort, Spent supervisor request attempts dialing (sending + 1) effort →
      post (.inr { s with outcome := some (.ok response) }) (world.1, effort))
    (hfailed : ∀ client effort, client.supervisor = s.client.supervisor →
      Spent supervisor request attempts dialing (sending + 1) effort →
      post (.inl { s with client, outcome := some (.error ()) }) (world.1, effort)) :
    Endures post (Client.transmit s connection) world := by
  have hdisconnect {effort : Effort}
      (hspent : Spent supervisor request attempts dialing (sending + 1) effort) :
      Endures post (do
        let client ← s.client.disconnect
        return .inl { s with client, outcome := some (.error ()) }) (world.1, effort) := by
    refine .bind (disconnect_endures (.pure trivial ?_))
    exact hfailed _ effort rfl hspent
  refine .bind (sendRequest_endures hspent (.inl hmeans) ?_)
  intro whole effort hspent'
  cases whole with
  | false => exact hdisconnect hspent'
  | true =>
      refine .bind (receiveResponse_endures fun response => ?_)
      cases response with
      | none => exact hdisconnect hspent'
      | some response => exact .pure trivial (hanswered response effort hspent')

/-- The supervisor lets an attempt begin when the delay that belongs to it is over,
or refuses it to a context that is done and when all attempts are made. -/
theorem try_endures {s : Supervisor} {post : Bool × Supervisor → Bool × Effort → Prop}
    (hrefused : ∀ done effort, (effort = world.2 ∨ s.currentTry ≠ 0 ∧ done = true ∧
        effort = { world.2 with waits := world.2.waits ++ [s.calculateBackoff] }) →
      (done = true ∨ s.currentTry ≠ 0 ∧ s.cancelAfter ≤ s.currentTry) →
      post (false, s) (done, effort))
    (hgranted : ∀ done effort,
      (s.currentTry = 0 ∧ effort = world.2 ∨ s.currentTry ≠ 0 ∧ s.currentTry < s.cancelAfter ∧
        effort = { world.2 with waits := world.2.waits ++ [s.calculateBackoff] }) →
      post (true, { s with currentTry := s.currentTry + 1 }) (done, effort)) :
    Endures post s.try world := by
  refine .bind (contextErr_endures ?_ ?_)
  · exact .pure trivial (hrefused true _ (.inl rfl) (.inl rfl))
  · intro _
    rw [if_neg (by decide)]
    split
    next hzero => exact .pure trivial (hgranted false _ (.inl ⟨hzero, rfl⟩))
    next hnonzero =>
      split
      next hall => exact .pure trivial (hrefused false _ (.inl rfl) (.inr ⟨hnonzero, hall⟩))
      next hless =>
        refine .bind (enduring_call (.wait s.calculateBackoff) fun (fired : Bool) => ?_)
        cases fired with
        | true =>
            exact .pure trivial
              (hgranted false _ (.inr ⟨hnonzero, BitVec.not_le.mp hless, rfl⟩))
        | false => exact .pure trivial (hrefused true _ (.inr ⟨hnonzero, rfl, rfl⟩) (.inl rfl))

/-- An attempt on a connection gives the request its number first. -/
theorem exchange_endures {s : Client.Communicate} {connection : Nat}
    {post : Client.Communicate ⊕ Client.Communicate → Bool × Effort → Prop}
    (hspent : Spent supervisor request attempts dialing sending world.2)
    (hmeans : request.Means s.request)
    (hanswered : ∀ s' response effort, s'.client = s.client → s'.outcome = some (.ok response) →
      Spent supervisor request attempts dialing (sending + 1) effort →
      post (.inr s') (world.1, effort))
    (hfailed : ∀ s' effort, s'.client.supervisor = s.client.supervisor →
      request.Means s'.request → s'.outcome = some (.error ()) →
      Spent supervisor request attempts dialing (sending + 1) effort →
      post (.inl s') (world.1, effort)) :
    Endures post (Client.exchange s connection) world := by
  cases hset : s.request.setID s.client.transactions with
  | none =>
      rw [Client.exchange_of_none connection hset]
      apply transmit_endures hspent hmeans
      · intro response effort hspent'
        exact hanswered _ response effort rfl rfl hspent'
      · intro client effort hsupervisor hspent'
        exact hfailed _ effort hsupervisor hmeans rfl hspent'
  | some renumbered =>
      rw [Client.exchange_of_some connection hset]
      have hmeans' := hmeans.setID hset
      apply transmit_endures hspent hmeans'
      · intro response effort hspent'
        exact hanswered _ response effort rfl rfl hspent'
      · intro client effort hsupervisor hspent'
        exact hfailed _ effort hsupervisor hmeans' rfl hspent'

/-! ## Rounds -/

/-- The delay before the next attempt, if one more has been made than is noted. -/
theorem Spent.wait {effort : Effort} {s : Supervisor}
    (hspent : Spent supervisor request attempts dialing sending effort)
    (hsame : s = { supervisor with currentTry := s.currentTry })
    (hattempts : s.currentTry.toNat = attempts) (hnonzero : s.currentTry ≠ 0) :
    Spent supervisor request (attempts + 1) dialing sending
      { effort with waits := effort.waits ++ [s.calculateBackoff] } where
  waits := by
    have hpositive : attempts - 1 + 1 = attempts := by
      have hne : s.currentTry.toNat ≠ 0 := fun hzero => hnonzero (BitVec.eq_of_toNat_eq hzero)
      omega
    have hdelay : supervisor.delay (attempts - 1) = s.calculateBackoff := by
      rw [Supervisor.delay, hpositive, ← hattempts, BitVec.ofNat_toNat, BitVec.setWidth_eq,
        ← hsame]
    have hrange : List.range attempts = List.range (attempts - 1) ++ [attempts - 1] := by
      rw [← List.range_succ, Nat.succ_eq_add_one, hpositive]
    rw [Nat.add_sub_cancel, hrange, List.map_append, hspent.waits, List.map_singleton, hdelay]
  dials := hspent.dials
  lines := hspent.lines
  spoken := hspent.spoken

theorem toNat_succ_of_granted {s : Supervisor}
    (hgranted : s.currentTry = 0 ∨ s.currentTry < s.cancelAfter) :
    (s.currentTry + 1).toNat = s.currentTry.toNat + 1 ∧
      s.currentTry.toNat + 1 ≤ s.attempts := by
  rw [Supervisor.attempts]
  rcases hgranted with hzero | hless
  · rw [hzero]
    exact ⟨rfl, le_max_left ..⟩
  · have hless := BitVec.lt_def.mp hless
    have hlimit := s.cancelAfter.isLt
    constructor
    · rw [BitVec.toNat_add_of_lt]
      · rfl
      · change s.currentTry.toNat + 1 < 2 ^ 64
        omega
    · exact le_max_of_le_right hless

/-- Why the loop is over, and after which effort. -/
inductive Persisted.Over (supervisor : Supervisor) (request : Request) :
    Option (Except Unit Response) → Bool × Effort → Prop
  | answered {attempts : Nat} {response : Response} {world : Bool × Effort}
      (allowed : attempts ≤ supervisor.attempts)
      (spent : Spent supervisor request attempts attempts (2 * attempts) world.2) :
      Over supervisor request (some (.ok response)) world
  | exhausted {world : Bool × Effort}
      (spent : Spent supervisor request supervisor.attempts supervisor.attempts
        (2 * supervisor.attempts) world.2) : Over supervisor request (some (.error ())) world
  | interrupted {outcome : Option (Except Unit Response)} {attempts timers : Nat}
      {world : Bool × Effort} (allowed : attempts ≤ supervisor.attempts)
      (timed : timers = attempts ∨ timers = attempts + 1)
      (spent : Spent supervisor request timers attempts (2 * attempts) world.2)
      (done : world.1 = true) : Over supervisor request outcome world

/-- When the loop is over. -/
structure Persisted (supervisor : Supervisor) (request : Request) (s : Client.Communicate)
    (world : Bool × Effort) : Prop where
  same : s.client.supervisor =
    { supervisor with currentTry := s.client.supervisor.currentTry }
  ended : Persisted.Over supervisor request s.outcome world

/-- The context may be done by then. -/
theorem Persisted.Over.late {outcome : Option (Except Unit Response)}
    (hover : Over supervisor request outcome world) :
    Over supervisor request outcome (true, world.2) := by
  cases hover with
  | answered hallowed hspent => exact .answered hallowed hspent
  | exhausted hspent => exact .exhausted hspent
  | interrupted hallowed htimed hspent _ => exact .interrupted hallowed htimed hspent rfl

theorem Persisting.refused {s : Client.Communicate} {done : Bool} {effort : Effort}
    (hpersisting : Persisting supervisor request s effort)
    (hall : done = true ∨ s.client.supervisor.currentTry ≠ 0 ∧
      s.client.supervisor.cancelAfter ≤ s.client.supervisor.currentTry) :
    Persisted supervisor request s (done, effort) := by
  refine ⟨hpersisting.same, ?_⟩
  rcases hall with hdone | ⟨hnonzero, hall⟩
  · exact .interrupted hpersisting.allowed (.inl rfl) hpersisting.spent hdone
  · have hpositive : s.client.supervisor.currentTry.toNat ≠ 0 :=
      fun hzero => hnonzero (BitVec.eq_of_toNat_eq hzero)
    have hcancel : s.client.supervisor.cancelAfter = supervisor.cancelAfter := by
      rw [hpersisting.same]
    have hattempts : s.client.supervisor.currentTry.toNat = supervisor.attempts := by
      refine hpersisting.allowed.antisymm ?_
      have hall := BitVec.le_def.mp (hcancel ▸ hall)
      rw [Supervisor.attempts]
      omega
    have hspent := hpersisting.spent
    rw [hattempts] at hspent
    rw [hpersisting.failed fun hnone => hnonzero (hpersisting.first hnone)]
    exact .exhausted hspent

/-- A round makes one more attempt, or the loop is over. -/
theorem Persisting.round {s : Client.Communicate}
    {post : Client.Communicate ⊕ Client.Communicate → Bool × Effort → Prop}
    (hpersisting : Persisting supervisor request s world.2)
    (hagain : ∀ s' world', Persisting supervisor request s' world'.2 →
      s'.client.supervisor.currentTry.toNat = s.client.supervisor.currentTry.toNat + 1 →
      post (.inl s') world')
    (hover : ∀ s' world', Persisted supervisor request s' world' → post (.inr s') world') :
    Endures post (Client.communicateRound s) world := by
  have hcancel : s.client.supervisor.cancelAfter = supervisor.cancelAfter := by
    rw [hpersisting.same]
  refine .bind (try_endures ?_ ?_)
  · intro done effort heffort hall
    refine .pure trivial (hover _ _ ?_)
    rcases heffort with rfl | ⟨hnonzero, rfl, rfl⟩
    · exact hpersisting.refused hall
    · refine ⟨hpersisting.same, .interrupted hpersisting.allowed (.inr rfl) ?_ rfl⟩
      exact hpersisting.spent.wait hpersisting.same rfl hnonzero
  · intro done effort heffort
    have hgranted : s.client.supervisor.currentTry = 0 ∨
        s.client.supervisor.currentTry < s.client.supervisor.cancelAfter := by
      rcases heffort with ⟨hzero, -⟩ | ⟨-, hless, -⟩
      · exact .inl hzero
      · exact .inr hless
    obtain ⟨hnext, hallowed⟩ := toNat_succ_of_granted hgranted
    have hallowed : s.client.supervisor.currentTry.toNat + 1 ≤ supervisor.attempts := by
      rwa [Supervisor.attempts, hcancel] at hallowed
    have hwaited : Spent supervisor request (s.client.supervisor.currentTry.toNat + 1)
        s.client.supervisor.currentTry.toNat (2 * s.client.supervisor.currentTry.toNat)
        effort := by
      rcases heffort with ⟨hzero, rfl⟩ | ⟨hnonzero, -, rfl⟩
      · have hspent := hpersisting.spent
        rw [hzero] at hspent ⊢
        exact ⟨hspent.waits, hspent.dials, hspent.lines, hspent.spoken⟩
      · exact hpersisting.spent.wait hpersisting.same rfl hnonzero
    -- Whatever fails from here on, the next round finds the same invariant.
    have hfailed {s' : Client.Communicate} {done : Bool} {effort : Effort}
        (hsupervisor : s'.client.supervisor = { s.client.supervisor with
          currentTry := s.client.supervisor.currentTry + 1 })
        (hmeans : request.Means s'.request) (houtcome : s'.outcome = some (.error ()))
        (hspent : Spent supervisor request (s.client.supervisor.currentTry.toNat + 1)
          (s.client.supervisor.currentTry.toNat + 1)
          (2 * s.client.supervisor.currentTry.toNat + 2) effort) :
        post (.inl s') (done, effort) := by
      have hcurrent : s'.client.supervisor.currentTry.toNat =
          s.client.supervisor.currentTry.toNat + 1 := by
        rw [hsupervisor, hnext]
      refine hagain _ _ ⟨?_, ?_, hmeans, ?_, fun _ => houtcome, ?_⟩ hcurrent
      · rw [hsupervisor, hpersisting.same]
      · rw [hcurrent]
        exact hallowed
      · simp [houtcome]
      · rw [hcurrent]
        exact hspent
    refine .bind (connect_endures hwaited ?_)
    intro connected client done effort hsupervisor hconnected hspent
    cases connected with
    | false =>
        exact .pure trivial (hfailed hsupervisor hpersisting.means rfl
          (hspent.mono le_rfl (Nat.le_succ _)))
    | true =>
        obtain ⟨connection, hconnection⟩ := Option.ne_none_iff_exists'.mp (hconnected rfl)
        dsimp only
        rw [hconnection]
        refine exchange_endures hspent hpersisting.means ?_ ?_
        · intro s' response effort hclient houtcome hspent
          refine hover _ _ ⟨?_, ?_⟩
          · rw [hclient, hsupervisor, hpersisting.same]
          · rw [houtcome]
            exact .answered hallowed hspent
        · intro s' effort hsupervisor' hmeans houtcome hspent
          exact hfailed (hsupervisor'.trans hsupervisor) hmeans houtcome hspent

/-! ## Whole calls -/

/-- What a call has done, and what it reports, with the client and the context
that it leaves. -/
structure Disciplined (supervisor : Supervisor) (request : Request)
    (result : Except CommunicateError Response × Client) (world : Bool × Effort) : Prop where
  restored : result.2.supervisor = supervisor
  delays : world.2.waits = (List.range world.2.waits.length).map supervisor.delay
  spoken : ∀ line ∈ world.2.lines, Spoken request line
  attempts : ∃ attempts ≤ supervisor.attempts, world.2.dials ≤ attempts ∧
    world.2.lines.length ≤ 2 * attempts ∧
    (world.2.waits.length = attempts - 1 ∨ world.2.waits.length = attempts ∧ world.1 = true) ∧
    (result.1 = .error .failed → attempts = supervisor.attempts)
  aborted : result.1 = .error .aborted ↔ world.1 = true

theorem Spent.length_waits {effort : Effort}
    (hspent : Spent supervisor request attempts dialing sending effort) :
    effort.waits.length = attempts - 1 := by
  rw [hspent.waits, List.length_map, List.length_range]

theorem Spent.delays {effort : Effort}
    (hspent : Spent supervisor request attempts dialing sending effort) :
    effort.waits = (List.range effort.waits.length).map supervisor.delay := by
  rw [hspent.length_waits]
  exact hspent.waits

/-- What is reported is not told apart here, except that a call fails for no
other reason than that all attempts are made. -/
theorem Persisted.Over.disciplined {outcome : Option (Except Unit Response)}
    {result : Except CommunicateError Response × Client}
    (hover : Over supervisor request outcome world) (hrestored : result.2.supervisor = supervisor)
    (hfailed : result.1 = .error .failed → outcome = some (.error ()) ∧ world.1 = false)
    (haborted : result.1 = .error .aborted ↔ world.1 = true) :
    Disciplined supervisor request result world := by
  cases hover with
  | answered hallowed hspent =>
      refine ⟨hrestored, hspent.delays, hspent.spoken, ?_, haborted⟩
      refine ⟨_, hallowed, hspent.dials, hspent.lines, .inl hspent.length_waits, ?_⟩
      intro heq
      cases (hfailed heq).1
  | exhausted hspent =>
      refine ⟨hrestored, hspent.delays, hspent.spoken, ?_, haborted⟩
      exact ⟨_, le_rfl, hspent.dials, hspent.lines, .inl hspent.length_waits, fun _ => rfl⟩
  | interrupted hallowed htimed hspent hdone =>
      refine ⟨hrestored, hspent.delays, hspent.spoken, ?_, haborted⟩
      refine ⟨_, hallowed, hspent.dials, hspent.lines, ?_, ?_⟩
      · rcases htimed with rfl | rfl
        · exact .inl hspent.length_waits
        · exact .inr ⟨hspent.length_waits, hdone⟩
      · intro heq
        rw [(hfailed heq).2] at hdone
        cases hdone

/-- What follows the loop makes no attempt. -/
theorem Persisted.done {s : Client.Communicate} (hzero : supervisor.currentTry = 0)
    (hpersisted : Persisted supervisor request s world) :
    Endures (Disciplined supervisor request) (Client.communicateDone s) world := by
  obtain ⟨hsame, hover⟩ := hpersisted
  have hrestored : s.client.supervisor.reset = supervisor := by
    rw [Supervisor.reset, hsame, ← hzero]
  have hlate {world : Bool × Effort} (hdone : world.1 = true)
      (hover : Persisted.Over supervisor request s.outcome world) :
      Disciplined supervisor request
        (.error .aborted, { s.client with supervisor := s.client.supervisor.reset }) world :=
    hover.disciplined hrestored (by simp) (by simp [hdone])
  refine .bind (contextErr_endures (.pure trivial (hlate rfl hover.late)) ?_)
  intro htimely
  rw [if_neg (by decide)]
  obtain ⟨done, effort⟩ := world
  obtain rfl : done = false := htimely
  cases houtcome : s.outcome with
  | none =>
      rw [houtcome] at hover
      cases hover with
      | interrupted _ _ _ hdone => cases hdone
  | some outcome =>
      rw [houtcome] at hover
      cases outcome with
      | error reason =>
          refine .pure trivial (hover.disciplined hrestored ?_ (by simp))
          intro _
          exact ⟨rfl, rfl⟩
      | ok response =>
          dsimp only
          split
          · exact .pure trivial (hover.disciplined hrestored (by simp) (by simp))
          · exact .pure trivial (hover.disciplined hrestored (by simp) (by simp))

end Calls

/-- A client between two calls, after any calls in any surroundings. -/
inductive Rested (supervisor : Supervisor) : Client → Prop
  | new (address : String) : Rested supervisor (newClient address (some supervisor))
  | communicate {c c' : Client} {request : Request} {done : Bool}
      {result : Except CommunicateError Response} {world : Bool × Effort}
      (rested : Rested supervisor c)
      (returned : enduring.Returns (c.communicate request) (done, {}) (result, c') world) :
      Rested supervisor c'
  | close {c c' : Client} {world world' : Bool × Effort} (rested : Rested supervisor c)
      (returned : enduring.Returns c.disconnect world c' world') : Rested supervisor c'

end LetDX.LetDD
