import LetDX.Effects.Outcomes
import LetDX.LetDD.Tcp.Client

/-! # Which connections the client has open

Every dialed connection is the client's own until it is closed, or until it is
forgotten: a context that is found done right after dialing leaves the new
connection open with nobody to close it.
-/

namespace LetDX.LetDD

open Effects

/-- The connections that were dialed and not closed, the one that the last
operation has dialed, and those that the context was found done right after. -/
structure Sockets where
  dialed : Nat := 0
  opened : List Nat := []
  fresh : Option Nat := none
  late : List Nat := []
  deriving DecidableEq, Repr

/-- What the environment decides about a call. -/
def Syscall.Outcome : Syscall → Type
  | .contextErr | .wait _ | .dial _ | .write .. | .close _ => Bool
  | .readBytes _ => Option (List U8)

/-- Every outcome of every call. A connection that fails to close is not open
any more either. -/
def Syscall.exec : (call : Syscall) → call.Outcome → Sockets → call.Answer × Sockets
  | .contextErr, (done : Bool), sockets =>
      (done, { sockets with
        fresh := none
        late := if done then sockets.late ++ sockets.fresh.toList else sockets.late })
  | .wait _, (fired : Bool), sockets => (fired, { sockets with fresh := none })
  | .dial _, (dials : Bool), sockets =>
      if dials then
        (some sockets.dialed, { sockets with
          dialed := sockets.dialed + 1
          opened := sockets.opened ++ [sockets.dialed]
          fresh := some sockets.dialed })
      else (none, { sockets with fresh := none })
  | .write .., (whole : Bool), sockets => (whole, { sockets with fresh := none })
  | .readBytes _, (read : Option (List U8)), sockets => (read, { sockets with fresh := none })
  | .close connection, (closed : Bool), sockets =>
      (closed, { sockets with opened := sockets.opened.filter (· ≠ connection), fresh := none })

/-- Where any sequence of outcomes may happen. -/
def anywhere : Machine host Sockets where
  Choice := Syscall.Outcome
  exec := Syscall.exec

/-- The client and its connections after any sequence of calls. -/
inductive Session : Client → Sockets → Prop
  | start (address : String) (observer : Option Supervisor) :
      Session (newClient address observer) {}
  | communicate {c c' : Client} {sockets sockets' : Sockets} {request : Request}
      {result : Except CommunicateError Response} (session : Session c sockets)
      (returns : anywhere.Returns (c.communicate request) sockets (result, c') sockets') :
      Session c' sockets'
  | close {c c' : Client} {sockets sockets' : Sockets} (session : Session c sockets)
      (returns : anywhere.Returns c.disconnect sockets c' sockets') : Session c' sockets'

/-- The connection of the client is the only open one. -/
def Owns (c : Client) (sockets : Sockets) : Prop :=
  ∀ connection, connection ∈ sockets.opened ↔ c.connection = some connection

/-- The open connections are that of the client and the late ones. -/
structure Accounted (connection : Option Nat) (sockets : Sockets) : Prop where
  opened : ∀ other, other ∈ sockets.opened ↔ connection = some other ∨ other ∈ sockets.late
  apart : ∀ own, connection = some own → own ∉ sockets.late
  below : ∀ other ∈ sockets.opened, other < sockets.dialed
  settled : sockets.fresh = none

namespace Client

variable {c : Client} {sockets : Sockets}

/-! ## Operations that open and close nothing -/

def Quiet : Syscall → Prop
  | .dial _ | .close _ => False
  | .contextErr | .wait _ | .write .. | .readBytes _ => True

theorem quiet_performs (call : Syscall) (hquiet : Quiet call) (sockets : Sockets)
    (answer : call.Answer) (sockets' : Sockets)
    (hperforms : anywhere.Performs call sockets answer sockets') (hsettled : sockets.fresh = none) :
    sockets' = sockets := by
  obtain ⟨outcome, hexec⟩ := hperforms
  obtain ⟨_, rfl⟩ := Prod.mk.inj hexec
  obtain ⟨dialed, opened, fresh, late⟩ := sockets
  obtain rfl : fresh = none := hsettled
  cases call with
  | dial => exact hquiet.elim
  | close => exact hquiet.elim
  | contextErr =>
      cases (outcome : Bool) with
      | false => rfl
      | true => exact congrArg (Sockets.mk dialed opened none) (List.append_nil late)
  | wait | write | readBytes => rfl

theorem quiet_bind {α β : Type} {program : Proc α} {f : α → Proc β}
    {post : β → Sockets → Prop} (hquiet : program.Uses Quiet) (hsettled : sockets.fresh = none)
    (hnext : ∀ value, anywhere.Yields post (f value) sockets) :
    anywhere.Yields post (program >>= f) sockets :=
  .quiet_bind (fun sockets => sockets.fresh = none) quiet_performs hquiet hsettled hnext

theorem perform_yields (call : Syscall) {post : call.Answer → Sockets → Prop}
    (hafter : ∀ outcome, post (call.exec outcome sockets).1 (call.exec outcome sockets).2) :
    anywhere.Yields post (Program.perform (I := host) call) sockets := by
  refine Machine.Yields.perform ?_
  rintro answer sockets' ⟨outcome, hexec⟩
  have hpost := hafter outcome
  rwa [show call.exec outcome sockets = (answer, sockets') from hexec] at hpost

theorem quiet_sendRequest (connection : Nat) (request : Request) :
    (sendRequest connection request).Uses Quiet := by
  unfold sendRequest
  split
  · trivial
  · exact .perform trivial

theorem quiet_receiveResponse (connection : Nat) : (receiveResponse connection).Uses Quiet := by
  apply Program.Uses.bind
  · exact .perform trivial
  · intro read
    cases read <;> exact .pure _

/-! ## Operations that open and close a connection -/

theorem disconnect_yields {post : Client → Sockets → Prop}
    (haccounted : Accounted c.connection sockets)
    (hpost : ∀ sockets', Accounted none sockets' →
      post { c with connection := none } sockets') :
    anywhere.Yields post c.disconnect sockets := by
  rw [disconnect]
  split
  next hnone =>
    rw [hnone] at haccounted
    have hsame : { c with connection := none } = c := by rw [← hnone]
    exact .pure (hsame ▸ hpost sockets haccounted)
  next connection hconnection =>
    rw [hconnection] at haccounted
    refine .bind (perform_yields (.close connection) fun (closed : Bool) => ?_)
    refine .pure (hpost _ ⟨?_, ?_, ?_, rfl⟩)
    · intro other
      have hlate := haccounted.apart connection rfl
      change other ∈ sockets.opened.filter (· ≠ connection) ↔
        none = some other ∨ other ∈ sockets.late
      simp only [List.mem_filter, haccounted.opened]
      grind
    · rintro own ⟨⟩
    · intro other hother
      exact haccounted.below other (List.mem_of_mem_filter hother)

theorem handshake_yields {connection : Nat} {post : Bool × Client → Sockets → Prop}
    (haccounted : Accounted c.connection sockets)
    (hfailed : ∀ sockets', Accounted none sockets' →
      post (false, { c with connection := none }) sockets')
    (hgreeted : ∀ transactions, post (true, { c with transactions }) sockets) :
    anywhere.Yields post (c.handshake connection) sockets := by
  have hdisconnect : anywhere.Yields post (do let c ← c.disconnect; return (false, c)) sockets := by
    refine .bind (disconnect_yields haccounted ?_)
    intro sockets' haccounted'
    exact .pure (hfailed sockets' haccounted')
  refine quiet_bind (quiet_sendRequest _ _) haccounted.settled ?_
  intro sent
  cases sent with
  | false => exact hdisconnect
  | true =>
      refine quiet_bind (quiet_receiveResponse _) haccounted.settled ?_
      intro read
      cases read with
      | none => exact hdisconnect
      | some response =>
          cases response with
          | countDatabase accounts transactions => exact .pure (hgreeted transactions)
          | _ => exact hdisconnect

section Dialing

variable (address : String) (haccounted : Accounted none sockets)
include haccounted

theorem below_dial {outcome : Bool} {other : Nat}
    (hother : other ∈ (Syscall.exec .contextErr outcome
      (Syscall.exec (.dial address) true sockets).2).2.opened) : other < sockets.dialed + 1 := by
  have hdialed : other ∈ sockets.opened ∨ other = sockets.dialed := by
    cases outcome <;> simpa [Syscall.exec] using hother
  rcases hdialed with hopened | rfl
  · exact (haccounted.below other hopened).trans (Nat.lt_succ_self _)
  · exact Nat.lt_succ_self _

theorem accounted_failed (outcome : Bool) :
    Accounted none (Syscall.exec .contextErr outcome
      (Syscall.exec (.dial address) false sockets).2).2 := by
  cases outcome with
  | false => exact ⟨haccounted.opened, haccounted.apart, haccounted.below, rfl⟩
  | true =>
      refine ⟨?_, ?_, haccounted.below, rfl⟩
      · simpa [Syscall.exec] using haccounted.opened
      · rintro own ⟨⟩

/-- The connection is open, but the client has forgotten it. -/
theorem accounted_late :
    Accounted none (Syscall.exec .contextErr true
      (Syscall.exec (.dial address) true sockets).2).2 := by
  refine ⟨?_, ?_, fun other hother => below_dial address haccounted hother, rfl⟩
  · intro other
    simp [Syscall.exec, haccounted.opened]
  · rintro own ⟨⟩

theorem accounted_dialed :
    Accounted (some sockets.dialed) (Syscall.exec .contextErr false
      (Syscall.exec (.dial address) true sockets).2).2 := by
  -- The number of a new connection is one that was not used before.
  have hnew : sockets.dialed ∉ sockets.late := by
    intro hlate
    exact Nat.lt_irrefl _ (haccounted.below _ ((haccounted.opened _).mpr (.inr hlate)))
  refine ⟨?_, ?_, fun other hother => below_dial address haccounted hother, rfl⟩
  · intro other
    simp [Syscall.exec, haccounted.opened, eq_comm, or_comm]
  · rintro own ⟨⟩
    exact hnew

end Dialing

/-- Connecting leaves the client with the connection it owns, unless the context
is found done right after dialing. -/
theorem connect_yields {post : Bool × Client → Sockets → Prop}
    (haccounted : Accounted c.connection sockets)
    (hpost : ∀ connected c' sockets', Accounted c'.connection sockets' →
      post (connected, c') sockets') :
    anywhere.Yields post c.connect sockets := by
  rw [connect]
  split
  next connection hconnection => exact .pure (hpost true c sockets haccounted)
  next hnone =>
    refine .bind (perform_yields (.dial c.address) fun (dials : Bool) => ?_)
    refine .bind (perform_yields .contextErr fun (outcome : Bool) => ?_)
    rw [hnone] at haccounted
    cases dials with
    | false =>
        have hfailed := accounted_failed c.address haccounted outcome
        rw [← hnone] at hfailed
        cases outcome with
        | false => exact .pure (hpost false c _ hfailed)
        | true => exact .pure (hpost false c _ hfailed)
    | true =>
        cases outcome with
        | true => exact .pure (hpost false c _ (hnone.symm ▸ accounted_late c.address haccounted))
        | false =>
            have howned := accounted_dialed c.address haccounted
            refine handshake_yields howned ?_ ?_
            · intro sockets' haccounted'
              exact hpost false _ sockets' haccounted'
            · intro transactions
              exact hpost true _ _ howned

/-! ## Whole calls -/

/-- The connections after a round of the loop. -/
def Rounded (round : Communicate ⊕ Communicate) (sockets : Sockets) : Prop :=
  Accounted (round.elim id id).client.connection sockets

theorem transmit_yields {s : Communicate} {connection : Nat}
    (haccounted : Accounted s.client.connection sockets) :
    anywhere.Yields Rounded (transmit s connection) sockets := by
  have hdisconnect : anywhere.Yields Rounded (do
      let client ← s.client.disconnect
      return .inl { s with client, outcome := some (.error ()) }) sockets := by
    refine .bind (disconnect_yields haccounted ?_)
    intro sockets' haccounted'
    exact .pure haccounted'
  refine quiet_bind (quiet_sendRequest _ _) haccounted.settled ?_
  intro sent
  cases sent with
  | false => exact hdisconnect
  | true =>
      refine quiet_bind (quiet_receiveResponse _) haccounted.settled ?_
      intro read
      cases read with
      | none => exact hdisconnect
      | some response => exact .pure haccounted

theorem exchange_yields {s : Communicate} {connection : Nat}
    (haccounted : Accounted s.client.connection sockets) :
    anywhere.Yields Rounded (exchange s connection) sockets := by
  cases hset : s.request.setID s.client.transactions with
  | none =>
      rw [exchange_of_none connection hset]
      exact transmit_yields haccounted
  | some request =>
      rw [exchange_of_some connection hset]
      exact transmit_yields haccounted

theorem communicateRound_yields {s : Communicate}
    (haccounted : Accounted s.client.connection sockets) :
    anywhere.Yields Rounded (communicateRound s) sockets := by
  refine quiet_bind (Supervisor.try_uses trivial (fun _ => trivial) _) haccounted.settled ?_
  rintro ⟨proceed, supervisor⟩
  cases proceed with
  | false => exact .pure haccounted
  | true =>
      refine .bind (connect_yields haccounted ?_)
      intro connected c' sockets' haccounted'
      cases connected with
      | false => exact .pure haccounted'
      | true =>
          cases hconnection : c'.connection with
          | none =>
              dsimp only
              rw [hconnection]
              exact .fault
          | some connection =>
              dsimp only
              rw [hconnection]
              exact exchange_yields haccounted'

theorem communicate_yields {request : Request} (haccounted : Accounted c.connection sockets) :
    anywhere.Yields (fun returned sockets' => Accounted returned.2.connection sockets')
      (c.communicate request) sockets := by
  have hloop : anywhere.Yields (fun s sockets' => Accounted s.client.connection sockets')
      (Program.iterate communicateRound { client := c, request }) sockets := by
    refine .iterate (fun s sockets => Accounted s.client.connection sockets) ?_ haccounted
    intro s sockets haccounted
    refine (communicateRound_yields haccounted).weaken ?_
    intro round sockets' hrounded
    cases round <;> exact hrounded
  refine .bind (hloop.weaken ?_)
  intro s sockets' haccounted'
  refine quiet_bind (.perform trivial) haccounted'.settled ?_
  intro done
  cases done with
  | true => exact .pure haccounted'
  | false =>
      cases houtcome : s.outcome with
      | none => exact .fault
      | some outcome =>
          cases outcome with
          | error => exact .pure haccounted'
          | ok response =>
              rw [if_neg (by decide)]
              dsimp only
              split <;> exact .pure haccounted'

end Client

/-- After any calls the open connections are the client's and the late ones. -/
theorem Session.accounted {c : Client} {sockets : Sockets} (hsession : Session c sockets) :
    Accounted c.connection sockets := by
  induction hsession with
  | start =>
      refine ⟨?_, ?_, ?_, rfl⟩
      · simp [newClient]
      · rintro own ⟨⟩
      · simp
  | communicate _ returns ih => exact Client.communicate_yields ih _ _ returns
  | close _ returns ih =>
      have hyields : anywhere.Yields
          (fun (c' : Client) sockets' => Accounted c'.connection sockets') _ _ :=
        Client.disconnect_yields ih fun sockets' haccounted => haccounted
      exact hyields _ _ returns

/-- After any calls the connection of the client is the only open one, exactly
when no context has been found done right after dialing. -/
theorem session_owns_iff {c : Client} {sockets : Sockets} (hsession : Session c sockets) :
    Owns c sockets ↔ sockets.late = [] := by
  have haccounted := hsession.accounted
  constructor
  · intro howns
    apply List.eq_nil_iff_forall_not_mem.mpr
    intro connection hlate
    have hopened := (haccounted.opened connection).mpr (.inr hlate)
    exact haccounted.apart connection ((howns connection).mp hopened) hlate
  · intro hnone connection
    simp [haccounted.opened, hnone]

/-- An environment in which every call succeeds, the server tells that it is
empty, and the context is done from this moment on. -/
def telling (doneFrom : Sockets → Bool) : (call : Syscall) → Sockets → call.Outcome
  | .contextErr, sockets => doneFrom sockets
  | .readBytes _, _ => some (text ['L', 'E', 'N', ' ', '0', ' ', '0', '\n'])
  | .wait _, _ | .dial _, _ | .write .., _ | .close _, _ => true

/-- A client that has asked for the count, with the context done from a moment on. -/
def asked (doneFrom : Sockets → Bool) :
    Option ((Except CommunicateError Response × Client) × Sockets) :=
  anywhere.run (telling doneFrom) 100 ((newClient "" none).communicate .countDatabase) {}

theorem session_asked {doneFrom : Sockets → Bool} {result : Except CommunicateError Response}
    {c : Client} {sockets : Sockets} (hasked : asked doneFrom = some ((result, c), sockets)) :
    Session c sockets :=
  .communicate (.start "" none) (Machine.returns_of_run hasked)

/-- A client whose call has succeeded owns the connection that it has dialed. -/
theorem session_owns_asked : ∃ c sockets, Session c sockets ∧ c.connection = some 0 ∧
    (Owns c sockets ↔ sockets.late = []) ∧ Owns c sockets := by
  have hasked : ∃ result c sockets, asked (fun _ => false) = some ((result, c), sockets) ∧
      c.connection = some 0 ∧ sockets.late = [] := ⟨_, _, _, rfl, rfl, rfl⟩
  obtain ⟨result, c, sockets, hasked, hconnection, hpunctual⟩ := hasked
  have howns := session_owns_iff (session_asked hasked)
  exact ⟨c, sockets, session_asked hasked, hconnection, howns, howns.mpr hpunctual⟩

/-- A context that is done as soon as the connection is dialed leaves it open,
and the client has none. -/
theorem not_owns_cancelled : ∃ c sockets, Session c sockets ∧ c.connection = none ∧
    sockets.opened = [0] ∧ ¬Owns c sockets := by
  have hasked : ∃ result c sockets, asked (fun sockets => decide (0 < sockets.dialed)) =
      some ((result, c), sockets) ∧ c.connection = none ∧ sockets.opened = [0] :=
    ⟨_, _, _, rfl, rfl, rfl⟩
  obtain ⟨result, c, sockets, hasked, hnone, hopened⟩ := hasked
  refine ⟨c, sockets, session_asked hasked, hnone, hopened, fun howns => ?_⟩
  have hown := (howns 0).mp (hopened ▸ List.mem_singleton_self 0)
  nomatch hnone.symm.trans hown

end LetDX.LetDD
