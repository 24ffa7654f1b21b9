import LetDX.LetDD.Tcp.Ownership
import LetDX.Wire.Runs

/-! # The open connections of the network

What the client leaves open does not depend on the network: its runs there are
among those that it has anywhere.
-/

namespace LetDX.Wire

open Effects LetDB

/-- The connection of the client is the only one that it has not closed. -/
def Owns (client : LetDD.Client) (service : Service) : Prop :=
  ∀ connection < service.dialed,
    (service.links connection).closed = false ↔ client.connection = some connection

instance (client : LetDD.Client) (service : Service) : Decidable (Owns client service) :=
  inferInstanceAs (Decidable (∀ _ < _, _))

/-- The sockets are the connections of the network, and these were left behind
unless the context is done. -/
structure Mirrors (late : List Nat) (around : Surroundings) (sockets : LetDD.Sockets) : Prop where
  dialed : sockets.dialed = around.service.dialed
  opened : ∀ connection < around.service.dialed,
    (around.service.links connection).closed = false ↔ connection ∈ sockets.opened
  late : around.contextDone = false → sockets.late = late

section Following

variable {late : List Nat} {service service' : Service} {around around' : Surroundings}
  {sockets : LetDD.Sockets}

theorem Service.advance_closed (service : Service) (point : LetRun) (world : World)
    (connection : Nat) : ((service.advance point world).links connection).closed =
      (service.links connection).closed := by
  by_cases hcurrent : connection = service.accepted - 1
  · have hsame : (service.advance point world).current.closed = service.current.closed := by
      rw [service.advance_current]
    rw [hcurrent]
    exact hsame
  · rw [service.advance_links point world hcurrent]

theorem Served.closed_eq (hserved : Served service service') (connection : Nat) :
    (service'.links connection).closed = (service.links connection).closed := by
  cases hserved with
  | accepts | stops => rfl
  | serves => exact service.advance_closed _ _ connection

theorem Mirrors.served (hmirrors : Mirrors late around sockets) (hsound : Sound around.service)
    (hreach : Relation.ReflTransGen Served around.service service) :
    Mirrors late { around with service } sockets ∧ Sound service := by
  induction hreach with
  | refl => exact ⟨hmirrors, hsound⟩
  | tail _ hserved ih =>
      obtain ⟨hmirrors, hsound⟩ := ih
      refine ⟨⟨hmirrors.dialed.trans hserved.dialed_eq.symm, ?_, hmirrors.late⟩,
        hsound.step hserved⟩
      intro connection hconnection
      rw [hserved.closed_eq]
      exact hmirrors.opened connection (hserved.dialed_eq ▸ hconnection)

/-- An operation that opens and closes nothing. -/
theorem Mirrors.settled (hmirrors : Mirrors late around sockets)
    (hdialed : around'.service.dialed = around.service.dialed)
    (hclosed : ∀ connection, (around'.service.links connection).closed =
      (around.service.links connection).closed)
    (hdone : around'.contextDone = false → around.contextDone = false) :
    Mirrors late around' { sockets with fresh := none } := by
  refine ⟨hmirrors.dialed.trans hdialed.symm, fun connection hconnection => ?_,
    hmirrors.late ∘ hdone⟩
  rw [hclosed]
  exact hmirrors.opened connection (hdialed ▸ hconnection)

theorem Mirrors.dials (hmirrors : Mirrors late around sockets) (hsound : Sound around.service) :
    Mirrors late
      { around with service := { around.service with dialed := around.service.dialed + 1 } }
      { sockets with
        dialed := sockets.dialed + 1
        opened := sockets.opened ++ [sockets.dialed]
        fresh := some sockets.dialed } := by
  refine ⟨congrArg (· + 1) hmirrors.dialed, fun connection hconnection => ?_, hmirrors.late⟩
  change (around.service.links connection).closed = false ↔
    connection ∈ sockets.opened ++ [sockets.dialed]
  rw [List.mem_append, List.mem_singleton, hmirrors.dialed]
  rcases Nat.lt_or_eq_of_le (Nat.le_of_lt_succ hconnection) with hless | rfl
  · rw [hmirrors.opened connection hless]
    exact ⟨.inl, fun hmem => hmem.resolve_right (Nat.ne_of_lt hless)⟩
  · rw [hsound.undialed _ (Nat.le_refl _)]
    exact ⟨fun _ => .inr rfl, fun _ => rfl⟩

theorem Mirrors.closes (hmirrors : Mirrors late around sockets) (connection : Nat) :
    Mirrors late (around.close connection)
      { sockets with opened := sockets.opened.filter (· ≠ connection), fresh := none } := by
  refine ⟨hmirrors.dialed, fun other hother => ?_, hmirrors.late⟩
  change (Function.update around.service.links connection _ other).closed = false ↔
    other ∈ sockets.opened.filter (· ≠ connection)
  rw [Function.update_apply]
  split
  next heq => simp [heq]
  next hne =>
    rw [hmirrors.opened other hother]
    simp [hne]

/-- Every operation on the network is one that may happen anywhere. -/
theorem Mirrors.follows {op : LetDD.Syscall} {answer : op.Answer}
    (hmirrors : Mirrors late around sockets) (hsound : Sound around.service)
    (hperforms : network.Performs op around answer around') :
    ∃ sockets', LetDD.anywhere.Performs op sockets answer sockets' ∧
      Mirrors late around' sockets' := by
  obtain ⟨service, hreach, hallows⟩ := Machine.allowed_of_performs hperforms
  obtain ⟨hmirrors, hsound⟩ := hmirrors.served hsound hreach
  have hsound : Sound ({ around with service } : Surroundings).service := hsound
  generalize ({ around with service } : Surroundings) = middle at hallows hmirrors hsound
  cases op with
  | contextErr =>
      obtain ⟨hdone, rfl⟩ := hallows
      refine ⟨_, ⟨answer, rfl⟩, hmirrors.dialed, hmirrors.opened, ?_⟩
      intro hundone
      obtain rfl : answer = false := hundone
      exact hmirrors.late (Bool.eq_false_iff.mpr fun htrue => Bool.false_ne_true (hdone htrue))
  | wait =>
      obtain ⟨done, hdone, _, rfl⟩ := hallows
      refine ⟨_, ⟨answer, rfl⟩, hmirrors.settled rfl (fun _ => rfl) ?_⟩
      rintro rfl
      exact Bool.eq_false_iff.mpr fun htrue => Bool.false_ne_true (hdone htrue)
  | dial =>
      rcases hallows with ⟨rfl, rfl⟩ | ⟨rfl, rfl⟩
      · exact ⟨_, ⟨false, rfl⟩, hmirrors.settled rfl (fun _ => rfl) id⟩
      · refine ⟨_, ⟨true, ?_⟩, hmirrors.dials hsound⟩
        rw [← hmirrors.dialed]
        rfl
  | write connection bytes =>
      obtain ⟨delivered, _, _, rfl⟩ := hallows
      refine ⟨_, ⟨answer, rfl⟩, hmirrors.settled rfl (fun other => ?_) id⟩
      change (Function.update middle.service.links connection _ other).closed = _
      rw [Function.update_apply]
      split
      next heq => rw [heq]; rfl
      next => rfl
  | readBytes connection =>
      rcases hallows with ⟨rfl, rfl⟩ | ⟨body, _, rfl, _, rfl⟩
      · exact ⟨_, ⟨none, rfl⟩, hmirrors.settled rfl (fun _ => rfl) id⟩
      · refine ⟨_, ⟨some (body ++ [asciiNewline]), rfl⟩,
          hmirrors.settled rfl (fun other => ?_) id⟩
        change (Function.update middle.service.links connection _ other).closed = _
        rw [Function.update_apply]
        split
        next heq => rw [heq]
        next => rfl
  | close connection =>
      obtain rfl : around' = middle.close connection := hallows
      exact ⟨_, ⟨answer, rfl⟩, hmirrors.closes connection⟩

end Following

section Sessions

variable {client client' : LetDD.Client} {around around' : Surroundings} {returns : List Return}

/-- The client has the connections that it has anywhere, and if no context was
done it has left none behind. -/
theorem Session.mirrored (hsession : Session client around returns client' around')
    (hstarts : Starts client around)
    (hundone : ∀ returned ∈ returns, returned.around.contextDone = false) :
    ∃ sockets, LetDD.Session client' sockets ∧ sockets.late = [] ∧
      sockets.dialed = around'.service.dialed ∧
      ∀ connection < around'.service.dialed,
        (around'.service.links connection).closed = false ↔ connection ∈ sockets.opened := by
  induction hsession with
  | start =>
      cases hstarts with
      | intro =>
          refine ⟨{}, .start _ _, rfl, rfl, fun connection hconnection => ?_⟩
          exact (Nat.not_lt_zero connection hconnection).elim
  | serves _ served ih =>
      obtain ⟨sockets, hsockets, hlate, hdialed, hopened⟩ := ih hundone
      refine ⟨sockets, hsockets, hlate, hdialed.trans served.dialed_eq.symm, ?_⟩
      intro connection hconnection
      rw [served.closed_eq]
      exact hopened connection (served.dialed_eq ▸ hconnection)
  | @call returns client' client'' around' around'' request result session returned ih =>
      simp only [List.mem_append, List.mem_singleton, or_imp, forall_and, forall_eq] at hundone
      obtain ⟨sockets, hsockets, hlate, hdialed, hopened⟩ := ih hundone.1
      have hcalling := (session.settled hstarts).communicate_spec request
      have hmirrors : Mirrors [] around'.begin sockets := ⟨hdialed, hopened, fun _ => hlate⟩
      obtain ⟨sockets', hreturned, hmirrors'⟩ :=
        hcalling.follows (fun _ _ _ _ _ hsound hmirrors => hmirrors.follows hsound) returned
          hmirrors
      exact ⟨sockets', hsockets.communicate hreturned, hmirrors'.late hundone.2, hmirrors'.dialed,
        hmirrors'.opened⟩

/-- The server is told the end of all connections but the client's own. -/
theorem Session.owns (hsession : Session client around returns client' around')
    (hstarts : Starts client around)
    (hundone : ∀ returned ∈ returns, returned.around.contextDone = false) :
    Owns client' around'.service := by
  obtain ⟨sockets, hsockets, hlate, _, hopened⟩ := hsession.mirrored hstarts hundone
  intro connection hconnection
  rw [hopened connection hconnection, hsockets.accounted.opened, hlate]
  exact ⟨fun hown => hown.resolve_right List.not_mem_nil, .inl⟩

end Sessions

end LetDX.Wire
