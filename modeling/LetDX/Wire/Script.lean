import LetDX.Wire.Runs

/-! # Sessions that can be computed

Before every operation of the client the server comes as far as it can, in an
environment in which all its calls succeed. A script says when reading a reply
fails and when the context is done; nothing else fails. Whatever the script,
the computed session is one of those that the network allows.
-/

namespace LetDX.Wire

open Effects LetDB

/-- The first line of these bytes, without its newline. -/
def firstLine : List U8 → Option (List U8)
  | [] => none
  | byte :: rest =>
      if byte = asciiNewline then some [] else (firstLine rest).map fun body => byte :: body

theorem firstLine_spec {bytes body : List U8} (hline : firstLine bytes = some body) :
    asciiNewline ∉ body ∧ body ++ [asciiNewline] <+: bytes := by
  induction bytes generalizing body with
  | nil => nomatch hline
  | cons byte rest ih =>
      rw [firstLine] at hline
      split at hline
      next hnewline =>
        obtain rfl := Option.some.inj hline
        exact ⟨List.not_mem_nil, hnewline ▸ List.prefix_append [byte] rest⟩
      next hother =>
        obtain ⟨body, hrest, rfl⟩ := Option.map_eq_some_iff.mp hline
        obtain ⟨hbody, hwithin⟩ := ih hrest
        refine ⟨?_, List.cons_prefix_cons.mpr ⟨rfl, hwithin⟩⟩
        rw [List.mem_cons, not_or]
        exact ⟨fun heq => hother heq.symm, hbody⟩

/-! ## The server -/

namespace Service

def stepped (service : Service) : Option (LetRun × World) :=
  (system false).run (obliging service.current.bytes) 10000 (letRunStep service.point)
    service.world

/-- Serve the connection, with nothing received that was not written. -/
def serve (service : Service) : Option Service :=
  service.stepped.bind fun (point, world) =>
    if world.received.isPrefixOf service.current.bytes then some (service.advance point world)
    else none

/-- The next step, unless the server has to wait for the client. -/
def next (service : Service) : Option Service :=
  match service.point with
  | .accepting _ =>
      if service.accepted < service.dialed then
        service.stepped.map fun (point, world) =>
          { service with point, world, accepted := service.accepted + 1 }
      else none
  | .reading _ =>
      if service.unread.isEmpty ∧ ¬service.current.closed then none else service.serve
  | .processing .. | .responding .. => service.serve
  | .finished _ => none

/-- Up to so many steps. -/
def settle : Nat → Service → Service
  | 0, service => service
  | steps + 1, service => (service.next.map (settle steps)).getD service

variable {service service' : Service}

theorem serve_served (hserving : ¬service.point.Ended) (hserve : service.serve = some service') :
    Served service service' := by
  obtain ⟨⟨point, world⟩, hstepped, hsome⟩ := Option.bind_eq_some_iff.mp hserve
  dsimp only at hsome
  split at hsome
  next hreceived =>
    obtain rfl := Option.some.inj hsome
    exact .serves hserving (List.isPrefixOf_iff_prefix.mp hreceived)
      (Machine.returns_of_run hstepped)
  next => nomatch hsome

theorem next_served (hnext : service.next = some service') : Served service service' := by
  cases hpoint : service.point with
  | accepting context =>
      rw [next, hpoint] at hnext
      dsimp only at hnext
      split at hnext
      next hwaiting =>
        obtain ⟨⟨point, world⟩, hstepped, rfl⟩ := Option.map_eq_some_iff.mp hnext
        exact .accepts hpoint hwaiting (Machine.returns_of_run hstepped)
      next => nomatch hnext
  | reading context =>
      rw [next, hpoint] at hnext
      dsimp only at hnext
      split at hnext
      next => nomatch hnext
      next => exact serve_served (by rw [hpoint]; exact id) hnext
  | processing context request =>
      rw [next, hpoint] at hnext
      exact serve_served (by rw [hpoint]; exact id) hnext
  | responding context request response =>
      rw [next, hpoint] at hnext
      exact serve_served (by rw [hpoint]; exact id) hnext
  | finished context =>
      rw [next, hpoint] at hnext
      nomatch hnext

theorem settle_served (steps : Nat) (service : Service) :
    Relation.ReflTransGen Served service (service.settle steps) := by
  induction steps generalizing service with
  | zero => exact .refl
  | succ steps ih =>
      rw [settle]
      cases hnext : service.next with
      | none => exact .refl
      | some service' => exact .head (next_served hnext) (ih service')

end Service

/-! ## The client -/

/-- When reading from a connection fails, and when the context is done. -/
structure Script where
  lost : Surroundings → Bool := fun _ => false
  done : Surroundings → Bool := fun _ => false

namespace Script

def exec (script : Script) (op : LetDD.Syscall) (around : Surroundings) :
    op.Answer × Surroundings :=
  match op with
  | .contextErr =>
      let done := around.contextDone || script.done around
      (done, { around with contextDone := done })
  | .wait _ => (true, around)
  | .dial _ =>
      (some around.service.dialed,
        { around with service := { around.service with dialed := around.service.dialed + 1 } })
  | .write connection bytes => (true, around.write connection bytes)
  | .readBytes connection =>
      match firstLine (around.service.links connection).pending with
      | some body =>
          if script.lost around then (none, around)
          else (some (body ++ [asciiNewline]), around.read connection (body ++ [asciiNewline]))
      | none => (none, around)
  | .close connection => (true, around.close connection)

theorem exec_allows (script : Script) (op : LetDD.Syscall) (around : Surroundings) :
    Surroundings.Allows op around (script.exec op around).1 (script.exec op around).2 := by
  cases op with
  | contextErr => exact ⟨fun hdone => by simp [exec, hdone], rfl⟩
  | wait => exact ⟨around.contextDone, id, (fun h => nomatch h), rfl⟩
  | dial => exact .inr ⟨rfl, rfl⟩
  | write connection bytes => exact ⟨bytes, List.prefix_rfl, fun _ => rfl, rfl⟩
  | readBytes connection =>
      rw [exec]
      split
      next body hline =>
        obtain ⟨hbody, hwithin⟩ := firstLine_spec hline
        split
        · exact .inl ⟨rfl, rfl⟩
        · exact .inr ⟨body, hbody, rfl, hwithin, rfl⟩
      next => exact .inl ⟨rfl, rfl⟩
  | close => exact rfl

/-- The network on which everything goes by the script. -/
def machine (script : Script) : Machine LetDD.host Surroundings where
  Choice _ := Unit
  exec op _ around := script.exec op { around with service := around.service.settle 100 }

variable {script : Script}

theorem machine_performs {op : LetDD.Syscall} {around around' : Surroundings} {answer : op.Answer}
    (hperforms : script.machine.Performs op around answer around') :
    network.Performs op around answer around' := by
  obtain ⟨_, hexec⟩ := hperforms
  refine Machine.performs_allowing Surroundings.exists_allowed ?_
  refine ⟨around.service.settle 100, Service.settle_served 100 _, ?_⟩
  have hallows := script.exec_allows op { around with service := around.service.settle 100 }
  rwa [show script.exec op _ = (answer, around') from hexec] at hallows

/-- The calls with these requests. -/
def calls (script : Script) (client : LetDD.Client) (around : Surroundings) :
    List LetDD.Request → Option (List Return × LetDD.Client × Surroundings)
  | [] => some ([], client, around)
  | request :: requests =>
      (script.machine.run (fun _ _ => ()) 1000 (client.communicate request) around.begin).bind
        fun ((_, client'), around') =>
          (script.calls client' around' requests).map fun (returns, final) =>
            (⟨request, client', around'⟩ :: returns, final)

theorem session {client client' client'' : LetDD.Client} {around around' around'' : Surroundings}
    {before returns : List Return} {requests : List LetDD.Request}
    (hsession : Session client around before client' around')
    (hcalls : script.calls client' around' requests = some (returns, client'', around'')) :
    Session client around (before ++ returns) client'' around'' := by
  induction requests generalizing before returns client' around' with
  | nil =>
      cases hcalls
      rwa [List.append_nil]
  | cons request requests ih =>
      obtain ⟨⟨⟨result, client₁⟩, around₁⟩, hrun, hrest⟩ := Option.bind_eq_some_iff.mp hcalls
      obtain ⟨⟨returns, final⟩, hrest, heq⟩ := Option.map_eq_some_iff.mp hrest
      cases heq
      have hreturned : network.Returns (client'.communicate request) around'.begin
          (result, client₁) around₁ :=
        Machine.Returns.mono (fun _ _ _ _ => machine_performs) (Machine.returns_of_run hrun)
      have hmore := ih (hsession.call hreturned) hrest
      rwa [List.append_assoc] at hmore

/-- Where a computed session comes to, and what can be checked there. -/
theorem exists_session (script : Script) (client : LetDD.Client) (around : Surroundings)
    (requests : List LetDD.Request) (check : List Return → Service → Bool)
    (hcheck : (script.calls client around requests).any (fun (returns, _, around') =>
      check returns around'.service) = true) :
    ∃ returns client' around', Session client around returns client' around' ∧
      check returns around'.service = true := by
  obtain ⟨⟨returns, client', around'⟩, hcalls, hcheck⟩ := (Option.any_eq_true _ _).mp hcheck
  exact ⟨returns, client', around', session .start hcalls, hcheck⟩

end Script

end LetDX.Wire
