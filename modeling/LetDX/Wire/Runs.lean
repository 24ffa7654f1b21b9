import LetDX.LetDB.Server.Agreement
import LetDX.Wire.Calls

/-! # Runs of the client and the server

One client makes one call after another to a server that has been started
before. Between the calls, as during them, the server takes any number of steps.
-/

namespace LetDX.Wire

open Effects LetDB

/-- The client has just been created, and the server is about to accept the
first connection after any history of its file. -/
inductive Starts : LetDD.Client → Surroundings → Prop
  | intro {address : String} {observer : Option LetDD.Supervisor} {context : Let} {world : World}
      (unused : ∀ s ∈ observer, s.currentTry = 0)
      (reachable : Reachable (.accepting context) world) :
      Starts (LetDD.newClient address observer)
        { service := { point := .accepting context, world, initial := recordCount world.disk } }

/-- A call that has returned, with what it has left. -/
structure Return where
  request : LetDD.Request
  client : LetDD.Client
  around : Surroundings

def Return.InSync (returned : Return) : Prop :=
  Wire.InSync returned.client returned.around.service

def Return.Late (returned : Return) : Prop :=
  Wire.Late returned.request returned.around

instance (returned : Return) : Decidable returned.InSync :=
  inferInstanceAs (Decidable (_ → _))

instance (returned : Return) : Decidable returned.Late :=
  inferInstanceAs (Decidable (_ ∧ _ ∧ _))

/-- The calls that have returned so far, and what there is now. -/
inductive Session (client : LetDD.Client) (around : Surroundings) :
    List Return → LetDD.Client → Surroundings → Prop
  | start : Session client around [] client around
  | serves {returns : List Return} {client' : LetDD.Client} {around' : Surroundings}
      {service : Service} (session : Session client around returns client' around')
      (served : Served around'.service service) :
      Session client around returns client' { around' with service }
  | call {returns : List Return} {client' client'' : LetDD.Client}
      {around' around'' : Surroundings} {request : LetDD.Request}
      {result : Except LetDD.CommunicateError LetDD.Response}
      (session : Session client around returns client' around')
      (returned : network.Returns (client'.communicate request) around'.begin (result, client'')
        around'') :
      Session client around (returns ++ [⟨request, client'', around''⟩]) client'' around''

/-- At some instant of a session, within a call or not, the service is so. -/
inductive Occurs (client : LetDD.Client) (around : Surroundings) : Service → Prop
  | between {returns : List Return} {client' : LetDD.Client} {around' : Surroundings}
      (session : Session client around returns client' around') :
      Occurs client around around'.service
  | within {returns : List Return} {client' : LetDD.Client} {around' around'' : Surroundings}
      {request : LetDD.Request} (session : Session client around returns client' around')
      (passes : network.Passes (client'.communicate request) around'.begin around'') :
      Occurs client around around''.service
  | serves {service service' : Service} (occurs : Occurs client around service)
      (served : Served service service') : Occurs client around service'

/-- What holds between two calls. -/
structure Settled (returns : List Return) (client : LetDD.Client) (service : Service) : Prop where
  sound : Sound service
  attached : Attached (∀ returned ∈ returns, returned.InSync) client service
  reset : client.supervisor.currentTry = 0
  inSync : (∀ returned ∈ returns, returned.InSync) ↔ ∀ returned ∈ returns, ¬returned.Late

section Sessions

variable {client client' : LetDD.Client} {around around' : Surroundings} {returns : List Return}

theorem Starts.settled (hstarts : Starts client around) : Settled [] client around.service := by
  obtain @⟨address, observer, context, world, unused, reachable⟩ := hstarts
  refine ⟨?_, attached_none rfl, ?_, by simp⟩
  · refine ⟨fun hrunning => reachable.agrees hrunning, Nat.le_refl 0, fun hno => (hno trivial).elim,
      fun hno => (hno trivial).elim, trivial, ?_, fun _ _ => rfl, (Nat.add_zero _).symm, ?_⟩
    · exact fun connection _ => ⟨List.nil_prefix, rfl, rfl⟩
    · exact fun call _ => Nat.zero_le 1
  · cases observer with
    | none => rfl
    | some s => exact unused s rfl

/-- One step of the server or one call keeps what holds between calls. -/
theorem Settled.serves {service service' : Service} (hsettled : Settled returns client service)
    (hserved : Served service service') : Settled returns client service' where
  sound := hsettled.sound.step hserved
  attached := persists_attached _ client _ _ hsettled.sound hsettled.attached hserved
  reset := hsettled.reset
  inSync := hsettled.inSync

theorem Settled.communicate_spec (hsettled : Settled returns client around.service)
    (request : LetDD.Request) :
    Calling (fun returned around' =>
        Called (∀ returned ∈ returns, returned.InSync) request returned.2 around')
      (client.communicate request) around.begin :=
  Wire.communicate_spec hsettled.sound hsettled.attached hsettled.reset rfl

theorem Called.settled {request : LetDD.Request}
    (hcalled : Called (∀ returned ∈ returns, returned.InSync) request client around)
    (hinSync : (∀ returned ∈ returns, returned.InSync) ↔ ∀ returned ∈ returns, ¬returned.Late) :
    Settled (returns ++ [⟨request, client, around⟩]) client around.service := by
  refine ⟨hcalled.sound, ?_, hcalled.reset, ?_⟩
  · intro connection hconnection
    obtain ⟨transactions, hquiet, hcounted⟩ := hcalled.attached.inSync_of connection hconnection
    exact ⟨transactions, hquiet, fun hall => hcounted (hall _ List.mem_concat_self)⟩
  · simp only [List.mem_append, List.mem_singleton, or_imp, forall_and, forall_eq]
    constructor
    · rintro ⟨hbefore, hlast⟩
      exact ⟨hinSync.mp hbefore, (hcalled.inSync hbefore).mp hlast⟩
    · rintro ⟨hbefore, hlast⟩
      have hsynced := hinSync.mpr hbefore
      exact ⟨hsynced, (hcalled.inSync hsynced).mpr hlast⟩

theorem Session.settled (hsession : Session client around returns client' around')
    (hstarts : Starts client around) : Settled returns client' around'.service := by
  induction hsession with
  | start => exact hstarts.settled
  | serves _ served ih => exact ih.serves served
  | call _ returned ih => exact ((ih.communicate_spec _).returns returned).settled ih.inSync

theorem Occurs.sound {service : Service} (hoccurs : Occurs client around service)
    (hstarts : Starts client around) : Sound service := by
  induction hoccurs with
  | between session => exact (session.settled hstarts).sound
  | within session passes =>
      exact ((session.settled hstarts).communicate_spec _).passes passes
  | serves _ served ih => exact ih.step served

end Sessions

end LetDX.Wire
