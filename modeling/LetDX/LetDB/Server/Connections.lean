import LetDX.LetDB.Server.Shutdown

/-! # Connections come to an end

A client that sends no more than finitely many bytes cannot keep the server from
the others. Every round of the loop on its connection takes bytes from it or
brings the loop closer to reading again, and reading without a byte ends the
connection. All this is about reads and writes that return, whatever they return: a
client that neither sends nor closes is waited for until the read timeout, and by
default there is none.
-/

namespace LetDX.LetDB

open Durable Effects Machine

def letRunConnectionRound (point : LetRun) : Proc (LetRun ⊕ LetRun) :=
  match point with
  | .accepting context => return .inr (.accepting context)
  | .finished context => return .inr (.finished context)
  | point => do
      let point ← letRunStep point
      return .inl point

/-- The loop on one connection, from some point of it to what follows. -/
def letRunConnection (point : LetRun) : Proc LetRun :=
  Program.iterate letRunConnectionRound point

/-- The system on which no client sends more bytes than this on a connection. -/
def terse (limit : Nat) : Machine host World :=
  allowing fun call world answer world' => (system false).Performs call world answer world' ∧
    (world'.received.length ≤ limit ∨ world'.received = world.received)

section Rounds

variable {limit : Nat} {point point' : LetRun} {world world' : World}

/-- Bytes that would be too many are not sent. -/
theorem exists_terse (limit : Nat) (call : Syscall) (world : World) :
    ∃ answer world', (system false).Performs call world answer world' ∧
      (world'.received.length ≤ limit ∨ world'.received = world.received) := by
  cases call with
  | recv => exact ⟨_, _, ⟨RecvResult.closed, rfl⟩, .inr rfl⟩
  | accept => exact ⟨_, _, ⟨AcceptResult.failed, rfl⟩, .inr rfl⟩
  | send bytes => exact ⟨_, _, ⟨SendResult.failed, rfl⟩, .inr rfl⟩
  | time => exact ⟨_, _, ⟨(0 : Time), rfl⟩, .inr rfl⟩
  | write bytes => exact ⟨_, _, ⟨((0, true) : Nat × Bool), rfl⟩, .inr rfl⟩
  | closeFile | closeSocket => exact ⟨_, _, ⟨(), rfl⟩, .inr rfl⟩
  | _ => exact ⟨_, _, ⟨false, rfl⟩, .inr rfl⟩

theorem terse_performs {call : Syscall} {answer : call.Answer}
    (hperforms : (terse limit).Performs call world answer world') :
    (system false).Performs call world answer world' :=
  (allowed_of_performs hperforms).1

theorem exists_terse_performs (call : Syscall) (world : World) :
    ∃ answer world', (terse limit).Performs call world answer world' := by
  obtain ⟨answer, world', hallowed⟩ := exists_terse limit call world
  exact ⟨answer, world', performs_allowing (exists_terse limit call) hallowed⟩

/-- No run takes more bytes from the client than it sends. -/
theorem received_le (hreturns : (terse limit).Returns (letRunStep point) world point' world') :
    world'.received.length ≤ max limit world.received.length := by
  have hrefl : Std.Refl fun world world' : World =>
      world'.received.length ≤ max limit world.received.length := ⟨fun _ => Nat.le_max_right _ _⟩
  have htrans : IsTrans World fun world world' =>
      world'.received.length ≤ max limit world.received.length :=
    ⟨fun _ _ _ hfirst hsecond => by omega⟩
  have hmoves (call : Syscall) (_ : True) (world : World) (answer : call.Answer) (world' : World)
      (hperforms : (terse limit).Performs call world answer world') :
      world'.received.length ≤ max limit world.received.length := by
    rcases (allowed_of_performs hperforms).2 with hfew | hsame
    · exact hfew.trans (Nat.le_max_left _ _)
    · rw [hsame]
      exact Nat.le_max_right _ _
  exact (Reaches.along hmoves hreturns (.any (fun _ => trivial) _)).2

/-- How far the loop is from reading again. -/
def LetRun.rank : LetRun → Nat
  | accepting _ | finished _ => 0
  | reading _ => 1
  | responding .. => 2
  | processing .. => 3

/-- What is left of a connection: the bytes that may still come, each of which is
worth more than the way back to reading. -/
def remaining (limit : Nat) (point : LetRun) (world : World) : Nat :=
  match point with
  | .accepting _ | .finished _ => 0
  | point => 4 * (limit - world.received.length) + point.rank

theorem remaining_of_ended (hended : point.Ended) : remaining limit point world = 0 := by
  cases point with
  | accepting | finished => rfl
  | reading | processing | responding => exact hended.elim

/-- The step lemma: a step of the loop ends the connection or leaves less of it. -/
theorem remaining_lt (hreachable : Reachable point world) (hopen : ¬point.Ended)
    (hreturns : (terse limit).Returns (letRunStep point) world point' world') :
    remaining limit point' world' < remaining limit point world := by
  have hstepped := hreturns.mono fun _ _ _ _ => terse_performs
  have hreceived := received_le hreturns
  have hpositive : 0 < remaining limit point world := by
    cases point with
    | accepting | finished => exact (hopen trivial).elim
    | reading | processing | responding => exact Nat.succ_pos _
  rcases point.passing_or_processing with hpassing | ⟨context, request, rfl⟩
  · cases talked_of_returns hpassing hstepped with
    | ended ended => rwa [remaining_of_ended ended]
    | accepted => exact (hopen trivial).elim
    | decoded _ _ _ received | undecoded _ _ _ _ received =>
        have hmore := congrArg List.length received
        simp only [List.length_append, List.length_singleton] at hmore
        simp only [remaining, LetRun.rank]
        omega
    | responded _ _ received =>
        simp only [remaining, LetRun.rank, received]
        omega
  · obtain ⟨entries, hagrees⟩ := hreachable.agrees fun _ heq => by cases heq
    cases processed_of_returns hagrees hstepped with
    | committed | answered | refused =>
        simp only [remaining, LetRun.rank]
        omega
    | fatal => exact hpositive

/-- Every step from a point that can be reached comes to an end. -/
theorem letRunStep_terse (hreachable : Reachable point world) :
    (terse limit).Ensures (fun _ => True)
      (fun point' world' => (terse limit).Returns (letRunStep point) world point' world')
      (letRunStep point) world := by
  have hmeets : Meets false (fun _ => True) (fun _ _ => True) (letRunStep point) world := by
    rcases point.passing_or_processing with hpassing | ⟨context, request, rfl⟩
    · have htalks : Meets false (fun _ => True) (Talked point world) (letRunStep point) world :=
        letRunStep_talking_spec trivial hpassing
      exact htalks.weaken fun _ _ _ => trivial
    · obtain ⟨entries, hagrees⟩ := hreachable.agrees fun _ heq => by cases heq
      exact (letRunStep_processing_spec hagrees fun _ _ => trivial).weaken fun _ _ _ => trivial
  exact (hmeets.restrict (fun _ _ _ _ => terse_performs) exists_terse_performs).weaken
    fun _ _ => And.left

/-- Every connection whose client sends finitely many bytes comes to an end if every
read and write returns, in whatever way they arrive and the replies are taken, and
leaves the server where it accepts another or is over. -/
theorem connection_ends (hreachable : Reachable point world) (limit : Nat) :
    (terse limit).Ensures (fun _ => True)
      (fun point' world' => point'.Ended ∧ Reachable point' world')
      (letRunConnection point) world := by
  refine .iterate Reachable (remaining limit) ?_ hreachable
  intro point world hreachable
  have hshortens (hopen : ¬point.Ended) : (terse limit).Ensures (fun _ => True)
      (fun point' world' => Reachable point' world' ∧
        remaining limit point' world' < remaining limit point world)
      (letRunStep point) world := by
    refine (letRunStep_terse hreachable).weaken ?_
    intro point' world' hreturns
    have hstepped := hreturns.mono fun _ _ _ _ => terse_performs
    exact ⟨hreachable.step hstepped, remaining_lt hreachable hopen hreturns⟩
  cases point with
  | accepting context => exact .pure trivial ⟨trivial, hreachable⟩
  | finished context => exact .pure trivial ⟨trivial, hreachable⟩
  | reading context | processing context request | responding context request response =>
      exact .bind ((hshortens id).weaken fun _ _ hshorter => .pure trivial hshorter)

end Rounds

/-- A client that may send a thousand bytes, on its way to open two accounts. -/
theorem connection_ends_opening : ∃ point world, Reachable point world ∧ ¬point.Ended ∧
    (terse 1000).Ensures (fun _ => True)
      (fun point' world' => point'.Ended ∧ Reachable point' world')
      (letRunConnection point) world := by
  have hserved : (served openingInput 2).any (fun reached =>
      decide (reached.1 = .processing reached.1.context (.addAccount 0 0 10 1))) = true := by
    decide +kernel
  obtain ⟨⟨point, world⟩, hreached, hchecked⟩ := (Option.any_eq_true _ _).mp hserved
  have hpoint : point = .processing point.context (.addAccount 0 0 10 1) :=
    of_decide_eq_true hchecked
  have hreachable := reachable_of_served hreached
  refine ⟨point, world, hreachable, ?_, connection_ends hreachable 1000⟩
  rw [hpoint]
  exact id

end LetDX.LetDB
