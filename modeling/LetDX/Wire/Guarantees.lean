import LetDX.Wire.Script

/-! # What the client guarantees

The count of the client and the records of its calls, over every session.
-/

namespace LetDX.Wire

open Effects LetDB

/-- A server on a new file, and nothing dialed. -/
def freshAround : Surroundings :=
  { service := { point := .accepting freshContext, world := freshWorld, initial := 0 } }

def freshClient : LetDD.Client :=
  LetDD.newClient "localhost:4747" none

theorem starts_fresh : Starts freshClient freshAround :=
  .intro (fun _ hmem => nomatch hmem) reachable_fresh

/-- Two accounts, and a transfer of one from the first to the second. -/
def transferRequests : List LetDD.Request :=
  [.addAccount 0 (.ofU128 0) (.ofU128 10) 1, .addAccount 0 (.ofU128 5) (.ofU128 6) 2,
    .makeTransfer 0 0 1 (.ofU128 1)]

/-! ## The count of transactions -/

/-- The client's count agrees with that of the server after every call if and
only if no call is late: one that finds its context done after it has read the
success reply to a mutating request. -/
theorem in_sync_iff_punctual {client client' : LetDD.Client} {around around' : Surroundings}
    {returns : List Return} (hstarts : Starts client around)
    (hsession : Session client around returns client' around') :
    (∀ returned ∈ returns, returned.InSync) ↔ ∀ returned ∈ returns, ¬returned.Late :=
  (hsession.settled hstarts).inSync

theorem in_sync_iff_punctual_fresh : ∃ returns client' around',
    Session freshClient freshAround returns client' around' ∧
      returns.map Return.request = transferRequests ∧
      ∀ returned ∈ returns, returned.InSync := by
  obtain ⟨returns, client', around', hsession, hchecked⟩ :=
    Script.exists_session {} freshClient freshAround transferRequests
      (fun returns _ => decide (returns.map Return.request = transferRequests ∧
        ∀ returned ∈ returns, ¬returned.Late)) (by decide +kernel)
  obtain ⟨hrequests, hpunctual⟩ := of_decide_eq_true hchecked
  exact ⟨returns, client', around', hsession, hrequests,
    (in_sync_iff_punctual starts_fresh hsession).mpr hpunctual⟩

/-- The context of the first call is found done after its reply was read. The
client keeps the connection, on which its next request is then refused. -/
theorem out_of_sync_after_late : ∃ returns client' around',
    Starts freshClient freshAround ∧ Session freshClient freshAround returns client' around' ∧
      returns.map Return.request = transferRequests.take 2 ∧
      (∀ returned ∈ returns, returned.client.connection = some 0 ∧ ¬returned.InSync) ∧
      around'.service.records = [1] := by
  obtain ⟨returns, client', around', hsession, hchecked⟩ :=
    Script.exists_session { done := fun around => around.call = 1 ∧ succeeded around.heard }
      freshClient freshAround (transferRequests.take 2)
      (fun returns service => decide (returns.map Return.request = transferRequests.take 2 ∧
        (∀ returned ∈ returns, returned.client.connection = some 0 ∧ ¬returned.InSync) ∧
        service.records = [1])) (by decide +kernel)
  obtain ⟨hrequests, hlost, hrecords⟩ := of_decide_eq_true hchecked
  exact ⟨returns, client', around', starts_fresh, hsession, hrequests, hlost, hrecords⟩

/-! ## The records of a call -/

/-- At every instant of every session the records since its start are those of
its calls, and a call has at most one unless it has sent its whole request with
a record of it in the log already. -/
theorem at_most_one_record {client : LetDD.Client} {around : Surroundings} {service : Service}
    (hstarts : Starts client around) (hoccurs : Occurs client around service) :
    recordCount service.world.disk = service.initial + service.records.length ∧
      ∀ call, call ∉ service.repeated → service.records.count call ≤ 1 := by
  have hsound := hoccurs.sound hstarts
  refine ⟨hsound.complete, fun call hcall => ?_⟩
  exact (service.count_le_tally call).trans (hsound.once call hcall)

/-- The reply to the first handshake is lost, and that call is retried. -/
theorem at_most_one_record_retried : ∃ service, Occurs freshClient freshAround service ∧
    service.dialed = 2 ∧ service.records = [1, 2, 3] ∧ recordCount service.world.disk = 3 ∧
      ∀ call, service.records.count call ≤ 1 := by
  obtain ⟨returns, client', around', hsession, hchecked⟩ :=
    Script.exists_session { lost := fun around => around.service.dialed = 1 }
      freshClient freshAround transferRequests
      (fun _ service => decide (service.dialed = 2 ∧ service.records = [1, 2, 3] ∧
        service.repeated = [] ∧ service.initial = 0)) (by decide +kernel)
  obtain ⟨hdialed, hrecords, hrepeated, hinitial⟩ := of_decide_eq_true hchecked
  have hoccurs : Occurs freshClient freshAround around'.service := .between hsession
  obtain ⟨hcomplete, honce⟩ := at_most_one_record starts_fresh hoccurs
  refine ⟨around'.service, hoccurs, hdialed, hrecords, ?_, fun call => honce call ?_⟩
  · rw [hcomplete, hinitial, hrecords]
    rfl
  · rw [hrepeated]
    exact List.not_mem_nil

/-- The reply to the transfer is lost after it was committed. The call is retried
with the count of a new handshake, and the transfer is committed once more. -/
theorem transfer_applied_twice : ∃ returns client' around',
    Starts freshClient freshAround ∧ Session freshClient freshAround returns client' around' ∧
      returns.map Return.request = transferRequests ∧
      around'.service.records = [1, 2, 3, 3] ∧
      around'.service.point.context.state.accountList.accounts.map Account.debits = [10, 8] := by
  obtain ⟨returns, client', around', hsession, hchecked⟩ :=
    Script.exists_session
      { lost := fun around => around.call = 3 ∧ 3 ∈ around.service.records ∧
          around.service.dialed = 1 }
      freshClient freshAround transferRequests
      (fun returns service => decide (returns.map Return.request = transferRequests ∧
        service.records = [1, 2, 3, 3] ∧
        service.point.context.state.accountList.accounts.map Account.debits = [10, 8]))
      (by decide +kernel)
  obtain ⟨hrequests, hrecords, hdebits⟩ := of_decide_eq_true hchecked
  exact ⟨returns, client', around', starts_fresh, hsession, hrequests, hrecords, hdebits⟩

end LetDX.Wire
