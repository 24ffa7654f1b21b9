import LetDX.Wire.Answers
import LetDX.Wire.Availability

/-! # What an HTTP request comes to while nothing fails

A request that the proxy forwards is granted exactly if the rules of the ledger
allow it, and the answer shows it.
-/

namespace LetDX.Wire

open Effects LetDB

/-- The ledger has an entry to add for the request, or an answer to tell. -/
def Grants (log : List StorageWalEntry) (request : LetDD.Request) : Prop :=
  let asked := (numbered (BitVec.ofNat 64 log.length) request).meaning
  (∃ entry, Requested log asked entry) ∨ tells log asked ≠ none

section Requests

variable {log log' : List StorageWalEntry} {request : LetDD.Request} {response : NetworkResponse}
  {written : LetDD.Written}

theorem Obliges.acts {asked : NetworkRequest} (hobliges : Obliges log asked response log') :
    Acts log asked response.meaning log' := by
  cases hobliges with
  | committed requested =>
      refine .committed ?_ requested.numbered requested.permitted
      rw [NetworkRequest.data, requested.operation]
      rfl
  | told tells => exact .told tells
  | refused rejects => exact .refused rejects

theorem forwardable_numbered (count : U64) (hforwardable : Forwardable request) :
    Forwardable (numbered count request) := by
  cases request with
  | getAccount | addAccount | makeTransfer | updateAccount => trivial
  | magic | countDatabase | close => exact hforwardable.elim

/-- What is shown does not depend on the number of the request. -/
theorem Shows.of_numbered {count : U64} (hshows : Shows log (numbered count request) written log') :
    Shows log request written log' := by
  cases request with
  | addAccount =>
      cases hshows with
      | created adds permitted => exact .created adds permitted
      | refused rejects => exact .refused rejects
  | makeTransfer =>
      cases hshows with
      | transferred adds permitted => exact .transferred adds permitted
      | refused rejects => exact .refused rejects
  | updateAccount =>
      cases hshows with
      | updated adds permitted => exact .updated adds permitted
      | refused rejects => exact .refused rejects
  | magic | getAccount | countDatabase | close => exact hshows

/-- A response to a request that is forwarded is written, with the status for a
bad request exactly if the ledger does not grant it. -/
theorem exists_written (hforwardable : Forwardable request)
    (hserves : Serves log request response log') :
    ∃ written, LetDD.answerTo (.ok response.meaning) = .ok written ∧
      (written.status = LetDD.statusBadRequest ↔ ¬Grants log request) := by
  have hnumbered := forwardable_numbered (BitVec.ofNat 64 log.length) hforwardable
  unfold Grants
  rw [Serves] at hserves
  generalize numbered (BitVec.ofNat 64 log.length) request = asked at hserves hnumbered
  cases hserves with
  | @committed entry requested =>
      have hgranted : (∃ entry, Requested log asked.meaning entry) ∨
          tells log asked.meaning ≠ none := .inl ⟨entry, requested⟩
      have hcreated : LetDD.statusCreated ≠ LetDD.statusBadRequest := by decide
      have hdone : LetDD.statusNoContent ≠ LetDD.statusBadRequest := by decide
      cases hdata : entry.data with
      | addAccount => exact ⟨_, rfl, iff_of_false hcreated (not_not_intro hgranted)⟩
      | makeTransfer | updateAccount =>
          exact ⟨_, rfl, iff_of_false hdone (not_not_intro hgranted)⟩
  | told tells =>
      have hgranted : (∃ entry, Requested log asked.meaning entry) ∨
          Wire.tells log asked.meaning ≠ none := by
        right
        rw [tells]
        exact Option.some_ne_none _
      cases asked with
      | getAccount accountID =>
          obtain ⟨account, _, rfl⟩ := Option.map_eq_some_iff.mp tells
          have hfound : LetDD.statusOK ≠ LetDD.statusBadRequest := by decide
          exact ⟨_, rfl, iff_of_false hfound (not_not_intro hgranted)⟩
      | addAccount | makeTransfer | updateAccount => cases tells
      | magic | countDatabase | close => exact hnumbered.elim
  | refused rejects unasked untold =>
      refine ⟨_, rfl, iff_of_true rfl ?_⟩
      rintro (⟨entry, hrequested⟩ | htold)
      · exact unasked entry hrequested
      · exact htold untold

end Requests

section Dialogues

variable {server : LetDD.Server} {echo : LetDD.Echo} {client : LetDD.Client}
  {around around' : Surroundings}
  {calls : List (LetDD.Request × Except LetDD.CommunicateError LetDD.Response)}

/-- A request that is forwarded is answered with a document that shows what the
ledger has done: what its rules allow, and nothing otherwise. -/
theorem every_request_answered (hstarts : Starts server.client around)
    (hmany : 2 ≤ server.client.supervisor.cancelAfter)
    (hdialogue : Dialogue server.client around calls client around')
    (hroom : (logOf around.service.world.disk).length + calls.length < 2 ^ 56)
    {request : LetDD.HttpRequest} {forwarded : LetDD.Request}
    (hserve : server.serve echo request = some forwarded) :
    Fares (fun returned around'' => ∃ written,
        LetDD.answerTo returned.1 = .ok written ∧
        Shows (logOf around'.service.world.disk) forwarded written
          (logOf around''.service.world.disk) ∧
        (written.status = LetDD.statusBadRequest ↔
          ¬Grants (logOf around'.service.world.disk) forwarded))
      (client.communicate forwarded) around'.begin := by
  obtain ⟨log, hfulfilled, hbetween⟩ := hdialogue.between (hstarts.between hmany) (by omega)
  have hlength := hfulfilled.length_le
  have hforwardable := forwardable_of_serve hserve
  rw [logOf_agrees hbetween.steady.up.agrees]
  refine (hbetween.communicate_fares (by omega)).weaken ?_
  rintro ⟨result, client'⟩ around'' ⟨response, log', rfl, hserves, hbetween'⟩
  rw [logOf_agrees hbetween'.steady.up.agrees]
  obtain ⟨written, hwritten, hstatus⟩ := exists_written hforwardable hserves
  have hshows := (Obliges.acts hserves).shows (forwardable_numbered _ hforwardable) hwritten
  exact ⟨written, hwritten, hshows.of_numbered, hstatus⟩

/-- An account is always granted. -/
theorem grants_addAccount (log : List StorageWalEntry) (walID : U64)
    (credits debits : LetDD.Uint128) (flags : U8) :
    Grants log (.addAccount walID credits debits flags) :=
  .inl ⟨storageWalEntryNew (BitVec.ofNat 64 log.length) 1 (.addAccount _ _ _), rfl, rfl, trivial⟩

def secondAccount : LetDD.Request :=
  .addAccount 0 (.ofU128 5) (.ofU128 6) 2

/-- A second account is created by a proxy whose ledger was started again before
the first was opened. -/
theorem every_request_answered_second : ∃ calls client' around',
    Dialogue freshClient freshAround calls client' around' ∧ calls.length = 1 ∧
    (secretServer LetDD.permissionWrite).serve (ledgerEcho 1)
      (secretRequest LetDD.methodPost "/accounts") = some secondAccount ∧
    Grants (logOf around'.service.world.disk) secondAccount ∧
    Fares (fun returned around'' => ∃ written,
        LetDD.answerTo returned.1 = .ok written ∧
        Shows (logOf around'.service.world.disk) secondAccount written
          (logOf around''.service.world.disk) ∧
        (written.status = LetDD.statusBadRequest ↔
          ¬Grants (logOf around'.service.world.disk) secondAccount))
      (client'.communicate secondAccount) around'.begin := by
  obtain ⟨result, client', around', hdialogue⟩ := exists_opening
  have hroom : (logOf freshAround.service.world.disk).length + 1 < 2 ^ 56 := by
    rw [log_fresh]
    decide
  have hserve : (secretServer LetDD.permissionWrite).serve (ledgerEcho 1)
      (secretRequest LetDD.methodPost "/accounts") = some secondAccount := by
    decide +kernel
  have hstarts : Starts (secretServer LetDD.permissionWrite).client freshAround := starts_fresh
  exact ⟨_, client', around', hdialogue, rfl, hserve, grants_addAccount _ _ _ _ _,
    every_request_answered hstarts many_fresh hdialogue hroom hserve⟩

end Dialogues

end LetDX.Wire
