import LetDX.Wire.Linearizability

/-! # Whose the entries are

What the file has gained is what calls have asked for, record by record, and a
call that has been told of its success is in it exactly once.
-/

namespace LetDX.Wire

open Durable Effects LetDB

section Sharings

variable {client : LetDD.Client} {around : Surroundings} {state : Callings} {number : Nat}
  {request : LetDD.Request} {response : LetDD.Response} {invoked returned : Surroundings}

/-- A record is never taken back, nor is one added to a call that has not sent
its request once more. -/
theorem records_count_le (hstarts : Starts client around) (hreached : Sharing client around state)
    (hnumber : number ∉ state.world.service.repeated) :
    state.world.service.records.count number ≤ 1 := by
  have hsound := (sharing_sound hstarts hreached).during.1
  exact (state.world.service.count_le_tally number).trans (hsound.once number hnumber)

/-- The records since the start are those of the calls in this order, and so is
what has been written of the next one. -/
theorem entries_attributed (hstarts : Starts client around)
    (hreached : Sharing client around state) : ∃ more tail,
      state.world.service.world.disk.file =
        some (storageWalImage (around.service.log ++ more) ++ tail) ∧
      more.map (fun entry => some entry.data) =
        state.world.service.records.map (askedBy state.calls) ∧
      tail.length < storageWalEntrySafeSize ∧
      (tail ≠ [] → ∃ (number : Nat) (entry : StorageWalEntry),
        askedBy state.calls number = some entry.data ∧ tail <+: entry.safe) ∧
      ∀ number, number ∉ state.world.service.repeated →
        state.world.service.records.count number ≤ 1 := by
  obtain ⟨_, htraced⟩ := (sharing_sound hstarts hreached).during
  obtain ⟨more, hlog, hrecords⟩ := htraced.log
  obtain ⟨tail, hfile, htail, hwhose⟩ := htraced.file
  rw [hlog] at hfile
  exact ⟨more, tail, hfile, hrecords, htail, hwhose,
    fun number hnumber => records_count_le hstarts hreached hnumber⟩

end Sharings

/-- The calls that are made first are not those whose records come first. -/
theorem entries_attributed_crowd : ∃ state more tail, Sharing freshClient freshAround state ∧
    state.world.service.world.disk.file = some (storageWalImage more ++ tail) ∧
    state.world.service.records = [1, 0] ∧
    more.map (fun entry => some entry.data) = [1, 0].map (askedBy state.calls) := by
  obtain ⟨state, _, _, hsharing, _, hrecords, _, hempty⟩ := exists_crowd
  obtain ⟨more, tail, hfile, hasked, _⟩ := entries_attributed starts_fresh hsharing
  rw [hempty, List.nil_append] at hfile
  rw [hrecords] at hasked
  exact ⟨state, more, tail, hsharing, hfile, hrecords, hasked⟩

/-- A success is an entry: the ledger refuses with an error, and tells only what
was inquired. -/
theorem Acts.committed_of_success {before after : List StorageWalEntry} {request : NetworkRequest}
    {response : LetDD.Response} {data : StorageWalEntryData}
    (hacts : Acts before request response after) (hasks : request.data = some data)
    (hsuccess : response.kind ≠ .error) : ∃ entry, after = before ++ [entry] ∧
      entry.data = data ∧ entry.id = BitVec.ofNat 64 before.length ∧
      guardPolicy (balanceOf before) entry.posting ∧
      response = (data.reply (BitVec.ofNat 64 (balanceOf before).length)).meaning := by
  cases hacts with
  | @committed entry asks numbered permitted =>
      obtain rfl := Option.some.inj (asks.symm.trans hasks)
      exact ⟨entry, rfl, rfl, numbered, permitted, rfl⟩
  | told tells =>
      cases request with
      | addAccount | makeTransfer | updateAccount => nomatch tells
      | magic | getAccount | countDatabase | close => nomatch hasks
  | refused => exact (hsuccess rfl).elim

section Sharings

variable {client : LetDD.Client} {around : Surroundings} {state : Callings} {number : Nat}
  {request : LetDD.Request} {response : LetDD.Response} {invoked returned : Surroundings}
  {data : StorageWalEntryData}

/-- What a call was told to have been done is an entry with a record of this call,
and it is in the log exactly once from then on, unless the call has sent its
request once more. -/
theorem success_applied_once (hstarts : Starts client around)
    (hreached : Sharing client around state)
    (hreturned : state.callers[number]? = some
      { call := .communicate request, invoked, returned := some (some (.ok response), returned) })
    (hasks : request.meaning.data = some data) (hsuccess : response.kind ≠ .error) :
    ∃ before entry, invoked.service.log <+: before ∧
      before ++ [entry] <+: returned.service.log ∧
      returned.service.log <+: state.world.service.log ∧ entry.data = data ∧
      guardPolicy (balanceOf before) entry.posting ∧
      response = (data.reply (BitVec.ofNat 64 (balanceOf before).length)).meaning ∧
      (∃ position, before.length = around.service.log.length + position ∧
        state.world.service.records[position]? = some number) ∧
      (number ∉ state.world.service.repeated →
        state.world.service.records.count number = 1) := by
  obtain ⟨hlater, before, after, hbefore, hacts, hafter, hrecord⟩ :=
    executed_of_returned hstarts hreached hreturned
  obtain ⟨entry, rfl, hdata, _, hpermitted, hresponse⟩ := hacts.committed_of_success hasks hsuccess
  obtain ⟨⟨position, hposition, hcall⟩, _⟩ := hrecord (by simp)
  refine ⟨before, entry, hbefore, hafter, hlater.log, hdata, hpermitted, hresponse,
    ⟨position, hposition, hcall⟩, ?_⟩
  intro hnever
  have hpositive := List.count_pos_iff.mpr (List.mem_of_getElem? hcall)
  exact Nat.le_antisymm (records_count_le hstarts hreached hnever) hpositive

end Sharings

/-- An account is asked for and added once, though its call was the second to be served. -/
theorem success_applied_once_crowd : ∃ (state : Callings) (before : List StorageWalEntry)
    (entry : StorageWalEntry) (position : Nat), Sharing freshClient freshAround state ∧
    before ++ [entry] <+: state.world.service.log ∧ entry.data = .addAccount 0 10 1 ∧
    before.length = freshAround.service.log.length + position ∧
    state.world.service.records = [1, 0] ∧ [1, 0][position]? = some 0 ∧
    state.world.service.records.count 0 = 1 := by
  obtain ⟨state, _, _, hsharing, hreturned, hrecords, hrepeated, _⟩ := exists_crowd
  obtain ⟨before, entry, _, hafter, hlog, hdata, _, _, ⟨position, hposition, hcall⟩, honce⟩ :=
    success_applied_once starts_fresh hsharing hreturned rfl (by decide)
  exact ⟨state, before, entry, position, hsharing, hafter.trans hlog, hdata, hposition, hrecords,
    hrecords ▸ hcall, honce (hrepeated ▸ List.not_mem_nil)⟩

end LetDX.Wire
