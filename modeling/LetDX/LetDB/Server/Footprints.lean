import LetDX.Effects.Footprint
import LetDX.LetDB.Network.Encoding
import LetDX.LetDB.Server.Agreement

/-! # What the loops can touch

Processing a request does not use the sockets, and only accepting a connection
forgets the bytes of the one before.
-/

namespace LetDX.LetDB

open Durable Effects Program

/-- No connection is accepted by the call. -/
def Syscall.Onward : Syscall → Prop
  | .accept => False
  | _ => True

/-- No byte passes on a connection. -/
def Syscall.Silent : Syscall → Prop
  | .accept | .recv | .send _ => False
  | _ => True

/-- The calls that processing a request makes. -/
def Syscall.Internal : Syscall → Prop
  | .time | .realloc _ | .write _ | .fsync => True
  | _ => False

/-- The calls that the loops make between requests. -/
def Syscall.Flagging : Syscall → Prop
  | .getAccepting | .getExecuting | .setAccepting _ | .setExecuting _ | .closeSocket => True
  | _ => False

theorem Syscall.Internal.silent {call : Syscall} (hinternal : call.Internal) : call.Silent := by
  cases call <;> trivial

theorem Syscall.Flagging.silent {call : Syscall} (hflagging : call.Flagging) : call.Silent := by
  cases call <;> trivial

theorem Syscall.Silent.onward {call : Syscall} (hsilent : call.Silent) : call.Onward := by
  cases call <;> trivial

section Footprints

theorem internal_return {α : Type} (value : α) : (return value : Proc α).Uses Syscall.Internal :=
  .pure value

theorem internal_accountListAdd (list : AccountList) (account : Account) :
    (accountListAdd list account).Uses Syscall.Internal := by
  unfold accountListAdd
  split
  · split
    · exact internal_return _
    · refine .bind (.perform trivial) fun granted => ?_
      split <;> exact internal_return _
  · exact internal_return _

theorem internal_stateAddAccount (state : State) (account : Account) :
    (stateAddAccount state account).Uses Syscall.Internal :=
  .bind (internal_accountListAdd _ _) fun _ => internal_return _

theorem internal_stateMakeTransfer (state : State) (fromId toId : U64) (amount : U128) :
    (stateMakeTransfer state fromId toId amount).Uses Syscall.Internal := by
  refine .bind (.perform trivial) fun now => ?_
  split
  · exact internal_return _
  · split
    · exact internal_return _
    · trivial

theorem internal_stateUpdateAccount (state : State) (accountId : U64) (flags : U8) :
    (stateUpdateAccount state accountId flags).Uses Syscall.Internal := by
  refine .bind ?_ fun _ => internal_return _
  unfold accountListUpdate
  split
  · exact internal_return _
  · trivial

theorem internal_storageWalWrite (storageWal : StorageWal) (entry : StorageWalEntry) :
    (storageWalWrite storageWal entry).Uses Syscall.Internal := by
  unfold storageWalWrite
  split
  · exact internal_return _
  refine .bind (.perform trivial) fun written => ?_
  split
  · exact internal_return _
  refine .bind (.bind (.perform trivial) fun synced => ?_) fun error => ?_
  · split <;> exact internal_return _
  · split <;> exact internal_return _

theorem internal_letRequestLogged (context : Let) (entry : StorageWalEntry)
    (response : NetworkResponse) {mutate : State → Proc (Error × State × NetworkResponse)}
    (hmutate : ∀ state, (mutate state).Uses Syscall.Internal) :
    (letRequestLogged context entry response mutate).Uses Syscall.Internal := by
  refine .bind (internal_storageWalWrite _ _) ?_
  rintro ⟨error, storageWal⟩
  dsimp only
  split
  · exact internal_return _
  · exact .bind (hmutate _) fun _ => internal_return _

theorem internal_letRequest (context : Let) (request : NetworkRequest)
    (response : NetworkResponse) :
    (letRequest context request response).Uses Syscall.Internal := by
  refine .bind (.perform trivial) fun timeNow => ?_
  split
  · exact internal_return _
  cases request with
  | magic | getAccount | countDatabase | close => exact internal_return _
  | addAccount walId credits debits flags =>
      apply internal_letRequestLogged
      intro state
      refine .bind (internal_stateAddAccount _ _) ?_
      rintro ⟨error, state, accountId⟩
      dsimp only
      split <;> exact internal_return _
  | makeTransfer walId fromId toId amount =>
      simp only [letRequestMakeTransfer]
      split
      · exact internal_return _
      · apply internal_letRequestLogged
        exact fun state => .bind (internal_stateMakeTransfer _ _ _ _) fun _ => internal_return _
  | updateAccount walId accountId flags =>
      simp only [letRequestUpdateAccount]
      split
      · exact internal_return _
      · apply internal_letRequestLogged
        exact fun state => .bind (internal_stateUpdateAccount _ _ _) fun _ => internal_return _

theorem flagging_letRunExecuting (context : Let) :
    (letRunExecuting context).Uses Syscall.Flagging := by
  refine .bind (.perform trivial) fun executing => ?_
  split
  · exact .pure _
  · refine .bind (.perform trivial) fun _ => .bind (.perform trivial) fun accepting => ?_
    split <;> exact .pure _

theorem flagging_letRunDispatch (context : Let) (request : NetworkRequest)
    (response : NetworkResponse) :
    (letRunDispatch context request response).Uses Syscall.Flagging := by
  unfold letRunDispatch
  split
  · exact .pure _
  · exact .pure _
  · exact .bind (.perform trivial) fun _ => flagging_letRunExecuting _
  · exact .bind (.perform trivial) fun _ => flagging_letRunExecuting _
  · exact .bind (.perform trivial) fun _ => .bind (.perform trivial) fun _ =>
      flagging_letRunExecuting _

theorem flagging_letRunResponded (context : Let) (request : NetworkRequest) :
    (letRunResponded context request).Uses Syscall.Flagging := by
  unfold letRunResponded
  dsimp only
  split
  · split
    · exact .bind (.perform trivial) fun _ => .bind (.perform trivial) fun _ =>
        flagging_letRunExecuting _
    · exact .bind (.perform trivial) fun _ => flagging_letRunExecuting _
  · split
    · exact .bind (.perform trivial) fun _ => flagging_letRunExecuting _
    · exact flagging_letRunExecuting _

theorem networkClientWrite_eq (response : NetworkResponse) :
    networkClientWrite response = Program.iterate networkClientWriteRound response.bytes := by
  have hlength : (networkResponseEncoderRun response networkBufferLength).2.length ≤
      networkBufferLength := length_networkResponseEncoderRun_le _ _
  rw [networkClientWrite]
  simp only [NetworkResponse.bytes]
  rw [if_neg (Nat.not_lt.mpr hlength), networkResponseEncoderRun_eq]
  rfl

theorem uses_networkClientRead {allowed : Syscall → Prop} (hrecv : allowed .recv)
    (request : NetworkRequest) : (networkClientRead request).Uses allowed := by
  refine .bind (.iterate (fun loop => ?_) _) fun result => ?_
  · unfold networkClientReadRound
    split
    · refine .bind (.perform hrecv) fun received => ?_
      repeat' split
      all_goals exact .pure _
    · exact .pure _
  · repeat' split
    all_goals exact .pure _

theorem uses_networkClientWrite {allowed : Syscall → Prop} (hsend : ∀ bytes, allowed (.send bytes))
    (response : NetworkResponse) : (networkClientWrite response).Uses allowed := by
  rw [networkClientWrite_eq]
  refine .iterate (fun remaining => ?_) _
  unfold networkClientWriteRound
  split
  · exact .pure _
  · refine .bind (.perform (hsend _)) fun result => ?_
    repeat' split
    all_goals exact .pure _

/-- Steps on a connection accept no other. -/
theorem onward_letRunStep {point : LetRun} (hopen : ∀ context, point ≠ .accepting context) :
    (letRunStep point).Uses Syscall.Onward := by
  have honward (call : Syscall) (hflagging : call.Flagging) : call.Onward := hflagging.silent.onward
  cases point with
  | accepting context => exact (hopen context rfl).elim
  | reading context =>
      refine .bind (uses_networkClientRead trivial _) ?_
      rintro ⟨error, request⟩
      dsimp only
      split
      · exact (flagging_letRunDispatch _ _ _).mono honward
      · exact .pure _
  | processing context request =>
      refine .bind ((internal_letRequest _ _ _).mono ?_) fun _ =>
        (flagging_letRunDispatch _ _ _).mono honward
      exact fun call hinternal => hinternal.silent.onward
  | responding context request response =>
      exact .bind (uses_networkClientWrite (fun _ => trivial) _) fun _ =>
        (flagging_letRunResponded _ _).mono honward
  | finished context => exact .pure _

theorem silent_processing (context : Let) (request : NetworkRequest) :
    (letRunStep (.processing context request)).Uses Syscall.Silent :=
  .bind ((internal_letRequest _ _ _).mono fun _ => Syscall.Internal.silent) fun _ =>
    (flagging_letRunDispatch _ _ _).mono fun _ => Syscall.Flagging.silent

end Footprints

/-- The bytes that have passed are a part of those that have passed later. -/
structure Extends (world world' : World) : Prop where
  received : world.received <+: world'.received
  sent : world.sent <+: world'.sent

/-- The same bytes have passed. -/
structure SameBytes (world world' : World) : Prop where
  received : world'.received = world.received
  sent : world'.sent = world.sent

instance : Std.Refl Extends where
  refl _ := ⟨List.prefix_rfl, List.prefix_rfl⟩

instance : IsTrans World Extends where
  trans _ _ _ hfirst hsecond :=
    ⟨hfirst.received.trans hsecond.received, hfirst.sent.trans hsecond.sent⟩

instance : Std.Refl SameBytes where
  refl _ := ⟨rfl, rfl⟩

instance : IsTrans World SameBytes where
  trans _ _ _ hfirst hsecond :=
    ⟨hsecond.received.trans hfirst.received, hsecond.sent.trans hfirst.sent⟩

theorem Syscall.Silent.sameBytes (reliable : Bool) {call : Syscall} (hsilent : call.Silent)
    (choice : call.Choice) (world : World) :
    SameBytes world (call.exec reliable choice world).2 := by
  cases call with
  | accept => exact hsilent.elim
  | recv => exact hsilent.elim
  | send bytes => exact hsilent.elim
  | getAccepting | getExecuting | setAccepting | setExecuting =>
      exact ⟨Proc.interrupt_received _, Proc.interrupt_sent _⟩
  | _ =>
      simp only [Syscall.exec]
      repeat' split
      all_goals exact ⟨rfl, rfl⟩

theorem Syscall.Onward.extends (reliable : Bool) {call : Syscall} (honward : call.Onward)
    (choice : call.Choice) (world : World) :
    Extends world (call.exec reliable choice world).2 := by
  by_cases hsilent : call.Silent
  · obtain ⟨hreceived, hsent⟩ := hsilent.sameBytes reliable choice world
    exact ⟨hreceived ▸ List.prefix_rfl, hsent ▸ List.prefix_rfl⟩
  cases call with
  | accept => exact honward.elim
  | recv =>
      cases (choice : RecvResult) with
      | byte byte => exact ⟨List.prefix_append _ _, List.prefix_rfl⟩
      | closed | wouldBlock | interrupted | failed => exact ⟨List.prefix_rfl, List.prefix_rfl⟩
  | send bytes =>
      cases (choice : SendResult) with
      | sent count => exact ⟨List.prefix_rfl, List.prefix_append _ _⟩
      | wouldBlock | interrupted | failed => exact ⟨List.prefix_rfl, List.prefix_rfl⟩
  | _ => exact (hsilent trivial).elim

end LetDX.LetDB
