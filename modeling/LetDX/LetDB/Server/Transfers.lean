import LetDX.LetDB.Server.Balances

/-! # Accepted transfers

The guard is a rule on unbounded numbers. A transfer that it accepts from a sender
without debt is carried out without wrapping, unless the clock cannot be read.
-/

namespace LetDX.LetDB

open Effects

/-- The rule of the guard, over unbounded numbers. -/
def TransferRule (accounts : List Account) (fromId toId amount : Nat) : Prop :=
  0 < amount ∧ fromId ≠ toId ∧ ∃ sender recipient, accounts[fromId]? = some sender ∧
    accounts[toId]? = some recipient ∧ sender.flags &&& accountFlagCanSend ≠ 0 ∧
    recipient.flags &&& accountFlagCanReceive ≠ 0 ∧
    sender.transactions.toNat < 2 ^ 64 - 1 ∧ recipient.transactions.toNat < 2 ^ 64 - 1 ∧
    (sender.flags &&& accountFlagCanDebt ≠ 0 ∨ sender.credits.toNat + amount ≤ sender.debits.toNat)

/-- A counter below the greatest one can be incremented. -/
theorem ne_allOnes_iff (counter : U64) : counter ≠ BitVec.allOnes 64 ↔
    counter.toNat < 2 ^ 64 - 1 := by
  have hlt := counter.isLt
  rw [BitVec.toNat_ne, BitVec.toNat_allOnes]
  omega

theorem toNat_increment {counter : U64} (hroom : counter ≠ BitVec.allOnes 64) :
    (counter + 1).toNat = counter.toNat + 1 := by
  have hlt := (ne_allOnes_iff counter).mp hroom
  exact BitVec.toNat_add_of_lt (Nat.add_lt_of_lt_sub hlt)

theorem admits_iff (sender recipient : Account) (amount : U128) :
    Admits sender.ledger recipient.ledger amount ↔
      sender.flags &&& accountFlagCanSend ≠ 0 ∧ recipient.flags &&& accountFlagCanReceive ≠ 0 ∧
      sender.transactions.toNat < 2 ^ 64 - 1 ∧ recipient.transactions.toNat < 2 ^ 64 - 1 ∧
      (sender.flags &&& accountFlagCanDebt ≠ 0 ∨
        sender.credits.toNat + amount.toNat ≤ sender.debits.toNat) := by
  rw [← ne_allOnes_iff, ← ne_allOnes_iff, ← Decidable.imp_iff_not_or]
  constructor
  · rintro ⟨hsend, hreceive, hcovered, hsender, hrecipient⟩
    exact ⟨hsend, hreceive, hsender, hrecipient, hcovered⟩
  · rintro ⟨hsend, hreceive, hsender, hrecipient, hcovered⟩
    exact ⟨hsend, hreceive, hcovered, hsender, hrecipient⟩

theorem guardPolicy_transfer_iff (accounts : List Account) (fromId toId : U64) (amount : U128) :
    guardPolicy (ledgerOf accounts) (.transfer fromId.toNat toId.toNat amount) ↔
      TransferRule accounts fromId.toNat toId.toNat amount.toNat := by
  have hamount : amount ≠ 0 ↔ 0 < amount.toNat := by
    rw [BitVec.toNat_ne]
    exact Nat.pos_iff_ne_zero.symm
  rw [guardPolicy, TransferRule, hamount]
  refine and_congr_right fun _ => and_congr_right fun _ => ?_
  constructor
  · rintro ⟨_, _, hsender, hrecipient, hadmits⟩
    rw [ledgerOf, List.getElem?_map, Option.map_eq_some_iff] at hsender hrecipient
    obtain ⟨sender, hsender, rfl⟩ := hsender
    obtain ⟨recipient, hrecipient, rfl⟩ := hrecipient
    exact ⟨sender, recipient, hsender, hrecipient, (admits_iff ..).mp hadmits⟩
  · rintro ⟨sender, recipient, hsender, hrecipient, hadmits⟩
    refine ⟨sender.ledger, recipient.ledger, ?_, ?_, (admits_iff ..).mpr hadmits⟩
    · rw [ledgerOf, List.getElem?_map, hsender, Option.map_some]
    · rw [ledgerOf, List.getElem?_map, hrecipient, Option.map_some]

/-- A transfer between existing accounts does nothing but read the clock. -/
theorem stateMakeTransfer_eq {state : State} {fromId toId : U64}
    (hfrom : fromId.toNat < state.accountList.accounts.length)
    (hto : toId.toNat < state.accountList.accounts.length) (amount : U128) :
    ∃ result : Time → Error × State,
      stateMakeTransfer state fromId toId amount = (do return result (← Proc.time)) ∧
      result Time.failed = (.state .invalidTime, state) ∧
      ∀ now ≠ Time.failed, (result now).1 = .none ∧ (result now).2.accountList.accounts =
        applyTransfer state.accountList.accounts fromId.toNat toId.toNat amount now := by
  let carried (now : Time) : AccountList := state.accountList.update
    (applyTransfer · fromId.toNat toId.toNat amount now) (by simp)
  let result (now : Time) : Error × State :=
    if now = Time.failed then (.state .invalidTime, state)
    else (.none, { accountList := carried now })
  refine ⟨result, ?_, if_pos rfl, ?_⟩
  · rw [stateMakeTransfer]
    refine congrArg (Proc.time >>= ·) (funext fun now => ?_)
    dsimp only [result]
    split
    · rfl
    · rw [if_pos ⟨hfrom, hto⟩]
  · intro now hnow
    dsimp only [result]
    rw [if_neg hnow]
    exact ⟨rfl, rfl⟩

/-- What a transfer from a sender without debt leaves, if it has the time. -/
structure Transferred (sender recipient sender' recipient' : Account) (amount : Nat) : Prop where
  exact : sender'.credits.toNat = sender.credits.toNat + amount
  covered : sender'.credits ≤ sender'.debits
  senderCounter : sender'.transactions.toNat = sender.transactions.toNat + 1
  recipientCounter : recipient'.transactions.toNat = recipient.transactions.toNat + 1

theorem transferred {accounts : List Account} {fromId toId : U64} {amount : U128}
    {sender recipient : Account} (now : Time)
    (hpolicy : guardPolicy (ledgerOf accounts) (.transfer fromId.toNat toId.toNat amount))
    (hsender : accounts[fromId.toNat]? = some sender)
    (hrecipient : accounts[toId.toNat]? = some recipient)
    (hdebt : sender.flags &&& accountFlagCanDebt = 0) :
    ∃ sender' recipient',
      (applyTransfer accounts fromId.toNat toId.toNat amount now)[fromId.toNat]? = some sender' ∧
      (applyTransfer accounts fromId.toNat toId.toNat amount now)[toId.toNat]? = some recipient' ∧
      Transferred sender recipient sender' recipient' amount.toNat := by
  have hfits := (toNat_add_eq_iff _ _).mpr (fits_of_guardPolicy hpolicy hsender hdebt)
  obtain ⟨_, hne, _, _, hsender', hrecipient', hadmits⟩ := hpolicy
  rw [ledgerOf, List.getElem?_map, hsender] at hsender'
  rw [ledgerOf, List.getElem?_map, hrecipient] at hrecipient'
  obtain rfl := Option.some.inj hsender'
  obtain rfl := Option.some.inj hrecipient'
  refine ⟨_, _, applyTransfer_sender hne hsender, applyTransfer_recipient hne hrecipient,
    hfits, ?_, toNat_increment hadmits.senderCounter, toNat_increment hadmits.recipientCounter⟩
  rw [BitVec.le_def]
  exact hfits.trans_le (hadmits.covered hdebt)

/-- The guard is exact. A transfer that it accepts from a sender without debt does
nothing but read the clock. Without a time it is refused and changes nothing, and
with a time it is carried out without wrapping. -/
theorem guardMakeTransfer_exact (state : State) (fromId toId : U64) (amount : U128) :
    (guardMakeTransfer state fromId toId amount = .none ↔
      TransferRule state.accountList.accounts fromId.toNat toId.toNat amount.toNat) ∧
    ∀ sender recipient, guardMakeTransfer state fromId toId amount = .none →
      state.accountList.accounts[fromId.toNat]? = some sender →
      state.accountList.accounts[toId.toNat]? = some recipient →
      sender.flags &&& accountFlagCanDebt = 0 →
      ∃ result : Time → Error × State,
        stateMakeTransfer state fromId toId amount = (do return result (← Proc.time)) ∧
        result Time.failed = (.state .invalidTime, state) ∧
        ∀ now ≠ Time.failed, (result now).1 = .none ∧ ∃ sender' recipient',
          (result now).2.accountList.accounts[fromId.toNat]? = some sender' ∧
          (result now).2.accountList.accounts[toId.toNat]? = some recipient' ∧
          Transferred sender recipient sender' recipient' amount.toNat := by
  refine ⟨(guardMakeTransfer_eq_none_iff ..).trans (guardPolicy_transfer_iff ..), ?_⟩
  intro sender recipient haccepted hsender hrecipient hdebt
  have hpolicy := (guardMakeTransfer_eq_none_iff ..).mp haccepted
  obtain ⟨hfrom, _⟩ := List.getElem?_eq_some_iff.mp hsender
  obtain ⟨hto, _⟩ := List.getElem?_eq_some_iff.mp hrecipient
  obtain ⟨result, hreads, hfailed, hcarried⟩ := stateMakeTransfer_eq hfrom hto amount
  refine ⟨result, hreads, hfailed, fun now hnow => ?_⟩
  obtain ⟨hnone, haccounts⟩ := hcarried now hnow
  rw [haccounts]
  exact ⟨hnone, transferred now hpolicy hsender hrecipient hdebt⟩

/-- One account may send, with a balance of five, and one may receive. -/
def pairState : State where
  accountList :=
    { accounts := [accountNew 0 5 1 accountFlagCanSend, accountNew 0 0 1 accountFlagCanReceive]
      capacity := accountCapacityDefault
      bounded := by decide
      positive := AccountList.empty.positive }

/-- Three of the five are sent. -/
theorem guardMakeTransfer_exact_pair :
    TransferRule pairState.accountList.accounts 0 1 3 ∧ ∃ result : Time → Error × State,
      stateMakeTransfer pairState 0 1 3 = (do return result (← Proc.time)) ∧
      result Time.failed = (.state .invalidTime, pairState) ∧
      ∀ now ≠ Time.failed, (result now).1 = .none ∧ ∃ sender' recipient',
        (result now).2.accountList.accounts[0]? = some sender' ∧
        (result now).2.accountList.accounts[1]? = some recipient' ∧
        Transferred (accountNew 0 5 1 accountFlagCanSend) (accountNew 0 0 1 accountFlagCanReceive)
          sender' recipient' 3 := by
  obtain ⟨hrule, hrun⟩ := guardMakeTransfer_exact pairState 0 1 3
  exact ⟨hrule.mp (by decide), hrun _ _ (by decide) rfl rfl (by decide)⟩

/-- An accepted transfer that is refused when the clock cannot be read. -/
theorem guardMakeTransfer_exact_timeless :
    guardMakeTransfer pairState 0 1 3 = .none ∧
      (system false).Returns (stateMakeTransfer pairState 0 1 3) {}
        (.state .invalidTime, pairState) {} := by
  have htime : (system false).Returns Proc.time {} Time.failed {} :=
    Machine.returns_perform.mpr ⟨(Time.failed : Time), rfl⟩
  refine ⟨by decide, ?_⟩
  have hfrom : (0 : U64).toNat < pairState.accountList.accounts.length := by decide
  have hto : (1 : U64).toNat < pairState.accountList.accounts.length := by decide
  obtain ⟨result, hreads, hfailed, _⟩ := stateMakeTransfer_eq hfrom hto 3
  rw [hreads, ← hfailed]
  exact htime.bind (.pure _ _)

end LetDX.LetDB
