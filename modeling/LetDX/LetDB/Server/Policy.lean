import LetDX.LetDB.Postings

/-! # What the guard lets through

The guard as a policy on postings: which transfers and updates it admits in a
ledger. A history of admitted postings is a history of accepted requests.
-/

namespace LetDX.LetDB

/-- The flags, balances and counters that a transfer needs. -/
structure Admits (sender recipient : LedgerAccount) (amount : U128) : Prop where
  canSend : sender.flags &&& accountFlagCanSend ≠ 0
  canReceive : recipient.flags &&& accountFlagCanReceive ≠ 0
  covered : sender.flags &&& accountFlagCanDebt = 0 →
    sender.credits.toNat + amount.toNat ≤ sender.debits.toNat
  senderCounter : sender.transactions ≠ BitVec.allOnes 64
  recipientCounter : recipient.transactions ≠ BitVec.allOnes 64

def guardPolicy (ledger : List LedgerAccount) : LedgerEntry → Prop
  | .opening .. => True
  | .transfer fromId toId amount =>
      amount ≠ 0 ∧ fromId ≠ toId ∧ ∃ sender recipient, ledger[fromId]? = some sender ∧
        ledger[toId]? = some recipient ∧ Admits sender recipient amount
  | .flagging accountId _ => accountId < ledger.length

theorem names_of_guardPolicy {ledger : List LedgerAccount} {entry : LedgerEntry}
    (hpolicy : guardPolicy ledger entry) : entry.Names ledger.length := by
  cases entry with
  | opening => trivial
  | transfer fromId toId amount =>
      obtain ⟨_, hne, sender, recipient, hsender, hrecipient, _⟩ := hpolicy
      obtain ⟨hfrom, _⟩ := List.getElem?_eq_some_iff.mp hsender
      obtain ⟨hto, _⟩ := List.getElem?_eq_some_iff.mp hrecipient
      exact ⟨hfrom, hto, hne⟩
  | flagging => exact hpolicy

/-- The first comparison of the guard says that the sum does not wrap. -/
theorem room_iff (credits amount : U128) :
    ¬BitVec.allOnes 128 - credits < amount ↔ amount.toNat + credits.toNat < 2 ^ 128 := by
  have hcredits : credits.toNat ≤ 2 ^ 128 - 1 := Nat.le_sub_one_of_lt credits.isLt
  have hroom : (BitVec.allOnes 128 - credits).toNat = 2 ^ 128 - 1 - credits.toNat := by
    rw [BitVec.toNat_sub_of_le (by rwa [BitVec.le_def, BitVec.toNat_allOnes]),
      BitVec.toNat_allOnes]
  have hpos : 0 < 2 ^ 128 := Nat.two_pow_pos 128
  rw [BitVec.lt_def, hroom]
  generalize 2 ^ 128 = bound at hcredits hpos
  omega

/-- The two comparisons of the guard say that the balance covers the amount,
without wrapping. -/
theorem covered_iff (credits debits amount : U128) :
    (¬BitVec.allOnes 128 - credits < amount ∧ ¬debits < amount + credits) ↔
      credits.toNat + amount.toNat ≤ debits.toNat := by
  have hdebits := debits.isLt
  rw [room_iff]
  constructor
  · rintro ⟨hroom, hbalance⟩
    rw [BitVec.lt_def, BitVec.toNat_add_of_lt hroom] at hbalance
    omega
  · intro hcovered
    have hroom : amount.toNat + credits.toNat < 2 ^ 128 :=
      (Nat.add_comm _ _).trans_le hcovered |>.trans_lt hdebits
    rw [BitVec.lt_def, BitVec.toNat_add_of_lt hroom]
    exact ⟨hroom, by omega⟩

theorem guardMakeTransferAccounts_eq_none_iff (fromAccount toAccount : Account) (amount : U128) :
    guardMakeTransferAccounts fromAccount toAccount amount = .none ↔
      Admits fromAccount.ledger toAccount.ledger amount := by
  have hcovered := covered_iff fromAccount.credits fromAccount.debits amount
  constructor
  · intro hguard
    unfold guardMakeTransferAccounts at hguard
    split at hguard
    · nomatch hguard
    next hsend =>
    split at hguard
    · nomatch hguard
    next hreceive =>
    split at hguard
    · nomatch hguard
    next hroom =>
    split at hguard
    · nomatch hguard
    next hbalance =>
    split at hguard
    · nomatch hguard
    next hcounters =>
    rw [not_or] at hcounters
    refine ⟨hsend, hreceive, ?_, hcounters.1, hcounters.2⟩
    intro hdebt
    have hdebt : fromAccount.flags &&& accountFlagCanDebt = 0 := hdebt
    exact hcovered.mp ⟨fun hless => hroom ⟨hdebt, hless⟩, fun hless => hbalance ⟨hdebt, hless⟩⟩
  · rintro ⟨hsend, hreceive, hcover, hsender, hrecipient⟩
    have hsend : fromAccount.flags &&& accountFlagCanSend ≠ 0 := hsend
    have hreceive : toAccount.flags &&& accountFlagCanReceive ≠ 0 := hreceive
    have hcover (hdebt : fromAccount.flags &&& accountFlagCanDebt = 0) :=
      hcovered.mpr (hcover hdebt)
    have hsender : fromAccount.transactions ≠ BitVec.allOnes 64 := hsender
    have hrecipient : toAccount.transactions ≠ BitVec.allOnes 64 := hrecipient
    unfold guardMakeTransferAccounts
    rw [if_neg hsend, if_neg hreceive, if_neg fun h => (hcover h.1).1 h.2,
      if_neg fun h => (hcover h.1).2 h.2, if_neg (not_or.mpr ⟨hsender, hrecipient⟩)]

theorem ledgerOf_slot {list : AccountList} {accountId : U64} (hslot : ¬accountId ≥ list.length) :
    (ledgerOf list.accounts)[accountId.toNat]? = some (list.slot accountId hslot).ledger := by
  have hlength := list.toNat_length
  have hindex : accountId.toNat < list.accounts.length := by bv_omega
  simp [ledgerOf, AccountList.slot, List.getElem?_eq_getElem hindex]

/-- The guard accepts a transfer exactly if the policy admits its posting. -/
theorem guardMakeTransfer_eq_none_iff (state : State) (fromId toId : U64) (amount : U128) :
    guardMakeTransfer state fromId toId amount = .none ↔
      guardPolicy (ledgerOf state.accountList.accounts)
        (.transfer fromId.toNat toId.toNat amount) := by
  have hlength := state.accountList.toNat_length
  unfold guardMakeTransfer
  dsimp only
  by_cases hamount : amount = 0
  · simp [hamount, guardPolicy]
  rw [if_neg hamount]
  by_cases hsame : fromId = toId
  · simp [hsame, guardPolicy]
  rw [if_neg hsame]
  have hne : fromId.toNat ≠ toId.toNat := fun heq => hsame (BitVec.eq_of_toNat_eq heq)
  have hmissing (accountId : U64) (hlist : accountId ≥ state.accountList.length) :
      (ledgerOf state.accountList.accounts)[accountId.toNat]? = none := by
    rw [List.getElem?_eq_none_iff, length_ledgerOf]
    bv_omega
  by_cases hfrom : fromId ≥ state.accountList.length
  · rw [dif_pos hfrom]
    simp [guardPolicy, hmissing fromId hfrom]
  rw [dif_neg hfrom]
  by_cases hto : toId ≥ state.accountList.length
  · rw [dif_pos hto]
    simp [guardPolicy, hmissing toId hto]
  rw [dif_neg hto, guardMakeTransferAccounts_eq_none_iff]
  constructor
  · intro hadmits
    exact ⟨hamount, hne, _, _, ledgerOf_slot hfrom, ledgerOf_slot hto, hadmits⟩
  · rintro ⟨_, _, sender, recipient, hsender, hrecipient, hadmits⟩
    rw [ledgerOf_slot hfrom] at hsender
    rw [ledgerOf_slot hto] at hrecipient
    obtain rfl := Option.some.inj hsender
    obtain rfl := Option.some.inj hrecipient
    exact hadmits

theorem guardUpdateAccount_eq_none_iff (state : State) (accountId : U64) (flags : U8) :
    guardUpdateAccount state accountId = .none ↔
      guardPolicy (ledgerOf state.accountList.accounts) (.flagging accountId.toNat flags) := by
  have hlength := state.accountList.toNat_length
  unfold guardUpdateAccount guardPolicy
  rw [length_ledgerOf]
  split
  next hmissing => exact iff_of_false (by simp) (by bv_omega)
  next hfound => exact iff_of_true rfl (by bv_omega)

/-- What the guard refuses is answered with an error. -/
theorem errorReport_guardMakeTransfer {state : State} {fromId toId : U64} {amount : U128}
    (hrefused : guardMakeTransfer state fromId toId amount ≠ .none) :
    (errorReport (guardMakeTransfer state fromId toId amount)).action = .reject := by
  revert hrefused
  unfold guardMakeTransfer guardMakeTransferAccounts
  dsimp only
  repeat' split
  all_goals simp [errorReport, errorReportGuard]

theorem errorReport_guardUpdateAccount {state : State} {accountId : U64}
    (hrefused : guardUpdateAccount state accountId ≠ .none) :
    (errorReport (guardUpdateAccount state accountId)).action = .reject := by
  revert hrefused
  unfold guardUpdateAccount
  split <;> simp [errorReport, errorReportAccount]

end LetDX.LetDB
