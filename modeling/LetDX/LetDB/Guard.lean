import LetDX.LetDB.State

/-! # The guard in front of the state machine -/

namespace LetDX.LetDB

/-- The checks of `let_guard_make_transfer` on the two accounts themselves. -/
def guardMakeTransferAccounts (fromAccount toAccount : Account) (amount : U128) : Error :=
  if fromAccount.flags &&& accountFlagCanSend = 0 then .guard .accountCannotSend
  else if toAccount.flags &&& accountFlagCanReceive = 0 then .guard .accountCannotReceive
  else if fromAccount.flags &&& accountFlagCanDebt = 0 ∧
      BitVec.allOnes 128 - fromAccount.credits < amount then .guard .insufficientBalance
  -- After the check before it, this sum does not wrap.
  else if fromAccount.flags &&& accountFlagCanDebt = 0 ∧
      fromAccount.debits < amount + fromAccount.credits then .guard .insufficientBalance
  else if fromAccount.transactions = BitVec.allOnes 64 ∨
      toAccount.transactions = BitVec.allOnes 64 then .guard .transactionOverflow
  else .none

def guardMakeTransfer (state : State) (fromAccountId toAccountId : U64) (amount : U128) : Error :=
  let accountCount := state.accountList.length
  if amount = 0 then .guard .zeroBalance
  else if fromAccountId = toAccountId then .guard .sameAccount
  else if hfrom : fromAccountId ≥ accountCount then .guard .senderNotFound
  else if hto : toAccountId ≥ accountCount then .guard .recipientNotFound
  else guardMakeTransferAccounts (state.accountList.slot fromAccountId hfrom)
    (state.accountList.slot toAccountId hto) amount

def guardUpdateAccount (state : State) (accountId : U64) : Error :=
  if accountId ≥ state.accountList.length then .account .notFound
  else .none

end LetDX.LetDB
