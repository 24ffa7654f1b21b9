import LetDX.LetDB.Account

/-! # The in-memory state machine -/

namespace LetDX.LetDB

structure State where
  accountList : AccountList
  deriving DecidableEq, Repr

def stateAddAccount (state : State) (account : Account) : Proc (Error × State × U64) := do
  let accountLength := state.accountList.length
  let (error, accountList) ← accountListAdd state.accountList account
  return (error, { accountList }, accountLength)

/-- The six assignments of a transfer, in the order of the source, so that they
read back one another's results when both accounts are one. -/
def applyTransfer (accounts : List Account) (fromId toId : Nat) (amount : U128) (now : Time) :
    List Account :=
  accounts
    |>.modify fromId (fun account => { account with credits := account.credits + amount })
    |>.modify toId (fun account => { account with debits := account.debits + amount })
    |>.modify fromId (fun account => { account with transactions := account.transactions + 1 })
    |>.modify toId (fun account => { account with transactions := account.transactions + 1 })
    |>.modify fromId (fun account => { account with updatedAt := now })
    |>.modify toId (fun account => { account with updatedAt := now })

@[simp] theorem length_applyTransfer (accounts : List Account) (fromId toId : Nat) (amount : U128)
    (now : Time) : (applyTransfer accounts fromId toId amount now).length = accounts.length := by
  simp [applyTransfer]

/-- Writes to both slots without a bounds check. -/
def stateMakeTransfer (state : State) (fromAccountId toAccountId : U64) (amount : U128) :
    Proc (Error × State) := do
  let now ← Proc.time
  if now = Time.failed then return (.state .invalidTime, state)
  else if fromAccountId.toNat < state.accountList.accounts.length ∧
      toAccountId.toNat < state.accountList.accounts.length then
    let accountList := state.accountList.update
      (applyTransfer · fromAccountId.toNat toAccountId.toNat amount now) (by simp)
    return (.none, { accountList })
  else .fault

def stateUpdateAccount (state : State) (accountId : U64) (flags : U8) : Proc (Error × State) := do
  let (error, accountList) ← accountListUpdate state.accountList accountId flags
  return (error, { accountList })

end LetDX.LetDB
