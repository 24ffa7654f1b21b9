import LetDX.LetDB.Guard
import LetDX.LetDB.Storage.Entry
import LetDX.Ledger.History

/-! # The account list as a ledger

Leaving out the time of the last change, an account is an account of the
double-entry ledger, and each operation of the state machine is a posting. The
live path and the replay of the log share these operations.
-/

namespace LetDX.LetDB

open Effects

abbrev LedgerAccount := Ledger.Account U128 U64 Time U8

abbrev LedgerEntry := Ledger.Entry U128 Time U8

def Account.ledger (account : Account) : LedgerAccount where
  credits := account.credits
  debits := account.debits
  transactions := account.transactions
  createdAt := account.createdAt
  flags := account.flags

namespace StorageWalEntryData

def posting (timestamp : Time) : StorageWalEntryData → LedgerEntry
  | addAccount credits debits flags => .opening credits debits flags timestamp
  | makeTransfer fromId toId amount => .transfer fromId.toNat toId.toNat amount
  | updateAccount accountId flags => .flagging accountId.toNat flags

/-- The accounts named by the operation are there. -/
def InBounds (length : Nat) : StorageWalEntryData → Prop
  | addAccount .. => True
  | makeTransfer fromId toId _ => fromId.toNat < length ∧ toId.toNat < length
  | updateAccount accountId _ => accountId.toNat < length

/-- The operation on the accounts, for the timestamp of its entry and the time
at which it is carried out. -/
def apply (timestamp now : Time) (accounts : List Account) : StorageWalEntryData → List Account
  | addAccount credits debits flags => accounts ++ [accountNew credits debits timestamp flags]
  | makeTransfer fromId toId amount =>
      applyTransfer accounts fromId.toNat toId.toNat amount now
  | updateAccount accountId flags =>
      accounts.modify accountId.toNat fun account => { account with flags }

theorem inBounds_of_names {data : StorageWalEntryData} {timestamp : Time} {length : Nat}
    (hnames : (data.posting timestamp).Names length) : data.InBounds length := by
  cases data with
  | addAccount credits debits flags => trivial
  | makeTransfer fromId toId amount => exact ⟨hnames.1, hnames.2.1⟩
  | updateAccount accountId flags => exact hnames

/-- An operation leaves every account alone that it does not name. -/
theorem getElem?_apply_of_not_touches {data : StorageWalEntryData} {timestamp now : Time}
    {accounts : List Account} {index : Nat} (hindex : index < accounts.length)
    (huntouched : ¬(data.posting timestamp).Touches index) :
    (data.apply timestamp now accounts)[index]? = accounts[index]? := by
  cases data with
  | addAccount credits debits flags => exact List.getElem?_append_left hindex
  | makeTransfer fromId toId amount =>
      obtain ⟨hfrom, hto⟩ := not_or.mp huntouched
      simp only [apply, applyTransfer, List.getElem?_modify, if_neg hfrom, if_neg hto, id_map']
  | updateAccount accountId flags =>
      have haccount : ¬accountId.toNat = index := huntouched
      simp only [apply, List.getElem?_modify, if_neg haccount, id_map']

end StorageWalEntryData

def StorageWalEntry.posting (entry : StorageWalEntry) : LedgerEntry :=
  entry.data.posting entry.timestamp

def ledgerOf (accounts : List Account) : List LedgerAccount :=
  accounts.map Account.ledger

@[simp] theorem length_ledgerOf (accounts : List Account) :
    (ledgerOf accounts).length = accounts.length := by
  simp [ledgerOf]

/-- What a transfer between two accounts does to each account. -/
theorem getElem?_applyTransfer (accounts : List Account) {fromId toId : Nat} (hne : fromId ≠ toId)
    (amount : U128) (now : Time) (index : Nat) :
    (applyTransfer accounts fromId toId amount now)[index]? = accounts[index]?.map fun account =>
      if fromId = index then
        { account with
          credits := account.credits + amount
          transactions := account.transactions + 1
          updatedAt := now }
      else if toId = index then
        { account with
          debits := account.debits + amount
          transactions := account.transactions + 1
          updatedAt := now }
      else account := by
  simp only [applyTransfer, List.getElem?_modify]
  cases accounts[index]? with
  | none => rfl
  | some account =>
      by_cases hfrom : fromId = index
      · have hto : ¬toId = index := fun h => hne (hfrom.trans h.symm)
        simp [hfrom, hto]
      · by_cases hto : toId = index
        · simp [hfrom, hto]
        · simp [hfrom, hto]

/-- The six assignments of a transfer make up one payment. -/
theorem ledgerOf_applyTransfer (accounts : List Account) (fromId toId : Nat) (amount : U128)
    (now : Time) :
    ledgerOf (applyTransfer accounts fromId toId amount now) =
      Ledger.post (ledgerOf accounts) (.transfer fromId toId amount) := by
  apply List.ext_getElem?
  intro index
  simp only [ledgerOf, applyTransfer, Ledger.post, List.getElem?_map, List.getElem?_modify]
  cases accounts[index]? with
  | none => rfl
  | some account => by_cases hfrom : fromId = index <;> by_cases hto : toId = index <;>
      simp [hfrom, hto, Account.ledger, Ledger.Account.pay, Ledger.Account.receive]

/-- Each operation of the state machine is its posting. -/
theorem ledgerOf_apply (data : StorageWalEntryData) (timestamp now : Time)
    (accounts : List Account) :
    ledgerOf (data.apply timestamp now accounts) =
      Ledger.post (ledgerOf accounts) (data.posting timestamp) := by
  cases data with
  | addAccount credits debits flags =>
      simp [StorageWalEntryData.apply, StorageWalEntryData.posting, ledgerOf, Ledger.post,
        Account.ledger, accountNew, Ledger.Account.open]
  | makeTransfer fromId toId amount => exact ledgerOf_applyTransfer accounts _ _ amount now
  | updateAccount accountId flags =>
      apply List.ext_getElem?
      intro index
      simp only [ledgerOf, StorageWalEntryData.apply, StorageWalEntryData.posting, Ledger.post,
        List.getElem?_map, List.getElem?_modify]
      cases accounts[index]? with
      | none => rfl
      | some account => by_cases hindex : accountId.toNat = index <;>
          simp [hindex, Account.ledger, Ledger.Account.flag]

/-! ## The functions of the state machine -/

section Rules

variable {reliable : Bool} {during : Durable.Disk → Prop} {world : World} {state : State}

theorem stateAddAccount_spec {account : Account} {post : Error × State × U64 → World → Prop}
    (hduring : during world.disk) (hlength : state.accountList.accounts.length < 2 ^ 63)
    (hadded : ∀ state', state'.accountList.accounts = state.accountList.accounts ++ [account] →
      post (.none, state', state.accountList.length) world)
    (hrefused : reliable = false →
      post (.account .outOfMemory, state, state.accountList.length) world) :
    Meets reliable during post (stateAddAccount state account) world := by
  refine .bind (accountListAdd_spec hduring hlength ?_ ?_)
  · intro list' haccounts
    exact .pure hduring (hadded { accountList := list' } haccounts)
  · intro hunreliable
    exact .pure hduring (hrefused hunreliable)

theorem stateMakeTransfer_spec {fromId toId : U64} {amount : U128}
    {post : Error × State → World → Prop} (hduring : during world.disk)
    (hfrom : fromId.toNat < state.accountList.accounts.length)
    (hto : toId.toNat < state.accountList.accounts.length)
    (hmade : ∀ now state', state'.accountList.accounts =
      applyTransfer state.accountList.accounts fromId.toNat toId.toNat amount now →
      post (.none, state') world)
    (hfailed : reliable = false → post (.state .invalidTime, state) world) :
    Meets reliable during post (stateMakeTransfer state fromId toId amount) world := by
  refine .bind (Proc.time_spec hduring fun now hnow => ?_)
  by_cases hinvalid : now = Time.failed
  · rw [if_pos hinvalid]
    exact .pure hduring (hfailed (by cases reliable <;> simp_all))
  · rw [if_neg hinvalid, if_pos ⟨hfrom, hto⟩]
    exact .pure hduring (hmade now _ rfl)

theorem stateUpdateAccount_spec {accountId : U64} {flags : U8}
    {post : Error × State → World → Prop} (hduring : during world.disk)
    (haccount : accountId.toNat < state.accountList.accounts.length)
    (hupdated : ∀ state', state'.accountList.accounts =
      state.accountList.accounts.modify accountId.toNat (fun account => { account with flags }) →
      post (.none, state') world) :
    Meets reliable during post (stateUpdateAccount state accountId flags) world := by
  unfold stateUpdateAccount accountListUpdate
  rw [if_pos haccount]
  exact .bind (.pure hduring (.pure hduring (hupdated _ rfl)))

end Rules

end LetDX.LetDB
