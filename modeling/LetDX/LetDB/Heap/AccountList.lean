import LetDX.LetDB.Account
import LetDX.Memory.Block

/-! # The account list on the heap

The list as its functions keep it: the block that the allocator has handed out, and
two counters that nothing but these functions ties to it. An access outside of the
block is an undefined step, and so is reading what has never been stored.
-/

namespace LetDX.LetDB.Heap

open Effects Memory

/-- `let_account_list_t` -/
structure AccountList where
  accounts : Block Account accountSize.toNat
  capacity : U64
  length : U64

/-- A new list, in a block for the default number of accounts. -/
def AccountList.empty : AccountList where
  accounts := .allocate (accountCapacityDefault * accountSize).toNat
  capacity := accountCapacityDefault
  length := 0

/-- `let_account_list_new` -/
def accountListNew : Proc (Option AccountList) := do
  let list ← Proc.malloc accountListSize
  if list then
    let accounts ← Proc.malloc (accountCapacityDefault * accountSize)
    if accounts then return some .empty
    else return none
  else return none

/-- Store behind the accounts and advance the counter. -/
def accountListStore (list : AccountList) (account : Account) : Proc (Error × AccountList) :=
  match list.accounts.write list.length.toNat account with
  | some accounts => return (.none, { list with accounts, length := list.length + 1 })
  | none => .fault

/-- `let_account_list_add`. A block that cannot be reallocated stays as it is. -/
def accountListAdd (list : AccountList) (account : Account) : Proc (Error × AccountList) :=
  if list.length ≥ list.capacity then
    let (newCapacity, overflows) := ckdMul list.capacity 2
    if overflows then return (.account .capacityOverflow, list)
    else do
      let bytes := accountSize * newCapacity
      let granted ← Proc.realloc bytes
      if granted then
        accountListStore
          { list with accounts := list.accounts.resize bytes.toNat, capacity := newCapacity }
          account
      else return (.account .outOfMemory, list)
  else accountListStore list account

/-- `let_account_list_get` -/
def accountListGet (list : AccountList) (accountId : U64) : Proc (Except Error Account) :=
  if accountId ≥ list.length then return .error (.account .notFound)
  else
    match list.accounts.read accountId.toNat with
    | some account => return .ok account
    | none => .fault

/-- `let_account_list_update` -/
def accountListUpdate (list : AccountList) (accountId : U64) (flags : U8) :
    Proc (Error × AccountList) :=
  match list.accounts.read accountId.toNat with
  | some account =>
      match list.accounts.write accountId.toNat { account with flags } with
      | some accounts => return (.none, { list with accounts })
      | none => .fault
  | none => .fault

end LetDX.LetDB.Heap
