import LetDX.LetDB.Error
import LetDX.LetDB.Host

/-! # Accounts and the account list -/

namespace LetDX.LetDB

/-! ## `let_account_flag_t` -/

def accountFlagNone : U8 := 0
def accountFlagCanSend : U8 := 1
def accountFlagCanReceive : U8 := 2
def accountFlagCanDebt : U8 := 4

structure Account where
  credits : U128
  debits : U128
  transactions : U64
  createdAt : Time
  updatedAt : Time
  flags : U8
  deriving DecidableEq, Repr

/-- The initialized slots of the account array, which has room for `capacity`
of them. -/
structure AccountList where
  accounts : List Account
  capacity : U64
  bounded : accounts.length ≤ capacity.toNat
  positive : 0 < capacity.toNat
  deriving DecidableEq, Repr

namespace AccountList

/-- The counter of stored accounts. -/
def length (list : AccountList) : U64 :=
  BitVec.ofNat 64 list.accounts.length

@[simp] theorem toNat_length (list : AccountList) : list.length.toNat = list.accounts.length := by
  have := list.bounded
  have := list.capacity.isLt
  simp only [length, BitVec.toNat_ofNat]
  omega

/-- The account in an initialized slot. -/
def slot (list : AccountList) (accountId : U64) (hslot : ¬accountId ≥ list.length) : Account :=
  list.accounts.get ⟨accountId.toNat, by
    have := list.toNat_length
    bv_omega⟩

/-- Store at index `length` and advance the counter. -/
def store (list : AccountList) (account : Account) (hroom : ¬list.length ≥ list.capacity) :
    AccountList where
  accounts := list.accounts ++ [account]
  capacity := list.capacity
  bounded := by
    have := list.toNat_length
    rw [List.length_append, List.length_singleton]
    bv_omega
  positive := list.positive

/-- Change accounts in their slots. -/
def update (list : AccountList) (change : List Account → List Account)
    (hchange : (change list.accounts).length = list.accounts.length) : AccountList where
  accounts := change list.accounts
  capacity := list.capacity
  bounded := hchange ▸ list.bounded
  positive := list.positive

end AccountList

def accountCapacityDefault : U64 := 1 <<< 10

/-- `sizeof(let_account_t)` -/
def accountSize : U64 := 64

/-- `sizeof(let_account_list_t)` -/
def accountListSize : U64 := 24

def accountNew (credits debits : U128) (createdAt : Time) (flags : U8) : Account :=
  { credits, debits, createdAt, updatedAt := createdAt, transactions := 0, flags }

/-- A new list, with room for the default number of accounts. -/
def AccountList.empty : AccountList where
  accounts := []
  capacity := accountCapacityDefault
  bounded := Nat.zero_le _
  positive := by decide

def accountListNew : Proc (Option AccountList) := do
  let list ← Proc.malloc accountListSize
  if list then
    let accounts ← Proc.malloc (accountCapacityDefault * accountSize)
    if accounts then return some .empty
    else return none
  else return none

/-- `ckd_mul`: the wrapped product, and whether it wrapped. -/
def ckdMul (first second : U64) : U64 × Bool :=
  (first * second, decide (2 ^ 64 ≤ first.toNat * second.toNat))

theorem toNat_ckdMul {first second : U64} (hfits : (ckdMul first second).2 = false) :
    (ckdMul first second).1.toNat = first.toNat * second.toNat := by
  simp only [ckdMul, decide_eq_false_iff_not, not_le] at hfits
  simp only [ckdMul, BitVec.toNat_mul, Nat.mod_eq_of_lt hfits]

section Doubling

variable {capacity : U64}

theorem not_ckdMul_two (hcapacity : capacity.toNat < 2 ^ 63) : ¬(ckdMul capacity 2).2 := by
  simp only [ckdMul, decide_eq_true_eq, not_le]
  change capacity.toNat * 2 < 2 ^ 64
  omega

theorem toNat_ckdMul_two (hcapacity : capacity.toNat < 2 ^ 63) :
    (ckdMul capacity 2).1.toNat = 2 * capacity.toNat := by
  rw [toNat_ckdMul (Bool.eq_false_iff.mpr (not_ckdMul_two hcapacity))]
  exact Nat.mul_comm _ 2

/-- The number of bytes does not wrap. -/
theorem toNat_accountSize_mul (hcapacity : capacity.toNat < 2 ^ 57) :
    (accountSize * (ckdMul capacity 2).1).toNat = 64 * (2 * capacity.toNat) := by
  rw [BitVec.toNat_mul, toNat_ckdMul_two (by omega)]
  change 64 * (2 * capacity.toNat) % 2 ^ 64 = _
  exact Nat.mod_eq_of_lt (by omega)

end Doubling

/-- The list with its array reallocated for twice the accounts. -/
def AccountList.grow (list : AccountList) (hfits : ¬(ckdMul list.capacity 2).2) : AccountList where
  accounts := list.accounts
  capacity := (ckdMul list.capacity 2).1
  bounded := by
    have := list.bounded
    rw [toNat_ckdMul (by simpa using hfits)]
    change _ ≤ list.capacity.toNat * 2
    omega
  positive := by
    have := list.positive
    rw [toNat_ckdMul (by simpa using hfits)]
    change 0 < list.capacity.toNat * 2
    omega

theorem AccountList.grow_room (list : AccountList) (hfits : ¬(ckdMul list.capacity 2).2) :
    ¬(list.grow hfits).length ≥ (list.grow hfits).capacity := by
  have hbounded := list.bounded
  have hpositive := list.positive
  have hlength : (list.grow hfits).length.toNat = list.accounts.length := by simp [grow]
  have hcapacity : (list.grow hfits).capacity.toNat = list.capacity.toNat * 2 :=
    toNat_ckdMul (by simpa using hfits)
  bv_omega

def accountListAdd (list : AccountList) (account : Account) : Proc (Error × AccountList) :=
  if hfull : list.length ≥ list.capacity then
    if hoverflow : (ckdMul list.capacity 2).2 then
      return (.account .capacityOverflow, list)
    else do
      let accounts ← Proc.realloc (accountSize * (ckdMul list.capacity 2).1)
      if accounts then
        return (.none, (list.grow hoverflow).store account (list.grow_room hoverflow))
      else return (.account .outOfMemory, list)
  else return (.none, list.store account hfull)

def accountListGet (list : AccountList) (accountId : U64) : Except Error Account :=
  if hmissing : accountId ≥ list.length then .error (.account .notFound)
  else .ok (list.slot accountId hmissing)

/-- Writes to the slot without a bounds check. -/
def accountListUpdate (list : AccountList) (accountId : U64) (flags : U8) :
    Proc (Error × AccountList) :=
  if accountId.toNat < list.accounts.length then
    return (.none, list.update
      (List.modify · accountId.toNat fun account => { account with flags }) (by simp))
  else .fault

section Rules

variable {reliable : Bool} {during : Durable.Disk → Prop} {world : World}

/-- The array overflows only when it holds more accounts than a log has room
for, so an account is added or the allocator has refused. -/
theorem accountListAdd_spec {list : AccountList} {account : Account}
    {post : Error × AccountList → World → Prop} (hduring : during world.disk)
    (hlength : list.accounts.length < 2 ^ 63)
    (hadded : ∀ list', list'.accounts = list.accounts ++ [account] → post (.none, list') world)
    (hrefused : reliable = false → post (.account .outOfMemory, list) world) :
    Meets reliable during post (accountListAdd list account) world := by
  unfold accountListAdd
  split
  next hfull =>
    have hcapacity : list.capacity.toNat < 2 ^ 63 := by
      have := list.toNat_length
      bv_omega
    rw [dif_neg (not_ckdMul_two hcapacity)]
    refine .bind (Proc.realloc_spec hduring fun granted hgranted _ => ?_)
    cases granted with
    | true => exact .pure hduring (hadded _ rfl)
    | false => exact .pure hduring (hrefused (by cases reliable <;> simp_all))
  next hroom => exact .pure hduring (hadded _ rfl)

theorem accountListNew_spec {post : Option AccountList → World → Prop} (hduring : during world.disk)
    (hcreated : ∀ list, list.accounts = [] → post (some list) world)
    (hrefused : reliable = false → post none world) :
    Meets reliable during post accountListNew world := by
  refine .bind (Proc.malloc_spec hduring fun granted hgranted _ => ?_)
  cases granted with
  | false => exact .pure hduring (hrefused (by cases reliable <;> simp_all))
  | true =>
      refine .bind (Proc.malloc_spec hduring fun granted hgranted _ => ?_)
      cases granted with
      | false => exact .pure hduring (hrefused (by cases reliable <;> simp_all))
      | true => exact .pure hduring (hcreated _ rfl)

end Rules

end LetDX.LetDB
