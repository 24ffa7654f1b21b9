import Mathlib.Algebra.BigOperators.Group.List.Basic
import Mathlib.Data.List.Induction
import Mathlib.Data.Nat.Cast.Basic
import Mathlib.Tactic.Abel

/-! # Double-entry ledgers

A ledger is the list of its accounts, named by their position. Its history is a
list of postings: an account is opened, an amount moves between two accounts,
or the flags of an account change. Amounts live in any commutative monoid, so
the same history law serves unbounded and wrapping arithmetic.
-/

namespace LetDX.Ledger

structure Account (Amount Counter Stamp Flags : Type) where
  credits : Amount
  debits : Amount
  transactions : Counter
  createdAt : Stamp
  flags : Flags
  deriving DecidableEq, Repr

inductive Entry (Amount Stamp Flags : Type)
  | opening (credits debits : Amount) (flags : Flags) (stamp : Stamp)
  | transfer (sender recipient : Nat) (amount : Amount)
  | flagging (account : Nat) (flags : Flags)
  deriving DecidableEq, Repr

variable {Amount Counter Stamp Flags : Type}

namespace Account

variable [AddCommMonoid Amount] [AddMonoidWithOne Counter]

def «open» (credits debits : Amount) (flags : Flags) (stamp : Stamp) :
    Account Amount Counter Stamp Flags :=
  { credits, debits, flags, createdAt := stamp, transactions := 0 }

def pay (amount : Amount) (account : Account Amount Counter Stamp Flags) :
    Account Amount Counter Stamp Flags :=
  { account with
    credits := account.credits + amount
    transactions := account.transactions + 1 }

def receive (amount : Amount) (account : Account Amount Counter Stamp Flags) :
    Account Amount Counter Stamp Flags :=
  { account with
    debits := account.debits + amount
    transactions := account.transactions + 1 }

def flag (flags : Flags) (account : Account Amount Counter Stamp Flags) :
    Account Amount Counter Stamp Flags :=
  { account with flags }

end Account

section Posting

variable [AddCommMonoid Amount] [AddMonoidWithOne Counter]

def post (ledger : List (Account Amount Counter Stamp Flags)) :
    Entry Amount Stamp Flags → List (Account Amount Counter Stamp Flags)
  | .opening credits debits flags stamp => ledger ++ [.open credits debits flags stamp]
  | .transfer sender recipient amount =>
      (ledger.modify sender (Account.pay amount)).modify recipient (Account.receive amount)
  | .flagging account flags => ledger.modify account (Account.flag flags)

/-- The ledger after a whole history, from no accounts. -/
def balance (entries : List (Entry Amount Stamp Flags)) :
    List (Account Amount Counter Stamp Flags) :=
  entries.foldl post []

@[simp] theorem balance_nil :
    (balance [] : List (Account Amount Counter Stamp Flags)) = [] :=
  rfl

@[simp] theorem balance_concat (entries : List (Entry Amount Stamp Flags))
    (entry : Entry Amount Stamp Flags) :
    (balance (entries ++ [entry]) : List (Account Amount Counter Stamp Flags)) =
      post (balance entries) entry := by
  simp [balance]

theorem length_post_le (ledger : List (Account Amount Counter Stamp Flags))
    (entry : Entry Amount Stamp Flags) : (post ledger entry).length ≤ ledger.length + 1 := by
  cases entry <;> simp [post]

/-- A history opens at most one account with each entry. -/
theorem length_balance_le (entries : List (Entry Amount Stamp Flags)) :
    (balance entries : List (Account Amount Counter Stamp Flags)).length ≤ entries.length := by
  induction entries using List.reverseRecOn with
  | nil => rfl
  | append_singleton entries entry ih =>
      rw [balance_concat, List.length_append, List.length_singleton]
      exact (length_post_le _ _).trans (Nat.add_le_add_right ih 1)

end Posting

/-- The entry names accounts of a ledger of this size, two different ones if it
is a transfer. -/
def Entry.Names (size : Nat) : Entry Amount Stamp Flags → Prop
  | .opening .. => True
  | .transfer sender recipient _ => sender < size ∧ recipient < size ∧ sender ≠ recipient
  | .flagging account _ => account < size

/-- A history each of whose entries was admitted by the policy in the ledger
that the entries before it leave. -/
inductive Admitted [AddCommMonoid Amount] [AddMonoidWithOne Counter]
    (policy : List (Account Amount Counter Stamp Flags) → Entry Amount Stamp Flags → Prop) :
    List (Entry Amount Stamp Flags) → Prop
  | nil : Admitted policy []
  | concat {entries : List (Entry Amount Stamp Flags)} {entry : Entry Amount Stamp Flags}
      (admitted : Admitted policy entries) (allowed : policy (balance entries) entry) :
      Admitted policy (entries ++ [entry])

/-- A history whose entries name accounts that are there. -/
abbrev WellNamed (Counter : Type) [AddCommMonoid Amount] [AddMonoidWithOne Counter]
    (entries : List (Entry Amount Stamp Flags)) : Prop :=
  Admitted (fun (ledger : List (Account Amount Counter Stamp Flags)) entry =>
    entry.Names ledger.length) entries

namespace Admitted

variable [AddCommMonoid Amount] [AddMonoidWithOne Counter]
  {policy : List (Account Amount Counter Stamp Flags) → Entry Amount Stamp Flags → Prop}

theorem mono {policy' : List (Account Amount Counter Stamp Flags) → Entry Amount Stamp Flags → Prop}
    {entries : List (Entry Amount Stamp Flags)} (h : Admitted policy entries)
    (hpolicy : ∀ ledger entry, policy ledger entry → policy' ledger entry) :
    Admitted policy' entries := by
  induction h with
  | nil => exact .nil
  | concat _ allowed ih => exact ih.concat (hpolicy _ _ allowed)

theorem concat_iff {entries : List (Entry Amount Stamp Flags)}
    {entry : Entry Amount Stamp Flags} :
    Admitted policy (entries ++ [entry]) ↔
      Admitted policy entries ∧ policy (balance entries) entry := by
  constructor
  · intro h
    generalize hlog : entries ++ [entry] = log at h
    cases h with
    | nil => simp at hlog
    | concat admitted allowed =>
        obtain ⟨rfl, heq⟩ := List.append_inj' hlog rfl
        obtain rfl := List.singleton_inj.mp heq
        exact ⟨admitted, allowed⟩
  · rintro ⟨hadmitted, hallowed⟩
    exact hadmitted.concat hallowed

/-- Every earlier moment of an admitted history was admitted. -/
theorem take {entries : List (Entry Amount Stamp Flags)} (h : Admitted policy entries)
    (count : Nat) : Admitted policy (entries.take count) := by
  induction h generalizing count with
  | nil => simpa using Admitted.nil
  | @concat entries entry admitted allowed ih =>
      by_cases hcount : count ≤ entries.length
      · rw [List.take_append_of_le_length hcount]
        exact ih count
      · rw [List.take_of_length_le (by simp; omega)]
        exact admitted.concat allowed

end Admitted

end LetDX.Ledger
