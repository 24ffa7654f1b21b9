import LetDX.LetDB.Server.Agreement

/-! # Balances as unbounded numbers

The guard bounds the credits of a sender that must not go into debt, and no
other balance. A transfer is exact as long as the other additions do not wrap.
-/

namespace LetDX.LetDB

open Durable Effects

/-- The amount can be added to the balance without wrapping. -/
def Fits (balance amount : U128) : Prop :=
  balance.toNat + amount.toNat < 2 ^ 128

theorem toNat_add_eq_iff (balance amount : U128) :
    (balance + amount).toNat = balance.toNat + amount.toNat ↔ Fits balance amount := by
  constructor
  · intro hexact
    have hlt := (balance + amount).isLt
    rwa [hexact] at hlt
  · exact BitVec.toNat_add_of_lt

/-- An accepted operation, with the accounts it has found and those it has left. -/
structure Accepted where
  data : StorageWalEntryData
  before : List Account
  after : List Account
  deriving DecidableEq, Repr

namespace Accepted

/-- The additions that the guard does not check have room for the amount: to
the debits of the recipient, and to the credits of a sender with debt allowed. -/
def Roomy (accepted : Accepted) : Prop :=
  match accepted.data with
  | .makeTransfer fromId toId amount => ∀ sender recipient,
      accepted.before[fromId.toNat]? = some sender →
      accepted.before[toId.toNat]? = some recipient →
      Fits recipient.debits amount ∧
        (sender.flags &&& accountFlagCanDebt ≠ 0 → Fits sender.credits amount)
  | .addAccount .. | .updateAccount .. => True

/-- A transfer has raised both balances by its amount, as unbounded numbers. -/
def Exact (accepted : Accepted) : Prop :=
  match accepted.data with
  | .makeTransfer fromId toId amount => ∀ sender recipient,
      accepted.before[fromId.toNat]? = some sender →
      accepted.before[toId.toNat]? = some recipient →
      ∃ sender' recipient', accepted.after[fromId.toNat]? = some sender' ∧
        accepted.after[toId.toNat]? = some recipient' ∧
        sender'.credits.toNat = sender.credits.toNat + amount.toNat ∧
        recipient'.debits.toNat = recipient.debits.toNat + amount.toNat
  | .addAccount .. | .updateAccount .. => True

end Accepted

/-- No balance has decreased. -/
def Grows (before after : List Account) : Prop :=
  ∀ (index : Nat) (account : Account), before[index]? = some account →
    ∃ account', after[index]? = some account' ∧ account.credits ≤ account'.credits ∧
      account.debits ≤ account'.debits

theorem Grows.refl (accounts : List Account) : Grows accounts accounts := by
  intro index account haccount
  exact ⟨account, haccount, BitVec.le_refl _, BitVec.le_refl _⟩

theorem Grows.trans {first second third : List Account} (hfirst : Grows first second)
    (hsecond : Grows second third) : Grows first third := by
  intro index account haccount
  obtain ⟨account', haccount', hcredits, hdebits⟩ := hfirst index account haccount
  obtain ⟨account'', haccount'', hcredits', hdebits'⟩ := hsecond index account' haccount'
  exact ⟨account'', haccount'', BitVec.le_trans hcredits hcredits',
    BitVec.le_trans hdebits hdebits'⟩

theorem le_add_of_fits {balance amount : U128} (hfits : Fits balance amount) :
    balance ≤ balance + amount := by
  rw [BitVec.le_def, (toNat_add_eq_iff balance amount).mpr hfits]
  exact Nat.le_add_right _ _

/-! ## One transfer -/

section Transfer

variable {accounts : List Account} {fromId toId : U64} {amount : U128} {now : Time}
  {sender recipient : Account}

/-- A sender without debt has room for what the guard lets it send. -/
theorem fits_of_guardPolicy
    (hpolicy : guardPolicy (ledgerOf accounts) (.transfer fromId.toNat toId.toNat amount))
    (hsender : accounts[fromId.toNat]? = some sender)
    (hdebt : sender.flags &&& accountFlagCanDebt = 0) : Fits sender.credits amount := by
  obtain ⟨_, _, sender', _, hsender', _, hadmits⟩ := hpolicy
  rw [ledgerOf, List.getElem?_map, hsender, Option.map_some] at hsender'
  obtain rfl := Option.some.inj hsender'
  exact (hadmits.covered hdebt).trans_lt sender.debits.isLt

theorem fits_of_roomy
    (hpolicy : guardPolicy (ledgerOf accounts) (.transfer fromId.toNat toId.toNat amount))
    (hsender : accounts[fromId.toNat]? = some sender)
    (hroomy : sender.flags &&& accountFlagCanDebt ≠ 0 → Fits sender.credits amount) :
    Fits sender.credits amount := by
  by_cases hdebt : sender.flags &&& accountFlagCanDebt = 0
  · exact fits_of_guardPolicy hpolicy hsender hdebt
  · exact hroomy hdebt

theorem applyTransfer_sender (hne : fromId.toNat ≠ toId.toNat)
    (hsender : accounts[fromId.toNat]? = some sender) :
    (applyTransfer accounts fromId.toNat toId.toNat amount now)[fromId.toNat]? =
      some { sender with
        credits := sender.credits + amount
        transactions := sender.transactions + 1
        updatedAt := now } := by
  rw [getElem?_applyTransfer _ hne, hsender, Option.map_some, if_pos rfl]

theorem applyTransfer_recipient (hne : fromId.toNat ≠ toId.toNat)
    (hrecipient : accounts[toId.toNat]? = some recipient) :
    (applyTransfer accounts fromId.toNat toId.toNat amount now)[toId.toNat]? =
      some { recipient with
        debits := recipient.debits + amount
        transactions := recipient.transactions + 1
        updatedAt := now } := by
  rw [getElem?_applyTransfer _ hne, hrecipient, Option.map_some, if_neg hne, if_pos rfl]

/-- An accepted transfer is exact if and only if what the guard leaves
unchecked has room. -/
theorem exact_iff_roomy
    (hpolicy : guardPolicy (ledgerOf accounts) (.transfer fromId.toNat toId.toNat amount)) :
    Accepted.Exact ⟨.makeTransfer fromId toId amount, accounts,
        applyTransfer accounts fromId.toNat toId.toNat amount now⟩ ↔
      Accepted.Roomy ⟨.makeTransfer fromId toId amount, accounts,
        applyTransfer accounts fromId.toNat toId.toNat amount now⟩ := by
  have hne : fromId.toNat ≠ toId.toNat := hpolicy.2.1
  constructor
  · intro hexact sender recipient hsender hrecipient
    obtain ⟨sender', recipient', hsender', hrecipient', hcredits, hdebits⟩ :=
      hexact sender recipient hsender hrecipient
    obtain rfl := Option.some.inj ((applyTransfer_sender hne hsender).symm.trans hsender')
    obtain rfl := Option.some.inj ((applyTransfer_recipient hne hrecipient).symm.trans hrecipient')
    exact ⟨(toNat_add_eq_iff _ _).mp hdebits, fun _ => (toNat_add_eq_iff _ _).mp hcredits⟩
  · intro hroomy sender recipient hsender hrecipient
    obtain ⟨hdebits, hcredits⟩ := hroomy sender recipient hsender hrecipient
    have hcredits := fits_of_roomy hpolicy hsender hcredits
    exact ⟨_, _, applyTransfer_sender hne hsender, applyTransfer_recipient hne hrecipient,
      (toNat_add_eq_iff _ _).mpr hcredits, (toNat_add_eq_iff _ _).mpr hdebits⟩

/-- An operation with room lets no balance decrease. -/
theorem grows_apply {data : StorageWalEntryData} {timestamp : Time}
    (hpolicy : guardPolicy (ledgerOf accounts) (data.posting timestamp))
    (hroomy : Accepted.Roomy ⟨data, accounts, data.apply timestamp now accounts⟩) :
    Grows accounts (data.apply timestamp now accounts) := by
  intro index account haccount
  cases data with
  | addAccount credits debits flags =>
      refine ⟨account, ?_, BitVec.le_refl _, BitVec.le_refl _⟩
      obtain ⟨hindex, _⟩ := List.getElem?_eq_some_iff.mp haccount
      rwa [StorageWalEntryData.apply, List.getElem?_append_left hindex]
  | updateAccount accountId flags =>
      by_cases hnamed : accountId.toNat = index
      · refine ⟨{ account with flags }, ?_, BitVec.le_refl _, BitVec.le_refl _⟩
        simp [StorageWalEntryData.apply, haccount, hnamed]
      · refine ⟨account, ?_, BitVec.le_refl _, BitVec.le_refl _⟩
        simp [StorageWalEntryData.apply, haccount, hnamed]
  | makeTransfer fromId toId amount =>
      have hpolicy : guardPolicy (ledgerOf accounts)
        (.transfer fromId.toNat toId.toNat amount) := hpolicy
      obtain ⟨_, hne, sender', recipient', hsender', hrecipient', _⟩ := hpolicy
      rw [ledgerOf, List.getElem?_map] at hsender' hrecipient'
      obtain ⟨sender, hsender, _⟩ := Option.map_eq_some_iff.mp hsender'
      obtain ⟨recipient, hrecipient, _⟩ := Option.map_eq_some_iff.mp hrecipient'
      obtain ⟨hdebits, hcredits⟩ := hroomy sender recipient hsender hrecipient
      have hcredits := fits_of_roomy hpolicy hsender hcredits
      -- The sender, the recipient, or an account that is not named.
      by_cases hfrom : fromId.toNat = index
      · subst hfrom
        obtain rfl := Option.some.inj (hsender.symm.trans haccount)
        exact ⟨_, applyTransfer_sender hne hsender, le_add_of_fits hcredits, BitVec.le_refl _⟩
      · by_cases hto : toId.toNat = index
        · subst hto
          obtain rfl := Option.some.inj (hrecipient.symm.trans haccount)
          exact ⟨_, applyTransfer_recipient hne hrecipient, BitVec.le_refl _,
            le_add_of_fits hdebits⟩
        · refine ⟨account, ?_, BitVec.le_refl _, BitVec.le_refl _⟩
          rw [StorageWalEntryData.apply, getElem?_applyTransfer _ hne, haccount, Option.map_some,
            if_neg hfrom, if_neg hto]

end Transfer

/-- The state machine carries out exactly what it has room for, of what the
guard accepts. -/
theorem stateMakeTransfer_exact_iff {reliable : Bool} {world : World} {state : State}
    {fromId toId : U64} {amount : U128}
    (hguard : guardMakeTransfer state fromId toId amount = .none) :
    Meets reliable (fun _ => True)
      (fun result _ => result.1 = .none →
        (Accepted.Exact ⟨.makeTransfer fromId toId amount, state.accountList.accounts,
            result.2.accountList.accounts⟩ ↔
          Accepted.Roomy ⟨.makeTransfer fromId toId amount, state.accountList.accounts,
            result.2.accountList.accounts⟩))
      (stateMakeTransfer state fromId toId amount) world := by
  have hpolicy := (guardMakeTransfer_eq_none_iff _ _ _ _).mp hguard
  obtain ⟨hfrom, hto, _⟩ := names_of_guardPolicy hpolicy
  rw [length_ledgerOf] at hfrom hto
  refine stateMakeTransfer_spec trivial hfrom hto ?_ ?_
  · intro now state' haccounts _
    rw [haccounts]
    exact exact_iff_roomy hpolicy
  · intro _ hnone
    nomatch hnone

/-! ## Whole runs -/

/-- The operation that a step has accepted, if it has. -/
def acceptedBy : LetRun → LetRun → List Accepted
  | .processing context request, .responding context' _ response =>
      if response.succeeds then
        request.data.toList.map fun data =>
          ⟨data, context.state.accountList.accounts, context'.state.accountList.accounts⟩
      else []
  | _, _ => []

/-- A server has run from one program point to another and accepted these
operations on the way. -/
inductive Runs (point : LetRun) (world : World) : List Accepted → LetRun → World → Prop
  | refl : Runs point world [] point world
  | step {accepted : List Accepted} {point' point'' : LetRun} {world' world'' : World}
      (runs : Runs point world accepted point' world')
      (stepped : (system false).Returns (letRunStep point') world' point'' world'') :
      Runs point world (accepted ++ acceptedBy point' point'') point'' world''

theorem Runs.reachable {point point' : LetRun} {world world' : World} {accepted : List Accepted}
    (hruns : Runs point world accepted point' world') (hreachable : Reachable point world) :
    Reachable point' world' := by
  induction hruns with
  | refl => exact hreachable
  | step _ stepped ih => exact ih.step stepped

theorem acceptedBy_committed {context context' : Let} {request : NetworkRequest}
    {data : StorageWalEntryData} {length : U64} (hdata : request.data = some data) :
    acceptedBy (.processing context request) (.responding context' request (data.reply length)) =
      [⟨data, context.state.accountList.accounts, context'.state.accountList.accounts⟩] := by
  cases data <;> simp [acceptedBy, StorageWalEntryData.reply, NetworkResponse.succeeds, hdata]

theorem acceptedBy_answered {context context' : Let} {request : NetworkRequest}
    {response : NetworkResponse} (hnone : response.succeeds = true → request.data = none) :
    acceptedBy (.processing context request) (.responding context' request response) = [] := by
  cases hsucceeds : response.succeeds with
  | false => simp [acceptedBy, hsucceeds]
  | true => simp [acceptedBy, hnone hsucceeds]

theorem acceptedBy_passing {point point' : LetRun}
    (hpassing : ∀ context request, point ≠ .processing context request) :
    acceptedBy point point' = [] := by
  cases point with
  | processing context request => exact (hpassing _ _ rfl).elim
  | accepting | reading | responding | finished => rfl

/-- What a step accepts is exact if and only if there is room for it, and then
no balance decreases. -/
def Faithful (accepted : List Accepted) (before after : List Account) : Prop :=
  (∀ operation ∈ accepted, operation.Exact ↔ operation.Roomy) ∧
    ((∀ operation ∈ accepted, operation.Roomy) → Grows before after)

theorem Faithful.unchanged {accepted : List Accepted} {accounts : List Account}
    (hnone : accepted = []) : Faithful accepted accounts accounts := by
  subst hnone
  exact ⟨fun _ hmem => (List.not_mem_nil hmem).elim, fun _ => .refl _⟩

theorem Faithful.committed {data : StorageWalEntryData} {timestamp now : Time}
    {accounts : List Account}
    (hpolicy : guardPolicy (ledgerOf accounts) (data.posting timestamp)) :
    Faithful [⟨data, accounts, data.apply timestamp now accounts⟩] accounts
      (data.apply timestamp now accounts) := by
  constructor
  · intro operation hmem
    obtain rfl := List.mem_singleton.mp hmem
    cases data with
    | addAccount => exact Iff.rfl
    | updateAccount => exact Iff.rfl
    | makeTransfer fromId toId amount => exact exact_iff_roomy hpolicy
  · intro hroomy
    exact grows_apply hpolicy (hroomy _ (List.mem_singleton_self _))

theorem Faithful.append {first second : List Accepted}
    {accounts accounts' accounts'' : List Account}
    (hfirst : Faithful first accounts accounts') (hsecond : Faithful second accounts' accounts'') :
    Faithful (first ++ second) accounts accounts'' := by
  constructor
  · intro operation hmem
    rcases List.mem_append.mp hmem with hmem | hmem
    · exact hfirst.1 operation hmem
    · exact hsecond.1 operation hmem
  · intro hroomy
    have hgrows := hfirst.2 fun operation hmem => hroomy _ (List.mem_append_left _ hmem)
    exact hgrows.trans (hsecond.2 fun operation hmem => hroomy _ (List.mem_append_right _ hmem))

/-- The step lemma. -/
theorem letRunStep_faithful {point point' : LetRun} {world world' : World}
    (hreachable : Reachable point world)
    (hstepped : (system false).Returns (letRunStep point) world point' world') :
    Faithful (acceptedBy point point') point.context.state.accountList.accounts
      point'.context.state.accountList.accounts := by
  rcases point.passing_or_processing with hpassing | ⟨context, request, rfl⟩
  · have hnone : acceptedBy point point' = [] := acceptedBy_passing hpassing
    cases passed_of_returns hpassing hstepped with
    | idle _ context _ =>
        rw [context]
        exact .unchanged hnone
    | decoded => exact .unchanged hnone
    | undecoded => exact .unchanged hnone
  · obtain ⟨entries, hagrees⟩ := hreachable.agrees fun _ heq => nomatch heq
    cases processed_of_returns hagrees hstepped with
    | @committed entry now context' requested limit accounts transactions =>
        have hpolicy : guardPolicy (ledgerOf context.state.accountList.accounts) entry.posting :=
          hagrees.ledger ▸ requested.permitted
        rw [acceptedBy_committed requested.data]
        change Faithful [⟨_, _, context'.state.accountList.accounts⟩] _
          context'.state.accountList.accounts
        rw [accounts]
        exact .committed hpolicy
    | answered inquiry =>
        exact .unchanged (acceptedBy_answered fun _ => data_of_inquiry inquiry)
    | refused action =>
        exact .unchanged (acceptedBy_answered fun hsucceeds => nomatch hsucceeds)
    | @fatal context' world' action accounts appending sent =>
        change Faithful [] _ context'.state.accountList.accounts
        rw [accounts]
        exact .unchanged rfl

/-- The run lemma. -/
theorem Runs.faithful {point point' : LetRun} {world world' : World} {accepted : List Accepted}
    (hruns : Runs point world accepted point' world') (hreachable : Reachable point world) :
    Faithful accepted point.context.state.accountList.accounts
      point'.context.state.accountList.accounts := by
  induction hruns with
  | refl => exact .unchanged rfl
  | step runs stepped ih =>
    exact ih.append (letRunStep_faithful (runs.reachable hreachable) stepped)

/-- In every reachable state a transfer that the guard accepts is exact if and
only if the additions that the guard does not check have room. In every run in
which all accepted transfers have room, all are exact and no balance decreases. -/
theorem transfers_exact_iff_roomy {point point' : LetRun} {world world' : World}
    {accepted : List Accepted} (hreachable : Reachable point world)
    (hruns : Runs point world accepted point' world') :
    (∀ (fromId toId : U64) (amount : U128),
      guardMakeTransfer point'.context.state fromId toId amount = .none →
      Meets false (fun _ => True)
        (fun result _ => result.1 = .none →
          (Accepted.Exact ⟨.makeTransfer fromId toId amount,
              point'.context.state.accountList.accounts, result.2.accountList.accounts⟩ ↔
            Accepted.Roomy ⟨.makeTransfer fromId toId amount,
              point'.context.state.accountList.accounts, result.2.accountList.accounts⟩))
        (stateMakeTransfer point'.context.state fromId toId amount) world') ∧
    (∀ operation ∈ accepted, operation.Exact ↔ operation.Roomy) ∧
    ((∀ operation ∈ accepted, operation.Roomy) →
      Grows point.context.state.accountList.accounts
        point'.context.state.accountList.accounts) :=
  ⟨fun _ _ _ => stateMakeTransfer_exact_iff, hruns.faithful hreachable⟩

theorem runs_of_served {input : List U8} {steps : Nat} {point point' : LetRun}
    {world world' : World} (hserved : served input steps = some (point, world))
    (hserved' : served input (steps + 1) = some (point', world')) :
    Runs point world (acceptedBy point point') point' world' := by
  rw [served, hserved] at hserved'
  exact Runs.refl.step (Machine.returns_of_run hserved')

def transferOfOne (debits : U128) : Accepted where
  data := .makeTransfer 0 1 1
  before := [accountNew 0 10 1 1, accountNew 5 debits 1 2]
  after := [{ accountNew 1 10 1 1 with transactions := 1 },
    { accountNew 5 (debits + 1) 1 2 with transactions := 1 }]

/-- The operation that the last step of the server on this input accepts. -/
def transferServed (debits : String) : Option (List Accepted) :=
  (served (transferInput debits) 8).bind fun before =>
    (served (transferInput debits) 9).map fun after => acceptedBy before.1 after.1

theorem exists_runs_of_transferServed {debits : String} {accepted : List Accepted}
    (hserved : transferServed debits = some accepted) : ∃ point world point' world',
      Reachable point world ∧ Runs point world accepted point' world' := by
  obtain ⟨⟨point, world⟩, hbefore, hstep⟩ := Option.bind_eq_some_iff.mp hserved
  obtain ⟨⟨point', world'⟩, hafter, rfl⟩ := Option.map_eq_some_iff.mp hstep
  exact ⟨point, world, point', world', reachable_of_served hbefore, runs_of_served hbefore hafter⟩

theorem transfers_exact_iff_roomy_twenty : ∃ point world point' world',
    Runs point world [transferOfOne 20] point' world' ∧ (transferOfOne 20).Exact ∧
      Grows point.context.state.accountList.accounts
        point'.context.state.accountList.accounts := by
  have hserved : transferServed "20" = some [transferOfOne 20] := by decide +kernel
  obtain ⟨point, world, point', world', hreachable, hruns⟩ := exists_runs_of_transferServed hserved
  obtain ⟨_, hexact, hgrows⟩ := transfers_exact_iff_roomy hreachable hruns
  have hroomy : (transferOfOne 20).Roomy := by
    intro sender recipient hsender hrecipient
    obtain rfl := Option.some.inj hsender
    obtain rfl := Option.some.inj hrecipient
    constructor
    · unfold Fits
      decide
    · intro hdebt
      exact (hdebt rfl).elim
  refine ⟨point, world, point', world', hruns, ?_, hgrows ?_⟩
  · exact (hexact _ (List.mem_singleton_self _)).mpr hroomy
  · intro operation hmem
    obtain rfl := List.mem_singleton.mp hmem
    exact hroomy

/-- An accepted transfer takes the debits of its recipient from 2^128 - 1 to zero. -/
theorem transfer_wraps : ∃ point world point' world', Reachable point world ∧
    Runs point world [transferOfOne (BitVec.allOnes 128)] point' world' ∧
    ¬(transferOfOne (BitVec.allOnes 128)).Exact ∧
    ¬Grows (transferOfOne (BitVec.allOnes 128)).before
      (transferOfOne (BitVec.allOnes 128)).after := by
  have hserved : transferServed "340282366920938463463374607431768211455" =
      some [transferOfOne (BitVec.allOnes 128)] := by decide +kernel
  obtain ⟨point, world, point', world', hreachable, hruns⟩ := exists_runs_of_transferServed hserved
  refine ⟨point, world, point', world', hreachable, hruns, ?_, ?_⟩
  · intro hexact
    obtain ⟨_, recipient', _, hrecipient', _, hdebits⟩ := hexact _ _ rfl rfl
    obtain rfl := Option.some.inj hrecipient'
    revert hdebits
    decide
  · intro hgrows
    obtain ⟨account', haccount', _, hdebits⟩ := hgrows 1 _ rfl
    obtain rfl := Option.some.inj haccount'
    revert hdebits
    decide

end LetDX.LetDB
