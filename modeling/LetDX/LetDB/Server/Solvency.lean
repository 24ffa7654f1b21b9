import LetDX.LetDB.Server.History

/-! # Solvency of accounts without the flag for debt

The guard keeps the credits of such an account within its debits. Only debits
that wrap when the account receives can break this.
-/

namespace LetDX.LetDB

open Durable Effects

/-- All that the account has received, as an unbounded number. -/
def receivedTotal (log : List LedgerEntry) (index : Nat) : Nat :=
  (log.map fun entry => (entry.paidTo index).toNat).sum

/-- The account was opened without the flag for debt and never given it. -/
structure DebtFree (log : List LedgerEntry) (index : Nat) (opening : LedgerAccount) : Prop where
  opened : opening.flags &&& accountFlagCanDebt = 0
  flagged : ∀ flags, Ledger.Entry.flagging index flags ∈ log → flags &&& accountFlagCanDebt = 0

theorem toNat_sum_le {width : Nat} (values : List (BitVec width)) :
    values.sum.toNat ≤ (values.map BitVec.toNat).sum := by
  induction values with
  | nil => simp
  | cons value values ih =>
      rw [List.sum_cons, List.map_cons, List.sum_cons, BitVec.toNat_add]
      exact (Nat.mod_le _ _).trans (Nat.add_le_add_left ih _)

/-- What the account has received is at most this, modulo wrapping. -/
theorem debits_after_le (log : List LedgerEntry) (index : Nat) (opening : LedgerAccount) :
    (opening.after log index).debits.toNat ≤ opening.debits.toNat + receivedTotal log index := by
  have hreceived := toNat_sum_le (log.map (Ledger.Entry.paidTo index))
  rw [List.map_map] at hreceived
  rw [Ledger.Account.after, BitVec.toNat_add]
  exact (Nat.mod_le _ _).trans (Nat.add_le_add_left hreceived _)

theorem DebtFree.after {log : List LedgerEntry} {index : Nat} {opening : LedgerAccount}
    (hfree : DebtFree log index opening) :
    (opening.after log index).flags &&& accountFlagCanDebt = 0 := by
  rw [Ledger.Account.after]
  cases hlast : Ledger.lastFlags log index with
  | none => exact hfree.opened
  | some flags => exact hfree.flagged flags (Ledger.mem_of_lastFlags hlast)

/-- One entry that the guard admits keeps an account without debt solvent, if
its debits do not wrap. -/
theorem solvent_after {ledger : List LedgerAccount} {entry : LedgerEntry} {index : Nat}
    {account : LedgerAccount} (hpolicy : guardPolicy ledger entry)
    (haccount : ledger[index]? = some account) (hsolvent : account.credits ≤ account.debits)
    (hdebt : account.flags &&& accountFlagCanDebt = 0)
    (hfits : Fits account.debits (entry.paidTo index)) :
    (account.after [entry] index).credits ≤ (account.after [entry] index).debits := by
  have hcredits : (account.after [entry] index).credits =
      account.credits + entry.paidBy index := by
    simp [Ledger.Account.after, Ledger.sent]
  have hdebits : (account.after [entry] index).debits = account.debits + entry.paidTo index := by
    simp [Ledger.Account.after, Ledger.received]
  rw [hcredits, hdebits]
  cases entry with
  | opening credits debits flags stamp => simpa [Ledger.Entry.paidBy, Ledger.Entry.paidTo]
  | flagging named flags => simpa [Ledger.Entry.paidBy, Ledger.Entry.paidTo]
  | transfer fromId toId amount =>
      obtain ⟨_, hne, sender, recipient, hsender, _, hadmits⟩ := hpolicy
      by_cases hfrom : fromId = index
      · have hto : ¬toId = index := fun h => hne (hfrom.trans h.symm)
        rw [hfrom, haccount] at hsender
        obtain rfl := Option.some.inj hsender
        have hcovered := hadmits.covered hdebt
        have hroom : Fits account.credits amount := hcovered.trans_lt account.debits.isLt
        simp only [Ledger.Entry.paidBy, Ledger.Entry.paidTo, if_pos hfrom, if_neg hto, add_zero]
        rw [BitVec.le_def, (toNat_add_eq_iff _ _).mpr hroom]
        exact hcovered
      · have hpaid : account.credits + (Ledger.Entry.transfer fromId toId amount :
            LedgerEntry).paidBy index = account.credits := by
          simp [Ledger.Entry.paidBy, hfrom]
        rw [hpaid]
        exact BitVec.le_trans hsolvent (le_add_of_fits hfits)

/-- The run lemma of histories. -/
theorem solvent_balance {log : List LedgerEntry} (hadmitted : Ledger.Admitted guardPolicy log)
    {index : Nat} {opening : LedgerAccount}
    (hopening : (Ledger.openings log : List LedgerAccount)[index]? = some opening)
    (hsolvent : opening.credits ≤ opening.debits) (hfree : DebtFree log index opening)
    (hfits : opening.debits.toNat + receivedTotal log index < 2 ^ 128) :
    (opening.after log index).credits ≤ (opening.after log index).debits := by
  induction hadmitted with
  | nil => nomatch hopening
  | @concat log entry admitted allowed ih =>
      have hnamed : Ledger.WellNamed U64 log := admitted.mono fun _ _ => names_of_guardPolicy
      have hlength : (Ledger.openings log : List LedgerAccount).length =
          (Ledger.balance log : List LedgerAccount).length := Ledger.length_openings log
      rw [Ledger.openings_concat] at hopening
      rw [Ledger.Account.after_concat]
      -- The account was there before the entry, or the entry opens it.
      by_cases hindex : index < (Ledger.openings log : List LedgerAccount).length
      · rw [List.getElem?_append_left hindex] at hopening
        have hfree' : DebtFree log index opening :=
          ⟨hfree.opened, fun flags hmem => hfree.flagged flags (List.mem_append_left _ hmem)⟩
        have htotal : receivedTotal (log ++ [entry]) index =
            receivedTotal log index + (entry.paidTo index).toNat := by
          simp [receivedTotal]
        rw [htotal] at hfits
        have haccount : (Ledger.balance log : List LedgerAccount)[index]? =
            some (opening.after log index) := by
          rw [hnamed.getElem?_balance, hopening, Option.map_some]
        have hbound := debits_after_le log index opening
        refine solvent_after allowed haccount (ih hopening hfree' ?_) hfree'.after ?_
        · exact (Nat.le_add_right _ _).trans_lt ((Nat.add_assoc _ _ _).trans_lt hfits)
        · exact (Nat.add_le_add_right hbound _).trans_lt ((Nat.add_assoc _ _ _).trans_lt hfits)
      · have hbeyond : (Ledger.balance log : List LedgerAccount).length ≤ index := by omega
        rw [Ledger.WellNamed.after_of_length_le hnamed hbeyond,
          Ledger.Account.after_of_not_touches _
            ((names_of_guardPolicy allowed).not_touches hbeyond)]
        exact hsolvent

/-- In every reachable state, an account that was opened solvent and never
allowed debt is solvent, as long as all that it has received adds up to debits
below 2^128. -/
theorem solvent_while_debits_fit {point : LetRun} {world : World}
    (hreachable : Reachable point world) : ∃ entries : List StorageWalEntry,
      Logged point world entries ∧
      let log := entries.map StorageWalEntry.posting
      ∀ index account, point.context.state.accountList.accounts[index]? = some account →
        ∃ opening, (Ledger.openings log : List LedgerAccount)[index]? = some opening ∧
          (opening.credits ≤ opening.debits → DebtFree log index opening →
            opening.debits.toNat + receivedTotal log index < 2 ^ 128 →
            account.credits ≤ account.debits) := by
  obtain ⟨entries, hlogged, hwell, _, hledger⟩ := hreachable.ledger
  refine ⟨entries, hlogged, ?_⟩
  intro log index account haccount
  have hbalance : (Ledger.balance log : List LedgerAccount)[index]? = some account.ledger := by
    rw [← hledger, ledgerOf, List.getElem?_map, haccount, Option.map_some]
  rw [hwell.named.getElem?_balance] at hbalance
  obtain ⟨opening, hopening, hafter⟩ := Option.map_eq_some_iff.mp hbalance
  refine ⟨opening, hopening, fun hsolvent hfree hfits => ?_⟩
  have hkept := solvent_balance hwell.admitted hopening hsolvent hfree hfits
  rw [hafter] at hkept
  exact hkept

theorem solvent_while_debits_fit_served : ∃ point world,
    served (transferInput "20") 10 = some (point, world) ∧
    ∃ entries : List StorageWalEntry, Logged point world entries ∧
      ∀ index account, point.context.state.accountList.accounts[index]? = some account →
        ∃ opening, (Ledger.openings (entries.map StorageWalEntry.posting) :
            List LedgerAccount)[index]? = some opening ∧
          (opening.credits ≤ opening.debits →
            DebtFree (entries.map StorageWalEntry.posting) index opening →
            opening.debits.toNat + receivedTotal (entries.map StorageWalEntry.posting) index <
              2 ^ 128 →
            account.credits ≤ account.debits) := by
  have hserved : (served (transferInput "20") 10).isSome = true := by decide +kernel
  obtain ⟨⟨point, world⟩, hserved⟩ := Option.isSome_iff_exists.mp hserved
  exact ⟨point, world, hserved, solvent_while_debits_fit (reachable_of_served hserved)⟩

/-- The log that the server writes on this input. -/
def transferLog (debits : U128) : List StorageWalEntry :=
  [⟨0, 1, .addAccount 0 10 1⟩, ⟨1, 1, .addAccount 5 debits 2⟩, ⟨2, 1, .makeTransfer 0 1 1⟩]

/-- An account opened solvent and never allowed debt is left with credits of
five and no debits. -/
theorem insolvent_after_wrap : ∃ point world opening account,
    Reachable point world ∧ (∃ context, point = .reading context) ∧
    world.disk.file = some (storageWalImage (transferLog (BitVec.allOnes 128))) ∧
    (Ledger.openings ((transferLog (BitVec.allOnes 128)).map StorageWalEntry.posting) :
      List LedgerAccount)[1]? = some opening ∧
    opening.credits ≤ opening.debits ∧
    DebtFree ((transferLog (BitVec.allOnes 128)).map StorageWalEntry.posting) 1 opening ∧
    point.context.state.accountList.accounts[1]? = some account ∧
    account.credits = 5 ∧ account.debits = 0 := by
  have hserved : ((served (transferInput "340282366920938463463374607431768211455") 10).map
      fun reached => (decide (reached.1 = .reading reached.1.context), reached.2.disk.file,
        reached.1.context.state.accountList.accounts[1]?)) =
      some (true, some (storageWalImage (transferLog (BitVec.allOnes 128))),
        some { accountNew 5 0 1 2 with transactions := 1 }) := by
    decide +kernel
  obtain ⟨⟨point, world⟩, hserved, hstate⟩ := Option.map_eq_some_iff.mp hserved
  obtain ⟨hpoint, hrest⟩ := Prod.mk.inj hstate
  obtain ⟨hfile, haccount⟩ := Prod.mk.inj hrest
  refine ⟨point, world, _, _, reachable_of_served hserved, ⟨_, of_decide_eq_true hpoint⟩, hfile,
    rfl,
    ?_, ⟨?_, ?_⟩, haccount, rfl, rfl⟩
  · decide
  · decide
  · intro flags hmem
    simp [transferLog, StorageWalEntry.posting, StorageWalEntryData.posting] at hmem

end LetDX.LetDB
