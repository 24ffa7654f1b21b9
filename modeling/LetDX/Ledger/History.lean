import LetDX.Ledger.Basic

/-! # The law of ledger histories

Every field of every account is determined by the entries of the history that
name it. Over all accounts a history moves amounts and creates none.
-/

namespace LetDX.Ledger

variable {Amount Counter Stamp Flags : Type}

/-! ## What an entry does to one account -/

namespace Entry

/-- The entry changes this account. -/
def Touches (account : Nat) : Entry Amount Stamp Flags → Prop
  | opening .. => False
  | transfer sender recipient _ => sender = account ∨ recipient = account
  | flagging named _ => named = account

/-- The entry is a transfer from or to this account. -/
def moves (account : Nat) : Entry Amount Stamp Flags → Bool
  | transfer sender recipient _ => sender = account ∨ recipient = account
  | opening .. | flagging .. => false

/-- The flags that the entry gives to this account. -/
def flagged (account : Nat) : Entry Amount Stamp Flags → Option Flags
  | flagging named flags => if named = account then some flags else none
  | opening .. | transfer .. => none

section Amounts

variable [AddCommMonoid Amount]

def paidBy (account : Nat) : Entry Amount Stamp Flags → Amount
  | transfer sender _ amount => if sender = account then amount else 0
  | opening .. | flagging .. => 0

def paidTo (account : Nat) : Entry Amount Stamp Flags → Amount
  | transfer _ recipient amount => if recipient = account then amount else 0
  | opening .. | flagging .. => 0

/-- The amount that the entry moves. -/
def moved : Entry Amount Stamp Flags → Amount
  | transfer _ _ amount => amount
  | opening .. | flagging .. => 0

end Amounts

variable [AddMonoidWithOne Counter]

/-- The account as it was opened, if the entry opens one. -/
def opened : Entry Amount Stamp Flags → Option (Account Amount Counter Stamp Flags)
  | opening credits debits flags stamp => some (.open credits debits flags stamp)
  | transfer .. | flagging .. => none

end Entry

/-! ## What a history does to one account -/

section Summaries

variable (entries : List (Entry Amount Stamp Flags)) (account : Nat)

/-- The number of transfers from or to the account. -/
def moves : Nat :=
  entries.countP (Entry.moves account)

/-- The flags that the account was given last. -/
def lastFlags : Option Flags :=
  (entries.filterMap (Entry.flagged account)).getLast?

/-- The accounts as they were opened, in order. -/
def openings [AddMonoidWithOne Counter] : List (Account Amount Counter Stamp Flags) :=
  entries.filterMap Entry.opened

variable [AddCommMonoid Amount]

/-- The sum of the amounts of all transfers from the account. -/
def sent : Amount :=
  (entries.map (Entry.paidBy account)).sum

/-- The sum of the amounts of all transfers to the account. -/
def received : Amount :=
  (entries.map (Entry.paidTo account)).sum

/-- The sum of the amounts of all transfers. -/
def turnover : Amount :=
  (entries.map Entry.moved).sum

end Summaries

variable {entries : List (Entry Amount Stamp Flags)} {entry : Entry Amount Stamp Flags}
  {ledger : List (Account Amount Counter Stamp Flags)} {index : Nat}

/-- An entry touches only accounts that are there. -/
theorem Entry.Names.not_touches {size : Nat} (hnames : entry.Names size) (hindex : size ≤ index) :
    ¬entry.Touches index := by
  intro htouches
  cases entry with
  | opening => exact htouches
  | transfer sender recipient amount =>
      obtain ⟨hsender, hrecipient, _⟩ := hnames
      rcases htouches with rfl | rfl
      · omega
      · omega
  | flagging named flags =>
      have hnamed : named < size := hnames
      have hsame : named = index := htouches
      omega

section Openings

variable [AddMonoidWithOne Counter]

@[simp] theorem openings_nil :
    (openings ([] : List (Entry Amount Stamp Flags)) :
      List (Account Amount Counter Stamp Flags)) = [] :=
  rfl

theorem openings_concat : (openings (entries ++ [entry]) :
    List (Account Amount Counter Stamp Flags)) = openings entries ++ entry.opened.toList := by
  rw [openings, List.filterMap_append]
  cases entry <;> rfl

theorem transactions_of_mem_openings {opening : Account Amount Counter Stamp Flags}
    (hopening : opening ∈ openings entries) : opening.transactions = 0 := by
  obtain ⟨entry, _, hopened⟩ := List.mem_filterMap.mp hopening
  cases entry with
  | opening =>
      obtain rfl := Option.some.inj hopened
      rfl
  | transfer => nomatch hopened
  | flagging => nomatch hopened

end Openings

theorem mem_of_lastFlags {flags : Flags} (hlast : lastFlags entries index = some flags) :
    Entry.flagging index flags ∈ entries := by
  obtain ⟨entry, hmem, hflagged⟩ := List.mem_filterMap.mp (List.mem_of_getLast? hlast)
  cases entry with
  | opening => nomatch hflagged
  | transfer => nomatch hflagged
  | flagging named flags' =>
      by_cases hnamed : named = index
      · rw [Entry.flagged, if_pos hnamed] at hflagged
        obtain rfl := Option.some.inj hflagged
        rwa [hnamed] at hmem
      · rw [Entry.flagged, if_neg hnamed] at hflagged
        nomatch hflagged

theorem moves_le_length (entries : List (Entry Amount Stamp Flags)) (account : Nat) :
    moves entries account ≤ entries.length :=
  List.countP_le_length

variable [AddCommMonoid Amount] [AddMonoidWithOne Counter]

/-- An account after a history, in which it was opened like this. -/
def Account.after (entries : List (Entry Amount Stamp Flags)) (index : Nat)
    (opening : Account Amount Counter Stamp Flags) : Account Amount Counter Stamp Flags where
  credits := opening.credits + sent entries index
  debits := opening.debits + received entries index
  transactions := opening.transactions + moves entries index
  createdAt := opening.createdAt
  flags := (lastFlags entries index).getD opening.flags

@[simp] theorem Account.after_nil (opening : Account Amount Counter Stamp Flags) :
    opening.after ([] : List (Entry Amount Stamp Flags)) index = opening := by
  simp [after, sent, received, moves, lastFlags]

/-- One more entry acts on the account that the history has left. -/
theorem Account.after_concat (opening : Account Amount Counter Stamp Flags) :
    opening.after (entries ++ [entry]) index =
      (opening.after entries index).after [entry] index := by
  simp only [after, sent, received, moves, lastFlags, List.map_append, List.sum_append,
    List.countP_append, Nat.cast_add, add_assoc, List.filterMap_append, List.getLast?_append]
  cases (List.filterMap (Entry.flagged index) [entry]).getLast? <;> rfl

/-- An entry leaves alone what it does not touch. -/
theorem Account.after_of_not_touches (opening : Account Amount Counter Stamp Flags)
    (huntouched : ¬entry.Touches index) : opening.after [entry] index = opening := by
  cases entry with
  | opening credits debits flags stamp =>
      simp [after, sent, received, moves, lastFlags, Entry.paidBy, Entry.paidTo, Entry.moves,
        Entry.flagged]
  | transfer sender recipient amount =>
      obtain ⟨hsender, hrecipient⟩ := not_or.mp huntouched
      simp [after, sent, received, moves, lastFlags, Entry.paidBy, Entry.paidTo, Entry.moves,
        Entry.flagged, hsender, hrecipient]
  | flagging named flags =>
      have hnamed : ¬named = index := huntouched
      simp [after, sent, received, moves, lastFlags, Entry.paidBy, Entry.paidTo, Entry.moves,
        Entry.flagged, hnamed]

/-- Posting an entry acts on each account by itself. -/
theorem getElem?_post (hnames : entry.Names ledger.length) (hindex : index < ledger.length) :
    (post ledger entry)[index]? = ledger[index]?.map (Account.after [entry] index) := by
  rw [List.getElem?_eq_getElem hindex]
  cases entry with
  | opening credits debits flags stamp =>
      rw [post, List.getElem?_append_left hindex, List.getElem?_eq_getElem hindex, Option.map_some,
        Account.after_of_not_touches]
      exact id
  | transfer sender recipient amount =>
      obtain ⟨_, _, hdistinct⟩ := hnames
      simp only [post, List.getElem?_modify, List.getElem?_eq_getElem hindex]
      by_cases hsender : sender = index
      · have hrecipient : ¬recipient = index := fun h => hdistinct (hsender.trans h.symm)
        simp [Account.after, sent, received, moves, lastFlags, Entry.paidBy, Entry.paidTo,
          Entry.moves, Entry.flagged, Account.pay, hsender, hrecipient]
      · by_cases hrecipient : recipient = index
        · simp [Account.after, sent, received, moves, lastFlags, Entry.paidBy, Entry.paidTo,
            Entry.moves, Entry.flagged, Account.receive, hsender, hrecipient]
        · have huntouched : ¬Entry.Touches index
              (.transfer sender recipient amount : Entry Amount Stamp Flags) :=
            not_or.mpr ⟨hsender, hrecipient⟩
          rw [Option.map_some, Account.after_of_not_touches _ huntouched]
          simp [hsender, hrecipient]
  | flagging named flags =>
      simp only [post, List.getElem?_modify, List.getElem?_eq_getElem hindex]
      by_cases hnamed : named = index
      · simp [Account.after, sent, received, moves, lastFlags, Entry.paidBy, Entry.paidTo,
          Entry.moves, Entry.flagged, Account.flag, hnamed]
      · have huntouched : ¬Entry.Touches index
            (.flagging named flags : Entry Amount Stamp Flags) := hnamed
        rw [Option.map_some, Account.after_of_not_touches _ huntouched]
        simp [hnamed]

/-! ## Whole histories -/

theorem length_post (entry : Entry Amount Stamp Flags) :
    (post ledger entry).length =
      ledger.length +
        (entry.opened : Option (Account Amount Counter Stamp Flags)).toList.length := by
  cases entry <;> simp [post, Entry.opened]

theorem length_openings (entries : List (Entry Amount Stamp Flags)) :
    (openings entries : List (Account Amount Counter Stamp Flags)).length =
      (balance entries : List (Account Amount Counter Stamp Flags)).length := by
  induction entries using List.reverseRecOn with
  | nil => rfl
  | append_singleton entries entry ih =>
      rw [openings_concat, balance_concat, List.length_append, length_post, ih]

/-- An account that is not there yet has no history. -/
theorem WellNamed.after_of_length_le (hentries : WellNamed Counter entries)
    (hindex : (balance entries : List (Account Amount Counter Stamp Flags)).length ≤ index)
    (opening : Account Amount Counter Stamp Flags) : opening.after entries index = opening := by
  induction hentries with
  | nil => exact opening.after_nil
  | @concat entries entry _ allowed ih =>
      rw [balance_concat, length_post] at hindex
      have hbefore := Nat.le_of_add_right_le hindex
      rw [Account.after_concat, ih hbefore]
      exact opening.after_of_not_touches (allowed.not_touches hbefore)

/-- The law: each account is what the history has made of its opening. -/
theorem WellNamed.getElem?_balance (hentries : WellNamed Counter entries) (index : Nat) :
    (balance entries : List (Account Amount Counter Stamp Flags))[index]? =
      (openings entries)[index]?.map (Account.after entries index) := by
  induction hentries with
  | nil => rfl
  | @concat entries entry admitted allowed ih =>
      have hlength : (openings entries : List (Account Amount Counter Stamp Flags)).length =
          (balance entries : List (Account Amount Counter Stamp Flags)).length :=
        length_openings entries
      rw [balance_concat, openings_concat]
      by_cases hindex : index < (balance entries : List (Account Amount Counter Stamp Flags)).length
      · rw [getElem?_post allowed hindex, ih, List.getElem?_append_left (hlength ▸ hindex),
          Option.map_map]
        congr 1
        funext opening
        exact (Account.after_concat opening).symm
      · have hafter (opening : Account Amount Counter Stamp Flags) :
            opening.after (entries ++ [entry]) index = opening := by
          rw [Account.after_concat, WellNamed.after_of_length_le admitted (Nat.not_lt.mp hindex)]
          exact opening.after_of_not_touches (allowed.not_touches (Nat.not_lt.mp hindex))
        rw [List.getElem?_append_right (by omega), hlength, funext hafter, Option.map_id']
        cases entry with
        | opening credits debits flags stamp =>
            rw [post, List.getElem?_append_right (by omega)]
            rfl
        | transfer sender recipient amount =>
            rw [List.getElem?_eq_none (by simp [post]; omega)]
            rfl
        | flagging named flags =>
            rw [List.getElem?_eq_none (by simp [post]; omega)]
            rfl

/-! ## Totals -/

omit [AddMonoidWithOne Counter] in
theorem sum_map_modify {total : Account Amount Counter Stamp Flags → Amount} {amount : Amount}
    {update : Account Amount Counter Stamp Flags → Account Amount Counter Stamp Flags}
    (hupdate : ∀ account, total (update account) = total account + amount)
    (hindex : index < ledger.length) :
    ((ledger.modify index update).map total).sum = (ledger.map total).sum + amount := by
  induction ledger generalizing index with
  | nil => nomatch hindex
  | cons account ledger ih =>
      cases index with
      | zero =>
          rw [List.modify_zero_cons, List.map_cons, List.sum_cons, hupdate, List.map_cons,
            List.sum_cons, add_right_comm]
      | succ index =>
          rw [List.modify_succ_cons, List.map_cons, List.sum_cons,
            ih (Nat.lt_of_succ_lt_succ hindex), List.map_cons, List.sum_cons, add_assoc]

/-- One side of the double entry: each payment adds its amount to the total of
this side once. -/
structure Side (total : Account Amount Counter Stamp Flags → Amount) : Prop where
  split : ∀ amount, ∃ paid gained, paid + gained = amount ∧
    (∀ account, total (account.pay amount) = total account + paid) ∧
    (∀ account, total (account.receive amount) = total account + gained)
  flag : ∀ account flags, total (account.flag flags) = total account

theorem Side.credits :
    Side (Account.credits : Account Amount Counter Stamp Flags → Amount) where
  split amount := ⟨amount, 0, add_zero amount, fun _ => rfl, fun _ => (add_zero _).symm⟩
  flag _ _ := rfl

theorem Side.debits :
    Side (Account.debits : Account Amount Counter Stamp Flags → Amount) where
  split amount := ⟨0, amount, zero_add amount, fun _ => (add_zero _).symm, fun _ => rfl⟩
  flag _ _ := rfl

variable {total : Account Amount Counter Stamp Flags → Amount}

theorem Side.sum_post (hside : Side total) (hnames : entry.Names ledger.length) :
    ((post ledger entry).map total).sum =
      (ledger.map total).sum + (entry.opened.toList.map total).sum + entry.moved := by
  cases entry with
  | opening credits debits flags stamp => simp [post, Entry.opened, Entry.moved]
  | transfer sender recipient amount =>
      obtain ⟨hsender, hrecipient, _⟩ := hnames
      obtain ⟨paid, gained, hsplit, hpay, hreceive⟩ := hside.split amount
      have hrecipient' : recipient < (ledger.modify sender (Account.pay amount)).length := by
        rwa [List.length_modify]
      rw [post, sum_map_modify hreceive hrecipient', sum_map_modify hpay hsender, add_assoc, hsplit]
      simp [Entry.opened, Entry.moved]
  | flagging named flags =>
      have hflag (account : Account Amount Counter Stamp Flags) :
          total (account.flag flags) = total account + 0 := by
        rw [hside.flag, add_zero]
      rw [post, sum_map_modify hflag hnames]
      simp [Entry.opened, Entry.moved]

theorem Side.sum_balance (hside : Side total) (hentries : WellNamed Counter entries) :
    ((balance entries).map total).sum = ((openings entries).map total).sum + turnover entries := by
  induction hentries with
  | nil => simp [turnover]
  | @concat entries entry _ allowed ih =>
      rw [balance_concat, hside.sum_post allowed, ih, openings_concat, List.map_append,
        List.sum_append, turnover, turnover, List.map_append, List.sum_append, List.map_singleton,
        List.sum_singleton]
      abel

end LetDX.Ledger

namespace LetDX.Ledger

variable {Amount Counter Stamp Flags : Type} [AddCommGroup Amount] [AddMonoidWithOne Counter]

/-- Conservation: a history keeps the difference between the two sides. -/
theorem WellNamed.conserves {entries : List (Entry Amount Stamp Flags)}
    (hentries : WellNamed Counter entries) :
    ((balance entries : List (Account Amount Counter Stamp Flags)).map Account.debits).sum -
        ((balance entries : List (Account Amount Counter Stamp Flags)).map Account.credits).sum =
      ((openings entries : List (Account Amount Counter Stamp Flags)).map Account.debits).sum -
        ((openings entries :
          List (Account Amount Counter Stamp Flags)).map Account.credits).sum := by
  rw [Side.debits.sum_balance hentries, Side.credits.sum_balance hentries,
    add_sub_add_right_eq_sub]

end LetDX.Ledger
