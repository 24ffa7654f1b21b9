import LetDX.LetDB.Heap.Representation

/-! # Runs of the account list

A new list, and any calls of its functions in any order. The allocator may refuse
each of its calls, and refuses those for more than it ever grants.
-/

namespace LetDX.LetDB.Heap

open Effects Effects.Machine

/-- A call that was made, with what it came to. -/
inductive Event
  | added (account : Account)
  | refused (account : Account) (error : Error)
  | got (accountId : U64) (result : Except Error Account)
  | updated (accountId : U64) (flags : U8)

/-- The functions of an account list. -/
structure Operations (L : Type) where
  new : Proc (Option L)
  add : L → Account → Proc (Error × L)
  get : L → U64 → Proc (Except Error Account)
  update : L → U64 → U8 → Proc (Error × L)
  length : L → U64

/-- Those of the list on the heap. -/
def heap : Operations AccountList where
  new := accountListNew
  add := accountListAdd
  get := accountListGet
  update := accountListUpdate
  length := AccountList.length

/-- Those of the list as the rest of the server sees it. -/
def seen : Operations LetDB.AccountList where
  new := LetDB.accountListNew
  add := LetDB.accountListAdd
  get list accountId := pure (LetDB.accountListGet list accountId)
  update := LetDB.accountListUpdate
  length := LetDB.AccountList.length

/-- Only accounts that there are may be updated. -/
inductive Built {L : Type} (ops : Operations L) : List Event → L → Prop
  | new {list : L} {world world' : World}
      (created : (system false).Returns ops.new world (some list) world') : Built ops [] list
  | added {events : List Event} {list list' : L} {account : Account} {world world' : World}
      (built : Built ops events list)
      (returned : (system false).Returns (ops.add list account) world (.none, list') world') :
      Built ops (events ++ [.added account]) list'
  | refused {events : List Event} {list list' : L} {account : Account} {error : Error}
      {world world' : World} (built : Built ops events list) (failed : error ≠ .none)
      (returned : (system false).Returns (ops.add list account) world (error, list') world') :
      Built ops (events ++ [.refused account error]) list'
  | got {events : List Event} {list : L} {accountId : U64} {result : Except Error Account}
      {world world' : World} (built : Built ops events list)
      (returned : (system false).Returns (ops.get list accountId) world result world') :
      Built ops (events ++ [.got accountId result]) list
  | updated {events : List Event} {list list' : L} {accountId : U64} {flags : U8} {error : Error}
      {world world' : World} (built : Built ops events list)
      (present : accountId.toNat < (ops.length list).toNat)
      (returned : (system false).Returns (ops.update list accountId flags) world
        (error, list') world') : Built ops (events ++ [.updated accountId flags]) list'

/-- The account that was added, if one was. -/
def Event.addition : Event → Option Account
  | added account => some account
  | refused .. | got .. | updated .. => none

/-- The accounts that were added, as they were then. -/
def added (events : List Event) : List Account :=
  events.filterMap Event.addition

def record (accounts : List Account) : Event → List Account
  | .added account => accounts ++ [account]
  | .updated accountId flags =>
      accounts.modify accountId.toNat fun account => { account with flags }
  | .refused .. | .got .. => accounts

/-- The accounts that were added, with the flags that they were given last. -/
def recorded (events : List Event) : List Account :=
  events.foldl record []

theorem recorded_concat (events : List Event) (event : Event) :
    recorded (events ++ [event]) = record (recorded events) event :=
  List.foldl_concat ..

theorem added_concat (events : List Event) (event : Event) :
    added (events ++ [event]) = added events ++ event.addition.toList := by
  rw [added, List.filterMap_append]
  cases event <;> rfl

/-- These are the same accounts in the same order, but for their flags. -/
structure SameButFlags (originals accounts : List Account) : Prop where
  length : accounts.length = originals.length
  stays : ∀ (index : Nat) (original : Account), originals[index]? = some original →
    ∃ flags, accounts[index]? = some { original with flags }

namespace SameButFlags

variable {originals accounts : List Account}

theorem append (hsame : SameButFlags originals accounts) (account : Account) :
    SameButFlags (originals ++ [account]) (accounts ++ [account]) := by
  have hlength := hsame.length
  refine ⟨by rw [List.length_append, List.length_append, hlength], ?_⟩
  intro index original horiginal
  by_cases hindex : index < originals.length
  · rw [List.getElem?_append_left hindex] at horiginal
    rw [List.getElem?_append_left (hlength ▸ hindex)]
    exact hsame.stays index original horiginal
  · obtain ⟨hbound, _⟩ := List.getElem?_eq_some_iff.mp horiginal
    rw [List.length_append, List.length_singleton] at hbound
    obtain rfl : index = originals.length := by omega
    rw [List.getElem?_concat_length, Option.some.injEq] at horiginal
    refine ⟨original.flags, ?_⟩
    rw [← hlength, List.getElem?_concat_length, horiginal]

theorem modify (hsame : SameButFlags originals accounts) (position : Nat) (flags : U8) :
    SameButFlags originals (accounts.modify position fun account => { account with flags }) := by
  refine ⟨(List.length_modify ..).trans hsame.length, ?_⟩
  intro index original horiginal
  obtain ⟨before, hbefore⟩ := hsame.stays index original horiginal
  by_cases hposition : position = index
  · refine ⟨flags, ?_⟩
    rw [hposition, List.getElem?_modify_eq, hbefore]
    rfl
  · refine ⟨before, ?_⟩
    rw [List.getElem?_modify_ne _ _ hposition, hbefore]

end SameButFlags

theorem recorded_sameButFlags (events : List Event) :
    SameButFlags (added events) (recorded events) := by
  induction events using List.reverseRecOn with
  | nil => exact ⟨rfl, fun index original hnone => by cases hnone⟩
  | append_singleton events event ih =>
      rw [recorded_concat, added_concat]
      cases event with
      | added account => exact ih.append account
      | refused account error => exact (List.append_nil (added events)).symm ▸ ih
      | got accountId result => exact (List.append_nil (added events)).symm ▸ ih
      | updated accountId flags =>
          exact (List.append_nil (added events)).symm ▸ ih.modify accountId.toNat flags

/-- The list on the heap does what the rest of the server sees. -/
theorem Built.simulates {events : List Event} {list : AccountList}
    (hbuilt : Built heap events list) :
    ∃ hkeeps : Keeps list (recorded events), Built seen events hkeeps.view := by
  induction hbuilt with
  | new created =>
      obtain ⟨hkeeps, hcreated⟩ := (Keeps.accountListNew_meets _).returns created _ rfl
      exact ⟨hkeeps, .new hcreated⟩
  | added built returned ih =>
      obtain ⟨hkeeps, hseen⟩ := ih
      rw [recorded_concat]
      cases (hkeeps.accountListAdd_meets _ _).returns returned with
      | stored hkeeps' _ hadded => exact ⟨hkeeps', .added hseen hadded⟩
  | refused built failed returned ih =>
      obtain ⟨hkeeps, hseen⟩ := ih
      rw [recorded_concat]
      cases (hkeeps.accountListAdd_meets _ _).returns returned with
      | stored => exact (failed rfl).elim
      | refused full hrefused => exact ⟨hkeeps, .refused hseen failed hrefused⟩
  | @got _ _ accountId _ _ _ built returned ih =>
      obtain ⟨hkeeps, hseen⟩ := ih
      rw [recorded_concat]
      change (system false).Returns (accountListGet _ accountId) _ _ _ at returned
      rw [hkeeps.accountListGet_eq] at returned
      exact ⟨hkeeps, .got hseen returned⟩
  | @updated _ _ _ accountId flags _ _ _ built present returned ih =>
      obtain ⟨hkeeps, hseen⟩ := ih
      rw [recorded_concat]
      have hindex : accountId.toNat < (recorded _).length := hkeeps.length ▸ present
      obtain ⟨list', hupdate, hkeeps', hupdate'⟩ := hkeeps.accountListUpdate_eq hindex flags
      change (system false).Returns (accountListUpdate _ accountId flags) _ _ _ at returned
      rw [hupdate] at returned
      obtain ⟨hresult, _⟩ := returns_pure.mp returned
      obtain ⟨_, rfl⟩ := Prod.mk.inj hresult
      have hreturn : (system false).Returns (LetDB.accountListUpdate hkeeps.view accountId flags) {}
          (.none, hkeeps'.view) {} := hupdate' ▸ .pure _ _
      have hpresent : accountId.toNat < hkeeps.view.length.toNat := hkeeps.view_length ▸ present
      exact ⟨hkeeps', .updated hseen hpresent hreturn⟩

theorem Built.keeps {events : List Event} {list : AccountList} (hbuilt : Built heap events list) :
    Keeps list (recorded events) := by
  obtain ⟨hkeeps, _⟩ := hbuilt.simulates
  exact hkeeps

/-! ## What holds of every list -/

/-- How a list is kept through these calls, and what the next call may do to it. -/
structure WellKept (events : List Event) (list : AccountList) : Prop where
  length : list.length.toNat = (added events).length
  bounded : list.length ≤ list.capacity
  doubled : ∃ doublings, list.capacity.toNat = 1024 * 2 ^ doublings
  room : list.accounts.bytes = 64 * list.capacity.toNat
  stays : ∀ (index : Nat) (account : Account), (added events)[index]? = some account →
    ∃ flags, list.accounts.read index = some { account with flags }
  current : ∀ index : Nat, index < list.length.toNat →
    list.accounts.read index = (recorded events)[index]?
  fits : (ckdMul list.capacity 2).2 = false
  requests : ∀ account : Account,
    (accountListAdd list account).Uses (Requests (64 * (2 * list.capacity.toNat)))
  grows : ∀ {account : Account} {list' : AccountList} {world world' : World},
    (system false).Returns (accountListAdd list account) world (.none, list') world' →
      list'.capacity.toNat =
        if list.length ≥ list.capacity then 2 * list.capacity.toNat else list.capacity.toNat
  defined : ∀ (account : Account) (world : World),
    ¬(system false).Faults (accountListAdd list account) world
  unchanged : ∀ {account : Account} {error : Error} {list' : AccountList} {world world' : World},
    (system false).Returns (accountListAdd list account) world (error, list') world' →
      error ≠ .none → error = .account .outOfMemory ∧ list' = list
  updates : ∀ (accountId : U64) (flags : U8), accountId.toNat < list.length.toNat →
    ∃ list', accountListUpdate list accountId flags = pure (.none, list')
  present : ∀ accountId : U64, accountId.toNat < list.length.toNat →
    ∃ account, list.accounts.read accountId.toNat = some account ∧
      accountListGet list accountId = pure (.ok account)
  missing : ∀ accountId : U64, ¬accountId.toNat < list.length.toNat →
    accountListGet list accountId = pure (.error (.account .notFound))

theorem built_wellKept {events : List Event} {list : AccountList}
    (hbuilt : Built heap events list) : WellKept events list where
  length := hbuilt.keeps.length.trans (recorded_sameButFlags events).length
  bounded := by
    rw [BitVec.le_def, hbuilt.keeps.length]
    exact hbuilt.keeps.bounded
  doubled := hbuilt.keeps.doubled
  room := hbuilt.keeps.bytes
  stays index account haccount := by
    obtain ⟨flags, hflags⟩ := (recorded_sameButFlags events).stays index account haccount
    obtain ⟨hindex, _⟩ := List.getElem?_eq_some_iff.mp hflags
    exact ⟨flags, (hbuilt.keeps.holds.read_eq hindex).trans hflags⟩
  current index hindex := hbuilt.keeps.holds.read_eq (hbuilt.keeps.length ▸ hindex)
  fits := hbuilt.keeps.ckdMul_fits
  requests account := hbuilt.keeps.accountListAdd_uses account
  grows hreturn := by
    cases (hbuilt.keeps.accountListAdd_meets _ _).returns hreturn with
    | stored _ room => exact room
  defined account world := (hbuilt.keeps.accountListAdd_meets account world).not_faults
  unchanged hreturn hfailed := by
    cases (hbuilt.keeps.accountListAdd_meets _ _).returns hreturn with
    | stored => exact (hfailed rfl).elim
    | refused => exact ⟨rfl, rfl⟩
  updates accountId flags hindex := by
    obtain ⟨list', hupdate, _⟩ :=
      hbuilt.keeps.accountListUpdate_eq (hbuilt.keeps.length ▸ hindex) flags
    exact ⟨list', hupdate⟩
  present accountId hindex := by
    rw [hbuilt.keeps.length] at hindex
    have hread := (hbuilt.keeps.holds.read_eq hindex).trans (List.getElem?_eq_getElem hindex)
    exact ⟨(recorded events)[accountId.toNat], hread, hbuilt.keeps.get_present hindex⟩
  missing accountId hindex := hbuilt.keeps.get_missing (hbuilt.keeps.length ▸ hindex)

theorem wellKept_updated :
    ∃ list, WellKept [.added (accountNew 0 100 1 3), .updated 0 4] list := by
  let account := accountNew 0 100 1 3
  have hcreated : (system false).Returns accountListNew {} (some .empty) {} :=
    .bind (Proc.returns_malloc (by decide)) (.bind (Proc.returns_malloc (by decide)) (.pure _ _))
  have hnew : Built heap [] .empty := .new hcreated
  obtain ⟨list, hstore, _⟩ := hnew.keeps.accountListStore_eq (by decide) account
  have hadd : accountListAdd .empty account = pure (.none, list) :=
    (if_neg (by decide)).trans hstore
  have hreturn : (system false).Returns (accountListAdd .empty account) {} (.none, list) {} :=
    hadd ▸ .pure _ _
  have hadded : Built heap [.added account] list := .added hnew hreturn
  have hpresent : (0 : U64).toNat < (recorded [.added account]).length := by decide
  obtain ⟨list', hupdate, _⟩ := hadded.keeps.accountListUpdate_eq hpresent 4
  have hreturn' : (system false).Returns (accountListUpdate list 0 4) {} (.none, list') {} :=
    hupdate ▸ .pure _ _
  have hlength : (0 : U64).toNat < list.length.toNat := hadded.keeps.length ▸ hpresent
  exact ⟨list', built_wellKept (.updated hadded hlength hreturn')⟩

end LetDX.LetDB.Heap
