import LetDX.Effects.Footprint
import LetDX.LetDB.Heap.AccountList

/-! # What the block holds

The block has room for just as many accounts as the capacity says, and the
allocator has granted it. That bounds the capacity far below where doubling it, or
multiplying it with the size of an account, could wrap.
-/

namespace LetDX.LetDB.Heap

open Effects Effects.Machine Memory

/-- The list on the heap holds these accounts. -/
structure Keeps (list : AccountList) (accounts : List Account) : Prop where
  holds : list.accounts.Holds accounts
  length : list.length.toNat = accounts.length
  bounded : accounts.length ≤ list.capacity.toNat
  bytes : list.accounts.bytes = 64 * list.capacity.toNat
  granted : list.accounts.bytes ≤ allocationMax
  doubled : ∃ doublings, list.capacity.toNat = 1024 * 2 ^ doublings

/-- The call is one to reallocate the block to this many bytes. -/
def Requests (bytes : Nat) (call : Syscall) : Prop :=
  ∃ word : U64, call = .realloc word ∧ word.toNat = bytes

namespace Keeps

variable {list list' : AccountList} {accounts : List Account} {account : Account}

theorem capacity_lt (hkeeps : Keeps list accounts) : list.capacity.toNat < 2 ^ 57 := by
  have hgranted := hkeeps.granted
  rw [hkeeps.bytes, allocationMax] at hgranted
  omega

theorem capacity_pos (hkeeps : Keeps list accounts) : 0 < list.capacity.toNat := by
  obtain ⟨doublings, hcapacity⟩ := hkeeps.doubled
  rw [hcapacity]
  exact Nat.mul_pos (by decide) (Nat.two_pow_pos doublings)

theorem ckdMul_fits (hkeeps : Keeps list accounts) : (ckdMul list.capacity 2).2 = false := by
  have hcapacity := hkeeps.capacity_lt
  exact Bool.eq_false_iff.mpr (not_ckdMul_two (by omega))

theorem toNat_doubled (hkeeps : Keeps list accounts) :
    (ckdMul list.capacity 2).1.toNat = 2 * list.capacity.toNat := by
  have hcapacity := hkeeps.capacity_lt
  exact toNat_ckdMul_two (by omega)

theorem toNat_bytes (hkeeps : Keeps list accounts) :
    (accountSize * (ckdMul list.capacity 2).1).toNat = 64 * (2 * list.capacity.toNat) :=
  toNat_accountSize_mul hkeeps.capacity_lt

theorem full_iff (hkeeps : Keeps list accounts) :
    list.length ≥ list.capacity ↔ accounts.length = list.capacity.toNat := by
  have hbounded := hkeeps.bounded
  rw [ge_iff_le, BitVec.le_def, hkeeps.length]
  omega

/-- The list as the rest of the server sees it. -/
def view (hkeeps : Keeps list accounts) : LetDB.AccountList where
  accounts
  capacity := list.capacity
  bounded := hkeeps.bounded
  positive := hkeeps.capacity_pos

theorem eq_view (hkeeps : Keeps list accounts) (seen : LetDB.AccountList)
    (haccounts : seen.accounts = accounts) (hcapacity : seen.capacity = list.capacity) :
    seen = hkeeps.view := by
  cases seen
  cases haccounts
  cases hcapacity
  rfl

/-! ## Steps -/

theorem grow (hkeeps : Keeps list accounts) {bytes : Nat} {capacity : U64}
    (hcapacity : capacity.toNat = 2 * list.capacity.toNat)
    (hbytes : bytes = 64 * capacity.toNat) (hgranted : bytes ≤ allocationMax) :
    Keeps { list with accounts := list.accounts.resize bytes, capacity } accounts where
  holds := by
    have hbounded := hkeeps.bounded
    refine hkeeps.holds.resize ?_
    change accounts.length * 64 ≤ bytes
    omega
  length := hkeeps.length
  bounded := by
    have hbounded := hkeeps.bounded
    dsimp only
    omega
  bytes := hbytes
  granted := hgranted
  doubled := by
    obtain ⟨doublings, hdoublings⟩ := hkeeps.doubled
    refine ⟨doublings + 1, ?_⟩
    rw [hcapacity, hdoublings, pow_succ]
    omega

theorem accountListStore_eq (hkeeps : Keeps list accounts)
    (hroom : accounts.length < list.capacity.toNat) (account : Account) :
    ∃ list', accountListStore list account = pure (.none, list') ∧
      list'.capacity = list.capacity ∧ Keeps list' (accounts ++ [account]) := by
  have hcapacity := hkeeps.capacity_lt
  have hinside : list.accounts.Inside list.length.toNat := by
    change (list.length.toNat + 1) * 64 ≤ list.accounts.bytes
    rw [hkeeps.length, hkeeps.bytes]
    omega
  obtain ⟨block, hwrite⟩ := Block.exists_write hinside account
  have hlength : (list.length + 1).toNat = accounts.length + 1 := by
    rw [BitVec.toNat_add, hkeeps.length]
    change (accounts.length + 1) % 2 ^ 64 = _
    exact Nat.mod_eq_of_lt (by omega)
  have hbytes := Block.bytes_of_write hwrite
  refine ⟨{ list with accounts := block, length := list.length + 1 }, ?_, rfl, ?_⟩
  · rw [accountListStore, hwrite]
  rw [hkeeps.length] at hwrite
  refine ⟨hkeeps.holds.append hwrite, ?_, ?_, hbytes.trans hkeeps.bytes,
    hbytes.trans_le hkeeps.granted, hkeeps.doubled⟩
  · rw [hlength, List.length_append, List.length_singleton]
  · rw [List.length_append, List.length_singleton]
    exact hroom

/-- What adding an account leaves, and what the rest of the server sees of it. -/
inductive Added (hkeeps : Keeps list accounts) (account : Account) (world : World) :
    Error × AccountList → World → Prop
  | stored {list' : AccountList} (hkeeps' : Keeps list' (accounts ++ [account]))
      (room : list'.capacity.toNat =
        if list.length ≥ list.capacity then 2 * list.capacity.toNat else list.capacity.toNat)
      (seen : (system false).Returns (LetDB.accountListAdd hkeeps.view account) world
        (.none, hkeeps'.view) world) : Added hkeeps account world (.none, list') world
  | refused (full : list.length ≥ list.capacity)
      (seen : (system false).Returns (LetDB.accountListAdd hkeeps.view account) world
        (.account .outOfMemory, hkeeps.view) world) :
      Added hkeeps account world (.account .outOfMemory, list) world

theorem view_length (hkeeps : Keeps list accounts) : hkeeps.view.length = list.length := by
  apply BitVec.eq_of_toNat_eq
  rw [LetDB.AccountList.toNat_length, hkeeps.length]
  rfl

theorem view_fits (hkeeps : Keeps list accounts) : ¬(ckdMul hkeeps.view.capacity 2).2 :=
  Bool.eq_false_iff.mp hkeeps.ckdMul_fits

/-- With room left, the account is stored where the list is. -/
theorem added_of_room (hkeeps : Keeps list accounts) (account : Account) (world : World)
    (hroom : ¬list.length ≥ list.capacity) :
    ∃ list', accountListStore list account = pure (.none, list') ∧
      Added hkeeps account world (.none, list') world := by
  have hlength : accounts.length < list.capacity.toNat := by
    have hbounded := hkeeps.bounded
    have hnot := mt hkeeps.full_iff.mpr hroom
    omega
  have hroom' : ¬hkeeps.view.length ≥ hkeeps.view.capacity := hkeeps.view_length ▸ hroom
  obtain ⟨list', hstore, hcapacity, hkeeps'⟩ := hkeeps.accountListStore_eq hlength account
  refine ⟨list', hstore, .stored hkeeps' ?_ ?_⟩
  · rw [if_neg hroom, hcapacity]
  · rw [← hkeeps'.eq_view (hkeeps.view.store account hroom') rfl hcapacity.symm,
      LetDB.accountListAdd, dif_neg hroom']
    exact .pure _ _

theorem view_accountListAdd (hkeeps : Keeps list accounts) (account : Account)
    (hfull : list.length ≥ list.capacity) : LetDB.accountListAdd hkeeps.view account =
      Proc.realloc (accountSize * (ckdMul list.capacity 2).1) >>= fun granted =>
        if granted then
          pure (.none, (hkeeps.view.grow hkeeps.view_fits).store account
            (hkeeps.view.grow_room hkeeps.view_fits))
        else pure (.account .outOfMemory, hkeeps.view) := by
  have hfull' : hkeeps.view.length ≥ hkeeps.view.capacity := hkeeps.view_length ▸ hfull
  rw [LetDB.accountListAdd, dif_pos hfull', dif_neg hkeeps.view_fits]
  rfl

/-- Without room left, the account is stored in the block that was granted. -/
theorem added_of_granted (hkeeps : Keeps list accounts) (account : Account) (world : World)
    (hfull : list.length ≥ list.capacity)
    (hgranted : (accountSize * (ckdMul list.capacity 2).1).toNat ≤ allocationMax) :
    ∃ list', accountListStore
        { list with
          accounts := list.accounts.resize (accountSize * (ckdMul list.capacity 2).1).toNat
          capacity := (ckdMul list.capacity 2).1 } account = pure (.none, list') ∧
      Added hkeeps account world (.none, list') world := by
  have hgrown := hkeeps.grow hkeeps.toNat_doubled
    (hkeeps.toNat_bytes.trans (congrArg (64 * ·) hkeeps.toNat_doubled.symm)) hgranted
  have hroom : accounts.length < (ckdMul list.capacity 2).1.toNat := by
    have hlength := hkeeps.full_iff.mp hfull
    have hpositive := hkeeps.capacity_pos
    rw [hkeeps.toNat_doubled]
    omega
  obtain ⟨list', hstore, hcapacity, hkeeps'⟩ := hgrown.accountListStore_eq hroom account
  refine ⟨list', hstore, .stored hkeeps' ?_ ?_⟩
  · rw [if_pos hfull, hcapacity]
    exact hkeeps.toNat_doubled
  · rw [← hkeeps'.eq_view ((hkeeps.view.grow hkeeps.view_fits).store account
      (hkeeps.view.grow_room hkeeps.view_fits)) rfl hcapacity.symm,
      hkeeps.view_accountListAdd account hfull]
    exact .bind (Proc.returns_realloc true fun _ => hgranted) (.pure _ _)

theorem accountListAdd_meets (hkeeps : Keeps list accounts) (account : Account) (world : World) :
    Meets false (fun _ => True) (Added hkeeps account world) (accountListAdd list account)
      world := by
  unfold accountListAdd
  split
  next hfull =>
    dsimp only
    rw [if_neg (Bool.eq_false_iff.mp hkeeps.ckdMul_fits)]
    refine .bind
      (@Proc.realloc_spec false (fun _ => True) world _ _ trivial fun granted _ hfits => ?_)
    cases granted with
    | false =>
        refine .pure trivial (.refused hfull ?_)
        rw [hkeeps.view_accountListAdd account hfull]
        exact .bind (Proc.returns_realloc false fun htrue => by cases htrue) (.pure _ _)
    | true =>
        have hgranted := hfits rfl rfl
        obtain ⟨list', hstore, hadded⟩ := hkeeps.added_of_granted account world hfull hgranted
        rw [if_pos rfl, hstore]
        exact .pure trivial hadded
  next hroom =>
    obtain ⟨list', hstore, hadded⟩ := hkeeps.added_of_room account world hroom
    rw [hstore]
    exact .pure trivial hadded

/-- The only call is one for twice the room. -/
theorem accountListAdd_uses (hkeeps : Keeps list accounts) (account : Account) :
    (accountListAdd list account).Uses (Requests (64 * (2 * list.capacity.toNat))) := by
  have hstore (list' : AccountList) : (accountListStore list' account).Uses
      (Requests (64 * (2 * list.capacity.toNat))) := by
    unfold accountListStore
    split
    · exact .pure _
    · trivial
  unfold accountListAdd
  split
  · dsimp only
    split
    · exact .pure _
    · refine .bind (.perform ⟨_, rfl, hkeeps.toNat_bytes⟩) fun granted => ?_
      split
      · exact hstore _
      · exact .pure _
  · exact hstore _

theorem get_present (hkeeps : Keeps list accounts) {accountId : U64}
    (hindex : accountId.toNat < accounts.length) :
    accountListGet list accountId = pure (.ok accounts[accountId.toNat]) := by
  have hpresent : ¬accountId ≥ list.length := by
    rw [ge_iff_le, BitVec.le_def, hkeeps.length]
    exact Nat.not_le.mpr hindex
  rw [accountListGet, if_neg hpresent, hkeeps.holds.read_eq hindex,
    List.getElem?_eq_getElem hindex]

theorem get_missing (hkeeps : Keeps list accounts) {accountId : U64}
    (hindex : ¬accountId.toNat < accounts.length) :
    accountListGet list accountId = pure (.error (.account .notFound)) := by
  have hmissing : accountId ≥ list.length := by
    rw [ge_iff_le, BitVec.le_def, hkeeps.length]
    exact Nat.not_lt.mp hindex
  rw [accountListGet, if_pos hmissing]

theorem accountListGet_eq (hkeeps : Keeps list accounts) (accountId : U64) :
    accountListGet list accountId = pure (LetDB.accountListGet hkeeps.view accountId) := by
  have hview : accountId ≥ hkeeps.view.length ↔ accounts.length ≤ accountId.toNat := by
    rw [ge_iff_le, BitVec.le_def, LetDB.AccountList.toNat_length]
    rfl
  by_cases hindex : accountId.toNat < accounts.length
  · rw [hkeeps.get_present hindex, LetDB.accountListGet,
      dif_neg (mt hview.mp (Nat.not_le.mpr hindex))]
    rfl
  · rw [hkeeps.get_missing hindex, LetDB.accountListGet,
      dif_pos (hview.mpr (Nat.not_lt.mp hindex))]

theorem accountListUpdate_eq (hkeeps : Keeps list accounts) {accountId : U64}
    (hindex : accountId.toNat < accounts.length) (flags : U8) :
    ∃ list', accountListUpdate list accountId flags = pure (.none, list') ∧
      ∃ hkeeps' : Keeps list' (accounts.modify accountId.toNat fun account =>
          { account with flags }),
        LetDB.accountListUpdate hkeeps.view accountId flags = pure (.none, hkeeps'.view) := by
  have hvalue := List.getElem?_eq_getElem hindex
  obtain ⟨block, hwrite⟩ := Block.exists_write (hkeeps.holds.inside hindex)
    { accounts[accountId.toNat] with flags }
  have hbytes := Block.bytes_of_write hwrite
  have hkeeps' : Keeps { list with accounts := block } (accounts.modify accountId.toNat
      fun account => { account with flags }) :=
    { holds := hkeeps.holds.modify hvalue (fun account => { account with flags }) hwrite
      length := hkeeps.length.trans (List.length_modify ..).symm
      bounded := (List.length_modify ..).trans_le hkeeps.bounded
      bytes := hbytes.trans hkeeps.bytes
      granted := hbytes.trans_le hkeeps.granted
      doubled := hkeeps.doubled }
  refine ⟨{ list with accounts := block }, ?_, hkeeps', ?_⟩
  · rw [accountListUpdate, hkeeps.holds.read_eq hindex, hvalue]
    dsimp only
    rw [hwrite]
  · rw [LetDB.accountListUpdate]
    exact if_pos hindex

theorem accountListNew_meets (world : World) :
    Meets false (fun _ => True) (fun created world' => ∀ list, created = some list →
      ∃ hkeeps : Keeps list [],
        (system false).Returns LetDB.accountListNew world (some hkeeps.view) world')
      accountListNew world := by
  refine .bind (@Proc.malloc_spec false (fun _ => True) world _ _ trivial fun granted _ _ => ?_)
  cases granted with
  | false => exact .pure trivial fun list hnone => by cases hnone
  | true =>
      refine .bind
        (@Proc.malloc_spec false (fun _ => True) world _ _ trivial fun granted _ hfits => ?_)
      cases granted with
      | false => exact .pure trivial fun list hnone => by cases hnone
      | true =>
          refine .pure trivial fun list hlist => ?_
          obtain rfl := Option.some.inj hlist
          have hkeeps : Keeps .empty [] :=
            ⟨.allocate _, rfl, Nat.zero_le _, rfl, hfits rfl rfl, 0, rfl⟩
          refine ⟨hkeeps, ?_⟩
          rw [← hkeeps.eq_view .empty rfl rfl]
          exact .bind (Proc.returns_malloc (by decide))
            (.bind (Proc.returns_malloc (by decide)) (.pure _ _))

end Keeps

end LetDX.LetDB.Heap
