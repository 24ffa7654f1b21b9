import LetDX.LetDB.Server.Lifetimes

/-! # Restarting on what a crash has left

A restart that cuts off a torn tail rebuilds the ledger of the entries that a
crash has left whole. These are a prefix of the log with everything in it that
was synced.
-/

namespace LetDX.LetDB

open Bytes Durable Effects

section Crashes

variable {entries : List StorageWalEntry} {tail : List U8}

/-- Cutting a log behind its header leaves whole entries and a part of one. -/
theorem take_storageWalImage (htail : tail.length < storageWalEntrySafeSize) {kept : Nat}
    (hheader : storageWalHeaderLength ≤ kept) : ∃ count rest,
      (storageWalImage entries ++ tail).take kept =
        storageWalImage (entries.take count) ++ rest ∧
      rest.length < storageWalEntrySafeSize ∧
      ∀ whole, whole <+: entries → (storageWalImage whole).length ≤ kept →
        whole <+: entries.take count := by
  obtain ⟨count, rest, hcut, hrest, _, hwhole⟩ :=
    (framed_safe entries).take_log htail (kept - storageWalHeaderLength)
  have hlong : storageWalHeader.length ≤ kept := length_storageWalHeader ▸ hheader
  refine ⟨count, rest, ?_, hrest, ?_⟩
  · rw [storageWalImage, List.append_assoc, List.take_append, List.take_of_length_le hlong,
      length_storageWalHeader, hcut, storageWalImage, List.map_take, List.append_assoc]
  · intro whole hprefix hsynced
    rw [length_storageWalImage] at hsynced
    have hcount := hwhole whole.length (by rw [List.length_map]; exact hprefix.length_le) (by omega)
    rw [List.prefix_iff_eq_take.mp hprefix]
    exact List.take_prefix_take_left hcount

variable {world : World} {state : State} {during : Disk → Prop}

/-- A reliable restart rebuilds the ledger of the whole entries. -/
theorem letInitStorage_whole {synced cursor : Nat}
    (hdisk : world.disk = ⟨some (storageWalImage entries ++ tail), synced, cursor⟩)
    (hsynced : synced ≤ (storageWalImage entries ++ tail).length)
    (htail : tail.length < storageWalEntrySafeSize) (hwell : Wellformed entries)
    (hlimit : (storageWalImage entries ++ tail).length ≤ Disk.offsetMax)
    (hempty : state.accountList.accounts = []) (hduring : ∀ disk, during disk) :
    Meets true during
      (fun result world' => result.1 = .none ∧
        world'.disk.file = some (storageWalImage entries) ∧
        ledgerOf result.2.2.accountList.accounts =
          Ledger.balance (entries.map StorageWalEntry.posting) ∧
        result.2.1.transactions = BitVec.ofNat 64 entries.length)
      (letInitStorage state true) world := by
  have hlength : entries.length < 2 ^ 63 := by
    apply length_lt_of_limit
    rw [List.length_append] at hlimit
    omega
  have hcontent : (world.disk.seek 0).bytes = storageWalHeader ++
      ((entries.map StorageWalEntry.safe).flatten ++ tail) := by
    rw [Disk.seek_bytes, hdisk, Disk.bytes_some, storageWalImage, List.append_assoc]
  refine .bind (storageWalInit_exists (by rw [hdisk]; rfl) (fun _ => hduring _) ?_ ?_)
  · intro hunreliable
    cases hunreliable
  refine storageWalInitOpened_spec hcontent (fun _ => hduring _) rfl ?_ ?_
  · intro hunreliable
    cases hunreliable
  refine storageWalReplay_spec (by rw [hdisk]; rfl) hsynced htail hwell.named hlength hempty
    (fun _ => hduring _) (fun _ => hduring _) ?_ ?_
  · intro _ state' happlied
    exact ⟨rfl, rfl, happlied.ledger, rfl⟩
  · rintro (hunreliable | ⟨_, hstrict⟩)
    · cases hunreliable
    · cases hstrict

/-- A crash and a restart lose nothing that was synced, and add nothing. -/
theorem letInitStorage_crashed {disk disk' : Disk}
    (hfile : disk.file = some (storageWalImage entries ++ tail))
    (hsynced : disk.synced ≤ disk.bytes.length) (htail : tail.length < storageWalEntrySafeSize)
    (hwell : Wellformed entries) (hlimit : disk.bytes.length ≤ Disk.offsetMax)
    (hheader : storageWalHeaderLength ≤ disk.synced) (hcrash : disk.Crash disk')
    (hworld : world.disk = disk') (hempty : state.accountList.accounts = [])
    (hduring : ∀ disk, during disk) :
    Meets true during
      (fun result world' => result.1 = .none ∧ ∃ rebuilt, rebuilt <+: entries ∧
        (∀ whole, whole <+: entries → (storageWalImage whole).length ≤ disk.synced →
          whole <+: rebuilt) ∧
        world'.disk.file = some (storageWalImage rebuilt) ∧
        ledgerOf result.2.2.accountList.accounts =
          Ledger.balance (rebuilt.map StorageWalEntry.posting) ∧
        result.2.1.transactions = BitVec.ofNat 64 rebuilt.length)
      (letInitStorage state true) world := by
  obtain ⟨kept, hkept, hcut, hsame⟩ := hcrash
  have hbytes : disk.bytes = storageWalImage entries ++ tail := by
    rw [Disk.bytes, hfile]
    rfl
  rw [hbytes] at hsynced hlimit
  obtain ⟨count, rest, htake, hrest, hwhole⟩ :=
    @take_storageWalImage entries _ htail _ (hheader.trans hkept)
  have hlength : (storageWalImage (entries.take count) ++ rest).length =
      min kept (storageWalImage entries ++ tail).length := by
    rw [← htake, List.length_take]
  have hdisk : world.disk =
      ⟨some (storageWalImage (entries.take count) ++ rest), disk.synced, disk'.cursor⟩ := by
    obtain ⟨file', synced', cursor'⟩ := disk'
    rw [hfile, Option.map_some, htake] at hcut
    dsimp only at hcut hsame
    rw [hworld, hcut, hsame]
  refine (letInitStorage_whole hdisk (by omega) hrest (hwell.take count) (by omega)
    hempty hduring).weaken ?_
  rintro result world' ⟨hnone, hrebuilt, hledger, htransactions⟩
  exact ⟨hnone, entries.take count, List.take_prefix _ _,
    fun whole hprefix hlong => hwhole whole hprefix (hlong.trans hkept), hrebuilt, hledger,
    htransactions⟩

end Crashes

end LetDX.LetDB
