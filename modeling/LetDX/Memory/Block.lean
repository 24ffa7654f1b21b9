import Mathlib.Logic.Function.Basic

/-! # Blocks of memory

A block as an allocator hands it out: a number of bytes, and a value in each cell
that has been stored to. A cell is one value of a fixed size, so a block need not
have a whole number of cells.
-/

namespace LetDX.Memory

structure Block (α : Type) (size : Nat) where
  bytes : Nat
  cells : Nat → Option α

namespace Block

variable {α : Type} {size : Nat}

/-- A block in which nothing has been stored. -/
def allocate (bytes : Nat) : Block α size where
  bytes
  cells _ := none

/-- The cell at an index lies in the block. -/
def Inside (block : Block α size) (index : Nat) : Prop :=
  (index + 1) * size ≤ block.bytes

instance (block : Block α size) (index : Nat) : Decidable (block.Inside index) :=
  inferInstanceAs (Decidable (_ ≤ _))

/-- The block moved to one of another size: what fits in both is kept. -/
def resize (block : Block α size) (bytes : Nat) : Block α size where
  bytes
  cells index := if (index + 1) * size ≤ min block.bytes bytes then block.cells index else none

/-- The value stored at an index of the block. -/
def read (block : Block α size) (index : Nat) : Option α :=
  if block.Inside index then block.cells index else none

/-- Nothing is stored outside of the block. -/
def write (block : Block α size) (index : Nat) (value : α) : Option (Block α size) :=
  if block.Inside index then
    some { block with cells := Function.update block.cells index (some value) }
  else none

/-- The first cells of the block hold these values. -/
structure Holds (block : Block α size) (values : List α) : Prop where
  fits : values.length * size ≤ block.bytes
  stored : ∀ index value, values[index]? = some value → block.cells index = some value

variable {block block' : Block α size} {values : List α} {index bytes : Nat} {value : α}

theorem succ_mul_le (hfits : values.length * size ≤ bytes) (hindex : index < values.length) :
    (index + 1) * size ≤ bytes :=
  Nat.le_trans (Nat.mul_le_mul_right size hindex) hfits

theorem bytes_of_write (hwrite : block.write index value = some block') :
    block'.bytes = block.bytes := by
  rw [write, Option.ite_none_right_eq_some] at hwrite
  rw [← Option.some.inj hwrite.2]

theorem exists_write (hinside : block.Inside index) (value : α) :
    ∃ block', block.write index value = some block' :=
  ⟨_, if_pos hinside⟩

theorem cells_of_write (hwrite : block.write index value = some block') (position : Nat) :
    block'.cells position = if position = index then some value else block.cells position := by
  rw [write, Option.ite_none_right_eq_some] at hwrite
  rw [← Option.some.inj hwrite.2]
  exact Function.update_apply ..

namespace Holds

theorem allocate (bytes : Nat) : (allocate bytes : Block α size).Holds [] where
  fits := by
    rw [List.length_nil, Nat.zero_mul]
    exact Nat.zero_le _
  stored index value hvalue := by cases hvalue

theorem inside (hholds : block.Holds values) (hindex : index < values.length) :
    block.Inside index :=
  succ_mul_le hholds.fits hindex

theorem read_eq (hholds : block.Holds values) (hindex : index < values.length) :
    block.read index = values[index]? := by
  rw [read, if_pos (hholds.inside hindex), List.getElem?_eq_getElem hindex]
  exact hholds.stored index _ (List.getElem?_eq_getElem hindex)

theorem resize (hholds : block.Holds values) (hfits : values.length * size ≤ bytes) :
    (block.resize bytes).Holds values where
  fits := hfits
  stored index value hvalue := by
    obtain ⟨hindex, _⟩ := List.getElem?_eq_some_iff.mp hvalue
    have hkept : (index + 1) * size ≤ min block.bytes bytes :=
      Nat.le_min.mpr ⟨hholds.inside hindex, succ_mul_le hfits hindex⟩
    exact (if_pos hkept).trans (hholds.stored index value hvalue)

/-- A value is stored behind the others. -/
theorem append (hholds : block.Holds values)
    (hwrite : block.write values.length value = some block') :
    block'.Holds (values ++ [value]) := by
  refine ⟨?_, fun index element helement => ?_⟩
  · rw [List.length_append, List.length_singleton, bytes_of_write hwrite]
    rw [write, Option.ite_none_right_eq_some] at hwrite
    exact hwrite.1
  · rw [cells_of_write hwrite]
    split
    next hlast =>
      rw [hlast, List.getElem?_concat_length] at helement
      exact helement
    next hother =>
      have hindex : index < values.length := by
        obtain ⟨hbound, _⟩ := List.getElem?_eq_some_iff.mp helement
        rw [List.length_append, List.length_singleton] at hbound
        omega
      rw [List.getElem?_append_left hindex] at helement
      exact hholds.stored index element helement

/-- One of the values is changed. -/
theorem modify (hholds : block.Holds values) (hvalue : values[index]? = some value)
    (change : α → α) (hwrite : block.write index (change value) = some block') :
    block'.Holds (values.modify index change) := by
  refine ⟨?_, fun position element helement => ?_⟩
  · rw [List.length_modify, bytes_of_write hwrite]
    exact hholds.fits
  · rw [cells_of_write hwrite]
    split
    next hsame =>
      rw [hsame, List.getElem?_modify_eq, hvalue] at helement
      exact helement
    next hother =>
      rw [List.getElem?_modify_ne _ _ (Ne.symm hother)] at helement
      exact hholds.stored position element helement

end Holds

end Block

end LetDX.Memory
