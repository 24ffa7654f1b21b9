import Mathlib.Data.BitVec

/-! # Machine integers of the two programs -/

namespace LetDX

abbrev U8 := BitVec 8
abbrev U16 := BitVec 16
abbrev U32 := BitVec 32
abbrev U64 := BitVec 64
abbrev U128 := BitVec 128

/-- Seconds since the epoch, a signed 64-bit integer on the platforms served. -/
abbrev Time := BitVec 64

/-- The value `time` returns when the clock cannot be read. -/
abbrev Time.failed : Time := -1

end LetDX
