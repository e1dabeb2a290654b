/-!
# Words in big-endian order

Numbers as byte lists, most significant byte first, for the four widths that class files use.

Defines: `ofBytes` and `toBytes` for any width, and `u16Bytes`, `u32Bytes`, `u64Bytes` for machine
words; signed words are written as the unsigned word of the same bits.
Proves: `length_toBytes`, that a word has the width it was asked for.
-/

set_option autoImplicit false

namespace PatternGuard.Bytes

/-- The number whose base-256 digits are the given bytes, most significant first. -/
def ofBytes (bytes : List UInt8) : Nat :=
  bytes.foldl (fun n b => 256 * n + b.toNat) 0

/-- The last `width` base-256 digits of `n`, most significant first. -/
def toBytes : Nat → Nat → List UInt8
  | 0, _ => []
  | width + 1, n => toBytes width (n / 256) ++ [UInt8.ofNat n]

theorem length_toBytes (width n : Nat) : (toBytes width n).length = width := by
  induction width generalizing n with
  | zero => rfl
  | succ width ih => simp [toBytes, ih]

/-- A 16-bit word as two bytes. -/
def u16Bytes (w : UInt16) : List UInt8 := toBytes 2 w.toNat

/-- A 32-bit word as four bytes. -/
def u32Bytes (w : UInt32) : List UInt8 := toBytes 4 w.toNat

/-- A signed 32-bit word as four bytes, in two's complement. -/
def i32Bytes (w : Int32) : List UInt8 := u32Bytes w.toUInt32

/-- A 64-bit word as eight bytes. -/
def u64Bytes (w : UInt64) : List UInt8 := toBytes 8 w.toNat

end PatternGuard.Bytes
