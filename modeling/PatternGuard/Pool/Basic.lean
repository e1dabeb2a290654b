import Std.Data.TreeMap
import PatternGuard.Bytes.Writer
import PatternGuard.Pool.Constant

/-!
# The constant pool

The constants of one class file, by index. Slot 0 and the slot after a two-slot constant are
unusable. Beside the entries stands the index of the first occurrence of each, so that a constant
that is already there is found again and not added twice.

Defines: `Pool`, lookup by index and by constant, `Pool.intern` with its type `Interning`, and
reading and writing.
Proves: `find?_append`, what a pool finds after one more entry.
-/

set_option autoImplicit false

namespace PatternGuard

/-- The constants of a class file. -/
structure Pool where
  /-- The slots, slot 0 included. -/
  entries : Array Constant
  /-- The first index of each constant, under its bytes. -/
  index : Std.TreeMap (List UInt8) UInt16 compare

/-- A computation that may add constants to a pool and may fail; the constants added before a
failure stay. -/
abbrev Interning := EStateM Fault Pool

namespace Pool

open Bytes

/-- The pool without any constant. -/
def empty : Pool := ⟨#[.unusable], ∅⟩

instance : Inhabited Pool := ⟨empty⟩

/-- Pools are compared by their entries, which determine the index. -/
instance : BEq Pool := ⟨fun p q => p.entries == q.entries⟩

/-- The largest number of slots that the format can express. -/
def maxCount : Nat := 65535

/-- The number of slots, slot 0 included. -/
def count (pool : Pool) : Nat := pool.entries.size

/-- The constant at an index, if there is a usable one. -/
def get? (pool : Pool) (index : UInt16) : Option Constant :=
  match pool.entries[index.toNat]? with
  | some .unusable => none
  | c => c

/-- The usable entries with their indices, in order. -/
def toList (pool : Pool) : List (Nat × Constant) :=
  (pool.entries.toList.zipIdx.map fun (c, i) => (i, c)).filter fun (_, c) => c ≠ .unusable

/-- The index of the first entry equal to the constant. -/
def find? (pool : Pool) (c : Constant) : Option UInt16 := pool.index[c.encode]?

/-- The pool with the constant in the next free slots, whether or not it is already there. -/
def append (pool : Pool) (c : Constant) : Pool :=
  let position := UInt16.ofNat pool.count
  { entries :=
      let entries := pool.entries.push c
      if c.width = 2 then entries.push .unusable else entries
    index := pool.index.insertIfNew c.encode position }

/-- The index of the constant, which is added in the next free slots if it is missing. -/
def intern (c : Constant) : Interning UInt16 := fun pool =>
  match c.refusal with
  | some e => .error e pool
  | none =>
    match pool.find? c with
    | some index => .ok index pool
    | none =>
      if pool.count + c.width ≤ maxCount then
        let position := UInt16.ofNat pool.count
        .ok position (pool.append c)
      else .error .constantPoolOverflow pool

/-- Fails unless every entry refers to entries of the right kind. -/
def checkReferences (pool : Pool) : Except Fault Unit :=
  pool.entries.toList.forM fun c =>
    c.references.forM fun (index, kind) =>
      if (pool.get? index).any (Constant.isOf kind) then .ok ()
      else .error (.invalidConstantIndex index (.entry kind))

/-- Reads entries until the given number of further slots is filled. -/
def decodeEntries : Nat → Pool → Reader Pool
  | 0, pool => pure pool
  | slots + 1, pool => do
    let index := UInt16.ofNat pool.count
    let c ← Constant.decode index
    if c.width = 2 then
      match slots with
      | 0 => Reader.fail (.invalidConstantIndex index .roomForTwoSlots)
      | slots + 1 => decodeEntries slots (pool.append c)
    else decodeEntries slots (pool.append c)

/-- Reads a pool: the number of its slots, then its entries. -/
def decode : Reader Pool := do
  let count ← Reader.count16 "constant pool count"
  if count = 0 then Reader.fail (.invalidConstantIndex 0 .nonZeroCount)
  let pool ← decodeEntries (count - 1) empty
  match pool.checkReferences with
  | .ok () => return pool
  | .error e => Reader.fail e

/-- The bytes of the pool. -/
def encode (pool : Pool) : Except Fault (List UInt8) := do
  let count ← count16 pool.count "constant pool entries"
  return count ++ pool.entries.toList.flatMap Constant.encode

theorem find?_append (pool : Pool) (c d : Constant) :
    (pool.append c).find? d =
      if c.encode = d.encode ∧ pool.find? c = none then some (UInt16.ofNat pool.count)
      else pool.find? d := by
  simp [find?, append, Std.TreeMap.getElem?_insertIfNew, Std.LawfulEqCmp.compare_eq_iff_eq]

end Pool

end PatternGuard
