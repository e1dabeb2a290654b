import PatternGuard.Bytes.Reader
import PatternGuard.Text.ModifiedUtf8

/-!
# Constants

The entries of a constant pool. Floating-point constants are kept as bits and text as encoded bytes,
so that an entry is written exactly as it was read.

Defines: `Constant`, its width in slots, its tag, the entries it refers to, `Constant.encode` and
`Constant.decode`.
-/

set_option autoImplicit false

namespace PatternGuard

/-- What a constant pool slot holds. -/
inductive Constant where
  /-- The placeholder of slot 0 and of the second slot of a two-slot constant. -/
  | unusable
  | utf8 (bytes : List UInt8)
  | integer (value : Int32)
  | float (bits : UInt32)
  | long (value : Int64)
  | double (bits : UInt64)
  | classEntry (name : UInt16)
  | string (value : UInt16)
  | fieldRef (owner nameAndType : UInt16)
  | methodRef (owner nameAndType : UInt16)
  | interfaceMethodRef (owner nameAndType : UInt16)
  | nameAndType (name descriptor : UInt16)
  | methodHandle (kind : UInt8) (reference : UInt16)
  | methodType (descriptor : UInt16)
  | dynamic (bootstrap nameAndType : UInt16)
  | invokeDynamic (bootstrap nameAndType : UInt16)
  | moduleEntry (name : UInt16)
  | packageEntry (name : UInt16)
deriving DecidableEq, Repr

namespace Constant

open Bytes Text

/-- The entry for a text. -/
def ofText (text : String) : Constant := utf8 (ModifiedUtf8.encode text)

/-- The number of slots the entry takes. -/
def width : Constant → Nat
  | long _ | double _ => 2
  | _ => 1

/-- The byte that tells the kind of the entry; the placeholder has none. -/
def tag : Constant → Option UInt8
  | unusable => none
  | utf8 _ => some 1
  | integer _ => some 3
  | float _ => some 4
  | long _ => some 5
  | double _ => some 6
  | classEntry _ => some 7
  | string _ => some 8
  | fieldRef .. => some 9
  | methodRef .. => some 10
  | interfaceMethodRef .. => some 11
  | nameAndType .. => some 12
  | methodHandle .. => some 15
  | methodType _ => some 16
  | dynamic .. => some 17
  | invokeDynamic .. => some 18
  | moduleEntry _ => some 19
  | packageEntry _ => some 20

/-- The bytes after the tag. -/
def payload : Constant → List UInt8
  | unusable => []
  | utf8 bytes => toBytes 2 bytes.length ++ bytes
  | integer value => i32Bytes value
  | float bits => u32Bytes bits
  | long value => u64Bytes value.toUInt64
  | double bits => u64Bytes bits
  | classEntry i | string i | methodType i | moduleEntry i | packageEntry i => u16Bytes i
  | fieldRef i j | methodRef i j | interfaceMethodRef i j | nameAndType i j | dynamic i j
  | invokeDynamic i j => u16Bytes i ++ u16Bytes j
  | methodHandle kind reference => kind :: u16Bytes reference

/-- The entry as it stands in a class file; a placeholder takes no bytes. -/
def encode (c : Constant) : List UInt8 :=
  match c.tag with
  | none => []
  | some tag => tag :: c.payload

/-- Why the entry cannot be put into a pool, if it cannot. -/
def refusal : Constant → Option Fault
  | unusable => some (.invalidConstantIndex 0 .usableConstant)
  | utf8 bytes =>
    let length := bytes.length
    if 65535 < length then some (.tooMany "bytes in a Utf8 constant" length) else none
  | _ => none

/-- Whether the entry is of the given kind. -/
def isOf : EntryKind → Constant → Bool
  | .utf8, utf8 _ => true
  | .classEntry, classEntry _ => true
  | .string, string _ => true
  | .nameAndType, nameAndType .. => true
  | .memberReference, fieldRef .. => true
  | .memberReference, methodRef .. => true
  | .memberReference, interfaceMethodRef .. => true
  | _, _ => false

/-- The indices that the entry refers to, each with the kind of entry it must name. -/
def references : Constant → List (UInt16 × EntryKind)
  | classEntry i | string i | methodType i | moduleEntry i | packageEntry i => [(i, .utf8)]
  | nameAndType name descriptor => [(name, .utf8), (descriptor, .utf8)]
  | fieldRef owner member | methodRef owner member | interfaceMethodRef owner member =>
    [(owner, .classEntry), (member, .nameAndType)]
  | dynamic _ member | invokeDynamic _ member => [(member, .nameAndType)]
  | methodHandle _ reference => [(reference, .memberReference)]
  | _ => []

/-- The structure that faults in the bytes of an entry are reported for. -/
def context : String := "constant pool entry"

/-- Reads the text entry after its tag. The text is decoded once, so that it can be decoded later.
-/
def decodeUtf8 : Reader Constant := do
  let bytes ← Reader.take (← Reader.count16 context) context
  match ModifiedUtf8.decode bytes with
  | .ok _ => return utf8 bytes
  | .error e => Reader.fail e

/-- Reads 64 bits as two words. -/
def decodeBits64 : Reader UInt64 := do
  let high ← Reader.number 4 context
  let low ← Reader.number 4 context
  return UInt64.ofNat (high * 4294967296 + low)

/-- Reads the two indices of an entry that has two. -/
def decodePair (entry : UInt16 → UInt16 → Constant) : Reader Constant := do
  let first ← Reader.u16 context
  let second ← Reader.u16 context
  return entry first second

/-- Reads the entry that stands at `index`. -/
def decode (index : UInt16) : Reader Constant := do
  let tag ← Reader.u8 context
  match tag with
  | 1 => decodeUtf8
  | 3 => return integer (← Reader.i32 context)
  | 4 => return float (← Reader.u32 context)
  | 5 => return long (← decodeBits64).toInt64
  | 6 => return double (← decodeBits64)
  | 7 => return classEntry (← Reader.u16 context)
  | 8 => return string (← Reader.u16 context)
  | 9 => decodePair fieldRef
  | 10 => decodePair methodRef
  | 11 => decodePair interfaceMethodRef
  | 12 => decodePair nameAndType
  | 15 => return methodHandle (← Reader.u8 context) (← Reader.u16 context)
  | 16 => return methodType (← Reader.u16 context)
  | 17 => decodePair dynamic
  | 18 => decodePair invokeDynamic
  | 19 => return moduleEntry (← Reader.u16 context)
  | 20 => return packageEntry (← Reader.u16 context)
  | other => Reader.fail (.invalidConstantTag other index)

end Constant

end PatternGuard
