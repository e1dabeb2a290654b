import PatternGuard.Bytes.Reader
import PatternGuard.Bytes.Writer

/-!
# Debug tables of a method body

Line numbers and local variables, each a counted list of rows of 16-bit words.

Defines: `LineNumber` and `LocalVariable` with reading and writing of their tables.
-/

set_option autoImplicit false

namespace PatternGuard

open Bytes

/-- The source line of the instructions from an offset on. -/
structure LineNumber where
  start : UInt16
  line : UInt16
deriving DecidableEq, Repr

namespace LineNumber

/-- The structure that faults in the bytes of a table are reported for. -/
def context : String := "LineNumberTable"

/-- Reads one row. -/
def decode : Reader LineNumber := do
  let start ← Reader.u16 context
  let line ← Reader.u16 context
  return { start, line }

/-- The bytes of one row. -/
def encode (l : LineNumber) : List UInt8 := u16Bytes l.start ++ u16Bytes l.line

/-- The rows of a table. -/
def decodeTable (info : List UInt8) : Except Fault (List LineNumber) :=
  (Reader.table context decode).onBytes info

/-- The bytes of a table. -/
def encodeTable (rows : List LineNumber) : Except Fault (List UInt8) := do
  return (← count16 rows.length "line numbers") ++ rows.flatMap encode

end LineNumber

/-- A local variable with the range of code in which it has a value. -/
structure LocalVariable where
  start : UInt16
  length : UInt16
  nameIndex : UInt16
  /-- Index of a descriptor or of a signature, according to the table. -/
  typeIndex : UInt16
  slot : UInt16
deriving DecidableEq, Repr

namespace LocalVariable

/-- The structure that faults in the bytes of a table are reported for, with descriptors or with
signatures. -/
def context : String := "LocalVariableTable"

/-- Reads one row. -/
def decode : Reader LocalVariable := do
  let start ← Reader.u16 context
  let length ← Reader.u16 context
  let nameIndex ← Reader.u16 context
  let typeIndex ← Reader.u16 context
  let slot ← Reader.u16 context
  return { start, length, nameIndex, typeIndex, slot }

/-- The bytes of one row. -/
def encode (v : LocalVariable) : List UInt8 :=
  u16Bytes v.start ++ u16Bytes v.length ++ u16Bytes v.nameIndex ++ u16Bytes v.typeIndex
    ++ u16Bytes v.slot

/-- The rows of a table. -/
def decodeTable (info : List UInt8) : Except Fault (List LocalVariable) :=
  (Reader.table context decode).onBytes info

/-- The bytes of a table. -/
def encodeTable (rows : List LocalVariable) : Except Fault (List UInt8) := do
  return (← count16 rows.length "local variables") ++ rows.flatMap encode

end LocalVariable

end PatternGuard
