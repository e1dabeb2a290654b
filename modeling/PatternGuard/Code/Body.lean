import PatternGuard.ClassFile.Attribute
import PatternGuard.Code.Stream

/-!
# Method bodies

The contents of a `Code` attribute: instructions, exception handlers, and attributes about them.

Defines: `Handler`, `CodeBody`, and reading and writing of bodies.
-/

set_option autoImplicit false

namespace PatternGuard

open Bytes

/-- A range of code with the handler of the exceptions that occur in it. -/
structure Handler where
  start : UInt16
  stop : UInt16
  target : UInt16
  /-- The class of exceptions that are caught; zero for all. -/
  catchType : UInt16
deriving DecidableEq, Repr

/-- The body of a method. -/
structure CodeBody where
  maxStack : UInt16
  maxLocals : UInt16
  code : List UInt8
  handlers : List Handler
  attributes : List Attribute
deriving DecidableEq, Repr

/-- Reads one handler. -/
def Handler.decode (context : String) : Reader Handler := do
  let start ← Reader.u16 context
  let stop ← Reader.u16 context
  let target ← Reader.u16 context
  let catchType ← Reader.u16 context
  return { start, stop, target, catchType }

/-- The bytes of one handler. -/
def Handler.encode (h : Handler) : List UInt8 :=
  u16Bytes h.start ++ u16Bytes h.stop ++ u16Bytes h.target ++ u16Bytes h.catchType

namespace CodeBody

/-- The greatest length of the code of a method. -/
def maxLength : Nat := 65535

/-- The structure that faults in the bytes of a body are reported for. -/
def context : String := "Code attribute"

/-- Reads a body to the end of the input. -/
def read : Reader CodeBody := do
  let maxStack ← Reader.u16 context
  let maxLocals ← Reader.u16 context
  let code ← Reader.blob context
  let length := code.length
  if length = 0 ∨ maxLength < length then
    Reader.fail (.malformedAttribute "Code" (.codeLength length))
  let handlers ← Reader.times (← Reader.count16 context) (Handler.decode context)
  let attributes ← Attribute.decodeList
  Reader.expectEnd fun n => .malformedAttribute "Code" (.trailing n)
  return { maxStack, maxLocals, code, handlers, attributes }

/-- The body that the bytes of a `Code` attribute describe. -/
def decode (info : List UInt8) : Except Fault CodeBody := read.onBytes info

/-- The bytes of a body. -/
def encode (body : CodeBody) : Except Fault (List UInt8) := do
  let length := body.code.length
  if maxLength < length then throw (.codeTooLarge length)
  let code ← blob body.code "code bytes"
  let count ← count16 body.handlers.length "exception table entries"
  let attributes ← Attribute.encodeList body.attributes
  return u16Bytes body.maxStack ++ u16Bytes body.maxLocals ++ code ++ count
    ++ body.handlers.flatMap Handler.encode ++ attributes

/-- The instructions of a body. -/
def instructions (body : CodeBody) : Except Fault (List Instruction) := Code.decode body.code

end CodeBody

end PatternGuard
