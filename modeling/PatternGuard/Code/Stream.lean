import PatternGuard.Bytes.Reader
import PatternGuard.Bytes.Writer
import PatternGuard.Code.Instruction

/-!
# Instruction streams

A method body is a sequence of instructions without gaps. Reading it yields each instruction with
the offset it was read at; assembling places instructions one after the other from offset 0.

Defines: `Instruction.encode`, `Instruction.decode`, `Code.decode` and `Code.assemble`.
-/

set_option autoImplicit false

namespace PatternGuard

open Bytes

namespace Instruction

/-- Fails if the instruction has a 16-bit displacement that does not fit. -/
def checkReach (i : Instruction) (offset : Nat) : Except Fault Unit :=
  match i.operand with
  | .branch d =>
    if i.opcode.form = .branchWide ∨ (-32768 ≤ d.toInt ∧ d.toInt ≤ 32767) then .ok ()
    else .error (.invalidInstruction offset (.branchTooFar d.toInt))
  | _ => .ok ()

/-- The bytes of an operand at an offset. A 16-bit displacement that does not fit is a fault. -/
def encodeOperand (i : Instruction) (offset : Nat) : Except Fault (List UInt8) :=
  match i.operand with
  | .none => .ok []
  | .bytes bytes => .ok bytes
  | .branch d => do
    i.checkReach offset
    return if i.opcode.form = .branchWide then i32Bytes d else toBytes 2 (d.toInt % 65536).toNat
  | .tableSwitch default low high targets =>
    .ok (List.replicate (paddingAt offset) 0 ++ i32Bytes default ++ i32Bytes low
      ++ i32Bytes high ++ targets.flatMap i32Bytes)
  | .lookupSwitch default pairs =>
    .ok (List.replicate (paddingAt offset) 0 ++ i32Bytes default
      ++ toBytes 4 pairs.length
      ++ pairs.flatMap fun (key, target) => i32Bytes key ++ i32Bytes target)

/-- The bytes of the instruction at an offset. -/
def encode (i : Instruction) (offset : Nat) : Except Fault (List UInt8) := do
  return i.opcode.byte :: (← i.encodeOperand offset)

/-- The structure that faults in the bytes of an instruction are reported for. -/
def context : String := "instruction"

/-- Reads the operand of a table switch at an offset of code of the given length. -/
def decodeTableSwitch (codeLength offset : Nat) : Reader Operand := do
  Reader.skip (paddingAt offset) context
  let default ← Reader.i32 context
  let low ← Reader.i32 context
  let high ← Reader.i32 context
  if high.toInt < low.toInt then
    Reader.fail (.invalidInstruction offset (.emptyRange low.toInt high.toInt))
  let count := (high.toInt - low.toInt + 1).toNat
  if codeLength / 4 < count then
    Reader.fail (.invalidInstruction offset (.targetCount count))
  let targets ← Reader.times count (Reader.i32 context)
  return .tableSwitch default low high targets

/-- Reads a key and a displacement. -/
def decodePair : Reader (Int32 × Int32) := do
  let key ← Reader.i32 context
  let target ← Reader.i32 context
  return (key, target)

/-- Reads the operand of a lookup switch at an offset of code of the given length. -/
def decodeLookupSwitch (codeLength offset : Nat) : Reader Operand := do
  Reader.skip (paddingAt offset) context
  let default ← Reader.i32 context
  let count := (← Reader.i32 context).toInt
  if count < 0 ∨ codeLength / 8 < count.toNat then
    Reader.fail (.invalidInstruction offset (.pairCount count))
  let pairs ← Reader.times count.toNat decodePair
  return .lookupSwitch default pairs

/-- Reads the operand of `wide` at an offset: the opcode to widen and its operand bytes. -/
def decodeWide (offset : Nat) : Reader Operand := do
  let inner ← Reader.u8 context
  match Opcode.ofWideByte? inner with
  | none => Reader.fail (.invalidInstruction offset (.notWidenable inner))
  | some opcode =>
    let operands ← Reader.take (if opcode = .iinc then 4 else 2) context
    return .bytes (inner :: operands)

/-- Reads the operand of an instruction at an offset of code of the given length. -/
def decodeOperand (codeLength offset : Nat) (form : OperandForm) : Reader Operand :=
  match form with
  | .none => pure .none
  | .branch => do return .branch (← Reader.i16 context).toInt32
  | .branchWide => do return .branch (← Reader.i32 context)
  | .tableSwitch => decodeTableSwitch codeLength offset
  | .lookupSwitch => decodeLookupSwitch codeLength offset
  | .wide => decodeWide offset
  | form => do return .bytes (← Reader.take (form.fixedLength.getD 0) context)

/-- Reads one instruction of code of the given length. The instruction keeps its offset as a word of
32 bits. -/
def decode (codeLength : Nat) : Reader Instruction := do
  let offset ← Reader.position
  let byte ← Reader.u8 context
  match Opcode.ofByte? byte with
  | none => Reader.fail (.invalidOpcode byte offset)
  | some opcode =>
    let operand ← decodeOperand codeLength offset opcode.form
    return { offset := offset % 4294967296, opcode, operand }

/-- Fails if the instruction cannot be written where it stands. Its offset has to be a word of 32
bits, or else there is too much code before it. -/
def checkPlace (i : Instruction) : Except Fault Unit := do
  if 4294967296 ≤ i.offset then throw (.codeTooLarge i.offset)
  i.checkReach i.offset

end Instruction

namespace Code

/-- The instructions of a method body. -/
def decode (code : List UInt8) : Except Fault (List Instruction) :=
  (Reader.untilEnd (Instruction.decode code.length)).onBytes code

/-- The instructions placed one after the other from an offset on, after those that `done` holds in
reverse. -/
def placeAfter (done : List Instruction) (offset : Nat) : List Instruction → List Instruction
  | [] => done.reverse
  | i :: rest =>
    placeAfter ({ i with offset } :: done) (offset + i.encodedLength offset) rest

/-- The instructions placed one after the other from an offset on. -/
def place (offset : Nat) (instructions : List Instruction) : List Instruction :=
  placeAfter [] offset instructions

/-- The bytes of instructions that have their places. -/
def encodePlaced (instructions : List Instruction) : Except Fault (List UInt8) :=
  each (fun i => i.encode i.offset) instructions

/-- The instructions placed from offset 0 on, and their bytes. All places are checked before any
byte is written; the first one that fails the check is the fault. -/
def assemble (instructions : List Instruction) :
    Except Fault (List Instruction × List UInt8) := do
  let placed := place 0 instructions
  placed.forM Instruction.checkPlace
  return (placed, ← encodePlaced placed)

end Code

end PatternGuard
