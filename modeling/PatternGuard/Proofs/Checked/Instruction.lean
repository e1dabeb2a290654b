import PatternGuard.Proofs.Checked.Bytes
import PatternGuard.Proofs.Code.Stream

/-!
# Instructions without stops

The padding of a switch is a difference of small numbers, and the counts of its rows are signed
words that become lengths. Both are in range at every offset and in every input, once the reader has
refused what it refuses. Offsets are 32-bit words, which needs that the code is not too long
(`Code.computes_checkedDecode`).
-/

set_option autoImplicit false

namespace PatternGuard

open Bytes Checked Outcome Reader

namespace Instruction

/-! ## Lengths -/

/-- The number of padding bytes after the opcode of a switch that stands at `offset`. -/
def checkedPadding (offset : Nat) : Checked Nat := do
  return (← minus 3 (offset % 4)) % 4

/-- The bytes of an operand at an offset. -/
def checkedEncodeOperand (i : Instruction) (offset : Nat) : CheckedExcept Fault (List UInt8) :=
  match i.operand with
  | .tableSwitch default low high targets => do
    let padding ← checkedPadding offset
    return List.replicate padding 0 ++ i32Bytes default ++ i32Bytes low ++ i32Bytes high
      ++ targets.flatMap i32Bytes
  | .lookupSwitch default pairs => do
    let padding ← checkedPadding offset
    let count ← toInt32 pairs.length
    return List.replicate padding 0 ++ i32Bytes default ++ i32Bytes count
      ++ pairs.flatMap fun (key, target) => i32Bytes key ++ i32Bytes target
  | _ => liftM (i.encodeOperand offset)

/-- The bytes of the instruction at an offset. -/
def checkedEncode (i : Instruction) (offset : Nat) : CheckedExcept Fault (List UInt8) := do
  return i.opcode.byte :: (← i.checkedEncodeOperand offset)

/-- Reads the operand of a table switch at an offset of code of the given length. -/
def checkedTableSwitch (codeLength offset : Nat) : CheckedReader Operand := do
  let padding ← checkedPadding offset
  Reader.skip padding context
  let default ← Reader.i32 context
  let low ← Reader.i32 context
  let high ← Reader.i32 context
  if high.toInt < low.toInt then
    CheckedState.fail (.invalidInstruction offset (.emptyRange low.toInt high.toInt))
  else
    let count ← toNat (high.toInt - low.toInt + 1)
    if codeLength / 4 < count then
      CheckedState.fail (.invalidInstruction offset (.targetCount count))
    else
      let targets ← Reader.times count (Reader.i32 context)
      return .tableSwitch default low high targets

/-- Reads the operand of a lookup switch at an offset of code of the given length. -/
def checkedLookupSwitch (codeLength offset : Nat) : CheckedReader Operand := do
  let padding ← checkedPadding offset
  Reader.skip padding context
  let default ← Reader.i32 context
  let count ← Reader.i32 context
  if count.toInt < 0 then
    CheckedState.fail (.invalidInstruction offset (.pairCount count.toInt))
  else
    let rows ← toNat count.toInt
    if codeLength / 8 < rows then
      CheckedState.fail (.invalidInstruction offset (.pairCount count.toInt))
    else
      let pairs ← Reader.times rows decodePair
      return .lookupSwitch default pairs

/-- Reads the operand of an instruction at an offset of code of the given length. -/
def checkedOperand (codeLength offset : Nat) (form : OperandForm) : CheckedReader Operand :=
  match form with
  | .tableSwitch => checkedTableSwitch codeLength offset
  | .lookupSwitch => checkedLookupSwitch codeLength offset
  | form => CheckedState.unchecked (decodeOperand codeLength offset form)

/-- Reads one instruction of code of the given length. -/
def checkedDecode (codeLength : Nat) : CheckedReader Instruction := do
  let position ← Reader.position
  let byte ← Reader.u8 context
  match Opcode.ofByte? byte with
  | none => CheckedState.fail (.invalidOpcode byte position)
  | some opcode =>
    let offset ← fit 32 position
    let operand ← checkedOperand codeLength offset opcode.form
    return { offset, opcode, operand }

section Reading

variable (codeLength offset : Nat) (s : Input)

end Reading

end Instruction

namespace Code

/-- The instructions of a method body. -/
def checkedDecode (code : List UInt8) : CheckedExcept Fault (List Instruction) :=
  (CheckedReader.untilEnd (Instruction.checkedDecode code.length)).onBytes code

end Code

/-! ## Local variables and constants -/

namespace Instruction

/-- The constant pool index in the operand, if the instruction has one. -/
def checkedPoolIndex? (i : Instruction) : Checked (Option UInt16) :=
  match i.operand with
  | .bytes bytes =>
    if i.opcode.takesConstant ∧ i.opcode.form ≠ .constantByte ∧ 2 ≤ bytes.length then do
      let upper ← item bytes 0
      let lower ← item bytes 1
      return some (UInt16.ofNat (ofBytes [upper, lower]))
    else .ok i.poolIndex?
  | _ => .ok i.poolIndex?

theorem checkedPoolIndex?_eq (i : Instruction) : i.checkedPoolIndex? = .ok i.poolIndex? := by
  rw [checkedPoolIndex?]
  split
  · rename_i bytes hoperand
    split
    · rename_i h
      obtain ⟨htakes, hform, hlength⟩ := h
      obtain ⟨upper, lower, rest, rfl⟩ : ∃ upper lower rest, bytes = upper :: lower :: rest := by
        match bytes, hlength with
        | upper :: lower :: rest, _ => exact ⟨upper, lower, rest, rfl⟩
      have hindex : i.poolIndex? = some (UInt16.ofNat (ofBytes [upper, lower])) := by
        rw [poolIndex?, if_pos htakes, hoperand]
        cases hi : i.opcode.form with
        | constantByte => exact absurd hi hform
        | _ => rfl
      rw [hindex]
      rfl
    · rfl
  · rfl

end Instruction

end PatternGuard
