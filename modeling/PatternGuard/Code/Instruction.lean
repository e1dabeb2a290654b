import PatternGuard.Bytes.Word
import PatternGuard.Text.Numeral
import PatternGuard.Code.Opcode

/-!
# Instructions

An instruction is an opcode with its operand and the offset at which it stands. Displacements of
jumps are relative to that offset. The padding of a switch is not part of its operand: it follows
from the offset.

Defines: `Operand`, `Instruction`, the absolute targets of a jump, the constant an instruction
refers to, and its length at an offset.
-/

set_option autoImplicit false

namespace PatternGuard

open Text

/-- The operand of an instruction. -/
inductive Operand where
  | none
  /-- Operand bytes of fixed number; after `wide` they begin with the opcode that is widened. -/
  | bytes (bytes : List UInt8)
  /-- The displacement of a jump. -/
  | branch (displacement : Int32)
  /-- Displacements for the keys from `low` to `high`, and for all others. -/
  | tableSwitch (default low high : Int32) (targets : List Int32)
  /-- Keys with their displacements, and the displacement for all others. -/
  | lookupSwitch (default : Int32) (pairs : List (Int32 × Int32))
deriving DecidableEq, Repr

/-- An instruction at an offset of a method body. -/
structure Instruction where
  offset : Nat
  opcode : Opcode
  operand : Operand
deriving DecidableEq, Repr

/-- The number of padding bytes after the opcode of a switch that stands at `offset`. -/
def paddingAt (offset : Nat) : Nat := (3 - offset % 4) % 4

namespace Instruction

/-- An instruction that has no place yet. -/
def ofOperand (opcode : Opcode) (operand : Operand) : Instruction := ⟨0, opcode, operand⟩

/-- An instruction without operand. -/
def simple (opcode : Opcode) : Instruction := ofOperand opcode .none

/-- An instruction with a constant pool index in two bytes. -/
def constant (opcode : Opcode) (index : UInt16) : Instruction :=
  ofOperand opcode (.bytes (Bytes.u16Bytes index))

/-- The shortest instruction that loads the reference in a local variable. -/
def loadLocal (slot : UInt16) : Instruction :=
  match slot.toNat with
  | 0 => simple .aload_0
  | 1 => simple .aload_1
  | 2 => simple .aload_2
  | 3 => simple .aload_3
  | _ =>
    if slot ≤ 255 then ofOperand .aload (.bytes [slot.toUInt8])
    else ofOperand .wide (.bytes (Opcode.aload.byte :: Bytes.u16Bytes slot))

/-- The constant pool index in the operand, if the instruction has one. -/
def poolIndex? (i : Instruction) : Option UInt16 :=
  if i.opcode.takesConstant then
    match i.opcode.form, i.operand with
    | .constantByte, .bytes (b :: _) => some b.toUInt16
    | .constantByte, _ => none
    | _, .bytes (b :: c :: _) => some (UInt16.ofNat (Bytes.ofBytes [b, c]))
    | _, _ => none
  else none

/-- The displacements in the operand, that of the default first. -/
def displacements (i : Instruction) : List Int32 :=
  match i.operand with
  | .branch d => [d]
  | .tableSwitch default _ _ targets => default :: targets
  | .lookupSwitch default pairs => default :: pairs.map Prod.snd
  | .none | .bytes _ => []

/-- The offsets that the instruction may jump to, that of the default first. -/
def targets (i : Instruction) : List Int :=
  i.displacements.map fun d => i.offset + d.toInt

/-- The length of the operand at an offset. -/
def operandLength (i : Instruction) (offset : Nat) : Nat :=
  match i.operand with
  | .none => 0
  | .bytes bytes => bytes.length
  | .branch _ => if i.opcode.form = .branchWide then 4 else 2
  | .tableSwitch _ _ _ targets => paddingAt offset + 12 + 4 * targets.length
  | .lookupSwitch _ pairs => paddingAt offset + 8 + 8 * pairs.length

/-- The number of bytes that the instruction takes at an offset. -/
def encodedLength (i : Instruction) (offset : Nat) : Nat := 1 + i.operandLength offset

/-- How the operand is shown in a description. -/
def describeOperand (i : Instruction) : String :=
  match i.operand with
  | .none => ""
  | .bytes bytes => " " ++ byteList bytes
  | .branch d => " " ++ signed d.toInt ++ " (-> " ++ toString (i.offset + d.toInt) ++ ")"
  | .tableSwitch _ low high _ => " [" ++ toString low.toInt ++ "..=" ++ toString high.toInt ++ "]"
  | .lookupSwitch _ pairs => " [" ++ toString pairs.length ++ " pairs]"

/-- A description of the instruction in one line. -/
def describe (i : Instruction) : String :=
  zeroPadded 4 (toString i.offset) ++ ": " ++ i.opcode.lowerMnemonic ++ i.describeOperand

end Instruction

end PatternGuard
