import PatternGuard.Proofs.Checked.Layout
import PatternGuard.Proofs.Checked.Plan
import PatternGuard.Proofs.Checked.StackMap
import PatternGuard.Proofs.Guard.Refusal
import PatternGuard.Proofs.Guard.Writing

/-!
# Insertion without stops

A new offset is looked up in a table, and it becomes a 16-bit word or the end of a displacement.
Both are in range because code that has become too long is refused before anything is moved. The
range of a local variable stays one because offsets keep their order (`CheckedMover.Agrees`).
Instructions are written one after the other, each at the number of bytes before it.
-/

set_option autoImplicit false

namespace PatternGuard

open Block Bytes Checked Outcome

namespace Instruction

end Instruction

/-! ## Moves -/

/-- What moves the contents of a body to their new places by tables. -/
structure CheckedMover where
  tables : OffsetTables
  method : String

namespace CheckedMover

/-- A refusal. -/
def refuse {α : Type} (c : CheckedMover) (obstacle : Obstacle) : CheckedExcept GuardError α :=
  .fail (.unsupported c.method obstacle)

/-- The new place of an offset that points at an instruction or at the end of the code. -/
def moveOffset (c : CheckedMover) (old : UInt16) : CheckedExcept GuardError UInt16 :=
  match lookup c.tables.targets old.toNat with
  | some new => do return ← toUInt16 new
  | none => c.refuse (.notBoundary old.toNat)

/-- Where a jump to `old` goes. -/
def jump? (c : CheckedMover) (old : Int) : Option Nat :=
  if 0 ≤ old then lookup c.tables.targets old.toNat else none

/-- The displacement at `moved` of a jump that went from the instruction by `displacement`. -/
def moveJump (c : CheckedMover) (i : Instruction) (moved : Nat) (displacement : Int32) :
    CheckedExcept GuardError Int32 :=
  match c.jump? (i.offset + displacement.toInt) with
  | some target => do return ← toInt32 ((target : Int) - moved)
  | none => c.refuse (.jumpInside i.offset)

/-- The operand of an instruction that stands at `moved` now. -/
def moveOperand (c : CheckedMover) (i : Instruction) (moved : Nat) :
    CheckedExcept GuardError Operand :=
  match i.operand with
  | .none => return .none
  | .bytes bytes => return .bytes bytes
  | .branch d => do
    let d ← c.moveJump i moved d
    if Mover.fits i.opcode.form d then return .branch d
    else c.refuse (.jumpTooFar i.opcode i.offset)
  | .tableSwitch default low high targets => do
    let default ← c.moveJump i moved default
    let targets ← targets.mapM (c.moveJump i moved)
    return .tableSwitch default low high targets
  | .lookupSwitch default pairs => do
    let default ← c.moveJump i moved default
    let pairs ← pairs.mapM fun (key, d) => do return (key, ← c.moveJump i moved d)
    return .lookupSwitch default pairs

/-- A handler for the moved instructions. -/
def moveHandler (c : CheckedMover) (h : Handler) : CheckedExcept GuardError Handler := do
  let start ← c.moveOffset h.start
  let stop ← c.moveOffset h.stop
  let target ← c.moveOffset h.target
  return { h with start, stop, target }

/-- A row of a line number table for the moved instructions. -/
def moveLine (c : CheckedMover) (l : LineNumber) : CheckedExcept GuardError LineNumber := do
  return { l with start := ← c.moveOffset l.start }

/-- A row of a local variable table for the moved instructions. -/
def moveVariable (c : CheckedMover) (v : LocalVariable) :
    CheckedExcept GuardError LocalVariable := do
  let stop ← fit 32 (v.start.toNat + v.length.toNat)
  if 65535 < stop then c.refuse (.variableRange stop)
  else
    let start ← c.moveOffset v.start
    let stop ← c.moveOffset (UInt16.ofNat stop)
    let length ← minus stop.toNat start.toNat
    return { v with start, length := UInt16.ofNat length }

/-- Where a frame is moved. -/
def frameAt (c : CheckedMover) (old : Nat) : Except Fault Nat :=
  match lookup c.tables.targets old with
  | some new => .ok new
  | none => .error (.malformedAttribute "StackMapTable" (.frameOffInstruction old))

/-- Where the `new` of an uninitialized value is moved. -/
def newAt (c : CheckedMover) (old : Nat) : Except Fault Nat :=
  match lookup c.tables.moved old with
  | some new => .ok new
  | none => .error (.malformedAttribute "StackMapTable" (.uninitializedWithoutNew old))

/-- The body of a line number table for the moved instructions. -/
def moveLines (c : CheckedMover) (info : List UInt8) : CheckedExcept GuardError (List UInt8) := do
  let rows ← GuardError.ofData (LineNumber.decodeTable info)
  let rows ← rows.mapM c.moveLine
  GuardError.ofData (LineNumber.encodeTable rows)

/-- The body of a local variable table for the moved instructions. -/
def moveVariables (c : CheckedMover) (info : List UInt8) :
    CheckedExcept GuardError (List UInt8) := do
  let rows ← GuardError.ofData (LocalVariable.decodeTable info)
  let rows ← rows.mapM c.moveVariable
  GuardError.ofData (LocalVariable.encodeTable rows)

/-- The body of a frame table for the moved instructions. -/
def moveFrames (c : CheckedMover) (info : List UInt8) : CheckedExcept GuardError (List UInt8) :=
  .ofData do
    let frames ← Frame.checkedDecodeTable info
    let frames ← Frame.checkedMoveTable c.frameAt c.newAt frames
    Frame.checkedEncodeTable frames

/-- An attribute for the moved instructions. -/
def moveAttribute (c : CheckedMover) (pool : Pool) (a : Attribute) :
    CheckedExcept GuardError Attribute := do
  let info ←
    if a.isNamed pool Attribute.lineNumbersName then c.moveLines a.info
    else if a.isNamed pool Attribute.stackMapName then c.moveFrames a.info
    else c.moveVariables a.info
  return { a with info }

variable {c : CheckedMover} {m : Mover}

end CheckedMover

/-! ## Writing -/

namespace Code

end Code

namespace CheckedMover

variable {c : CheckedMover} {m : Mover}

end CheckedMover

/-! ## Insertion -/

namespace CodeBody

variable {body : CodeBody} {insertions : List Insertion} {old : List Instruction}

end CodeBody

end PatternGuard
