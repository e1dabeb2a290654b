import PatternGuard.Code.Body
import PatternGuard.Code.DebugTables
import PatternGuard.Code.StackMap
import PatternGuard.Guard.Error
import PatternGuard.Guard.Layout

/-!
# Inserting code into a method body

Code is inserted without changing what the body did before: jumps, handlers, frames and debug tables
follow the instructions that they named. Nothing is inserted if the result could not be expressed.

Defines: `Mover`, which takes the parts of a body to their new places, and
`CodeBody.withInsertions`.
-/

set_option autoImplicit false

namespace PatternGuard

/-- What moves the contents of a body to their new places, and the method that refusals are reported
for. -/
structure Mover where
  relocation : Relocation
  method : String

namespace Mover

/-- A refusal. -/
def refuse {α : Type} (method : String) (obstacle : Obstacle) : Except GuardError α :=
  .error (.unsupported method obstacle)

/-- The new place of an offset that points at an instruction or at the end of the code. -/
def moveOffset (m : Mover) (old : UInt16) : Except GuardError UInt16 :=
  match m.relocation.target? old.toNat with
  | some new => .ok (UInt16.ofNat new)
  | none => refuse m.method (.notBoundary old.toNat)

/-- The displacement at `moved` of a jump that went from the instruction by `displacement`. -/
def moveJump (m : Mover) (i : Instruction) (moved : Nat) (displacement : Int32) :
    Except GuardError Int32 :=
  match m.relocation.jump? (i.offset + displacement.toInt) with
  | some target => .ok (Int32.ofInt ((target : Int) - moved))
  | none => refuse m.method (.jumpInside i.offset)

/-- Whether a displacement fits a jump of the given form. -/
def fits (form : OperandForm) (displacement : Int32) : Bool :=
  form ≠ .branch || (-32768 ≤ displacement.toInt && displacement.toInt ≤ 32767)

/-- The operand of an instruction that stands at `moved` now. -/
def moveOperand (m : Mover) (i : Instruction) (moved : Nat) : Except GuardError Operand :=
  match i.operand with
  | .none => .ok .none
  | .bytes bytes => .ok (.bytes bytes)
  | .branch d => do
    let d ← m.moveJump i moved d
    if fits i.opcode.form d then return .branch d
    else refuse m.method (.jumpTooFar i.opcode i.offset)
  | .tableSwitch default low high targets => do
    let default ← m.moveJump i moved default
    let targets ← targets.mapM (m.moveJump i moved)
    return .tableSwitch default low high targets
  | .lookupSwitch default pairs => do
    let default ← m.moveJump i moved default
    let pairs ← pairs.mapM fun (key, d) => do return (key, ← m.moveJump i moved d)
    return .lookupSwitch default pairs

/-- The instruction of a block in its new place. -/
def moveInstruction (m : Mover) (b : PlacedBlock) : Except GuardError Instruction := do
  let operand ← m.moveOperand b.instruction b.moved
  return { b.instruction with offset := b.moved, operand }

/-- The bytes of a block. -/
def encodeBlock (m : Mover) (b : PlacedBlock) : Except GuardError (List UInt8) := do
  let inserted ← GuardError.ofData
    (Code.encodePlaced (Code.place b.start (b.entry ++ b.guards)))
  let instruction ← m.moveInstruction b
  return inserted ++ (← GuardError.ofData (instruction.encode b.moved))

/-- A handler for the moved instructions. -/
def moveHandler (m : Mover) (h : Handler) : Except GuardError Handler := do
  let start ← m.moveOffset h.start
  let stop ← m.moveOffset h.stop
  let target ← m.moveOffset h.target
  return { h with start, stop, target }

/-- A row of a line number table for the moved instructions. -/
def moveLine (m : Mover) (l : LineNumber) : Except GuardError LineNumber := do
  return { l with start := ← m.moveOffset l.start }

/-- A row of a local variable table for the moved instructions. -/
def moveVariable (m : Mover) (v : LocalVariable) : Except GuardError LocalVariable := do
  let stop := v.start.toNat + v.length.toNat
  if 65535 < stop then refuse m.method (.variableRange stop)
  let start ← m.moveOffset v.start
  let stop ← m.moveOffset (UInt16.ofNat stop)
  return { v with start, length := stop - start }

/-- Where a frame is moved. -/
def frameAt (m : Mover) (old : Nat) : Except Fault Nat :=
  match m.relocation.target? old with
  | some new => .ok new
  | none => .error (.malformedAttribute "StackMapTable" (.frameOffInstruction old))

/-- Where the `new` of an uninitialized value is moved. -/
def newAt (m : Mover) (old : Nat) : Except Fault Nat :=
  match m.relocation.moved? old with
  | some new => .ok new
  | none => .error (.malformedAttribute "StackMapTable" (.uninitializedWithoutNew old))

/-- The body of a line number table for the moved instructions. -/
def moveLines (m : Mover) (info : List UInt8) : Except GuardError (List UInt8) := do
  let rows ← GuardError.ofData (LineNumber.decodeTable info)
  GuardError.ofData (LineNumber.encodeTable (← rows.mapM m.moveLine))

/-- The body of a local variable table for the moved instructions. -/
def moveVariables (m : Mover) (info : List UInt8) : Except GuardError (List UInt8) := do
  let rows ← GuardError.ofData (LocalVariable.decodeTable info)
  GuardError.ofData (LocalVariable.encodeTable (← rows.mapM m.moveVariable))

/-- The body of a frame table for the moved instructions. -/
def moveFrames (m : Mover) (info : List UInt8) : Except GuardError (List UInt8) :=
  GuardError.ofData do
    let frames ← Frame.decodeTable info
    Frame.encodeTable (← Frame.moveTable m.frameAt m.newAt frames)

/-- An attribute for the moved instructions. -/
def moveAttribute (m : Mover) (pool : Pool) (a : Attribute) : Except GuardError Attribute := do
  let info ←
    if a.isNamed pool Attribute.lineNumbersName then m.moveLines a.info
    else if a.isNamed pool Attribute.stackMapName then m.moveFrames a.info
    else m.moveVariables a.info
  return { a with info }

/-- Names of the attributes whose offsets can be moved. -/
def movableNames : List String :=
  [Attribute.lineNumbersName, Attribute.localVariablesName, Attribute.localVariableTypesName,
    Attribute.stackMapName]

/-- Fails if the offsets in an attribute cannot be moved. -/
def checkAttribute (pool : Pool) (method : String) (a : Attribute) : Except GuardError Unit :=
  if movableNames.any (a.isNamed pool) then .ok ()
  else do refuse method (.unknownAttribute (← GuardError.ofData (a.name pool)))

/-- Fails if the code of an insertion may jump or leave the method, or if no instruction begins at
its offset. -/
def checkInsertion (boundaries : Std.TreeMap Nat Unit compare) (method : String)
    (i : Insertion) : Except GuardError Unit :=
  match i.code.find? fun j => j.opcode.isBranch || j.opcode.isReturn with
  | some j => refuse method (.altersControlFlow j.opcode)
  | none =>
    if boundaries.contains i.offset then .ok () else refuse method (.notBoundary i.offset)

/-- The offsets of the instructions. -/
def boundaries (instructions : List Instruction) : Std.TreeMap Nat Unit compare :=
  instructions.foldl (fun found i => found.insert i.offset ()) ∅

end Mover

/-- The body with the insertions, and with room for `depth` more operand stack slots. -/
def CodeBody.withInsertions (body : CodeBody) (pool : Pool) (insertions : List Insertion)
    (depth : UInt16) (method : String) : Except GuardError CodeBody := do
  body.attributes.forM (Mover.checkAttribute pool method)
  let maxStack := body.maxStack.toNat + depth.toNat
  if 65535 < maxStack then Mover.refuse method .stackTooDeep
  let instructions ← GuardError.ofData body.instructions
  insertions.forM (Mover.checkInsertion (Mover.boundaries instructions) method)
  let (placed, length) := Block.place (Block.ofInsertions insertions instructions)
  if CodeBody.maxLength < length then Mover.refuse method (.codeTooLong length)
  let m : Mover := ⟨.ofPlaced placed body.code.length length, method⟩
  let code ← placed.mapM m.encodeBlock
  let handlers ← body.handlers.mapM m.moveHandler
  let attributes ← body.attributes.mapM (m.moveAttribute pool)
  return { body with
    maxStack := UInt16.ofNat maxStack, code := code.flatten, handlers, attributes }

end PatternGuard
