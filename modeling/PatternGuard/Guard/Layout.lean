import Std.Data.TreeMap
import PatternGuard.Code.Stream

/-!
# The layout of extended code

Code to insert stands in front of the instruction at some offset. Each instruction of the body
thereby becomes a block: the entry code, the guard code, and the instruction itself. What pointed at
the instruction points at the guard code afterwards, and the entry code is reached only from above.

Defines: `Insertion`, `Block` and `PlacedBlock`; `Block.place`, which lays blocks out; and
`Relocation`, which takes old offsets to the new ones.
-/

set_option autoImplicit false

namespace PatternGuard

/-- Code to insert in front of the instruction at an offset. -/
structure Insertion where
  offset : Nat
  /-- Whether jumps to the instruction go to the inserted code, as they do to guard code. -/
  catchesJumps : Bool
  code : List Instruction
deriving DecidableEq, Repr

/-- An instruction of a body with the code that comes before it. -/
structure Block where
  entry : List Instruction
  guards : List Instruction
  instruction : Instruction
deriving DecidableEq, Repr

/-- A block with the offsets at which its parts begin. -/
structure PlacedBlock extends Block where
  start : Nat
  /-- Where the guard code begins. -/
  target : Nat
  /-- Where the instruction stands. -/
  moved : Nat
deriving DecidableEq, Repr

namespace Insertion

/-- The insertions by offset; those at one offset stay in order. -/
def byOffset (insertions : List Insertion) : Std.TreeMap Nat (List Insertion) compare :=
  insertions.foldr (fun i groups => groups.insert i.offset (i :: groups.getD i.offset [])) ∅

/-- The code of those insertions that are guards, or of those that are not. -/
def codeOf (catchesJumps : Bool) (insertions : List Insertion) : List Instruction :=
  (insertions.filter fun i => i.catchesJumps = catchesJumps).flatMap Insertion.code

end Insertion

namespace Block

/-- The blocks of a method body with insertions. -/
def ofInsertions (insertions : List Insertion) (instructions : List Instruction) : List Block :=
  let groups := Insertion.byOffset insertions
  instructions.map fun instruction =>
    let here := groups.getD instruction.offset []
    { entry := Insertion.codeOf false here, guards := Insertion.codeOf true here, instruction }

/-- Where code ends that begins at an offset. -/
def endOf (offset : Nat) (code : List Instruction) : Nat :=
  code.foldl (fun offset i => offset + i.encodedLength offset) offset

/-- The block placed at an offset. -/
def placeAt (b : Block) (start : Nat) : PlacedBlock :=
  let target := endOf start b.entry
  { b with start, target, moved := endOf target b.guards }

end Block

/-- Where a placed block ends. -/
def PlacedBlock.stop (b : PlacedBlock) : Nat := b.moved + b.instruction.encodedLength b.moved

namespace Block

/-- The blocks placed one after the other from an offset on, after those that `done` holds in
reverse, and the offset at which the last one ends. -/
def placeAfter (done : List PlacedBlock) (offset : Nat) : List Block → List PlacedBlock × Nat
  | [] => (done.reverse, offset)
  | b :: rest =>
    let placed := b.placeAt offset
    placeAfter (placed :: done) placed.stop rest

/-- The blocks placed one after the other from offset 0 on, and the length of the code. -/
def place (blocks : List Block) : List PlacedBlock × Nat := placeAfter [] 0 blocks

end Block

/-- New offsets for an old one. -/
structure NewOffsets where
  /-- For what pointed at the instruction. -/
  target : Nat
  /-- For the instruction itself. -/
  moved : Nat
deriving DecidableEq, Repr

/-- The new offsets of each old instruction offset and of the end of the code. -/
structure Relocation where
  offsets : Std.TreeMap Nat NewOffsets compare

namespace Relocation

/-- The relocation of placed blocks, for old code of the given length. -/
def ofPlaced (placed : List PlacedBlock) (oldLength newLength : Nat) : Relocation where
  offsets := placed.foldl
    (fun offsets b => offsets.insert b.instruction.offset ⟨b.target, b.moved⟩)
    ((∅ : Std.TreeMap Nat NewOffsets compare).insert oldLength ⟨newLength, newLength⟩)

/-- Where to point that pointed at `old`, if an instruction stood there or the code ended there. -/
def target? (r : Relocation) (old : Nat) : Option Nat := r.offsets[old]?.map NewOffsets.target

/-- Where the instruction from `old` is now, if one stood there or the code ended there. -/
def moved? (r : Relocation) (old : Nat) : Option Nat := r.offsets[old]?.map NewOffsets.moved

/-- Where a jump to `old` goes. -/
def jump? (r : Relocation) (old : Int) : Option Nat :=
  if 0 ≤ old then r.target? old.toNat else none

end Relocation

end PatternGuard
