import PatternGuard.Bytes.Reader
import PatternGuard.Bytes.Writer

/-!
# Stack map frames

The types of locals and operand stack at points of a method body, for the verifier. A frame stands
`delta` bytes after the start, or `delta + 1` bytes after the frame before it. The short forms of a
frame are written whenever its delta allows.

Defines: `VerificationType`, `Frame`, reading and writing of frame tables, `Frame.offsets`, the
absolute positions, and `Frame.moveTable`, which moves frames along with the code.
-/

set_option autoImplicit false

namespace PatternGuard

open Bytes

/-- The type of a local or of a stack slot. -/
inductive VerificationType where
  | top
  | integer
  | float
  | double
  | long
  | null
  | uninitializedThis
  /-- An object of the class at a constant pool index. -/
  | object (index : UInt16)
  /-- The object made by the `new` at an offset, before its initialisation. -/
  | uninitialized (offset : UInt16)
deriving DecidableEq, Repr

/-- How a frame differs from the one before it. -/
inductive FrameKind where
  | same
  /-- The same locals and one stack item. -/
  | sameWithItem (item : VerificationType)
  /-- Without the last locals, as many as given. -/
  | chop (count : UInt8)
  /-- With further locals. -/
  | append (locals : List VerificationType)
  /-- All locals and stack items. -/
  | full (locals stack : List VerificationType)
deriving DecidableEq, Repr

/-- The types at one point of a method body. -/
structure Frame where
  delta : UInt16
  kind : FrameKind
deriving DecidableEq, Repr

namespace VerificationType

/-- The structure that faults in the bytes of a type are reported for. -/
def context : String := "verification type"

/-- Reads one type. -/
def decode : Reader VerificationType := do
  let tag ← Reader.u8 context
  match tag with
  | 0 => return top
  | 1 => return integer
  | 2 => return float
  | 3 => return double
  | 4 => return long
  | 5 => return null
  | 6 => return uninitializedThis
  | 7 => return object (← Reader.u16 context)
  | 8 => return uninitialized (← Reader.u16 context)
  | tag => Reader.fail (.malformedAttribute "StackMapTable" (.verificationTag tag))

/-- The bytes of one type. -/
def encode : VerificationType → List UInt8
  | top => [0]
  | integer => [1]
  | float => [2]
  | double => [3]
  | long => [4]
  | null => [5]
  | uninitializedThis => [6]
  | object index => 7 :: u16Bytes index
  | uninitialized offset => 8 :: u16Bytes offset

/-- The type with the offset of an uninitialized value moved by `newAt`. -/
def move (newAt : Nat → Except Fault Nat) : VerificationType → Except Fault VerificationType
  | uninitialized offset => do
    let moved ← newAt offset.toNat
    if moved < 65536 then return uninitialized (UInt16.ofNat moved)
    else throw (.malformedAttribute "StackMapTable" .uninitializedOverflow)
  | type => .ok type

end VerificationType

namespace FrameKind

open VerificationType

/-- The bytes of several types. -/
def encodeTypes (types : List VerificationType) : List UInt8 :=
  types.flatMap VerificationType.encode

/-- The bytes of a frame of this kind with the given delta. -/
def encode (delta : UInt16) : FrameKind → Except Fault (List UInt8)
  | same =>
    if delta ≤ 63 then .ok [delta.toUInt8] else .ok (251 :: u16Bytes delta)
  | sameWithItem item =>
    if delta ≤ 63 then .ok ((64 + delta.toUInt8) :: item.encode)
    else .ok (247 :: u16Bytes delta ++ item.encode)
  | chop count =>
    if 1 ≤ count ∧ count ≤ 3 then .ok ((251 - count) :: u16Bytes delta)
    else .error (.malformedAttribute "StackMapTable" (.chopCount count.toNat))
  | append locals =>
    let count := locals.length
    if 1 ≤ count ∧ count ≤ 3 then
      .ok (UInt8.ofNat (251 + count) :: u16Bytes delta ++ encodeTypes locals)
    else .error (.malformedAttribute "StackMapTable" (.appendCount count))
  | full locals stack => do
    let localCount ← count16 locals.length "frame locals"
    let stackCount ← count16 stack.length "frame stack items"
    return 255 :: u16Bytes delta ++ localCount ++ encodeTypes locals ++ stackCount
      ++ encodeTypes stack

/-- The kind with its types moved by `newAt`. -/
def move (newAt : Nat → Except Fault Nat) : FrameKind → Except Fault FrameKind
  | same => .ok same
  | chop count => .ok (chop count)
  | sameWithItem item => do return sameWithItem (← item.move newAt)
  | append locals => do return append (← locals.mapM (VerificationType.move newAt))
  | full locals stack => do
    let locals ← locals.mapM (VerificationType.move newAt)
    let stack ← stack.mapM (VerificationType.move newAt)
    return full locals stack

end FrameKind

namespace Frame

/-- The structure that faults in the bytes of frames are reported for. -/
def context : String := "StackMapTable"

/-- Reads a list of types of the given length. -/
def readTypes (count : Nat) : Reader (List VerificationType) :=
  Reader.times count VerificationType.decode

/-- Reads one frame. -/
def decode : Reader Frame := do
  let tag ← Reader.u8 context
  if tag ≤ 63 then
    return ⟨tag.toUInt16, .same⟩
  else if tag ≤ 127 then
    let item ← VerificationType.decode
    return ⟨(tag - 64).toUInt16, .sameWithItem item⟩
  else if tag ≤ 246 then
    Reader.fail (.malformedAttribute context (.reservedFrame tag))
  else
    let delta ← Reader.u16 context
    if tag = 247 then
      let item ← VerificationType.decode
      return ⟨delta, .sameWithItem item⟩
    else if tag ≤ 250 then
      return ⟨delta, .chop (251 - tag)⟩
    else if tag = 251 then
      return ⟨delta, .same⟩
    else if tag ≤ 254 then
      let locals ← readTypes (tag.toNat - 251)
      return ⟨delta, .append locals⟩
    else
      let locals ← readTypes (← Reader.count16 context)
      let stack ← readTypes (← Reader.count16 context)
      return ⟨delta, .full locals stack⟩

/-- The frames of a table. -/
def decodeTable (info : List UInt8) : Except Fault (List Frame) :=
  (Reader.table context decode).onBytes info

/-- The bytes of one frame. -/
def encode (f : Frame) : Except Fault (List UInt8) := f.kind.encode f.delta

/-- The bytes of a frame table. -/
def encodeTable (frames : List Frame) : Except Fault (List UInt8) :=
  counted "stack map frames" encode frames

/-- Where a frame stands that follows a frame at `previous`, if there is one. -/
def offsetAfter (previous : Option Nat) (f : Frame) : Nat :=
  match previous with
  | none => f.delta.toNat
  | some p => p + f.delta.toNat + 1

/-- The frames with their absolute positions, in front of those that `done` holds in reverse. -/
def locateAfter (done : List (Nat × Frame)) (previous : Option Nat) :
    List Frame → List (Nat × Frame)
  | [] => done.reverse
  | f :: rest =>
    let offset := f.offsetAfter previous
    locateAfter ((offset, f) :: done) (some offset) rest

/-- The frames with their absolute positions. -/
def locate (frames : List Frame) : List (Nat × Frame) := locateAfter [] none frames

/-- The absolute positions of the frames. -/
def offsets (frames : List Frame) : List Nat := (locate frames).map Prod.fst

/-- The delta of a frame at `offset` that follows a frame at `previous`, if there is one. -/
def deltaAfter (previous : Option Nat) (offset : Nat) : Except Fault UInt16 := do
  let delta ← match previous with
    | none => .ok offset
    | some p =>
      if p < offset then .ok (offset - p - 1)
      else .error (.malformedAttribute "StackMapTable" (.frameOrder offset p))
  if delta < 65536 then return UInt16.ofNat delta
  else throw (.malformedAttribute "StackMapTable" .deltaOverflow)

/-- The located frames moved by `frameAt`, and the uninitialized values in them by `newAt`, after
the frames that `done` holds in reverse. -/
def moveAfter (frameAt newAt : Nat → Except Fault Nat) (done : List Frame)
    (previous : Option Nat) : List (Nat × Frame) → Except Fault (List Frame)
  | [] => .ok done.reverse
  | (old, f) :: rest => do
    let offset ← frameAt old
    let delta ← deltaAfter previous offset
    let kind ← f.kind.move newAt
    moveAfter frameAt newAt (⟨delta, kind⟩ :: done) (some offset) rest

/-- The frames moved by `frameAt`, and the uninitialized values in them by `newAt`. Frames that
would not stand in ascending order, or too far apart, are a fault. -/
def moveTable (frameAt newAt : Nat → Except Fault Nat) (frames : List Frame) :
    Except Fault (List Frame) :=
  moveAfter frameAt newAt [] none (locate frames)

end Frame

end PatternGuard
