import PatternGuard.Text.Numeral
import PatternGuard.Text.Quoted

/-!
# Faults of class files

Everything that can be wrong with a class file, or with a change to one, told apart by cause. The
wording is in one place, `Fault.message`.

Defines: `Fault` with the finer causes `Expected`, `InstructionIssue` and `AttributeIssue`, and the
text of each; `EntryKind`, the kinds of constant pool entries.
-/

set_option autoImplicit false

namespace PatternGuard

open Text

/-- The kinds of constant pool entries that others refer to. -/
inductive EntryKind where
  | utf8
  | classEntry
  | string
  | nameAndType
  | memberReference
deriving DecidableEq, Repr

/-- How messages name the kind. -/
def EntryKind.label : EntryKind → String
  | utf8 => "Utf8"
  | classEntry => "Class"
  | string => "String"
  | nameAndType => "NameAndType"
  | memberReference => "member reference"

/-- What was looked for at a constant pool index that does not have it. -/
inductive Expected where
  /-- Anything but the placeholder of an unusable slot. -/
  | usableConstant
  /-- A count that includes the slot that is never used. -/
  | nonZeroCount
  /-- A second slot for a constant that takes two. -/
  | roomForTwoSlots
  /-- An entry of the given kind. -/
  | entry (kind : EntryKind)
deriving DecidableEq, Repr

/-- How messages name what was looked for. -/
def Expected.label : Expected → String
  | usableConstant => "a usable constant"
  | nonZeroCount => "non-zero constant pool count"
  | roomForTwoSlots => "two-slot constant inside the pool"
  | entry kind => kind.label

/-- What is wrong with the form of an instruction. -/
inductive InstructionIssue where
  /-- A 16-bit branch displacement out of range. -/
  | branchTooFar (displacement : Int)
  /-- A table switch whose upper bound lies below its lower one. -/
  | emptyRange (low high : Int)
  /-- A table switch with more targets than the code has room for. -/
  | targetCount (count : Nat)
  /-- A lookup switch with a pair count that is negative or beyond the room in the code. -/
  | pairCount (count : Int)
  /-- A byte after `wide` that names no instruction with a wide form. -/
  | notWidenable (byte : UInt8)
deriving DecidableEq, Repr

/-- How messages describe the issue. -/
def InstructionIssue.reason : InstructionIssue → String
  | branchTooFar d => "branch offset " ++ toString d ++ " does not fit 16 bits"
  | emptyRange low high =>
    "tableswitch range " ++ toString low ++ ".." ++ toString high ++ " is empty"
  | targetCount n => "tableswitch with " ++ toString n ++ " targets"
  | pairCount n => "lookupswitch with " ++ toString n ++ " pairs"
  | notWidenable b => hexMarked 2 b.toNat ++ " cannot follow wide"

/-- What is wrong with the body of an attribute. -/
inductive AttributeIssue where
  /-- Bytes after the end of the structure. -/
  | trailing (count : Nat)
  /-- Code that is empty or longer than a method body may be. -/
  | codeLength (length : Nat)
  /-- A member without a method body where one is to be replaced. -/
  | noCode
  /-- An unknown tag of a verification type. -/
  | verificationTag (tag : UInt8)
  /-- A frame type that the format reserves. -/
  | reservedFrame (tag : UInt8)
  /-- A frame that drops no local or more than three. -/
  | chopCount (count : Nat)
  /-- A frame that adds no local or more than three. -/
  | appendCount (count : Nat)
  /-- Frames that would not stand in ascending order. -/
  | frameOrder (offset previous : Nat)
  /-- Consecutive frames too far apart. -/
  | deltaOverflow
  /-- An uninitialized value created beyond the reach of its field. -/
  | uninitializedOverflow
  /-- A frame that stands on no instruction. -/
  | frameOffInstruction (offset : Nat)
  /-- An uninitialized value whose creating instruction is missing. -/
  | uninitializedWithoutNew (offset : Nat)
  /-- An offset for which a relocation gives no image. -/
  | unmapped (offset : Nat)
  /-- Annotation values nested deeper than is accepted. -/
  | nestingTooDeep
  /-- An unknown tag of an annotation element value. -/
  | elementTag (tag : UInt8)
  /-- A parameter annotation table for more parameters than are declared. -/
  | parameterCount (entries declared : Nat)
deriving DecidableEq, Repr

/-- How messages describe the issue. -/
def AttributeIssue.reason : AttributeIssue → String
  | trailing n => toString n ++ " trailing byte(s)"
  | codeLength n => "code length " ++ toString n ++ " out of range"
  | noCode => "member has no Code attribute"
  | verificationTag t => "unknown verification type tag " ++ toString t.toNat
  | reservedFrame t => "reserved frame type " ++ toString t.toNat
  | chopCount n => "chop of " ++ toString n ++ " locals"
  | appendCount n => "append of " ++ toString n ++ " locals"
  | frameOrder o p => "frame at " ++ toString o ++ " does not follow frame at " ++ toString p
  | deltaOverflow => "offset delta overflow"
  | uninitializedOverflow => "uninitialized offset overflow"
  | frameOffInstruction o => "frame at " ++ toString o ++ " is not on an instruction"
  | uninitializedWithoutNew o => "uninitialized value from " ++ toString o ++ " has no new"
  | unmapped o => "no mapping for " ++ toString o
  | nestingTooDeep => "nesting too deep"
  | elementTag t => "unknown element value tag " ++ quotedChar (Char.ofNat t.toNat)
  | parameterCount n d => toString n ++ " entries for " ++ toString d ++ " parameters"

/-- What can be wrong with a class file or with a change to one. -/
inductive Fault where
  | badMagic (magic : UInt32)
  | unsupportedVersion (major minor : UInt16)
  /-- The bytes end inside a structure, `needed` bytes early. -/
  | truncated (context : String) (offset needed : Nat)
  | trailingBytes (count : Nat)
  | invalidConstantTag (tag : UInt8) (index : UInt16)
  | invalidConstantIndex (index : UInt16) (expected : Expected)
  /-- The byte at `offset` cannot stand there in modified UTF-8. -/
  | invalidUtf8 (offset : Nat)
  | constantPoolOverflow
  | invalidOpcode (opcode : UInt8) (offset : Nat)
  | invalidInstruction (offset : Nat) (issue : InstructionIssue)
  | malformedAttribute (name : String) (issue : AttributeIssue)
  | invalidDescriptor (text : String)
  | codeTooLarge (length : Nat)
  /-- More items than the count field of their table can express. -/
  | tooMany (what : String) (count : Nat)
deriving DecidableEq, Repr

/-- The message shown for a fault. -/
def Fault.message : Fault → String
  | badMagic m => "Bad magic number: " ++ hexMarked 8 m.toNat
  | unsupportedVersion major minor =>
    "Unsupported class file version " ++ toString major.toNat ++ "." ++ toString minor.toNat
  | truncated context offset needed =>
    "Truncated " ++ context ++ " at offset " ++ hexMarked 1 offset ++ ": needed "
      ++ toString needed ++ " more byte(s)"
  | trailingBytes n => "Trailing " ++ toString n ++ " byte(s) after class structure"
  | invalidConstantTag tag index =>
    "Invalid constant pool tag " ++ toString tag.toNat ++ " at index " ++ toString index.toNat
  | invalidConstantIndex index expected =>
    "Invalid constant index " ++ toString index.toNat ++ ": expected " ++ expected.label
  | invalidUtf8 offset => "Invalid modified UTF-8 at byte " ++ toString offset
  | constantPoolOverflow => "Constant pool overflow: more than 65535 slots"
  | invalidOpcode opcode offset =>
    "Invalid opcode: " ++ hexMarked 2 opcode.toNat ++ " at offset " ++ hexMarked 1 offset
  | invalidInstruction offset issue =>
    "Invalid instruction format at offset " ++ hexMarked 1 offset ++ ": " ++ issue.reason
  | malformedAttribute name issue => "Malformed " ++ name ++ " attribute: " ++ issue.reason
  | invalidDescriptor text => "Invalid descriptor: " ++ text
  | codeTooLarge length => "Code too large: " ++ toString length ++ " bytes"
  | tooMany what count => "Too many " ++ what ++ ": " ++ toString count

end PatternGuard
