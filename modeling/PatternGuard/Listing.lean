import PatternGuard.ClassFile.Basic
import PatternGuard.Decimal.Shortest

/-!
# Listings

A class as readable text. The compact form has one line per instruction; the verbose form adds a
header, the constant pool, the members, offsets, and comments that say what a constant index names.

Defines: `Listing`, the choice of what is shown; `Listing.render`, the text of a class.
-/

set_option autoImplicit false

namespace PatternGuard

open Text

/-- How much of a class is listed. -/
inductive ListingForm where
  /-- Mnemonics and operands only. -/
  | compact
  /-- Everything, as far as it is not switched off. -/
  | verbose
deriving DecidableEq, Repr

/-- What a listing shows. -/
structure Listing where
  form : ListingForm := .verbose
  offsets : Bool := true
  pool : Bool := true
  comments : Bool := true
deriving DecidableEq, Repr

/-- A constant pool index as it is shown. -/
def indexText (index : UInt16) : String := "#" ++ toString index.toNat

/-- A constant as it is shown in the listing of a pool. -/
def Constant.describe : Constant → String
  | .unusable => "<unusable>"
  | .utf8 bytes =>
    match ModifiedUtf8.decode bytes with
    | .ok text => "Utf8 " ++ quoted text
    | .error _ => "Utf8 <invalid>"
  | .integer value => "Integer " ++ toString value.toInt
  | .float bits => "Float " ++ Decimal.singleText bits
  | .long value => "Long " ++ toString value.toInt
  | .double bits => "Double " ++ Decimal.doubleText bits
  | .classEntry name => "Class " ++ indexText name
  | .string value => "String " ++ indexText value
  | .fieldRef owner member => "Fieldref " ++ indexText owner ++ "." ++ indexText member
  | .methodRef owner member => "Methodref " ++ indexText owner ++ "." ++ indexText member
  | .interfaceMethodRef owner member =>
    "InterfaceMethodref " ++ indexText owner ++ "." ++ indexText member
  | .nameAndType name descriptor =>
    "NameAndType " ++ indexText name ++ ":" ++ indexText descriptor
  | .methodHandle kind reference =>
    "MethodHandle " ++ toString kind.toNat ++ ":" ++ indexText reference
  | .methodType descriptor => "MethodType " ++ indexText descriptor
  | .dynamic bootstrap member =>
    "Dynamic " ++ toString bootstrap.toNat ++ ":" ++ indexText member
  | .invokeDynamic bootstrap member =>
    "InvokeDynamic " ++ toString bootstrap.toNat ++ ":" ++ indexText member
  | .moduleEntry name => "Module " ++ indexText name
  | .packageEntry name => "Package " ++ indexText name

namespace Listing

/-- What the constant at an index is, if there is one. -/
def constantComment (pool : Pool) (index : UInt16) : Option String :=
  (pool.get? index).map Constant.describe

/-- What the operand of an instruction names, if it names a constant. -/
def comment (pool : Pool) (i : Instruction) : Option String := do
  let index ← i.poolIndex?
  match i.opcode with
  | .getfield | .putfield | .getstatic | .putstatic | .invokevirtual | .invokespecial
  | .invokestatic | .invokeinterface => (pool.memberRef index).toOption.map MemberRef.display
  | .new_object | .checkcast | .instance_of | .anewarray => (pool.className index).toOption
  | .ldc | .ldc_w =>
    match pool.string index with
    | .ok text => some (quoted text)
    | .error _ => constantComment pool index
  | _ => constantComment pool index

/-- The operand bytes of an instruction without constant index. -/
def bytesOperand (form : OperandForm) (bytes : List UInt8) : String :=
  match form, bytes with
  | .byte, b :: _ => " " ++ toString b.toInt8.toInt
  | .slot, b :: _ => " " ++ toString b.toNat
  | .short, b :: c :: _ => " " ++ toString (UInt16.ofNat (Bytes.ofBytes [b, c])).toInt16.toInt
  | _, bytes => " " ++ byteList bytes

/-- The operand of an instruction after its mnemonic; jumps show where they go. -/
def operand (i : Instruction) : String :=
  match i.operand with
  | .none => ""
  | .branch d => " " ++ toString (i.offset + d.toInt)
  | .tableSwitch _ low high _ => " " ++ toString low.toInt ++ ".." ++ toString high.toInt
  | .lookupSwitch _ pairs => " " ++ toString pairs.length ++ " pairs"
  | .bytes bytes =>
    match i.poolIndex? with
    | some index => " " ++ indexText index
    | none => bytesOperand i.opcode.form bytes

/-- The line of an instruction. -/
def instructionLine (l : Listing) (pool : Pool) (i : Instruction) : String :=
  let verbose := l.form = .verbose
  let place :=
    if verbose && l.offsets then "  " ++ zeroPadded 4 (toString i.offset) ++ ": " else "  "
  let remark :=
    if verbose && l.comments then
      match comment pool i with
      | some text => "  ; " ++ text
      | none => ""
    else ""
  place ++ i.opcode.lowerMnemonic ++ operand i ++ remark

/-- The lines of a method body. -/
def bodyLines (l : Listing) (pool : Pool) (body : CodeBody) : Except Fault (List String) := do
  return (← body.instructions).map (l.instructionLine pool)

/-- The line of a field or method, after the word for what it is. -/
def signature (pool : Pool) (m : Member) : Except Fault String := do
  let name ← m.name pool
  let descriptor ← m.descriptor pool
  return name ++ descriptor ++ " [flags " ++ hexMarked 4 m.access.toNat ++ "]"

/-- The lines of the instructions of a method, if it has a body. -/
def compactLines (l : Listing) (pool : Pool) (m : Member) : Except Fault (List String) := do
  match ← m.body? pool with
  | some body => l.bodyLines pool body
  | none => return []

/-- The lines before the constant pool. -/
def headerLines (c : ClassFile) : Except Fault (List String) := do
  let name ← c.name
  let version := toString c.majorVersion.toNat ++ "." ++ toString c.minorVersion.toNat
  let flags := "  version: " ++ version ++ ", flags: " ++ hexMarked 4 c.access.toNat
  let parents ←
    if c.superClass = 0 then pure []
    else do pure ["  extends: " ++ (← c.pool.className c.superClass)]
  return ["class " ++ name, flags] ++ parents ++ [""]

/-- The text with blanks behind, so that it has at least `width` characters. -/
def blankPadded (width : Nat) (text : String) : String :=
  text ++ String.ofList (List.replicate (width - text.length) ' ')

/-- The lines of the constant pool. -/
def poolLines (pool : Pool) : List String :=
  let entries := pool.toList.map fun (index, c) =>
    "  #" ++ blankPadded 4 (toString index) ++ " " ++ c.describe
  ["Constant pool:"] ++ entries ++ [""]

/-- The line of a field. -/
def fieldLine (pool : Pool) (m : Member) : Except Fault String := do
  return "field " ++ (← signature pool m)

/-- The line that sums up a method body. -/
def bodySummary (body : CodeBody) : String :=
  "  stack=" ++ toString body.maxStack.toNat ++ ", locals=" ++ toString body.maxLocals.toNat
    ++ ", exception handlers=" ++ toString body.handlers.length

/-- The lines of a method. -/
def methodLines (l : Listing) (pool : Pool) (m : Member) : Except Fault (List String) := do
  let head := "method " ++ (← signature pool m)
  match ← m.body? pool with
  | some body => return [head, bodySummary body] ++ (← l.bodyLines pool body) ++ [""]
  | none => return [head, "  <no code>", ""]

/-- The lines of a class. -/
def lines (l : Listing) (c : ClassFile) : Except Fault (List String) := do
  match l.form with
  | .compact => return (← c.methods.mapM (l.compactLines c.pool)).flatten
  | .verbose =>
    let header ← headerLines c
    let pool := if l.pool then poolLines c.pool else []
    let fields ← c.fields.mapM (fieldLine c.pool)
    let gap := if c.fields.isEmpty then [] else [""]
    let methods ← c.methods.mapM (l.methodLines c.pool)
    return header ++ pool ++ fields ++ gap ++ methods.flatten

/-- The text of a class; every line ends with a line feed. -/
def render (l : Listing) (c : ClassFile) : Except Fault String := do
  return String.join ((← l.lines c).map (· ++ "\n"))

end Listing

end PatternGuard
