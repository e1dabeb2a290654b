import PatternGuard.Bytes.Writer
import PatternGuard.Pool.Lookup

/-!
# Annotations

Annotations with their element values, which may be annotations and lists again. Values nested
deeper than 64 levels are refused when read.

Defines: `ElementValue`, `ElementPair`, `Annotation`, reading and writing of annotation lists and of
parameter tables, the description of an annotation, and the lookup of elements by name.
-/

set_option autoImplicit false

namespace PatternGuard

open Bytes

mutual

/-- The value of an annotation element. -/
inductive ElementValue where
  /-- A primitive or string constant; the tag tells its type. -/
  | const (tag : UInt8) (index : UInt16)
  | enumeration (typeName constName : UInt16)
  | classInfo (index : UInt16)
  | nested (inner : Annotation)
  | array (values : List ElementValue)

/-- A name with a value. -/
inductive ElementPair where
  | mk (nameIndex : UInt16) (value : ElementValue)

/-- An annotation: the index of its type descriptor, and its elements. -/
inductive Annotation where
  | mk (typeIndex : UInt16) (elements : List ElementPair)

end

/-- The index of the name. -/
def ElementPair.nameIndex : ElementPair → UInt16
  | mk nameIndex _ => nameIndex

/-- The value under the name. -/
def ElementPair.value : ElementPair → ElementValue
  | mk _ value => value

/-- The index of the type descriptor. -/
def Annotation.typeIndex : Annotation → UInt16
  | mk typeIndex _ => typeIndex

/-- The elements, in order. -/
def Annotation.elements : Annotation → List ElementPair
  | mk _ elements => elements

/-! ## Equality -/

mutual

/-- Whether two values are the same. -/
def ElementValue.same : ElementValue → ElementValue → Bool
  | .const t i, .const u j => t == u && i == j
  | .enumeration t c, .enumeration u d => t == u && c == d
  | .classInfo i, .classInfo j => i == j
  | .nested a, .nested b => Annotation.same a b
  | .array vs, .array ws => ElementValue.sameAll vs ws
  | _, _ => false

/-- Whether two lists of values are the same. -/
def ElementValue.sameAll : List ElementValue → List ElementValue → Bool
  | [], [] => true
  | v :: vs, w :: ws => ElementValue.same v w && ElementValue.sameAll vs ws
  | _, _ => false

/-- Whether two lists of elements are the same. -/
def ElementPair.sameAll : List ElementPair → List ElementPair → Bool
  | [], [] => true
  | .mk n v :: ps, .mk m w :: qs =>
    n == m && ElementValue.same v w && ElementPair.sameAll ps qs
  | _, _ => false

/-- Whether two annotations are the same. -/
def Annotation.same : Annotation → Annotation → Bool
  | .mk t ps, .mk u qs => t == u && ElementPair.sameAll ps qs

end

instance : BEq Annotation where
  beq := Annotation.same

/-! ## Writing -/

mutual

/-- The bytes of a value. -/
def ElementValue.encode : ElementValue → Except Fault (List UInt8)
  | .const tag index => .ok (tag :: u16Bytes index)
  | .enumeration typeName constName => .ok (0x65 :: u16Bytes typeName ++ u16Bytes constName)
  | .classInfo index => .ok (0x63 :: u16Bytes index)
  | .nested inner => do return 0x40 :: (← Annotation.encode inner)
  | .array values => do
    let count ← count16 values.length "array element values"
    return 0x5B :: count ++ (← ElementValue.encodeAll [] values)

/-- The bytes of several values, after the pieces that `done` holds in reverse. -/
def ElementValue.encodeAll (done : List (List UInt8)) :
    List ElementValue → Except Fault (List UInt8)
  | [] => .ok done.reverse.flatten
  | v :: vs => do
    let bytes ← ElementValue.encode v
    ElementValue.encodeAll (bytes :: done) vs

/-- The bytes of several elements, after the pieces that `done` holds in reverse. -/
def ElementPair.encodeAll (done : List (List UInt8)) :
    List ElementPair → Except Fault (List UInt8)
  | [] => .ok done.reverse.flatten
  | .mk nameIndex v :: ps => do
    let bytes ← ElementValue.encode v
    ElementPair.encodeAll ((u16Bytes nameIndex ++ bytes) :: done) ps

/-- The bytes of an annotation. -/
def Annotation.encode : Annotation → Except Fault (List UInt8)
  | .mk typeIndex elements => do
    let count ← count16 elements.length "annotation elements"
    return u16Bytes typeIndex ++ count ++ (← ElementPair.encodeAll [] elements)

end

/-! ## Describing -/

mutual

/-- A description of a value, with its constant pool indices. -/
def ElementValue.describe : ElementValue → String
  | .const tag index => String.singleton (Char.ofNat tag.toNat) ++ "#" ++ toString index.toNat
  | .enumeration typeName constName =>
    "e#" ++ toString typeName.toNat ++ "." ++ toString constName.toNat
  | .classInfo index => "c#" ++ toString index.toNat
  | .nested inner => Annotation.describe inner
  | .array values => "[" ++ ",".intercalate (ElementValue.describeAll [] values) ++ "]"

/-- Descriptions of several values, after those that `done` holds in reverse. -/
def ElementValue.describeAll (done : List String) : List ElementValue → List String
  | [] => done.reverse
  | v :: vs => ElementValue.describeAll (ElementValue.describe v :: done) vs

/-- Descriptions of several elements, after those that `done` holds in reverse. -/
def ElementPair.describeAll (done : List String) : List ElementPair → List String
  | [] => done.reverse
  | .mk nameIndex v :: ps =>
    let element := toString nameIndex.toNat ++ "=" ++ ElementValue.describe v
    ElementPair.describeAll (element :: done) ps

/-- A description of an annotation, with its constant pool indices. -/
def Annotation.describe : Annotation → String
  | .mk typeIndex elements =>
    let elements := ",".intercalate (ElementPair.describeAll [] elements)
    "@" ++ toString typeIndex.toNat ++ "\x7b" ++ elements ++ "\x7d"

end

/-! ## Reading -/

/-- The number of levels of values below an annotation that are accepted. -/
def ElementValue.maxLevels : Nat := 65

/-- Whether the tag is that of a primitive or string constant. -/
def ElementValue.isConstTag (tag : UInt8) : Bool :=
  "BCDFIJSZs".toList.any fun c => c.toNat = tag.toNat

/-- Reads an annotation whose values are read by `value`. -/
def Annotation.decodeWith (value : Reader ElementValue) : Reader Annotation := do
  let typeIndex ← Reader.u16 "annotation"
  let count ← Reader.count16 "annotation"
  let elements ← Reader.times count do
    let nameIndex ← Reader.u16 "annotation"
    let value ← value
    return ElementPair.mk nameIndex value
  return .mk typeIndex elements

/-- The structure that faults in the bytes of a value are reported for. -/
def ElementValue.context : String := "annotation element value"

/-- Reads a value with the given number of levels left for it and what is nested in it. -/
def ElementValue.decode : Nat → Reader ElementValue
  | 0 => Reader.fail (.malformedAttribute "annotation" .nestingTooDeep)
  | levels + 1 => do
    let tag ← Reader.u8 context
    match tag with
    | 0x65 =>
      let typeName ← Reader.u16 context
      let constName ← Reader.u16 context
      return .enumeration typeName constName
    | 0x63 => return .classInfo (← Reader.u16 context)
    | 0x40 => return .nested (← Annotation.decodeWith (ElementValue.decode levels))
    | 0x5B =>
      let count ← Reader.count16 context
      return .array (← Reader.times count (ElementValue.decode levels))
    | tag =>
      if isConstTag tag then return .const tag (← Reader.u16 context)
      else Reader.fail (.malformedAttribute "annotation" (.elementTag tag))

namespace Annotation

/-- Reads an annotation that is not nested in another. -/
def decode : Reader Annotation := decodeWith (ElementValue.decode ElementValue.maxLevels)

/-- Fails if bytes are left after the annotations. -/
def expectEnd : Reader Unit :=
  Reader.expectEnd fun n => .malformedAttribute "annotation" (.trailing n)

/-- Reads a counted list of annotations; `context` names the structure that the count belongs to. -/
def readCounted (context : String) : Reader (List Annotation) := do
  Reader.times (← Reader.count16 context) decode

/-- Reads the body of an annotation attribute. -/
def readList : Reader (List Annotation) := do
  let annotations ← readCounted "annotations"
  expectEnd
  return annotations

/-- The annotations in the body of an annotation attribute. -/
def decodeList (info : List UInt8) : Except Fault (List Annotation) := readList.onBytes info

/-- The body of an annotation attribute. -/
def encodeList (annotations : List Annotation) : Except Fault (List UInt8) :=
  counted "annotations" encode annotations

/-- Reads the body of a parameter annotation attribute. -/
def readParameters : Reader (List (List Annotation)) := do
  let count ← Reader.number 1 "parameter annotations"
  let parameters ← Reader.times count (readCounted "parameter annotations")
  expectEnd
  return parameters

/-- The annotations of each parameter in the body of a parameter annotation attribute. -/
def decodeParameters (info : List UInt8) : Except Fault (List (List Annotation)) :=
  readParameters.onBytes info

/-- The body of a parameter annotation attribute. -/
def encodeParameters (parameters : List (List Annotation)) : Except Fault (List UInt8) := do
  let count := parameters.length
  if 255 < count then throw (.tooMany "annotated parameters" count)
  return UInt8.ofNat count :: (← each encodeList parameters)

/-! ## Looking at annotations -/

/-- Whether the annotation is of the type with the given descriptor. -/
def isType (a : Annotation) (pool : Pool) (descriptor : String) : Bool :=
  pool.isText a.typeIndex descriptor

/-- The value of the first element of the given name. -/
def element? (a : Annotation) (pool : Pool) (name : String) : Option ElementValue :=
  (a.elements.find? fun p => pool.isText p.nameIndex name).map ElementPair.value

/-- The text of the first element of the given name, if it is a string. -/
def textUnder? (a : Annotation) (pool : Pool) (name : String) :
    Except Fault (Option String) :=
  match a.element? pool name with
  | some (.const 0x73 index) => do return some (← pool.text index)
  | _ => .ok none

end Annotation

end PatternGuard
