import PatternGuard.Annotation
import PatternGuard.ClassFile.Attribute
import PatternGuard.Code.Body

/-!
# Fields and methods

Fields and methods have one form: flags, a name, a descriptor and attributes.

Defines: `Member`, reading and writing of members, the method body, and the annotations of a member
and of its parameters.
-/

set_option autoImplicit false

namespace PatternGuard

open Bytes

/-- A field or a method. -/
structure Member where
  access : UInt16
  nameIndex : UInt16
  descriptorIndex : UInt16
  attributes : List Attribute
deriving DecidableEq, Repr

/-- The first attribute of the given name. -/
def Attribute.findIn? (attributes : List Attribute) (pool : Pool) (name : String) :
    Option Attribute :=
  attributes.find? fun a => a.isNamed pool name

/-- The attributes with the body of the first one of the given name replaced. -/
def Attribute.replaceBody (attributes : List Attribute) (pool : Pool) (name : String)
    (info : List UInt8) : List Attribute :=
  attributes.modify (attributes.findIdx fun a => a.isNamed pool name) fun a => { a with info }

namespace Member

/-- The structure that faults in the bytes of a member are reported for. -/
def context : String := "member"

/-- Reads one member. -/
def decode : Reader Member := do
  let access ← Reader.u16 context
  let nameIndex ← Reader.u16 context
  let descriptorIndex ← Reader.u16 context
  let attributes ← Attribute.decodeList
  return { access, nameIndex, descriptorIndex, attributes }

/-- The bytes of one member. -/
def encode (m : Member) : Except Fault (List UInt8) := do
  let attributes ← Attribute.encodeList m.attributes
  return u16Bytes m.access ++ u16Bytes m.nameIndex ++ u16Bytes m.descriptorIndex ++ attributes

/-- The name of the member. -/
def name (m : Member) (pool : Pool) : Except Fault String := pool.text m.nameIndex

/-- The descriptor of the member. -/
def descriptor (m : Member) (pool : Pool) : Except Fault String := pool.text m.descriptorIndex

/-- Whether the member belongs to the class and not to its instances. -/
def isStatic (m : Member) : Bool := m.access &&& 0x0008 ≠ 0

/-- The first attribute of the given name. -/
def attribute? (m : Member) (pool : Pool) (name : String) : Option Attribute :=
  Attribute.findIn? m.attributes pool name

/-- The body of a method, if it has one. -/
def body? (m : Member) (pool : Pool) : Except Fault (Option CodeBody) :=
  match m.attribute? pool Attribute.codeName with
  | none => .ok none
  | some a => do return some (← CodeBody.decode a.info)

/-- The method with its body replaced. -/
def setBody (m : Member) (pool : Pool) (body : CodeBody) : Except Fault Member := do
  let info ← body.encode
  if (m.attribute? pool Attribute.codeName).isSome then
    return { m with
      attributes := Attribute.replaceBody m.attributes pool Attribute.codeName info }
  else throw (.malformedAttribute "Code" .noCode)

/-- The attributes that have one of two names. -/
def attributesNamed (m : Member) (pool : Pool) (name₁ name₂ : String) : List Attribute :=
  m.attributes.filter fun a => a.isNamed pool name₁ || a.isNamed pool name₂

/-- The annotations of the member, in the order of the attributes that hold them. -/
def annotations (m : Member) (pool : Pool) : Except Fault (List Annotation) := do
  let holders := m.attributesNamed pool Attribute.visibleAnnotationsName
    Attribute.invisibleAnnotationsName
  return (← holders.mapM fun a => Annotation.decodeList a.info).flatten

/-- Adds the annotations of a parameter table to those collected so far, the last entry of the table
to the last parameter. A table may leave out parameters at the front. -/
def mergeParameters (merged table : List (List Annotation)) :
    Except Fault (List (List Annotation)) :=
  let declared := merged.length
  let entries := table.length
  if declared < entries then
    .error (.malformedAttribute "parameter annotations" (.parameterCount entries declared))
  else
    let aligned := List.replicate (declared - entries) [] ++ table
    .ok (List.zipWith (· ++ ·) merged aligned)

/-- The annotations of each of the declared parameters. -/
def parameterAnnotations (m : Member) (pool : Pool) (declared : Nat) :
    Except Fault (List (List Annotation)) :=
  let holders := m.attributesNamed pool Attribute.visibleParameterAnnotationsName
    Attribute.invisibleParameterAnnotationsName
  holders.foldlM
    (fun merged a => do mergeParameters merged (← Annotation.decodeParameters a.info))
    (List.replicate declared [])

end Member

end PatternGuard
