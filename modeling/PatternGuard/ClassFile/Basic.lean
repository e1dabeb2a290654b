import PatternGuard.ClassFile.Member

/-!
# Class files

The model of one class file. Everything but the constant pool and the list structure stays as it was
read, so that a class that is not changed is written byte for byte as it was read.

Defines: `ClassFile`, `ClassFile.parse` and `ClassFile.toBytes`, the version in the header, and the
addition of fields and methods.
-/

set_option autoImplicit false

namespace PatternGuard

open Bytes

/-- One class file. -/
structure ClassFile where
  minorVersion : UInt16
  majorVersion : UInt16
  pool : Pool
  access : UInt16
  thisClass : UInt16
  /-- Index of the super class; zero if there is none. -/
  superClass : UInt16
  interfaces : List UInt16
  fields : List Member
  methods : List Member
  attributes : List Attribute
deriving BEq, Inhabited

namespace ClassFile

/-- The number that class files begin with. -/
def magic : UInt32 := 0xCAFEBABE

/-- The oldest major version that is read. -/
def oldestMajor : UInt16 := 45

/-- The newest major version that is read. -/
def newestMajor : UInt16 := 69

/-- An empty public class. -/
def create (name : String) (superName : Option String) (major : UInt16) :
    Except Fault ClassFile :=
  let indices : Interning (UInt16 × UInt16) := do
    let thisClass ← Interning.classNamed name
    let superClass ← match superName with
      | none => pure 0
      | some superName => Interning.classNamed superName
    return (thisClass, superClass)
  match indices.run Pool.empty with
  | .error e _ => .error e
  | .ok (thisClass, superClass) pool =>
    .ok { minorVersion := 0, majorVersion := major, pool, access := 0x0021, thisClass,
          superClass, interfaces := [], fields := [], methods := [], attributes := [] }

/-- Reads the magic number and the version: `(major, minor)` after a right magic number, else the
number found. -/
def readHeader : Reader (Except UInt32 (UInt16 × UInt16)) := do
  let found ← Reader.u32 "magic"
  if found = magic then
    let minor ← Reader.u16 "version"
    let major ← Reader.u16 "version"
    return .ok (major, minor)
  else return .error found

/-- The version `(major, minor)` in the header of a class file, if the bytes begin with one. -/
def headerVersion? (bytes : List UInt8) : Option (UInt16 × UInt16) :=
  match readHeader.onBytes bytes with
  | .ok (.ok version) => some version
  | _ => none

/-- Continues with a value that was computed from what has been read. -/
def expect {α : Type} : Except Fault α → Reader α
  | .ok a => pure a
  | .error e => Reader.fail e

/-- Reads a member whose names, and those of its attributes, are texts of the pool. -/
def readMember (pool : Pool) : Reader Member := do
  let m ← Member.decode
  let _ ← expect (m.name pool)
  let _ ← expect (m.descriptor pool)
  expect (m.attributes.forM fun a => do let _ ← a.name pool)
  return m

/-- Reads a counted list of members. -/
def readMembers (pool : Pool) : Reader (List Member) := do
  Reader.times (← Reader.count16 "member count") (readMember pool)

/-- Reads the index of an interface. -/
def readInterface (pool : Pool) : Reader UInt16 := do
  let index ← Reader.u16 "interfaces"
  let _ ← expect (pool.className index)
  return index

/-- Reads a class file to the end of the input. -/
def read : Reader ClassFile := do
  match ← readHeader with
  | .error found => Reader.fail (.badMagic found)
  | .ok (major, minor) =>
    if major < oldestMajor ∨ newestMajor < major then
      Reader.fail (.unsupportedVersion major minor)
    let pool ← Pool.decode
    let access ← Reader.u16 "class header"
    let thisClass ← Reader.u16 "class header"
    let superClass ← Reader.u16 "class header"
    let _ ← expect (pool.className thisClass)
    if superClass ≠ 0 then
      let _ ← expect (pool.className superClass)
    let interfaces ← Reader.times (← Reader.count16 "interfaces") (readInterface pool)
    let fields ← readMembers pool
    let methods ← readMembers pool
    let attributes ← Attribute.decodeList
    expect (attributes.forM fun a => do let _ ← a.name pool)
    Reader.expectEnd .trailingBytes
    return { minorVersion := minor, majorVersion := major, pool, access, thisClass, superClass,
             interfaces, fields, methods, attributes }

/-- The class that the bytes describe. -/
def parse (bytes : List UInt8) : Except Fault ClassFile := read.onBytes bytes

/-- The bytes of a class. -/
def toBytes (c : ClassFile) : Except Fault (List UInt8) := do
  let pool ← c.pool.encode
  let interfaces ← count16 c.interfaces.length "interfaces"
  let fields ← counted "members" Member.encode c.fields
  let methods ← counted "members" Member.encode c.methods
  let attributes ← Attribute.encodeList c.attributes
  return u32Bytes magic ++ u16Bytes c.minorVersion ++ u16Bytes c.majorVersion ++ pool
    ++ u16Bytes c.access ++ u16Bytes c.thisClass ++ u16Bytes c.superClass
    ++ interfaces ++ c.interfaces.flatMap u16Bytes ++ fields ++ methods ++ attributes

/-- The name of the class. -/
def name (c : ClassFile) : Except Fault String := c.pool.className c.thisClass

/-- Whether the file describes a module. -/
def isModule (c : ClassFile) : Bool := c.access &&& 0x8000 ≠ 0

/-- The first class attribute of the given name. -/
def attribute? (c : ClassFile) (name : String) : Option Attribute :=
  Attribute.findIn? c.attributes c.pool name

end ClassFile

/-- A computation that may change a class and may fail; changes made before a failure stay. -/
abbrev Editing := EStateM Fault ClassFile

namespace Editing

/-- Adds constants to the pool of the class. -/
def interning {α : Type} (action : Interning α) : Editing α := fun c =>
  let pool := c.pool
  let c := { c with pool := .empty }
  match action pool with
  | .ok a pool => .ok a { c with pool }
  | .error e pool => .error e { c with pool }

/-- A member without attributes whose name and descriptor are texts of the pool. -/
def newMember (access : UInt16) (name descriptor : String) : Editing Member := do
  let nameIndex ← interning (Interning.text name)
  let descriptorIndex ← interning (Interning.text descriptor)
  return { access, nameIndex, descriptorIndex, attributes := [] }

/-- Adds a field at the end of the fields. -/
def addField (access : UInt16) (name descriptor : String) : Editing Member := do
  let m ← newMember access name descriptor
  modify fun c => { c with fields := c.fields ++ [m] }
  return m

/-- Adds a method at the end of the methods. -/
def addMethod (access : UInt16) (name descriptor : String) : Editing Member := do
  let m ← newMember access name descriptor
  modify fun c => { c with methods := c.methods ++ [m] }
  return m

end Editing

end PatternGuard
