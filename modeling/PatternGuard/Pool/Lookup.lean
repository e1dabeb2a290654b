import PatternGuard.Pool.Basic

/-!
# Reading and adding names through the pool

Constants refer to each other by index. The lookups here follow the references down to text, and the
interning operations add all entries that a name needs, each only if it is missing.

Defines: `Pool.text` and the lookups built on it, `MemberRef`, and the interning of text, class,
string and member constants.
-/

set_option autoImplicit false

namespace PatternGuard

open Text

/-- A field or method of a class, by name. -/
structure MemberRef where
  owner : String
  name : String
  descriptor : String
deriving DecidableEq, Repr

/-- How a member reference is shown. -/
def MemberRef.display (m : MemberRef) : String :=
  m.owner ++ "." ++ m.name ++ ":" ++ m.descriptor

namespace Pool

/-- The text at an index. -/
def text (pool : Pool) (index : UInt16) : Except Fault String :=
  match pool.get? index with
  | some (.utf8 bytes) => ModifiedUtf8.decode bytes
  | _ => .error (.invalidConstantIndex index (.entry .utf8))

/-- Whether the entry at an index is the given text, in the form in which text is written. -/
def isText (pool : Pool) (index : UInt16) (text : String) : Bool :=
  match pool.get? index with
  | some (.utf8 bytes) => bytes == ModifiedUtf8.encode text
  | _ => false

/-- The name of the class at an index. -/
def className (pool : Pool) (index : UInt16) : Except Fault String :=
  match pool.get? index with
  | some (.classEntry name) => pool.text name
  | _ => .error (.invalidConstantIndex index (.entry .classEntry))

/-- The text of the string constant at an index. -/
def string (pool : Pool) (index : UInt16) : Except Fault String :=
  match pool.get? index with
  | some (.string value) => pool.text value
  | _ => .error (.invalidConstantIndex index (.entry .string))

/-- The name and the descriptor at an index. -/
def nameAndType (pool : Pool) (index : UInt16) : Except Fault (String × String) :=
  match pool.get? index with
  | some (.nameAndType name descriptor) => do
    let name ← pool.text name
    let descriptor ← pool.text descriptor
    return (name, descriptor)
  | _ => .error (.invalidConstantIndex index (.entry .nameAndType))

/-- The class and the name-and-type entry of a reference to a member. -/
def memberIndices : Constant → Option (UInt16 × UInt16)
  | .fieldRef owner member | .methodRef owner member | .interfaceMethodRef owner member =>
    some (owner, member)
  | _ => none

/-- The field or method that the entry at an index refers to. -/
def memberRef (pool : Pool) (index : UInt16) : Except Fault MemberRef :=
  match (pool.get? index).bind memberIndices with
  | some (owner, member) => do
    let (name, descriptor) ← pool.nameAndType member
    let owner ← pool.className owner
    return { owner, name, descriptor }
  | none => .error (.invalidConstantIndex index (.entry .memberReference))

end Pool

namespace Interning

/-- The index of a text. -/
def text (t : String) : Interning UInt16 := Pool.intern (.ofText t)

/-- The index of a class of the given name. -/
def classNamed (name : String) : Interning UInt16 := do
  Pool.intern (.classEntry (← text name))

/-- The index of a string constant. -/
def string (value : String) : Interning UInt16 := do
  Pool.intern (.string (← text value))

/-- The index of a name with a descriptor. -/
def nameAndType (name descriptor : String) : Interning UInt16 := do
  let name ← text name
  let descriptor ← text descriptor
  Pool.intern (.nameAndType name descriptor)

/-- The index of a reference to a member, made by `entry`. -/
def member (entry : UInt16 → UInt16 → Constant) (m : MemberRef) : Interning UInt16 := do
  let owner ← classNamed m.owner
  let member ← nameAndType m.name m.descriptor
  Pool.intern (entry owner member)

/-- The index of a reference to a field. -/
def fieldRef (m : MemberRef) : Interning UInt16 := member .fieldRef m

/-- The index of a reference to a method. -/
def methodRef (m : MemberRef) : Interning UInt16 := member .methodRef m

end Interning

end PatternGuard
