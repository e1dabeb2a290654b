import PatternGuard.Fault

/-!
# Descriptors

The texts by which class files write the types of fields and methods.

Defines: `FieldType` and `MethodType`, the text of a type, parsing of both, how a type is shown to a
reader, and the local variables that parameters take.
Proves: `length_parsePrefix`, that parsing one type leaves less text.
-/

set_option autoImplicit false

namespace PatternGuard

/-- The primitive types. -/
inductive BaseType where
  | byte
  | char
  | double
  | float
  | int
  | long
  | short
  | boolean
deriving DecidableEq, Repr

namespace BaseType

/-- Every primitive type. -/
def all : List BaseType := [byte, char, double, float, int, long, short, boolean]

/-- The letter of the type in descriptors. -/
def letter : BaseType → Char
  | byte => 'B'
  | char => 'C'
  | double => 'D'
  | float => 'F'
  | int => 'I'
  | long => 'J'
  | short => 'S'
  | boolean => 'Z'

/-- The type of a letter, if it is that of a primitive type. -/
def ofLetter? (c : Char) : Option BaseType := all.find? (·.letter = c)

/-- The name of the type. -/
def name : BaseType → String
  | byte => "byte"
  | char => "char"
  | double => "double"
  | float => "float"
  | int => "int"
  | long => "long"
  | short => "short"
  | boolean => "boolean"

end BaseType

/-- The type of a field, a parameter or a returned value. -/
inductive FieldType where
  | base (type : BaseType)
  /-- Objects of a class, whose name has slashes between its parts. -/
  | object (name : String)
  | array (element : FieldType)
deriving DecidableEq, Repr

/-- Class names with dots in place of slashes. -/
def dotted (name : String) : String := name.map fun c => if c = '/' then '.' else c

/-- Class names with slashes in place of dots. -/
def slashed (name : String) : String := name.map fun c => if c = '.' then '/' else c

namespace FieldType

/-- The descriptor of a type. -/
def descriptor : FieldType → String
  | base type => type.letter.toString
  | object name => "L" ++ name ++ ";"
  | array element => "[" ++ element.descriptor

/-- The type as it is shown to a reader. -/
def display : FieldType → String
  | base type => type.name
  | object name => dotted name
  | array element => element.display ++ "[]"

/-- The number of dimensions of an array; zero for all other types. -/
def dimensions : FieldType → Nat
  | base _ | object _ => 0
  | array element => element.dimensions + 1

/-- The type under all array dimensions. -/
def innermost : FieldType → FieldType
  | array element => element.innermost
  | type => type

/-- Whether values of the type are references. -/
def isReference : FieldType → Bool
  | base _ => false
  | object _ | array _ => true

/-- The number of local variables that a value of the type takes. -/
def slots : FieldType → Nat
  | base .long | base .double => 2
  | _ => 1

/-- The type at the front of a text, and the text after it. -/
def parsePrefix : List Char → Option (FieldType × List Char)
  | [] => none
  | '[' :: rest => (parsePrefix rest).map fun (element, rest) => (array element, rest)
  | 'L' :: rest =>
    match rest.takeWhile (· ≠ ';'), rest.dropWhile (· ≠ ';') with
    | c :: name, _ :: rest => some (object (String.ofList (c :: name)), rest)
    | _, _ => none
  | c :: rest => (BaseType.ofLetter? c).map fun type => (base type, rest)

theorem length_parsePrefix {text rest : List Char} {type : FieldType}
    (h : parsePrefix text = some (type, rest)) : rest.length < text.length := by
  fun_induction parsePrefix text generalizing type rest with
  | case1 => simp at h
  | case2 tail ih =>
    obtain ⟨⟨t, r⟩, hr, he⟩ := Option.map_eq_some_iff.1 h
    have := ih hr
    simp at he
    obtain ⟨_, rfl⟩ := he
    simp
    omega
  | case3 tail c name d back hd _ =>
    simp at h
    obtain ⟨_, rfl⟩ := h
    have hs := (List.dropWhile_suffix (l := tail) fun x => decide (x ≠ ';')).length_le
    rw [hd] at hs
    simp at hs ⊢
    omega
  | case4 => simp at h
  | case5 =>
    obtain ⟨t, _, he⟩ := Option.map_eq_some_iff.1 h
    simp at he
    simp [he.2]

/-- The type that a descriptor describes. -/
def parse (text : String) : Except Fault FieldType :=
  match parsePrefix text.toList with
  | some (type, []) => .ok type
  | _ => .error (.invalidDescriptor text)

/-- The types that stand one after the other in a text, after those that `done` holds in reverse. -/
def parseAllAfter (done : List FieldType) (text : List Char) : Option (List FieldType) :=
  match text with
  | [] => some done.reverse
  | c :: text =>
    match h : parsePrefix (c :: text) with
    | none => none
    | some (type, rest) =>
      have := length_parsePrefix h
      parseAllAfter (type :: done) rest
termination_by text.length
decreasing_by exact this

/-- The types that stand one after the other in a text. -/
def parseAll (text : List Char) : Option (List FieldType) := parseAllAfter [] text

end FieldType

/-- The type of a method. -/
structure MethodType where
  parameters : List FieldType
  /-- The type of the returned value; nothing if none is returned. -/
  returns : Option FieldType
deriving DecidableEq, Repr

namespace MethodType

/-- The types after the parameters. -/
def parseReturn (text : List Char) : Option (Option FieldType) :=
  match text with
  | ['V'] => some none
  | _ =>
    match FieldType.parsePrefix text with
    | some (type, []) => some (some type)
    | _ => none

/-- The type that a list of characters describes. The parameters end at the first closing
bracket. -/
def parseChars : List Char → Option MethodType
  | '(' :: text =>
    match text.dropWhile (· ≠ ')') with
    | [] => none
    | _ :: rest => do
      let parameters ← FieldType.parseAll (text.takeWhile (· ≠ ')'))
      let returns ← parseReturn rest
      return { parameters, returns }
  | _ => none

/-- The type that a descriptor describes. -/
def parse (text : String) : Except Fault MethodType :=
  match parseChars text.toList with
  | some type => .ok type
  | none => .error (.invalidDescriptor text)

/-- The first local variable of each of the types, if the first free one is `slot`, after those that
`done` holds in reverse. A local variable is numbered by a word of 16 bits, which wraps. -/
def slotsAfter (done : List UInt16) (slot : UInt16) : List FieldType → List UInt16
  | [] => done.reverse
  | type :: rest => slotsAfter (slot :: done) (slot + UInt16.ofNat type.slots) rest

/-- The first local variable of each parameter. In an instance method the receiver has the first. -/
def parameterSlots (type : MethodType) (isStatic : Bool) : List UInt16 :=
  slotsAfter [] (if isStatic then 0 else 1) type.parameters

end MethodType

end PatternGuard
