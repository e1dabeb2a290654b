import PatternGuard.Pool.Lookup

/-!
# Attributes

An attribute is a name and a body. Bodies are kept as bytes and decoded where they are looked at, so
that what is not looked at stays as it is.

Defines: `Attribute`, reading and writing of attribute lists, and the names of the attributes that
this library knows.
-/

set_option autoImplicit false

namespace PatternGuard

open Bytes

/-- An attribute: the constant pool index of its name, and its body. -/
structure Attribute where
  nameIndex : UInt16
  info : List UInt8
deriving DecidableEq, Repr

namespace Attribute

/-- The name of the attribute. -/
def name (a : Attribute) (pool : Pool) : Except Fault String := pool.text a.nameIndex

/-- Whether the attribute has the given name. -/
def isNamed (a : Attribute) (pool : Pool) (name : String) : Bool := pool.isText a.nameIndex name

/-- The structure that faults in the bytes of attributes are reported for. -/
def context : String := "attribute"

/-- Reads one attribute. -/
def decode : Reader Attribute := do
  let nameIndex ← Reader.u16 context
  let info ← Reader.blob context
  return { nameIndex, info }

/-- Reads a list of attributes after its count. -/
def decodeList : Reader (List Attribute) := do
  Reader.times (← Reader.count16 context) decode

/-- The bytes of one attribute. -/
def encode (a : Attribute) : Except Fault (List UInt8) := do
  return u16Bytes a.nameIndex ++ (← blob a.info "attribute bytes")

/-- The bytes of a list of attributes, with its count. -/
def encodeList (attributes : List Attribute) : Except Fault (List UInt8) :=
  counted "attributes" encode attributes

/-- Name of the attribute with the body of a method. -/
def codeName : String := "Code"

/-- Name of the attribute with the stack map frames of a method body. -/
def stackMapName : String := "StackMapTable"

/-- Name of the attribute with the line numbers of a method body. -/
def lineNumbersName : String := "LineNumberTable"

/-- Name of the attribute with the local variables of a method body and their descriptors. -/
def localVariablesName : String := "LocalVariableTable"

/-- Name of the attribute with the local variables of a method body and their signatures. -/
def localVariableTypesName : String := "LocalVariableTypeTable"

/-- Name of the attribute with the annotations that are visible at run time. -/
def visibleAnnotationsName : String := "RuntimeVisibleAnnotations"

/-- Name of the attribute with the annotations that are not visible at run time. -/
def invisibleAnnotationsName : String := "RuntimeInvisibleAnnotations"

/-- Name of the attribute with the parameter annotations that are visible at run time. -/
def visibleParameterAnnotationsName : String := "RuntimeVisibleParameterAnnotations"

/-- Name of the attribute with the parameter annotations that are not visible at run time. -/
def invisibleParameterAnnotationsName : String := "RuntimeInvisibleParameterAnnotations"

end Attribute

end PatternGuard
