import PatternGuard.ClassFile.Basic
import PatternGuard.Guard.Site

/-!
# Finding the sites of a class

A marker is an annotation with a pattern as its `value`. A marked parameter is checked at the entry
of its method, a marked method before each return of a reference, and a marked field before each
store to it in its own class.

Defines: `Check`, `FieldPattern`, `Plan.markedFields` and `Plan.ofMethod`.
-/

set_option autoImplicit false

namespace PatternGuard

/-- A site with the place in a method body where it is checked. -/
structure Check where
  offset : Nat
  /-- Whether jumps to the offset go through the check. -/
  catchesJumps : Bool
  /-- Pushes the reference that is checked. -/
  load : Instruction
  site : Site
deriving DecidableEq, Repr

/-- A marked field with its pattern. -/
structure FieldPattern where
  name : String
  descriptor : String
  pattern : String
deriving DecidableEq, Repr

/-- The pattern of a field; of two declarations of one field, the last counts. The patterns are
those of the declarations from last to first. -/
def FieldPattern.lookup? (patterns : List FieldPattern) (name descriptor : String) :
    Option String :=
  (patterns.find? fun p => p.name = name ∧ p.descriptor = descriptor).map FieldPattern.pattern

namespace Plan

/-- The name of the element that holds the pattern of a marker. -/
def patternElement : String := "value"

/-- The pattern of the first marker among annotations, if there is a marker. -/
def patternOfMarker (annotations : List Annotation) (pool : Pool) (marker site : String) :
    Except GuardError (Option String) :=
  match annotations.find? fun a => a.isType pool marker with
  | none => .ok none
  | some a => do
    match ← GuardError.ofData (a.textUnder? pool patternElement) with
    | some pattern => return some pattern
    | none => throw (.missingPattern site)

/-- Fails for a type without references. -/
def expectReference (type : FieldType) (site : String) : Except GuardError Unit :=
  if type.isReference then .ok () else .error (.unsupported site (.primitiveType type.display))

/-- The pattern of a field, if it is marked. -/
def ofField (className marker : String) (pool : Pool) (field : Member) :
    Except GuardError (Option FieldPattern) := do
  let name ← GuardError.ofData (field.name pool)
  let label := "field " ++ dotted className ++ "." ++ name
  let annotations ← GuardError.ofData (field.annotations pool)
  match ← patternOfMarker annotations pool marker label with
  | none => return none
  | some pattern =>
    let descriptor ← GuardError.ofData (field.descriptor pool)
    let type ← GuardError.ofData (FieldType.parse descriptor)
    expectReference type label
    return some { name, descriptor, pattern }

/-- The marked fields of a class, from the last to the first. -/
def markedFields (c : ClassFile) (className marker : String) :
    Except GuardError (List FieldPattern) := do
  let found ← c.fields.mapM (ofField className marker c.pool)
  return (found.filterMap id).reverse

/-- What the sites of one method have in common. -/
structure MethodContext where
  className : String
  methodName : String
  type : MethodType
  /-- Local variables of the parameters. -/
  slots : List UInt16
  pool : Pool
  marker : String

namespace MethodContext

/-- How messages name the method. -/
def label (m : MethodContext) : String := "method " ++ dotted m.className ++ "." ++ m.methodName

/-- A site in the method. -/
def site (m : MethodContext) (kind : SiteSubject) (pattern : String) : Site :=
  { className := m.className, methodName := m.methodName, kind, pattern }

/-- The check of the parameter at a position, if it is marked. -/
def parameterCheck (m : MethodContext) (annotations : List Annotation) (type : FieldType)
    (slot : UInt16) (index : Nat) : Except GuardError (Option Check) := do
  let label := "parameter " ++ toString index ++ " of " ++ m.label
  match ← patternOfMarker annotations m.pool m.marker label with
  | none => return none
  | some pattern =>
    expectReference type label
    return some
      { offset := 0, catchesJumps := false, load := .loadLocal slot
        site := m.site (.parameter index slot) pattern }

/-- The checks of all marked parameters, in order. -/
def parameterChecks (m : MethodContext) (annotations : List (List Annotation)) :
    Except GuardError (List Check) := do
  let parameters := (annotations.zip (m.type.parameters.zip m.slots)).zipIdx
  let found ← parameters.mapM fun ((annotations, type, slot), index) =>
    m.parameterCheck annotations type slot index
  return found.filterMap id

/-- The pattern of the returned value, if the method is marked. -/
def returnedPattern (m : MethodContext) (annotations : List Annotation) :
    Except GuardError (Option String) := do
  match ← patternOfMarker annotations m.pool m.marker m.label with
  | none => return none
  | some pattern =>
    match m.type.returns with
    | some type => expectReference type m.label
    | none => throw (.unsupported m.label .returnsNothing)
    return some pattern

/-- What is checked before an instruction, and the pattern for it. -/
def guardSubject (m : MethodContext) (returned : Option String) (fields : List FieldPattern)
    (i : Instruction) : Except GuardError (Option (SiteSubject × String)) :=
  match i.opcode with
  | .areturn => .ok (returned.map fun pattern => (.returned, pattern))
  | .putfield | .putstatic =>
    match i.poolIndex? with
    | none => .ok none
    | some index => do
      let target ← GuardError.ofData (m.pool.memberRef index)
      if target.owner = m.className then
        return (FieldPattern.lookup? fields target.name target.descriptor).map
          fun pattern => (.field target.name, pattern)
      else return none
  | _ => .ok none

/-- The check before an instruction, if there is one. -/
def guardCheck (m : MethodContext) (returned : Option String) (fields : List FieldPattern)
    (i : Instruction) : Except GuardError (Option Check) := do
  return (← m.guardSubject returned fields i).map fun (kind, pattern) =>
    { offset := i.offset, catchesJumps := true, load := .simple .dup
      site := m.site kind pattern }

end MethodContext

/-- The checks in a method: those of its parameters in order, then the others by offset. -/
def ofMethod (className marker : String) (fields : List FieldPattern) (pool : Pool)
    (method : Member) (body : CodeBody) : Except GuardError (List Check) := do
  let methodName ← GuardError.ofData (method.name pool)
  let descriptor ← GuardError.ofData (method.descriptor pool)
  let type ← GuardError.ofData (MethodType.parse descriptor)
  let slots := type.parameterSlots method.isStatic
  let m : MethodContext := { className, methodName, type, slots, pool, marker }
  let annotations ← GuardError.ofData
    (method.parameterAnnotations pool type.parameters.length)
  let parameters ← m.parameterChecks annotations
  let own ← GuardError.ofData (method.annotations pool)
  let returned ← m.returnedPattern own
  if returned.isNone && fields.isEmpty then return parameters
  let instructions ← GuardError.ofData body.instructions
  let guards ← instructions.mapM (m.guardCheck returned fields)
  return parameters ++ guards.filterMap id

end Plan

end PatternGuard
