import PatternGuard.Guard.Insert
import PatternGuard.Guard.Plan

/-!
# Guarding a class

The methods of a class are taken in order. In each, the checks of all its sites are emitted and
inserted. A class with at least one check gets an attribute that says so, and a class that has the
attribute is refused, so that no class is guarded twice.

Defines: `Guarding`, the state of the work, and `Guarding.guardClass`.
-/

set_option autoImplicit false

namespace PatternGuard

/-- The class under work, and the sites for which checks were asked, in order. -/
structure Progress where
  file : ClassFile
  asked : Array Site

/-- Work on a class that may fail; what was done before a failure stays. -/
abbrev Guarding := EStateM GuardError Progress

/-- What was done to a class. -/
structure Report where
  /-- The number of checks. -/
  sites : Nat
  /-- The number of methods with checks. -/
  methods : Nat
deriving DecidableEq, Repr

/-- Whether anything was done. -/
def Report.changed (r : Report) : Bool := 0 < r.sites

namespace Guarding

/-- The name of the attribute of guarded classes. -/
def guardedName : String := "ClassweaveInstrumented"

/-- Continues with the outcome of a computation. -/
def ofExcept {α : Type} : Except GuardError α → Guarding α
  | .ok a => pure a
  | .error e => throw e

/-- Continues with the outcome of work on class data. -/
def ofData {α : Type} (outcome : Except Fault α) : Guarding α :=
  ofExcept (GuardError.ofData outcome)

/-- Lets a computation add constants to the pool of the class. -/
def emitting {α : Type} (action : Emission α) : Guarding α := fun p =>
  let pool := p.file.pool
  let p := { p with file.pool := .empty }
  match action pool with
  | .ok a pool => .ok a { p with file.pool := pool }
  | .error e pool => .error e { p with file.pool := pool }

/-- The constant pool of the class. -/
def pool : Guarding Pool := fun p => .ok p.file.pool p

/-- The check of a planned site, ready to be inserted. -/
def insertion (policy : Policy) (planned : Check) : Guarding Insertion := do
  modify fun p => { p with asked := p.asked.push planned.site }
  let check ← emitting (policy.emit planned.site)
  if check.isEmpty then throw (.unsupported planned.site.describe .emptyCheck)
  return { offset := planned.offset, catchesJumps := planned.catchesJumps,
           code := planned.load :: check }

/-- Inserts the checks of a method with a body, and adds them to the report. -/
def guardBody (policy : Policy) (className marker : String) (fields : List FieldPattern)
    (report : Report) (index : Nat) (method : Member) (body : CodeBody) : Guarding Report := do
  let before ← pool
  let planned ← ofExcept (Plan.ofMethod className marker fields before method body)
  if planned.isEmpty then return report
  let name ← ofData (method.name before)
  let descriptor ← ofData (method.descriptor before)
  let label := dotted className ++ "." ++ name ++ descriptor
  let insertions ← planned.mapM (insertion policy)
  let after ← pool
  let body ← ofExcept (body.withInsertions after insertions policy.depth label)
  let method ← ofData (method.setBody after body)
  modify fun p => { p with file.methods := p.file.methods.set index method }
  return { sites := report.sites + planned.length, methods := report.methods + 1 }

/-- Inserts the checks of a method, and adds them to the report. -/
def guardMethod (policy : Policy) (className marker : String) (fields : List FieldPattern)
    (report : Report) (item : Member × Nat) : Guarding Report := do
  match ← ofData (item.1.body? (← pool)) with
  | none => return report
  | some body => guardBody policy className marker fields report item.2 item.1 body

/-- Adds the attribute of guarded classes. -/
def markGuarded : Guarding Unit := do
  let nameIndex ← emitting ((Interning.text guardedName).adaptExcept .malformed)
  modify fun p =>
    { p with file.attributes := p.file.attributes ++ [{ nameIndex, info := [] }] }

/-- Inserts the checks that a policy emits for the elements with a marker, which is given by the
descriptor of its annotation type. -/
def guardClass (policy : Policy) (marker : String) : Guarding Report := do
  let file := (← get).file
  if file.isModule then return ⟨0, 0⟩
  let className ← ofData file.name
  if (file.attribute? guardedName).isSome then throw (.alreadyGuarded (dotted className))
  let fields ← ofExcept (Plan.markedFields file className marker)
  let report ← file.methods.zipIdx.foldlM (guardMethod policy className marker fields) ⟨0, 0⟩
  if report.changed then markGuarded
  return report

end Guarding

end PatternGuard
