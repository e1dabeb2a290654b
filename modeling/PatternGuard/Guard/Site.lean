import PatternGuard.Code.Instruction
import PatternGuard.Descriptor
import PatternGuard.Guard.Error
import PatternGuard.Pool.Lookup

/-!
# Sites and checks

A site is a marked parameter, returned value or field together with the pattern it must match. A
policy turns a site into the instructions of a check, which take one reference off the operand
stack.

Defines: `Site`, `Policy`, and `Validator`, the policy that calls a static method.
-/

set_option autoImplicit false

namespace PatternGuard

/-- What is checked at a site. -/
inductive SiteSubject where
  /-- A parameter, by position and by its local variable, at the entry of the method. -/
  | parameter (index : Nat) (slot : UInt16)
  /-- The returned value, before each return. -/
  | returned
  /-- The value of a field, before each store to it from the class that declares it. -/
  | field (name : String)
deriving DecidableEq, Repr

/-- A marked element with its pattern, and the method in which it is checked. -/
structure Site where
  className : String
  methodName : String
  kind : SiteSubject
  pattern : String
deriving DecidableEq, Repr

/-- A description of the site for a reader. -/
def Site.describe (s : Site) : String :=
  let owner := dotted s.className
  match s.kind with
  | .parameter index _ =>
    "parameter " ++ toString index ++ " of " ++ owner ++ "." ++ s.methodName
  | .returned => "return value of " ++ owner ++ "." ++ s.methodName
  | .field name => "field " ++ owner ++ "." ++ name

/-- A computation that emits code with new constants. -/
abbrev Emission := EStateM GuardError Pool

/-- How sites are checked. A policy is taken to have no state of its own, as a build step has none
between its units: what it emits is a function of the site and the pool. -/
structure Policy where
  /-- The instructions that take the checked reference off the operand stack. -/
  emit : Site → Emission (List Instruction)
  /-- The number of operand stack slots that a check needs, the copy of the checked reference
  included. -/
  depth : UInt16

/-- A static method that receives the checked value, the pattern and a description of the site. -/
structure Validator where
  className : String
  method : String
deriving DecidableEq, Repr

namespace Validator

/-- The descriptor of a validator method. -/
def descriptor : String := "(Ljava/lang/Object;Ljava/lang/String;Ljava/lang/String;)V"

/-- The reference to the validator method. -/
def reference (v : Validator) : MemberRef := ⟨v.className, v.method, descriptor⟩

/-- The instruction that loads the constant at an index, in its short form if the index permits. -/
def load (index : UInt16) : Instruction :=
  if index ≤ 255 then .ofOperand .ldc (.bytes [index.toUInt8]) else .constant .ldc_w index

/-- Loads the pattern and the description of a site and calls the validator. -/
def check (v : Validator) (site : Site) : Interning (List Instruction) := do
  let pattern ← Interning.string site.pattern
  let description ← Interning.string site.describe
  let method ← Interning.methodRef v.reference
  return [load pattern, load description, .constant .invokestatic method]

/-- The policy that calls the validator at every site. -/
def policy (v : Validator) : Policy where
  emit site := (v.check site).adaptExcept .malformed
  depth := 3

end Validator

end PatternGuard
