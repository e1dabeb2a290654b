import PatternGuard.Code.Opcode
import PatternGuard.Fault

/-!
# Why a class cannot be guarded

Guarding a class fails because the class is malformed, because the result could not be expressed,
because a marker gives no pattern, or because the class is guarded already.

Defines: `Obstacle`, `GuardError` and their messages.
-/

set_option autoImplicit false

namespace PatternGuard

open Text

/-- What stands in the way of a change that the format could not express or that would be unsound.
-/
inductive Obstacle where
  /-- An attribute of a method body that may hold offsets in an unknown form. -/
  | unknownAttribute (name : String)
  /-- An operand stack beyond what its field can express. -/
  | stackTooDeep
  /-- An instruction to insert that would jump or leave the method. -/
  | altersControlFlow (opcode : Opcode)
  /-- An offset at which no instruction begins. -/
  | notBoundary (offset : Nat)
  /-- A method body beyond the greatest length. -/
  | codeTooLong (length : Nat)
  /-- A jump into the middle of an instruction. -/
  | jumpInside (offset : Nat)
  /-- A jump whose target has moved out of reach. -/
  | jumpTooFar (opcode : Opcode) (offset : Nat)
  /-- A local variable whose range ends beyond the last offset. -/
  | variableRange (stop : Nat)
  /-- A marked element whose type has no references. -/
  | primitiveType (display : String)
  /-- A marked method that returns nothing. -/
  | returnsNothing
  /-- A check without any code. -/
  | emptyCheck
  /-- A reason that the emitter of checks gives. -/
  | refused (reason : String)
deriving DecidableEq, Repr

/-- How messages describe the obstacle. -/
def Obstacle.reason : Obstacle → String
  | unknownAttribute name => "cannot relocate offsets in the " ++ name ++ " attribute"
  | stackTooDeep => "operand stack would exceed 65535 slots"
  | altersControlFlow opcode => "injected " ++ opcode.mnemonic ++ " would alter control flow"
  | notBoundary offset => "offset " ++ toString offset ++ " is not an instruction boundary"
  | codeTooLong length => "code would grow to " ++ toString length ++ " bytes"
  | jumpInside offset => "jump at " ++ toString offset ++ " lands inside an instruction"
  | jumpTooFar opcode offset =>
    opcode.lowerMnemonic ++ " at " ++ toString offset ++ " no longer fits a 16-bit offset"
  | variableRange stop => "local variable range ends at " ++ toString stop
  | primitiveType display => "annotated element has primitive type " ++ display
  | returnsNothing => "annotated method returns void"
  | emptyCheck => "policy emitted no code to consume the checked value"
  | refused reason => reason

/-- Why a class cannot be guarded. -/
inductive GuardError where
  /-- The class, or the class that would result, is not well formed. -/
  | malformed (fault : Fault)
  /-- The change at a site cannot be made. -/
  | unsupported (site : String) (obstacle : Obstacle)
  /-- A marker without a pattern. -/
  | missingPattern (site : String)
  /-- The class of this name carries guards already. -/
  | alreadyGuarded (className : String)
deriving DecidableEq, Repr

/-- The message shown for an error. -/
def GuardError.message : GuardError → String
  | malformed fault => fault.message
  | unsupported site obstacle => "Cannot instrument " ++ site ++ ": " ++ obstacle.reason
  | missingPattern site => "Marker on " ++ site ++ " has no String \x60value\x60 element"
  | alreadyGuarded className => "Class " ++ className ++ " was already instrumented"

/-- The outcome of work on class data, as an outcome of guarding. -/
def GuardError.ofData {α : Type} : Except Fault α → Except GuardError α
  | .ok a => .ok a
  | .error fault => .error (.malformed fault)

end PatternGuard
