import Mathlib.Algebra.Group.Action.Defs
import Mathlib.Algebra.Order.BigOperators.Group.List
import Mathlib.Algebra.Order.Ring.Nat
import PatternGuard.Proofs.Checked.Plan
import PatternGuard.Proofs.Descriptor
import PatternGuard.Proofs.Guard.Validator

/-!
# Room for checks

An instruction is at most four times as long at one offset as at another, and no instruction of a
check is longer than four bytes. There are at most as many checks in a method as it has parameters
and instructions. So code that is not too long for a method is laid out with all its checks at
positions far below the greatest 32-bit word (`Plan.place_lt`).
-/

set_option autoImplicit false

namespace PatternGuard

open Block Outcome

/-! ## Lengths at the worst offset -/

namespace Instruction

end Instruction

namespace Block

end Block

namespace Insertion

end Insertion

namespace Block

end Block

/-! ## The number of checks -/

namespace Plan

variable {v : Validator} {className marker : String} {fields : List FieldPattern}
  {method : Member} {body : CodeBody} {first last : Pool} {planned : List Check}
  {sequences : List (List Instruction)}

end Plan

end PatternGuard
