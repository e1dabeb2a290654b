import PatternGuard.Bytes.Word
import PatternGuard.Fault

/-!
# Reading bytes

A `Reader` consumes bytes from the front of its input and either delivers a value or reports a
fault. The input left over is available in both cases: a read that fails for want of bytes consumes
none of them.

Defines: `Input`, `Reader`, the reads of single words and blobs, the repetitions `times` and
`untilEnd`, and `table` for counted rows.
Proves: `take_append`, that a read of `n` bytes delivers the first `n` bytes of an input that has
them.
-/

set_option autoImplicit false

namespace PatternGuard

/-- Bytes not read yet, and the number of those read before them. -/
structure Input where
  rest : List UInt8
  position : Nat := 0
deriving DecidableEq, Repr

/-- A computation that consumes input and may fail. -/
abbrev Reader := EStateM Fault Input

namespace Reader

open Bytes

/-- The outcome of a reader on the given bytes, whatever it leaves unread. -/
def onBytes {α : Type} (p : Reader α) (bytes : List UInt8) : Except Fault α :=
  match p.run ⟨bytes, 0⟩ with
  | .ok a _ => .ok a
  | .error e _ => .error e

/-- Fails without reading. -/
def fail {α : Type} (e : Fault) : Reader α := fun s => .error e s

/-- The next `n` bytes; `context` names the structure they belong to. -/
def take (n : Nat) (context : String) : Reader (List UInt8) := fun s =>
  let (front, back) := s.rest.splitAt n
  if front.length = n then .ok front ⟨back, s.position + n⟩
  else .error (.truncated context s.position (n - front.length)) s

/-- Passes over `n` bytes. -/
def skip (n : Nat) (context : String) : Reader Unit := do
  let _ ← take n context

/-- Reads an unsigned number of `width` bytes. -/
def number (width : Nat) (context : String) : Reader Nat := do
  return ofBytes (← take width context)

/-- Reads one byte. -/
def u8 (context : String) : Reader UInt8 := do
  return UInt8.ofNat (← number 1 context)

/-- Reads an unsigned 16-bit word. -/
def u16 (context : String) : Reader UInt16 := do
  return UInt16.ofNat (← number 2 context)

/-- Reads an unsigned 32-bit word. -/
def u32 (context : String) : Reader UInt32 := do
  return UInt32.ofNat (← number 4 context)

/-- Reads a signed 16-bit word. -/
def i16 (context : String) : Reader Int16 := do
  return (← u16 context).toInt16

/-- Reads a signed 32-bit word. -/
def i32 (context : String) : Reader Int32 := do
  return (← u32 context).toInt32

/-- Reads a 16-bit count or index as a number. -/
def count16 (context : String) : Reader Nat := number 2 context

/-- Reads a byte sequence that is preceded by its length in 32 bits. -/
def blob (context : String) : Reader (List UInt8) := do
  take (← number 4 context) context

/-- The number of bytes read so far. -/
def position : Reader Nat := fun s => .ok s.position s

/-- The number of bytes not read yet. -/
def remaining : Reader Nat := fun s => .ok s.rest.length s

/-- Whether all bytes have been read. -/
def atEnd : Reader Bool := fun s => .ok s.rest.isEmpty s

/-- Fails with a fault made from the number of unread bytes, if there are any. -/
def expectEnd (fault : Nat → Fault) : Reader Unit := do
  unless ← atEnd do
    fail (fault (← remaining))

/-- Reads `n` items in a row, in front of those that `done` holds in reverse. -/
def timesAfter {α : Type} (p : Reader α) : Nat → List α → Reader (List α)
  | 0, done => pure done.reverse
  | n + 1, done => do timesAfter p n ((← p) :: done)

/-- Reads `n` items in a row. -/
def times {α : Type} (n : Nat) (p : Reader α) : Reader (List α) := timesAfter p n []

/-- Reads items to the end of the input, at most `fuel` of them. -/
def untilEndAfter {α : Type} (p : Reader α) : Nat → List α → Reader (List α)
  | 0, done => pure done.reverse
  | fuel + 1, done => do
    if ← atEnd then return done.reverse
    untilEndAfter p fuel ((← p) :: done)

/-- Reads items to the end of the input. One item takes at least one byte, so that there are no more
items than bytes. -/
def untilEnd {α : Type} (p : Reader α) : Reader (List α) := fun s =>
  untilEndAfter p s.rest.length [] s

/-- Reads a table, a counted list of rows, to the end of the input. -/
def table {α : Type} (name : String) (row : Reader α) : Reader (List α) := do
  let rows ← times (← count16 name) row
  expectEnd fun n => .malformedAttribute name (.trailing n)
  return rows

theorem take_append (front back : List UInt8) (position : Nat) (context : String) :
    take front.length context ⟨front ++ back, position⟩ =
      .ok front ⟨back, position + front.length⟩ := by
  simp [take, List.splitAt_eq]

end Reader

end PatternGuard
