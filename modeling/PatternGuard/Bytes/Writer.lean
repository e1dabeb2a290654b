import PatternGuard.Bytes.Word
import PatternGuard.Fault

/-!
# Writing bytes

What is written is a byte list. Counts and lengths go into fields of fixed width, so that writing
can fail; the fault names what there was too much of.

Defines: `count16`, `blob` and `each`, the concatenation of the encodings of a list.
-/

set_option autoImplicit false

namespace PatternGuard.Bytes

/-- A count as a 16-bit word, or a fault if it does not fit. -/
def count16 (count : Nat) (what : String) : Except Fault (List UInt8) :=
  if count < 65536 then .ok (toBytes 2 count) else .error (.tooMany what count)

/-- The bytes after their length as a 32-bit word, or a fault if it does not fit. -/
def blob (bytes : List UInt8) (what : String) : Except Fault (List UInt8) :=
  let length := bytes.length
  if length < 4294967296 then .ok (toBytes 4 length ++ bytes) else .error (.tooMany what length)

/-- The encodings of the items, one after the other; the first fault ends the writing. -/
def each {α : Type} (encode : α → Except Fault (List UInt8)) (items : List α) :
    Except Fault (List UInt8) :=
  (items.mapM encode).map List.flatten

/-- A 16-bit count followed by the encodings of the items counted. -/
def counted {α : Type} (what : String) (encode : α → Except Fault (List UInt8))
    (items : List α) : Except Fault (List UInt8) := do
  let count ← count16 items.length what
  let body ← each encode items
  return count ++ body

end PatternGuard.Bytes
