/-!
# Text as 16-bit code units

A character up to U+FFFF is one unit, any other is a pair of surrogates. In the other direction
every unit sequence is text: a surrogate without its partner becomes the replacement character.

Defines: `units` and its inverse up to replacement, `ofUnits`.
-/

set_option autoImplicit false

namespace PatternGuard.Text

/-- The code units of one character. -/
def charUnits (c : Char) : List UInt16 :=
  let n := c.toNat
  if n < 0x10000 then [UInt16.ofNat n]
  else
    let m := n - 0x10000
    [UInt16.ofNat (0xD800 + m / 0x400), UInt16.ofNat (0xDC00 + m % 0x400)]

/-- The code units of a text. -/
def units (text : List Char) : List UInt16 := text.flatMap charUnits

/-- Whether the unit is the first half of a surrogate pair. -/
def isHighSurrogate (u : UInt16) : Bool := 0xD800 ≤ u && u ≤ 0xDBFF

/-- Whether the unit is the second half of a surrogate pair. -/
def isLowSurrogate (u : UInt16) : Bool := 0xDC00 ≤ u && u ≤ 0xDFFF

/-- What stands for a surrogate without its partner. -/
def replacement : Char := '\ufffd'

/-- The character of a surrogate pair. -/
def pairChar (high low : UInt16) : Char :=
  Char.ofNat (0x10000 + (high.toNat - 0xD800) * 0x400 + (low.toNat - 0xDC00))

/-- The characters of a unit sequence, after those that `done` holds in reverse. -/
def ofUnitsAfter (done : List Char) : List UInt16 → List Char
  | [] => done.reverse
  | [u] =>
    let c := if isHighSurrogate u || isLowSurrogate u then replacement else Char.ofNat u.toNat
    (c :: done).reverse
  | u :: v :: rest =>
    if isHighSurrogate u then
      if isLowSurrogate v then ofUnitsAfter (pairChar u v :: done) rest
      else ofUnitsAfter (replacement :: done) (v :: rest)
    else if isLowSurrogate u then ofUnitsAfter (replacement :: done) (v :: rest)
    else ofUnitsAfter (Char.ofNat u.toNat :: done) (v :: rest)

/-- The characters of a unit sequence. -/
def ofUnits (us : List UInt16) : List Char := ofUnitsAfter [] us

end PatternGuard.Text
