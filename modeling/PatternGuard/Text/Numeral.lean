/-!
# Numerals

Decimal and hexadecimal numerals as the messages and listings of this library write them.

Defines: `hex`, `zeroPadded`, `hexByte`, `hexMarked`, `signed`, `byteList`.
-/

set_option autoImplicit false

namespace PatternGuard.Text

/-- Lower-case hexadecimal digits of `n`, without leading zeros. -/
def hex (n : Nat) : String := String.ofList (Nat.toDigits 16 n)

/-- The text with zeros in front, so that it has at least `width` characters. -/
def zeroPadded (width : Nat) (digits : String) : String :=
  String.ofList (List.replicate (width - digits.length) '0') ++ digits

/-- The two hexadecimal digits of a byte. -/
def hexByte (b : UInt8) : String := zeroPadded 2 (hex b.toNat)

/-- Hexadecimal numeral after the mark `0x`, with at least `width` digits. -/
def hexMarked (width n : Nat) : String := "0x" ++ zeroPadded width (hex n)

/-- Decimal numeral that always shows its sign; zero counts as positive. -/
def signed (n : Int) : String :=
  if n < 0 then toString n else "+" ++ toString n

/-- Bytes as a bracketed list of two-digit hexadecimal numerals. -/
def byteList (bytes : List UInt8) : String :=
  "[" ++ ", ".intercalate (bytes.map hexByte) ++ "]"

end PatternGuard.Text
