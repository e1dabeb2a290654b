import PatternGuard.Fault
import PatternGuard.Text.Utf16

/-!
# Modified UTF-8

The text encoding of class files. Each 16-bit code unit is written on its own, in one to three
bytes, and NUL in two, so that no byte is zero. Longer forms than necessary are accepted when read.

Defines: `encode` and `decode`.
-/

set_option autoImplicit false

namespace PatternGuard.Text.ModifiedUtf8

/-- The bytes of one code unit. -/
def encodeUnit (u : UInt16) : List UInt8 :=
  let n := u.toNat
  if 0x01 ≤ n && n ≤ 0x7F then [UInt8.ofNat n]
  else if n ≤ 0x7FF then [UInt8.ofNat (0xC0 + n / 64), UInt8.ofNat (0x80 + n % 64)]
  else
    [UInt8.ofNat (0xE0 + n / 4096), UInt8.ofNat (0x80 + n / 64 % 64),
      UInt8.ofNat (0x80 + n % 64)]

/-- The bytes of a text. -/
def encode (text : String) : List UInt8 := (units text.toList).flatMap encodeUnit

/-- Whether the byte continues a code unit. -/
def isContinuation (b : UInt8) : Bool := 0x80 ≤ b && b ≤ 0xBF

/-- The code unit of a first byte in C0 to DF and one continuation. -/
def unitOfTwo (b c : UInt8) : UInt16 :=
  UInt16.ofNat (b.toNat % 32 * 64 + c.toNat % 64)

/-- The code unit of a first byte in E0 to EF and two continuations. -/
def unitOfThree (b c d : UInt8) : UInt16 :=
  UInt16.ofNat (b.toNat % 16 * 4096 + c.toNat % 64 * 64 + d.toNat % 64)

/-- The code units of the bytes that begin at offset `position`, after those that `done` holds in
reverse. A fault names the first byte that is missing or out of place. -/
def unitsAfter (position : Nat) (done : List UInt16) : List UInt8 → Except Fault (List UInt16)
  | [] => .ok done.reverse
  | b :: rest =>
    if 0x01 ≤ b && b ≤ 0x7F then unitsAfter (position + 1) (b.toUInt16 :: done) rest
    else if 0xC0 ≤ b && b ≤ 0xDF then
      match rest with
      | [] => .error (.invalidUtf8 (position + 1))
      | c :: rest =>
        if isContinuation c then unitsAfter (position + 2) (unitOfTwo b c :: done) rest
        else .error (.invalidUtf8 (position + 1))
    else if 0xE0 ≤ b && b ≤ 0xEF then
      match rest with
      | [] => .error (.invalidUtf8 (position + 1))
      | [c] =>
        if isContinuation c then .error (.invalidUtf8 (position + 2))
        else .error (.invalidUtf8 (position + 1))
      | c :: d :: rest =>
        if isContinuation c then
          if isContinuation d then unitsAfter (position + 3) (unitOfThree b c d :: done) rest
          else .error (.invalidUtf8 (position + 2))
        else .error (.invalidUtf8 (position + 1))
    else .error (.invalidUtf8 position)

/-- The text that the bytes encode. -/
def decode (bytes : List UInt8) : Except Fault String := do
  return String.ofList (ofUnits (← unitsAfter 0 [] bytes))

end PatternGuard.Text.ModifiedUtf8
