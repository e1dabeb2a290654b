/-!
# Shortest decimals of binary floating-point numbers

A floating-point number is written with the fewest decimal digits that are read back as the same
number, and among those with the digits nearest to it. Everything is computed on natural numbers.

Defines: `Format`, the layout of a binary format; `Value`, what its bits stand for; `shortest`, the
decimal of a finite value; and `positional`, a decimal without exponent.
-/

set_option autoImplicit false

namespace PatternGuard.Decimal

/-- The layout of a binary floating-point format. -/
structure Format where
  fractionBits : Nat
  exponentBits : Nat

/-- The format of 32 bits. -/
def Format.single : Format := ⟨23, 8⟩

/-- The format of 64 bits. -/
def Format.double : Format := ⟨52, 11⟩

/-- A finite positive number `significand * 2 ^ exponent`. -/
structure Binary where
  significand : Nat
  exponent : Int
  /-- Whether the next smaller number is nearer than the next greater one. -/
  closeBelow : Bool
deriving DecidableEq, Repr

/-- What the bits of a floating-point number stand for. -/
inductive Value where
  | nan
  | infinite (negative : Bool)
  | zero (negative : Bool)
  | finite (negative : Bool) (number : Binary)
deriving DecidableEq, Repr

/-- What the given bits stand for. -/
def Format.value (format : Format) (bits : Nat) : Value :=
  let unit := Nat.pow 2 format.fractionBits
  let fields := Nat.pow 2 format.exponentBits
  let fraction := bits % unit
  let field := bits / unit % fields
  let negative := bits / unit / fields % 2 = 1
  let bias : Int := fields / 2 - 1
  if field = fields - 1 then
    if fraction = 0 then .infinite negative else .nan
  else if field = 0 then
    if fraction = 0 then .zero negative
    else .finite negative ⟨fraction, 1 - bias - format.fractionBits, false⟩
  else
    .finite negative
      ⟨unit + fraction, field - bias - format.fractionBits, fraction = 0 && field ≠ 1⟩

/-- The decimal number `digits * 10 ^ exponent`. -/
structure Numeral where
  digits : Nat
  exponent : Int
deriving DecidableEq, Repr

/-- The fraction `numerator / denominator` that takes quarters of the last place of `x` to units of
`10 ^ k`. -/
def Binary.quarters (x : Binary) (k : Int) : Nat × Nat :=
  let q := x.exponent - 2
  (Nat.pow 2 q.toNat * Nat.pow 10 (-k).toNat, Nat.pow 2 (-q).toNat * Nat.pow 10 k.toNat)

/-- Whether `n * 10 ^ k` is read back as `x`. The ends of the interval belong to it if the
significand is even. -/
def Binary.readsBack (x : Binary) (k : Int) (n : Nat) : Bool :=
  let (numerator, denominator) := x.quarters k
  let low := (4 * x.significand - if x.closeBelow then 1 else 2) * numerator
  let high := (4 * x.significand + 2) * numerator
  let n := n * denominator
  if x.significand % 2 = 0 then low ≤ n && n ≤ high else low < n && n < high

/-- The multiple of `10 ^ k` that is read back as `x` and nearest to it, if there is one; of two
that are equally near, the greater. -/
def Binary.onGrid (x : Binary) (k : Int) : Option Nat :=
  let (numerator, denominator) := x.quarters k
  let exact := 4 * x.significand * numerator
  let below := exact / denominator
  match x.readsBack k below, x.readsBack k (below + 1) with
  | true, true =>
    some (if denominator ≤ 2 * (exact - below * denominator) then below + 1 else below)
  | true, false => some below
  | false, true => some (below + 1)
  | false, false => none

/-- The decimal on the coarsest of the grids `10 ^ k`, `10 ^ (k - 1)`, … that has one. -/
def Binary.search (x : Binary) : Nat → Int → Numeral
  | 0, k => ⟨(x.onGrid k).getD 0, k⟩
  | fuel + 1, k =>
    match x.onGrid k with
    | some n => ⟨n, k⟩
    | none => x.search fuel (k - 1)

/-- An exponent of ten for which `10 ^ k` is greater than `x` and all that is read back as `x`. -/
def Binary.ceiling (x : Binary) : Int :=
  (x.exponent + x.significand.log2 + 2) * 30103 / 100000 + 1

/-- The decimal with the fewest digits that is read back as `x`. Twenty digits always suffice, and
the search begins at most two places too high. -/
def Binary.shortest (x : Binary) : Numeral := x.search 24 x.ceiling

/-- The decimal written without exponent and without a point that nothing follows. -/
def Numeral.positional (d : Numeral) : String :=
  let digits := (toString d.digits).toList
  let zeros (n : Nat) := List.replicate n '0'
  if 0 ≤ d.exponent then String.ofList (digits ++ zeros d.exponent.toNat)
  else
    let places := (-d.exponent).toNat
    let padded := zeros (places + 1 - digits.length) ++ digits
    let whole := padded.length - places
    String.ofList (padded.take whole ++ '.' :: padded.drop whole)

/-- The sign of a number as it is written. -/
def sign (negative : Bool) : String := if negative then "-" else ""

/-- How a floating-point number is written. -/
def Value.text : Value → String
  | nan => "NaN"
  | infinite negative => sign negative ++ "inf"
  | zero negative => sign negative ++ "0"
  | finite negative number => sign negative ++ number.shortest.positional

/-- The number with the given bits in the format of 32 bits, as text. -/
def singleText (bits : UInt32) : String := (Format.single.value bits.toNat).text

/-- The number with the given bits in the format of 64 bits, as text. -/
def doubleText (bits : UInt64) : String := (Format.double.value bits.toNat).text

end PatternGuard.Decimal
