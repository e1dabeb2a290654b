import PatternGuard.Settings.Basic

/-!
# Settings as JSON

Settings are read from a JSON object or from an array of the values in order. Members that are not
given keep their defaults, members of other names are passed over, and a member may not be given
twice. Reading stops at the first thing that is wrong and tells whether the text is malformed, ends
too early or has the wrong shape.

This is the outer layer of the program, in place of a library for JSON. No other module depends on
it: what is said about settings is said about values of `Settings`, wherever they come from.

Defines: `Settings.toJson`, the text of settings, and `Settings.ofJson`, which reads and validates
them.
-/

set_option autoImplicit false

namespace PatternGuard

open Text

namespace Json

/-! ## Writing -/

/-- A character inside a string. -/
def escapeChar (c : Char) : String :=
  match c with
  | '"' => "\\\""
  | '\\' => "\\\\"
  | '\x08' => "\\b"
  | '\t' => "\\t"
  | '\n' => "\\n"
  | '\x0c' => "\\f"
  | '\r' => "\\r"
  | _ => if c.toNat < 32 then "\\u" ++ zeroPadded 4 (hex c.toNat) else c.toString

/-- A text as a string. -/
def string (text : String) : String :=
  "\"" ++ String.join (text.toList.map escapeChar) ++ "\""

/-- Members, each a name and the text of its value, as an object without blanks. -/
def object (members : List (String × String)) : String :=
  "\x7b" ++ ",".intercalate (members.map fun (name, value) => string name ++ ":" ++ value) ++ "\x7d"

/-! ## Reading -/

/-- A computation that reads text. -/
abbrev Scanner := EStateM ReadingIssue (List Char)

namespace Scanner

/-- Fails with an issue. -/
def fail {α : Type} (issue : ReadingIssue) : Scanner α := fun text => .error issue text

/-- Fails as the end of the text requires, or else because of what comes next. -/
def unexpected {α : Type} : Scanner α := fun text =>
  .error (if text.isEmpty then .cutOff else .malformed) text

/-- Passes over one character. -/
def skip : Scanner Unit := fun text => .ok () text.tail

/-- The next character, if the text has not ended. -/
def peek : Scanner (Option Char) := fun text => .ok text.head? text

/-- Passes over blanks; the next character, if the text has not ended. -/
def peekToken : Scanner (Option Char) := fun text =>
  let text := text.dropWhile fun c => c = ' ' || c = '\n' || c = '\t' || c = '\r'
  .ok text.head? text

/-- Passes over one given character, after blanks. -/
def expect (c : Char) : Scanner Unit := do
  if (← peekToken) = some c then skip else unexpected

/-- Passes over given characters; the first that differs is malformed. -/
def word : List Char → Scanner Unit
  | [] => pure ()
  | c :: rest => do
    if (← peek) = some c then
      skip
      word rest
    else unexpected

/-! ### Strings -/

/-- The value of a hexadecimal digit. -/
def hexValue? (c : Char) : Option Nat :=
  if '0' ≤ c ∧ c ≤ '9' then some (c.toNat - 48)
  else if 'a' ≤ c ∧ c ≤ 'f' then some (c.toNat - 87)
  else if 'A' ≤ c ∧ c ≤ 'F' then some (c.toNat - 55)
  else none

/-- The number of bytes of a text in UTF-8. -/
def utf8Length (text : List Char) : Nat := text.foldl (fun n c => n + c.utf8Size) 0

/-- Reads the four hexadecimal digits of an escaped code unit. Text of less than four bytes ends too
early. -/
def hexUnit : Scanner Nat := fun text =>
  match text with
  | a :: b :: c :: d :: rest =>
    match hexValue? a, hexValue? b, hexValue? c, hexValue? d with
    | some a, some b, some c, some d => .ok (a * 4096 + b * 256 + c * 16 + d) rest
    | _, _, _, _ => .error .malformed rest
  | _ => .error (if utf8Length text < 4 then .cutOff else .malformed) text

/-- What a letter after a backslash stands for, if it stands for one character. -/
def escapedChar? : Char → Option Char
  | '"' => some '"'
  | '\\' => some '\\'
  | '/' => some '/'
  | 'b' => some '\x08'
  | 'f' => some '\x0c'
  | 'n' => some '\n'
  | 'r' => some '\r'
  | 't' => some '\t'
  | _ => none

/-- Reads the code units of an escaped character after the letter `u`. Surrogates must form pairs.
-/
def unicodeEscape : Scanner Char := do
  let high := UInt16.ofNat (← hexUnit)
  if isLowSurrogate high then fail .malformed
  else if isHighSurrogate high then
    word ['\\', 'u']
    let low := UInt16.ofNat (← hexUnit)
    if isLowSurrogate low then return pairChar high low else fail .malformed
  else return Char.ofNat high.toNat

/-- Reads what follows a backslash. -/
def escape : Scanner Char := do
  match ← peek with
  | none => fail .cutOff
  | some letter =>
    skip
    match escapedChar? letter with
    | some c => return c
    | none => if letter = 'u' then unicodeEscape else fail .malformed

/-- Reads what follows a backslash without regard to what it stands for. -/
def skipEscape : Scanner Char := do
  match ← peek with
  | some 'u' =>
    skip
    let _ ← hexUnit
    return 'u'
  | _ => escape

/-- Reads a string after its opening quote, of at most `fuel` characters; `escape` reads what
follows a backslash. -/
def stringAfter (escape : Scanner Char) : Nat → List Char → Scanner (List Char)
  | 0, _ => unexpected
  | fuel + 1, done => do
    match ← peek with
    | none => fail .cutOff
    | some '"' =>
      skip
      return done.reverse
    | some '\\' =>
      skip
      stringAfter escape fuel ((← escape) :: done)
    | some c =>
      if c.toNat < 32 then fail .malformed
      else
        skip
        stringAfter escape fuel (c :: done)

/-- Reads a string after its opening quote. -/
def stringRest : Scanner String := fun text =>
  (return String.ofList (← stringAfter escape (text.length + 1) [])) text

/-- Passes over a string after its opening quote. -/
def skipString : Scanner Unit := fun text =>
  (do let _ ← stringAfter skipEscape (text.length + 1) []) text

/-! ### Numbers -/

/-- The number rounded to 53 significant bits, to the even neighbour if two are equally near. -/
def roundToDouble (n : Nat) : Nat :=
  if n < Nat.pow 2 53 then n
  else
    let unit := Nat.pow 2 (n.log2 - 52)
    let below := n / unit
    let rest := n % unit
    let up := unit < 2 * rest || (unit = 2 * rest && below % 2 = 1)
    (if up then below + 1 else below) * unit

/-- Whether a number `significand * 10 ^ exponent` is too large for a floating-point number of 64
bits, when it is computed as a product of two of them. -/
def isTooLarge (significand : Nat) (exponent : Int) : Bool :=
  significand ≠ 0 && 0 ≤ exponent &&
    (308 < exponent ||
      Nat.pow 2 1024 - Nat.pow 2 970 ≤
        roundToDouble significand * roundToDouble (Nat.pow 10 exponent.toNat))

/-- The greatest significand that is kept; further digits do not count. -/
def maxSignificand : Nat := 18446744073709551615

/-- Takes digits into a significand as long as it does not become too great; the significand, the
number of digits taken, and the number of digits that do not count. -/
def takeDigits (significand taken : Nat) : List Char → Nat × Nat × Nat
  | [] => (significand, taken, 0)
  | c :: rest =>
    let next := significand * 10 + (c.toNat - 48)
    if maxSignificand < next then (significand, taken, rest.length + 1)
    else takeDigits next (taken + 1) rest

/-- Reads digits as far as there are any. -/
def digits : Scanner (List Char) := fun text =>
  .ok (text.takeWhile Char.isDigit) (text.dropWhile Char.isDigit)

/-- The greatest exponent that is kept. -/
def maxExponent : Nat := 2147483647

/-- Reads the exponent of a number after its mark; `issue` is what is wrong if no digit follows. The
sign and the digits. -/
def exponent : Scanner (Bool × List Char) := do
  let negative := (← peek) = some '-'
  if negative || (← peek) = some '+' then skip
  return (negative, ← digits)

/-- Fails as a number in the wrong place does: it is malformed if it is too large. -/
def misplaced {α : Type} (significand : Nat) (exponent : Int) : Scanner α :=
  fail (if isTooLarge significand exponent then .malformed else .wrongShape)

/-- Reads the exponent of a misplaced number, if one follows, and fails. -/
def misplacedExponent {α : Type} (significand : Nat) (scale : Int) : Scanner α := do
  let mark ← peek
  if mark = some 'e' || mark = some 'E' then
    skip
    let (negative, exponent) ← exponent
    if exponent.isEmpty then unexpected
    let value := exponent.foldl (fun n c => n * 10 + (c.toNat - 48)) 0
    if maxExponent < value then
      fail (if significand ≠ 0 && !negative then .malformed else .wrongShape)
    else misplaced significand (if negative then scale - value else scale + value)
  else misplaced significand scale

/-- Reads a number that stands where none may stand, after its sign, and fails. -/
def misplacedNumber {α : Type} : Scanner α := do
  let whole ← digits
  match whole with
  | [] => unexpected
  | '0' :: _ :: _ => fail .malformed
  | whole =>
    let (significand, _, dropped) := takeDigits 0 0 whole
    if (← peek) = some '.' then
      skip
      let fraction ← digits
      if fraction.isEmpty then unexpected
      let (significand, taken, _) := takeDigits significand 0 fraction
      if dropped = 0 && taken = 0 then misplacedExponent significand 0
      else misplacedExponent significand ((dropped : Int) - taken)
    else misplacedExponent significand dropped

/-- Passes over the rest of a number after its sign. A number that ends too early counts as
malformed. -/
def skipNumber : Scanner Unit := do
  let whole ← digits
  match whole with
  | [] => fail .malformed
  | '0' :: _ :: _ => fail .malformed
  | _ =>
    if (← peek) = some '.' then
      skip
      if (← digits).isEmpty then fail .malformed
    let mark ← peek
    if mark = some 'e' || mark = some 'E' then
      skip
      if (← exponent).2.isEmpty then fail .malformed

/-! ### Values of no interest -/

/-- The brackets that enclose a value. -/
inductive Frame where
  | array
  | object

/-- The bracket that closes a frame. -/
def Frame.close : Frame → Char
  | array => ']'
  | object => '\x7d'

/-- What is expected next while a value is passed over. -/
inductive Stage where
  /-- A value. -/
  | value
  /-- The first item of a frame, or its end. -/
  | first
  /-- A further item of a frame, or its end. -/
  | next

/-- Passes over the name of an object member; array items have none. -/
def skipName : Frame → Scanner Unit
  | .array => pure ()
  | .object => do
    expect '"'
    skipString
    expect ':'

/-- Passes over a value or what is left of it inside the given frames, in at most `fuel` steps. -/
def skipStages : Nat → Stage → List Frame → Scanner Unit
  | 0, _, _ => unexpected
  | _ + 1, .first, [] => pure ()
  | _ + 1, .next, [] => pure ()
  | fuel + 1, .value, frames => do
    match ← peekToken with
    | some 'n' =>
      word "null".toList
      skipStages fuel .next frames
    | some 't' =>
      word "true".toList
      skipStages fuel .next frames
    | some 'f' =>
      word "false".toList
      skipStages fuel .next frames
    | some '"' =>
      skip
      skipString
      skipStages fuel .next frames
    | some '[' =>
      skip
      skipStages fuel .first (.array :: frames)
    | some '\x7b' =>
      skip
      skipStages fuel .first (.object :: frames)
    | some c =>
      if c = '-' then
        skip
        skipNumber
        skipStages fuel .next frames
      else if c.isDigit then
        skipNumber
        skipStages fuel .next frames
      else unexpected
    | none => unexpected
  | fuel + 1, .first, frame :: frames => do
    if (← peekToken) = some frame.close then
      skip
      skipStages fuel .next frames
    else
      if (← peekToken).isNone then fail .cutOff
      skipName frame
      skipStages fuel .value (frame :: frames)
  | fuel + 1, .next, frame :: frames => do
    let token ← peekToken
    if token = some frame.close then
      skip
      skipStages fuel .next frames
    else if token = some ',' then
      skip
      skipName frame
      skipStages fuel .value (frame :: frames)
    else unexpected

/-- Passes over a value. -/
def skipValue : Scanner Unit := fun text =>
  skipStages (2 * text.length + 2) .value [] text

/-! ### Values of a given shape -/

/-- Fails at a value of the wrong shape, after reading as much of it as shows its shape. -/
def misplacedValue {α : Type} : Scanner α := do
  match ← peekToken with
  | some 'n' => word "null".toList
  | some 't' => word "true".toList
  | some 'f' => word "false".toList
  | some '"' =>
    skip
    let _ ← stringRest
  | some '[' => pure ()
  | some '\x7b' => pure ()
  | some '-' =>
    skip
    misplacedNumber
  | some c => if c.isDigit then misplacedNumber else unexpected
  | none => unexpected
  fail .wrongShape

/-- Reads a string. -/
def stringValue : Scanner String := do
  if (← peekToken) = some '"' then
    skip
    stringRest
  else misplacedValue

/-- Reads `null`. -/
def nullValue : Scanner Unit := do
  if (← peekToken) = some 'n' then word "null".toList else misplacedValue

/-- A member of an object: its name, and how its value is read and taken into what is read. -/
structure Field (α : Type) where
  name : String
  read : α → Scanner α

/-- Reads the members of an object to its end, of which there are at most `fuel`. `seen` holds the
names that were given. -/
def members {α : Type} (fields : List (Field α)) : Nat → Bool → List String → α → Scanner α
  | 0, _, _, _ => unexpected
  | fuel + 1, isFirst, seen, found => do
    let token ← peekToken
    if token = some '\x7d' then
      skip
      return found
    unless isFirst do expect ','
    expect '"'
    let name ← stringRest
    match fields.find? fun f => f.name = name with
    | none =>
      expect ':'
      skipValue
      members fields fuel false seen found
    | some field =>
      if seen.contains name then fail .wrongShape
      expect ':'
      members fields fuel false (name :: seen) (← field.read found)

/-- Reads the items of an array to its end, each for the next of the fields. There may be fewer
items than fields but not more. -/
def items {α : Type} : List (Field α) → Bool → α → Scanner α
  | fields, isFirst, found => do
    let token ← peekToken
    if token = some ']' then
      skip
      return found
    match fields with
    | [] => unexpected
    | field :: fields =>
      unless isFirst do
        expect ','
        if (← peekToken) = some ']' then fail .malformed
      items fields false (← field.read found)

/-- Reads an object with the given members, or an array of their values. -/
def record {α : Type} (fields : List (Field α)) (defaults : α) : Scanner α := do
  match ← peekToken with
  | some '[' =>
    skip
    items fields true defaults
  | some '\x7b' =>
    skip
    fun text => members fields (text.length + 1) true [] defaults text
  | _ => misplacedValue

/-- Reads a value to the end of the text. -/
def whole {α : Type} (value : Scanner α) : Scanner α := do
  let found ← value
  if (← peekToken).isSome then fail .malformed
  return found

end Scanner

end Json

/-! ## Settings -/

/-- The name of a mode. -/
def Mode.name : Mode → String
  | none => "none"
  | assertion => "assert"
  | exception => "exception"

/-- The mode of a name. -/
def Mode.ofName? (name : String) : Option Mode :=
  [none, assertion, exception].find? fun m => m.name = name

open Json in
/-- Reads the name of a mode. Anything but a string is malformed here, not of the wrong shape. -/
def Mode.readName : Json.Scanner Mode := do
  Scanner.expect '"'
  match Mode.ofName? (← Scanner.stringRest) with
  | some mode => return mode
  | Option.none => Scanner.fail .wrongShape

open Json in
/-- Reads a mode: its name, or an object with `null` under its name. -/
def Mode.read : Json.Scanner Mode := do
  match ← Scanner.peekToken with
  | some '"' => Mode.readName
  | some '\x7b' =>
    Scanner.skip
    let mode ← Mode.readName
    Scanner.expect ':'
    Scanner.nullValue
    Scanner.expect '\x7d'
    return mode
  | _ => Scanner.unexpected

open Json in
/-- The members of a validator target, in order. -/
def ValidatorNames.fields : List (Scanner.Field ValidatorNames) :=
  [⟨"class", fun v => do return { v with className := ← Scanner.stringValue }⟩,
    ⟨"assert_method", fun v => do return { v with assertMethod := ← Scanner.stringValue }⟩,
    ⟨"exception_method", fun v => do return { v with exceptionMethod := ← Scanner.stringValue }⟩]

open Json in
/-- The members of settings, in order. -/
def Settings.fields : List (Scanner.Field Settings) :=
  [⟨"mode", fun s => do return { s with mode := ← Mode.read }⟩,
    ⟨"marker_annotation", fun s => do return { s with marker := ← Scanner.stringValue }⟩,
    ⟨"validator", fun s => do
      return { s with validator := ← Scanner.record ValidatorNames.fields {} }⟩]

/-- The text of settings. -/
def Settings.toJson (s : Settings) : String :=
  Json.object
    [("mode", Json.string s.mode.name),
      ("marker_annotation", Json.string s.marker),
      ("validator", Json.object
        [("class", Json.string s.validator.className),
          ("assert_method", Json.string s.validator.assertMethod),
          ("exception_method", Json.string s.validator.exceptionMethod)])]

/-- The settings in a text, if they are valid. -/
def Settings.ofJson (text : String) : Except SettingsError Settings :=
  match (Json.Scanner.whole (Json.Scanner.record Settings.fields {})).run text.toList with
  | .error issue _ => .error (.unreadable issue)
  | .ok settings _ => do
    settings.validate
    return settings

end PatternGuard
