import PatternGuard.Guard.Site
import PatternGuard.Text.Alphabetic

/-!
# Settings

What is checked in a build and by which methods. Names are given as in source code, with dots
between their parts.

Defines: `Settings`, `Settings.validate`, and what guarding a class takes from the settings.
-/

set_option autoImplicit false

namespace PatternGuard

open Text

/-- What kind of checks is inserted. -/
inductive Mode where
  /-- None at all. -/
  | none
  /-- Checks that fail with an assertion error. -/
  | assertion
  /-- Checks that fail with an exception. -/
  | exception
deriving DecidableEq, Repr

/-- The methods that checks call. -/
structure ValidatorNames where
  className : String := "org.classweave.runtime.PatternValidator"
  assertMethod : String := "assertMatches"
  exceptionMethod : String := "checkMatches"
deriving DecidableEq, Repr

/-- The settings of a build. -/
structure Settings where
  mode : Mode := .assertion
  marker : String := "org.intellij.lang.annotations.Pattern"
  validator : ValidatorNames := {}
deriving DecidableEq, Repr

/-- What is wrong with settings that were read. -/
inductive ReadingIssue where
  /-- Text that no continuation would make well formed. -/
  | malformed
  /-- Well-formed text of the wrong shape. -/
  | wrongShape
  /-- Text that ends too early. -/
  | cutOff
deriving DecidableEq, Repr

/-- The names that settings consist of. -/
inductive NameRole where
  | marker
  | validatorClass
  | assertMethod
  | exceptionMethod
deriving DecidableEq, Repr

/-- How messages call a name. -/
def NameRole.label : NameRole → String
  | marker => "marker annotation name"
  | validatorClass => "validator class name"
  | assertMethod => "assert method name"
  | exceptionMethod => "exception method name"

/-- Why settings are refused. -/
inductive SettingsError where
  | unreadable (issue : ReadingIssue)
  | missingMarker
  | invalidName (role : NameRole) (name : String)
deriving DecidableEq, Repr

/-- How messages describe what is wrong with the text of settings. -/
def ReadingIssue.reason : ReadingIssue → String
  | malformed => "the text is malformed"
  | wrongShape => "the text does not have the shape of settings"
  | cutOff => "the text ends too early"

/-- The message shown for an error. -/
def SettingsError.message : SettingsError → String
  | unreadable issue => "Cannot read instrumentation settings: " ++ issue.reason
  | missingMarker => "Marker annotation name is empty"
  | invalidName role name => "Invalid " ++ role.label ++ " " ++ quoted name

/-! ## Names -/

/-- Which characters count as letters, and which as letters or digits. -/
structure Alphabet where
  alphabetic : Char → Bool
  alphanumeric : Char → Bool

namespace Alphabet

/-- The letters and digits of Unicode. -/
def unicode : Alphabet where
  alphabetic := isAlphabetic
  alphanumeric := isAlphanumeric

variable (alphabet : Alphabet)

/-- Whether an identifier may begin with the character. -/
def isIdentifierStart (c : Char) : Bool := alphabet.alphabetic c || c = '_' || c = '$'

/-- Whether the character may stand in an identifier. -/
def isIdentifierPart (c : Char) : Bool := alphabet.alphanumeric c || c = '_' || c = '$'

/-- Whether the text is an identifier. -/
def isIdentifier (text : String) : Bool :=
  match text.toList with
  | [] => false
  | c :: rest => alphabet.isIdentifierStart c && rest.all alphabet.isIdentifierPart

/-- Whether the characters are the rest of a name whose parts are identifiers, separated by dots.
`fresh` says that a part is about to begin. -/
def isNameRest (fresh : Bool) : List Char → Bool
  | [] => !fresh
  | c :: rest =>
    if c = '.' then !fresh && isNameRest true rest
    else
      (if fresh then alphabet.isIdentifierStart c else alphabet.isIdentifierPart c) &&
        isNameRest false rest

/-- Whether the text consists of identifiers separated by dots. -/
def isDottedName (text : String) : Bool := alphabet.isNameRest true text.toList

end Alphabet

/-! ## Validity and use of settings -/

/-- The method that is called in a mode, if any. -/
def ValidatorNames.calledIn (v : ValidatorNames) : Mode → Option String
  | .none => Option.none
  | .assertion => some v.assertMethod
  | .exception => some v.exceptionMethod

/-- The name of the validator class in class files. -/
def ValidatorNames.internalName (v : ValidatorNames) : String := slashed v.className

namespace Settings

/-- Whether anything is checked. -/
def enabled (s : Settings) : Bool := s.mode ≠ .none

/-- Fails with an error about a name unless it is valid. -/
def checkName (valid : Bool) (role : NameRole) (name : String) : Except SettingsError Unit :=
  if valid then .ok () else .error (.invalidName role name)

/-- Fails unless all names in the settings are valid in an alphabet. -/
def validateIn (alphabet : Alphabet) (s : Settings) : Except SettingsError Unit := do
  if isBlankText s.marker then throw .missingMarker
  checkName (alphabet.isDottedName s.marker) .marker s.marker
  checkName (alphabet.isDottedName s.validator.className) .validatorClass s.validator.className
  checkName (alphabet.isIdentifier s.validator.assertMethod) .assertMethod
    s.validator.assertMethod
  checkName (alphabet.isIdentifier s.validator.exceptionMethod) .exceptionMethod
    s.validator.exceptionMethod

/-- Fails unless all names in the settings are valid. -/
def validate (s : Settings) : Except SettingsError Unit := s.validateIn .unicode

/-- The descriptor of the marker, by which annotations are recognised. -/
def markerDescriptor (s : Settings) : String := "L" ++ slashed s.marker ++ ";"

/-- The validator that is called, if anything is checked. -/
def validatorCalled (s : Settings) : Option Validator :=
  (s.validator.calledIn s.mode).map fun method =>
    { className := s.validator.internalName, method }

end Settings

end PatternGuard
