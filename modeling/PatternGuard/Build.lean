import PatternGuard.Guard.Guarding
import PatternGuard.Settings.Basic

/-!
# Guarding the classes of a build

Each compilation unit is guarded on its own. A unit that fails leaves exactly one diagnostic and
does not disturb the others.

Defines: `CompiledUnit`, `Diagnostic`, `Outcome` and `BuildStep`, with `BuildStep.run` for one unit
and `BuildStep.runAll` for a build.
-/

set_option autoImplicit false

namespace PatternGuard

/-- One compiled class. -/
structure CompiledUnit where
  /-- The qualified name of the unit. -/
  name : String
  bytes : List UInt8
deriving DecidableEq, Repr

/-- How serious a diagnostic is. -/
inductive Severity where
  | info
  | warning
  | error
deriving DecidableEq, Repr

/-- How a severity is shown. -/
def Severity.label : Severity → String
  | info => "info"
  | warning => "warning"
  | error => "error"

/-- The severity that is shown by the given label, if there is one. -/
def Severity.ofLabel? (label : String) : Option Severity :=
  [info, warning, error].find? fun s => s.label = label

/-- A message about a unit. -/
structure Diagnostic where
  /-- The name of the build step that produced the message. -/
  step : String
  severity : Severity
  unit : String
  message : String
deriving DecidableEq, Repr

/-- How a diagnostic is shown. -/
def Diagnostic.display (d : Diagnostic) : String :=
  "[" ++ d.step ++ "] " ++ d.severity.label ++ " in " ++ d.unit ++ ": " ++ d.message

/-- The diagnostics collected so far, in the order in which they were reported. -/
structure Sink where
  diagnostics : Array Diagnostic := #[]
deriving DecidableEq, Repr

namespace Sink

/-- The sink with one more diagnostic. -/
def report (s : Sink) (d : Diagnostic) : Sink := ⟨s.diagnostics.push d⟩

/-- The diagnostics, and the sink without them. -/
def take (s : Sink) : List Diagnostic × Sink := (s.diagnostics.toList, {})

end Sink

/-- What became of a unit. -/
inductive Outcome where
  /-- Nothing is checked in the unit. -/
  | unchanged
  /-- The bytes of the guarded class. -/
  | guarded (bytes : List UInt8)
  /-- The diagnostic that was reported. -/
  | failed (diagnostic : Diagnostic)
deriving DecidableEq, Repr

/-- Why a unit fails. -/
inductive UnitFailure where
  /-- The class of the unit is not well formed. -/
  | malformed (fault : Fault)
  /-- The class of the unit cannot be guarded. -/
  | guarding (error : GuardError)
deriving DecidableEq, Repr

/-- The message shown for an error. -/
def UnitFailure.message : UnitFailure → String
  | malformed fault => "Failed to parse class file: " ++ fault.message
  | guarding error => error.message

/-- What guarding a class fails with is a malformed unit if class data are at fault. -/
def UnitFailure.ofGuardError : GuardError → UnitFailure
  | .malformed fault => .malformed fault
  | error => .guarding error

/-- The name of a unit without what comes before its last slash or dot. -/
def lastNamePart (name : String) : String :=
  String.ofList (name.toList.reverse.takeWhile fun c => c ≠ '/' ∧ c ≠ '.').reverse

/-- Whether the unit may hold code; the description of a module does not. -/
def CompiledUnit.mayHoldCode (u : CompiledUnit) : Bool := lastNamePart u.name ≠ "module-info"

/-- The step of a build that guards its units. -/
structure BuildStep where
  /-- How sites are checked, in place of what the settings say. -/
  policy : Option Policy := none

namespace BuildStep

/-- The name under which the step reports. -/
def title : String := "Classweave Pattern Validator"

/-- The text that is shown while the step runs. -/
def notice : String := "Adding pattern assertions..."

/-- The policy for given settings, if anything is checked. -/
def policyUnder (s : BuildStep) (settings : Settings) : Option Policy :=
  match s.policy with
  | some policy => some policy
  | none => settings.validatorCalled.map Validator.policy

/-- The bytes of the guarded class of a unit, if anything is checked in it. -/
def guardedBytes (s : BuildStep) (u : CompiledUnit) (settings : Settings) :
    Except UnitFailure (Option (List UInt8)) := do
  let file ← (ClassFile.parse u.bytes).mapError .malformed
  match s.policyUnder settings with
  | none => return none
  | some policy =>
    match (Guarding.guardClass policy settings.markerDescriptor).run ⟨file, #[]⟩ with
    | .error e _ => throw (.ofGuardError e)
    | .ok report p =>
      if report.changed then
        match p.file.toBytes with
        | .ok bytes => return some bytes
        | .error fault => throw (.guarding (.malformed fault))
      else return none

/-- What becomes of one unit. A failure is reported to the sink. -/
def run (s : BuildStep) (settings : Settings) (u : CompiledUnit) : StateM Sink Outcome := do
  if !settings.enabled || !u.mayHoldCode then return .unchanged
  match s.guardedBytes u settings with
  | .ok (some bytes) => return .guarded bytes
  | .ok none => return .unchanged
  | .error e =>
    let diagnostic : Diagnostic := ⟨title, .error, u.name, e.message⟩
    modify fun sink => sink.report diagnostic
    return .failed diagnostic

/-- What becomes of all units of a build, or why its settings are refused. -/
def runAll (s : BuildStep) (settings : Settings) (units : List CompiledUnit) :
    ExceptT SettingsError (StateM Sink) (List Outcome) := do
  match settings.validate with
  | .error e => throw e
  | .ok () => ExceptT.lift (units.mapM (s.run settings))

end BuildStep

end PatternGuard
