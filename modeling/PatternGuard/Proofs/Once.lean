import PatternGuard.Proofs.Build

/-!
# No class is guarded twice

A guarded class carries the attribute of guarded classes under its own name, also after it was
written and read again. Guarding looks for this attribute before anything else that may fail, so a
second run ends with the same diagnostic whatever the settings of either run are
(`BuildStep.run_failed_of_run_guarded`).
-/

set_option autoImplicit false

namespace PatternGuard

open Outcome

/-- The file describes a class of the given name that has guards. -/
structure ClassFile.IsGuarded (c : ClassFile) (className : String) : Prop where
  isModule : c.isModule = false
  name : c.name = .ok className
  mark : (c.attribute? Guarding.guardedName).isSome = true

namespace Guarding

/-- Nothing is done to the description of a module. -/
theorem guardClass_of_isModule {p : Progress} (h : p.file.isModule = true) (policy : Policy)
    (marker : String) : guardClass policy marker p = .ok ⟨0, 0⟩ p := by
  have hget : (get : Guarding Progress) p = .ok p p := rfl
  rw [guardClass, bind_run_of_ok hget]
  simp only [h, ↓reduceIte]
  rfl

/-- Whether a class has guards is found out before its fields and methods are looked at. -/
theorem guardClass_of_isGuarded {file : ClassFile} {className : String}
    (hfile : file.IsGuarded className) (policy : Policy) (marker : String) (asked : Array Site) :
    guardClass policy marker ⟨file, asked⟩ =
      .error (.alreadyGuarded (dotted className)) ⟨file, asked⟩ := by
  have hget : (get : Guarding Progress) ⟨file, asked⟩ = .ok ⟨file, asked⟩ ⟨file, asked⟩ := rfl
  have hname : ofData file.name ⟨file, asked⟩ = .ok className ⟨file, asked⟩ := by
    rw [hfile.name]
    rfl
  rw [guardClass, bind_run_of_ok hget]
  simp only [hfile.isModule, Bool.false_eq_true, ↓reduceIte]
  rw [bind_run_of_ok hname]
  simp only [hfile.mark, ↓reduceIte]
  exact bind_run_of_error rfl

/-- The mark is found in every class in which something was changed, and the class has kept its
name. -/
theorem isGuarded_of_guardClass {v : Validator} {marker : String} {p p' : Progress}
    {report : Report} (hpool : p.file.pool.Writable)
    (h : guardClass v.policy marker p = .ok report p') (hchanged : report.changed = true) :
    ∃ className, p.file.name = .ok className ∧ p'.file.IsGuarded className := by
  have hmodule : p.file.isModule = false := by
    by_contra hmodule
    rw [guardClass_of_isModule (by simpa using hmodule)] at h
    obtain ⟨rfl, -⟩ := EStateM.Result.ok.inj h
    exact absurd hchanged (by decide)
  rcases guardClass_ok h with ⟨-, rfl, -⟩ | ⟨className, fields, plans, methods, pool, hname, -,
    hrun, -, ⟨hunchanged, -⟩ | ⟨-, index, last, htext, hfile⟩⟩
  · exact absurd hchanged (by decide)
  · rw [hunchanged] at hchanged
    exact absurd hchanged Bool.false_ne_true
  · have hgrows := Validator.growsTo_of_reaches hpool hrun.reaches
    obtain ⟨hgrows', hget⟩ := Interning.text_ok hgrows.writable htext
    have hnamed : last.isText index guardedName = true := by
      rw [Pool.isText, hget]
      exact beq_self_eq_true _
    rw [hfile]
    refine ⟨className, hname, hmodule, ?_, ?_⟩
    · exact (hgrows.trans hgrows').extends_get.className_eq_ok hname
    · -- the attribute stands last, and an earlier one of its name would do as well
      refine List.find?_isSome.2 ⟨⟨index, []⟩, ?_, hnamed⟩
      exact List.mem_append_right _ List.mem_cons_self

end Guarding

namespace BuildStep

/-- Under settings that enable checks there is a policy: that of the step or that of the settings.
-/
theorem exists_policyUnder (s : BuildStep) {settings : Settings}
    (henabled : settings.enabled = true) : ∃ policy, s.policyUnder settings = some policy := by
  rw [policyUnder]
  cases s.policy with
  | some own => exact ⟨own, rfl⟩
  | none =>
    rw [Settings.validatorCalled]
    cases hmode : settings.mode with
    | none => exact absurd hmode (of_decide_eq_true henabled)
    | assertion => exact ⟨_, rfl⟩
    | exception => exact ⟨_, rfl⟩

/-- A unit fails with the error that stands in the way of its bytes. -/
theorem run_of_guardedBytes_error {s : BuildStep} {u : CompiledUnit} {settings : Settings}
    {e : UnitFailure} (henabled : settings.enabled = true) (hcode : u.mayHoldCode = true)
    (h : s.guardedBytes u settings = .error e) (sink : Sink) :
    (s.run settings u).run sink = (.failed ⟨title, .error, u.name, e.message⟩,
      sink.report ⟨title, .error, u.name, e.message⟩) := by
  rw [run]
  simp only [henabled, hcode, h]
  rfl

/-- A class with guards is refused under all settings that enable checks. -/
theorem guardedBytes_of_isGuarded (s : BuildStep) {u : CompiledUnit} {settings : Settings}
    {file : ClassFile} {className : String} (henabled : settings.enabled = true)
    (hparse : ClassFile.parse u.bytes = .ok file) (hfile : file.IsGuarded className) :
    s.guardedBytes u settings = .error (.guarding (.alreadyGuarded (dotted className))) := by
  obtain ⟨policy, hpolicy⟩ := s.exists_policyUnder henabled
  have hrefused := Guarding.guardClass_of_isGuarded hfile policy settings.markerDescriptor #[]
  rw [guardedBytes, hparse]
  simp only [Except.mapError, bind, Except.bind, hpolicy, EStateM.run, hrefused]
  rfl

/-- A guarded unit that is run again fails under any settings that enable checks: it is reported,
and nothing else is, that its class, which has kept its name, has guards already. -/
theorem run_failed_of_run_guarded {s : BuildStep} (hs : s.CallsValidator) {settings : Settings}
    {u : CompiledUnit} {sink sink' : Sink} {bytes : List UInt8}
    (h : (s.run settings u).run sink = (.guarded bytes, sink')) :
    ∃ (file file' : ClassFile) (className : String), ClassFile.parse u.bytes = .ok file ∧
      ClassFile.parse bytes = .ok file' ∧ file.name = .ok className ∧
      file'.name = .ok className ∧
      ∀ (s' : BuildStep) (settings' : Settings) (later : Sink), settings'.enabled = true →
        let d : Diagnostic :=
          ⟨title, .error, u.name, "Class " ++ dotted className ++ " was already instrumented"⟩
        (s'.run settings' { u with bytes }).run later = (.failed d, later.report d) := by
  obtain ⟨v, file, report, p, -, hparse, -, hwritable, hrun, hchanged, hread⟩ :=
    guardClass_of_run_guarded hs h
  obtain ⟨className, hname, hguarded⟩ :=
    Guarding.isGuarded_of_guardClass hwritable hrun hchanged
  refine ⟨file, p.file, className, hparse, hread, hname, hguarded.name, ?_⟩
  intro s' settings' later henabled
  have hcode : u.mayHoldCode = true := mayHoldCode_of_run h
  have hrefused := guardedBytes_of_isGuarded s' (u := { u with bytes }) henabled hread hguarded
  exact run_of_guardedBytes_error (u := { u with bytes }) henabled hcode hrefused later

/-- Settings with another marker, in the mode with exceptions. -/
def otherMarker : Settings where
  mode := .exception
  marker := "other.Marker"

theorem exists_run_failed_markedUnit : ∃ (bytes : List UInt8) (sink' : Sink),
    CallsValidator {} ∧ (run {} shortMarker markedUnit).run {} = (.guarded bytes, sink') ∧
      otherMarker.enabled = true ∧
      ∃ d : Diagnostic, d.message = "Class A was already instrumented" ∧
        (run {} otherMarker { markedUnit with bytes }).run {} = (.failed d, ⟨#[d]⟩) := by
  have hcalls : CallsValidator {} := fun policy h => absurd h (by simp)
  have hnamed : ∃ file, ClassFile.parse markedUnit.bytes = .ok file ∧ file.name = .ok "A" := by
    decide +kernel
  obtain ⟨bytes, sink', hrun⟩ := exists_run_markedUnit
  obtain ⟨file, file', className, hparse, -, hname, -, hfails⟩ :=
    run_failed_of_run_guarded hcalls hrun
  obtain ⟨read, hread, hnamed⟩ := hnamed
  obtain rfl := Except.ok.inj (hparse.symm.trans hread)
  obtain rfl := Except.ok.inj (hname.symm.trans hnamed)
  have henabled : otherMarker.enabled = true := by decide
  exact ⟨bytes, sink', hcalls, hrun, henabled, _, by decide +kernel,
    hfails {} otherMarker {} henabled⟩

end BuildStep

end PatternGuard
