import PatternGuard.Build
import PatternGuard.Proofs.Guard.Validator

/-!
# What a build step writes

The bytes of a guarded unit are a class file: they are read back as the very class that guarding
made, with the same constant pool, and the new method bodies are found in it and consist of
instructions. What the bytes are written for is in `BuildStep.guardedBytes_ok`.
-/

set_option autoImplicit false

namespace PatternGuard

open Outcome

namespace BuildStep

/-- The step calls a validator, that of the settings or one of its own. -/
def CallsValidator (s : BuildStep) : Prop :=
  ∀ policy, s.policy = some policy → ∃ v : Validator, policy = v.policy

theorem CallsValidator.exists_validator {s : BuildStep} (hs : s.CallsValidator)
    {settings : Settings} {policy : Policy} (h : s.policyUnder settings = some policy) :
    ∃ v : Validator, policy = v.policy := by
  rw [policyUnder] at h
  cases hpolicy : s.policy with
  | some own =>
    rw [hpolicy] at h
    obtain rfl := Option.some.inj h
    exact hs own hpolicy
  | none =>
    rw [hpolicy] at h
    obtain ⟨v, -, rfl⟩ := Option.map_eq_some_iff.1 h
    exact ⟨v, rfl⟩

/-- The bytes of a guarded unit are written for a class in which something was changed. -/
theorem guardedBytes_ok {s : BuildStep} {u : CompiledUnit} {settings : Settings}
    {bytes : List UInt8} (h : s.guardedBytes u settings = .ok (some bytes)) :
    ∃ file policy report p, ClassFile.parse u.bytes = .ok file ∧
      s.policyUnder settings = some policy ∧
      Guarding.guardClass policy settings.markerDescriptor ⟨file, #[]⟩ = .ok report p ∧
      report.changed = true ∧ p.file.toBytes = .ok bytes := by
  obtain ⟨file, hread, h₁⟩ := bind_ok_iff.1 h
  have hfile : ClassFile.parse u.bytes = .ok file := by
    cases hparse : ClassFile.parse u.bytes with
    | ok file' =>
      rw [hparse] at hread
      rw [Except.ok.inj hread]
    | error e =>
      rw [hparse] at hread
      exact absurd hread (by simp [Except.mapError])
  split at h₁
  · exact absurd (pure_ok_iff.1 h₁) (by simp)
  · rename_i policy hpolicy
    split at h₁
    · exact absurd h₁ throw_ne_ok
    · rename_i report p hrun
      split at h₁
      · rename_i hchanged
        split at h₁
        · rename_i written hwritten
          obtain rfl := Option.some.inj (pure_ok_iff.1 h₁)
          exact ⟨file, policy, report, p, hfile, hpolicy, hrun, hchanged, hwritten⟩
        · exact absurd h₁ throw_ne_ok
      · exact absurd (pure_ok_iff.1 h₁) (by simp)

theorem mayHoldCode_of_run {s : BuildStep} {settings : Settings} {u : CompiledUnit}
    {sink sink' : Sink} {bytes : List UInt8}
    (h : (s.run settings u).run sink = (.guarded bytes, sink')) : u.mayHoldCode = true := by
  by_contra hcode
  rw [run] at h
  simp only [hcode, Bool.not_false, Bool.or_true, ↓reduceIte] at h
  exact absurd (Prod.mk.inj h).1 (by simp)

theorem guardedBytes_of_run {s : BuildStep} {settings : Settings} {u : CompiledUnit}
    {sink sink' : Sink} {bytes : List UInt8}
    (h : (s.run settings u).run sink = (.guarded bytes, sink')) :
    s.guardedBytes u settings = .ok (some bytes) := by
  rw [run] at h
  split at h
  · exact absurd (Prod.mk.inj h).1 (by simp)
  · cases hbytes : s.guardedBytes u settings with
    | error e =>
      rw [hbytes] at h
      exact absurd (Prod.mk.inj h).1 (by simp)
    | ok written =>
      cases written with
      | none =>
        rw [hbytes] at h
        exact absurd (Prod.mk.inj h).1 (by simp)
      | some written =>
        rw [hbytes] at h
        rw [Outcome.guarded.inj (Prod.mk.inj h).1]

/-- The bytes of a guarded unit are read back as the class that guarding made of a sound one. -/
theorem guardClass_of_run_guarded {s : BuildStep} (hs : s.CallsValidator) {settings : Settings}
    {u : CompiledUnit} {sink sink' : Sink} {bytes : List UInt8}
    (h : (s.run settings u).run sink = (.guarded bytes, sink')) :
    ∃ (v : Validator) (file : ClassFile) (report : Report) (p : Progress),
      s.policyUnder settings = some v.policy ∧ ClassFile.parse u.bytes = .ok file ∧
      file.Sound ∧ file.pool.Writable ∧
      Guarding.guardClass v.policy settings.markerDescriptor ⟨file, #[]⟩ = .ok report p ∧
      report.changed = true ∧ ClassFile.parse bytes = .ok p.file := by
  obtain ⟨file, policy, report, p, hparse, hpolicy, hrun, hchanged, hbytes⟩ :=
    guardedBytes_ok (guardedBytes_of_run h)
  obtain ⟨v, rfl⟩ := hs.exists_validator hpolicy
  obtain ⟨hsound, -⟩ := ClassFile.parse_ok_iff.1 hparse
  have hwritable := ClassFile.writable_of_parse hparse
  exact ⟨v, file, report, p, hpolicy, hparse, hsound, hwritable, hrun, hchanged,
    ClassFile.parse_ok_iff.2 ⟨Guarding.sound_of_guardClass hsound hwritable hrun, hbytes⟩⟩

/-- The bytes of a guarded unit are read back as the class that guarding made, pool included. In
this class every method is unchecked, or its body with the checks is found and consists of
instructions. -/
theorem parse_of_run_guarded {s : BuildStep} (hs : s.CallsValidator) {settings : Settings}
    {u : CompiledUnit} {sink sink' : Sink} {bytes : List UInt8}
    (h : (s.run settings u).run sink = (.guarded bytes, sink')) :
    ∃ (v : Validator) (file : ClassFile) (report : Report) (p : Progress),
      s.policyUnder settings = some v.policy ∧ ClassFile.parse u.bytes = .ok file ∧
      Guarding.guardClass v.policy settings.markerDescriptor ⟨file, #[]⟩ = .ok report p ∧
      ClassFile.parse bytes = .ok p.file ∧
      ∃ className fields, file.name = .ok className ∧
        Plan.markedFields file className settings.markerDescriptor = .ok fields ∧
        List.Forall₂ (fun m m' =>
          Guarding.Unchecked v.policy className settings.markerDescriptor fields file.pool m m' ∨
            ∃ r : Rewriting v.policy className settings.markerDescriptor fields m m',
              v.policy.Reaches file.pool r.before ∧ m'.body? p.file.pool = .ok (some r.body') ∧
                ∃ is, r.body'.instructions = .ok is)
          file.methods p.file.methods := by
  obtain ⟨v, file, report, p, hpolicy, hparse, hsound, hwritable, hrun, hchanged, hread⟩ :=
    guardClass_of_run_guarded hs h
  exact ⟨v, file, report, p, hpolicy, hparse, hrun, hread,
    Guarding.bodies_of_guardClass hsound hwritable hrun hchanged⟩

/-- Settings with a short marker. -/
def shortMarker : Settings where
  marker := "m"

/-- The class with the marked method as a unit. -/
def markedUnit : CompiledUnit where
  name := "A"
  bytes := match Guarding.markedClass.toBytes with
    | .ok bytes => bytes
    | .error _ => []

/-- The checks of the marked method are inserted. -/
theorem exists_run_markedUnit : ∃ (bytes : List UInt8) (sink' : Sink),
    (run {} shortMarker markedUnit).run {} = (.guarded bytes, sink') := by
  have hguarded : (match ((run {} shortMarker markedUnit).run {}).1 with
      | .guarded _ => true
      | _ => false) = true := by decide +kernel
  rcases hrun : (run {} shortMarker markedUnit).run {} with ⟨outcome, sink'⟩
  rw [hrun] at hguarded
  cases outcome with
  | unchanged => exact absurd hguarded Bool.false_ne_true
  | failed diagnostic => exact absurd hguarded Bool.false_ne_true
  | guarded bytes => exact ⟨bytes, sink', rfl⟩

theorem exists_parse_of_run_markedUnit : ∃ (bytes : List UInt8) (sink' : Sink) (v : Validator)
    (file : ClassFile) (report : Report) (p : Progress) (className : String)
    (fields : List FieldPattern),
    CallsValidator {} ∧ (run {} shortMarker markedUnit).run {} = (.guarded bytes, sink') ∧
      ClassFile.parse markedUnit.bytes = .ok file ∧
      Guarding.guardClass v.policy "Lm;" ⟨file, #[]⟩ = .ok report p ∧
      ClassFile.parse bytes = .ok p.file ∧
      List.Forall₂ (fun m m' => Guarding.Unchecked v.policy className "Lm;" fields file.pool m m' ∨
        ∃ r : Rewriting v.policy className "Lm;" fields m m',
          v.policy.Reaches file.pool r.before ∧ m'.body? p.file.pool = .ok (some r.body') ∧
            ∃ is, r.body'.instructions = .ok is)
        file.methods p.file.methods := by
  have hcalls : CallsValidator {} := fun policy h => absurd h (by simp)
  have hmarker : shortMarker.markerDescriptor = "Lm;" := by decide +kernel
  obtain ⟨bytes, sink', hrun⟩ := exists_run_markedUnit
  obtain ⟨v, file, report, p, -, hparse, hguard, hread, className, fields, -, -, hmethods⟩ :=
    parse_of_run_guarded hcalls hrun
  rw [hmarker] at hguard hmethods
  exact ⟨bytes, sink', v, file, report, p, className, fields, hcalls, hrun, hparse, hguard, hread,
    hmethods⟩

end BuildStep

end PatternGuard
