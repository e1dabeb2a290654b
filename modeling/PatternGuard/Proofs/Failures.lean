import PatternGuard.Proofs.Guard.Limits
import PatternGuard.Proofs.Once

/-!
# What a failed unit is blamed on

The message of a failed unit says that its class is malformed if the class cannot be read, and also
if guarding ends with a fault of class data. A well-formed class has no such fault of its own: there
the message says so exactly if a constant or a table would grow beyond a limit of the format while
the checks are inserted (`BuildStep.blamesClass_iff`). The class that results is at fault then, and
not the class of the unit.
-/

set_option autoImplicit false

namespace PatternGuard

open Outcome Text

/-! ## Messages -/

/-- What the message for a malformed unit begins with. -/
def UnitFailure.malformedNotice : String := "Failed to parse class file: "

/-- The message says that the class of the unit is malformed. -/
def Diagnostic.BlamesClass (d : Diagnostic) : Prop :=
  ∃ rest, d.message = UnitFailure.malformedNotice ++ rest

/-- No fault is reported in words that begin as the notice does. -/
theorem Fault.head?_message_ne (fault : Fault) : fault.message.toList.head? ≠ some 'F' := by
  cases fault with
  | _ =>
    unfold message
    simp only [String.toList_append, List.head?_append, String.reduceToList]
    simp

theorem GuardError.head?_message_ne (e : GuardError) : e.message.toList.head? ≠ some 'F' := by
  cases e with
  | malformed fault => exact fault.head?_message_ne
  | _ =>
    unfold message
    simp only [String.toList_append, List.head?_append, String.reduceToList]
    simp

namespace UnitFailure

theorem message_malformed (fault : Fault) :
    (malformed fault).message = malformedNotice ++ fault.message := by
  unfold message malformedNotice
  rfl

/-- Only faults of class data are reported with the notice. -/
theorem exists_message_eq_iff {e : UnitFailure} :
    (∃ rest, e.message = malformedNotice ++ rest) ↔ ∃ fault, e = .malformed fault := by
  cases e with
  | malformed fault => exact iff_of_true ⟨fault.message, message_malformed fault⟩ ⟨fault, rfl⟩
  | guarding error =>
    refine iff_of_false ?_ (by simp)
    rintro ⟨rest, h⟩
    apply error.head?_message_ne
    unfold message malformedNotice at h
    simp only at h
    rw [h]
    simp only [String.toList_append, List.head?_append, String.reduceToList]
    simp

theorem ofGuardError_eq_malformed_iff {error : GuardError} {fault : Fault} :
    ofGuardError error = .malformed fault ↔ error = .malformed fault := by
  cases error with
  | malformed fault' => simp [ofGuardError]
  | _ => simp [ofGuardError]

end UnitFailure

/-! ## Failed units -/

namespace BuildStep

variable {s : BuildStep} {settings : Settings} {u : CompiledUnit} {file : ClassFile}

/-- The diagnostic of a failed unit shows what stands in the way of its bytes. -/
theorem guardedBytes_of_run_failed {sink sink' : Sink} {d : Diagnostic}
    (h : (s.run settings u).run sink = (.failed d, sink')) :
    ∃ e, s.guardedBytes u settings = .error e ∧ d = ⟨title, .error, u.name, e.message⟩ := by
  rw [run] at h
  split at h
  · exact absurd (Prod.mk.inj h).1 (by simp)
  · cases hbytes : s.guardedBytes u settings with
    | error e =>
      rw [hbytes] at h
      exact ⟨e, rfl, (Outcome.failed.inj (Prod.mk.inj h).1).symm⟩
    | ok written =>
      rw [hbytes] at h
      cases written with
      | none => exact absurd (Prod.mk.inj h).1 (by simp)
      | some written => exact absurd (Prod.mk.inj h).1 (by simp)

/-- A unit whose class can be read is malformed exactly if guarding ends with a fault of class data.
A class that was guarded and cannot be written is another matter. -/
theorem guardedBytes_eq_malformed_iff {fault : Fault}
    (hparse : ClassFile.parse u.bytes = .ok file) :
    s.guardedBytes u settings = .error (.malformed fault) ↔
      ∃ policy p, s.policyUnder settings = some policy ∧
        Guarding.guardClass policy settings.markerDescriptor ⟨file, #[]⟩ =
          .error (.malformed fault) p := by
  rw [guardedBytes, hparse]
  simp only [Except.mapError, bind, Except.bind]
  cases hpolicy : s.policyUnder settings with
  | none => simp [pure, Except.pure]
  | some policy =>
    simp only [EStateM.run, Option.some.injEq]
    cases hguard : Guarding.guardClass policy settings.markerDescriptor ⟨file, #[]⟩ with
    | error error p =>
      simp only
      rw [throw_eq_error_iff, UnitFailure.ofGuardError_eq_malformed_iff]
      constructor
      · rintro rfl
        exact ⟨policy, p, rfl, hguard⟩
      · rintro ⟨policy', p', rfl, h⟩
        exact (EStateM.Result.error.inj (hguard.symm.trans h)).1
    | ok report p =>
      -- what cannot be written afterwards is a failure of guarding
      refine iff_of_false ?_ ?_
      · simp only
        split
        · split
          · simp [pure, Except.pure]
          · simp [throw, throwThe, MonadExceptOf.throw]
        · simp [pure, Except.pure]
      · rintro ⟨policy', p', rfl, h⟩
        exact absurd (hguard.symm.trans h) (by simp)

/-- If the class of a failed unit is well formed, it is blamed exactly if guarding it would make a
constant or a table that is beyond a limit of the format. -/
theorem blamesClass_iff (hs : s.CallsValidator) {sink sink' : Sink} {d : Diagnostic}
    (hparse : ClassFile.parse u.bytes = .ok file) (hfile : file.WellFormed)
    (h : (s.run settings u).run sink = (.failed d, sink')) :
    d.BlamesClass ↔ ∃ (v : Validator) (fault : Fault) (p : Progress),
      s.policyUnder settings = some v.policy ∧
      Guarding.guardClass v.policy settings.markerDescriptor ⟨file, #[]⟩ =
        .error (.malformed fault) p ∧
      fault.IsLimit ∧ d.message = UnitFailure.malformedNotice ++ fault.message := by
  obtain ⟨e, hbytes, rfl⟩ := guardedBytes_of_run_failed h
  rw [Diagnostic.BlamesClass, UnitFailure.exists_message_eq_iff]
  constructor
  · rintro ⟨fault, rfl⟩
    obtain ⟨policy, p, hpolicy, hguard⟩ := (guardedBytes_eq_malformed_iff hparse).1 hbytes
    obtain ⟨v, rfl⟩ := hs.exists_validator hpolicy
    obtain ⟨hsound, -⟩ := ClassFile.parse_ok_iff.1 hparse
    have hwritable := ClassFile.writable_of_parse hparse
    have hblames : GuardError.BlamesLimits (.malformed fault) :=
      Guarding.blamesLimits_of_guardClass hsound hwritable hfile _ _ hguard
    exact ⟨v, fault, p, hpolicy, hguard, hblames fault rfl,
      UnitFailure.message_malformed fault⟩
  · rintro ⟨v, fault, p, hpolicy, hguard, -, -⟩
    have hmalformed := (guardedBytes_eq_malformed_iff hparse).2 ⟨v.policy, p, hpolicy, hguard⟩
    rw [hbytes] at hmalformed
    exact ⟨fault, Except.error.inj hmalformed⟩

end BuildStep

/-! ## A validator with a long name -/

/-- A text that takes too many bytes is not added to a pool. -/
theorem Interning.text_of_long {t : String} {n : Nat} (h : (ModifiedUtf8.encode t).length = n)
    (hlong : 65535 < n) (pool : Pool) :
    text t pool = .error (.tooMany "bytes in a Utf8 constant" n) pool := by
  subst h
  have hrefusal : (Constant.ofText t).refusal =
      some (.tooMany "bytes in a Utf8 constant" (ModifiedUtf8.encode t).length) := if_pos hlong
  rw [text, Pool.intern, hrefusal]

/-- No check calls a validator whose name takes too many bytes. -/
theorem Validator.check_of_long {v : Validator} {site : Site} {pool pool₁ pool₂ : Pool}
    {pattern description : UInt16} {n : Nat} (h : (ModifiedUtf8.encode v.className).length = n)
    (hlong : 65535 < n) (hpattern : Interning.string site.pattern pool = .ok pattern pool₁)
    (hdescription : Interning.string site.describe pool₁ = .ok description pool₂) :
    v.check site pool = .error (.tooMany "bytes in a Utf8 constant" n) pool₂ := by
  have hclass := bind_run_of_error (f := fun i => Pool.intern (.classEntry i))
    (Interning.text_of_long h hlong pool₂)
  rw [check, bind_run_of_ok hpattern, bind_run_of_ok hdescription]
  exact bind_run_of_error (bind_run_of_error hclass)

namespace Guarding

theorem ofExcept_of_ok {α : Type} {x : Except GuardError α} {a : α} (h : x = .ok a)
    (p : Progress) : ofExcept x p = .ok a p :=
  ofExcept_ok_iff.2 ⟨h, rfl⟩

theorem ofData_of_ok {α : Type} {x : Except Fault α} {a : α} (h : x = .ok a) (p : Progress) :
    ofData x p = .ok a p :=
  ofData_ok_iff.2 ⟨h, rfl⟩

theorem adaptExcept_of_error {α : Type} {action : Interning α} {pool pool' : Pool} {fault : Fault}
    (h : action pool = .error fault pool') :
    (action.adaptExcept GuardError.malformed : Emission α) pool =
      .error (.malformed fault) pool' := by
  rw [EStateM.adaptExcept, h]

theorem pool_run (p : Progress) : pool p = .ok p.file.pool p := pool_ok_iff.2 ⟨rfl, rfl⟩

/-- If the first check of the first method cannot be emitted, nothing is guarded. -/
theorem guardClass_of_emit_error {policy : Policy} {marker className name descriptor : String}
    {file : ClassFile} {fields : List FieldPattern} {method : Member} {methods : List Member}
    {body : CodeBody} {c : Check} {cs : List Check} {e : GuardError} {pool : Pool}
    (hmodule : file.isModule = false) (hclass : file.name = .ok className)
    (hunguarded : (file.attribute? guardedName).isSome = false)
    (hfields : Plan.markedFields file className marker = .ok fields)
    (hmethods : file.methods = method :: methods)
    (hbody : method.body? file.pool = .ok (some body))
    (hname : method.name file.pool = .ok name)
    (hdescriptor : method.descriptor file.pool = .ok descriptor)
    (hplan : Plan.ofMethod className marker fields file.pool method body = .ok (c :: cs))
    (hemit : policy.emit c.site file.pool = .error e pool) :
    guardClass policy marker ⟨file, #[]⟩ = .error e ⟨{ file with pool }, #[c.site]⟩ := by
  -- the error passes from the check through the body and the method to the class
  have hinsertion : insertion policy c ⟨file, #[]⟩ =
      .error e ⟨{ file with pool }, #[c.site]⟩ := by
    refine (bind_run_of_ok rfl).trans (bind_run_of_error ?_)
    rw [emitting]
    simp only [hemit]
    rfl
  have hguardBody : ∀ report, guardBody policy className marker fields report 0 method body
      ⟨file, #[]⟩ = .error e ⟨{ file with pool }, #[c.site]⟩ := by
    intro report
    rw [guardBody, bind_run_of_ok (pool_run _), bind_run_of_ok (ofExcept_of_ok hplan _)]
    simp only [List.isEmpty_cons, Bool.false_eq_true, ↓reduceIte]
    rw [bind_run_of_ok (ofData_of_ok hname _), bind_run_of_ok (ofData_of_ok hdescriptor _),
      List.mapM_cons]
    exact bind_run_of_error (bind_run_of_error hinsertion)
  have hguardMethod : ∀ report, guardMethod policy className marker fields report (method, 0)
      ⟨file, #[]⟩ = .error e ⟨{ file with pool }, #[c.site]⟩ := by
    intro report
    rw [guardMethod, bind_run_of_ok (pool_run _), bind_run_of_ok (ofData_of_ok hbody _)]
    exact hguardBody report
  have hitems : file.methods.zipIdx = (method, 0) :: methods.zipIdx 1 := by
    rw [hmethods, List.zipIdx_cons]
  have hget : (get : Guarding Progress) ⟨file, #[]⟩ = .ok ⟨file, #[]⟩ ⟨file, #[]⟩ := rfl
  rw [guardClass, bind_run_of_ok hget]
  simp only [hmodule, Bool.false_eq_true, ↓reduceIte]
  rw [bind_run_of_ok (ofData_of_ok hclass _)]
  simp only [hunguarded, Bool.false_eq_true, ↓reduceIte]
  rw [bind_run_of_ok (ofExcept_of_ok hfields _), hitems, List.foldlM_cons]
  exact bind_run_of_error (bind_run_of_error (hguardMethod _))

theorem wellFormed_markedClass : markedClass.WellFormed := by
  have hbody : markedBody.WellFormed markedClass.pool := by
    refine ⟨Code.place 0 [.loadLocal 0, .ofOperand .ifnull (.branch (-1)), .loadLocal 0,
      .simple .areturn], by decide +kernel, ?_, fun _ ha => absurd ha List.not_mem_nil⟩
    -- nothing is stored in it
    intro i hi hstores
    exact absurd hstores (by revert i; decide +kernel)
  refine ⟨by simp [markedClass], List.forall_mem_singleton.2 ?_⟩
  refine ⟨sound_markedClass.methods _ List.mem_cons_self, by decide +kernel, by decide +kernel,
    ⟨some markedBody, by decide +kernel, ?_⟩⟩
  intro body hmem
  obtain rfl := Option.some.inj hmem
  exact hbody

end Guarding

namespace BuildStep

/-- Settings with a short marker and a validator whose name is too long for a constant. -/
def longValidator : Settings where
  marker := "m"
  validator := { className := String.ofList (List.replicate 65536 'a') }

/-- The validator that is called under these settings. -/
def longNamed : Validator := ⟨longValidator.validator.internalName, "assertMatches"⟩

theorem length_encode_longNamed : (ModifiedUtf8.encode longNamed.className).length = 65536 := by
  have hmap : ∀ n, (List.replicate n 'a').map (fun c => if c = '.' then '/' else c) =
      List.replicate n 'a' := by
    intro n
    rw [List.map_replicate]
    rfl
  have hname : longNamed.className = String.ofList (List.replicate 65536 'a') := by
    rw [longNamed, ValidatorNames.internalName, slashed, ← String.toList_inj, String.toList_map,
      longValidator]
    simp only [String.toList_ofList]
    exact hmap 65536
  rw [hname, ModifiedUtf8.length_encode_replicate]

theorem parse_markedUnit : ClassFile.parse markedUnit.bytes = .ok Guarding.markedClass := by
  apply ClassFile.parse_ok_iff.2
  refine ⟨Guarding.sound_markedClass, ?_⟩
  cases h : Guarding.markedClass.toBytes with
  | ok bytes =>
    have hbytes : markedUnit.bytes = bytes := by simp only [markedUnit, h]
    rw [hbytes]
  | error fault =>
    have hok : Guarding.markedClass.toBytes.isOk = true := by decide +kernel
    rw [h] at hok
    exact absurd hok Bool.false_ne_true

/-- The checks of the marked method. -/
def markedChecks : List Check :=
  [⟨0, false, .simple .aload_0, ⟨"A", "f", .parameter 0 0, "p"⟩⟩,
    ⟨5, true, .simple .dup, ⟨"A", "f", .returned, "p"⟩⟩]

/-- No check of the marked method can call the validator. -/
theorem exists_guardClass_longNamed : ∃ p,
    Guarding.guardClass longNamed.policy longValidator.markerDescriptor
      ⟨Guarding.markedClass, #[]⟩ =
        .error (.malformed (.tooMany "bytes in a Utf8 constant" 65536)) p := by
  have hmodule : Guarding.markedClass.isModule = false := by decide +kernel
  have hclass : Guarding.markedClass.name = .ok "A" := by decide +kernel
  have hunguarded : (Guarding.markedClass.attribute? Guarding.guardedName).isSome = false := by
    decide +kernel
  have hfields : Plan.markedFields Guarding.markedClass "A" longValidator.markerDescriptor =
      .ok [] := by
    decide +kernel
  have hbody : Guarding.markedMethod.body? Guarding.markedClass.pool =
      .ok (some Guarding.markedBody) := by
    decide +kernel
  have hname : Guarding.markedMethod.name Guarding.markedClass.pool = .ok "f" := by
    decide +kernel
  have hdescriptor : Guarding.markedMethod.descriptor Guarding.markedClass.pool =
      .ok "(LA;)LA;" := by
    decide +kernel
  have hplan : Plan.ofMethod "A" longValidator.markerDescriptor [] Guarding.markedClass.pool
      Guarding.markedMethod Guarding.markedBody = .ok markedChecks := by
    decide +kernel
  -- the strings that the first check loads are found or added, the name of the class is not
  obtain ⟨description, pool₂, hstrings⟩ : ∃ description pool₂, (do
      let _ ← Interning.string "p"
      Interning.string (Site.describe ⟨"A", "f", .parameter 0 0, "p"⟩) : Interning UInt16)
        Guarding.markedClass.pool = .ok description pool₂ := by
    decide +kernel
  obtain ⟨pattern, pool₁, hpattern, hdescription⟩ := bind_run_ok_iff.1 hstrings
  have hcheck : longNamed.check ⟨"A", "f", .parameter 0 0, "p"⟩ Guarding.markedClass.pool =
      .error (.tooMany "bytes in a Utf8 constant" 65536) pool₂ :=
    Validator.check_of_long length_encode_longNamed (by decide) hpattern hdescription
  have hemit : longNamed.policy.emit ⟨"A", "f", .parameter 0 0, "p"⟩ Guarding.markedClass.pool =
      .error (.malformed (.tooMany "bytes in a Utf8 constant" 65536)) pool₂ :=
    Guarding.adaptExcept_of_error hcheck
  exact ⟨_, Guarding.guardClass_of_emit_error hmodule hclass hunguarded hfields rfl hbody hname
    hdescriptor hplan hemit⟩

theorem exists_blamesClass_markedUnit : ∃ (sink' : Sink) (d : Diagnostic), CallsValidator {} ∧
    ClassFile.parse markedUnit.bytes = .ok Guarding.markedClass ∧
    Guarding.markedClass.WellFormed ∧
    (run {} longValidator markedUnit).run {} = (.failed d, sink') ∧ d.BlamesClass ∧
    d.message = "Failed to parse class file: Too many bytes in a Utf8 constant: 65536" := by
  have hcalls : CallsValidator {} := fun policy h => absurd h (by simp)
  obtain ⟨p, hguard⟩ := exists_guardClass_longNamed
  have hpolicy : policyUnder {} longValidator = some longNamed.policy := rfl
  have hbytes := (guardedBytes_eq_malformed_iff parse_markedUnit).2 ⟨_, p, hpolicy, hguard⟩
  have hrun := run_of_guardedBytes_error (by decide) (by decide +kernel) hbytes {}
  refine ⟨_, _, hcalls, parse_markedUnit, Guarding.wellFormed_markedClass, hrun, ?_, ?_⟩
  · exact (blamesClass_iff hcalls parse_markedUnit Guarding.wellFormed_markedClass hrun).2
      ⟨longNamed, _, p, hpolicy, hguard, trivial, UnitFailure.message_malformed _⟩
  · decide +kernel

end BuildStep

end PatternGuard
