import PatternGuard.Proofs.Build

/-!
# Failures are contained

The units of a build do not see each other. A run of one unit depends on the sink only in that it
appends to it the diagnostic of a failure (`BuildStep.run_eq`), so that a build is its units one by
one (`BuildStep.run_runAll_eq`): the outcome of a unit is the same in every build, and the sink has
one more diagnostic for each failure, in the order of the units.
-/

set_option autoImplicit false

namespace PatternGuard

/-- The diagnostic of a failure. -/
def Outcome.diagnostic? : Outcome → Option Diagnostic
  | .failed diagnostic => some diagnostic
  | _ => none

namespace Sink

/-- The sink with more diagnostics, in order. -/
def reportAll (s : Sink) (ds : List Diagnostic) : Sink := ⟨s.diagnostics ++ ds.toArray⟩

theorem reportAll_nil (s : Sink) : s.reportAll [] = s := by
  simp [reportAll]

theorem reportAll_singleton (s : Sink) (d : Diagnostic) : s.reportAll [d] = s.report d := by
  simp [reportAll, report]

theorem reportAll_append (s : Sink) (front back : List Diagnostic) :
    s.reportAll (front ++ back) = (s.reportAll front).reportAll back := by
  simp [reportAll, Array.append_assoc]

end Sink

namespace BuildStep

variable (s : BuildStep) (settings : Settings)

/-- What becomes of a unit with nothing around it. -/
def alone (u : CompiledUnit) : Outcome := ((s.run settings u).run {}).1

/-- The diagnostics of the units that fail, in the order of the units. -/
def failures (units : List CompiledUnit) : List Diagnostic :=
  (units.map (s.alone settings)).filterMap Outcome.diagnostic?

theorem run_of_skipped {u : CompiledUnit} (h : settings.enabled = false ∨ u.mayHoldCode = false)
    (sink : Sink) : (s.run settings u).run sink = (.unchanged, sink) := by
  have hskipped : (!settings.enabled || !u.mayHoldCode) = true := by
    rcases h with h | h
    · simp [h]
    · simp [h]
  rw [run, if_pos hskipped]
  rfl

theorem run_of_not_skipped {u : CompiledUnit} (henabled : settings.enabled = true)
    (hcode : u.mayHoldCode = true) (sink : Sink) :
    (s.run settings u).run sink =
      match s.guardedBytes u settings with
      | .ok (some bytes) => (.guarded bytes, sink)
      | .ok none => (.unchanged, sink)
      | .error e =>
        (.failed ⟨title, .error, u.name, e.message⟩,
          sink.report ⟨title, .error, u.name, e.message⟩) := by
  rw [run]
  simp only [henabled, hcode, Bool.not_true, Bool.or_self, Bool.false_eq_true, if_false]
  cases s.guardedBytes u settings with
  | error e => rfl
  | ok written => cases written with
    | none => rfl
    | some bytes => rfl

/-- A unit fares as it does alone, and leaves its diagnostic behind what was reported before. -/
theorem run_eq (u : CompiledUnit) (sink : Sink) :
    (s.run settings u).run sink =
      (s.alone settings u, sink.reportAll (s.alone settings u).diagnostic?.toList) := by
  rw [alone]
  by_cases hskipped : settings.enabled = false ∨ u.mayHoldCode = false
  · rw [s.run_of_skipped settings hskipped, s.run_of_skipped settings hskipped]
    exact Prod.ext rfl (sink.reportAll_nil).symm
  · simp only [not_or, Bool.not_eq_false] at hskipped
    obtain ⟨henabled, hcode⟩ := hskipped
    rw [s.run_of_not_skipped settings henabled hcode, s.run_of_not_skipped settings henabled hcode]
    cases s.guardedBytes u settings with
    | error e => exact Prod.ext rfl (sink.reportAll_singleton _).symm
    | ok written => cases written with
      | none => exact Prod.ext rfl (sink.reportAll_nil).symm
      | some bytes => exact Prod.ext rfl (sink.reportAll_nil).symm

/-- Units that are run one after the other fare as they do alone. -/
theorem run_mapM_eq (units : List CompiledUnit) (sink : Sink) :
    (units.mapM (s.run settings)).run sink =
      (units.map (s.alone settings), sink.reportAll (s.failures settings units)) := by
  induction units generalizing sink with
  | nil => exact Prod.ext rfl (sink.reportAll_nil).symm
  | cons u units ih =>
    have hfailures : s.failures settings (u :: units) =
        (s.alone settings u).diagnostic?.toList ++ s.failures settings units := by
      rw [failures, List.map_cons, List.filterMap_cons]
      cases (s.alone settings u).diagnostic? with
      | none => rfl
      | some d => rfl
    rw [List.mapM_cons, StateT.run_bind, s.run_eq settings u, hfailures, Sink.reportAll_append]
    show (StateT.run (units.mapM (s.run settings) >>= _) _ : Id _) = _
    rw [StateT.run_bind, ih]
    rfl

/-- A build is refused for its settings before any unit is run, or it is its units one by one. -/
theorem run_runAll_eq (units : List CompiledUnit) (sink : Sink) :
    (s.runAll settings units).run.run sink =
      match settings.validate with
      | .error e => (.error e, sink)
      | .ok () =>
        (.ok (units.map (s.alone settings)), sink.reportAll (s.failures settings units)) := by
  rw [runAll]
  cases settings.validate with
  | error e => rfl
  | ok r =>
    have hunits := s.run_mapM_eq settings units sink
    show (StateT.run (Except.ok <$> units.mapM (s.run settings)) sink : Id _) = _
    rw [StateT.run_map, hunits]
    rfl

/-- A build fails as a whole only for its settings, before any unit is run. Otherwise it has one
outcome for each unit, that of the unit on its own, and reports one diagnostic for each failure, in
the order of the units. So the outcome of a unit is the same in every build. Nothing is read of a
unit if nothing is checked in it. -/
theorem runAll_contained (units : List CompiledUnit) (sink : Sink) :
    ((∃ e, settings.validate = .error e ∧
        (s.runAll settings units).run.run sink = (.error e, sink)) ∨
      settings.validate = .ok () ∧ ∃ outcomes sink',
        (s.runAll settings units).run.run sink = (.ok outcomes, sink') ∧
        List.Forall₂ (fun u outcome => ∀ other : Sink, (s.run settings u).run other =
          (outcome, other.reportAll outcome.diagnostic?.toList)) units outcomes ∧
        sink'.diagnostics.toList =
          sink.diagnostics.toList ++ outcomes.filterMap Outcome.diagnostic? ∧
        ∀ units' other outcomes' other',
          (s.runAll settings units').run.run other = (.ok outcomes', other') →
            ∀ i j : Nat, units[i]? = units'[j]? → outcomes[i]? = outcomes'[j]?) ∧
      ∀ name : String, settings.mode = .none ∨ lastNamePart name = "module-info" →
        ∀ (bytes : List UInt8) (other : Sink),
          (s.run settings ⟨name, bytes⟩).run other = (.unchanged, other) := by
  have hrun := s.run_runAll_eq settings
  refine ⟨?_, ?_⟩
  · cases hvalid : settings.validate with
    | error e =>
      refine Or.inl ⟨e, rfl, ?_⟩
      rw [hrun, hvalid]
    | ok r =>
      simp only [hvalid] at hrun
      refine Or.inr ⟨rfl, _, _, hrun units sink, ?_, ?_, ?_⟩
      · rw [List.forall₂_map_right_iff, List.forall₂_same]
        exact fun u _ other => s.run_eq settings u other
      · simp [Sink.reportAll, failures]
      · -- the outcomes of any build are those of its units alone
        intro units' other outcomes' other' hrun' i j hij
        obtain rfl := Except.ok.inj (Prod.mk.inj ((hrun units' other).symm.trans hrun')).1
        rw [List.getElem?_map, List.getElem?_map, hij]
  · intro name hskipped bytes other
    refine s.run_of_skipped settings ?_ other
    rcases hskipped with hmode | hname
    · exact Or.inl (by rw [Settings.enabled, hmode]; rfl)
    · exact Or.inr (by simp [CompiledUnit.mayHoldCode, hname])

/-- A unit that ends in the middle of its first word. -/
def cutOffUnit : CompiledUnit := ⟨"com.example.Broken", [0xca, 0xfe]⟩

/-- What is reported for the unit that is cut off. -/
def cutOffDiagnostic : Diagnostic :=
  ⟨title, .error, cutOffUnit.name, (UnitFailure.malformed (.truncated "magic" 0 2)).message⟩

/-- Between two guarded units stand one that is cut off and a module. -/
theorem exists_runAll_mixed : ∃ bytes outcomes sink',
    (runAll {} shortMarker [markedUnit, cutOffUnit, ⟨"module-info", [0]⟩, markedUnit]).run.run {} =
      (.ok outcomes, sink') ∧
    outcomes = [.guarded bytes, .failed cutOffDiagnostic, .unchanged, .guarded bytes] ∧
    sink'.diagnostics.toList = [cutOffDiagnostic] := by
  obtain ⟨hbuild, hskipped⟩ := runAll_contained {} shortMarker
    [markedUnit, cutOffUnit, ⟨"module-info", [0]⟩, markedUnit] {}
  have hvalid : shortMarker.validate = .ok () := by decide +kernel
  have hcutOff : ((run {} shortMarker cutOffUnit).run {}).1 = .failed cutOffDiagnostic := by
    decide +kernel
  obtain ⟨bytes, sink₁, hmarked⟩ := exists_run_markedUnit
  rcases hbuild with ⟨e, herror, -⟩ | ⟨-, outcomes, sink', hrun, houtcomes, hreported, -⟩
  · exact absurd (hvalid.symm.trans herror) (by simp)
  · simp only [List.forall₂_cons_left_iff, List.forall₂_nil_left_iff] at houtcomes
    obtain ⟨o₁, _, h₁, ⟨o₂, _, h₂, ⟨o₃, _, h₃, ⟨o₄, _, h₄, rfl, rfl⟩, rfl⟩, rfl⟩, rfl⟩ := houtcomes
    obtain rfl : o₁ = .guarded bytes := (Prod.mk.inj ((h₁ {}).symm.trans hmarked)).1
    obtain rfl : o₂ = .failed cutOffDiagnostic := by rw [← hcutOff, h₂]
    obtain rfl : o₃ = .unchanged := (Prod.mk.inj ((h₃ {}).symm.trans
      (hskipped "module-info" (Or.inr (by decide +kernel)) [0] {}))).1
    obtain rfl : o₄ = .guarded bytes := (Prod.mk.inj ((h₄ {}).symm.trans hmarked)).1
    exact ⟨bytes, _, sink', hrun, rfl, hreported⟩

end BuildStep

end PatternGuard
