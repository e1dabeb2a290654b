import PatternGuard.Proofs.Guard.Paths
import PatternGuard.Proofs.Pool.Interned

/-!
# What guarding leaves alone

If a policy does nothing to the pool but intern constants, guarding a class touches as little as it
can. A class without checks stays as it is, pool included. In any other class the pool gets more
entries behind those that it has, the attribute of guarded classes is added, and each method with
checks gets another body in its first `Code` attribute (`Guarding.guardClass_untouched`). Since that
name is in the pool before anything is interned, the attribute is the first one of this name by the
old pool as well as by every later one.
-/

set_option autoImplicit false

namespace PatternGuard

open Outcome

/-- The checks of a validator need nothing but more constants. -/
theorem Validator.onlyInterns_policy (v : Validator) : v.policy.OnlyInterns := by
  intro site pool sequence pool' h
  have hcheck : Pool.OnlyInterns (v.check site) :=
    (Interning.onlyInterns_string _).bind fun _ =>
      (Interning.onlyInterns_string _).bind fun _ =>
        (Interning.onlyInterns_member _ _).bind fun _ => Pool.onlyInterns_pure _
  exact hcheck _ _ _ (Guarding.adaptExcept_ok_iff.1 h)

/-- The second method is the first one with another body in its first `Code` attribute. -/
def Member.DiffersInCode (pool : Pool) (m m' : Member) : Prop :=
  ∃ front a back info, m.attributes = front ++ a :: back ∧
    (∀ b ∈ front, b.isNamed pool Attribute.codeName = false) ∧
    a.isNamed pool Attribute.codeName = true ∧
    m' = { m with attributes := front ++ { a with info } :: back }

namespace Guarding

/-- The checks that were planned for a method, with a pool that grew from the first one: none if it
has no body. -/
def Planned (className marker : String) (fields : List FieldPattern) (first : Pool)
    (method : Member) (plan : List Check) : Prop :=
  ∃ pool, first.Interned pool ∧ ((method.body? pool = .ok none ∧ plan = []) ∨
    ∃ body, method.body? pool = .ok (some body) ∧
      Plan.ofMethod className marker fields pool method body = .ok plan)

/-- What has become of a method with its plan: a method without checks stays as it is, and another
one is rewritten with these checks and differs in the body of its first `Code` attribute only. -/
def Keeps (policy : Policy) (className marker : String) (fields : List FieldPattern) (pool : Pool)
    (planned : Member × List Check) (method' : Member) : Prop :=
  (planned.2 = [] ∧ method' = planned.1) ∨
    (planned.2 ≠ [] ∧ planned.1.DiffersInCode pool method' ∧
      ∃ r : Rewriting policy className marker fields planned.1 method', r.planned = planned.2)

/-- The class has been marked as guarded, and nothing else has changed but its methods and its pool,
which has more entries. -/
structure Marked (file file' : ClassFile) : Prop where
  mark : ∃ index, file'.pool.get? index = some (.ofText guardedName) ∧
    file' = { file with
      pool := file'.pool, methods := file'.methods
      attributes := file.attributes ++ [⟨index, []⟩] }
  entries : file.pool.entries.toList <+: file'.pool.entries.toList

section Runs

variable {policy : Policy} {className marker : String} {fields : List FieldPattern}
  {original first last : Pool}

/-- A rewritten method differs in its first `Code` attribute, and the name of this attribute has
been in the pool all along. -/
theorem Extended.differsInCode {method method' : Member} (hpolicy : policy.OnlyInterns)
    (horiginal : original.Built) (r : Rewriting policy className marker fields method method')
    (h : Extended original r.before) : method.DiffersInCode original method' := by
  obtain ⟨a, hfind⟩ := r.exists_code
  obtain ⟨ha, front, back, hattributes, hfront⟩ := Attribute.findIn?_eq_some_iff.1 hfind
  rw [h.isNamed_eq] at ha
  have hafter := r.extended_after hpolicy horiginal h
  -- by the pool of the new body it is still the first one of this name
  refine ⟨front, a, back, ?_⟩
  obtain ⟨info, -, h₁⟩ := bind_ok_iff.1 r.method_eq
  split at h₁
  · refine ⟨info, hattributes, fun b hb => (h.isNamed_eq b).symm.trans (hfront b hb), ha, ?_⟩
    rw [← pure_ok_iff.1 h₁, hattributes, Attribute.replaceBody_append]
    · intro b hb
      rw [hafter.isNamed_eq, ← h.isNamed_eq]
      exact hfront b hb
    · rw [hafter.isNamed_eq]
      exact ha
  · exact absurd h₁ throw_ne_ok

/-- One step leaves alone what it need not touch. -/
theorem Step.keeps {method method' : Member} {plan : List Check} (hpolicy : policy.OnlyInterns)
    (horiginal : original.Built)
    (h : Step policy className marker fields (fun _ => True) first method plan method' last)
    (hfirst : Extended original first) :
    Extended original last ∧ Planned className marker fields original method plan ∧
      Keeps policy className marker fields original (method, plan) method' := by
  cases h with
  | withoutBody hbody =>
    exact ⟨hfirst, ⟨_, hfirst.interned, Or.inl ⟨hbody, rfl⟩⟩, Or.inl ⟨rfl, rfl⟩⟩
  | withoutChecks hbody hplan =>
    exact ⟨hfirst, ⟨_, hfirst.interned, Or.inr ⟨_, hbody, hplan⟩⟩, Or.inl ⟨rfl, rfl⟩⟩
  | rewritten r _ =>
    exact ⟨r.extended_after hpolicy horiginal hfirst,
      ⟨_, hfirst.interned, Or.inr ⟨_, r.body_eq, r.planned_eq⟩⟩,
      Or.inr ⟨r.planned_ne_nil, hfirst.differsInCode hpolicy horiginal r, r, rfl⟩⟩

/-- A run leaves alone what no step need touch. -/
theorem Run.keeps {methods methods' : List Member} {plans : List (List Check)}
    (hpolicy : policy.OnlyInterns) (horiginal : original.Built)
    (h : Run policy className marker fields (fun _ => True) first methods plans methods' last)
    (hfirst : Extended original first) :
    Extended original last ∧
      List.Forall₂ (Planned className marker fields original) methods plans ∧
      List.Forall₂ (Keeps policy className marker fields original) (methods.zip plans)
        methods' := by
  induction h with
  | nil pool => exact ⟨hfirst, List.Forall₂.nil, List.Forall₂.nil⟩
  | cons hstep _ ih =>
    obtain ⟨hnext, hplanned, hkeeps⟩ := hstep.keeps hpolicy horiginal hfirst
    obtain ⟨hlast, hplans, hmethods⟩ := ih hnext
    exact ⟨hlast, List.Forall₂.cons hplanned hplans, List.Forall₂.cons hkeeps hmethods⟩

/-- A run without checks changes nothing. -/
theorem Run.eq_of_plans_eq_nil {methods methods' : List Member} {plans : List (List Check)}
    (h : Run policy className marker fields (fun _ => True) first methods plans methods' last)
    (hplans : ∀ plan ∈ plans, plan = []) : methods' = methods ∧ last = first := by
  induction h with
  | nil pool => exact ⟨rfl, rfl⟩
  | cons hstep _ ih =>
    obtain ⟨hplan, hplans⟩ := List.forall_mem_cons.1 hplans
    obtain ⟨rfl, rfl⟩ := ih hplans
    cases hstep with
    | withoutBody _ => exact ⟨rfl, rfl⟩
    | withoutChecks _ _ => exact ⟨rfl, rfl⟩
    | rewritten r _ => exact absurd hplan r.planned_ne_nil

end Runs

/-- Guarding a class with a policy that only interns constants leaves a class without checks as it
is. Every other class is marked, and its methods keep everything but the bodies of those with
checks. The report counts the checks, and the methods that have any. -/
theorem guardClass_untouched {policy : Policy} {marker : String} {p p' : Progress} {report : Report}
    (hpolicy : policy.OnlyInterns) (hpool : p.file.pool.Built)
    (h : guardClass policy marker p = .ok report p') :
    (report.sites = 0 → p'.file = p.file) ∧ (report.sites ≠ 0 → Marked p.file p'.file) ∧
      ((p.file.isModule = true ∧ report = ⟨0, 0⟩) ∨
        ∃ className fields plans, p.file.name = .ok className ∧
          Plan.markedFields p.file className marker = .ok fields ∧
          List.Forall₂ (Planned className marker fields p.file.pool) p.file.methods plans ∧
          report = ⟨(plans.map List.length).sum, plans.countP fun plan => plan ≠ []⟩ ∧
          List.Forall₂ (Keeps policy className marker fields p.file.pool)
            (p.file.methods.zip plans) p'.file.methods) := by
  rcases guardClass_ok h with ⟨hmodule, rfl, rfl⟩ | ⟨className, fields, plans, methods, pool, hname,
    hfields, hrun, hreport, hfile⟩
  · exact ⟨fun _ => rfl, fun hne => absurd rfl hne, Or.inl ⟨hmodule, rfl⟩⟩
  · obtain ⟨hextended, hplans, hkeeps⟩ := hrun.keeps hpolicy hpool ⟨.refl, fun _ => rfl⟩
    rcases hfile with ⟨hchanged, hfile⟩ | ⟨hchanged, index, last, htext, hfile⟩
    · have hsites : report.sites = 0 := by simpa [Report.changed] using hchanged
      refine ⟨fun _ => ?_, fun hne => absurd hsites hne,
        Or.inr ⟨className, fields, plans, hname, hfields, hplans, hreport, ?_⟩⟩
      · -- if there are no checks in all, no plan has any
        have hnil : ∀ plan ∈ plans, plan = [] := by
          intro plan hplan
          rw [hreport, List.sum_eq_zero_iff_forall_eq_nat] at hsites
          exact List.length_eq_zero_iff.1 (hsites _ (List.mem_map_of_mem hplan))
        obtain ⟨rfl, rfl⟩ := hrun.eq_of_plans_eq_nil hnil
        exact hfile
      · rw [hfile]
        exact hkeeps
    · have hsites : report.sites ≠ 0 := by
        have hpos : 0 < report.sites := by simpa [Report.changed] using hchanged
        omega
      have hinterned := Interning.onlyInterns_text guardedName _ _ _ htext
      have hget := (hextended.interned.built hpool).get?_of_text htext
      refine ⟨fun hzero => absurd hzero hsites, fun _ => ?_,
        Or.inr ⟨className, fields, plans, hname, hfields, hplans, hreport, ?_⟩⟩
      · rw [hfile]
        exact ⟨⟨index, hget, rfl⟩, (hextended.interned.trans hinterned).prefix_entries⟩
      · rw [hfile]
        exact hkeeps

theorem exists_untouched_markedClass : ∃ report p', dropping.OnlyInterns ∧
    markedClass.pool.Built ∧ guardClass dropping "Lm;" ⟨markedClass, #[]⟩ = .ok report p' ∧
    Marked markedClass p'.file ∧ ∃ className fields plans,
      List.Forall₂ (Planned className "Lm;" fields markedClass.pool) [markedMethod] plans ∧
      report = ⟨(plans.map List.length).sum, plans.countP fun plan => plan ≠ []⟩ ∧
      List.Forall₂ (Keeps dropping className "Lm;" fields markedClass.pool)
        ([markedMethod].zip plans) p'.file.methods := by
  obtain ⟨report, p', hrun, hne⟩ :=
    exists_guardClass_of_changesMethods markedClass (by decide +kernel)
  obtain ⟨hsame, hmarked, hrest⟩ :=
    guardClass_untouched onlyInterns_dropping built_markedClass hrun
  have hsites : report.sites ≠ 0 := by
    intro hzero
    rw [hsame hzero] at hne
    exact hne rfl
  refine ⟨report, p', onlyInterns_dropping, built_markedClass, hrun, hmarked hsites, ?_⟩
  rcases hrest with ⟨hmodule, -⟩ | ⟨className, fields, plans, -, -, hplans, hreport, hkeeps⟩
  · exact absurd hmodule (by decide +kernel)
  · exact ⟨className, fields, plans, hplans, hreport, hkeeps⟩

end Guarding

end PatternGuard
