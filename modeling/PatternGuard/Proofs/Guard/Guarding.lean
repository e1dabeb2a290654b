import Mathlib.Logic.Relation
import PatternGuard.Guard.Guarding
import PatternGuard.Proofs.Guard.Insert

/-!
# What guarding does to a class

The methods are taken one by one (`guardMethod_ok`), and what becomes of a method depends on the
method and on the pool only (`Step`): it stays as it is if it has no body or no checks, and
otherwise it is rewritten, which `Rewriting` records step by step. A run over all methods (`Run`)
does this to each of them and adds nothing to the class but constants and the attribute of guarded
classes (`guardClass_ok`).
-/

set_option autoImplicit false

namespace PatternGuard

open Outcome

/-! ## Emitted checks -/

namespace Policy

/-- The pools that come about when a policy emits checks, one after the other. -/
def Reaches (policy : Policy) : Pool → Pool → Prop :=
  Relation.ReflTransGen fun pool pool' =>
    ∃ site sequence, policy.emit site pool = .ok sequence pool'

/-- The policy emits these sequences for these checks, in order and none of them empty. -/
inductive EmitsAll (policy : Policy) : Pool → List Check → List (List Instruction) → Pool → Prop
  | nil (pool : Pool) : EmitsAll policy pool [] [] pool
  | cons {first next last : Pool} {c : Check} {sequence : List Instruction} {cs : List Check}
      {sequences : List (List Instruction)} : policy.emit c.site first = .ok sequence next →
      sequence ≠ [] → EmitsAll policy next cs sequences last →
      EmitsAll policy first (c :: cs) (sequence :: sequences) last

theorem EmitsAll.reaches {policy : Policy} {first last : Pool} {cs : List Check}
    {sequences : List (List Instruction)} (h : policy.EmitsAll first cs sequences last) :
    policy.Reaches first last := by
  induction h with
  | nil pool => exact Relation.ReflTransGen.refl
  | cons hemit _ _ ih => exact Relation.ReflTransGen.head ⟨_, _, hemit⟩ ih

theorem EmitsAll.length_eq {policy : Policy} {first last : Pool} {cs : List Check}
    {sequences : List (List Instruction)} (h : policy.EmitsAll first cs sequences last) :
    cs.length = sequences.length := by
  induction h with
  | nil pool => rfl
  | cons _ _ _ ih => rw [List.length_cons, List.length_cons, ih]

theorem EmitsAll.exists_emit {policy : Policy} {first last : Pool} {cs : List Check}
    {sequences : List (List Instruction)} (h : policy.EmitsAll first cs sequences last) :
    ∀ c ∈ cs.zip sequences, ∃ pool pool', policy.emit c.1.site pool = .ok c.2 pool' := by
  induction h with
  | nil pool => exact fun c hc => absurd hc List.not_mem_nil
  | cons hemit _ _ ih => exact List.forall_mem_cons.2 ⟨⟨_, _, hemit⟩, ih⟩

end Policy

/-- The insertion of a check: what pushes the checked reference, then the emitted sequence. -/
def Check.insertion (c : Check) (sequence : List Instruction) : Insertion where
  offset := c.offset
  catchesJumps := c.catchesJumps
  code := c.load :: sequence

/-- How a method becomes another one with the checks of its plan in its body. -/
structure Rewriting (policy : Policy) (className marker : String) (fields : List FieldPattern)
    (method method' : Member) where
  /-- The pool for which the checks are planned. -/
  before : Pool
  /-- The pool after the checks have been emitted. -/
  after : Pool
  body : CodeBody
  body' : CodeBody
  planned : List Check
  sequences : List (List Instruction)
  label : String
  body_eq : method.body? before = .ok (some body)
  planned_eq : Plan.ofMethod className marker fields before method body = .ok planned
  planned_ne_nil : planned ≠ []
  emits : policy.EmitsAll before planned sequences after
  inserts : body.withInsertions after (List.zipWith Check.insertion planned sequences)
    policy.depth label = .ok body'
  method_eq : method.setBody after body' = .ok method'

namespace Guarding

/-! ## Single steps -/

theorem ofExcept_ok_iff {α : Type} {x : Except GuardError α} {p p' : Progress} {a : α} :
    ofExcept x p = .ok a p' ↔ x = .ok a ∧ p = p' := by
  cases x with
  | error e => simp [ofExcept, throw_run_ne_ok]
  | ok b => simp [ofExcept, pure_run_ok_iff]

theorem ofData_ok_iff {α : Type} {x : Except Fault α} {p p' : Progress} {a : α} :
    ofData x p = .ok a p' ↔ x = .ok a ∧ p = p' := by
  rw [ofData, ofExcept_ok_iff, GuardError.ofData_ok_iff]

theorem emitting_ok_iff {α : Type} {action : Emission α} {p p' : Progress} {a : α} :
    emitting action p = .ok a p' ↔
      ∃ pool, action p.file.pool = .ok a pool ∧ p' = { p with file.pool := pool } := by
  rw [emitting]
  cases action p.file.pool with
  | ok b pool => simp [eq_comm]
  | error e pool => simp

theorem adaptExcept_ok_iff {α : Type} {action : Interning α} {pool pool' : Pool} {a : α} :
    (action.adaptExcept GuardError.malformed : Emission α) pool = .ok a pool' ↔
      action pool = .ok a pool' := by
  rw [EStateM.adaptExcept]
  cases action pool with
  | ok b pool => simp
  | error e pool => simp

theorem insertion_ok {policy : Policy} {c : Check} {p p' : Progress} {n : Insertion}
    (h : insertion policy c p = .ok n p') :
    ∃ sequence pool, policy.emit c.site p.file.pool = .ok sequence pool ∧ sequence ≠ [] ∧
      n = c.insertion sequence ∧ p'.file = { p.file with pool } := by
  obtain ⟨_, p₁, hasked, h₁⟩ := bind_run_ok_iff.1 h
  obtain rfl := modify_run_ok_iff.1 hasked
  obtain ⟨sequence, p₂, hemit, h₂⟩ := bind_run_ok_iff.1 h₁
  obtain ⟨pool, hpool, rfl⟩ := emitting_ok_iff.1 hemit
  obtain ⟨hempty, h₃⟩ := (unless_run_ok_iff fun _ _ => throw_run_ne_ok).1 h₂
  obtain ⟨rfl, rfl⟩ := pure_run_ok_iff.1 h₃
  refine ⟨sequence, pool, hpool, ?_, rfl, rfl⟩
  rintro rfl
  exact hempty rfl

/-- The checks of a plan are emitted one after the other. -/
theorem mapM_insertion_ok {policy : Policy} {planned : List Check} {p p' : Progress}
    {insertions : List Insertion} (h : planned.mapM (insertion policy) p = .ok insertions p') :
    ∃ sequences, policy.EmitsAll p.file.pool planned sequences p'.file.pool ∧
      insertions = List.zipWith Check.insertion planned sequences ∧
      p'.file = { p.file with pool := p'.file.pool } := by
  induction planned generalizing p insertions with
  | nil =>
    obtain ⟨rfl, rfl⟩ := pure_run_ok_iff.1 h
    exact ⟨[], Policy.EmitsAll.nil _, rfl, rfl⟩
  | cons c cs ih =>
    rw [List.mapM_cons] at h
    obtain ⟨n, p₁, hn, h₁⟩ := bind_run_ok_iff.1 h
    obtain ⟨ns, p₂, hns, h₂⟩ := bind_run_ok_iff.1 h₁
    obtain ⟨rfl, rfl⟩ := pure_run_ok_iff.1 h₂
    obtain ⟨sequence, pool, hemit, hne, rfl, hfile⟩ := insertion_ok hn
    obtain ⟨sequences, hemits, rfl, hfile'⟩ := ih hns
    rw [hfile] at hemits hfile'
    exact ⟨sequence :: sequences, Policy.EmitsAll.cons hemit hne hemits, rfl, hfile'⟩

/-! ## Methods -/

/-- What becomes of a method, while the pool grows from the first to the last one. -/
inductive MethodResult (policy : Policy) (className marker : String) (fields : List FieldPattern)
    (first last : Pool) (method : Member) : Member → Prop
  | withoutBody {pool : Pool} : policy.Reaches first pool → policy.Reaches pool last →
      method.body? pool = .ok none →
      MethodResult policy className marker fields first last method method
  | withoutChecks {pool : Pool} {body : CodeBody} : policy.Reaches first pool →
      policy.Reaches pool last → method.body? pool = .ok (some body) →
      Plan.ofMethod className marker fields pool method body = .ok [] →
      MethodResult policy className marker fields first last method method
  | rewritten {method' : Member}
      (r : Rewriting policy className marker fields method method') :
      policy.Reaches first r.before → policy.Reaches r.after last →
      MethodResult policy className marker fields first last method method'

theorem MethodResult.mono {policy : Policy} {className marker : String}
    {fields : List FieldPattern} {first first' last last' : Pool} {method method' : Member}
    (hfirst : policy.Reaches first' first) (hlast : policy.Reaches last last')
    (h : MethodResult policy className marker fields first last method method') :
    MethodResult policy className marker fields first' last' method method' := by
  cases h with
  | withoutBody h₁ h₂ hbody => exact .withoutBody (hfirst.trans h₁) (h₂.trans hlast) hbody
  | withoutChecks h₁ h₂ hbody hplan =>
    exact .withoutChecks (hfirst.trans h₁) (h₂.trans hlast) hbody hplan
  | rewritten r h₁ h₂ => exact .rewritten r (hfirst.trans h₁) (h₂.trans hlast)

theorem pool_ok_iff {p p' : Progress} {before : Pool} :
    pool p = .ok before p' ↔ p.file.pool = before ∧ p = p' := by
  simp [pool]

/-- What is done to one method: the pool before, the method, its planned checks, what becomes of it,
and the pool after. If the method is rewritten, its rewriting has the property `P`. -/
inductive Step (policy : Policy) (className marker : String) (fields : List FieldPattern)
    (P : ∀ {method method' : Member},
      Rewriting policy className marker fields method method' → Prop) :
    Pool → Member → List Check → Member → Pool → Prop
  | withoutBody {pool : Pool} {method : Member} : method.body? pool = .ok none →
      Step policy className marker fields P pool method [] method pool
  | withoutChecks {pool : Pool} {method : Member} {body : CodeBody} :
      method.body? pool = .ok (some body) →
      Plan.ofMethod className marker fields pool method body = .ok [] →
      Step policy className marker fields P pool method [] method pool
  | rewritten {method method' : Member}
      (r : Rewriting policy className marker fields method method') : P r →
      Step policy className marker fields P r.before method r.planned method' r.after

/-- What is done to the methods of a class, one after the other, where all rewritings have the
property `P`. Each method finds the pool that the methods in front of it have left. -/
inductive Run (policy : Policy) (className marker : String) (fields : List FieldPattern)
    (P : ∀ {method method' : Member},
      Rewriting policy className marker fields method method' → Prop) :
    Pool → List Member → List (List Check) → List Member → Pool → Prop
  | nil (pool : Pool) : Run policy className marker fields P pool [] [] [] pool
  | cons {first next last : Pool} {method method' : Member} {plan : List Check}
      {rest rest' : List Member} {plans : List (List Check)} :
      Step policy className marker fields P first method plan method' next →
      Run policy className marker fields P next rest plans rest' last →
      Run policy className marker fields P first (method :: rest) (plan :: plans)
        (method' :: rest') last

section Runs

variable {policy : Policy} {className marker : String} {fields : List FieldPattern}

section Property

variable {P Q : ∀ {method method' : Member},
  Rewriting policy className marker fields method method' → Prop}

theorem Step.reaches {first last : Pool} {method method' : Member} {plan : List Check}
    (h : Step policy className marker fields P first method plan method' last) :
    policy.Reaches first last := by
  cases h with
  | withoutBody _ => exact .refl
  | withoutChecks _ _ => exact .refl
  | rewritten r _ => exact r.emits.reaches

theorem Step.result {first last : Pool} {method method' : Member} {plan : List Check}
    (h : Step policy className marker fields P first method plan method' last) :
    MethodResult policy className marker fields first last method method' := by
  cases h with
  | withoutBody hbody => exact .withoutBody .refl .refl hbody
  | withoutChecks hbody hplan => exact .withoutChecks .refl .refl hbody hplan
  | rewritten r _ => exact .rewritten r .refl .refl

/-- A step with checks rewrites the method. -/
theorem Step.exists_rewriting {first last : Pool} {method method' : Member} {plan : List Check}
    (h : Step policy className marker fields P first method plan method' last)
    (hplan : plan ≠ []) :
    ∃ r : Rewriting policy className marker fields method method',
      r.before = first ∧ r.planned = plan ∧ r.after = last ∧ P r := by
  cases h with
  | withoutBody _ => exact absurd rfl hplan
  | withoutChecks _ _ => exact absurd rfl hplan
  | rewritten r hP => exact ⟨r, rfl, rfl, rfl, hP⟩

theorem Run.of_singleton {first last : Pool} {method : Member} {methods' : List Member}
    {plans : List (List Check)}
    (h : Run policy className marker fields P first [method] plans methods' last) :
    ∃ method' plan, Step policy className marker fields P first method plan method' last ∧
      methods' = [method'] ∧ plans = [plan] := by
  cases h with
  | cons hstep hrest =>
    cases hrest with
    | nil => exact ⟨_, _, hstep, rfl, rfl⟩

/-- A single method that does not stay as it is has been rewritten. -/
theorem Run.exists_rewriting {first last : Pool} {method : Member} {methods' : List Member}
    {plans : List (List Check)}
    (h : Run policy className marker fields P first [method] plans methods' last)
    (hne : methods' ≠ [method]) :
    ∃ (method' : Member) (r : Rewriting policy className marker fields method method'),
      methods' = [method'] ∧ r.before = first ∧ r.after = last ∧ P r := by
  obtain ⟨method', plan, hstep, rfl, -⟩ := h.of_singleton
  cases hstep with
  | withoutBody _ => exact absurd rfl hne
  | withoutChecks _ _ => exact absurd rfl hne
  | rewritten r hP => exact ⟨method', r, rfl, rfl, rfl, hP⟩

theorem Run.reaches {first last : Pool} {methods methods' : List Member}
    {plans : List (List Check)}
    (h : Run policy className marker fields P first methods plans methods' last) :
    policy.Reaches first last := by
  induction h with
  | nil pool => exact .refl
  | cons hstep _ ih => exact hstep.reaches.trans ih

theorem Run.results {first last : Pool} {methods methods' : List Member}
    {plans : List (List Check)}
    (h : Run policy className marker fields P first methods plans methods' last) :
    List.Forall₂ (MethodResult policy className marker fields first last) methods methods' := by
  induction h with
  | nil pool => exact List.Forall₂.nil
  | cons hstep hrun ih =>
    refine List.Forall₂.cons (hstep.result.mono .refl hrun.reaches) ?_
    exact ih.imp fun _ _ hresult => hresult.mono hstep.reaches .refl

/-- The rewritings of a run have every property that follows, rewriting by rewriting, from an
invariant of the pool. -/
theorem Run.imp_of_invariant {I : Pool → Prop} {first last : Pool} {methods methods' : List Member}
    {plans : List (List Check)}
    (h : Run policy className marker fields P first methods plans methods' last)
    (hfirst : I first)
    (hstep : ∀ {method method' : Member}
      (r : Rewriting policy className marker fields method method'),
      I r.before → policy.Reaches r.after last → P r → I r.after ∧ Q r) :
    Run policy className marker fields Q first methods plans methods' last := by
  induction h with
  | nil pool => exact .nil pool
  | cons hmethod hrest ih =>
    cases hmethod with
    | withoutBody hbody => exact .cons (.withoutBody hbody) (ih hfirst hstep)
    | withoutChecks hbody hplan => exact .cons (.withoutChecks hbody hplan) (ih hfirst hstep)
    | rewritten r hP =>
      obtain ⟨hafter, hQ⟩ := hstep r hfirst hrest.reaches hP
      exact .cons (.rewritten r hQ) (ih hafter hstep)

end Property

/-- The checks of a body are inserted, or there are none and the class stays as it is. -/
theorem guardBody_ok {report report' : Report} {method : Member} {body : CodeBody} {index : Nat}
    {p p' : Progress} (hbody : method.body? p.file.pool = .ok (some body))
    (h : guardBody policy className marker fields report index method body p = .ok report' p') :
    (Plan.ofMethod className marker fields p.file.pool method body = .ok [] ∧ report' = report ∧
        p' = p) ∨
      ∃ (method' : Member) (r : Rewriting policy className marker fields method method'),
        r.before = p.file.pool ∧ r.after = p'.file.pool ∧
        report' = ⟨report.sites + r.planned.length, report.methods + 1⟩ ∧
        p'.file = { p.file with
          pool := p'.file.pool, methods := p.file.methods.set index method' } := by
  obtain ⟨before, p₁, hbefore, h₁⟩ := bind_run_ok_iff.1 h
  obtain ⟨rfl, rfl⟩ := pool_ok_iff.1 hbefore
  obtain ⟨planned, p₂, hplan, h₂⟩ := bind_run_ok_iff.1 h₁
  obtain ⟨hplanned, rfl⟩ := ofExcept_ok_iff.1 hplan
  split at h₂
  · rename_i hempty
    obtain ⟨rfl, rfl⟩ := pure_run_ok_iff.1 h₂
    rw [List.isEmpty_iff.1 hempty] at hplanned
    exact Or.inl ⟨hplanned, rfl, rfl⟩
  · rename_i hempty
    obtain ⟨name, p₃, hname, h₃⟩ := bind_run_ok_iff.1 h₂
    obtain ⟨-, rfl⟩ := ofData_ok_iff.1 hname
    obtain ⟨descriptor, p₄, hdescriptor, h₄⟩ := bind_run_ok_iff.1 h₃
    obtain ⟨-, rfl⟩ := ofData_ok_iff.1 hdescriptor
    obtain ⟨insertions, p₅, hinsertions, h₅⟩ := bind_run_ok_iff.1 h₄
    obtain ⟨sequences, hemits, rfl, hfile⟩ := mapM_insertion_ok hinsertions
    -- the new body is made with the pool that the checks have left
    obtain ⟨after, p₆, hafter, h₆⟩ := bind_run_ok_iff.1 h₅
    obtain ⟨rfl, rfl⟩ := pool_ok_iff.1 hafter
    obtain ⟨body', p₇, hinsertion, h₇⟩ := bind_run_ok_iff.1 h₆
    obtain ⟨hinserts, rfl⟩ := ofExcept_ok_iff.1 hinsertion
    obtain ⟨method', p₈, hbody', h₈⟩ := bind_run_ok_iff.1 h₇
    obtain ⟨hmethod, rfl⟩ := ofData_ok_iff.1 hbody'
    obtain ⟨_, p₉, hset, h₉⟩ := bind_run_ok_iff.1 h₈
    obtain rfl := modify_run_ok_iff.1 hset
    obtain ⟨rfl, rfl⟩ := pure_run_ok_iff.1 h₉
    refine Or.inr ⟨method', ⟨_, _, body, body', planned, sequences, _, hbody, hplanned, ?_, hemits,
      hinserts, hmethod⟩, rfl, rfl, rfl, ?_⟩
    · rintro rfl
      exact hempty rfl
    · show { p₅.file with methods := p₅.file.methods.set index method' } = _
      rw [hfile]

/-- One method is guarded: it becomes what its checks make of it, and nothing else changes but the
pool. -/
theorem guardMethod_ok {report report' : Report} {method : Member} {index : Nat}
    {p p' : Progress} (hindex : p.file.methods[index]? = some method)
    (h : guardMethod policy className marker fields report (method, index) p = .ok report' p') :
    ∃ plan method',
      Step policy className marker fields (fun _ => True) p.file.pool method plan method'
        p'.file.pool ∧
      report' = ⟨report.sites + plan.length, report.methods + if plan = [] then 0 else 1⟩ ∧
      p'.file = { p.file with
        pool := p'.file.pool, methods := p.file.methods.set index method' } := by
  -- a method that stays as it is may as well be stored again
  have hsame : p.file = { p.file with methods := p.file.methods.set index method } := by
    obtain ⟨hlt, hget⟩ := List.getElem?_eq_some_iff.1 hindex
    rw [← hget, List.set_getElem_self]
  obtain ⟨before, p₁, hbefore, h₁⟩ := bind_run_ok_iff.1 h
  obtain ⟨rfl, rfl⟩ := pool_ok_iff.1 hbefore
  obtain ⟨body?, p₂, hread, h₂⟩ := bind_run_ok_iff.1 h₁
  obtain ⟨hbody, rfl⟩ := ofData_ok_iff.1 hread
  cases body? with
  | none =>
    obtain ⟨rfl, rfl⟩ := pure_run_ok_iff.1 h₂
    exact ⟨[], method, .withoutBody hbody, rfl, hsame⟩
  | some body =>
    rcases guardBody_ok hbody h₂ with ⟨hplanned, rfl, rfl⟩ | ⟨method', r, hbefore, hafter, rfl,
      hfile⟩
    · exact ⟨[], method, .withoutChecks hbody hplanned, rfl, hsame⟩
    · have hstep : Step policy className marker fields (fun _ => True) r.before method r.planned
          method' r.after := .rewritten r trivial
      rw [hbefore, hafter] at hstep
      refine ⟨r.planned, method', hstep, ?_, hfile⟩
      rw [if_neg r.planned_ne_nil]

/-- All methods are guarded, one after the other, and the report counts their checks. -/
theorem foldlM_guardMethod_ok {report report' : Report} {done rest : List Member}
    {p p' : Progress} (hmethods : p.file.methods = done ++ rest)
    (h : (rest.zipIdx done.length).foldlM (guardMethod policy className marker fields) report p =
      .ok report' p') :
    ∃ plans rest', Run policy className marker fields (fun _ => True) p.file.pool rest plans rest'
        p'.file.pool ∧
      report' = ⟨report.sites + (plans.map List.length).sum,
        report.methods + plans.countP fun plan => plan ≠ []⟩ ∧
      p'.file = { p.file with pool := p'.file.pool, methods := done ++ rest' } := by
  induction rest generalizing done report p with
  | nil =>
    obtain ⟨rfl, rfl⟩ := pure_run_ok_iff.1 h
    refine ⟨[], [], .nil _, rfl, ?_⟩
    rw [← hmethods]
  | cons method rest ih =>
    rw [List.zipIdx_cons, List.foldlM_cons] at h
    obtain ⟨report₁, p₁, hmethod, hrest⟩ := bind_run_ok_iff.1 h
    obtain ⟨plan, method', hstep, rfl, hfile⟩ :=
      guardMethod_ok (by rw [hmethods]; simp) hmethod
    have hmethods' : p₁.file.methods = done ++ [method'] ++ rest := by
      rw [hfile, hmethods]
      simp
    have hlength : done.length + 1 = (done ++ [method']).length := by simp
    rw [hlength] at hrest
    obtain ⟨plans, rest', hrun, rfl, hfile'⟩ := ih hmethods' hrest
    refine ⟨plan :: plans, method' :: rest', .cons hstep hrun, ?_, ?_⟩
    · rw [List.map_cons, List.sum_cons, List.countP_cons, Nat.add_assoc, Nat.add_assoc]
      by_cases hplan : plan = []
      · simp [hplan]
      · simp [hplan, Nat.add_comm]
    · rw [hfile', hfile]
      simp

end Runs

/-! ## Classes -/

/-- The attribute of guarded classes is added, and its name to the pool if it is missing. -/
theorem markGuarded_ok {p p' : Progress} {r : Unit} (h : markGuarded p = .ok r p') :
    ∃ index pool, Interning.text guardedName p.file.pool = .ok index pool ∧
      p'.file = { p.file with pool, attributes := p.file.attributes ++ [⟨index, []⟩] } := by
  obtain ⟨index, p₁, hemit, hattribute⟩ := bind_run_ok_iff.1 h
  obtain ⟨pool, htext, rfl⟩ := emitting_ok_iff.1 hemit
  obtain rfl := modify_run_ok_iff.1 hattribute
  exact ⟨index, pool, adaptExcept_ok_iff.1 htext, rfl⟩

/-- A class with guards is the class with its methods guarded and, if there are any checks, with the
attribute of guarded classes. -/
theorem guardClass_ok {policy : Policy} {marker : String} {p p' : Progress} {report : Report}
    (h : guardClass policy marker p = .ok report p') :
    (p.file.isModule = true ∧ report = ⟨0, 0⟩ ∧ p' = p) ∨
      ∃ className fields plans methods pool, p.file.name = .ok className ∧
        Plan.markedFields p.file className marker = .ok fields ∧
        Run policy className marker fields (fun _ => True) p.file.pool p.file.methods plans methods
          pool ∧
        report = ⟨(plans.map List.length).sum, plans.countP fun plan => plan ≠ []⟩ ∧
        ((report.changed = false ∧ p'.file = { p.file with pool, methods }) ∨
          (report.changed = true ∧ ∃ index last, Interning.text guardedName pool = .ok index last ∧
            p'.file = { p.file with
              pool := last, methods, attributes := p.file.attributes ++ [⟨index, []⟩] })) := by
  obtain ⟨_, p₁, hget, h₁⟩ := bind_run_ok_iff.1 h
  obtain ⟨rfl, rfl⟩ := get_run_ok_iff.1 hget
  simp only at h₁
  split at h₁
  · rename_i hmodule
    obtain ⟨rfl, rfl⟩ := pure_run_ok_iff.1 h₁
    exact Or.inl ⟨hmodule, rfl, rfl⟩
  · obtain ⟨className, p₂, hname, h₂⟩ := bind_run_ok_iff.1 h₁
    obtain ⟨hclass, rfl⟩ := ofData_ok_iff.1 hname
    obtain ⟨-, h₃⟩ := (unless_run_ok_iff fun _ _ => throw_run_ne_ok).1 h₂
    obtain ⟨fields, p₃, hmarked, h₄⟩ := bind_run_ok_iff.1 h₃
    obtain ⟨hfields, rfl⟩ := ofExcept_ok_iff.1 hmarked
    obtain ⟨report', p₄, hrun, h₅⟩ := bind_run_ok_iff.1 h₄
    obtain ⟨plans, methods, hrun, hreport, hfile⟩ :=
      foldlM_guardMethod_ok (List.nil_append _).symm hrun
    simp only [Nat.zero_add] at hreport
    rw [List.nil_append] at hfile
    -- what is left to do depends on whether any check was inserted
    split at h₅
    · rename_i hchanged
      obtain ⟨_, p₅, hmark, h₆⟩ := bind_run_ok_iff.1 h₅
      obtain ⟨rfl, rfl⟩ := pure_run_ok_iff.1 h₆
      obtain ⟨index, last, htext, hmarked⟩ := markGuarded_ok hmark
      refine Or.inr ⟨className, fields, plans, methods, p₄.file.pool, hclass, hfields, hrun,
        hreport, Or.inr ⟨hchanged, index, last, htext, ?_⟩⟩
      rw [hmarked, hfile]
    · rename_i hchanged
      obtain ⟨rfl, rfl⟩ := pure_run_ok_iff.1 h₅
      exact Or.inr ⟨className, fields, plans, methods, p₄.file.pool, hclass, hfields, hrun,
        hreport, Or.inl ⟨by simpa using hchanged, hfile⟩⟩

/-- What becomes of the methods, while the pool grows up to a pool to which at most the name of the
attribute of guarded classes is added. -/
theorem exists_results_of_guardClass {policy : Policy} {marker : String} {p p' : Progress}
    {report : Report} (h : guardClass policy marker p = .ok report p') :
    (p.file.isModule = true ∧ p' = p) ∨
      ∃ className fields pool, p.file.name = .ok className ∧
        Plan.markedFields p.file className marker = .ok fields ∧
        policy.Reaches p.file.pool pool ∧
        List.Forall₂ (MethodResult policy className marker fields p.file.pool pool)
          p.file.methods p'.file.methods ∧
        (p'.file.pool = pool ∨
          ∃ index, Interning.text guardedName pool = .ok index p'.file.pool) := by
  rcases guardClass_ok h with ⟨hmodule, -, rfl⟩ | ⟨className, fields, plans, methods, pool, hname,
    hfields, hrun, -, hfile⟩
  · exact Or.inl ⟨hmodule, rfl⟩
  · refine Or.inr ⟨className, fields, pool, hname, hfields, hrun.reaches, ?_⟩
    rcases hfile with ⟨-, hfile⟩ | ⟨-, index, last, hmark, hfile⟩
    · rw [hfile]
      exact ⟨hrun.results, Or.inl rfl⟩
    · rw [hfile]
      exact ⟨hrun.results, Or.inr ⟨index, hmark⟩⟩

end Guarding

end PatternGuard
