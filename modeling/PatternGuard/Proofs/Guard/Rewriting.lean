import PatternGuard.Proofs.ClassFile.Attribute
import PatternGuard.Proofs.Guard.Guarding
import PatternGuard.Proofs.Guard.Plan
import PatternGuard.Proofs.Pool.Interned

/-!
# Rewritten methods and the pool of their class

The checks of a rewritten method are those of its plan with the code that was emitted for them, and
the method has the body with this code in the pool that they leave (`Rewriting.body?_eq`). The pool
grows with every method. If the policy does nothing to it but intern constants, no name changes its
meaning on the way: the body of every rewritten method is found in the class as it was before, and
the new body in the class that guarding makes (`Guarding.exists_run_of_guardClass`).
-/

set_option autoImplicit false

namespace PatternGuard

open Outcome

namespace Rewriting

variable {policy : Policy} {className marker : String} {fields : List FieldPattern}
  {method method' : Member}

/-- The code of a method is never so long that its offsets need more than 32 bits. -/
theorem length_code_le (r : Rewriting policy className marker fields method method') :
    r.body.code.length ≤ 4294967296 :=
  Nat.le_trans (Member.length_code_le r.body_eq) (by decide)

theorem exists_shape (r : Rewriting policy className marker fields method method') :
    ∃ parameters guards, r.planned = parameters ++ guards ∧
      Plan.Shape r.body parameters guards :=
  Plan.ofMethod_ok r.length_code_le r.planned_eq

/-- The checks with the sequences that were emitted for them. -/
def checks (r : Rewriting policy className marker fields method method') :
    List (Check × List Instruction) :=
  r.planned.zip r.sequences

/-- The insertions of all checks. -/
def insertions (r : Rewriting policy className marker fields method method') : List Insertion :=
  List.zipWith Check.insertion r.planned r.sequences

theorem insertions_eq (r : Rewriting policy className marker fields method method') :
    r.insertions = r.checks.map fun c => c.1.insertion c.2 := by
  rw [insertions, checks, ← List.map_uncurry_zip_eq_zipWith]
  rfl

theorem planned_of_mem_checks (r : Rewriting policy className marker fields method method')
    {c : Check × List Instruction} (hc : c ∈ r.checks) : c.1 ∈ r.planned :=
  (List.of_mem_zip hc).1

theorem map_fst_checks (r : Rewriting policy className marker fields method method') :
    r.checks.map Prod.fst = r.planned :=
  List.map_fst_zip (Nat.le_of_eq r.emits.length_eq)

theorem insertions_ne_nil (r : Rewriting policy className marker fields method method') :
    r.insertions ≠ [] := by
  rw [r.insertions_eq]
  intro hnil
  rw [List.map_eq_nil_iff] at hnil
  exact r.planned_ne_nil (by rw [← r.map_fst_checks, hnil, List.map_nil])

theorem body?_eq (r : Rewriting policy className marker fields method method') :
    method'.body? r.after = .ok (some r.body') := by
  obtain ⟨old, woven, hexpansion, -⟩ := CodeBody.exists_expansion r.inserts
  exact Member.body?_of_setBody r.method_eq (hexpansion.code_ne_nil r.insertions_ne_nil)

/-- The checks that are planned with a pool are those of the rewriting that begins with it. -/
theorem planned_eq_of_before (r : Rewriting policy className marker fields method method')
    {pool : Pool} {body : CodeBody} {planned : List Check} (hbefore : r.before = pool)
    (hbody : method.body? pool = .ok (some body))
    (hplan : Plan.ofMethod className marker fields pool method body = .ok planned) :
    r.planned = planned := by
  have hbody' := r.body_eq
  have hplan' := r.planned_eq
  rw [hbefore, hbody] at hbody'
  obtain rfl := Option.some.inj (Except.ok.inj hbody')
  rw [hbefore, hplan] at hplan'
  exact (Except.ok.inj hplan').symm

/-- The method has an attribute for its body. -/
theorem exists_code (r : Rewriting policy className marker fields method method') :
    ∃ a, method.attribute? r.before Attribute.codeName = some a := by
  have hbody := r.body_eq
  rw [Member.body?] at hbody
  cases hfind : method.attribute? r.before Attribute.codeName with
  | none => simp [hfind] at hbody
  | some a => exact ⟨a, rfl⟩

end Rewriting

/-! ## Policies that only intern -/

namespace Policy

/-- Whether the policy does nothing to the pool but intern constants. -/
def OnlyInterns (policy : Policy) : Prop := ∀ site, Pool.OnlyInterns (policy.emit site)

/-- The pool keeps all its entries while checks are emitted. -/
theorem OnlyInterns.interned_of_reaches {policy : Policy} (hpolicy : policy.OnlyInterns)
    {pool pool' : Pool} (h : policy.Reaches pool pool') : pool.Interned pool' := by
  induction h with
  | refl => exact .refl
  | tail _ hemit ih =>
    obtain ⟨site, sequence, hemit⟩ := hemit
    exact ih.trans (hpolicy site _ _ _ hemit)

end Policy

/-- A method has the same body in two pools where the same indices name `Code`. -/
theorem Member.body?_congr {pool pool' : Pool} (m : Member)
    (h : ∀ index, pool'.isText index Attribute.codeName = pool.isText index Attribute.codeName) :
    m.body? pool' = m.body? pool := by
  have hnamed : ∀ a : Attribute, a.isNamed pool' Attribute.codeName =
      a.isNamed pool Attribute.codeName := fun a => h a.nameIndex
  rw [body?, body?, attribute?, attribute?, Attribute.findIn?, Attribute.findIn?]
  simp only [hnamed]

namespace Guarding

/-- The pool has grown from the original one, and still the same indices name `Code`. -/
structure Extended (original pool : Pool) : Prop where
  interned : original.Interned pool
  isText_eq : ∀ index, pool.isText index Attribute.codeName =
    original.isText index Attribute.codeName

theorem Extended.isNamed_eq {original pool : Pool} (h : Extended original pool) (a : Attribute) :
    a.isNamed pool Attribute.codeName = a.isNamed original Attribute.codeName :=
  h.isText_eq a.nameIndex

end Guarding

namespace Rewriting

variable {policy : Policy} {className marker : String} {fields : List FieldPattern}
  {method method' : Member}

/-- In a class with the pool `first` the method has the body that was rewritten, and in one with the
pool `final` it has the new body. What is a name in the first pool stays the same name. -/
structure Found (r : Rewriting policy className marker fields method method')
    (first final : Pool) : Prop where
  before : method.body? first = .ok (some r.body)
  after : method'.body? final = .ok (some r.body')
  names : ∀ name, (∃ index, first.isText index name = true) → ∀ index,
    r.after.isText index name = first.isText index name ∧
      final.isText index name = first.isText index name

/-- The name of the body has been in the pool all along. -/
theorem extended_after (r : Rewriting policy className marker fields method method')
    {original : Pool} (hpolicy : policy.OnlyInterns) (horiginal : original.Built)
    (h : Guarding.Extended original r.before) : Guarding.Extended original r.after := by
  obtain ⟨a, hfind⟩ := r.exists_code
  obtain ⟨ha, -⟩ := Attribute.findIn?_eq_some_iff.1 hfind
  rw [h.isNamed_eq] at ha
  have hinterned := h.interned.trans (hpolicy.interned_of_reaches r.emits.reaches)
  exact ⟨hinterned, hinterned.isText_eq horiginal ⟨a.nameIndex, ha⟩⟩

theorem found (r : Rewriting policy className marker fields method method') {original final : Pool}
    (hpolicy : policy.OnlyInterns) (horiginal : original.Built)
    (h : Guarding.Extended original r.before) (hfinal : r.after.Interned final) :
    r.Found original final := by
  have hafter := r.extended_after hpolicy horiginal h
  have hinterned := hafter.interned.trans hfinal
  refine ⟨?_, ?_, fun name hname index => ?_⟩
  · rw [← method.body?_congr h.isText_eq]
    exact r.body_eq
  · obtain ⟨a, hfind⟩ := r.exists_code
    obtain ⟨ha, -⟩ := Attribute.findIn?_eq_some_iff.1 hfind
    rw [h.isNamed_eq] at ha
    have hcode := hinterned.isText_eq horiginal ⟨a.nameIndex, ha⟩
    rw [method'.body?_congr fun index => (hcode index).trans (hafter.isText_eq index).symm]
    exact r.body?_eq
  · exact ⟨hafter.interned.isText_eq horiginal hname index,
      hinterned.isText_eq horiginal hname index⟩

end Rewriting

/-! ## Guarded classes -/

namespace Guarding

/-- A method stays as it is because it has no body or no checks, by a pool that comes about while
checks are emitted, beginning with the pool of the class. -/
def Unchecked (policy : Policy) (className marker : String) (fields : List FieldPattern)
    (first : Pool) (method method' : Member) : Prop :=
  method' = method ∧ ∃ pool, policy.Reaches first pool ∧
    (method.body? pool = .ok none ∨ ∃ body, method.body? pool = .ok (some body) ∧
      Plan.ofMethod className marker fields pool method body = .ok [])

theorem MethodResult.cases_unchecked {policy : Policy} {className marker : String}
    {fields : List FieldPattern} {first last : Pool} {method method' : Member}
    (h : MethodResult policy className marker fields first last method method') :
    Unchecked policy className marker fields first method method' ∨
      ∃ r : Rewriting policy className marker fields method method',
        policy.Reaches first r.before ∧ policy.Reaches r.after last := by
  cases h with
  | withoutBody hreaches _ hbody => exact Or.inl ⟨rfl, _, hreaches, Or.inl hbody⟩
  | withoutChecks hreaches _ hbody hplan =>
    exact Or.inl ⟨rfl, _, hreaches, Or.inr ⟨_, hbody, hplan⟩⟩
  | rewritten r hbefore hafter => exact Or.inr ⟨r, hbefore, hafter⟩

/-- What holds of every method that does not stay as it is holds of a single method that has
changed. -/
theorem exists_of_changed {policy : Policy} {className marker : String}
    {fields : List FieldPattern} {first : Pool} {method : Member} {methods : List Member}
    {P : Member → Member → Prop} (hne : methods ≠ [method])
    (h : List.Forall₂ (fun method method' =>
      Unchecked policy className marker fields first method method' ∨ P method method') [method]
      methods) :
    ∃ method', methods = [method'] ∧ P method method' := by
  obtain ⟨method', rest, hmethod, hrest, rfl⟩ := List.forall₂_cons_left_iff.1 h
  obtain rfl := List.forall₂_nil_left_iff.1 hrest
  rcases hmethod with ⟨rfl, -⟩ | hP
  · exact absurd rfl hne
  · exact ⟨method', rfl, hP⟩

/-- Guarding a class leaves it as it is if it is a module, and is otherwise a run over its methods
that begins with its pool and ends with the pool of the result, up to the name of the attribute of
guarded classes. The rewritings of the run have every property of rewritings that are found in the
two classes if the policy only interns. -/
theorem exists_run_of_guardClass {policy : Policy} {marker : String} {p p' : Progress}
    {report : Report}
    {P : ∀ {className : String} {fields : List FieldPattern} {method method' : Member},
      Rewriting policy className marker fields method method' → Prop}
    (h : guardClass policy marker p = .ok report p')
    (hP : ∀ {className : String} {fields : List FieldPattern} {method method' : Member}
      (r : Rewriting policy className marker fields method method'),
      (policy.OnlyInterns → p.file.pool.Built → r.Found p.file.pool p'.file.pool) → P r) :
    (p.file.isModule = true ∧ p' = p) ∨
      ∃ className fields plans pool, p.file.name = .ok className ∧
        Plan.markedFields p.file className marker = .ok fields ∧
        Run policy className marker fields P p.file.pool p.file.methods plans p'.file.methods
          pool ∧
        (p'.file.pool = pool ∨
          ∃ index, Interning.text guardedName pool = .ok index p'.file.pool) := by
  rcases guardClass_ok h with ⟨hmodule, -, rfl⟩ | ⟨className, fields, plans, methods, pool, hname,
    hfields, hrun, -, hfile⟩
  · exact Or.inl ⟨hmodule, rfl⟩
  · have hresult : p'.file.methods = methods ∧ (p'.file.pool = pool ∨
        ∃ index, Interning.text guardedName pool = .ok index p'.file.pool) := by
      rcases hfile with ⟨-, hfile⟩ | ⟨-, index, last, hmark, hfile⟩
      · rw [hfile]
        exact ⟨rfl, Or.inl rfl⟩
      · rw [hfile]
        exact ⟨rfl, Or.inr ⟨index, hmark⟩⟩
    obtain ⟨hmethods, hlast⟩ := hresult
    have hinterned : pool.Interned p'.file.pool := by
      rcases hlast with hsame | ⟨index, hmark⟩
      · rw [hsame]
        exact .refl
      · exact Interning.onlyInterns_text guardedName _ _ _ hmark
    refine Or.inr ⟨className, fields, plans, pool, hname, hfields, ?_, hlast⟩
    rw [hmethods]
    -- that the same indices name `Code` holds at the beginning and is kept by every rewriting
    refine hrun.imp_of_invariant
      (I := fun pool => policy.OnlyInterns → p.file.pool.Built → Extended p.file.pool pool)
      (fun _ _ => ⟨.refl, fun _ => rfl⟩) fun r hbefore hafter _ => ⟨?_, hP r ?_⟩
    · intro hpolicy hpool
      exact r.extended_after hpolicy hpool (hbefore hpolicy hpool)
    · intro hpolicy hpool
      exact r.found hpolicy hpool (hbefore hpolicy hpool)
        ((hpolicy.interned_of_reaches hafter).trans hinterned)

end Guarding

end PatternGuard
