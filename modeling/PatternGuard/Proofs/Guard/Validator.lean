import PatternGuard.Proofs.ClassFile.Linked
import PatternGuard.Proofs.Guard.Paths

/-!
# Classes guarded by calls of a validator

The checks that call a validator are straight code, and the constants that they need are added to
the pool without harm to what is there. So a guarded class is as sound as the class was before
(`Guarding.sound_of_guardClass`), and the body of each rewritten method is found in it
(`Guarding.bodies_of_guardClass`).
-/

set_option autoImplicit false

namespace PatternGuard

open Outcome

/-! ## The checks of a validator -/

namespace Validator

variable {v : Validator} {pool pool' : Pool}

/-- A check is emitted in three steps, which make two strings and the reference to the method. -/
theorem exists_interned_of_check {site : Site} {code : List Instruction}
    (h : v.check site pool = .ok code pool') :
    ∃ pattern pool₁ description pool₂ method,
      Interning.string site.pattern pool = .ok pattern pool₁ ∧
      Interning.string site.describe pool₁ = .ok description pool₂ ∧
      Interning.methodRef v.reference pool₂ = .ok method pool' ∧
      code = [load pattern, load description, .constant .invokestatic method] := by
  obtain ⟨pattern, pool₁, hpattern, h₁⟩ := bind_run_ok_iff.1 h
  obtain ⟨description, pool₂, hdescription, h₂⟩ := bind_run_ok_iff.1 h₁
  obtain ⟨method, pool₃, hmethod, h₃⟩ := bind_run_ok_iff.1 h₂
  obtain ⟨rfl, rfl⟩ := pure_run_ok_iff.1 h₃
  exact ⟨pattern, pool₁, description, pool₂, method, hpattern, hdescription, hmethod, rfl⟩

/-- A check loads two constants and calls the method, and the pool grows by what these refer to. -/
theorem check_ok {site : Site} {code : List Instruction}
    (h : v.check site pool = .ok code pool') :
    (∃ pattern description method, code =
      [load pattern, load description, .constant .invokestatic method]) ∧
      (pool.Writable → pool.GrowsTo pool') := by
  obtain ⟨pattern, pool₁, description, pool₂, method, hpattern, hdescription, hmethod, rfl⟩ :=
    exists_interned_of_check h
  refine ⟨⟨pattern, description, method, rfl⟩, ?_⟩
  intro hpool
  obtain ⟨hgrows₁, -⟩ := Interning.string_ok hpool hpattern
  obtain ⟨hgrows₂, -⟩ := Interning.string_ok hgrows₁.writable hdescription
  exact (hgrows₁.trans hgrows₂).trans (Interning.methodRef_ok hgrows₂.writable hmethod)

theorem straight_load (index : UInt16) :
    (load index).WellFormed ∧ (load index).isStraight = true := by
  rw [load]
  split
  · exact ⟨rfl, rfl⟩
  · exact ⟨rfl, rfl⟩

theorem straight_policy (v : Validator) : v.policy.IsStraight := by
  intro site pool sequence pool' h
  obtain ⟨⟨pattern, description, method, rfl⟩, -⟩ :=
    check_ok (Guarding.adaptExcept_ok_iff.1 h)
  simp only [List.forall_mem_cons]
  exact ⟨straight_load pattern, straight_load description, ⟨rfl, rfl⟩,
    fun _ hi => absurd hi List.not_mem_nil⟩

/-- The pool stays one that can be written, however many checks are emitted. -/
theorem growsTo_of_reaches (hpool : pool.Writable) (h : v.policy.Reaches pool pool') :
    pool.GrowsTo pool' := by
  induction h with
  | refl => exact ⟨hpool, Pool.Extends.refl pool⟩
  | tail _ hemit ih =>
    obtain ⟨site, sequence, hemit⟩ := hemit
    exact ih.trans ((check_ok (Guarding.adaptExcept_ok_iff.1 hemit)).2 ih.writable)

end Validator

/-! ## Guarded classes -/

namespace Guarding

variable {v : Validator} {className marker : String} {fields : List FieldPattern}

/-- A method keeps its names, whatever becomes of its body. -/
theorem MethodResult.named {first last : Pool} {m m' : Member}
    (h : MethodResult v.policy className marker fields first last m m') {pool : Pool}
    (hm : m.Named pool) : m'.Named pool := by
  cases h with
  | withoutBody _ _ _ => exact hm
  | withoutChecks _ _ _ _ => exact hm
  | rewritten r _ _ => exact hm.setBody r.method_eq

/-- In every pool that has all entries of the last one, a rewritten method has the body with the
checks, and the instructions of this body can be decoded. -/
theorem MethodResult.unchecked_or_rewritten {first last pool : Pool} {m m' : Member}
    (h : MethodResult v.policy className marker fields first last m m') (hfirst : first.Writable)
    (hlast : last.Extends pool) (hm : m.Named first) :
    Unchecked v.policy className marker fields first m m' ∨
      ∃ r : Rewriting v.policy className marker fields m m', v.policy.Reaches first r.before ∧
        m'.body? pool = .ok (some r.body') ∧ ∃ is, r.body'.instructions = .ok is := by
  have hm' := h.named hm
  rcases h.cases_unchecked with hunchecked | ⟨r, hbefore, hafter⟩
  · exact Or.inl hunchecked
  · -- the body was stored with the pool of its own checks, which has grown since
    have hto := Validator.growsTo_of_reaches hfirst (hbefore.trans r.emits.reaches)
    have hfrom := Validator.growsTo_of_reaches hto.writable hafter
    obtain ⟨old, woven, hweaving⟩ := r.exists_weaving v.straight_policy
    refine Or.inr ⟨r, hbefore, ?_, _, hweaving.after⟩
    rw [(hm'.mono hto.extends_get).body?_of_extends (hfrom.extends_get.trans hlast)]
    exact r.body?_eq

/-- A class with checks is the class with its methods guarded, with more entries in the pool and
with more attributes, which have names. -/
theorem guardClass_grows {p p' : Progress} {report : Report} (hpool : p.file.pool.Writable)
    (h : guardClass v.policy marker p = .ok report p') :
    (p.file.isModule = true ∧ report = ⟨0, 0⟩ ∧ p' = p) ∨
      ∃ className fields methods pool attributes, p.file.name = .ok className ∧
        Plan.markedFields p.file className marker = .ok fields ∧
        p.file.pool.GrowsTo pool ∧ pool.GrowsTo p'.file.pool ∧
        List.Forall₂ (MethodResult v.policy className marker fields p.file.pool pool)
          p.file.methods methods ∧
        (∀ a ∈ attributes, ∃ text, a.name p'.file.pool = .ok text) ∧
        p'.file = { p.file with
          pool := p'.file.pool, methods, attributes := p.file.attributes ++ attributes } := by
  rcases guardClass_ok h with hmodule | ⟨className, fields, plans, methods, pool, hname, hfields,
    hrun, -, hfile⟩
  · exact Or.inl hmodule
  · have hgrows := Validator.growsTo_of_reaches hpool hrun.reaches
    have hresults := hrun.results
    refine Or.inr ⟨className, fields, methods, pool, ?_⟩
    rcases hfile with ⟨-, hfile⟩ | ⟨-, index, last, hattribute, hfile⟩
    · rw [hfile]
      refine ⟨[], hname, hfields, hgrows, ⟨hgrows.writable, Pool.Extends.refl pool⟩, hresults,
        fun _ ha => absurd ha List.not_mem_nil, ?_⟩
      rw [List.append_nil]
    · obtain ⟨hgrows', hget⟩ := Interning.text_ok hgrows.writable hattribute
      have hdecode := Text.ModifiedUtf8.decode_encode guardedName
      rw [hfile]
      exact ⟨[⟨index, []⟩], hname, hfields, hgrows, hgrows', hresults,
        List.forall_mem_singleton.2 ⟨_, Pool.text_eq_ok_iff.2 ⟨_, hget, hdecode⟩⟩, rfl⟩

/-- A guarded class is sound if the class was. -/
theorem sound_of_guardClass {p p' : Progress} {report : Report} (hfile : p.file.Sound)
    (hpool : p.file.pool.Writable) (h : guardClass v.policy marker p = .ok report p') :
    p'.file.Sound := by
  rcases guardClass_grows hpool h with ⟨-, -, rfl⟩ | ⟨className, fields, methods, pool, attributes,
    -, -, hbefore, hafter, hresults, hattributes, hp'⟩
  · exact hfile
  · have hextends := hbefore.extends_get.trans hafter.extends_get
    have hnamed : ∀ m' ∈ methods, m'.Named p'.file.pool := by
      intro m' hm'
      obtain ⟨m, hm, hresult⟩ := exists_mem_zip_of_forall₂ hresults.flip hm'
      exact hresult.named ((hfile.methods m (List.of_mem_zip hm).2).mono hextends)
    have hlinked := hfile.toLinked.of_extends hextends hnamed hattributes
    rw [hp']
    exact ⟨hlinked, hfile.version, hafter.writable.sound⟩

/-- In a guarded class every method is unchecked, or its body with the checks is found in the class
and consists of instructions. -/
theorem bodies_of_guardClass {p p' : Progress} {report : Report} (hfile : p.file.Sound)
    (hpool : p.file.pool.Writable) (h : guardClass v.policy marker p = .ok report p')
    (hchanged : report.changed = true) :
    ∃ className fields, p.file.name = .ok className ∧
      Plan.markedFields p.file className marker = .ok fields ∧
      List.Forall₂ (fun m m' => Unchecked v.policy className marker fields p.file.pool m m' ∨
        ∃ r : Rewriting v.policy className marker fields m m',
          v.policy.Reaches p.file.pool r.before ∧ m'.body? p'.file.pool = .ok (some r.body') ∧
            ∃ is, r.body'.instructions = .ok is)
        p.file.methods p'.file.methods := by
  rcases guardClass_grows hpool h with ⟨-, rfl, -⟩ | ⟨className, fields, methods, pool, attributes,
    hname, hfields, -, hafter, hresults, -, hp'⟩
  · exact absurd hchanged (by decide)
  · have hmethods : p'.file.methods = methods := by rw [hp']
    rw [hmethods]
    refine ⟨className, fields, hname, hfields, ?_⟩
    have hresults' := (List.forall₂_and_left _ _).2 ⟨hfile.methods, hresults⟩
    exact hresults'.imp fun m m' hm =>
      hm.2.unchecked_or_rewritten hpool hafter.extends_get hm.1

/-- The body of the marked method. -/
def markedBody : CodeBody where
  maxStack := 1
  maxLocals := 1
  code := [0x2a, 0xc6, 0xff, 0xff, 0x2a, 0xb0]
  handlers := [⟨0, 5, 5, 0⟩]
  attributes := []

theorem sound_markedClass : markedClass.Sound := by
  have htext : ∀ t : String, (Constant.ofText t).refusal = none → (Constant.ofText t).Readable :=
    fun _ => Constant.readable_ofText
  have hnamed : markedMethod.Named markedClass.pool := by
    refine ⟨⟨"f", by decide +kernel⟩, ⟨"(LA;)LA;", by decide +kernel⟩, ?_⟩
    simp only [markedMethod, List.forall_mem_cons]
    exact ⟨⟨"Code", by decide +kernel⟩, ⟨"RuntimeVisibleAnnotations", by decide +kernel⟩,
      ⟨"RuntimeVisibleParameterAnnotations", by decide +kernel⟩,
      fun _ ha => absurd ha List.not_mem_nil⟩
  refine ⟨⟨⟨"A", by decide +kernel⟩, Or.inl rfl, by simp [markedClass], by simp [markedClass],
    List.forall_mem_singleton.2 hnamed, by simp [markedClass]⟩, by decide,
    ⟨⟨_, ?_, rfl⟩, by decide +kernel⟩⟩
  simp only [List.forall_mem_cons]
  exact ⟨htext _ (by decide +kernel), trivial, htext _ (by decide +kernel),
    htext _ (by decide +kernel), htext _ (by decide +kernel), htext _ (by decide +kernel),
    htext _ (by decide +kernel), htext _ (by decide +kernel), htext _ (by decide +kernel),
    htext _ (by decide +kernel), fun _ hc => absurd hc List.not_mem_nil⟩

end Guarding

end PatternGuard
