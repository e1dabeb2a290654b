import PatternGuard.Proofs.Guard.Patterns
import PatternGuard.Proofs.Guard.StackRoom
import PatternGuard.Proofs.Pool.Requests

/-!
# What the checks of a validator do

A check loads the pattern and the description of its site and calls the validator
(`Validator.IsCheck`), in the pool in which it was emitted and in every larger one. Together with
the instruction that puts the checked reference on the operand stack it takes up three slots and
gives them back. So the depth of the policy is all that a guarded method needs in addition
(`Validator.policy_exact`).
-/

set_option autoImplicit false

namespace PatternGuard

open Outcome

/-! ## Instructions of a check -/

namespace Instruction

/-- The instruction loads a string constant of this text. It has the short form exactly if the index
of the constant fits one byte. -/
structure LoadsString (i : Instruction) (pool : Pool) (text : String) : Prop where
  wellFormed : i.WellFormed
  index : ∃ index, i.poolIndex? = some index ∧ pool.string index = .ok text ∧
    i.opcode = if index.toNat ≤ 255 then .ldc else .ldc_w

/-- The instruction calls this static method of a class. -/
structure CallsStatic (i : Instruction) (pool : Pool) (m : MemberRef) : Prop where
  wellFormed : i.WellFormed
  opcode : i.opcode = .invokestatic
  index : ∃ index, i.poolIndex? = some index ∧ pool.memberRef index = .ok m ∧
    ∃ owner member, pool.get? index = some (.methodRef owner member)

/-- The instruction puts a reference on the stack that is to be checked: that of a local variable,
or a copy of the topmost slot, which there must be. -/
inductive PutsChecked : Instruction → Nat → Prop
  | ofLocal (slot : UInt16) (depth : Nat) : PutsChecked (loadLocal slot) depth
  | copy {depth : Nat} (pos : 1 ≤ depth) : PutsChecked (simple .dup) depth

section Effects

variable {i : Instruction} {others : Instruction → Option StackEffect} {pool pool' : Pool}

theorem LoadsString.of_extends {text : String} (hextends : pool.Extends pool')
    (h : i.LoadsString pool text) : i.LoadsString pool' text := by
  obtain ⟨hwell, index, hindex, htext, hopcode⟩ := h
  exact ⟨hwell, index, hindex, hextends.string_eq_ok htext, hopcode⟩

theorem CallsStatic.of_extends {m : MemberRef} (hextends : pool.Extends pool')
    (h : i.CallsStatic pool m) : i.CallsStatic pool' m := by
  obtain ⟨hwell, hopcode, index, hindex, hm, owner, member, hget⟩ := h
  exact ⟨hwell, hopcode, index, hindex, hextends.memberRef_eq_ok hm, owner, member,
    hextends _ _ hget⟩

theorem effect?_loadLocal (slot : UInt16) :
    (loadLocal slot).effect? others pool = some (.push 1) := by
  have huse : (loadLocal slot).stackUse = .loadReference := by
    unfold loadLocal
    split
    · rfl
    · rfl
    · rfl
    · rfl
    · split
      · rfl
      · unfold stackUse
        exact if_pos rfl
  rw [effect?, huse]

theorem LoadsString.effect?_eq {text : String} (h : i.LoadsString pool text) :
    i.effect? others pool = some (.push 1) := by
  obtain ⟨-, index, hindex, htext, hopcode⟩ := h
  obtain ⟨value, hget, -⟩ := Pool.string_eq_ok_iff.1 htext
  have huse : i.stackUse = .loadConstant := by
    rw [stackUse, hopcode]
    split_ifs <;> rfl
  rw [effect?, huse, hindex]
  simp only [Option.bind_some, hget]

theorem CallsStatic.effect?_eq {m : MemberRef} {type : MethodType} (h : i.CallsStatic pool m)
    (htype : MethodType.parse m.descriptor = .ok type) :
    i.effect? others pool = some (.replace type.argumentSlots type.resultSlots) := by
  obtain ⟨-, hopcode, index, hindex, hm, -⟩ := h
  have hmethod : pool.methodType? index = some type := by
    rw [Pool.methodType?, hm]
    show (MethodType.parse m.descriptor).toOption = some type
    rw [htype]
    rfl
  have huse : i.stackUse = .callStatic := by rw [stackUse, hopcode]
  rw [effect?, huse, hindex]
  simp only [Option.bind_some, hmethod, Option.map_some]

/-- Whatever puts the checked reference on the stack takes up one slot more. -/
theorem PutsChecked.runsWithin {depth ceiling : Nat} (h : i.PutsChecked depth)
    (hceiling : depth + 1 ≤ ceiling) :
    RunsWithin others pool depth ceiling [i] depth (depth + 1) := by
  have hle := Nat.le_of_succ_le hceiling
  cases h with
  | ofLocal slot _ =>
    exact .cons hle (effect?_loadLocal slot) (Nat.zero_le _) (Nat.le_refl _) (.nil hceiling)
  | copy pos =>
    have heffect : (simple .dup).effect? others pool = some .copy := rfl
    exact .cons hle heffect pos (Nat.le_refl _) (.nil hceiling)

end Effects

end Instruction

/-! ## Checks -/

namespace Validator

variable {v : Validator} {site : Site} {code : List Instruction} {pool pool' : Pool}
  {others : Instruction → Option StackEffect}

/-- The code loads the pattern of the site and its description, and calls the validator. -/
def IsCheck (v : Validator) (site : Site) (pool : Pool) (code : List Instruction) : Prop :=
  ∃ pattern description call, code = [pattern, description, call] ∧
    pattern.LoadsString pool site.pattern ∧ description.LoadsString pool site.describe ∧
    call.CallsStatic pool ⟨v.className, v.method, descriptor⟩

theorem IsCheck.of_extends (hextends : pool.Extends pool') (h : v.IsCheck site pool code) :
    v.IsCheck site pool' code := by
  obtain ⟨pattern, description, call, hcode, hpattern, hdescription, hcall⟩ := h
  exact ⟨pattern, description, call, hcode, hpattern.of_extends hextends,
    hdescription.of_extends hextends, hcall.of_extends hextends⟩

theorem loadsString_load {index : UInt16} {text : String} (h : pool.string index = .ok text) :
    (load index).LoadsString pool text := by
  refine ⟨(straight_load index).1, index, poolIndex?_load index, h, ?_⟩
  have hle : index ≤ 255 ↔ index.toNat ≤ 255 := UInt16.le_iff_toNat_le
  rw [load]
  split_ifs with hshort hbyte hbyte
  · rfl
  · exact absurd (hle.1 hshort) hbyte
  · exact absurd (hle.2 hbyte) hshort
  · rfl

/-- The code that is emitted for a site is a check of it, in the pool that has come about. -/
theorem isCheck_of_check (hpool : pool.Reached) (h : v.check site pool = .ok code pool') :
    pool'.Reached ∧ pool.Extends pool' ∧ v.IsCheck site pool' code := by
  obtain ⟨pattern, pool₁, description, pool₂, method, hpattern, hdescription, hmethod, rfl⟩ :=
    exists_interned_of_check h
  obtain ⟨hpool₁, hextends₁⟩ := (Interning.repeats_named _ _).of_ok hpool hpattern
  obtain ⟨hpool₂, hextends₂⟩ := (Interning.repeats_named _ _).of_ok hpool₁ hdescription
  obtain ⟨hpool₃, hextends₃⟩ := (Interning.repeats_member _ _).of_ok hpool₂ hmethod
  refine ⟨hpool₃, hextends₁.trans (hextends₂.trans hextends₃), _, _, _, rfl, ?_, ?_, ?_⟩
  · -- what is interned after a string leaves it where it is
    have hstring := Interning.string_of_string hpool hpattern
    exact (loadsString_load hstring).of_extends (hextends₂.trans hextends₃)
  · have hstring := Interning.string_of_string hpool₁ hdescription
    exact (loadsString_load hstring).of_extends hextends₃
  · have hreference := Interning.memberRef_of_member (fun _ _ => rfl) hpool₂ hmethod
    obtain ⟨owner, member, hget, -, -⟩ := Interning.get?_of_member hpool₂ hmethod
    have hindex : (Instruction.constant .invokestatic method).poolIndex? = some method :=
      Instruction.poolIndex?_constant rfl (by decide) method
    exact ⟨rfl, rfl, method, hindex, hreference, owner, member, hget⟩

/-- The type of a validator method. -/
def type : MethodType :=
  ⟨[.object "java/lang/Object", .object "java/lang/String", .object "java/lang/String"], none⟩

theorem parse_descriptor : MethodType.parse descriptor = .ok type := by
  decide +kernel

/-- A check takes up two slots more and gives back these and that of the checked reference. -/
theorem IsCheck.runsWithin (h : v.IsCheck site pool code) (depth : Nat) :
    RunsWithin others pool depth (depth + 3) code (depth + 1) depth := by
  obtain ⟨pattern, description, call, rfl, hpattern, hdescription, hcall⟩ := h
  have hcalled : call.effect? others pool = some (.replace 3 0) :=
    hcall.effect?_eq parse_descriptor
  have hafter : (StackEffect.replace 3 0).after (depth + 3) = depth := Nat.add_sub_cancel depth 3
  have hrest : RunsWithin others pool depth (depth + 3) [] ((StackEffect.replace 3 0).after
      (depth + 3)) depth := by
    rw [hafter]
    exact .nil (Nat.le_add_right depth 3)
  -- the call takes the reference and the two strings
  have hlast : RunsWithin others pool depth (depth + 3) [call] (depth + 3) depth :=
    .cons (Nat.le_refl _) hcalled (Nat.le_add_left 3 depth) (Nat.le_refl _) hrest
  have hsecond : RunsWithin others pool depth (depth + 3) [description, call] (depth + 2) depth :=
    .cons (Nat.le_succ _) hdescription.effect?_eq (Nat.zero_le _) (Nat.le_add_right depth 2) hlast
  exact .cons (Nat.add_le_add_left (by decide) depth) hpattern.effect?_eq (Nat.zero_le _)
    (Nat.le_add_right depth 1) hsecond

/-- With the instruction that puts the checked reference on the stack, a check takes up as many
slots as the policy says, and gives all of them back. -/
theorem IsCheck.runsWithin_cons (h : v.IsCheck site pool code) {put : Instruction} {depth : Nat}
    (hput : put.PutsChecked depth) :
    RunsWithin others pool depth (depth + v.policy.depth.toNat) (put :: code) depth depth := by
  have hfirst : RunsWithin others pool depth (depth + 3) [put] depth (depth + 1) :=
    hput.runsWithin (Nat.add_le_add_left (by decide) depth)
  exact hfirst.append (h.runsWithin depth)

/-! ## Pools that grow by checks -/

/-- The pool stays one that comes about, however many checks are emitted. -/
theorem reached_of_reaches (hpool : pool.Reached) (h : v.policy.Reaches pool pool') :
    pool'.Reached ∧ pool.Extends pool' := by
  induction h with
  | refl => exact ⟨hpool, Pool.Extends.refl pool⟩
  | tail _ hemit ih =>
    obtain ⟨site, sequence, hemit⟩ := hemit
    obtain ⟨hreached, hextends⟩ := ih
    obtain ⟨hreached', hextends', -⟩ :=
      isCheck_of_check hreached (Guarding.adaptExcept_ok_iff.1 hemit)
    exact ⟨hreached', hextends.trans hextends'⟩

theorem isCheck_of_emitsAll {first last : Pool} {cs : List Check}
    {sequences : List (List Instruction)} (hfirst : first.Reached)
    (h : v.policy.EmitsAll first cs sequences last) :
    ∀ c ∈ cs.zip sequences, v.IsCheck c.1.site last c.2 := by
  induction h with
  | nil pool => exact fun c hc => absurd hc List.not_mem_nil
  | cons hemit _ hrest ih =>
    obtain ⟨hreached, -, hcheck⟩ :=
      isCheck_of_check hfirst (Guarding.adaptExcept_ok_iff.1 hemit)
    obtain ⟨-, hextends⟩ := reached_of_reaches hreached hrest.reaches
    exact List.forall_mem_cons.2 ⟨hcheck.of_extends hextends, ih hreached⟩

end Validator

/-! ## Rewritten methods -/

namespace Rewriting

variable {v : Validator} {className marker : String} {fields : List FieldPattern}
  {method method' : Member}

/-- In front of a check the checked reference is put on the stack: that of a local variable at the
entry, and at a guard a copy of what is there. -/
theorem putsChecked {policy : Policy}
    (r : Rewriting policy className marker fields method method') {c : Check × List Instruction}
    (hc : c ∈ r.checks) {depth : Nat} (hdepth : c.1.catchesJumps = true → 1 ≤ depth) :
    c.1.load.PutsChecked depth := by
  obtain ⟨parameters, guards, hplanned, hshape⟩ := r.exists_shape
  have hmem := hplanned ▸ r.planned_of_mem_checks hc
  cases hcatches : c.1.catchesJumps with
  | false =>
    obtain ⟨index, hentry⟩ := hshape.entry_of_catchesJumps hmem hcatches
    obtain ⟨slot, hload, -⟩ := hentry.load
    rw [hload]
    exact .ofLocal slot depth
  | true =>
    obtain ⟨is, i, -, -, hguard⟩ := hshape.guard_of_catchesJumps hmem hcatches
    rw [hguard.load]
    exact .copy (hdepth hcatches)

/-- A method is rewritten, between a first pool and a last one, with checks that find their
constants in the last pool and give back what they take up on the operand stack. The limit for the
operand stack is raised by what they take up, and suffices wherever the old limit did. -/
structure HasRoom (r : Rewriting v.policy className marker fields method method')
    (first last : Pool) : Prop where
  before : first.Extends r.before
  after : r.after.Extends last
  body : method'.body? r.after = .ok (some r.body')
  checks : ∀ c ∈ r.checks, v.IsCheck c.1.site last c.2
  runs : ∀ others, ∀ c ∈ r.checks, ∀ depth, (c.1.catchesJumps = true → 1 ≤ depth) →
    c.1.load.PutsChecked depth ∧
      RunsWithin others last depth (depth + v.policy.depth.toNat) (c.1.load :: c.2) depth depth
  maxStack : r.body'.maxStack.toNat = r.body.maxStack.toNat + v.policy.depth.toNat
  room : ∀ others, ∃ old new, r.body.instructions = .ok old ∧ r.body'.instructions = .ok new ∧
    (StackSuffices others first old r.body.handlers r.body.maxStack.toNat →
      StackSuffices others last new r.body'.handlers r.body'.maxStack.toNat)

theorem hasRoom (r : Rewriting v.policy className marker fields method method') {first last : Pool}
    (hfirst : first.Reached) (hbefore : v.policy.Reaches first r.before)
    (hafter : r.after.Extends last) : r.HasRoom first last := by
  -- the pool grows up to the checks of the method, by these checks, and after them
  obtain ⟨hreached, hextends⟩ := Validator.reached_of_reaches hfirst hbefore
  obtain ⟨-, hemits⟩ := Validator.reached_of_reaches hreached r.emits.reaches
  have hchecks : ∀ c ∈ r.checks, v.IsCheck c.1.site last c.2 := fun c hc =>
    (Validator.isCheck_of_emitsAll hreached r.emits c hc).of_extends hafter
  have hruns : ∀ others, ∀ c ∈ r.checks, ∀ depth, (c.1.catchesJumps = true → 1 ≤ depth) →
      c.1.load.PutsChecked depth ∧
        RunsWithin others last depth (depth + v.policy.depth.toNat) (c.1.load :: c.2) depth
          depth := by
    intro others c hc depth hdepth
    have hputs := r.putsChecked hc hdepth
    exact ⟨hputs, (hchecks c hc).runsWithin_cons hputs⟩
  refine ⟨hextends, hafter, r.body?_eq, hchecks, hruns, r.maxStack_eq, fun others => ?_⟩
  obtain ⟨old, new, hold, hnew, hsuffices⟩ := r.stackSuffices
    (fun c hc depth hdepth => (hruns others c hc depth hdepth).2) v.straight_policy
  -- what sufficed in the pool of the old class suffices in that of the new one
  have hgrown := hextends.trans (hemits.trans hafter)
  exact ⟨old, new, hold, hnew, fun h => hsuffices (h.of_extends hgrown)⟩

end Rewriting

namespace Guarding

/-- In a class that is guarded with a validator every method is unchecked, or there is room for its
checks. -/
theorem room_of_guardClass {v : Validator} {marker : String} {p p' : Progress} {report : Report}
    (hpool : p.file.pool.Reached) (h : guardClass v.policy marker p = .ok report p') :
    (p.file.isModule = true ∧ p' = p) ∨
      ∃ className fields, p.file.name = .ok className ∧
        Plan.markedFields p.file className marker = .ok fields ∧
        List.Forall₂ (fun method method' =>
          Unchecked v.policy className marker fields p.file.pool method method' ∨
          ∃ r : Rewriting v.policy className marker fields method method',
            r.HasRoom p.file.pool p'.file.pool) p.file.methods p'.file.methods := by
  rcases exists_results_of_guardClass h with hmodule | ⟨className, fields, pool, hname, hfields,
    hreaches, hresults, hlast⟩
  · exact Or.inl hmodule
  · obtain ⟨hreached, -⟩ := Validator.reached_of_reaches hpool hreaches
    have hextends : pool.Extends p'.file.pool := by
      rcases hlast with hsame | ⟨index, hmark⟩
      · rw [hsame]
        exact Pool.Extends.refl pool
      · exact ((Interning.repeats_text _).of_ok hreached hmark).2
    refine Or.inr ⟨className, fields, hname, hfields, hresults.imp fun m m' hresult => ?_⟩
    rcases hresult.cases_unchecked with hunchecked | ⟨r, hbefore, hafter⟩
    · exact Or.inl hunchecked
    · obtain ⟨hto, -⟩ := Validator.reached_of_reaches hpool hbefore
      obtain ⟨hfrom, -⟩ := Validator.reached_of_reaches hto r.emits.reaches
      obtain ⟨-, hgrown⟩ := Validator.reached_of_reaches hfrom hafter
      exact Or.inr ⟨r, r.hasRoom hpool hbefore (hgrown.trans hextends)⟩

end Guarding

/-- What the policy of a validator emits for a site is a check of it. It finds its constants however
the pool grows, and it takes up as many slots as the policy says and gives back all of them. So in a
guarded class the raised limit for the operand stack suffices wherever the old limit did. -/
theorem Validator.policy_exact (v : Validator) :
    (∀ site pool code pool', pool.Reached → v.policy.emit site pool = .ok code pool' →
      pool'.Reached ∧ pool.Extends pool' ∧ ∀ added, v.IsCheck site (pool'.tryAll added) code ∧
        ∀ others put depth, Instruction.PutsChecked put depth →
          RunsWithin others (pool'.tryAll added) depth (depth + v.policy.depth.toNat)
            (put :: code) depth depth) ∧
    ∀ marker p report p', p.file.pool.Reached →
      Guarding.guardClass v.policy marker p = .ok report p' →
      (p.file.isModule = true ∧ p' = p) ∨
        ∃ className fields, p.file.name = .ok className ∧
          Plan.markedFields p.file className marker = .ok fields ∧
          List.Forall₂ (fun method method' =>
            Guarding.Unchecked v.policy className marker fields p.file.pool method method' ∨
              ∃ r : Rewriting v.policy className marker fields method method',
                r.HasRoom p.file.pool p'.file.pool) p.file.methods p'.file.methods := by
  refine ⟨?_, fun marker p report p' hpool h => Guarding.room_of_guardClass hpool h⟩
  intro site pool code pool' hpool h
  obtain ⟨hreached, hextends, hcheck⟩ := isCheck_of_check hpool (Guarding.adaptExcept_ok_iff.1 h)
  refine ⟨hreached, hextends, fun added => ?_⟩
  have hcheck' := hcheck.of_extends (Pool.extends_tryAll pool' added)
  exact ⟨hcheck', fun others put depth hput => hcheck'.runsWithin_cons hput⟩

namespace Guarding

/-- The instructions of the marked method. -/
def markedCode : List Instruction :=
  [⟨0, .aload_0, .none⟩, ⟨1, .ifnull, .branch (-1)⟩, ⟨4, .aload_0, .none⟩, ⟨5, .areturn, .none⟩]

/-- A branch on a reference takes it off the stack. -/
def branchEffect (i : Instruction) : Option StackEffect :=
  if i.opcode = .ifnull then some (.take 1) else none

/-- The number of slots that an instruction of the marked method finds. -/
def markedDepth (i : Instruction) : Nat := if i.offset = 1 ∨ i.offset = 5 then 1 else 0

/-- One slot is enough for the marked method. -/
theorem stackSuffices_markedCode (pool : Pool) :
    StackSuffices branchEffect pool markedCode markedBody.handlers 1 := by
  have heffect : ∀ i ∈ markedCode, markedDepth i ≤ 1 ∧ ∃ e,
      i.effect? branchEffect pool = some e ∧ e.reads ≤ markedDepth i ∧
        e.after (markedDepth i) = 1 - markedDepth i := by
    simp only [markedCode, List.forall_mem_cons]
    exact ⟨⟨by decide, .push 1, rfl, by decide, rfl⟩, ⟨by decide, .take 1, rfl, by decide, rfl⟩,
      ⟨by decide, .push 1, rfl, by decide, rfl⟩, ⟨by decide, .take 1, rfl, by decide, rfl⟩,
      fun _ hi => absurd hi List.not_mem_nil⟩
  have hnext : ∀ i ∈ markedCode, i.isRet = false ∧ ∀ j ∈ markedCode,
      [i, j] <:+: markedCode ∨ (j.offset : Int) ∈ i.targets →
        markedDepth j = 1 - markedDepth i := by
    decide
  refine .of_assigned markedDepth ?_ ?_ (by decide)
  · intro i hi
    obtain rfl := Option.some.inj hi
    rfl
  · intro i hi
    obtain ⟨hle, e, he, hreads, hafter⟩ := heffect i hi
    obtain ⟨hret, hfollows⟩ := hnext i hi
    refine ⟨hle, e, he, hreads, hafter.trans_le (Nat.sub_le 1 _), fun j hedge => ?_⟩
    rw [hafter]
    refine hfollows j hedge.right_mem ?_
    cases hedge with
    | next _ hbelow => exact Or.inl hbelow
    | jump _ _ htarget => exact Or.inr htarget
    | resume _ hisRet _ _ => exact absurd (hret.symm.trans hisRet) Bool.false_ne_true
    | handle _ _ hh _ _ _ => exact absurd hh List.not_mem_nil

/-- A validator is called in a pool that was read, and in a class whose marked method needs one
slot. With its checks four slots are enough for it. -/
theorem exists_room_markedClass :
    (∃ code pool', Pool.repeating.Reached ∧
      shortValidator.policy.emit ⟨"A", "f", .returned, "p"⟩ .repeating = .ok code pool' ∧
      shortValidator.IsCheck ⟨"A", "f", .returned, "p"⟩ (pool'.tryAll [.integer 7]) code ∧
      RunsWithin branchEffect (pool'.tryAll [.integer 7]) 1 4 (.simple .dup :: code) 1 1) ∧
    ∃ report p', markedClass.pool.Reached ∧
      guardClass shortValidator.policy "Lm;" ⟨markedClass, #[]⟩ = .ok report p' ∧
      ∃ className fields method', p'.file.methods = [method'] ∧
        ∃ r : Rewriting shortValidator.policy className "Lm;" fields markedMethod method',
          r.HasRoom markedClass.pool p'.file.pool ∧ ∃ new, r.body'.instructions = .ok new ∧
            StackSuffices branchEffect p'.file.pool new r.body'.handlers 4 := by
  have hmarked : markedClass.pool.Reached :=
    Pool.Writable.reached ⟨sound_markedClass.pool, by decide +kernel⟩
  have hemit : ∃ code pool', shortValidator.policy.emit ⟨"A", "f", .returned, "p"⟩ .repeating =
      .ok code pool' ∧ code ≠ [] := by
    decide +kernel
  have hguard : ∃ report p', guardClass shortValidator.policy "Lm;" ⟨markedClass, #[]⟩ =
      .ok report p' ∧ p'.file.methods ≠ [markedMethod] := by
    decide +kernel
  obtain ⟨hemits, hguards⟩ := shortValidator.policy_exact
  refine ⟨?_, ?_⟩
  · obtain ⟨code, pool', hemit, -⟩ := hemit
    obtain ⟨-, -, hadded⟩ := hemits _ _ _ _ Pool.reached_repeating hemit
    obtain ⟨hcheck, hruns⟩ := hadded [.integer 7]
    exact ⟨code, pool', Pool.reached_repeating, hemit, hcheck,
      hruns branchEffect _ 1 (.copy (Nat.le_refl 1))⟩
  · obtain ⟨report, p', hguard, hne⟩ := hguard
    refine ⟨report, p', hmarked, hguard, ?_⟩
    rcases hguards "Lm;" ⟨markedClass, #[]⟩ report p' hmarked hguard with ⟨hmodule, -⟩ |
      ⟨className, fields, -, -, hall⟩
    · exact absurd hmodule (by decide +kernel)
    obtain ⟨method', hmethod, r, hroom⟩ := exists_of_changed hne hall
    refine ⟨className, fields, method', hmethod, r, hroom, ?_⟩
    -- the body is found in the pool for which the checks were planned as in that of the class
    have hbody : markedMethod.body? markedClass.pool = .ok (some markedBody) := by decide +kernel
    have hnamed := sound_markedClass.methods _ List.mem_cons_self
    have hsame := r.body_eq
    rw [hnamed.body?_of_extends hroom.before, hbody] at hsame
    have hbody' := Option.some.inj (Except.ok.inj hsame)
    obtain ⟨old, new, hold, hnew, hsuffices⟩ := hroom.room branchEffect
    have hcode : markedBody.instructions = .ok markedCode := by decide +kernel
    have hlimit := hroom.maxStack
    rw [← hbody'] at hold hsuffices hlimit
    obtain rfl := Except.ok.inj (hcode.symm.trans hold)
    refine ⟨new, hnew, ?_⟩
    have hfour : r.body'.maxStack.toNat = 4 := hlimit
    rw [← hfour]
    exact hsuffices (stackSuffices_markedCode _)

end Guarding

end PatternGuard
