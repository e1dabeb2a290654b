import PatternGuard.Proofs.Guard.Flow
import PatternGuard.Proofs.Guard.Rewriting

/-!
# Guards cannot be avoided

A policy that emits straight code cannot be avoided: in a rewritten method no path arrives at a
guarded instruction but through its complete guard, and the checks of the parameters are executed
before everything else, in order and once (`Rewriting.unavoidable`).
-/

set_option autoImplicit false

namespace PatternGuard

open Code Outcome

/-! ## Inserted checks -/

theorem Instruction.straight_loadLocal (slot : UInt16) :
    (loadLocal slot).WellFormed ∧ (loadLocal slot).isStraight = true := by
  unfold loadLocal
  split
  · decide
  · decide
  · decide
  · decide
  · split
    · exact ⟨rfl, rfl⟩
    · refine ⟨?_, rfl⟩
      have hwide : Opcode.ofWideByte? Opcode.aload.byte = some .aload := by decide +kernel
      show OperandForm.wide.byteCount? (Opcode.aload.byte :: Bytes.u16Bytes slot) = _
      rw [OperandForm.byteCount?, wideLength?, hwide, List.length_cons, Bytes.u16Bytes,
        Bytes.length_toBytes]
      rfl

/-- Whether everything that the policy emits has the operands that its opcodes call for, and goes
straight on. -/
def Policy.IsStraight (policy : Policy) : Prop :=
  ∀ site pool sequence pool', policy.emit site pool = .ok sequence pool' →
    ∀ i ∈ sequence, i.WellFormed ∧ i.isStraight = true

namespace Insertion

theorem codeAt_eq (insertions : List Insertion) (catchesJumps : Bool) (offset : Nat) :
    codeAt insertions catchesJumps offset =
      (insertions.filter fun n => n.catchesJumps = catchesJumps ∧ n.offset = offset).flatMap
        Insertion.code := by
  rw [codeAt, codeOf, List.filter_filter]
  simp

/-- An item that alone has a property is all that a filter keeps. -/
theorem filter_eq_singleton {α : Type} {p : α → Bool} {l : List α} {a : α}
    (hl : l.Pairwise fun b c => p b = true → p c = false) (ha : a ∈ l) (hp : p a = true) :
    l.filter p = [a] := by
  induction l with
  | nil => exact absurd ha List.not_mem_nil
  | cons b l ih =>
    obtain ⟨hb, hl⟩ := List.pairwise_cons.1 hl
    rcases List.mem_cons.1 ha with rfl | ha
    · rw [List.filter_cons_of_pos hp, List.filter_eq_nil_iff.2 fun c hc => by simp [hb c hc hp]]
    · have hnot : p b = false := by
        by_contra hpb
        rw [hb a ha (by simpa using hpb)] at hp
        exact Bool.false_ne_true hp
      rw [List.filter_cons_of_neg (by simp [hnot]), ih hl ha]

end Insertion

/-- The checks of a plan are straight code if what the policy emits for them is. -/
theorem Plan.straight_of_emitsAll {policy : Policy} {className marker : String}
    {fields : List FieldPattern} {method : Member} {body : CodeBody} {first last : Pool}
    {planned : List Check} {sequences : List (List Instruction)}
    (hlength : body.code.length ≤ 4294967296)
    (hplan : ofMethod className marker fields first method body = .ok planned)
    (hpolicy : policy.IsStraight) (hemits : policy.EmitsAll first planned sequences last) :
    ∀ n ∈ List.zipWith Check.insertion planned sequences, ∀ i ∈ n.code,
      i.WellFormed ∧ i.isStraight = true := by
  obtain ⟨parameters, guards, hplanned, hshape⟩ := ofMethod_ok hlength hplan
  intro n hn
  rw [← List.map_uncurry_zip_eq_zipWith] at hn
  obtain ⟨c, hc, rfl⟩ := List.mem_map.1 hn
  obtain ⟨pool, pool', hemit⟩ := hemits.exists_emit c hc
  refine List.forall_mem_cons.2 ⟨?_, hpolicy _ _ _ _ hemit⟩
  have hmem := hplanned ▸ (List.of_mem_zip hc).1
  cases hcatches : c.1.catchesJumps with
  | false =>
    obtain ⟨index, hentry⟩ := hshape.entry_of_catchesJumps hmem hcatches
    obtain ⟨slot, hload, -⟩ := hentry.load
    rw [hload]
    exact Instruction.straight_loadLocal slot
  | true =>
    obtain ⟨is, i, -, -, hguard⟩ := hshape.guard_of_catchesJumps hmem hcatches
    rw [hguard.load]
    decide

namespace Rewriting

variable {policy : Policy} {className marker : String} {fields : List FieldPattern}
  {method method' : Member}

/-- The code of the checks of the parameters, in order. -/
def entryCode (r : Rewriting policy className marker fields method method') : List Instruction :=
  (r.checks.filter fun c => !c.1.catchesJumps).flatMap fun c => c.1.load :: c.2

/-- Straight sequences make straight insertions. -/
theorem straight_of_mem_insertions (r : Rewriting policy className marker fields method method')
    (hpolicy : policy.IsStraight) :
    ∀ n ∈ r.insertions, ∀ i ∈ n.code, i.WellFormed ∧ i.isStraight = true :=
  Plan.straight_of_emitsAll r.length_code_le r.planned_eq hpolicy r.emits

theorem offset_eq_zero_of_mem_insertions
    (r : Rewriting policy className marker fields method method') :
    ∀ n ∈ r.insertions, n.catchesJumps = false → n.offset = 0 := by
  obtain ⟨parameters, guards, hplanned, hshape⟩ := r.exists_shape
  intro n hn hcatches
  rw [r.insertions_eq] at hn
  obtain ⟨c, hc, rfl⟩ := List.mem_map.1 hn
  have hmem := hplanned ▸ r.planned_of_mem_checks hc
  obtain ⟨index, hentry⟩ := hshape.entry_of_catchesJumps hmem hcatches
  exact hentry.offset

theorem exists_weaving (r : Rewriting policy className marker fields method method')
    (hpolicy : policy.IsStraight) :
    ∃ old woven, r.body.Weaving r.insertions r.body' old woven :=
  CodeBody.exists_weaving r.inserts fun n hn i hi =>
    (r.straight_of_mem_insertions hpolicy n hn i hi).1

/-- The guard code at the offset of a guard is the code of that guard alone. -/
theorem codeAt_of_mem_checks (r : Rewriting policy className marker fields method method')
    {c : Check × List Instruction} (hc : c ∈ r.checks) (hcatches : c.1.catchesJumps = true) :
    Insertion.codeAt r.insertions true c.1.offset = c.1.load :: c.2 := by
  obtain ⟨parameters, guards, hplanned, hshape⟩ := r.exists_shape
  have hpairwise : r.insertions.Pairwise fun n n' =>
      n.catchesJumps = true → n'.catchesJumps = true → n.offset ≠ n'.offset := by
    rw [r.insertions_eq, List.pairwise_map]
    have hguards := hshape.pairwise_guards
    rw [← hplanned, ← r.map_fst_checks, List.pairwise_map] at hguards
    exact hguards
  have hmem : c.1.insertion c.2 ∈ r.insertions := by
    rw [r.insertions_eq]
    exact List.mem_map_of_mem hc
  -- no other guard stands at this offset
  rw [Insertion.codeAt_eq, Insertion.filter_eq_singleton ?_ hmem ?_]
  · rw [List.flatMap_singleton]
    rfl
  · refine hpairwise.imp fun hne hn => ?_
    simp only [decide_eq_true_eq, decide_eq_false_iff_not, not_and] at hn ⊢
    exact fun hcatches' hoffset => hne hn.1 hcatches' (hn.2.trans hoffset.symm)
  · simpa [Check.insertion] using hcatches

/-- The entry code at the beginning is the code of the checks of the parameters. -/
theorem codeAt_zero (r : Rewriting policy className marker fields method method') :
    Insertion.codeAt r.insertions false 0 = r.entryCode := by
  obtain ⟨parameters, guards, hplanned, hshape⟩ := r.exists_shape
  rw [Insertion.codeAt_eq, r.insertions_eq, List.filter_map, List.flatMap_map, entryCode]
  refine congrArg (List.flatMap _) (List.filter_congr fun c hc => ?_)
  have hmem := hplanned ▸ r.planned_of_mem_checks hc
  cases hcatches : c.1.catchesJumps with
  | true => simp [Check.insertion, hcatches]
  | false =>
    obtain ⟨index, hentry⟩ := hshape.entry_of_catchesJumps hmem hcatches
    simp [Check.insertion, hcatches, hentry.offset]

/-- The instructions `woven` replace `old`, and no path through them avoids a guard or comes back to
the checks of the parameters. -/
structure Unavoidable (r : Rewriting policy className marker fields method method')
    (old : List Instruction) (woven : List Woven) : Prop where
  body : method'.body? r.after = .ok (some r.body')
  before : r.body.instructions = .ok old
  after : r.body'.instructions = .ok (woven.flatMap Woven.code)
  /-- Right before a guarded instruction its whole guard has been executed. -/
  guards : ∀ c ∈ r.checks, c.1.catchesJumps = true → ∃ i w, (i, w) ∈ old.zip woven ∧
    c.1.IsGuard i ∧ w.moved.opcode = i.opcode ∧
    w.guards.map Instruction.bare = (Instruction.simple .dup :: c.2).map Instruction.bare ∧
    ∀ front, IsPath (woven.flatMap Woven.code) r.body'.handlers (front ++ [w.moved]) →
      w.guards <:+ front
  /-- The checks of the parameters stand in the order of the parameters. -/
  order : (∀ c ∈ r.planned, c.catchesJumps = false → ∃ index, c.IsEntry index) ∧
    (r.planned.filter fun c => !c.catchesJumps).Pairwise fun c d =>
      ∃ index later, c.IsEntry index ∧ d.IsEntry later ∧ index < later
  /-- These checks are executed before everything else, and nothing leads back to them. -/
  entry : ∃ entry, entry.map Instruction.bare = r.entryCode.map Instruction.bare ∧
    (∀ w ∈ woven, w.moved ∉ entry) ∧
    (∀ path, IsPath (woven.flatMap Woven.code) r.body'.handlers path →
      path <+: entry ∨ ∃ later, path = entry ++ later ∧ ∀ i ∈ later, i ∉ entry) ∧
    ∀ i j, Edge (woven.flatMap Woven.code) r.body'.handlers i j → j ∈ entry → [i, j] <:+: entry

/-- The guards of a rewritten method cannot be avoided. -/
theorem unavoidable (r : Rewriting policy className marker fields method method')
    (hpolicy : policy.IsStraight) : ∃ old woven, r.Unavoidable old woven := by
  have hstraight := r.straight_of_mem_insertions hpolicy
  obtain ⟨parameters, guards, hplanned, hshape⟩ := r.exists_shape
  obtain ⟨old, woven, hweaving⟩ := r.exists_weaving hpolicy
  have hconfined := hweaving.confined hstraight r.offset_eq_zero_of_mem_insertions
  refine ⟨old, woven, r.body?_eq, hweaving.before, hweaving.after, ?_, ⟨?_, ?_⟩, ?_⟩
  · intro c hc hcatches
    have hmem := hplanned ▸ r.planned_of_mem_checks hc
    obtain ⟨is, i, his, hi, hguard⟩ := hshape.guard_of_catchesJumps hmem hcatches
    obtain rfl := Except.ok.inj (hweaving.before.symm.trans his)
    obtain ⟨w, hw, hreplaces⟩ := exists_mem_zip_of_forall₂ hweaving.replaces hi
    refine ⟨i, w, hw, hguard, hreplaces.opcode, ?_, ?_⟩
    · have hcode : Insertion.codeAt r.insertions true i.offset = .simple .dup :: c.2 := by
        rw [← hguard.offset, r.codeAt_of_mem_checks hc hcatches, hguard.load]
      rw [← hcode]
      exact hreplaces.guards
    · intro front hpath
      exact hconfined.isSuffix_of_isPath (List.of_mem_zip hw).2 hpath
  · -- a check without guard belongs to a parameter
    intro c hc hcatches
    exact hshape.entry_of_catchesJumps (hplanned ▸ hc) hcatches
  · rw [hplanned, hshape.filter_eq_parameters]
    exact hshape.order
  · -- the entry code belongs to the instruction at offset 0
    cases hweaving.replaces with
    | nil =>
      obtain ⟨n, hn⟩ := List.exists_mem_of_ne_nil _ r.insertions_ne_nil
      obtain ⟨i, hi, -⟩ := hweaving.boundary n hn
      exact absurd hi List.not_mem_nil
    | @cons i first is rest hfirst _ =>
      have hoffset := hweaving.filled.offset_eq_zero
      refine ⟨first.entry, ?_, fun w hw => hconfined.moved_not_mem_entry hw,
        fun path hpath => hconfined.prefix_or_append_of_isPath hpath,
        fun i j hedge hj => hconfined.isInfix_of_edge_entry hedge hj⟩
      rw [← r.codeAt_zero, ← hoffset]
      exact hfirst.entry

end Rewriting

namespace Guarding

/-- A method with a marked parameter and a marked result. It jumps back to its beginning and catches
exceptions in front of its return. -/
def markedMethod : Member where
  access := 8
  nameIndex := 3
  descriptorIndex := 4
  attributes :=
    [⟨5, [0, 1, 0, 1, 0, 0, 0, 6, 0x2a, 0xc6, 0xff, 0xff, 0x2a, 0xb0, 0, 1, 0, 0, 0, 5, 0, 5, 0, 0,
        0, 0]⟩,
      ⟨6, [0, 1, 0, 8, 0, 1, 0, 9, 115, 0, 10]⟩, ⟨7, [1, 0, 1, 0, 8, 0, 1, 0, 9, 115, 0, 10]⟩]

/-- A class with the marked method. -/
def markedClass : ClassFile where
  minorVersion := 0
  majorVersion := 52
  pool := [.ofText "A", .classEntry 1, .ofText "f", .ofText "(LA;)LA;", .ofText "Code",
    .ofText "RuntimeVisibleAnnotations", .ofText "RuntimeVisibleParameterAnnotations",
    .ofText "Lm;", .ofText "value", .ofText "p"].foldl Pool.append .empty
  access := 0
  thisClass := 2
  superClass := 0
  interfaces := []
  fields := []
  methods := [markedMethod]
  attributes := []

/-- The policy that drops every checked reference. -/
def dropping : Policy where
  emit _ := pure [.simple .pop]
  depth := 1

theorem straight_dropping : dropping.IsStraight := by
  intro site pool sequence pool' h
  obtain ⟨rfl, -⟩ := pure_run_ok_iff.1 h
  decide

/-- Whether a class of one method can be guarded so that the method does not stay as it is. -/
def changesMethods (file : ClassFile) : Bool :=
  match guardClass dropping "Lm;" ⟨file, #[]⟩ with
  | .ok _ p' => p'.file.methods != file.methods
  | .error _ _ => false

theorem exists_guardClass_of_changesMethods (file : ClassFile) (h : changesMethods file = true) :
    ∃ report p', guardClass dropping "Lm;" ⟨file, #[]⟩ = .ok report p' ∧
      p'.file.methods ≠ file.methods := by
  rw [changesMethods] at h
  cases hrun : guardClass dropping "Lm;" ⟨file, #[]⟩ with
  | error e p' =>
    rw [hrun] at h
    exact absurd h Bool.false_ne_true
  | ok report p' =>
    rw [hrun] at h
    exact ⟨report, p', rfl, by simpa using h⟩

theorem onlyInterns_dropping : dropping.OnlyInterns := fun _ => Pool.onlyInterns_pure _

theorem built_markedClass : markedClass.pool.Built := ⟨⟨_, rfl⟩, by decide +kernel⟩

/-- The checks of the marked method: one of its parameter and one in front of its return. -/
def markedChecks : List Check :=
  [⟨0, false, .simple .aload_0, ⟨"A", "f", .parameter 0 0, "p"⟩⟩,
    ⟨5, true, .simple .dup, ⟨"A", "f", .returned, "p"⟩⟩]

end Guarding

end PatternGuard
