import PatternGuard.Guard.Plan
import PatternGuard.Proofs.Code.Stream
import PatternGuard.Proofs.Guard.Insert

/-!
# The checks of a method

A plan is a list of checks of parameters at the beginning of the method, in the order of the
parameters, and of checks in front of instructions that return a reference or store to a field, in
the order of the code (`Plan.ofMethod_ok`).
-/

set_option autoImplicit false

namespace PatternGuard

open Outcome

namespace Check

/-- The check of a parameter at the entry of its method. -/
structure IsEntry (c : Check) (index : Nat) : Prop where
  offset : c.offset = 0
  catchesJumps : c.catchesJumps = false
  load : ∃ slot, c.load = .loadLocal slot ∧ c.site.kind = .parameter index slot

/-- The check of the value that an instruction returns or stores. -/
structure IsGuard (c : Check) (i : Instruction) : Prop where
  offset : c.offset = i.offset
  catchesJumps : c.catchesJumps = true
  load : c.load = .simple .dup
  opcode : i.opcode = .areturn ∨ i.opcode = .putfield ∨ i.opcode = .putstatic

end Check

namespace Plan

/-- The checks of a plan and where they belong. -/
structure Shape (body : CodeBody) (parameters guards : List Check) : Prop where
  entry : ∀ c ∈ parameters, ∃ index, c.IsEntry index
  order : parameters.Pairwise fun c d =>
    ∃ index later, c.IsEntry index ∧ d.IsEntry later ∧ index < later
  guard : ∀ c ∈ guards, ∃ is i, body.instructions = .ok is ∧ i ∈ is ∧ c.IsGuard i
  ascending : guards.Pairwise fun c d => c.offset < d.offset

namespace Shape

variable {body : CodeBody} {parameters guards : List Check}

/-- A check is that of a parameter or a guard, as jumps go past it or through it. -/
theorem entry_of_catchesJumps (h : Shape body parameters guards) {c : Check}
    (hc : c ∈ parameters ++ guards) (hcatches : c.catchesJumps = false) :
    ∃ index, c.IsEntry index := by
  rcases List.mem_append.1 hc with hc | hc
  · exact h.entry c hc
  · obtain ⟨is, i, -, -, hguard⟩ := h.guard c hc
    exact absurd (hcatches ▸ hguard.catchesJumps) Bool.false_ne_true

theorem guard_of_catchesJumps (h : Shape body parameters guards) {c : Check}
    (hc : c ∈ parameters ++ guards) (hcatches : c.catchesJumps = true) :
    ∃ is i, body.instructions = .ok is ∧ i ∈ is ∧ c.IsGuard i := by
  rcases List.mem_append.1 hc with hc | hc
  · obtain ⟨index, hentry⟩ := h.entry c hc
    exact absurd (hcatches ▸ hentry.catchesJumps) Bool.noConfusion
  · exact h.guard c hc

/-- No two guards stand at one offset. -/
theorem pairwise_guards (h : Shape body parameters guards) :
    (parameters ++ guards).Pairwise fun c d =>
      c.catchesJumps = true → d.catchesJumps = true → c.offset ≠ d.offset := by
  have hentry : ∀ c ∈ parameters, c.catchesJumps ≠ true := by
    intro c hc
    obtain ⟨index, hentry⟩ := h.entry c hc
    rw [hentry.catchesJumps]
    exact Bool.false_ne_true
  refine List.pairwise_append.2 ⟨?_, ?_, ?_⟩
  · exact h.order.imp_of_mem fun hc _ _ hcatches => absurd hcatches (hentry _ hc)
  · exact h.ascending.imp fun hlt _ _ => Nat.ne_of_lt hlt
  · exact fun c hc _ _ hcatches => absurd hcatches (hentry c hc)

/-- The checks that jumps go past are those of the parameters, in their order. -/
theorem filter_eq_parameters (h : Shape body parameters guards) :
    (parameters ++ guards).filter (fun c => !c.catchesJumps) = parameters := by
  have hparameters : parameters.filter (fun c => !c.catchesJumps) = parameters := by
    rw [List.filter_eq_self]
    intro c hc
    obtain ⟨index, hentry⟩ := h.entry c hc
    rw [hentry.catchesJumps]
    rfl
  have hguards : guards.filter (fun c => !c.catchesJumps) = [] := by
    rw [List.filter_eq_nil_iff]
    intro c hc
    obtain ⟨is, i, -, -, hguard⟩ := h.guard c hc
    rw [hguard.catchesJumps]
    exact Bool.false_ne_true
  rw [List.filter_append, hparameters, hguards, List.append_nil]

end Shape

namespace MethodContext

theorem parameterCheck_ok {m : MethodContext} {annotations : List Annotation} {type : FieldType}
    {slot : UInt16} {index : Nat} {c : Check}
    (h : m.parameterCheck annotations type slot index = .ok (some c)) : c.IsEntry index := by
  obtain ⟨marked, -, hrest⟩ := bind_ok_iff.1 h
  cases marked with
  | none => exact absurd (pure_ok_iff.1 hrest) (by simp)
  | some pattern =>
    obtain ⟨_, -, hpure⟩ := bind_ok_iff.1 hrest
    obtain rfl := Option.some.inj (pure_ok_iff.1 hpure)
    exact ⟨rfl, rfl, slot, rfl, rfl⟩

theorem guardSubject_ok {m : MethodContext} {returned : Option String}
    {fields : List FieldPattern} {i : Instruction} {subject : SiteSubject × String}
    (h : m.guardSubject returned fields i = .ok (some subject)) :
    i.opcode = .areturn ∨ i.opcode = .putfield ∨ i.opcode = .putstatic := by
  rw [guardSubject] at h
  split at h
  · rename_i hopcode
    exact Or.inl hopcode
  · rename_i hopcode
    exact Or.inr (Or.inl hopcode)
  · rename_i hopcode
    exact Or.inr (Or.inr hopcode)
  · exact absurd (Except.ok.inj h) (by simp)

theorem guardCheck_ok {m : MethodContext} {returned : Option String} {fields : List FieldPattern}
    {i : Instruction} {c : Check} (h : m.guardCheck returned fields i = .ok (some c)) :
    c.IsGuard i := by
  obtain ⟨subject, hsubject, hpure⟩ := bind_ok_iff.1 h
  cases subject with
  | none => exact absurd (pure_ok_iff.1 hpure) (by simp)
  | some subject =>
    obtain rfl := Option.some.inj (pure_ok_iff.1 hpure)
    exact ⟨rfl, rfl, rfl, guardSubject_ok hsubject⟩

theorem parameterChecks_ok {m : MethodContext} {annotations : List (List Annotation)}
    {parameters : List Check} (h : m.parameterChecks annotations = .ok parameters) :
    (∀ c ∈ parameters, ∃ index, c.IsEntry index) ∧ parameters.Pairwise fun c d =>
      ∃ index later, c.IsEntry index ∧ d.IsEntry later ∧ index < later := by
  obtain ⟨found, hfound, hpure⟩ := bind_ok_iff.1 h
  obtain rfl := pure_ok_iff.1 hpure
  have hchecks := mapM_ok_iff.1 hfound
  refine ⟨?_, ?_⟩
  · intro c hc
    obtain ⟨o, ho, rfl⟩ := List.mem_filterMap.1 hc
    obtain ⟨⟨⟨annotations, type, slot⟩, index⟩, -, hcheck⟩ :=
      exists_mem_zip_of_forall₂ hchecks.flip ho
    exact ⟨index, parameterCheck_ok hcheck⟩
  · -- the items are numbered in ascending order
    have hnumbered : ((annotations.zip (m.type.parameters.zip m.slots)).zipIdx).Pairwise
        fun x y => x.2 < y.2 := by
      rw [← List.pairwise_map, List.zipIdx_map_snd]
      exact List.pairwise_lt_range'
    rw [List.pairwise_filterMap]
    refine pairwise_of_forall₂ ?_ hchecks hnumbered
    rintro ⟨⟨_, _, _⟩, index⟩ ⟨⟨_, _, _⟩, later⟩ o o' ho ho' hlt c rfl d rfl
    exact ⟨index, later, parameterCheck_ok ho, parameterCheck_ok ho', hlt⟩

theorem guardChecks_ok {m : MethodContext} {returned : Option String} {fields : List FieldPattern}
    {code : List UInt8} {is : List Instruction} {found : List (Option Check)}
    (his : Code.decode code = .ok is) (hlength : code.length ≤ 4294967296)
    (hfound : is.mapM (m.guardCheck returned fields) = .ok found) :
    (∀ c ∈ found.filterMap id, ∃ i ∈ is, c.IsGuard i) ∧
      (found.filterMap id).Pairwise fun c d => c.offset < d.offset := by
  have hchecks := mapM_ok_iff.1 hfound
  refine ⟨?_, ?_⟩
  · intro c hc
    obtain ⟨o, ho, rfl⟩ := List.mem_filterMap.1 hc
    obtain ⟨i, hi, hcheck⟩ := exists_mem_zip_of_forall₂ hchecks.flip ho
    exact ⟨i, (List.of_mem_zip hi).2, guardCheck_ok hcheck⟩
  · rw [List.pairwise_filterMap]
    refine pairwise_of_forall₂ ?_ hchecks (Code.fills_of_decode his hlength).ascending
    rintro i j o o' ho ho' hlt c rfl d rfl
    rw [(guardCheck_ok ho).offset, (guardCheck_ok ho').offset]
    exact hlt

end MethodContext

/-- A plan holds the checks of the parameters in order, then the guards in order. Offsets have 32
bits, which is enough for the code of every method. -/
theorem ofMethod_ok {className marker : String} {fields : List FieldPattern} {pool : Pool}
    {method : Member} {body : CodeBody} {planned : List Check}
    (hlength : body.code.length ≤ 4294967296)
    (h : ofMethod className marker fields pool method body = .ok planned) :
    ∃ parameters guards, planned = parameters ++ guards ∧ Shape body parameters guards := by
  obtain ⟨methodName, -, h₁⟩ := bind_ok_iff.1 h
  obtain ⟨descriptor, -, h₂⟩ := bind_ok_iff.1 h₁
  obtain ⟨type, -, h₃⟩ := bind_ok_iff.1 h₂
  obtain ⟨annotations, -, h₄⟩ := bind_ok_iff.1 h₃
  obtain ⟨parameters, hparameters, h₅⟩ := bind_ok_iff.1 h₄
  obtain ⟨own, -, h₆⟩ := bind_ok_iff.1 h₅
  obtain ⟨returned, -, h₇⟩ := bind_ok_iff.1 h₆
  obtain ⟨hentry, horder⟩ := MethodContext.parameterChecks_ok hparameters
  split at h₇
  · -- nothing is marked that could be checked in the code, which is not even decoded
    obtain rfl := pure_ok_iff.1 h₇
    exact ⟨parameters, [], (List.append_nil _).symm, hentry, horder,
      fun c hc => absurd hc List.not_mem_nil, List.Pairwise.nil⟩
  · obtain ⟨is, his, h₈⟩ := bind_ok_iff.1 h₇
    obtain ⟨found, hfound, hpure⟩ := bind_ok_iff.1 h₈
    obtain rfl := pure_ok_iff.1 hpure
    rw [GuardError.ofData_ok_iff] at his
    obtain ⟨hguard, hascending⟩ := MethodContext.guardChecks_ok his hlength hfound
    refine ⟨parameters, found.filterMap id, rfl, hentry, horder, ?_, hascending⟩
    intro c hc
    obtain ⟨i, hi, hcheck⟩ := hguard c hc
    exact ⟨is, i, his, hi, hcheck⟩

end Plan

end PatternGuard
