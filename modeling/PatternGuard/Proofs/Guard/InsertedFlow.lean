import PatternGuard.Proofs.Guard.Flow

/-!
# Where inserted code leads

Insertions are checked for branches and for instructions that leave the method. What passes goes
straight on, unless it is a return from a subroutine: that is neither, in its plain and in its wide
form, and it is inserted like any other instruction (`Mover.checkInsertion_ok_iff_straight`). All
other inserted code leads to the instruction that is laid out directly after it and nowhere else,
exceptions apart (`CodeBody.edge_iff_of_withInsertions`).
-/

set_option autoImplicit false

namespace PatternGuard

open Code

namespace Instruction

/-- What neither branches nor leaves the method goes straight on or returns from a subroutine. -/
theorem straight_or_isRet_iff {i : Instruction} :
    (i.isStraight = true ∨ i.isRet = true) ↔
      i.opcode.isBranch = false ∧ i.opcode.isReturn = false := by
  have hret : i.isRet = true → i.opcode.isBranch = false ∧ i.opcode.isReturn = false := by
    intro h
    rw [isRet, Bool.or_eq_true, Bool.and_eq_true, decide_eq_true_eq, decide_eq_true_eq] at h
    rcases h with hopcode | ⟨hopcode, -⟩
    · rw [hopcode]
      decide
    · rw [hopcode]
      decide
  constructor
  · rintro (h | h)
    · simp only [isStraight, Bool.and_eq_true, Bool.not_eq_true'] at h
      exact h.1
    · exact hret h
  · rintro ⟨hbranch, hreturn⟩
    cases h : i.isRet with
    | true => exact Or.inr rfl
    | false => exact Or.inl (by simp [isStraight, hbranch, hreturn, h])

end Instruction

/-- Code may be inserted at an instruction if it goes straight on, or if it returns from a
subroutine. -/
theorem Mover.checkInsertion_ok_iff_straight {is : List Instruction} {method : String}
    {n : Insertion} {r : Unit} :
    checkInsertion (boundaries is) method n = .ok r ↔
      (∀ j ∈ n.code, j.isStraight = true ∨ j.isRet = true) ∧ ∃ i ∈ is, i.offset = n.offset := by
  simp only [checkInsertion_ok_iff, Instruction.straight_or_isRet_iff]

namespace CodeBody

/-- What holds of everything that is inserted holds of it where it is laid out. -/
theorem Weaving.forall_of_mem {body body' : CodeBody} {insertions : List Insertion}
    {old : List Instruction} {woven : List Woven} {P : Opcode × Operand → Prop}
    (h : body.Weaving insertions body' old woven)
    (hinserted : ∀ n ∈ insertions, ∀ i ∈ n.code, P i.bare) {w : Woven} (hw : w ∈ woven)
    {i : Instruction} (hi : i ∈ w.entry ∨ i ∈ w.guards) : P i.bare := by
  have hcodeAt : ∀ catchesJumps offset, ∀ j ∈ Insertion.codeAt insertions catchesJumps offset,
      P j.bare := by
    intro catchesJumps offset j hj
    obtain ⟨n, hn, -, -, hmem⟩ := Insertion.mem_codeAt hj
    exact hinserted n hn j hmem
  obtain ⟨o, -, hreplaces⟩ := Outcome.exists_mem_zip_of_mem_right h.replaces hw
  rcases hi with hi | hi
  · exact Instruction.forall_of_map_bare_eq hreplaces.entry (hcodeAt _ _) i hi
  · exact Instruction.forall_of_map_bare_eq hreplaces.guards (hcodeAt _ _) i hi

end CodeBody

namespace Woven

/-- Something is laid out directly after every inserted instruction. -/
theorem exists_isInfix_code {w : Woven} {i : Instruction} (hi : i ∈ w.entry ∨ i ∈ w.guards) :
    ∃ j, [i, j] <:+: w.code := by
  obtain ⟨front, back, hfront⟩ := List.append_of_mem (List.mem_append.2 hi)
  have hcode : w.code = front ++ i :: (back ++ [w.moved]) := by
    rw [code, ← List.append_assoc, hfront]
    simp
  cases back with
  | nil => exact ⟨w.moved, front, [], by rw [hcode]; simp⟩
  | cons j back => exact ⟨j, front, back ++ [w.moved], by rw [hcode]; simp⟩

end Woven

/-- Without exceptions, straight code leads to the instruction below and nowhere else. -/
theorem Code.edge_iff_isInfix {code : List Instruction} {i j : Instruction} (hwell : i.WellFormed)
    (hstraight : i.isStraight = true) : Edge code [] i j ↔ [i, j] <:+: code := by
  constructor
  · intro hedge
    cases hedge with
    | next _ hbelow => exact hbelow
    | jump _ _ htarget =>
      -- straight code has no targets
      rw [Instruction.targets_eq_nil hwell hstraight] at htarget
      exact absurd htarget List.not_mem_nil
    | resume _ hret _ _ =>
      rw [Instruction.isRet_eq_false hstraight] at hret
      exact absurd hret Bool.false_ne_true
    | handle _ _ hh _ _ _ => exact absurd hh List.not_mem_nil
  · exact fun hbelow => .next (Instruction.fallsThrough_of_isStraight hstraight) hbelow

namespace CodeBody

/-- Insertion succeeds only if all code that is inserted goes straight on or returns from a
subroutine. Wherever it is laid out, the former leads to the instruction directly after it, which
there is, and nowhere else. -/
theorem edge_iff_of_withInsertions {body body' : CodeBody} {pool : Pool}
    {insertions : List Insertion} {depth : UInt16} {method : String}
    (h : body.withInsertions pool insertions depth method = .ok body')
    (hinserted : ∀ n ∈ insertions, ∀ i ∈ n.code, i.WellFormed) :
    (∀ n ∈ insertions, ∀ i ∈ n.code, i.isStraight = true ∨ i.isRet = true) ∧
      ∃ old woven, body.Weaving insertions body' old woven ∧
        ∀ w ∈ woven, ∀ i, i ∈ w.entry ∨ i ∈ w.guards → i.isRet = false →
          (∃ j, [i, j] <:+: woven.flatMap Woven.code) ∧
            ∀ j, Edge (woven.flatMap Woven.code) [] i j ↔
              [i, j] <:+: woven.flatMap Woven.code := by
  obtain ⟨-, -, _, -, hchecked, -⟩ := withInsertions_ok_iff.1 h
  have hcode : ∀ n ∈ insertions, ∀ i ∈ n.code, i.isStraight = true ∨ i.isRet = true :=
    fun n hn => (Mover.checkInsertion_ok_iff_straight.1 (hchecked n hn)).1
  obtain ⟨old, woven, hweaving⟩ := exists_weaving h hinserted
  refine ⟨hcode, old, woven, hweaving, ?_⟩
  intro w hw i hi hret
  -- what is laid out is what was inserted, but for its offset
  obtain ⟨hwell, hi'⟩ := hweaving.forall_of_mem
    (P := fun p => p.1.form.Suits p.2 ∧ ((Instruction.ofOperand p.1 p.2).isStraight = true ∨
      (Instruction.ofOperand p.1 p.2).isRet = true))
    (fun n hn j hj => ⟨hinserted n hn j hj, hcode n hn j hj⟩) hw hi
  have hstraight : i.isStraight = true := hi'.resolve_right (by
    show ¬i.isRet = true
    simp [hret])
  obtain ⟨j, hj⟩ := Woven.exists_isInfix_code hi
  refine ⟨⟨j, hj.trans (Woven.code_isInfix hw)⟩, ?_⟩
  exact fun k => edge_iff_isInfix hwell hstraight

/-- A body with a subroutine that stores where to return to and returns there. -/
def withSubroutine : CodeBody where
  maxStack := 1
  maxLocals := 2
  code := [0xa8, 0, 4, 0xb1, 0x4c, 0xa9, 1]
  handlers := []
  attributes := []

/-- Something that goes straight on, and a return from the subroutine after it. -/
def earlyReturn : List Insertion := [⟨5, true, [.simple .nop, .ofOperand .ret (.bytes [1])]⟩]

/-- The early return at offset 6 leads past the return at offset 8, to the instruction below the
call of the subroutine. -/
theorem exists_edge_earlyReturn :
    ∃ body', withSubroutine.withInsertions .empty earlyReturn 0 "f" = .ok body' ∧
      (∃ old woven, withSubroutine.Weaving earlyReturn body' old woven ∧
        ∀ w ∈ woven, ∀ i, i ∈ w.entry ∨ i ∈ w.guards → i.isRet = false →
          (∃ j, [i, j] <:+: woven.flatMap Woven.code) ∧
            ∀ j, Edge (woven.flatMap Woven.code) [] i j ↔
              [i, j] <:+: woven.flatMap Woven.code) ∧
      ∃ new, body'.instructions = .ok new ∧
        Edge new [] ⟨6, .ret, .bytes [1]⟩ ⟨3, .return_void, .none⟩ ∧
        [⟨6, .ret, .bytes [1]⟩, ⟨8, .ret, .bytes [1]⟩] <:+: new := by
  have hbody : withSubroutine.withInsertions .empty earlyReturn 0 "f" =
      .ok { withSubroutine with code := [0xa8, 0, 4, 0xb1, 0x4c, 0, 0xa9, 1, 0xa9, 1] } := by
    decide +kernel
  have hnew : CodeBody.instructions
      { withSubroutine with code := [0xa8, 0, 4, 0xb1, 0x4c, 0, 0xa9, 1, 0xa9, 1] } =
      .ok [⟨0, .jsr, .branch 4⟩, ⟨3, .return_void, .none⟩, ⟨4, .astore_1, .none⟩, ⟨5, .nop, .none⟩,
        ⟨6, .ret, .bytes [1]⟩, ⟨8, .ret, .bytes [1]⟩] := by
    decide +kernel
  refine ⟨_, hbody, (edge_iff_of_withInsertions hbody (by decide)).2, _, hnew, ?_, by decide⟩
  have hcall : Instruction.isJsr ⟨0, .jsr, .branch 4⟩ = true := rfl
  exact .resume (by decide) rfl hcall (by decide)

end CodeBody

end PatternGuard
