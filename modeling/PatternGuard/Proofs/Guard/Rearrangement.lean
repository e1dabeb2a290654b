import PatternGuard.Proofs.Guard.Insert

/-!
# The order of insertions

Insertions are distributed over the instructions of a body: each goes to its place, which is the
entry code or the guard code of the instruction at its offset. So only the order within a place can
be seen in the result (`CodeBody.withInsertions_rearranged`). Which of several insertions is refused
may depend on the order of all.
-/

set_option autoImplicit false

namespace PatternGuard

open Block Outcome

namespace Insertion

/-! ## Rearranged insertions -/

/-- Both insertions are entry code, or both are guard code, of one instruction. -/
def SharesPlace (m n : Insertion) : Prop :=
  m.offset = n.offset ∧ m.catchesJumps = n.catchesJumps

instance (m n : Insertion) : Decidable (m.SharesPlace n) := inferInstanceAs (Decidable (_ ∧ _))

/-- `ys` holds the insertions of `xs` in another order, in which those of one place stand as they
did: the numbers that they have in `xs` ascend. -/
def Rearranges (xs ys : List Insertion) : Prop :=
  ∃ numbered : List (Insertion × Nat), numbered.Perm xs.zipIdx ∧ numbered.map Prod.fst = ys ∧
    numbered.Pairwise fun m n => m.1.SharesPlace n.1 → m.2 < n.2

namespace Rearranges

variable {xs ys : List Insertion}

theorem perm (h : Rearranges xs ys) : ys.Perm xs := by
  obtain ⟨numbered, hperm, rfl, -⟩ := h
  rw [← List.zipIdx_map_fst 0 xs]
  exact hperm.map Prod.fst

/-- Each place has the same insertions in the same order. -/
theorem filter_eq (h : Rearranges xs ys) (offset : Nat) (catchesJumps : Bool) :
    (ys.filter fun n => n.offset = offset ∧ n.catchesJumps = catchesJumps) =
      xs.filter fun n => n.offset = offset ∧ n.catchesJumps = catchesJumps := by
  obtain ⟨numbered, hperm, rfl, hascending⟩ := h
  -- among the numbered insertions of the place, the numbers ascend on both sides
  have hnumbered : (numbered.filter fun n => n.1.offset = offset ∧
      n.1.catchesJumps = catchesJumps).Pairwise fun m n => m.2 < n.2 := by
    rw [List.pairwise_filter]
    refine hascending.imp fun {m n} hlt hm hn => hlt ?_
    rw [decide_eq_true_eq] at hm hn
    exact ⟨hm.1.trans hn.1.symm, hm.2.trans hn.2.symm⟩
  have hzipIdx : (xs.zipIdx.filter fun n => n.1.offset = offset ∧
      n.1.catchesJumps = catchesJumps).Pairwise fun m n => m.2 < n.2 := by
    refine List.Pairwise.filter _ (List.pairwise_map.1 ?_)
    rw [List.zipIdx_map_snd]
    exact List.pairwise_lt_range'
  have hsame := List.Perm.eq_of_pairwise
    (fun m n _ _ hlt hgt => absurd hgt (Nat.lt_asymm hlt)) hnumbered hzipIdx (hperm.filter _)
  conv_rhs => rw [← List.zipIdx_map_fst 0 xs]
  rw [List.filter_map, List.filter_map]
  exact congrArg (List.map Prod.fst) hsame

theorem codeAt_eq (h : Rearranges xs ys) (catchesJumps : Bool) (offset : Nat) :
    codeAt ys catchesJumps offset = codeAt xs catchesJumps offset := by
  have hplace := h.filter_eq offset catchesJumps
  simp only [codeAt, codeOf, List.filter_filter]
  simpa only [Bool.decide_and, Bool.and_comm] using congrArg (List.flatMap Insertion.code) hplace

/-- The blocks do not tell in which order they got their code. -/
theorem ofInsertions_eq (h : Rearranges xs ys) (is : List Instruction) :
    ofInsertions ys is = ofInsertions xs is := by
  simp only [Block.ofInsertions_eq, h.codeAt_eq]

end Rearranges

end Insertion

/-! ## Insertion -/

namespace CodeBody

variable {body : CodeBody} {pool : Pool} {xs ys : List Insertion} {depth : UInt16}
  {method : String}

/-- No insertion is refused, be it for its code or for its offset. -/
def Accepts (body : CodeBody) (insertions : List Insertion) (method : String) : Prop :=
  ∀ old, body.instructions = .ok old →
    ∀ n ∈ insertions, Mover.checkInsertion (Mover.boundaries old) method n = .ok ⟨⟩

theorem accepts_of_ok {body' : CodeBody}
    (h : body.withInsertions pool xs depth method = .ok body') : body.Accepts xs method := by
  obtain ⟨-, -, old, hold, hchecked, -⟩ := withInsertions_ok_iff.1 h
  intro old' hold'
  obtain rfl := Except.ok.inj (hold.symm.trans hold')
  exact hchecked

theorem Accepts.of_perm (h : body.Accepts xs method) (hperm : ys.Perm xs) :
    body.Accepts ys method := fun old hold n hn => h old hold n (hperm.mem_iff.1 hn)

/-- Accepted insertions have no effect but through the blocks. -/
theorem Accepts.withInsertions_eq (hxs : body.Accepts xs method) (hys : body.Accepts ys method)
    (hblocks : ∀ is, ofInsertions ys is = ofInsertions xs is) :
    body.withInsertions pool ys depth method = body.withInsertions pool xs depth method := by
  rw [withInsertions, withInsertions]
  refine bind_congr fun _ => ite_congr rfl
    (fun _ => bind_congr_of_ok fun _ hr => absurd hr Mover.refuse_ne_ok) fun _ => ?_
  refine bind_congr_of_ok fun old hold => ?_
  have hold := GuardError.ofData_ok_iff.1 hold
  have hxs : xs.forM (Mover.checkInsertion (Mover.boundaries old) method) = .ok ⟨⟩ :=
    forM_ok_iff.2 (hxs old hold)
  have hys : ys.forM (Mover.checkInsertion (Mover.boundaries old) method) = .ok ⟨⟩ :=
    forM_ok_iff.2 (hys old hold)
  rw [hys, hxs, hblocks]

/-- Insertions may be rearranged as long as those of one place keep their order: insertion succeeds
in both orders or in neither, and with the same body. If no insertion is refused, a failure is for
the same reason too. -/
theorem withInsertions_rearranged (h : Insertion.Rearranges xs ys) :
    (∀ body', body.withInsertions pool ys depth method = .ok body' ↔
      body.withInsertions pool xs depth method = .ok body') ∧
    (body.Accepts xs method →
      body.withInsertions pool ys depth method = body.withInsertions pool xs depth method) := by
  have hsame : body.Accepts xs method →
      body.withInsertions pool ys depth method = body.withInsertions pool xs depth method :=
    fun hxs => hxs.withInsertions_eq (hxs.of_perm h.perm) h.ofInsertions_eq
  refine ⟨fun body' => ⟨fun hok => ?_, fun hok => ?_⟩, hsame⟩
  · have hxs := (accepts_of_ok hok).of_perm h.perm.symm
    rwa [← hsame hxs]
  · rwa [hsame (accepts_of_ok hok)]

/-- More guard code for the first instruction of the loop. -/
def moreGuards : Insertion := ⟨0, true, [.loadLocal 1, .simple .pop]⟩

/-- The insertions from the last offset to the first. At the beginning the entry code comes last,
and the guard code stays in order. -/
def loopRearranged : List Insertion :=
  [⟨8, true, [.simple .dup, .simple .pop]⟩, ⟨7, true, [.loadLocal 300, .simple .pop]⟩,
    ⟨0, true, [.simple .nop]⟩, moreGuards, ⟨0, false, [.loadLocal 0, .simple .pop]⟩]

theorem exists_withInsertions_loopRearranged :
    Insertion.Rearranges (loopInsertions ++ [moreGuards]) loopRearranged ∧
      ∃ body', loop.withInsertions .empty loopRearranged 2 "f" = .ok body' ∧
        loop.withInsertions .empty (loopInsertions ++ [moreGuards]) 2 "f" = .ok body' := by
  have hrearranges : Insertion.Rearranges (loopInsertions ++ [moreGuards]) loopRearranged :=
    ⟨loopRearranged.zip [1, 2, 3, 4, 0], by decide +kernel, rfl, by decide +kernel⟩
  refine ⟨hrearranges, ?_⟩
  cases h : loop.withInsertions .empty loopRearranged 2 "f" with
  | ok body' => exact ⟨body', rfl, ((withInsertions_rearranged hrearranges).1 body').1 h⟩
  | error e =>
    have hok : (loop.withInsertions .empty loopRearranged 2 "f").isOk = true := by decide +kernel
    rw [h] at hok
    exact absurd hok Bool.false_ne_true

end CodeBody

end PatternGuard
