import PatternGuard.Proofs.Code.OperandStack
import PatternGuard.Proofs.Guard.InsertedFlow
import PatternGuard.Proofs.Guard.Paths
import PatternGuard.Proofs.Guard.Simulation

/-!
# Room for inserted code

Inserted code that gives back the number of slots it found, and never has more than `extra` slots
above them, needs `extra` more slots of the operand stack and nothing else. The invariant
(`CodeBody.Weaving.Pending`) says of every instruction of the woven code that is reached: the old
instruction that it belongs to is reached in the old code, and what is left of the inserted code in
front of the moved instruction leads back to the number of slots there. So a limit that suffices for
the old code suffices for the woven code with `extra` added (`CodeBody.Weaving.stackSuffices`).
-/

set_option autoImplicit false

namespace PatternGuard

open Code Outcome

/-- The code that is inserted in front of an instruction gives back the number of slots that it
finds, and has at most `extra` slots above them. Guard code does so wherever the instruction finds
the slots that it reads. -/
structure Woven.Balanced (others : Instruction → Option StackEffect) (pool : Pool) (extra : Nat)
    (i : Instruction) (w : Woven) : Prop where
  entry : ∀ depth, RunsWithin others pool depth (depth + extra) w.entry depth depth
  guards : ∀ depth e, i.effect? others pool = some e → e.reads ≤ depth →
    RunsWithin others pool depth (depth + extra) w.guards depth depth

/-- Code at an offset leaves the number of slots as it is if each insertion there does. -/
theorem RunsWithin.codeAt {others : Instruction → Option StackEffect} {pool : Pool}
    {insertions : List Insertion} {catchesJumps : Bool} {offset floor ceiling depth : Nat}
    (hle : depth ≤ ceiling)
    (h : ∀ n ∈ insertions, n.catchesJumps = catchesJumps → n.offset = offset →
      RunsWithin others pool floor ceiling n.code depth depth) :
    RunsWithin others pool floor ceiling (Insertion.codeAt insertions catchesJumps offset) depth
      depth := by
  rw [Insertion.codeAt_eq]
  refine .flatMap hle fun n hn => ?_
  obtain ⟨hmem, hplace⟩ := List.mem_filter.1 hn
  obtain ⟨hcatches, hoffset⟩ := of_decide_eq_true hplace
  exact h n hmem hcatches hoffset

namespace CodeBody.Weaving

variable {body body' : CodeBody} {insertions : List Insertion} {old : List Instruction}
  {woven : List Woven} {others : Instruction → Option StackEffect} {pool : Pool}
  {extra limit : Nat}

/-- The instruction `k` is reached with `depth` slots while the instruction `i` is pending: `i` is
reached with some number of slots in the old code, and the rest of the code that is inserted in
front of it leads back to that number. -/
def Pending (others : Instruction → Option StackEffect) (pool : Pool) (body : CodeBody)
    (old : List Instruction) (extra : Nat) (i : Instruction) (w : Woven) (k : Instruction)
    (depth : Nat) : Prop :=
  ∃ front rest found, w.entry ++ w.guards = front ++ rest ∧
    (rest ++ [w.moved]).head? = some k ∧ StackDepth others pool old body.handlers i found ∧
    RunsWithin others pool found (found + extra) rest depth found

theorem Pending.mem_code {i k : Instruction} {w : Woven} {depth : Nat}
    (h : Pending others pool body old extra i w k depth) : k ∈ w.code := by
  obtain ⟨front, rest, -, hinserted, hhead, -, -⟩ := h
  rw [Woven.code_eq_concat, hinserted, List.append_assoc]
  exact List.mem_append_right _ (List.mem_of_head? hhead)

section Balanced

variable (h : body.Weaving insertions body' old woven)
  (hstraight : ∀ n ∈ insertions, ∀ i ∈ n.code, i.WellFormed ∧ i.isStraight = true)
  (hentry : ∀ n ∈ insertions, n.catchesJumps = false → n.offset = 0)
  (hbalanced : ∀ i w, (i, w) ∈ old.zip woven → w.Balanced others pool extra i)
  (hsuffices : StackSuffices others pool old body.handlers limit)

include hbalanced hsuffices in
/-- At the beginning of a segment all of its guard code is left. -/
theorem pending_of_head_segment {i k : Instruction} {w : Woven} {depth : Nat}
    (hiw : (i, w) ∈ old.zip woven) (hhead : w.segment.head? = some k)
    (hdepth : StackDepth others pool old body.handlers i depth) :
    Pending others pool body old extra i w k depth := by
  -- the old instruction finds what it reads, so the guard code does
  obtain ⟨-, e, heffect, hreads, -⟩ := hsuffices i depth hdepth
  exact ⟨w.entry, w.guards, depth, rfl, hhead, hdepth,
    (hbalanced i w hiw).guards depth e heffect hreads⟩

include h hbalanced hsuffices in
/-- At the beginning of the code all of the inserted code is left. -/
theorem exists_pending_of_head {k : Instruction}
    (hfirst : (woven.flatMap Woven.code).head? = some k) :
    ∃ i w, (i, w) ∈ old.zip woven ∧ Pending others pool body old extra i w k 0 := by
  cases hreplaces : h.replaces with
  | nil => exact absurd hfirst (by simp)
  | @cons i w is rest _ _ =>
    rw [List.flatMap_cons, List.head?_append_of_ne_nil _ (Woven.code_ne_nil w),
      Woven.code_eq_concat] at hfirst
    have hiw : (i, w) ∈ (i :: is).zip (w :: rest) := List.mem_cons_self
    have hstart : StackDepth others pool (i :: is) body.handlers i 0 := .start rfl
    obtain ⟨-, e, heffect, hreads, -⟩ := hsuffices i 0 hstart
    have hentry := (hbalanced i w hiw).entry 0
    have hguards := (hbalanced i w hiw).guards 0 e heffect hreads
    exact ⟨i, w, hiw, [], w.entry ++ w.guards, 0, rfl, hfirst, hstart, hentry.append hguards⟩

include h hstraight hentry hbalanced hsuffices in
/-- One step leads from an instruction that is reached to one that is reached. -/
theorem exists_pending_of_edge {i k l : Instruction} {w : Woven} {depth : Nat} {e : StackEffect}
    (hiw : (i, w) ∈ old.zip woven) (hpending : Pending others pool body old extra i w k depth)
    (hedge : Edge (woven.flatMap Woven.code) [] k l) (heffect : k.effect? others pool = some e)
    (hreads : e.reads ≤ depth) :
    ∃ j v, (j, v) ∈ old.zip woven ∧ Pending others pool body old extra j v l (e.after depth) := by
  obtain ⟨front, rest, found, hinserted, hhead, hfound, hruns⟩ := hpending
  have hw := (List.of_mem_zip hiw).2
  cases hruns with
  | nil _ =>
    -- nothing inserted is left, so the moved instruction steps as the old one did
    obtain rfl := Option.some.inj hhead
    have hreplaces := List.forall₂_zip h.replaces hiw
    rw [Instruction.effect?_congr hreplaces.opcode hreplaces.operand] at heffect
    obtain ⟨j, v, hjv, hstep, hfirst⟩ := h.exists_edge_old hstraight hentry hiw hedge
    exact ⟨j, v, hjv, pending_of_head_segment hbalanced hsuffices hjv hfirst
      (.step hfound hstep heffect hreads)⟩
  | @cons k' rest _ _ e' _ heffect' _ _ hruns =>
    -- inserted code leads to what is left of it
    obtain rfl := Option.some.inj hhead
    obtain rfl := Option.some.inj (heffect'.symm.trans heffect)
    have hk : k' ∈ w.entry ++ w.guards := by
      rw [hinserted]
      exact List.mem_append_right _ List.mem_cons_self
    obtain ⟨hwell, hgoes⟩ := h.straight_of_mem hstraight hw (List.mem_append.1 hk)
    obtain ⟨next, later, hlater⟩ : ∃ next later, rest ++ [w.moved] = next :: later :=
      List.exists_cons_of_ne_nil (by simp)
    have hcode : w.code = front ++ [k', next] ++ later := by
      rw [Woven.code_eq_concat, hinserted, List.append_assoc, List.cons_append, hlater]
      simp
    have hbelow : [k', next] <:+: w.code := ⟨front, later, hcode.symm⟩
    obtain rfl := Flow.eq_of_isInfix_right (h.confined hstraight hentry).nodup
      (hbelow.trans (Woven.code_isInfix hw)) ((edge_iff_isInfix hwell hgoes).1 hedge)
    rw [List.append_cons] at hinserted
    refine ⟨i, w, hiw, front ++ [k'], rest, found, hinserted, ?_, hfound, hruns⟩
    rw [hlater, List.head?_cons]

include h hstraight hentry hbalanced hsuffices in
/-- Whatever is reached in the woven code is reached while an old instruction is pending. -/
theorem exists_pending {k : Instruction} {depth : Nat}
    (hdepth : StackDepth others pool (woven.flatMap Woven.code) body'.handlers k depth) :
    ∃ i w, (i, w) ∈ old.zip woven ∧ Pending others pool body old extra i w k depth := by
  -- by induction on the way to the instruction; what is pending is the invariant
  induction hdepth with
  | start first => exact exists_pending_of_head h hbalanced hsuffices first
  | step _ edge effect reads ih =>
    obtain ⟨i, w, hiw, hpending⟩ := ih
    exact exists_pending_of_edge h hstraight hentry hbalanced hsuffices hiw hpending edge effect
      reads
  | caught _ mem handler start_le lt_stop target ih =>
    -- the exception is caught as if the pending instruction itself had thrown it
    obtain ⟨i, w, hiw, hpending⟩ := ih
    obtain ⟨handler₀, hhandler₀, hstart, hstop, j, v, hjv, htarget, hfirst⟩ :=
      h.exists_covered_old hstraight hentry hiw hpending.mem_code mem handler start_le lt_stop
        target
    obtain ⟨-, -, found, -, -, hfound, -⟩ := hpending
    exact ⟨j, v, hjv, pending_of_head_segment hbalanced hsuffices hjv hfirst
      (.caught hfound (List.of_mem_zip hjv).1 hhandler₀ hstart hstop htarget)⟩

include h hstraight hentry hbalanced hsuffices in
/-- If a limit suffices for the old code, then with `extra` added it suffices for the woven code. -/
theorem stackSuffices :
    StackSuffices others pool (woven.flatMap Woven.code) body'.handlers (limit + extra) := by
  intro k depth hdepth
  obtain ⟨i, w, hiw, front, rest, found, hinserted, hhead, hfound, hruns⟩ :=
    exists_pending h hstraight hentry hbalanced hsuffices hdepth
  obtain ⟨hlimit, e₀, heffect₀, hreads₀, hafter₀⟩ := hsuffices i found hfound
  have hle := hruns.le_ceiling
  cases hruns with
  | nil _ =>
    -- the moved instruction needs what the old one needed
    obtain rfl := Option.some.inj hhead
    have hreplaces := List.forall₂_zip h.replaces hiw
    rw [← Instruction.effect?_congr hreplaces.opcode hreplaces.operand] at heffect₀
    exact ⟨by omega, e₀, heffect₀, hreads₀, by omega⟩
  | @cons _ rest _ _ e _ heffect hreads _ hruns =>
    -- inserted code stays within `extra` slots above those of the pending instruction
    obtain rfl := Option.some.inj hhead
    have hafter := hruns.le_ceiling
    exact ⟨by omega, e, heffect, hreads, by omega⟩

end Balanced

end CodeBody.Weaving

namespace Rewriting

variable {policy : Policy} {className marker : String} {fields : List FieldPattern}
  {method method' : Member} {others : Instruction → Option StackEffect} {pool : Pool}

/-- The limit is raised by the depth of the policy. -/
theorem maxStack_eq (r : Rewriting policy className marker fields method method') :
    r.body'.maxStack.toNat = r.body.maxStack.toNat + policy.depth.toNat := by
  obtain ⟨-, hle, _, -, -, -, _, _, _, -, -, -, hbody⟩ := CodeBody.withInsertions_ok_iff.1 r.inserts
  rw [hbody]
  exact UInt16.toNat_ofNat_of_lt' (Nat.lt_succ_of_le hle)

section Checks

variable (r : Rewriting policy className marker fields method method')
  (hchecks : ∀ c ∈ r.checks, ∀ depth, (c.1.catchesJumps = true → 1 ≤ depth) →
    RunsWithin others pool depth (depth + policy.depth.toNat) (c.1.load :: c.2) depth depth)

include hchecks

theorem balanced {old : List Instruction} {woven : List Woven}
    (hweaving : r.body.Weaving r.insertions r.body' old woven) {i : Instruction} {w : Woven}
    (hiw : (i, w) ∈ old.zip woven) : w.Balanced others pool policy.depth.toNat i := by
  obtain ⟨parameters, guards, hplanned, hshape⟩ := r.exists_shape
  have hreplaces := List.forall₂_zip hweaving.replaces hiw
  refine ⟨fun depth => ?_, fun depth e heffect hreads => ?_⟩
  · refine .of_map_bare_eq hreplaces.entry (.codeAt (Nat.le_add_right _ _) ?_)
    intro n hn hcatches _
    rw [r.insertions_eq] at hn
    obtain ⟨c, hc, rfl⟩ := List.mem_map.1 hn
    exact hchecks c hc depth fun hguards => absurd (hguards.symm.trans hcatches) (by decide)
  · refine .of_map_bare_eq hreplaces.guards (.codeAt (Nat.le_add_right _ _) ?_)
    intro n hn hcatches hoffset
    rw [r.insertions_eq] at hn
    obtain ⟨c, hc, rfl⟩ := List.mem_map.1 hn
    -- the guarded instruction reads the value that is checked
    obtain ⟨is, j, his, hj, hguard⟩ :=
      hshape.guard_of_catchesJumps (hplanned ▸ r.planned_of_mem_checks hc) hcatches
    obtain rfl := Except.ok.inj (hweaving.before.symm.trans his)
    obtain rfl := eq_of_offset_eq hweaving.filled.ascending hj
      (List.of_mem_zip hiw).1 (hguard.offset.symm.trans hoffset)
    have hpos := Instruction.reads_pos_of_opcode hguard.opcode heffect
    exact hchecks c hc depth fun _ => Nat.le_trans hpos hreads

/-- If all checks give back what they take up, and take up no more than the policy says, the raised
limit suffices for a rewritten method wherever the old limit sufficed. -/
theorem stackSuffices (hpolicy : policy.IsStraight) :
    ∃ old new, r.body.instructions = .ok old ∧ r.body'.instructions = .ok new ∧
      (StackSuffices others pool old r.body.handlers r.body.maxStack.toNat →
        StackSuffices others pool new r.body'.handlers r.body'.maxStack.toNat) := by
  obtain ⟨old, woven, hweaving⟩ := r.exists_weaving hpolicy
  refine ⟨old, _, hweaving.before, hweaving.after, fun hsuffices => ?_⟩
  rw [r.maxStack_eq]
  exact hweaving.stackSuffices (r.straight_of_mem_insertions hpolicy)
    r.offset_eq_zero_of_mem_insertions (fun i w => r.balanced hchecks hweaving) hsuffices

end Checks

end Rewriting

end PatternGuard
