import PatternGuard.Proofs.Guard.Flow

/-!
# Woven code does what the old code did

A moved instruction leads to where the old instruction led: whatever follows it in the woven code is
the beginning of the segment of an instruction that followed it in the old code
(`CodeBody.Weaving.exists_edge_old`). An exception in the segment of an instruction is handled where
an exception in the old instruction was handled (`CodeBody.Weaving.exists_covered_old`).
-/

set_option autoImplicit false

namespace PatternGuard

open Code Outcome

/-- An old instruction is told by the code that it has become. -/
theorem Woven.Aligned.eq_of_mem_zip {old : List Instruction} {oldLength newLength : Nat}
    {woven : List Woven} (h : Aligned old oldLength woven newLength) {i j : Instruction}
    {w : Woven} (hi : (i, w) ∈ old.zip woven) (hj : (j, w) ∈ old.zip woven) : i = j := by
  have hmoved := mem_code_of_mem_segment w.moved_mem_segment
  rcases h.precedes_or hi hj with heq | ⟨-, hcode⟩ | ⟨-, hcode⟩
  · exact congrArg Prod.fst heq
  · exact absurd (hcode _ hmoved _ hmoved) (Nat.lt_irrefl _)
  · exact absurd (hcode _ hmoved _ hmoved) (Nat.lt_irrefl _)

namespace CodeBody.Weaving

variable {body body' : CodeBody} {insertions : List Insertion} {old : List Instruction}
  {woven : List Woven}

theorem aligned (h : body.Weaving insertions body' old woven) :
    Woven.Aligned old body.code.length woven body'.code.length :=
  ⟨h.filled, h.fills, h.replaces.length_eq⟩

/-- Two blocks that stand one after the other were instructions that stood one after the other. -/
theorem exists_isInfix_old (h : body.Weaving insertions body' old woven) {w v : Woven}
    (hwv : [w, v] <:+: woven) :
    ∃ i j, [i, j] <:+: old ∧ (i, w) ∈ old.zip woven ∧ (j, v) ∈ old.zip woven := by
  have hsnd : (old.zip woven).map Prod.snd = woven :=
    List.map_snd_zip (Nat.le_of_eq h.replaces.length_eq.symm)
  have hfst : (old.zip woven).map Prod.fst = old :=
    List.map_fst_zip (Nat.le_of_eq h.replaces.length_eq)
  rw [← hsnd] at hwv
  obtain ⟨pairs, hpairs, hmap⟩ := List.infix_map_iff.1 hwv
  obtain ⟨⟨i, w'⟩, rest, rfl, rfl, hrest⟩ := List.map_eq_cons_iff.1 hmap.symm
  obtain ⟨⟨j, v'⟩, rest', rfl, rfl, hnil⟩ := List.map_eq_cons_iff.1 hrest
  obtain rfl := List.map_eq_nil_iff.1 hnil
  refine ⟨i, j, ?_, hpairs.subset List.mem_cons_self,
    hpairs.subset (List.mem_cons_of_mem _ List.mem_cons_self)⟩
  rw [← hfst]
  exact hpairs.map Prod.fst

section Confined

variable (h : body.Weaving insertions body' old woven)
  (hstraight : ∀ n ∈ insertions, ∀ i ∈ n.code, i.WellFormed ∧ i.isStraight = true)
  (hentry : ∀ n ∈ insertions, n.catchesJumps = false → n.offset = 0)

include h hstraight hentry

/-- Below a moved instruction begins the segment of the instruction that was below it before. -/
theorem exists_old_of_below {i k : Instruction} {w : Woven} (hiw : (i, w) ∈ old.zip woven)
    (hbelow : [w.moved, k] <:+: woven.flatMap Woven.code) :
    ∃ j v, (j, v) ∈ old.zip woven ∧ [i, j] <:+: old ∧ v.segment.head? = some k := by
  have hconfined := h.confined hstraight hentry
  have hmoved := Woven.mem_code_of_mem_segment w.moved_mem_segment
  have hw := (List.of_mem_zip hiw).2
  rcases Flow.isInfix_flatMap (fun v _ => Woven.code_ne_nil v) hbelow with
    ⟨v, hv, hin⟩ | ⟨u, v, huv, hlast, hfirst⟩
  · -- the moved instruction is the last one of its block
    obtain rfl := hconfined.eq_of_mem_code hw hv hmoved (hin.subset List.mem_cons_self)
    have hnodup := (List.nodup_flatMap.1 hconfined.nodup).1 w hw
    rw [Woven.code_eq_concat] at hin hnodup
    exact absurd hin (Flow.not_isInfix_concat hnodup)
  · have hu : u ∈ woven := huv.subset List.mem_cons_self
    obtain rfl := hconfined.eq_of_mem_code hw hu hmoved (List.mem_of_getLast? hlast)
    obtain ⟨i', j, hij, hi'w, hjv⟩ := h.exists_isInfix_old huv
    obtain rfl := h.aligned.eq_of_mem_zip hiw hi'w
    refine ⟨j, v, hjv, hij, ?_⟩
    -- only the first block has entry code
    rw [Woven.code_eq, hconfined.entry v (Flow.mem_tail_of_isInfix huv), List.nil_append] at hfirst
    exact hfirst

/-- What stands where an offset lands is the beginning of the segment of the instruction that stood
at the offset. -/
theorem exists_old_of_lands {k : Instruction} {a : Nat} (hk : k ∈ woven.flatMap Woven.code)
    (hlands : Woven.Lands old body.code.length woven body'.code.length a k.offset) :
    ∃ j v, (j, v) ∈ old.zip woven ∧ j.offset = a ∧ v.segment.head? = some k := by
  have hconfined := h.confined hstraight hentry
  rcases hlands with ⟨-, hend⟩ | ⟨j, v, hjv, ha, hlanding⟩
  · -- nothing stands at the end
    have hlt := hconfined.within k hk
    omega
  · obtain ⟨w, hw, hkw⟩ := List.mem_flatMap.1 hk
    obtain ⟨rfl, hhead⟩ := hconfined.head_segment_of_offset_eq_landing hw hkw
      (List.of_mem_zip hjv).2 hlanding.symm
    exact ⟨j, w, hjv, ha, hhead⟩

/-- A moved instruction leads to the segments of the instructions to which the old one led. -/
theorem exists_edge_old {i k : Instruction} {w : Woven} (hiw : (i, w) ∈ old.zip woven)
    (hedge : Edge (woven.flatMap Woven.code) [] w.moved k) :
    ∃ j v, (j, v) ∈ old.zip woven ∧ Edge old [] i j ∧ v.segment.head? = some k := by
  have hreplaces := List.forall₂_zip h.replaces hiw
  have hi := (List.of_mem_zip hiw).1
  cases hedge with
  | next hfalls hbelow =>
    obtain ⟨j, v, hjv, hij, hhead⟩ := h.exists_old_of_below hstraight hentry hiw hbelow
    rw [Instruction.fallsThrough_congr hreplaces.opcode hreplaces.operand] at hfalls
    exact ⟨j, v, hjv, .next hfalls hij, hhead⟩
  | jump _ hk htarget =>
    obtain ⟨t, ht, a, b, rfl, hb, hlands⟩ := exists_mem_zip_of_mem_right hreplaces.targets htarget
    obtain rfl := Int.ofNat_inj.1 hb
    obtain ⟨j, v, hjv, rfl, hhead⟩ := h.exists_old_of_lands hstraight hentry hk hlands
    exact ⟨j, v, hjv, .jump hi (List.of_mem_zip hjv).1 (List.of_mem_zip ht).1, hhead⟩
  | @resume call _ hret hjsr hbelow =>
    -- what is inserted calls no subroutine, so the call is a moved instruction as well
    obtain ⟨u, hu, hcall⟩ := List.mem_flatMap.1 (hbelow.subset List.mem_cons_self)
    rcases Woven.mem_code_iff.1 hcall with hinserted | rfl
    · have hnone := ((h.confined hstraight hentry).straight u hu call hinserted).2.1
      rw [hnone] at hjsr
      exact absurd hjsr Bool.false_ne_true
    · obtain ⟨c, hcu, hreplaces'⟩ := exists_mem_zip_of_mem_right h.replaces hu
      obtain ⟨j, v, hjv, hcj, hhead⟩ := h.exists_old_of_below hstraight hentry hcu hbelow
      rw [Instruction.isRet_congr hreplaces.opcode hreplaces.operand] at hret
      rw [Instruction.isJsr, hreplaces'.opcode] at hjsr
      exact ⟨j, v, hjv, .resume hi hret hjsr hcj, hhead⟩
  | handle _ _ hh _ _ _ => exact absurd hh List.not_mem_nil

/-- What handles an exception in the segment of an instruction is the segment of what handled an
exception in the instruction. Elsewhere no exception is handled. -/
theorem exists_covered_old {i j k : Instruction} {w : Woven} (hiw : (i, w) ∈ old.zip woven)
    (hj : j ∈ w.code) (hk : k ∈ woven.flatMap Woven.code) {handler : Handler}
    (hhandler : handler ∈ body'.handlers) (hstart : handler.start.toNat ≤ j.offset)
    (hstop : j.offset < handler.stop.toNat) (htarget : k.offset = handler.target.toNat) :
    ∃ handler₀ ∈ body.handlers, handler₀.start.toNat ≤ i.offset ∧
      i.offset < handler₀.stop.toNat ∧ ∃ i' v, (i', v) ∈ old.zip woven ∧
        i'.offset = handler₀.target.toNat ∧ v.segment.head? = some k := by
  have hconfined := h.confined hstraight hentry
  obtain ⟨handler₀, hzip, hfollows⟩ := exists_mem_zip_of_mem_right h.handlers hhandler
  have hsegment : j ∈ w.segment := by
    rw [Woven.code_eq] at hj
    refine (List.mem_append.1 hj).resolve_left fun hmem => ?_
    have hlt := hconfined.lt_start_of_mem_entry (List.of_mem_zip hiw).2 hmem hhandler
    omega
  have hle := h.aligned.landing_le_iff hfollows.start hiw hsegment
  have hlt := h.aligned.landing_le_iff hfollows.stop hiw hsegment
  have hlands := hfollows.target
  rw [← htarget] at hlands
  exact ⟨handler₀, (List.of_mem_zip hzip).1, hle.1 hstart, by omega,
    h.exists_old_of_lands hstraight hentry hk hlands⟩

end Confined

end CodeBody.Weaving

end PatternGuard
