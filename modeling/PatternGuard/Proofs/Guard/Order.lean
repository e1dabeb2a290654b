import Mathlib.Data.List.Pairwise
import PatternGuard.Proofs.Guard.Layout

/-!
# Woven code stays in order

Old instructions and the code that they have become stand in the same order. So an offset lands in
front of what was inserted for an instruction, or of the instruction itself, exactly if it stood in
front of the instruction before (`Aligned.landing_le_iff`): this is what keeps ranges and the order
of landings.
-/

set_option autoImplicit false

namespace PatternGuard.Woven

/-- Each old instruction has become some code, and both stand in place. -/
structure Aligned (old : List Instruction) (oldLength : Nat) (woven : List Woven)
    (newLength : Nat) : Prop where
  before : Code.Fills old oldLength
  after : Code.Fills (woven.flatMap code) newLength
  length_eq : old.length = woven.length

/-- The block `x` stands before the block `y`, in the old code and in the new code. -/
def Precedes (x y : Instruction × Woven) : Prop :=
  x.1.offset < y.1.offset ∧ ∀ a ∈ x.2.code, ∀ b ∈ y.2.code, a.offset < b.offset

theorem mem_code_of_mem_segment {w : Woven} {j : Instruction} (hj : j ∈ w.segment) :
    j ∈ w.code := by
  rw [code_eq]
  exact List.mem_append_right _ hj

theorem moved_mem_segment (w : Woven) : w.moved ∈ w.segment :=
  List.mem_append_right _ List.mem_cons_self

theorem exists_landing (w : Woven) : ∃ j ∈ w.segment, j.offset = w.landing := by
  obtain ⟨j, hj, hlanding⟩ := exists_head_segment w
  exact ⟨j, List.mem_of_head? hj, hlanding⟩

namespace Aligned

variable {old : List Instruction} {oldLength newLength : Nat} {woven : List Woven}

theorem pairwise_precedes (h : Aligned old oldLength woven newLength) :
    (old.zip woven).Pairwise Precedes := by
  have hbefore := h.before.ascending
  have hafter := (List.pairwise_flatMap.1 h.after.ascending).2
  rw [← List.map_fst_zip (Nat.le_of_eq h.length_eq), List.pairwise_map] at hbefore
  rw [← List.map_snd_zip (Nat.le_of_eq h.length_eq.symm), List.pairwise_map] at hafter
  exact hbefore.and hafter

/-- Two blocks are the same, or one of them stands before the other. -/
theorem precedes_or (h : Aligned old oldLength woven newLength) {x y : Instruction × Woven}
    (hx : x ∈ old.zip woven) (hy : y ∈ old.zip woven) : x = y ∨ Precedes x y ∨ Precedes y x := by
  -- blocks are ordered one way round, so a symmetric statement holds of any two of them
  have hsymm : Std.Symm fun x y : Instruction × Woven => x = y ∨ Precedes x y ∨ Precedes y x := by
    refine ⟨fun a b hab => ?_⟩
    rcases hab with rfl | hab | hba
    · exact Or.inl rfl
    · exact Or.inr (Or.inr hab)
    · exact Or.inr (Or.inl hba)
  have hpairwise : (old.zip woven).Pairwise fun x y => x = y ∨ Precedes x y ∨ Precedes y x :=
    h.pairwise_precedes.imp fun hab => Or.inr (Or.inl hab)
  by_cases hxy : x = y
  · exact Or.inl hxy
  · exact hpairwise.forall hx hy hxy

/-- Guard code and the moved instruction stand at the landing or behind it. -/
theorem landing_le_offset (h : Aligned old oldLength woven newLength) {w : Woven}
    (hw : w ∈ woven) {j : Instruction} (hj : j ∈ w.segment) : w.landing ≤ j.offset := by
  have hascending := (List.pairwise_flatMap.1 h.after.ascending).1 w hw
  rw [code_eq, List.pairwise_append] at hascending
  obtain ⟨k, hk, hlanding⟩ := exists_head_segment w
  obtain ⟨rest, hrest⟩ := List.head?_eq_some_iff.1 hk
  have hsegment := hascending.2.1
  rw [hrest, List.pairwise_cons] at hsegment
  rw [hrest, List.mem_cons] at hj
  rcases hj with rfl | hj
  · exact Nat.le_of_eq hlanding.symm
  · rw [← hlanding]
    exact Nat.le_of_lt (hsegment.1 j hj)

/-- An offset lands at or before the code that an instruction has become, apart from entry code,
exactly if it was the offset of the instruction or of one before it. -/
theorem landing_le_iff (h : Aligned old oldLength woven newLength) {a b : Nat}
    (hab : Lands old oldLength woven newLength a b) {i : Instruction} {w : Woven}
    (hiw : (i, w) ∈ old.zip woven) {j : Instruction} (hj : j ∈ w.segment) :
    b ≤ j.offset ↔ a ≤ i.offset := by
  obtain ⟨hi, hw⟩ := List.of_mem_zip hiw
  rcases hab with ⟨rfl, rfl⟩ | ⟨k, v, hkv, rfl, rfl⟩
  · -- nothing stands at the end
    have hlt := h.before.offset_lt hi
    have hlt' := h.after.offset_lt
      (List.mem_flatMap.2 ⟨w, hw, mem_code_of_mem_segment hj⟩)
    omega
  · obtain ⟨head, hhead, hlanding⟩ := exists_landing v
    rcases h.precedes_or hiw hkv with heq | ⟨hlt, hcode⟩ | ⟨hlt, hcode⟩
    · obtain ⟨rfl, rfl⟩ := Prod.mk.inj heq
      exact iff_of_true (h.landing_le_offset hw hj) (Nat.le_refl _)
    · have hlt' := hcode j (mem_code_of_mem_segment hj) head (mem_code_of_mem_segment hhead)
      simp only at hlt
      omega
    · have hlt' := hcode head (mem_code_of_mem_segment hhead) j (mem_code_of_mem_segment hj)
      simp only at hlt
      omega

/-- Landings are in the order of the offsets. -/
theorem lands_le_iff (h : Aligned old oldLength woven newLength) {a b a' b' : Nat}
    (ha : Lands old oldLength woven newLength a a')
    (hb : Lands old oldLength woven newLength b b') : a' ≤ b' ↔ a ≤ b := by
  rcases hb with ⟨rfl, rfl⟩ | ⟨i, w, hiw, rfl, rfl⟩
  · -- everything lands within the code or at its end
    rcases ha with ⟨rfl, rfl⟩ | ⟨k, v, hkv, rfl, rfl⟩
    · exact iff_of_true (Nat.le_refl _) (Nat.le_refl _)
    · obtain ⟨hk, hv⟩ := List.of_mem_zip hkv
      obtain ⟨head, hhead, hlanding⟩ := exists_landing v
      have hlt := h.before.offset_lt hk
      have hlt' := h.after.offset_lt
        (List.mem_flatMap.2 ⟨v, hv, mem_code_of_mem_segment hhead⟩)
      omega
  · obtain ⟨head, hhead, hlanding⟩ := exists_landing w
    rw [← hlanding]
    exact h.landing_le_iff ha hiw hhead

theorem lands_le (h : Aligned old oldLength woven newLength) {a b : Nat}
    (hab : Lands old oldLength woven newLength a b) : b ≤ newLength := by
  rcases hab with ⟨-, rfl⟩ | ⟨i, w, hiw, -, rfl⟩
  · exact Nat.le_refl _
  · obtain ⟨head, hhead, hlanding⟩ := exists_landing w
    rw [← hlanding]
    exact Nat.le_of_lt (h.after.offset_lt
      (List.mem_flatMap.2 ⟨w, (List.of_mem_zip hiw).2, mem_code_of_mem_segment hhead⟩))

theorem moves_le (h : Aligned old oldLength woven newLength) {a b : Nat}
    (hab : Moves old oldLength woven newLength a b) : b ≤ newLength := by
  rcases hab with ⟨-, rfl⟩ | ⟨i, w, hiw, -, rfl⟩
  · exact Nat.le_refl _
  · exact Nat.le_of_lt (h.after.offset_lt
      (List.mem_flatMap.2
        ⟨w, (List.of_mem_zip hiw).2, mem_code_of_mem_segment w.moved_mem_segment⟩))

end Aligned

/-! ## Entry code -/

section Entry

variable {first : Woven} {rest : List Woven} {i : Instruction}

/-- Everything that jumps may run through stands behind the entry code. -/
theorem offset_lt_of_mem_segment
    (hascending : ((first :: rest).flatMap code).Pairwise fun i j => i.offset < j.offset)
    (hi : i ∈ first.entry) {v : Woven} (hv : v ∈ first :: rest) {j : Instruction}
    (hj : j ∈ v.segment) : i.offset < j.offset := by
  have hmem : j ∈ first.segment ++ rest.flatMap code := by
    rcases List.mem_cons.1 hv with rfl | hv
    · exact List.mem_append_left _ hj
    · refine List.mem_append_right _ (List.mem_flatMap.2 ⟨v, hv, ?_⟩)
      exact mem_code_of_mem_segment hj
  rw [List.flatMap_cons, code_eq, List.append_assoc, List.pairwise_append] at hascending
  exact hascending.2.2 i hi j hmem

theorem offset_lt_landing
    (hascending : ((first :: rest).flatMap code).Pairwise fun i j => i.offset < j.offset)
    (hi : i ∈ first.entry) {v : Woven} (hv : v ∈ first :: rest) : i.offset < v.landing := by
  obtain ⟨j, hj, hlanding⟩ := exists_landing v
  rw [← hlanding]
  exact offset_lt_of_mem_segment hascending hi hv hj

end Entry

/-- Behind the first block there is no entry code, if entry code is inserted at the beginning only.
-/
theorem entry_eq_nil_of_mem_tail {old : List Instruction} {oldLength : Nat} {woven : List Woven}
    {insertions : List Insertion} {lands : Nat → Nat → Prop} (hfills : Code.Fills old oldLength)
    (hreplaces : List.Forall₂ (Replaces insertions lands) old woven)
    (hentry : ∀ n ∈ insertions, n.catchesJumps = false → n.offset = 0) {w : Woven}
    (hw : w ∈ woven.tail) : w.entry = [] := by
  cases hreplaces with
  | nil => exact absurd hw List.not_mem_nil
  | cons _ hrest =>
    obtain ⟨j, hj, hreplaces⟩ := Outcome.exists_mem_zip_of_forall₂ hrest.flip hw
    -- only the first instruction stands at offset 0
    have hoffset : 0 < j.offset := by
      have hlt := (List.pairwise_cons.1 hfills.ascending).1 j (List.of_mem_zip hj).2
      omega
    have hnone : Insertion.codeAt insertions false j.offset = [] := by
      rw [List.eq_nil_iff_forall_not_mem]
      intro k hk
      obtain ⟨n, hn, hat, hcatches, -⟩ := Insertion.mem_codeAt hk
      have hzero := hentry n hn hcatches
      omega
    apply List.map_eq_nil_iff.1
    rw [hreplaces.entry, hnone, List.map_nil]

end PatternGuard.Woven
