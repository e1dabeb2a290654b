import PatternGuard.Proofs.Code.Flow
import PatternGuard.Proofs.Guard.Insert
import PatternGuard.Proofs.Guard.Order

/-!
# Control flow of woven code

Woven code is confined if the inserted code goes straight on, entry code stands at the beginning
only, and jumps and handlers point at landings. Then every edge goes to the instruction below or to
a landing (`Confined.edge_cases`). A moved instruction is therefore reached only through all of its
guard code (`Confined.isSuffix_of_isPath`), and the entry code is executed first and once
(`Confined.prefix_or_append_of_isPath`).
-/

set_option autoImplicit false

namespace PatternGuard.Woven

open Code PatternGuard.Flow

/-- Control moves through the woven code as it moved through the old code, apart from what was
inserted. -/
structure Confined (woven : List Woven) (handlers : List Handler) (length : Nat) : Prop where
  ascending : (woven.flatMap code).Pairwise fun i j => i.offset < j.offset
  within : ∀ i ∈ woven.flatMap code, i.offset < length
  straight : ∀ w ∈ woven, ∀ i, i ∈ w.entry ∨ i ∈ w.guards →
    i.targets = [] ∧ i.isJsr = false ∧ i.isRet = false
  entry : ∀ w ∈ woven.tail, w.entry = []
  jumps : ∀ w ∈ woven, ∀ t ∈ w.moved.targets, t = length ∨ ∃ v ∈ woven, t = v.landing
  starts : ∀ h ∈ handlers, h.start.toNat = length ∨ ∃ v ∈ woven, h.start.toNat = v.landing
  handles : ∀ h ∈ handlers, h.target.toNat = length ∨ ∃ v ∈ woven, h.target.toNat = v.landing

theorem code_ne_nil (w : Woven) : w.code ≠ [] := by
  rw [code_eq, segment]
  simp

/-- The moved instruction stands below all the code that is inserted in front of it. -/
theorem code_eq_concat (w : Woven) : w.code = w.entry ++ w.guards ++ [w.moved] :=
  (List.append_assoc _ _ _).symm

/-- A block stands in one piece. -/
theorem code_isInfix {woven : List Woven} {w : Woven} (hw : w ∈ woven) :
    w.code <:+: woven.flatMap code := by
  rw [List.flatMap_def]
  exact List.infix_of_mem_flatten (List.mem_map_of_mem hw)

theorem mem_code_iff {w : Woven} {i : Instruction} :
    i ∈ w.code ↔ (i ∈ w.entry ∨ i ∈ w.guards) ∨ i = w.moved := by
  rw [code, List.mem_append, List.mem_append, List.mem_singleton, or_assoc]

namespace Confined

variable {woven : List Woven} {handlers : List Handler} {length : Nat}

theorem nodup (h : Confined woven handlers length) : (woven.flatMap code).Nodup :=
  h.ascending.imp fun hlt heq => absurd (heq ▸ hlt) (Nat.lt_irrefl _)

/-- Instructions of the woven code are told apart by their offsets. -/
theorem eq_of_offset_eq (h : Confined woven handlers length) {i j : Instruction}
    (hi : i ∈ woven.flatMap code) (hj : j ∈ woven.flatMap code) (hoffset : i.offset = j.offset) :
    i = j :=
  Code.eq_of_offset_eq h.ascending hi hj hoffset

/-- An instruction belongs to one block only. -/
theorem eq_of_mem_code (h : Confined woven handlers length) {w v : Woven} {i : Instruction}
    (hw : w ∈ woven) (hv : v ∈ woven) (hiw : i ∈ w.code) (hiv : i ∈ v.code) : w = v := by
  by_contra hne
  have hsymm : Std.Symm (Function.onFun List.Disjoint code) := ⟨fun _ _ hab _ hx hy => hab hy hx⟩
  exact (List.nodup_flatMap.1 h.nodup).2.forall hw hv hne hiw hiv

/-- What stands at the landing of a block is the first instruction of its segment. -/
theorem head_segment_of_offset_eq_landing (h : Confined woven handlers length) {w v : Woven}
    {i : Instruction} (hw : w ∈ woven) (hi : i ∈ w.code) (hv : v ∈ woven)
    (hoffset : i.offset = v.landing) : w = v ∧ w.segment.head? = some i := by
  obtain ⟨j, hj, hlanding⟩ := exists_head_segment v
  have hjv : j ∈ v.code := by
    rw [code_eq]
    exact List.mem_append_right _ (List.mem_of_head? hj)
  obtain rfl := h.eq_of_offset_eq (List.mem_flatMap.2 ⟨w, hw, hi⟩)
    (List.mem_flatMap.2 ⟨v, hv, hjv⟩) (hoffset.trans hlanding.symm)
  obtain rfl := h.eq_of_mem_code hw hv hi hjv
  exact ⟨rfl, hj⟩

/-- Every edge goes to the instruction below or to the landing of a block. -/
theorem edge_cases (h : Confined woven handlers length) {i j : Instruction}
    (hedge : Edge (woven.flatMap code) handlers i j) :
    [i, j] <:+: woven.flatMap code ∨ ∃ v ∈ woven, j.offset = v.landing := by
  -- an offset inside the code that is the end or a landing is a landing
  have hwithin : ∀ {n : Nat}, j ∈ woven.flatMap code → j.offset = n →
      (n = length ∨ ∃ v ∈ woven, n = v.landing) → ∃ v ∈ woven, j.offset = v.landing := by
    intro n hj hn hcases
    have hlt := h.within j hj
    rcases hcases with hend | ⟨v, hv, hlanding⟩
    · omega
    · exact ⟨v, hv, hn.trans hlanding⟩
  cases hedge with
  | next _ hbelow => exact Or.inl hbelow
  | jump hi hj htarget =>
    obtain ⟨w, hw, hiw⟩ := List.mem_flatMap.1 hi
    rcases mem_code_iff.1 hiw with hinserted | rfl
    · rw [(h.straight w hw i hinserted).1] at htarget
      exact absurd htarget List.not_mem_nil
    · refine Or.inr (hwithin hj rfl ?_)
      rcases h.jumps w hw _ htarget with hend | ⟨v, hv, hlanding⟩
      · exact Or.inl (Int.ofNat_inj.1 hend)
      · exact Or.inr ⟨v, hv, Int.ofNat_inj.1 hlanding⟩
  | @resume call _ _ hjsr hbelow =>
    rcases isInfix_flatMap (fun w _ => code_ne_nil w) hbelow with ⟨w, hw, hin⟩ | ⟨w, v, hwv, -, hj⟩
    · -- inside a block only inserted instructions have an instruction below them
      have hcall : call ∈ w.code := hin.subset List.mem_cons_self
      rcases mem_code_iff.1 hcall with hinserted | rfl
      · rw [(h.straight w hw call hinserted).2.1] at hjsr
        exact absurd hjsr Bool.false_ne_true
      · have hnodup := (List.nodup_flatMap.1 h.nodup).1 w hw
        have hcode : w.code = w.entry ++ w.guards ++ [w.moved] := (List.append_assoc _ _ _).symm
        rw [hcode] at hin hnodup
        exact absurd hin (not_isInfix_concat hnodup)
    · -- the block after a call has no entry code
      have hv : v ∈ woven.tail := mem_tail_of_isInfix hwv
      refine Or.inr ⟨v, List.mem_of_mem_tail hv, ?_⟩
      obtain ⟨k, hk, hlanding⟩ := exists_head_segment v
      rw [code_eq, h.entry v hv, List.nil_append, hk] at hj
      rw [← Option.some.inj hj, hlanding]
  | handle _ hj hh _ _ htarget => exact Or.inr (hwithin hj htarget (h.handles _ hh))

/-- A moved instruction is reached only through all of its guard code. -/
theorem isSuffix_of_isPath (h : Confined woven handlers length) {w : Woven} (hw : w ∈ woven)
    {front : List Instruction} (hpath : IsPath (woven.flatMap code) handlers (front ++ [w.moved])) :
    w.guards <:+ front := by
  obtain ⟨first, hfirst, hhead⟩ := hpath.start
  have hnodup : w.segment.Nodup :=
    (List.nodup_append.1 ((List.nodup_flatMap.1 h.nodup).1 w hw)).2.1
  have hsub : w.segment <:+: woven.flatMap code := by
    obtain ⟨before, after, rfl⟩ := List.append_of_mem hw
    refine ⟨before.flatMap code ++ w.entry, after.flatMap code, ?_⟩
    rw [List.flatMap_append, List.flatMap_cons, code_eq]
    simp
  -- inside the segment every edge comes from the instruction above
  have hsegment : ∀ y x, [y, x] <:+: w.segment → ∀ z,
      Edge (woven.flatMap code) handlers z x → z = y := by
    intro y x hyx z hedge
    have hx := mem_tail_of_isInfix hyx
    rcases h.edge_cases hedge with hbelow | ⟨v, hv, hlanding⟩
    · exact eq_of_isInfix_left h.nodup hbelow (hyx.trans hsub)
    · have hmem : x ∈ w.code := by
        rw [code_eq]
        exact List.mem_append_right _ (List.mem_of_mem_tail hx)
      obtain ⟨-, hheadx⟩ := h.head_segment_of_offset_eq_landing hw hmem hv hlanding
      exact absurd hx (not_mem_tail_of_head? hnodup hheadx)
  have hstart : first ∉ w.segment.tail := fun hmem =>
    not_mem_tail_of_head? h.nodup hfirst (tail_subset_of_isInfix hsub hmem)
  exact isSuffix_of_isChain hsegment hstart rfl hpath.chain hhead

end Confined

/-! ## Entry code -/

/-- No handler covers entry code. -/
theorem Confined.lt_start_of_mem_entry {woven : List Woven} {handlers : List Handler} {length : Nat}
    (h : Confined woven handlers length) {w : Woven} (hw : w ∈ woven) {i : Instruction}
    (hi : i ∈ w.entry) {handler : Handler} (hh : handler ∈ handlers) :
    i.offset < handler.start.toNat := by
  cases woven with
  | nil => exact absurd hw List.not_mem_nil
  | cons first rest =>
    rcases List.mem_cons.1 hw with rfl | hrest
    · rcases h.starts handler hh with hend | ⟨v, hv, hlanding⟩
      · rw [hend]
        exact h.within i (List.mem_flatMap.2 ⟨w, hw, mem_code_iff.2 (Or.inl (Or.inl hi))⟩)
      · rw [hlanding]
        exact offset_lt_landing h.ascending hi hv
    · rw [h.entry w hrest] at hi
      exact absurd hi List.not_mem_nil

namespace Confined

variable {first : Woven} {rest : List Woven} {handlers : List Handler} {length : Nat}

theorem moved_not_mem_entry (h : Confined (first :: rest) handlers length) {v : Woven}
    (hv : v ∈ first :: rest) : v.moved ∉ first.entry := by
  intro hmem
  have hlt := offset_lt_of_mem_segment h.ascending hmem hv v.moved_mem_segment
  exact Nat.lt_irrefl _ hlt

/-- Entry code is entered only from the entry code above. -/
theorem isInfix_of_edge_entry (h : Confined (first :: rest) handlers length) {i j : Instruction}
    (hedge : Edge ((first :: rest).flatMap code) handlers i j) (hj : j ∈ first.entry) :
    [i, j] <:+: first.entry := by
  have hnodup := h.nodup
  rw [List.flatMap_cons, code_eq, List.append_assoc, List.nodup_append] at hnodup
  rcases h.edge_cases hedge with hbelow | ⟨v, hv, hlanding⟩
  · rw [List.flatMap_cons, code_eq, List.append_assoc] at hbelow
    rcases isInfix_append hbelow with hin | hin | ⟨-, hseam⟩
    · exact hin
    · exact absurd rfl (hnodup.2.2 j hj j (List.mem_of_mem_tail (mem_tail_of_isInfix hin)))
    · exact absurd rfl (hnodup.2.2 j hj j (List.mem_of_head? hseam))
  · have hlt := offset_lt_landing h.ascending hj hv
    omega

/-- Entry code is left only to the instruction below. -/
theorem isInfix_of_edge_of_mem_entry (h : Confined (first :: rest) handlers length)
    {i j : Instruction} (hi : i ∈ first.entry)
    (hedge : Edge ((first :: rest).flatMap code) handlers i j) :
    [i, j] <:+: (first :: rest).flatMap code := by
  obtain ⟨htargets, -, hret⟩ := h.straight first List.mem_cons_self i (Or.inl hi)
  cases hedge with
  | next _ hbelow => exact hbelow
  | jump _ _ htarget =>
    rw [htargets] at htarget
    exact absurd htarget List.not_mem_nil
  | resume _ hisRet _ _ =>
    rw [hret] at hisRet
    exact absurd hisRet Bool.false_ne_true
  | handle _ _ hh hstart _ _ =>
    have hlt := h.lt_start_of_mem_entry List.mem_cons_self hi hh
    omega

/-- The entry code is executed first, in order, and only once. -/
theorem prefix_or_append_of_isPath (h : Confined (first :: rest) handlers length)
    {path : List Instruction} (hpath : IsPath ((first :: rest).flatMap code) handlers path) :
    path <+: first.entry ∨ ∃ later, path = first.entry ++ later ∧ ∀ i ∈ later, i ∉ first.entry := by
  have hcode : (first :: rest).flatMap code =
      first.entry ++ (first.segment ++ rest.flatMap code) := by
    rw [List.flatMap_cons, code_eq, List.append_assoc]
  obtain ⟨start, hstart, hhead⟩ := hpath.start
  have hnodup := h.nodup
  have hout := fun i hi j => h.isInfix_of_edge_of_mem_entry (i := i) (j := j) hi
  rw [hcode] at hnodup hstart hout
  refine prefix_or_append_of_isChain hnodup hout ?_ (hcode ▸ hpath.chain) (by rw [hhead, hstart])
  intro i j hedge hj
  rw [← hcode] at hedge
  exact h.isInfix_of_edge_entry hedge hj

end Confined

/-! ## Inserted code -/

/-- Where an offset lands is the end or the landing of a block. -/
theorem Lands.landing {old : List Instruction} {oldLength newLength a b : Nat} {woven : List Woven}
    (h : Lands old oldLength woven newLength a b) :
    b = newLength ∨ ∃ v ∈ woven, b = v.landing := by
  rcases h with ⟨-, hb⟩ | ⟨i, v, hiv, -, hb⟩
  · exact Or.inl hb
  · exact Or.inr ⟨v, (List.of_mem_zip hiv).2, hb.symm⟩

end PatternGuard.Woven

namespace PatternGuard

open Code

theorem Instruction.targets_eq_nil {i : Instruction} (hwell : i.WellFormed)
    (hstraight : i.isStraight = true) : i.targets = [] := by
  have hbranch : i.opcode.isBranch = false := by
    simp only [isStraight, Bool.and_eq_true, Bool.not_eq_true'] at hstraight
    exact hstraight.1.1
  rw [WellFormed] at hwell
  rw [Opcode.isBranch] at hbranch
  rw [targets, displacements]
  cases hoperand : i.operand with
  | none => rfl
  | bytes given => rfl
  | branch d =>
    rw [hoperand] at hwell
    rcases hwell with hform | hform
    · exact absurd hbranch (by simp [hform])
    · exact absurd hbranch (by simp [hform])
  | tableSwitch default low high rows =>
    rw [hoperand] at hwell
    exact absurd hbranch (by simp [hwell.1])
  | lookupSwitch default pairs =>
    rw [hoperand, OperandForm.Suits] at hwell
    exact absurd hbranch (by simp [hwell])

theorem Instruction.isJsr_eq_false {i : Instruction} (hstraight : i.isStraight = true) :
    i.isJsr = false := by
  cases hjsr : i.isJsr with
  | false => rfl
  | true =>
    simp only [isJsr, Bool.or_eq_true, decide_eq_true_eq] at hjsr
    have hbranch : i.opcode.isBranch = true := by
      rcases hjsr with h | h
      · rw [h]; rfl
      · rw [h]; rfl
    simp [isStraight, hbranch] at hstraight

theorem Instruction.isRet_eq_false {i : Instruction} (hstraight : i.isStraight = true) :
    i.isRet = false := by
  simp only [isStraight, Bool.and_eq_true, Bool.not_eq_true'] at hstraight
  exact hstraight.2

namespace CodeBody.Weaving

variable {body body' : CodeBody} {insertions : List Insertion} {old : List Instruction}
  {woven : List Woven}

/-- If the insertions go straight on, so does the inserted code. -/
theorem straight_of_mem (h : body.Weaving insertions body' old woven)
    (hstraight : ∀ n ∈ insertions, ∀ i ∈ n.code, i.WellFormed ∧ i.isStraight = true) {w : Woven}
    (hw : w ∈ woven) {i : Instruction} (hi : i ∈ w.entry ∨ i ∈ w.guards) :
    i.WellFormed ∧ i.isStraight = true := by
  have hcodeAt : ∀ catchesJumps offset, ∀ j ∈ Insertion.codeAt insertions catchesJumps offset,
      j.WellFormed ∧ j.isStraight = true := by
    intro catchesJumps offset j hj
    obtain ⟨n, hn, -, -, hmem⟩ := Insertion.mem_codeAt hj
    exact hstraight n hn j hmem
  obtain ⟨o, -, hreplaces⟩ := Outcome.exists_mem_zip_of_mem_right h.replaces hw
  rcases hi with hi | hi
  · exact Instruction.straight_of_map_bare_eq hreplaces.entry (hcodeAt _ _) i hi
  · exact Instruction.straight_of_map_bare_eq hreplaces.guards (hcodeAt _ _) i hi

/-- Code that goes straight on confines the woven code, if code without guards is inserted at the
beginning only. -/
theorem confined (h : body.Weaving insertions body' old woven)
    (hstraight : ∀ n ∈ insertions, ∀ i ∈ n.code, i.WellFormed ∧ i.isStraight = true)
    (hentry : ∀ n ∈ insertions, n.catchesJumps = false → n.offset = 0) :
    Woven.Confined woven body'.handlers body'.code.length := by
  have hfills := h.fills
  refine ⟨hfills.ascending, ?_, ?_, ?_, ?_, ?_, ?_⟩
  · intro i hi
    exact hfills.offset_lt hi
  · -- what goes straight on has no targets and neither calls nor ends a subroutine
    intro w hw i hi
    obtain ⟨hwell, hi⟩ := h.straight_of_mem hstraight hw hi
    exact ⟨Instruction.targets_eq_nil hwell hi, Instruction.isJsr_eq_false hi,
      Instruction.isRet_eq_false hi⟩
  · intro w hw
    exact Woven.entry_eq_nil_of_mem_tail h.filled h.replaces hentry hw
  · intro w hw t ht
    obtain ⟨o, -, hreplaces⟩ := Outcome.exists_mem_zip_of_forall₂ h.replaces.flip hw
    obtain ⟨_, -, old, new, -, rfl, hlands⟩ :=
      Outcome.exists_mem_zip_of_forall₂ hreplaces.targets.flip ht
    rcases hlands.landing with rfl | ⟨v, hv, rfl⟩
    · exact Or.inl rfl
    · exact Or.inr ⟨v, hv, rfl⟩
  · intro handler hhandler
    obtain ⟨_, -, hfollows⟩ := Outcome.exists_mem_zip_of_forall₂ h.handlers.flip hhandler
    exact hfollows.start.landing
  · intro handler hhandler
    obtain ⟨_, -, hfollows⟩ := Outcome.exists_mem_zip_of_forall₂ h.handlers.flip hhandler
    exact hfollows.target.landing

end CodeBody.Weaving

end PatternGuard
