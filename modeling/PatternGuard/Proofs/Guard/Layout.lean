import Mathlib.Data.List.Forall2
import PatternGuard.Proofs.Code.Stream

/-!
# What a layout says

`Woven` is the code that one instruction of a body has become, and `Lands` says where an offset of
the old code points afterwards: at the guard code in front of the instruction that stood there, or
at the end. The layout of a body computes just that: the blocks stand one after the other, and an
offset is relocated to where it lands (`target?_ofPlaced`).
-/

set_option autoImplicit false

namespace PatternGuard

/-! ## Insertions at an offset -/

namespace Insertion

/-- The code that is inserted at an offset, as guard code or as entry code, in the order of the
insertions. -/
def codeAt (insertions : List Insertion) (catchesJumps : Bool) (offset : Nat) :
    List Instruction :=
  codeOf catchesJumps (insertions.filter fun i => i.offset = offset)

theorem mem_codeAt {insertions : List Insertion} {catchesJumps : Bool} {offset : Nat}
    {j : Instruction} (h : j ∈ codeAt insertions catchesJumps offset) :
    ∃ n ∈ insertions, n.offset = offset ∧ n.catchesJumps = catchesJumps ∧ j ∈ n.code := by
  simp only [codeAt, codeOf, List.mem_flatMap, List.mem_filter, decide_eq_true_eq] at h
  obtain ⟨n, ⟨⟨hn, hoffset⟩, hcatches⟩, hj⟩ := h
  exact ⟨n, hn, hoffset, hcatches, hj⟩

theorem getD_byOffset (insertions : List Insertion) (offset : Nat) :
    (byOffset insertions).getD offset [] = insertions.filter fun i => i.offset = offset := by
  induction insertions with
  | nil => simp [byOffset, Std.TreeMap.getD_emptyc]
  | cons i rest ih =>
    have hstep : byOffset (i :: rest) =
        (byOffset rest).insert i.offset (i :: (byOffset rest).getD i.offset []) := rfl
    rw [hstep, Std.TreeMap.getD_insert, List.filter_cons]
    by_cases h : i.offset = offset
    · subst h
      simp [ih]
    · simp [h, ih]

end Insertion

theorem Block.ofInsertions_eq (insertions : List Insertion) (instructions : List Instruction) :
    Block.ofInsertions insertions instructions = instructions.map fun instruction =>
      { entry := Insertion.codeAt insertions false instruction.offset
        guards := Insertion.codeAt insertions true instruction.offset, instruction } := by
  simp only [Block.ofInsertions, Insertion.getD_byOffset, Insertion.codeAt]

/-! ## Blocks one after the other -/

namespace Block

theorem placeAfter_eq (done : List PlacedBlock) (offset : Nat) (bs : List Block) :
    placeAfter done offset bs =
      (done.reverse ++ (placeAfter [] offset bs).1, (placeAfter [] offset bs).2) := by
  induction bs generalizing done offset with
  | nil => simp [placeAfter]
  | cons b bs ih =>
    rw [placeAfter, placeAfter, ih, ih [_]]
    simp

theorem placeAfter_cons (offset : Nat) (b : Block) (bs : List Block) :
    placeAfter [] offset (b :: bs) =
      (b.placeAt offset :: (placeAfter [] (b.placeAt offset).stop bs).1,
        (placeAfter [] (b.placeAt offset).stop bs).2) := by
  rw [placeAfter, placeAfter_eq]
  rfl

theorem target_le_moved (b : Block) (start : Nat) :
    (b.placeAt start).target ≤ (b.placeAt start).moved := le_endOf _ _

theorem moved_lt_stop (b : Block) (start : Nat) :
    (b.placeAt start).moved < (b.placeAt start).stop := by
  rw [PlacedBlock.stop, Instruction.encodedLength]
  omega

theorem start_le_moved (b : Block) (start : Nat) : start ≤ (b.placeAt start).moved :=
  Nat.le_trans (le_endOf start b.entry) (target_le_moved b start)

theorem le_placeAfter (offset : Nat) (bs : List Block) : offset ≤ (placeAfter [] offset bs).2 := by
  induction bs generalizing offset with
  | nil => exact Nat.le_refl _
  | cons b bs ih =>
    rw [placeAfter_cons]
    have hstart := start_le_moved b offset
    have hmoved := moved_lt_stop b offset
    have hrest := ih (b.placeAt offset).stop
    show offset ≤ (placeAfter [] (b.placeAt offset).stop bs).2
    omega

/-- Every placed block stands within the code. -/
theorem moved_lt_placeAfter {offset : Nat} {bs : List Block} {p : PlacedBlock}
    (h : p ∈ (placeAfter [] offset bs).1) :
    p.target ≤ p.moved ∧ p.moved < (placeAfter [] offset bs).2 := by
  induction bs generalizing offset with
  | nil => exact absurd h List.not_mem_nil
  | cons b bs ih =>
    rw [placeAfter_cons] at h ⊢
    rcases List.mem_cons.1 h with rfl | h
    · exact ⟨target_le_moved b offset,
        Nat.lt_of_lt_of_le (moved_lt_stop b offset) (le_placeAfter _ bs)⟩
    · exact ih h

theorem map_toBlock_placeAfter (offset : Nat) (bs : List Block) :
    (placeAfter [] offset bs).1.map PlacedBlock.toBlock = bs := by
  induction bs generalizing offset with
  | nil => rfl
  | cons b bs ih =>
    rw [placeAfter_cons, List.map_cons, ih]
    rfl

/-- Placing the blocks of a body keeps its instructions in order. -/
theorem map_instruction_place_ofInsertions (insertions : List Insertion)
    (old : List Instruction) :
    (place (ofInsertions insertions old)).1.map (fun p => p.instruction) = old := by
  have h : (place (ofInsertions insertions old)).1.map (fun p => p.instruction) =
      ((place (ofInsertions insertions old)).1.map PlacedBlock.toBlock).map Block.instruction := by
    rw [List.map_map]
    rfl
  rw [h, place, map_toBlock_placeAfter, ofInsertions_eq, List.map_map]
  exact List.map_id' _

/-- Code shrinks to no less than a quarter of its length, whatever comes between its instructions. -/
theorem endOf_le_placeAfter (offset start : Nat) (bs : List Block) :
    endOf offset (bs.map Block.instruction) + 4 * start ≤ offset + 4 * (placeAfter [] start bs).2 := by
  induction bs generalizing offset start with
  | nil => exact Nat.le_refl _
  | cons b bs ih =>
    have hmoved := start_le_moved b start
    have hlonger := b.instruction.encodedLength_le_zero offset
    have hshorter := b.instruction.encodedLength_zero_le (b.placeAt start).moved
    have hrest := ih (offset + b.instruction.encodedLength offset) (b.placeAt start).stop
    have hstop : (b.placeAt start).stop = (b.placeAt start).moved +
      b.instruction.encodedLength (b.placeAt start).moved := rfl
    rw [List.map_cons, endOf_cons, placeAfter_cons]
    show _ ≤ offset + 4 * (placeAfter [] (b.placeAt start).stop bs).2
    omega

theorem endOf_le_place (insertions : List Insertion) (old : List Instruction) :
    endOf 0 old ≤ 4 * (place (ofInsertions insertions old)).2 := by
  have hinstructions : (ofInsertions insertions old).map Block.instruction = old := by
    rw [ofInsertions_eq, List.map_map]
    exact List.map_id' _
  have hle := endOf_le_placeAfter 0 0 (ofInsertions insertions old)
  rw [hinstructions] at hle
  rw [place]
  omega

/-- A placed block holds the code that is inserted at the offset of its instruction. -/
theorem of_mem_place_ofInsertions {insertions : List Insertion} {old : List Instruction}
    {p : PlacedBlock} (h : p ∈ (place (ofInsertions insertions old)).1) :
    p.entry = Insertion.codeAt insertions false p.instruction.offset ∧
      p.guards = Insertion.codeAt insertions true p.instruction.offset := by
  have hblock : p.toBlock ∈ ofInsertions insertions old := by
    rw [← map_toBlock_placeAfter 0 (ofInsertions insertions old)]
    exact List.mem_map_of_mem h
  rw [ofInsertions_eq, List.mem_map] at hblock
  obtain ⟨i, -, hi⟩ := hblock
  rw [← hi]
  exact ⟨rfl, rfl⟩

end Block

/-! ## Relocated offsets -/

namespace Relocation

theorem getElem?_foldl_insert {placed : List PlacedBlock}
    {offsets : Std.TreeMap Nat NewOffsets compare} {old : Nat} {new : NewOffsets}
    (h : (placed.foldl (fun offsets b => offsets.insert b.instruction.offset ⟨b.target, b.moved⟩)
      offsets)[old]? = some new) :
    offsets[old]? = some new ∨
      ∃ b ∈ placed, b.instruction.offset = old ∧ new = ⟨b.target, b.moved⟩ := by
  induction placed generalizing offsets with
  | nil => exact Or.inl h
  | cons b rest ih =>
    rcases ih h with h | ⟨c, hc, hold, hnew⟩
    · rw [Std.TreeMap.getElem?_insert] at h
      by_cases hb : b.instruction.offset = old
      · simp only [hb, Std.compare_self, ↓reduceIte, Option.some.injEq] at h
        exact Or.inr ⟨b, List.mem_cons_self, hb, h.symm⟩
      · simp only [Std.LawfulEqCmp.compare_eq_iff_eq, hb, ↓reduceIte] at h
        exact Or.inl h
    · exact Or.inr ⟨c, List.mem_cons_of_mem b hc, hold, hnew⟩

theorem getElem?_foldl_insert_of_ne {placed : List PlacedBlock}
    {offsets : Std.TreeMap Nat NewOffsets compare} {old : Nat}
    (h : ∀ b ∈ placed, b.instruction.offset ≠ old) :
    (placed.foldl (fun offsets b => offsets.insert b.instruction.offset ⟨b.target, b.moved⟩)
      offsets)[old]? = offsets[old]? := by
  induction placed generalizing offsets with
  | nil => rfl
  | cons b rest ih =>
    obtain ⟨hb, hrest⟩ := List.forall_mem_cons.1 h
    rw [List.foldl_cons, ih hrest, Std.TreeMap.getElem?_insert]
    simp [Std.LawfulEqCmp.compare_eq_iff_eq, hb]

theorem getElem?_foldl_insert_of_mem {placed : List PlacedBlock}
    {offsets : Std.TreeMap Nat NewOffsets compare} {b : PlacedBlock}
    (hdistinct : placed.Pairwise fun b c => b.instruction.offset ≠ c.instruction.offset)
    (hb : b ∈ placed) :
    (placed.foldl (fun offsets b => offsets.insert b.instruction.offset ⟨b.target, b.moved⟩)
      offsets)[b.instruction.offset]? = some ⟨b.target, b.moved⟩ := by
  induction placed generalizing offsets with
  | nil => exact absurd hb List.not_mem_nil
  | cons c rest ih =>
    obtain ⟨hc, hrest⟩ := List.pairwise_cons.1 hdistinct
    rcases List.mem_cons.1 hb with rfl | hb
    · -- no later block stands at the same offset
      rw [List.foldl_cons, getElem?_foldl_insert_of_ne fun d hd => (hc d hd).symm,
        Std.TreeMap.getElem?_insert_self]
    · exact ih hrest hb

/-- An offset is known if a block stood there or the code ended there. -/
theorem getElem?_ofPlaced {placed : List PlacedBlock} {oldLength newLength old : Nat}
    {new : NewOffsets} (h : (ofPlaced placed oldLength newLength).offsets[old]? = some new) :
    (old = oldLength ∧ new = ⟨newLength, newLength⟩) ∨
      ∃ b ∈ placed, b.instruction.offset = old ∧ new = ⟨b.target, b.moved⟩ := by
  rcases getElem?_foldl_insert h with h | h
  · left
    rw [Std.TreeMap.getElem?_insert] at h
    split at h
    · rename_i hcompare
      exact ⟨(Std.LawfulEqCmp.compare_eq_iff_eq.1 hcompare).symm, (Option.some.inj h).symm⟩
    · exact absurd h (by simp)
  · exact Or.inr h

/-- If the blocks stood at distinct offsets in front of the end, just these offsets and the end are
known. -/
theorem getElem?_ofPlaced_iff {placed : List PlacedBlock} {oldLength newLength old : Nat}
    {new : NewOffsets}
    (hdistinct : placed.Pairwise fun b c => b.instruction.offset ≠ c.instruction.offset)
    (hwithin : ∀ b ∈ placed, b.instruction.offset ≠ oldLength) :
    (ofPlaced placed oldLength newLength).offsets[old]? = some new ↔
      (old = oldLength ∧ new = ⟨newLength, newLength⟩) ∨
        ∃ b ∈ placed, b.instruction.offset = old ∧ new = ⟨b.target, b.moved⟩ := by
  constructor
  · exact getElem?_ofPlaced
  · rintro (⟨rfl, rfl⟩ | ⟨b, hb, rfl, rfl⟩)
    · rw [ofPlaced, getElem?_foldl_insert_of_ne hwithin, Std.TreeMap.getElem?_insert_self]
    · exact getElem?_foldl_insert_of_mem hdistinct hb

/-- What pointed at an offset points at the guard code of the block that stood there, or at the end.
-/
theorem target?_ofPlaced {placed : List PlacedBlock} {oldLength newLength old new : Nat}
    (h : (ofPlaced placed oldLength newLength).target? old = some new) :
    (old = oldLength ∧ new = newLength) ∨
      ∃ b ∈ placed, b.instruction.offset = old ∧ new = b.target := by
  rw [target?, Option.map_eq_some_iff] at h
  obtain ⟨offsets, hoffsets, rfl⟩ := h
  rcases getElem?_ofPlaced hoffsets with ⟨rfl, rfl⟩ | ⟨b, hb, hold, rfl⟩
  · exact Or.inl ⟨rfl, rfl⟩
  · exact Or.inr ⟨b, hb, hold, rfl⟩

end Relocation

/-! ## Woven code -/

/-- The code that one instruction of a body has become. -/
structure Woven where
  entry : List Instruction
  guards : List Instruction
  /-- The instruction in its new place. -/
  moved : Instruction
deriving DecidableEq, Repr

namespace Woven

/-- All the code, in order. -/
def code (w : Woven) : List Instruction := w.entry ++ (w.guards ++ [w.moved])

/-- Where that points which pointed at the instruction: at the guard code, or at the instruction
itself if there is none. -/
def landing (w : Woven) : Nat :=
  match w.guards with
  | [] => w.moved.offset
  | guard :: _ => guard.offset

/-- What jumps to the block run through: its guard code and the moved instruction. -/
def segment (w : Woven) : List Instruction := w.guards ++ [w.moved]

theorem code_eq (w : Woven) : w.code = w.entry ++ w.segment := rfl

theorem exists_head_segment (w : Woven) :
    ∃ i, w.segment.head? = some i ∧ i.offset = w.landing := by
  rw [segment, landing]
  cases w.guards with
  | nil => exact ⟨w.moved, rfl, rfl⟩
  | cons guard guards => exact ⟨guard, rfl, rfl⟩

/-- `old` points at the instruction that has become `w`, and `new` at its landing. -/
def Lands (instructions : List Instruction) (oldLength : Nat) (woven : List Woven)
    (newLength old new : Nat) : Prop :=
  (old = oldLength ∧ new = newLength) ∨
    ∃ i w, (i, w) ∈ instructions.zip woven ∧ i.offset = old ∧ w.landing = new

/-- `old` is the offset of the instruction that has become `w`, and `new` the offset at which it
stands now. -/
def Moves (instructions : List Instruction) (oldLength : Nat) (woven : List Woven)
    (newLength old new : Nat) : Prop :=
  (old = oldLength ∧ new = newLength) ∨
    ∃ i w, (i, w) ∈ instructions.zip woven ∧ i.offset = old ∧ w.moved.offset = new

/-- `w` is the instruction with the code that is inserted at its offset, and it jumps to where the
old targets land. -/
structure Replaces (insertions : List Insertion) (lands : Nat → Nat → Prop) (i : Instruction)
    (w : Woven) : Prop where
  entry : w.entry.map Instruction.bare =
    (Insertion.codeAt insertions false i.offset).map Instruction.bare
  guards : w.guards.map Instruction.bare =
    (Insertion.codeAt insertions true i.offset).map Instruction.bare
  opcode : w.moved.opcode = i.opcode
  operand : w.moved.operand.withoutJumps = i.operand.withoutJumps
  targets : List.Forall₂ (fun a b : Int => ∃ old new : Nat, a = old ∧ b = new ∧ lands old new)
    i.targets w.moved.targets

theorem wellFormed_of_replaces {insertions : List Insertion} {lands : Nat → Nat → Prop}
    {i : Instruction} {w : Woven} (hinserted : ∀ n ∈ insertions, ∀ j ∈ n.code, j.WellFormed)
    (hi : i.WellFormed) (h : w.Replaces insertions lands i) : ∀ j ∈ w.code, j.WellFormed := by
  have hcodeAt : ∀ catchesJumps, ∀ j ∈ Insertion.codeAt insertions catchesJumps i.offset,
      j.WellFormed := by
    intro catchesJumps j hj
    obtain ⟨n, hn, -, -, hmem⟩ := Insertion.mem_codeAt hj
    exact hinserted n hn j hmem
  intro j hj
  rw [code, List.mem_append, List.mem_append, List.mem_singleton] at hj
  rcases hj with hj | hj | rfl
  · exact Instruction.wellFormed_of_map_bare_eq h.entry (hcodeAt false) j hj
  · exact Instruction.wellFormed_of_map_bare_eq h.guards (hcodeAt true) j hj
  · exact Instruction.wellFormed_congr h.opcode h.operand hi

end Woven

end PatternGuard
