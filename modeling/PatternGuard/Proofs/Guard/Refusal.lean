import PatternGuard.Proofs.Code.FramePlaces
import PatternGuard.Proofs.Guard.Ranges

/-!
# What stands in the way of an insertion

A body whose offsets all point at instructions or at the end of the code can be extended by any
straight code, unless the result cannot be expressed. There are three ways in which it cannot
(`CodeBody.withInsertions_error_iff`): the operand stack grows too deep, the code grows too long, or
a branch of 16 bits no longer reaches its target. The latter two are read off the layout of the
extended code (`Woven.layOut`), which is known before any displacement is.
-/

set_option autoImplicit false

namespace PatternGuard

open Block Code Outcome

/-! ## Laid-out code -/

namespace Woven

/-- The code of an instruction with what is inserted at its offset, from `start` on. Displacements
are as they were. -/
def layOutAt (insertions : List Insertion) (start : Nat) (i : Instruction) : Woven :=
  let entry := Insertion.codeAt insertions false i.offset
  let guards := Insertion.codeAt insertions true i.offset
  let landing := endOf start entry
  { entry := place start entry
    guards := place landing guards
    moved := { i with offset := endOf landing guards } }

/-- The code of instructions with what is inserted at their offsets, one after the other. -/
def layOut (insertions : List Insertion) : Nat → List Instruction → List Woven
  | _, [] => []
  | start, i :: is =>
    let w := layOutAt insertions start i
    w :: layOut insertions (endOf start w.code) is

/-- Where the code ends that begins at offset 0. -/
def codeLength (woven : List Woven) : Nat := endOf 0 (woven.flatMap code)

/-- The instruction has a branch of 16 bits, which does not reach from where it stands now to where
its target lands. -/
def OutOfReach (old : List Instruction) (oldLength : Nat) (woven : List Woven) (newLength : Nat)
    (i : Instruction) (w : Woven) : Prop :=
  i.opcode.form = .branch ∧ ∃ target new : Nat, (target : Int) ∈ i.targets ∧
    Lands old oldLength woven newLength target new ∧
    ¬(-32768 ≤ (new : Int) - w.moved.offset ∧ (new : Int) - w.moved.offset ≤ 32767)

/-- The code of an instruction stands where its block is placed, and ends where the block ends. -/
theorem layOutAt_facts (insertions : List Insertion) (start : Nat) {b : Block}
    (hentry : b.entry = Insertion.codeAt insertions false b.instruction.offset)
    (hguards : b.guards = Insertion.codeAt insertions true b.instruction.offset) :
    ((layOutAt insertions start b.instruction).landing = (b.placeAt start).target ∧
        (layOutAt insertions start b.instruction).moved.offset = (b.placeAt start).moved) ∧
      place start (layOutAt insertions start b.instruction).code =
        (layOutAt insertions start b.instruction).code ∧
      endOf start (layOutAt insertions start b.instruction).code = (b.placeAt start).stop := by
  have hweave : layOutAt insertions start b.instruction =
      (b.placeAt start).weave { b.instruction with offset := (b.placeAt start).moved } := by
    rw [layOutAt, ← hentry, ← hguards]
    rfl
  rw [hweave]
  exact ⟨⟨PlacedBlock.landing_weave rfl, rfl⟩, PlacedBlock.place_code_weave rfl,
    PlacedBlock.endOf_code_weave rfl rfl rfl⟩

/-- Laid-out code stands where the blocks are placed, and ends where they end. -/
theorem layOut_spec (insertions : List Insertion) (start : Nat) (is : List Instruction) :
    List.Forall₂ (fun p w => w.landing = p.target ∧ w.moved.offset = p.moved)
        (placeAfter [] start (ofInsertions insertions is)).1 (layOut insertions start is) ∧
      place start ((layOut insertions start is).flatMap code) =
        (layOut insertions start is).flatMap code ∧
      endOf start ((layOut insertions start is).flatMap code) =
        (placeAfter [] start (ofInsertions insertions is)).2 := by
  rw [ofInsertions_eq]
  induction is generalizing start with
  | nil => exact ⟨List.Forall₂.nil, rfl, rfl⟩
  | cons i is ih =>
    rw [List.map_cons, placeAfter_cons, layOut]
    -- the code of the first instruction ends where the next block is placed
    obtain ⟨hfirst, hplace, hend⟩ := layOutAt_facts insertions start
      (b := ⟨Insertion.codeAt insertions false i.offset, Insertion.codeAt insertions true i.offset,
        i⟩) rfl rfl
    simp only at hfirst hplace hend
    simp only [hend]
    obtain ⟨hplaced, hplaces, hends⟩ := ih _
    refine ⟨List.Forall₂.cons hfirst hplaced, ?_, ?_⟩
    · rw [List.flatMap_cons, place_append, hplace, hend, hplaces]
    · rw [List.flatMap_cons, endOf_append, hend, hends]

theorem codeLength_layOut (insertions : List Insertion) (is : List Instruction) :
    codeLength (layOut insertions 0 is) = (Block.place (ofInsertions insertions is)).2 := by
  obtain ⟨-, -, hend⟩ := layOut_spec insertions 0 is
  exact hend

end Woven

/-! ## Parts that can be moved -/

namespace Mover

section Operands

variable {m : Mover} {i : Instruction} {moved : Nat}

/-- If every jump has a target, an operand can be moved unless it is a branch that is too short. -/
theorem exists_moveOperand_iff
    (hjumps : ∀ d ∈ i.displacements, ∃ d', m.moveJump i moved d = .ok d') :
    (∃ operand, m.moveOperand i moved = .ok operand) ↔
      ∀ d d', i.operand = .branch d → m.moveJump i moved d = .ok d' →
        fits i.opcode.form d' = true := by
  rw [Instruction.displacements] at hjumps
  simp only [moveOperand]
  -- nothing but a branch can be refused once its target is known
  cases hoperand : i.operand with
  | none => simp
  | bytes given => simp
  | branch d =>
    rw [hoperand] at hjumps
    obtain ⟨d', hd⟩ := hjumps d List.mem_cons_self
    constructor
    · rintro ⟨operand, h⟩ e e' he hmoved
      obtain rfl := Operand.branch.inj he
      obtain ⟨e'', he'', h₁⟩ := bind_ok_iff.1 h
      obtain rfl := Except.ok.inj (hmoved.symm.trans he'')
      by_cases hfits : fits i.opcode.form e' = true
      · exact hfits
      · rw [if_neg hfits] at h₁
        exact absurd h₁ refuse_ne_ok
    · intro h
      refine ⟨.branch d', bind_ok_iff.2 ⟨d', hd, ?_⟩⟩
      rw [if_pos (h d d' rfl hd)]
      rfl
  | tableSwitch default low high targets =>
    rw [hoperand] at hjumps
    obtain ⟨hdefault, htargets⟩ := List.forall_mem_cons.1 hjumps
    obtain ⟨default', hdefault⟩ := hdefault
    obtain ⟨targets', htargets⟩ := exists_forall₂ htargets
    refine iff_of_true ⟨.tableSwitch default' low high targets', ?_⟩ (by simp)
    exact bind_ok_iff.2 ⟨default', hdefault, bind_ok_iff.2 ⟨targets', mapM_ok_iff.2 htargets, rfl⟩⟩
  | lookupSwitch default pairs =>
    rw [hoperand] at hjumps
    obtain ⟨hdefault, htargets⟩ := List.forall_mem_cons.1 hjumps
    obtain ⟨default', hdefault⟩ := hdefault
    have hpairs : ∀ pair ∈ pairs, ∃ pair' : Int32 × Int32,
        (do return (pair.1, ← m.moveJump i moved pair.2)) = .ok pair' := by
      intro pair hpair
      obtain ⟨d', hd⟩ := htargets pair.2 (List.mem_map_of_mem hpair)
      exact ⟨(pair.1, d'), bind_ok_iff.2 ⟨d', hd, rfl⟩⟩
    obtain ⟨pairs', hpairs⟩ := exists_forall₂ hpairs
    refine iff_of_true ⟨.lookupSwitch default' pairs', ?_⟩ (by simp)
    exact bind_ok_iff.2 ⟨default', hdefault, bind_ok_iff.2 ⟨pairs', mapM_ok_iff.2 hpairs, rfl⟩⟩

/-- What a moved operand holds fits its fields. -/
theorem reaches_of_moveOperand {operand : Operand} (hi : i.WellFormed)
    (h : m.moveOperand i moved = .ok operand) : operand.Reaches i.opcode.form := by
  cases operand with
  | branch d' =>
    have hkept := (moveOperand_ok h).1
    rw [Instruction.WellFormed] at hi
    rw [moveOperand] at h
    cases hoperand : i.operand with
    | branch d =>
      rw [hoperand] at h hi
      obtain ⟨e, -, h₁⟩ := bind_ok_iff.1 h
      by_cases hfits : fits i.opcode.form e = true
      · rw [if_pos hfits] at h₁
        obtain rfl := Operand.branch.inj (pure_ok_iff.1 h₁)
        -- a branch of 32 bits fits whatever it holds
        rcases hi with hshort | hwide
        · right
          simpa [fits, hshort] using hfits
        · exact Or.inl hwide
      · rw [if_neg hfits] at h₁
        exact absurd h₁ refuse_ne_ok
    | _ =>
      rw [hoperand] at hkept
      simp [Operand.withoutJumps] at hkept
  | _ => trivial

end Operands

end Mover

/-- An instruction that does not branch has no displacement that could be too long. -/
theorem Instruction.reaches_of_isBranch_eq_false {i : Instruction} (hi : i.WellFormed)
    (hbranch : i.opcode.isBranch = false) : i.operand.Reaches i.opcode.form := by
  rw [WellFormed] at hi
  cases hoperand : i.operand with
  | branch d =>
    rw [hoperand] at hi
    rcases hi with hform | hform
    · simp [Opcode.isBranch, hform] at hbranch
    · exact Or.inl hform
  | _ => trivial

namespace Mover

/-- A moved instruction can be written where it stands. -/
theorem exists_encode_of_moveInstruction {m : Mover} {p : PlacedBlock} {j : Instruction}
    (hi : p.instruction.WellFormed) (h : m.moveInstruction p = .ok j) :
    ∃ bytes, j.encode p.moved = .ok bytes := by
  obtain ⟨operand, hoperand, hpure⟩ := bind_ok_iff.1 h
  obtain rfl := pure_ok_iff.1 hpure
  have hreaches := reaches_of_moveOperand hi hoperand
  exact ⟨_, Instruction.encode_eq_ok_iff.2 ⟨hreaches, rfl⟩⟩

/-- A block can be written if its instruction can be moved. -/
theorem exists_encodeBlock_iff {m : Mover} {p : PlacedBlock}
    (hinserted : ∀ j ∈ p.entry ++ p.guards, j.operand.Reaches j.opcode.form)
    (hi : p.instruction.WellFormed) :
    (∃ bytes, m.encodeBlock p = .ok bytes) ↔
      ∃ operand, m.moveOperand p.instruction p.moved = .ok operand := by
  constructor
  · rintro ⟨bytes, h⟩
    obtain ⟨inserted, -, h₁⟩ := bind_ok_iff.1 h
    obtain ⟨moved, hmoved, -⟩ := bind_ok_iff.1 h₁
    obtain ⟨operand, hoperand, -⟩ := bind_ok_iff.1 hmoved
    exact ⟨operand, hoperand⟩
  · rintro ⟨operand, hoperand⟩
    obtain ⟨inserted, hinserted⟩ := Code.exists_encodePlaced_place_iff.2 hinserted
    have hmoved : m.moveInstruction p =
        .ok { p.instruction with offset := p.moved, operand } :=
      bind_ok_iff.2 ⟨operand, hoperand, rfl⟩
    obtain ⟨tail, htail⟩ := exists_encode_of_moveInstruction hi hmoved
    exact ⟨_, bind_ok_iff.2 ⟨inserted, GuardError.ofData_ok_iff.2 hinserted,
      bind_ok_iff.2 ⟨_, hmoved, bind_ok_iff.2 ⟨tail, GuardError.ofData_ok_iff.2 htail, rfl⟩⟩⟩⟩

end Mover

/-! ## Bodies whose offsets can be moved -/

/-- Whether an instruction begins at the offset, or the code ends there. -/
def CodeBody.IsBoundary (body : CodeBody) (old : List Instruction) (offset : Nat) : Prop :=
  offset = body.code.length ∨ ∃ i ∈ old, i.offset = offset

instance (body : CodeBody) (old : List Instruction) : DecidablePred (body.IsBoundary old) :=
  fun _ => inferInstanceAs (Decidable (_ ∨ _))

/-- The attribute is a table that can be moved, and all its offsets are boundaries. -/
inductive Attribute.Relocatable (pool : Pool) (boundary : Nat → Prop) (a : Attribute) : Prop
  | lines {rows : List LineNumber} : a.isNamed pool lineNumbersName = true →
      LineNumber.decodeTable a.info = .ok rows → (∀ l ∈ rows, boundary l.start.toNat) →
      Relocatable pool boundary a
  | locals {rows : List LocalVariable} :
      a.isNamed pool localVariablesName = true ∨ a.isNamed pool localVariableTypesName = true →
      LocalVariable.decodeTable a.info = .ok rows →
      (∀ v ∈ rows, boundary v.start.toNat ∧ boundary (v.start.toNat + v.length.toNat) ∧
        v.start.toNat + v.length.toNat ≤ 65535) → Relocatable pool boundary a
  | frames {frames : List Frame} : a.isNamed pool stackMapName = true →
      Frame.decodeTable a.info = .ok frames → (∀ offset ∈ Frame.offsets frames, boundary offset) →
      (∀ f ∈ frames, ∀ offset, .uninitialized offset ∈ f.kind.types → boundary offset.toNat) →
      Relocatable pool boundary a

theorem Attribute.Relocatable.isNamed {pool : Pool} {boundary : Nat → Prop} {a : Attribute}
    (h : a.Relocatable pool boundary) : a.isNamed pool lineNumbersName = true ∨
      a.isNamed pool localVariablesName = true ∨ a.isNamed pool localVariableTypesName = true ∨
      a.isNamed pool stackMapName = true := by
  cases h with
  | lines hnamed _ _ => exact Or.inl hnamed
  | locals hnamed _ _ =>
    rcases hnamed with hnamed | hnamed
    · exact Or.inr (Or.inl hnamed)
    · exact Or.inr (Or.inr (Or.inl hnamed))
  | frames hnamed _ _ _ => exact Or.inr (Or.inr (Or.inr hnamed))

/-- Everything in the body that refers to its code refers to a boundary. -/
structure CodeBody.Relocatable (body : CodeBody) (pool : Pool) (old : List Instruction) :
    Prop where
  before : body.instructions = .ok old
  targets : ∀ i ∈ old, ∀ target ∈ i.targets, 0 ≤ target ∧ body.IsBoundary old target.toNat
  handlers : ∀ h ∈ body.handlers, body.IsBoundary old h.start.toNat ∧
    body.IsBoundary old h.stop.toNat ∧ body.IsBoundary old h.target.toNat
  attributes : ∀ a ∈ body.attributes, a.Relocatable pool (body.IsBoundary old)

namespace Mover

/-- A table can be moved if each of its rows can be, and as many rows as it has can be written. -/
theorem exists_moveRows {α : Type} {decode : List UInt8 → Except Fault (List α)}
    {encode : List α → Except Fault (List UInt8)} {move : α → Except GuardError α}
    {info : List UInt8} {rows : List α} (hrows : decode info = .ok rows)
    (hcount : ∀ rows', rows'.length = rows.length → ∃ info', encode rows' = .ok info')
    (hrow : ∀ row ∈ rows, ∃ row', move row = .ok row') :
    ∃ info', (do
      let rows ← GuardError.ofData (decode info)
      GuardError.ofData (encode (← rows.mapM move))) = .ok info' := by
  obtain ⟨rows', hrows'⟩ := exists_forall₂ hrow
  obtain ⟨info', hinfo⟩ := hcount rows' hrows'.length_eq.symm
  exact ⟨info', bind_ok_iff.2 ⟨rows, GuardError.ofData_ok_iff.2 hrows,
    bind_ok_iff.2 ⟨rows', mapM_ok_iff.2 hrows', GuardError.ofData_ok_iff.2 hinfo⟩⟩⟩

namespace Tracks

variable {m : Mover} {old : List Instruction} {oldLength newLength : Nat} {woven : List Woven}
  {boundary : Nat → Prop}

section Tables

variable (h : m.Tracks old oldLength woven newLength)
  (hlands : ∀ a, boundary a → ∃ b, Woven.Lands old oldLength woven newLength a b)

include h hlands

theorem exists_moveOffset {a : UInt16} (ha : boundary a.toNat) : ∃ b, m.moveOffset a = .ok b := by
  obtain ⟨b, hb⟩ := hlands _ ha
  exact ⟨UInt16.ofNat b, by rw [moveOffset, h.target?_iff.2 hb]⟩

theorem exists_moveHandler {handler : Handler} (hstart : boundary handler.start.toNat)
    (hstop : boundary handler.stop.toNat) (htarget : boundary handler.target.toNat) :
    ∃ handler', m.moveHandler handler = .ok handler' := by
  obtain ⟨start, hstart⟩ := h.exists_moveOffset hlands hstart
  obtain ⟨stop, hstop⟩ := h.exists_moveOffset hlands hstop
  obtain ⟨target, htarget⟩ := h.exists_moveOffset hlands htarget
  exact ⟨_, bind_ok_iff.2 ⟨start, hstart, bind_ok_iff.2 ⟨stop, hstop,
    bind_ok_iff.2 ⟨target, htarget, rfl⟩⟩⟩⟩

theorem exists_moveLines {info : List UInt8} {rows : List LineNumber}
    (hrows : LineNumber.decodeTable info = .ok rows)
    (hstarts : ∀ l ∈ rows, boundary l.start.toNat) : ∃ info', m.moveLines info = .ok info' := by
  apply exists_moveRows hrows
  · intro rows' hlength
    obtain ⟨hlt, -⟩ := LineNumber.encodeTable_eq_ok_iff.1 (LineNumber.decodeTable_ok_iff.1 hrows)
    exact ⟨_, LineNumber.encodeTable_eq_ok_iff.2 ⟨hlength ▸ hlt, rfl⟩⟩
  · intro l hl
    obtain ⟨start, hstart⟩ := h.exists_moveOffset hlands (hstarts l hl)
    exact ⟨_, bind_ok_iff.2 ⟨start, hstart, rfl⟩⟩

theorem exists_moveVariables {info : List UInt8} {rows : List LocalVariable}
    (hrows : LocalVariable.decodeTable info = .ok rows)
    (hranges : ∀ v ∈ rows, boundary v.start.toNat ∧ boundary (v.start.toNat + v.length.toNat) ∧
      v.start.toNat + v.length.toNat ≤ 65535) : ∃ info', m.moveVariables info = .ok info' := by
  apply exists_moveRows hrows
  · intro rows' hlength
    obtain ⟨hlt, -⟩ :=
      LocalVariable.encodeTable_eq_ok_iff.1 (LocalVariable.decodeTable_ok_iff.1 hrows)
    exact ⟨_, LocalVariable.encodeTable_eq_ok_iff.2 ⟨hlength ▸ hlt, rfl⟩⟩
  · intro v hv
    obtain ⟨hstart, hstop, hle⟩ := hranges v hv
    have hword : (UInt16.ofNat (v.start.toNat + v.length.toNat)).toNat =
        v.start.toNat + v.length.toNat :=
      UInt16.toNat_ofNat_of_lt' (Nat.lt_succ_of_le hle)
    rw [← hword] at hstop
    obtain ⟨start, hstart⟩ := h.exists_moveOffset hlands hstart
    obtain ⟨stop, hstop⟩ := h.exists_moveOffset hlands hstop
    exact ⟨_, (unless_ok_iff fun _ => refuse_ne_ok).2 ⟨Nat.not_lt.2 hle,
      bind_ok_iff.2 ⟨start, hstart, bind_ok_iff.2 ⟨stop, hstop, rfl⟩⟩⟩⟩

end Tables

/-- A frame table can be moved since the order of frames is kept, and so is how much each names. -/
theorem exists_moveFrames (h : m.Tracks old oldLength woven newLength)
    (haligned : Woven.Aligned old oldLength woven newLength)
    (hlength : newLength ≤ CodeBody.maxLength)
    (hlands : ∀ a, boundary a → ∃ b, Woven.Lands old oldLength woven newLength a b)
    (hmoves : ∀ a, boundary a → ∃ b, Woven.Moves old oldLength woven newLength a b)
    {info : List UInt8} {frames : List Frame} (hframes : Frame.decodeTable info = .ok frames)
    (hplaces : ∀ offset ∈ Frame.offsets frames, boundary offset)
    (htypes : ∀ f ∈ frames, ∀ offset, .uninitialized offset ∈ f.kind.types →
      boundary offset.toNat) : ∃ info', m.moveFrames info = .ok info' := by
  have hbound : ∀ b ≤ newLength, b < 65536 :=
    fun b hb => Nat.lt_succ_of_le (Nat.le_trans hb hlength)
  have hmoved : ∃ frames', Frame.moveTable m.frameAt m.newAt frames = .ok frames' := by
    apply Frame.exists_moveTable
    · intro a b a' b' hab ha hb
      have hle := haligned.lands_le_iff (h.frameAt_ok_iff.1 hb) (h.frameAt_ok_iff.1 ha)
      omega
    · intro offset hoffset
      obtain ⟨place, hplace⟩ := hlands _ (hplaces offset hoffset)
      exact ⟨place, h.frameAt_ok_iff.2 hplace, hbound _ (haligned.lands_le hplace)⟩
    · intro f hf offset hoffset
      obtain ⟨place, hplace⟩ := hmoves _ (htypes f hf offset hoffset)
      exact ⟨place, h.newAt_ok_iff.2 hplace, hbound _ (haligned.moves_le hplace)⟩
  obtain ⟨frames', hframes'⟩ := hmoved
  obtain ⟨hcount, hwritable⟩ := Frame.writable_of_decodeTable hframes
  obtain ⟨hcount', hwritable'⟩ := Frame.writable_of_moveTable hframes' hwritable
  obtain ⟨info', hinfo⟩ := Frame.exists_encodeTable (hcount' ▸ hcount) hwritable'
  refine ⟨info', GuardError.ofData_ok_iff.2 (bind_ok_iff.2 ⟨frames, hframes, ?_⟩)⟩
  exact bind_ok_iff.2 ⟨frames', hframes', hinfo⟩

theorem exists_moveAttribute (h : m.Tracks old oldLength woven newLength)
    (haligned : Woven.Aligned old oldLength woven newLength)
    (hlength : newLength ≤ CodeBody.maxLength)
    (hlands : ∀ a, boundary a → ∃ b, Woven.Lands old oldLength woven newLength a b)
    (hmoves : ∀ a, boundary a → ∃ b, Woven.Moves old oldLength woven newLength a b)
    {pool : Pool} {a : Attribute} (ha : a.Relocatable pool boundary) :
    ∃ a', m.moveAttribute pool a = .ok a' := by
  cases ha with
  | lines hnamed hrows hstarts =>
    obtain ⟨info, hinfo⟩ := h.exists_moveLines hlands hrows hstarts
    exact ⟨{ a with info }, (moveAttribute_lines_iff hnamed).2 ⟨rfl, hinfo⟩⟩
  | locals hnamed hrows hranges =>
    obtain ⟨info, hinfo⟩ := h.exists_moveVariables hlands hrows hranges
    exact ⟨{ a with info }, (moveAttribute_locals_iff hnamed).2 ⟨rfl, hinfo⟩⟩
  | frames hnamed hframes hplaces htypes =>
    obtain ⟨info, hinfo⟩ :=
      h.exists_moveFrames haligned hlength hlands hmoves hframes hplaces htypes
    exact ⟨{ a with info }, (moveAttribute_frames_iff hnamed).2 ⟨rfl, hinfo⟩⟩

/-- A jump whose target lands can be moved. -/
theorem exists_moveJump (h : m.Tracks old oldLength woven newLength) {i : Instruction}
    {moved target new : Nat} {d : Int32} (htarget : (i.offset : Int) + d.toInt = target)
    (hlands : Woven.Lands old oldLength woven newLength target new) :
    ∃ d', m.moveJump i moved d = .ok d' := by
  refine ⟨Int32.ofInt ((new : Int) - moved), ?_⟩
  rw [moveJump, Relocation.jump?, if_pos (by omega), htarget, Int.toNat_natCast,
    h.target?_iff.2 hlands]

/-- A block can be written unless its instruction is a branch that is too short. -/
theorem exists_encodeBlock_iff (h : m.Tracks old oldLength woven newLength)
    (haligned : Woven.Aligned old oldLength woven newLength)
    (hlength : newLength ≤ CodeBody.maxLength) {p : PlacedBlock} {w : Woven}
    (hmoved : w.moved.offset = p.moved) (hle : p.moved ≤ newLength)
    (hinserted : ∀ j ∈ p.entry ++ p.guards, j.operand.Reaches j.opcode.form)
    (hi : p.instruction.WellFormed)
    (htargets : ∀ target ∈ p.instruction.targets, ∃ offset new : Nat,
      target = offset ∧ Woven.Lands old oldLength woven newLength offset new) :
    (∃ bytes, m.encodeBlock p = .ok bytes) ↔
      ¬Woven.OutOfReach old oldLength woven newLength p.instruction w := by
  have hjumps : ∀ d ∈ p.instruction.displacements,
      ∃ d', m.moveJump p.instruction p.moved d = .ok d' := by
    intro d hd
    obtain ⟨offset, new, htarget, hlands⟩ := htargets _ (List.mem_map_of_mem hd)
    exact h.exists_moveJump htarget hlands
  have hmax : newLength ≤ 65535 := hlength
  have hjump : ∀ d d', m.moveJump p.instruction p.moved d = .ok d' ↔
      ∃ old new : Nat, m.relocation.target? old = some new ∧
        (p.instruction.offset : Int) + d.toInt = old ∧ (p.moved : Int) + d'.toInt = new :=
    fun d d' => moveJump_ok_iff (Nat.le_trans hle hlength) (h.target?_le haligned hlength)
  rw [Mover.exists_encodeBlock_iff hinserted hi, exists_moveOperand_iff hjumps]
  -- the displacement of a branch is the distance from where it stands to where its target lands
  constructor
  · rintro hfits ⟨hform, target, new, htarget, hlands, hfar⟩
    rw [Instruction.WellFormed, hform] at hi
    cases hoperand : p.instruction.operand with
    | branch d =>
      have hnew := haligned.lands_le hlands
      have hexact : (Int32.ofInt ((new : Int) - p.moved)).toInt = (new : Int) - p.moved :=
        Int32.toInt_ofInt_of_le (by omega) (by omega)
      simp only [Instruction.targets, Instruction.displacements, hoperand, List.map_cons,
        List.map_nil, List.mem_singleton] at htarget
      have hd : fits .branch (Int32.ofInt ((new : Int) - p.moved)) = true := by
        rw [← hform]
        apply hfits d _ hoperand
        exact (hjump _ _).2 ⟨target, new, h.target?_iff.2 hlands, htarget.symm, by omega⟩
      rw [fits, hexact] at hd
      rw [hmoved] at hfar
      apply hfar
      simpa using hd
    | _ =>
      rw [hoperand] at hi
      simp [OperandForm.Suits, OperandForm.byteCount?] at hi
  · intro hreach d d' hoperand hd
    obtain ⟨target, new, hlands, htarget, hnew⟩ := (hjump d d').1 hd
    by_contra hfits
    apply hreach
    simp only [fits, decide_not, Bool.or_eq_true, Bool.not_eq_true', decide_eq_false_iff_not,
      Bool.and_eq_true, decide_eq_true_eq, not_or, not_not] at hfits
    obtain ⟨hform, hfar⟩ := hfits
    refine ⟨hform, target, new, ?_, h.target?_iff.1 hlands, ?_⟩
    · simp [Instruction.targets, Instruction.displacements, hoperand, htarget]
    · rw [hmoved]
      omega

end Tracks

end Mover

/-! ## Bodies that can be extended -/

namespace CodeBody

open Woven

variable {body : CodeBody} {old : List Instruction}

theorem filled_of_layOut {insertions : List Insertion} (hbefore : body.instructions = .ok old)
    (hlength : codeLength (layOut insertions 0 old) ≤ maxLength) :
    Fills old body.code.length := by
  rw [codeLength_layOut] at hlength
  exact fills_of_place_le hbefore hlength

/-- The laid-out code is in the order of the old code. -/
theorem aligned_layOut {insertions : List Insertion} (hbefore : body.instructions = .ok old)
    (hle : codeLength (layOut insertions 0 old) ≤ maxLength) :
    Aligned old body.code.length (layOut insertions 0 old)
      (codeLength (layOut insertions 0 old)) := by
  obtain ⟨hplaced, hplace, -⟩ := layOut_spec insertions 0 old
  have hlength := congrArg List.length (map_instruction_place_ofInsertions insertions old)
  rw [List.length_map] at hlength
  exact ⟨filled_of_layOut hbefore hle, ⟨hplace, rfl⟩, hlength.symm.trans hplaced.length_eq⟩

/-- The mover of a body tracks the laid-out code. -/
theorem tracks_layOut {insertions : List Insertion} (method : String)
    (hbefore : body.instructions = .ok old)
    (hlength : codeLength (layOut insertions 0 old) ≤ maxLength) :
    (body.mover insertions old method).Tracks old body.code.length (layOut insertions 0 old)
      (codeLength (layOut insertions 0 old)) := by
  obtain ⟨hplaced, -, -⟩ := layOut_spec insertions 0 old
  have hfilled := filled_of_layOut hbefore hlength
  rw [codeLength_layOut]
  exact tracks_mover hfilled hplaced

/-- A boundary lands. -/
theorem IsBoundary.exists_lands {woven : List Woven} {newLength offset : Nat}
    (h : body.IsBoundary old offset) (hlength : old.length = woven.length) :
    (∃ new, Lands old body.code.length woven newLength offset new) ∧
      ∃ new, Moves old body.code.length woven newLength offset new := by
  rcases h with rfl | ⟨i, hi, rfl⟩
  · exact ⟨⟨_, Or.inl ⟨rfl, rfl⟩⟩, ⟨_, Or.inl ⟨rfl, rfl⟩⟩⟩
  · rw [← List.map_fst_zip (Nat.le_of_eq hlength)] at hi
    obtain ⟨⟨j, w⟩, hjw, rfl⟩ := List.mem_map.1 hi
    exact ⟨⟨_, Or.inr ⟨j, w, hjw, rfl, rfl⟩⟩, ⟨_, Or.inr ⟨j, w, hjw, rfl, rfl⟩⟩⟩

variable {pool : Pool} {insertions : List Insertion}

/-- What is inserted in front of an instruction has no displacement that could be too long. -/
theorem reaches_of_mem_place
    (hinserted : ∀ n ∈ insertions, ∀ j ∈ n.code, j.WellFormed ∧ j.opcode.isBranch = false)
    {p : PlacedBlock} (hp : p ∈ (Block.place (ofInsertions insertions old)).1) :
    ∀ j ∈ p.entry ++ p.guards, j.operand.Reaches j.opcode.form := by
  obtain ⟨hentry, hguards⟩ := of_mem_place_ofInsertions hp
  intro j hj
  rw [hentry, hguards, List.mem_append] at hj
  obtain ⟨n, hn, hmem⟩ : ∃ n ∈ insertions, j ∈ n.code := by
    rcases hj with hj | hj
    · obtain ⟨n, hn, -, -, hmem⟩ := Insertion.mem_codeAt hj
      exact ⟨n, hn, hmem⟩
    · obtain ⟨n, hn, -, -, hmem⟩ := Insertion.mem_codeAt hj
      exact ⟨n, hn, hmem⟩
  obtain ⟨hwell, hbranch⟩ := hinserted n hn j hmem
  exact Instruction.reaches_of_isBranch_eq_false hwell hbranch

/-- Each block of a relocatable body can be written, unless it is a branch that is too short. -/
theorem Relocatable.exists_encodeBlock_iff (h : body.Relocatable pool old) (method : String)
    (hinserted : ∀ n ∈ insertions, ∀ j ∈ n.code, j.WellFormed ∧ j.opcode.isBranch = false)
    (hlength : codeLength (layOut insertions 0 old) ≤ maxLength) :
    (∀ p ∈ (Block.place (ofInsertions insertions old)).1,
      ∃ bytes, (body.mover insertions old method).encodeBlock p = .ok bytes) ↔
      ∀ i w, (i, w) ∈ old.zip (layOut insertions 0 old) →
        ¬OutOfReach old body.code.length (layOut insertions 0 old)
          (codeLength (layOut insertions 0 old)) i w := by
  obtain ⟨hplaced, -, -⟩ := layOut_spec insertions 0 old
  have haligned := aligned_layOut h.before hlength
  have hinstructions := map_instruction_place_ofInsertions insertions old
  have hblock : ∀ p w, (p, w) ∈ (Block.place (ofInsertions insertions old)).1.zip
      (layOut insertions 0 old) →
      ((∃ bytes, (body.mover insertions old method).encodeBlock p = .ok bytes) ↔
        ¬OutOfReach old body.code.length (layOut insertions 0 old)
          (codeLength (layOut insertions 0 old)) p.instruction w) := by
    intro p w hpw
    have hp := (List.of_mem_zip hpw).1
    have hi : p.instruction ∈ old := by
      rw [← hinstructions]
      exact List.mem_map_of_mem hp
    -- the code of the block can be written, but for the jump of its instruction
    apply (tracks_layOut method h.before hlength).exists_encodeBlock_iff haligned hlength
    · exact (List.forall₂_zip hplaced hpw).2
    · rw [codeLength_layOut]
      exact Nat.le_of_lt (moved_lt_placeAfter hp).2
    · exact reaches_of_mem_place hinserted hp
    · exact wellFormed_of_decode h.before _ hi
    · intro target htarget
      obtain ⟨hle, hboundary⟩ := h.targets _ hi target htarget
      obtain ⟨⟨new, hlands⟩, -⟩ := hboundary.exists_lands haligned.length_eq
      exact ⟨_, new, (Int.toNat_of_nonneg hle).symm, hlands⟩
  rw [forall_mem_zip_of_map_eq hinstructions]
  constructor
  · intro hbytes p w hpw
    exact (hblock p w hpw).1 (hbytes p (List.of_mem_zip hpw).1)
  · intro hreach p hp
    obtain ⟨w, hpw, -⟩ := exists_mem_zip_of_forall₂ hplaced hp
    exact (hblock p w hpw).2 (hreach p w hpw)

/-- A relocatable body can be extended unless the result cannot be expressed. -/
theorem Relocatable.exists_withInsertions_iff (h : body.Relocatable pool old) {depth : UInt16}
    {method : String}
    (hboundary : ∀ n ∈ insertions, ∃ i ∈ old, i.offset = n.offset)
    (hinserted : ∀ n ∈ insertions, ∀ j ∈ n.code,
      j.WellFormed ∧ j.opcode.isBranch = false ∧ j.opcode.isReturn = false) :
    (∃ body', body.withInsertions pool insertions depth method = .ok body') ↔
      body.maxStack.toNat + depth.toNat ≤ 65535 ∧
        codeLength (layOut insertions 0 old) ≤ maxLength ∧
        ∀ i w, (i, w) ∈ old.zip (layOut insertions 0 old) →
          ¬OutOfReach old body.code.length (layOut insertions 0 old)
            (codeLength (layOut insertions 0 old)) i w := by
  have hstraight : ∀ n ∈ insertions, ∀ j ∈ n.code, j.WellFormed ∧ j.opcode.isBranch = false :=
    fun n hn j hj => ⟨(hinserted n hn j hj).1, (hinserted n hn j hj).2.1⟩
  constructor
  · rintro ⟨body', hbody⟩
    obtain ⟨-, hdepth, old', hbefore, -, hlength, codes, -, -, hcodes, -⟩ :=
      withInsertions_ok_iff.1 hbody
    obtain rfl : old' = old := Except.ok.inj (hbefore.symm.trans h.before)
    have hlength : codeLength (layOut insertions 0 old') ≤ maxLength := by
      rw [codeLength_layOut]
      exact hlength
    refine ⟨hdepth, hlength, (h.exists_encodeBlock_iff method hstraight hlength).1 ?_⟩
    intro p hp
    obtain ⟨bytes, -, hbytes⟩ := exists_mem_zip_of_forall₂ hcodes hp
    exact ⟨bytes, hbytes⟩
  · rintro ⟨hdepth, hlength, hreach⟩
    have htracks := tracks_layOut method h.before hlength
    have haligned := aligned_layOut h.before hlength
    -- boundaries land, so handlers and tables are no obstacle
    have hlands : ∀ a, body.IsBoundary old a → ∃ b, Lands old body.code.length
        (layOut insertions 0 old) (codeLength (layOut insertions 0 old)) a b := by
      intro a ha
      exact (ha.exists_lands haligned.length_eq).1
    have hmoves : ∀ a, body.IsBoundary old a → ∃ b, Moves old body.code.length
        (layOut insertions 0 old) (codeLength (layOut insertions 0 old)) a b := by
      intro a ha
      exact (ha.exists_lands haligned.length_eq).2
    obtain ⟨codes, hcodes⟩ :=
      exists_forall₂ ((h.exists_encodeBlock_iff method hstraight hlength).2 hreach)
    obtain ⟨handlers, hhandlers⟩ := exists_forall₂ fun handler hhandler =>
      htracks.exists_moveHandler hlands (h.handlers handler hhandler).1
        (h.handlers handler hhandler).2.1 (h.handlers handler hhandler).2.2
    obtain ⟨attributes, hattributes⟩ := exists_forall₂ fun a ha =>
      htracks.exists_moveAttribute haligned hlength hlands hmoves (h.attributes a ha)
    refine ⟨_, withInsertions_ok_iff.2 ⟨?_, hdepth, old, h.before, ?_, ?_, codes, handlers,
      attributes, hcodes, hhandlers, hattributes, rfl⟩⟩
    · intro a ha
      exact Mover.checkAttribute_ok_iff.2 (h.attributes a ha).isNamed
    · intro n hn
      exact Mover.checkInsertion_ok_iff.2
        ⟨fun j hj => (hinserted n hn j hj).2, hboundary n hn⟩
    · rw [codeLength_layOut] at hlength
      exact hlength

/-- Straight code can be inserted into a relocatable body, unless the operand stack grows too deep,
the code grows too long, or a branch of 16 bits does not reach from where it stands in the laid-out
code to where its target lands. -/
theorem withInsertions_error_iff {depth : UInt16} {method : String} (h : body.Relocatable pool old)
    (hboundary : ∀ n ∈ insertions, ∃ i ∈ old, i.offset = n.offset)
    (hinserted : ∀ n ∈ insertions, ∀ j ∈ n.code,
      j.WellFormed ∧ j.opcode.isBranch = false ∧ j.opcode.isReturn = false) :
    (∃ e, body.withInsertions pool insertions depth method = .error e) ↔
      65535 < body.maxStack.toNat + depth.toNat ∨
        65535 < codeLength (layOut insertions 0 old) ∨
        ∃ i w, (i, w) ∈ old.zip (layOut insertions 0 old) ∧
          OutOfReach old body.code.length (layOut insertions 0 old)
            (codeLength (layOut insertions 0 old)) i w := by
  have herror : (∃ e, body.withInsertions pool insertions depth method = .error e) ↔
      ¬∃ body', body.withInsertions pool insertions depth method = .ok body' := by
    cases body.withInsertions pool insertions depth method with
    | error e => simp
    | ok body' => simp
  rw [herror, h.exists_withInsertions_iff hboundary hinserted, maxLength]
  constructor
  · intro hrefused
    by_contra hnone
    push Not at hnone
    exact hrefused ⟨hnone.1, hnone.2.1, hnone.2.2⟩
  · rintro (hdepth | hlength | ⟨i, w, hiw, hreach⟩) ⟨hdepth', hlength', hreach'⟩
    · omega
    · omega
    · exact hreach' i w hiw hreach

/-- The loop with line numbers, a variable, and frames, the second of which has a value that is not
initialized. -/
def loopWithFrames : CodeBody :=
  { loopWithTables with attributes := loopWithTables.attributes ++
      [⟨3, [0, 2, 0, 255, 0, 6, 0, 1, 8, 0, 4, 0, 0]⟩] }

/-- The pool with the names of the tables and of the frame table. -/
def frameNames : Pool := tableNames.append (.ofText "StackMapTable")

/-- The instructions of the loop. -/
def loopInstructions : List Instruction :=
  Code.place 0 [.loadLocal 0, .ofOperand .ifnull (.branch 6), .ofOperand .goto (.branch (-4)),
    .loadLocal 0, .simple .areturn]

theorem relocatable_loopWithFrames : loopWithFrames.Relocatable frameNames loopInstructions := by
  refine ⟨by decide +kernel, by decide +kernel, by decide +kernel, ?_⟩
  refine List.forall_mem_cons.2 ⟨?_, List.forall_mem_cons.2 ⟨?_, List.forall_mem_singleton.2 ?_⟩⟩
  · exact .lines (by decide +kernel) rfl (by decide +kernel)
  · exact .locals (by decide +kernel) rfl (by decide +kernel)
  · have hframes : Frame.decodeTable [0, 2, 0, 255, 0, 6, 0, 1, 8, 0, 4, 0, 0] =
        .ok [⟨0, .same⟩, ⟨6, .full [.uninitialized 4] []⟩] := by
      decide +kernel
    refine .frames (by decide +kernel) hframes (by decide +kernel) ?_
    intro f hf offset hoffset
    have hoffset : offset = 4 := by
      rcases List.mem_pair.1 hf with rfl | rfl
      · exact absurd hoffset (by simp [FrameKind.types])
      · simpa [FrameKind.types] using hoffset
    rw [hoffset]
    decide +kernel

theorem exists_error_loopWithFrames : loopWithFrames.Relocatable frameNames loopInstructions ∧
    ∃ e, loopWithFrames.withInsertions frameNames loopInsertions 65535 "f" = .error e := by
  refine ⟨relocatable_loopWithFrames, ?_⟩
  refine (withInsertions_error_iff relocatable_loopWithFrames ?_ ?_).2 (Or.inl ?_)
  · decide +kernel
  · decide +kernel
  · decide

end CodeBody

end PatternGuard
