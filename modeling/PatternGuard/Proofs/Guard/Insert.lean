import PatternGuard.Guard.Insert
import PatternGuard.Proofs.Guard.Layout

/-!
# Insertion keeps the program

Inserted code moves every instruction of a body. A moved instruction keeps its opcode and its
operand but for the displacements, and these are set so that each jump goes to where the relocation
takes its old target (`Mover.moveInstruction_ok`, `Mover.moveJump_ok_iff`). A block is written as
its code in place (`exists_woven_of_encodeBlock`). So the instructions of the new body are the code
of its blocks, and jumps and handlers land where the old ones pointed (`CodeBody.Weaving`).
-/

set_option autoImplicit false

namespace PatternGuard

open Bytes Outcome

theorem GuardError.ofData_ok_iff {α : Type} {x : Except Fault α} {a : α} :
    GuardError.ofData x = .ok a ↔ x = .ok a := by
  cases x with
  | error e => simp [GuardError.ofData]
  | ok b => simp [GuardError.ofData]

theorem GuardError.ofData_bind {α β : Type} (x : Except Fault α) (f : α → Except Fault β) :
    GuardError.ofData (x >>= f) = GuardError.ofData x >>= fun a => GuardError.ofData (f a) := by
  cases x <;> rfl

/-! ## Moved operands -/

namespace Mover

theorem refuse_ne_ok {α : Type} {method : String} {obstacle : Obstacle} {a : α} :
    refuse method obstacle ≠ .ok a := by
  simp [refuse]

/-- A moved operand is the operand with every displacement moved, in order. -/
theorem moveOperand_ok {m : Mover} {i : Instruction} {moved : Nat} {operand : Operand}
    (h : m.moveOperand i moved = .ok operand) :
    operand.withoutJumps = i.operand.withoutJumps ∧
      List.Forall₂ (fun d d' => m.moveJump i moved d = .ok d') i.displacements
        (Instruction.displacements { i with offset := moved, operand }) := by
  rw [moveOperand] at h
  rw [Instruction.displacements, Instruction.displacements]
  cases hoperand : i.operand with
  | none =>
    rw [hoperand] at h
    obtain rfl := Except.ok.inj h
    exact ⟨rfl, List.Forall₂.nil⟩
  | bytes given =>
    rw [hoperand] at h
    obtain rfl := Except.ok.inj h
    exact ⟨rfl, List.Forall₂.nil⟩
  | branch d =>
    rw [hoperand] at h
    obtain ⟨d', hd, hfits⟩ := bind_ok_iff.1 h
    split at hfits
    · obtain rfl := pure_ok_iff.1 hfits
      exact ⟨rfl, List.Forall₂.cons hd List.Forall₂.nil⟩
    · exact absurd hfits refuse_ne_ok
  | tableSwitch default low high targets =>
    rw [hoperand] at h
    obtain ⟨default', hdefault, h₁⟩ := bind_ok_iff.1 h
    obtain ⟨targets', htargets, hpure⟩ := bind_ok_iff.1 h₁
    obtain rfl := pure_ok_iff.1 hpure
    have hmoved := mapM_ok_iff.1 htargets
    refine ⟨?_, List.Forall₂.cons hdefault hmoved⟩
    simp only [Operand.withoutJumps, List.map_const', hmoved.length_eq]
  | lookupSwitch default pairs =>
    rw [hoperand] at h
    obtain ⟨default', hdefault, h₁⟩ := bind_ok_iff.1 h
    obtain ⟨pairs', hpairs, hpure⟩ := bind_ok_iff.1 h₁
    obtain rfl := pure_ok_iff.1 hpure
    -- every pair keeps its key, and its displacement is moved
    have hmoved : List.Forall₂ (fun pair pair' : Int32 × Int32 =>
        pair'.1 = pair.1 ∧ m.moveJump i moved pair.2 = .ok pair'.2) pairs pairs' := by
      refine (mapM_ok_iff.1 hpairs).imp fun pair pair' hpair => ?_
      obtain ⟨d', hd, hpure⟩ := bind_ok_iff.1 hpair
      obtain rfl := pure_ok_iff.1 hpure
      exact ⟨rfl, hd⟩
    refine ⟨?_, List.Forall₂.cons hdefault ?_⟩
    · have hkeys := map_eq_of_forall₂ (fun _ _ hpair => congrArg (·, (0 : Int32)) hpair.1) hmoved
      rw [Operand.withoutJumps, Operand.withoutJumps, hkeys]
    · rw [List.forall₂_map_left_iff, List.forall₂_map_right_iff]
      exact hmoved.imp fun _ _ hpair => hpair.2

theorem moveInstruction_ok {m : Mover} {b : PlacedBlock} {j : Instruction}
    (h : m.moveInstruction b = .ok j) :
    j.offset = b.moved ∧ j.opcode = b.instruction.opcode ∧
      j.operand.withoutJumps = b.instruction.operand.withoutJumps ∧
      List.Forall₂ (fun d d' => m.moveJump b.instruction b.moved d = .ok d')
        b.instruction.displacements j.displacements := by
  obtain ⟨operand, hoperand, hpure⟩ := bind_ok_iff.1 h
  obtain rfl := pure_ok_iff.1 hpure
  obtain ⟨hkept, hmoved⟩ := moveOperand_ok hoperand
  exact ⟨rfl, rfl, hkept, hmoved⟩

/-- A moved jump goes to where the relocation takes its old target. -/
theorem moveJump_ok_iff {m : Mover} {i : Instruction} {moved : Nat} {d d' : Int32}
    (hmoved : moved ≤ 65535) (htargets : ∀ old new, m.relocation.target? old = some new →
      new ≤ 65535) :
    m.moveJump i moved d = .ok d' ↔
      ∃ old new : Nat, m.relocation.target? old = some new ∧ (i.offset : Int) + d.toInt = old ∧
        (moved : Int) + d'.toInt = new := by
  -- both ends lie in the code, so that the displacement does not overflow
  have hexact : ∀ new : Nat, new ≤ 65535 →
      (Int32.ofInt ((new : Int) - moved)).toInt = (new : Int) - moved :=
    fun new hnew => Int32.toInt_ofInt_of_le (by omega) (by omega)
  rw [moveJump, Relocation.jump?]
  constructor
  · intro h
    by_cases hle : 0 ≤ (i.offset : Int) + d.toInt
    · rw [if_pos hle] at h
      cases hnew : m.relocation.target? ((i.offset : Int) + d.toInt).toNat with
      | none =>
        rw [hnew] at h
        exact absurd h refuse_ne_ok
      | some new =>
        rw [hnew] at h
        obtain rfl := Except.ok.inj h
        have hd := hexact new (htargets _ _ hnew)
        exact ⟨_, new, hnew, by omega, by omega⟩
    · rw [if_neg hle] at h
      exact absurd h refuse_ne_ok
  · rintro ⟨old, new, hnew, hold, hd⟩
    have hd' : d' = Int32.ofInt ((new : Int) - moved) := by
      apply Int32.toInt_inj.1
      rw [hexact new (htargets _ _ hnew)]
      omega
    rw [if_pos (by omega), hold, Int.toNat_natCast, hnew, hd']

end Mover

/-! ## Woven blocks -/

open Block Code

namespace PlacedBlock

/-- The code that a placed block becomes, with its instruction as it is moved. -/
def weave (b : PlacedBlock) (moved : Instruction) : Woven where
  entry := place b.start b.entry
  guards := place b.target b.guards
  moved := moved

/-- `w` is the code of a placed block. -/
structure Becomes (m : Mover) (b : PlacedBlock) (w : Woven) : Prop where
  entry : w.entry = place b.start b.entry
  guards : w.guards = place b.target b.guards
  moved : m.moveInstruction b = .ok w.moved
  landing : w.landing = b.target

section Weave

variable {b : Block} {start : Nat} {moved : Instruction}

theorem landing_weave (hoffset : moved.offset = (b.placeAt start).moved) :
    ((b.placeAt start).weave moved).landing = (b.placeAt start).target := by
  rcases b with ⟨entry, guards, instruction⟩
  cases guards with
  | nil => exact hoffset
  | cons guard guards =>
    simp only [Woven.landing, weave, Block.placeAt, place_cons]

/-- The inserted code is placed in one piece, and the moved instruction stands where it ends. -/
theorem code_weave (hoffset : moved.offset = (b.placeAt start).moved) :
    ((b.placeAt start).weave moved).code = place start (b.entry ++ (b.guards ++ [moved])) := by
  have hmoved : (b.placeAt start).moved = endOf (endOf start b.entry) b.guards := rfl
  rw [place_append, place_append, ← hmoved, ← hoffset]
  rfl

theorem place_code_weave (hoffset : moved.offset = (b.placeAt start).moved) :
    place start ((b.placeAt start).weave moved).code = ((b.placeAt start).weave moved).code := by
  rw [code_weave hoffset, place_place]

theorem endOf_code_weave (hoffset : moved.offset = (b.placeAt start).moved)
    (hopcode : moved.opcode = b.instruction.opcode)
    (hoperand : moved.operand.withoutJumps = b.instruction.operand.withoutJumps) :
    endOf start ((b.placeAt start).weave moved).code = (b.placeAt start).stop := by
  have hmoved : (b.placeAt start).moved = endOf (endOf start b.entry) b.guards := rfl
  rw [code_weave hoffset, endOf_place, endOf_append, endOf_append, ← hmoved, endOf_cons, endOf_nil,
    Instruction.encodedLength_congr hopcode hoperand]
  rfl

end Weave

end PlacedBlock

/-- A block is written as its code in place. -/
theorem exists_woven_of_encodeBlock {m : Mover} {b : Block} {start : Nat} {bytes : List UInt8}
    (h : m.encodeBlock (b.placeAt start) = .ok bytes) :
    ∃ w, (b.placeAt start).Becomes m w ∧ place start w.code = w.code ∧
      encodePlaced w.code = .ok bytes ∧ endOf start w.code = (b.placeAt start).stop := by
  obtain ⟨inserted, hinserted, h₁⟩ := bind_ok_iff.1 h
  obtain ⟨moved, hmoved, h₂⟩ := bind_ok_iff.1 h₁
  obtain ⟨tail, htail, hpure⟩ := bind_ok_iff.1 h₂
  obtain rfl := pure_ok_iff.1 hpure
  rw [GuardError.ofData_ok_iff] at hinserted htail
  obtain ⟨hoffset, hopcode, hkept, -⟩ := Mover.moveInstruction_ok hmoved
  refine ⟨(b.placeAt start).weave moved, ⟨rfl, rfl, hmoved, PlacedBlock.landing_weave hoffset⟩,
    PlacedBlock.place_code_weave hoffset, ?_,
    PlacedBlock.endOf_code_weave hoffset hopcode hkept⟩
  have hlast : encodePlaced [moved] = .ok tail :=
    encodePlaced_cons_eq_ok_iff.2
      ⟨tail, [], by rw [hoffset]; exact htail, rfl, (List.append_nil tail).symm⟩
  have hfront : encodePlaced (place start b.entry ++ place (endOf start b.entry) b.guards) =
      .ok inserted := by
    rw [← place_append]
    exact hinserted
  rw [Woven.code, ← List.append_assoc]
  exact encodePlaced_append hfront hlast

/-- What is written for a block ends where the block does. -/
theorem length_of_encodeBlock {m : Mover} {b : Block} {start : Nat} {bytes : List UInt8}
    (h : m.encodeBlock (b.placeAt start) = .ok bytes) :
    start + bytes.length = (b.placeAt start).stop := by
  obtain ⟨w, -, hplace, hbytes, hend⟩ := exists_woven_of_encodeBlock h
  rw [← hend, length_of_encodePlaced hplace hbytes]

/-- Blocks are written as their code in place, one after the other. -/
theorem exists_woven_of_encodeBlocks {m : Mover} {bs : List Block} {offset : Nat}
    {codes : List (List UInt8)}
    (h : List.Forall₂ (fun b code => m.encodeBlock b = .ok code) (placeAfter [] offset bs).1
      codes) :
    ∃ woven : List Woven, List.Forall₂ (PlacedBlock.Becomes m) (placeAfter [] offset bs).1 woven ∧
      place offset (woven.flatMap Woven.code) = woven.flatMap Woven.code ∧
      encodePlaced (woven.flatMap Woven.code) = .ok codes.flatten ∧
      endOf offset (woven.flatMap Woven.code) = (placeAfter [] offset bs).2 := by
  induction bs generalizing offset codes with
  | nil =>
    obtain rfl := List.forall₂_nil_left_iff.1 h
    exact ⟨[], List.Forall₂.nil, rfl, rfl, rfl⟩
  | cons b bs ih =>
    rw [placeAfter_cons] at h ⊢
    obtain ⟨code, rest, hcode, hrest, rfl⟩ := List.forall₂_cons_left_iff.1 h
    obtain ⟨w, hw, hplace, hbytes, hend⟩ := exists_woven_of_encodeBlock hcode
    obtain ⟨woven, hwoven, hplaces, hcodes, hends⟩ := ih hrest
    refine ⟨w :: woven, List.Forall₂.cons hw hwoven, ?_, ?_, ?_⟩
    · rw [List.flatMap_cons, place_append, hplace, hend, hplaces]
    · rw [List.flatMap_cons, List.flatten_cons]
      exact encodePlaced_append hbytes hcodes
    · rw [List.flatMap_cons, endOf_append, hend, hends]

/-- What is written for blocks ends where the last one does. -/
theorem length_of_encodeBlocks {m : Mover} {bs : List Block} {offset : Nat}
    {codes : List (List UInt8)}
    (h : List.Forall₂ (fun b code => m.encodeBlock b = .ok code) (placeAfter [] offset bs).1
      codes) :
    offset + codes.flatten.length = (placeAfter [] offset bs).2 := by
  obtain ⟨woven, -, hplace, hbytes, hend⟩ := exists_woven_of_encodeBlocks h
  rw [← hend, length_of_encodePlaced hplace hbytes]

/-! ## Woven bodies -/

/-- `h'` covers and handles what `h` did. -/
structure Handler.Follows (lands : Nat → Nat → Prop) (h h' : Handler) : Prop where
  start : lands h.start.toNat h'.start.toNat
  stop : lands h.stop.toNat h'.stop.toNat
  target : lands h.target.toNat h'.target.toNat
  catchType : h'.catchType = h.catchType

/-- `body'` has the code of `body` with the insertions: in front of each instruction stands what is
inserted at its offset, and what pointed into the old code points to where that lands. -/
structure CodeBody.Expansion (body : CodeBody) (insertions : List Insertion) (body' : CodeBody)
    (old : List Instruction) (woven : List Woven) : Prop where
  before : body.instructions = .ok old
  filled : Code.Fills old body.code.length
  boundary : ∀ n ∈ insertions, ∃ i ∈ old, i.offset = n.offset
  fills : Code.Fills (woven.flatMap Woven.code) body'.code.length
  written : Code.encodePlaced (woven.flatMap Woven.code) = .ok body'.code
  length_le : body'.code.length ≤ maxLength
  replaces : List.Forall₂ (Woven.Replaces insertions
    (Woven.Lands old body.code.length woven body'.code.length)) old woven
  handlers : List.Forall₂ (Handler.Follows
    (Woven.Lands old body.code.length woven body'.code.length)) body.handlers body'.handlers

/-- `body'` is `body` with code inserted: its instructions are the woven code of the old ones. -/
structure CodeBody.Weaving (body : CodeBody) (insertions : List Insertion) (body' : CodeBody)
    (old : List Instruction) (woven : List Woven) : Prop where
  before : body.instructions = .ok old
  filled : Code.Fills old body.code.length
  after : body'.instructions = .ok (woven.flatMap Woven.code)
  fills : Code.Fills (woven.flatMap Woven.code) body'.code.length
  replaces : List.Forall₂ (Woven.Replaces insertions
    (Woven.Lands old body.code.length woven body'.code.length)) old woven
  handlers : List.Forall₂ (Handler.Follows
    (Woven.Lands old body.code.length woven body'.code.length)) body.handlers body'.handlers
  boundary : ∀ n ∈ insertions, ∃ i ∈ old, i.offset = n.offset

namespace Mover

/-- The mover takes offsets to where they land, and instructions to where they stand. -/
structure Tracks (m : Mover) (old : List Instruction) (oldLength : Nat) (woven : List Woven)
    (newLength : Nat) : Prop where
  target?_iff : ∀ {a b : Nat},
    m.relocation.target? a = some b ↔ Woven.Lands old oldLength woven newLength a b
  moved?_iff : ∀ {a b : Nat},
    m.relocation.moved? a = some b ↔ Woven.Moves old oldLength woven newLength a b

/-- Some part of a placed block is some part of the code that it becomes. -/
theorem exists_mem_zip_iff {placed : List PlacedBlock} {woven : List Woven} {f : PlacedBlock → Nat}
    {g : Woven → Nat} (h : List.Forall₂ (fun p w => g w = f p) placed woven) {a b : Nat} :
    (∃ p ∈ placed, p.instruction.offset = a ∧ f p = b) ↔
      ∃ i w, (i, w) ∈ (placed.map fun p => p.instruction).zip woven ∧ i.offset = a ∧ g w = b := by
  rw [List.zip_map_left]
  constructor
  · rintro ⟨p, hp, ha, hb⟩
    obtain ⟨w, hw, hpart⟩ := exists_mem_zip_of_forall₂ h hp
    exact ⟨p.instruction, w, List.mem_map_of_mem hw, ha, hpart.trans hb⟩
  · rintro ⟨i, w, hiw, ha, hb⟩
    obtain ⟨⟨p, v⟩, hpv, hprod⟩ := List.mem_map.1 hiw
    obtain ⟨rfl, rfl⟩ := Prod.mk.inj hprod
    exact ⟨p, (List.of_mem_zip hpv).1, ha, (List.forall₂_zip h hpv).symm.trans hb⟩

/-- The relocation of placed blocks takes offsets to where they land in the code of the blocks. -/
theorem tracks_of_ofPlaced {m : Mover} {placed : List PlacedBlock} {woven : List Woven}
    {oldLength newLength : Nat} (hm : m.relocation = .ofPlaced placed oldLength newLength)
    (hold : Code.Fills (placed.map fun p => p.instruction) oldLength)
    (hlanding : List.Forall₂ (fun p w => Woven.landing w = p.target) placed woven)
    (hmoved : List.Forall₂ (fun p w => w.moved.offset = p.moved) placed woven) :
    m.Tracks (placed.map fun p => p.instruction) oldLength woven newLength := by
  have hdistinct : placed.Pairwise fun b c => b.instruction.offset ≠ c.instruction.offset :=
    (List.pairwise_map.1 hold.ascending).imp fun hlt => Nat.ne_of_lt hlt
  have hwithin : ∀ b ∈ placed, b.instruction.offset ≠ oldLength := fun b hb =>
    Nat.ne_of_lt (hold.offset_lt (List.mem_map_of_mem hb))
  have hknown : ∀ old new, (Relocation.ofPlaced placed oldLength newLength).offsets[old]? =
      some new ↔ (old = oldLength ∧ new = ⟨newLength, newLength⟩) ∨
        ∃ b ∈ placed, b.instruction.offset = old ∧ new = ⟨b.target, b.moved⟩ :=
    fun old new => Relocation.getElem?_ofPlaced_iff hdistinct hwithin
  refine ⟨?_, ?_⟩
  · intro a b
    rw [Relocation.target?, hm, Option.map_eq_some_iff, Woven.Lands,
      ← exists_mem_zip_iff hlanding]
    simp only [hknown]
    constructor
    · rintro ⟨new, ⟨rfl, rfl⟩ | ⟨p, hp, ha, rfl⟩, rfl⟩
      · exact Or.inl ⟨rfl, rfl⟩
      · exact Or.inr ⟨p, hp, ha, rfl⟩
    · rintro (⟨rfl, rfl⟩ | ⟨p, hp, ha, rfl⟩)
      · exact ⟨_, Or.inl ⟨rfl, rfl⟩, rfl⟩
      · exact ⟨_, Or.inr ⟨p, hp, ha, rfl⟩, rfl⟩
  · intro a b
    rw [Relocation.moved?, hm, Option.map_eq_some_iff, Woven.Moves, ← exists_mem_zip_iff hmoved]
    simp only [hknown]
    constructor
    · rintro ⟨new, ⟨rfl, rfl⟩ | ⟨p, hp, ha, rfl⟩, rfl⟩
      · exact Or.inl ⟨rfl, rfl⟩
      · exact Or.inr ⟨p, hp, ha, rfl⟩
    · rintro (⟨rfl, rfl⟩ | ⟨p, hp, ha, rfl⟩)
      · exact ⟨_, Or.inl ⟨rfl, rfl⟩, rfl⟩
      · exact ⟨_, Or.inr ⟨p, hp, ha, rfl⟩, rfl⟩

theorem moveOffset_ok_iff {m : Mover} {old new : UInt16} (htargets : ∀ old new,
    m.relocation.target? old = some new → new ≤ 65535) :
    m.moveOffset old = .ok new ↔ m.relocation.target? old.toNat = some new.toNat := by
  rw [moveOffset]
  cases hnew : m.relocation.target? old.toNat with
  | none => simp [refuse]
  | some target =>
    have hbound := htargets _ _ hnew
    have htarget : (UInt16.ofNat target).toNat = target :=
      UInt16.toNat_ofNat_of_lt' (by show target < 65536; omega)
    simp only [Except.ok.injEq, Option.some.injEq, ← UInt16.toNat_inj, htarget]

/-- A moved handler covers and handles what it did before. -/
theorem moveHandler_ok_iff {m : Mover} {h h' : Handler} (htargets : ∀ old new,
    m.relocation.target? old = some new → new ≤ 65535) :
    m.moveHandler h = .ok h' ↔
      h.Follows (fun old new => m.relocation.target? old = some new) h' := by
  constructor
  · intro hmoved
    obtain ⟨start, hstart, h₁⟩ := bind_ok_iff.1 hmoved
    obtain ⟨stop, hstop, h₂⟩ := bind_ok_iff.1 h₁
    obtain ⟨target, htarget, hpure⟩ := bind_ok_iff.1 h₂
    obtain rfl := pure_ok_iff.1 hpure
    exact ⟨(moveOffset_ok_iff htargets).1 hstart, (moveOffset_ok_iff htargets).1 hstop,
      (moveOffset_ok_iff htargets).1 htarget, rfl⟩
  · intro hfollows
    rcases h' with ⟨start, stop, target, catchType⟩
    obtain ⟨hstart, hstop, htarget, hcatch⟩ := hfollows
    refine bind_ok_iff.2 ⟨start, (moveOffset_ok_iff htargets).2 hstart, ?_⟩
    refine bind_ok_iff.2 ⟨stop, (moveOffset_ok_iff htargets).2 hstop, ?_⟩
    refine bind_ok_iff.2 ⟨target, (moveOffset_ok_iff htargets).2 htarget, ?_⟩
    obtain rfl : catchType = h.catchType := hcatch
    rfl

theorem contains_foldl_insert_iff {is : List Instruction}
    {found : Std.TreeMap Nat Unit compare} {offset : Nat} :
    (is.foldl (fun found i => found.insert i.offset ()) found).contains offset = true ↔
      found.contains offset = true ∨ ∃ i ∈ is, i.offset = offset := by
  induction is generalizing found with
  | nil => simp
  | cons i is ih =>
    rw [List.foldl_cons, ih, Std.TreeMap.contains_insert, Bool.or_eq_true, beq_iff_eq,
      Std.LawfulEqCmp.compare_eq_iff_eq, List.exists_mem_cons_iff]
    tauto

theorem mem_boundaries_iff {is : List Instruction} {offset : Nat} :
    (boundaries is).contains offset = true ↔ ∃ i ∈ is, i.offset = offset := by
  rw [boundaries, contains_foldl_insert_iff]
  simp

/-- Straight code may be inserted at an instruction. -/
theorem checkInsertion_ok_iff {is : List Instruction} {method : String} {n : Insertion}
    {r : Unit} :
    checkInsertion (boundaries is) method n = .ok r ↔
      (∀ j ∈ n.code, j.opcode.isBranch = false ∧ j.opcode.isReturn = false) ∧
        ∃ i ∈ is, i.offset = n.offset := by
  rw [← mem_boundaries_iff, checkInsertion]
  cases hfind : n.code.find? fun j => j.opcode.isBranch || j.opcode.isReturn with
  | some j =>
    refine iff_of_false refuse_ne_ok ?_
    rintro ⟨hstraight, -⟩
    obtain ⟨hbranch, hreturn⟩ := hstraight j (List.mem_of_find?_eq_some hfind)
    have hj := List.find?_some hfind
    simp [hbranch, hreturn] at hj
  | none =>
    have hstraight : ∀ j ∈ n.code, j.opcode.isBranch = false ∧ j.opcode.isReturn = false := by
      intro j hj
      have hnot := List.find?_eq_none.1 hfind j hj
      simpa using hnot
    rw [and_iff_right hstraight]
    by_cases hcontains : (boundaries is).contains n.offset = true
    · simp [hcontains]
    · simp [hcontains, refuse]

end Mover

namespace CodeBody

/-- What moves the parts of a body when code is inserted. -/
def mover (body : CodeBody) (insertions : List Insertion) (old : List Instruction)
    (method : String) : Mover where
  relocation := .ofPlaced (place (ofInsertions insertions old)).1 body.code.length
    (place (ofInsertions insertions old)).2
  method := method

/-- A body whose code is not too long with insertions is not so long that its offsets wrap. -/
theorem fills_of_place_le {body : CodeBody} {insertions : List Insertion}
    {old : List Instruction} (hbefore : body.instructions = .ok old)
    (hlength : (place (ofInsertions insertions old)).2 ≤ maxLength) :
    Fills old body.code.length := by
  have hold := endOf_le_place insertions old
  rw [(wrapped_of_decode hbefore).2] at hold
  rw [maxLength] at hlength
  exact fills_of_decode hbefore (by omega)

/-- The mover of a body tracks code that stands where the blocks are placed. -/
theorem tracks_mover {body : CodeBody} {insertions : List Insertion} {old : List Instruction}
    {method : String} {woven : List Woven} (hfills : Fills old body.code.length)
    (hwoven : List.Forall₂ (fun p w => Woven.landing w = p.target ∧ w.moved.offset = p.moved)
      (place (ofInsertions insertions old)).1 woven) :
    (body.mover insertions old method).Tracks old body.code.length woven
      (place (ofInsertions insertions old)).2 := by
  have hinstructions := map_instruction_place_ofInsertions insertions old
  rw [← hinstructions] at hfills
  have htracks := Mover.tracks_of_ofPlaced (m := body.mover insertions old method) rfl hfills
    (hwoven.imp fun _ _ hw => hw.1) (hwoven.imp fun _ _ hw => hw.2)
  rw [hinstructions] at htracks
  exact htracks

/-- Insertion succeeds exactly if everything passes the checks and each part can be moved. -/
theorem withInsertions_ok_iff {body body' : CodeBody} {pool : Pool} {insertions : List Insertion}
    {depth : UInt16} {method : String} :
    body.withInsertions pool insertions depth method = .ok body' ↔
      (∀ a ∈ body.attributes, Mover.checkAttribute pool method a = .ok ⟨⟩) ∧
      body.maxStack.toNat + depth.toNat ≤ 65535 ∧
      ∃ old, body.instructions = .ok old ∧
        (∀ n ∈ insertions,
          Mover.checkInsertion (Mover.boundaries old) method n = .ok ⟨⟩) ∧
        (place (ofInsertions insertions old)).2 ≤ maxLength ∧
        ∃ codes handlers attributes,
          List.Forall₂ (fun b code => (body.mover insertions old method).encodeBlock b = .ok code)
            (place (ofInsertions insertions old)).1 codes ∧
          List.Forall₂ (fun h h' => (body.mover insertions old method).moveHandler h = .ok h')
            body.handlers handlers ∧
          List.Forall₂
            (fun a a' => (body.mover insertions old method).moveAttribute pool a = .ok a')
            body.attributes attributes ∧
          body' = { body with
            maxStack := UInt16.ofNat (body.maxStack.toNat + depth.toNat), code := codes.flatten,
            handlers, attributes } := by
  constructor
  · intro h
    obtain ⟨⟨⟩, hattributes, h₁⟩ := bind_ok_iff.1 h
    obtain ⟨hdepth, h₂⟩ := (unless_ok_iff fun _ => Mover.refuse_ne_ok).1 h₁
    obtain ⟨old, hold, h₃⟩ := bind_ok_iff.1 h₂
    obtain ⟨_, hchecked, h₄⟩ := bind_ok_iff.1 h₃
    obtain ⟨hlength, h₅⟩ := (unless_ok_iff fun _ => Mover.refuse_ne_ok).1 h₄
    obtain ⟨codes, hcodes, h₆⟩ := bind_ok_iff.1 h₅
    obtain ⟨handlers, hhandlers, h₇⟩ := bind_ok_iff.1 h₆
    obtain ⟨attributes, hmoved, hpure⟩ := bind_ok_iff.1 h₇
    exact ⟨forM_ok_iff.1 hattributes, Nat.not_lt.1 hdepth, old, GuardError.ofData_ok_iff.1 hold,
      forM_ok_iff.1 hchecked, Nat.not_lt.1 hlength, codes, handlers, attributes,
      mapM_ok_iff.1 hcodes, mapM_ok_iff.1 hhandlers, mapM_ok_iff.1 hmoved,
      (pure_ok_iff.1 hpure).symm⟩
  · rintro ⟨hattributes, hdepth, old, hold, hchecked, hlength, codes, handlers, attributes, hcodes,
      hhandlers, hmoved, rfl⟩
    refine bind_ok_iff.2 ⟨⟨⟩, forM_ok_iff.2 hattributes, ?_⟩
    refine (unless_ok_iff fun _ => Mover.refuse_ne_ok).2 ⟨Nat.not_lt.2 hdepth, ?_⟩
    refine bind_ok_iff.2 ⟨old, GuardError.ofData_ok_iff.2 hold, ?_⟩
    refine bind_ok_iff.2 ⟨⟨⟩, forM_ok_iff.2 hchecked, ?_⟩
    refine (unless_ok_iff fun _ => Mover.refuse_ne_ok).2 ⟨Nat.not_lt.2 hlength, ?_⟩
    refine bind_ok_iff.2 ⟨codes, mapM_ok_iff.2 hcodes, ?_⟩
    refine bind_ok_iff.2 ⟨handlers, mapM_ok_iff.2 hhandlers, ?_⟩
    exact bind_ok_iff.2 ⟨attributes, mapM_ok_iff.2 hmoved, rfl⟩

theorem target?_le_of_ofPlaced {bs : List Block} {oldLength a b : Nat}
    (h : (Relocation.ofPlaced (place bs).1 oldLength (place bs).2).target? a = some b) :
    b ≤ (place bs).2 := by
  rcases Relocation.target?_ofPlaced h with ⟨-, rfl⟩ | ⟨p, hp, -, rfl⟩
  · exact Nat.le_refl _
  · obtain ⟨hle, hlt⟩ := moved_lt_placeAfter hp
    exact Nat.le_trans hle (Nat.le_of_lt hlt)

/-- A block becomes the code that replaces its instruction. -/
theorem replaces_of_becomes {m : Mover} {insertions : List Insertion}
    {lands : Nat → Nat → Prop} {p : PlacedBlock} {w : Woven}
    (htargets : ∀ old new, m.relocation.target? old = some new → new ≤ 65535 ∧ lands old new)
    (hentry : p.entry = Insertion.codeAt insertions false p.instruction.offset)
    (hguards : p.guards = Insertion.codeAt insertions true p.instruction.offset)
    (hmoved : p.moved ≤ 65535) (h : p.Becomes m w) :
    Woven.Replaces insertions lands p.instruction w := by
  obtain ⟨hoffset, hopcode, hoperand, hjumps⟩ := Mover.moveInstruction_ok h.moved
  refine ⟨?_, ?_, hopcode, hoperand, ?_⟩
  · rw [h.entry, map_bare_place, hentry]
  · rw [h.guards, map_bare_place, hguards]
  · rw [Instruction.targets, Instruction.targets, List.forall₂_map_left_iff,
      List.forall₂_map_right_iff, hoffset]
    refine hjumps.imp fun d d' hjump => ?_
    obtain ⟨old, new, htarget, hold, hnew⟩ :=
      (Mover.moveJump_ok_iff hmoved fun a b hab => (htargets a b hab).1).1 hjump
    exact ⟨old, new, hold, hnew, (htargets old new htarget).2⟩

/-- Insertion succeeds only with a body whose code is the code of the old one with the insertions.
Whatever else the body holds is moved by a mover that tracks the code. -/
theorem exists_expansion {body body' : CodeBody} {pool : Pool} {insertions : List Insertion}
    {depth : UInt16} {method : String}
    (h : body.withInsertions pool insertions depth method = .ok body') :
    ∃ old woven, body.Expansion insertions body' old woven ∧
      ∃ m : Mover, m.Tracks old body.code.length woven body'.code.length ∧
        List.Forall₂ (fun a a' => m.moveAttribute pool a = .ok a') body.attributes
          body'.attributes := by
  obtain ⟨-, -, old, hold, hchecked, hlength, codes, handlers, attributes, hcodes, hhandlers,
    hattributes, rfl⟩ := withInsertions_ok_iff.1 h
  have hfilled := fills_of_place_le hold hlength
  obtain ⟨woven, hwoven, hplace, hencoded, hend⟩ := exists_woven_of_encodeBlocks hcodes
  have hnew : codes.flatten.length = (place (ofInsertions insertions old)).2 := by
    rw [Block.place, ← length_of_encodeBlocks hcodes, Nat.zero_add]
  have hinstructions := map_instruction_place_ofInsertions insertions old
  have htracks : (body.mover insertions old method).Tracks old body.code.length woven
      codes.flatten.length := by
    rw [hnew]
    apply tracks_mover hfilled
    exact hwoven.imp fun p w hw => ⟨hw.landing, (Mover.moveInstruction_ok hw.moved).1⟩
  -- every relocated offset lands, and fits the 16 bits of a handler
  have htargets : ∀ a b, (body.mover insertions old method).relocation.target? a = some b →
      b ≤ 65535 ∧ Woven.Lands old body.code.length woven codes.flatten.length a b := by
    intro a b hab
    exact ⟨Nat.le_trans (target?_le_of_ofPlaced hab) hlength, htracks.target?_iff.1 hab⟩
  -- placed blocks are the instructions of the old body, one by one
  have hreplaces : List.Forall₂ (Woven.Replaces insertions
      (Woven.Lands old body.code.length woven codes.flatten.length)) old woven := by
    rw [← hinstructions, List.forall₂_map_left_iff, List.forall₂_iff_zip]
    refine ⟨hwoven.length_eq, ?_⟩
    intro p w hpw
    have hp := (List.of_mem_zip hpw).1
    obtain ⟨hentry, hguards⟩ := of_mem_place_ofInsertions hp
    obtain ⟨-, hmoved⟩ := moved_lt_placeAfter hp
    rw [hinstructions]
    exact replaces_of_becomes htargets hentry hguards
      (Nat.le_trans (Nat.le_of_lt hmoved) hlength) (List.forall₂_zip hwoven hpw)
  refine ⟨old, woven, ⟨hold, hfilled, ?_, ⟨hplace, ?_⟩, hencoded, ?_, hreplaces, ?_⟩, _, htracks,
    hattributes⟩
  · intro n hn
    exact (Mover.checkInsertion_ok_iff.1 (hchecked n hn)).2
  · rw [hnew]
    exact hend
  · rw [hnew]
    exact hlength
  · refine hhandlers.imp fun h h' hmoved => ?_
    obtain ⟨hstart, hstop, htarget, hcatch⟩ :=
      (Mover.moveHandler_ok_iff fun a b hab => (htargets a b hab).1).1 hmoved
    exact ⟨(htargets _ _ hstart).2, (htargets _ _ hstop).2, (htargets _ _ htarget).2, hcatch⟩

/-- Code whose instructions have the operands that their opcodes call for is read back. -/
theorem Expansion.weaving {body body' : CodeBody} {insertions : List Insertion}
    {old : List Instruction} {woven : List Woven} (h : body.Expansion insertions body' old woven)
    (hinserted : ∀ n ∈ insertions, ∀ i ∈ n.code, i.WellFormed) :
    body.Weaving insertions body' old woven := by
  have hwell : ∀ j ∈ woven.flatMap Woven.code, j.WellFormed := by
    intro j hj
    obtain ⟨w, hw, hj⟩ := List.mem_flatMap.1 hj
    obtain ⟨i, hi, hiw⟩ := exists_mem_zip_of_forall₂ h.replaces.flip hw
    exact Woven.wellFormed_of_replaces hinserted
      (wellFormed_of_decode h.before i (List.of_mem_zip hi).2) hiw j hj
  refine ⟨h.before, h.filled, ?_, h.fills, h.replaces, h.handlers, h.boundary⟩
  exact decode_of_encodePlaced h.fills.place_eq hwell h.written
    (Nat.lt_of_le_of_lt h.length_le (by decide))

/-- Insertion succeeds only with a body whose instructions are the woven code of the old ones. -/
theorem exists_weaving {body body' : CodeBody} {pool : Pool} {insertions : List Insertion}
    {depth : UInt16} {method : String}
    (h : body.withInsertions pool insertions depth method = .ok body')
    (hinserted : ∀ n ∈ insertions, ∀ i ∈ n.code, i.WellFormed) :
    ∃ old woven, body.Weaving insertions body' old woven := by
  obtain ⟨old, woven, hexpansion, -⟩ := exists_expansion h
  exact ⟨old, woven, hexpansion.weaving hinserted⟩

/-- A body with insertions has code. -/
theorem Expansion.code_ne_nil {body body' : CodeBody} {insertions : List Insertion}
    {old : List Instruction} {woven : List Woven} (h : body.Expansion insertions body' old woven)
    (hne : insertions ≠ []) : body'.code ≠ [] := by
  obtain ⟨n, hn⟩ := List.exists_mem_of_ne_nil insertions hne
  obtain ⟨i, hi, -⟩ := h.boundary n hn
  obtain ⟨w, hw, -⟩ := exists_mem_zip_of_forall₂ h.replaces hi
  have hmoved : w.moved ∈ woven.flatMap Woven.code :=
    List.mem_flatMap.2 ⟨w, (List.of_mem_zip hw).2, by simp [Woven.code]⟩
  exact List.ne_nil_of_length_pos (Nat.lt_of_le_of_lt (Nat.zero_le _) (h.fills.offset_lt hmoved))

/-- The instructions of a body with insertions are, for each old instruction in turn, the entry code
and the guard code that are inserted at its offset, in the order of the insertions, and the
instruction itself. It keeps its opcode and its operand except for displacements, and each of its
jumps goes from its new place to the guard code in front of the old target. -/
theorem instructions_withInsertions {body body' : CodeBody} {pool : Pool}
    {insertions : List Insertion} {depth : UInt16} {method : String}
    (h : body.withInsertions pool insertions depth method = .ok body')
    (hinserted : ∀ n ∈ insertions, ∀ i ∈ n.code, i.WellFormed) :
    ∃ old woven, body.instructions = .ok old ∧
      body'.instructions = .ok (woven.flatMap Woven.code) ∧
      List.Forall₂ (Woven.Replaces insertions
        (Woven.Lands old body.code.length woven body'.code.length)) old woven := by
  obtain ⟨old, woven, hweaving⟩ := exists_weaving h hinserted
  exact ⟨old, woven, hweaving.before, hweaving.after, hweaving.replaces⟩

/-- A body with a jump back to its beginning and a jump to its last instruction. -/
def loop : CodeBody where
  maxStack := 1
  maxLocals := 1
  code := [0x2a, 0xc6, 0, 6, 0xa7, 0xff, 0xfc, 0x2a, 0xb0]
  handlers := [⟨0, 9, 7, 0⟩]
  attributes := []

/-- Entry code at the beginning, where the loop begins too, and guard code in front of both targets.
-/
def loopInsertions : List Insertion :=
  [⟨0, false, [.loadLocal 0, .simple .pop]⟩, ⟨8, true, [.simple .dup, .simple .pop]⟩,
    ⟨7, true, [.loadLocal 300, .simple .pop]⟩, ⟨0, true, [.simple .nop]⟩]

theorem exists_instructions_loop :
    ∃ body', loop.withInsertions .empty loopInsertions 2 "f" = .ok body' ∧ ∃ old woven,
      loop.instructions = .ok old ∧ body'.instructions = .ok (woven.flatMap Woven.code) ∧
      List.Forall₂ (Woven.Replaces loopInsertions
        (Woven.Lands old loop.code.length woven body'.code.length)) old woven := by
  cases h : loop.withInsertions .empty loopInsertions 2 "f" with
  | ok body' => exact ⟨body', rfl, instructions_withInsertions h (by decide +kernel)⟩
  | error e =>
    have hok : (loop.withInsertions .empty loopInsertions 2 "f").isOk = true := by decide +kernel
    rw [h] at hok
    exact absurd hok Bool.false_ne_true

end CodeBody

end PatternGuard
