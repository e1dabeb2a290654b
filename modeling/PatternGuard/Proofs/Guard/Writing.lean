import PatternGuard.Proofs.Guard.Insert

/-!
# Writing by the length of the output

Code is laid out before it is written. A writer that does not look at the layout puts each
instruction where the output ends so far. It has the same outcome, and its parts begin where the
layout says (`Mover.writeBlocks_eq`), because an instruction takes as many bytes as the layout has
counted, whatever its operand is. So the new offsets that everything else is moved to are those of
the bytes (`CodeBody.written_at_offsets`).
-/

set_option autoImplicit false

namespace PatternGuard

open Block Bytes GuardError Outcome

/-! ## Instructions -/

namespace Code

/-- Writes instructions behind what has been written, each for the offset at which the output ends.
-/
def write (written : List UInt8) (is : List Instruction) : Except Fault (List UInt8) :=
  is.foldlM (fun written i => do return written ++ (← i.encode written.length)) written

theorem write_cons (written : List UInt8) (i : Instruction) (is : List Instruction) :
    write written (i :: is) =
      i.encode written.length >>= fun front => write (written ++ front) is := by
  rw [write, List.foldlM_cons, bind_assoc]
  rfl

theorem write_append (written : List UInt8) (xs ys : List Instruction) :
    write written (xs ++ ys) = write written xs >>= fun next => write next ys :=
  List.foldlM_append

/-- Instructions are written as they are placed from the end of the output on. -/
theorem write_eq (written : List UInt8) (is : List Instruction) :
    write written is = (do return written ++ (← encodePlaced (place written.length is))) := by
  induction is generalizing written with
  | nil => exact congrArg Except.ok (List.append_nil written).symm
  | cons i is ih =>
    rw [write_cons, place_cons, encodePlaced, each_cons, bind_assoc]
    refine bind_congr_of_ok fun front hfront => ?_
    rw [ih, List.length_append, Instruction.length_of_encode hfront]
    simp only [bind_assoc, pure_bind, List.append_assoc]
    rfl

/-- The output ends where the layout says. -/
theorem length_of_write {written out : List UInt8} {is : List Instruction}
    (h : write written is = .ok out) : out.length = endOf written.length is := by
  rw [write_eq] at h
  obtain ⟨bytes, hbytes, hpure⟩ := bind_ok_iff.1 h
  obtain rfl := pure_ok_iff.1 hpure
  rw [List.length_append, ← length_of_encodePlaced (place_place _ _ _) hbytes, endOf_place]

end Code

/-! ## Blocks -/

/-- Where the guard code of the block begins, and where its instruction stands. -/
def PlacedBlock.newOffsets (b : PlacedBlock) : NewOffsets := ⟨b.target, b.moved⟩

namespace Mover

/-- Writes a block behind what has been written. Also delivers how much was written in front of the
guard code and in front of the instruction. -/
def writeBlock (m : Mover) (written : List UInt8) (b : Block) :
    Except GuardError (NewOffsets × List UInt8) := do
  let entered ← GuardError.ofData (Code.write written b.entry)
  let guarded ← GuardError.ofData (Code.write entered b.guards)
  let operand ← m.moveOperand b.instruction guarded.length
  let moved : Instruction := { b.instruction with offset := guarded.length, operand }
  let bytes ← GuardError.ofData (moved.encode guarded.length)
  return (⟨entered.length, guarded.length⟩, guarded ++ bytes)

/-- Writes blocks one after the other behind what has been written. -/
def writeBlocks (m : Mover) (written : List UInt8) :
    List Block → Except GuardError (List NewOffsets × List UInt8)
  | [] => .ok ([], written)
  | b :: rest => do
    let (new, written) ← m.writeBlock written b
    let (others, written) ← m.writeBlocks written rest
    return (new :: others, written)

/-- Behind the output, a block is what is inserted, written there, and the instruction in its new
place. -/
theorem append_encodeBlock (m : Mover) (written : List UInt8) (b : Block) :
    (do return written ++ (← m.encodeBlock (b.placeAt written.length))) = (do
      let inserted ← ofData (Code.write written (b.entry ++ b.guards))
      let operand ← m.moveOperand b.instruction (b.placeAt written.length).moved
      let moved : Instruction :=
        { b.instruction with offset := (b.placeAt written.length).moved, operand }
      return inserted ++ (← ofData (moved.encode (b.placeAt written.length).moved))) := by
  have hinserted : ofData (Code.write written (b.entry ++ b.guards)) = (do
      return written ++ (← ofData
        (Code.encodePlaced (Code.place written.length (b.entry ++ b.guards))))) := by
    rw [Code.write_eq, ofData_bind]
    rfl
  rw [hinserted, encodeBlock]
  simp only [moveInstruction, bind_assoc, pure_bind, List.append_assoc]
  rfl

/-- A block is written as it is placed at the end of the output. -/
theorem writeBlock_eq (m : Mover) (written : List UInt8) (b : Block) :
    m.writeBlock written b = (do
      let code ← m.encodeBlock (b.placeAt written.length)
      return ((b.placeAt written.length).newOffsets, written ++ code)) := by
  have hoffsets : (do
      let code ← m.encodeBlock (b.placeAt written.length)
      return ((b.placeAt written.length).newOffsets, written ++ code)) = (do
      let out ← (do return written ++ (← m.encodeBlock (b.placeAt written.length)))
      return ((b.placeAt written.length).newOffsets, out)) := by
    simp only [bind_assoc, pure_bind]
  rw [hoffsets, append_encodeBlock, Code.write_append, ofData_bind, bind_assoc, bind_assoc]
  -- the layout foresees where the output ends after each part
  refine bind_congr_of_ok fun entered hentered => bind_congr_of_ok fun guarded hguarded => ?_
  have htarget := Code.length_of_write (ofData_ok_iff.1 hentered)
  have hmoved := Code.length_of_write (ofData_ok_iff.1 hguarded)
  rw [htarget] at hmoved ⊢
  rw [hmoved, bind_assoc]
  refine bind_congr fun operand => ?_
  rw [bind_assoc]
  rfl

/-- Blocks are written as they are placed from the end of the output on. -/
theorem writeBlocks_eq (m : Mover) (written : List UInt8) (bs : List Block) :
    m.writeBlocks written bs = (do
      let codes ← (placeAfter [] written.length bs).1.mapM m.encodeBlock
      return ((placeAfter [] written.length bs).1.map PlacedBlock.newOffsets,
        written ++ codes.flatten)) := by
  induction bs generalizing written with
  | nil => exact congrArg (fun out => Except.ok ([], out)) (List.append_nil written).symm
  | cons b bs ih =>
    rw [writeBlocks, writeBlock_eq, placeAfter_cons, List.mapM_cons, bind_assoc, bind_assoc]
    refine bind_congr_of_ok fun code hcode => ?_
    -- what is written for a block ends where the next one is placed
    have hlength : (written ++ code).length = (b.placeAt written.length).stop := by
      rw [List.length_append, length_of_encodeBlock hcode]
    rw [pure_bind]
    simp only [ih, hlength, bind_assoc, pure_bind, List.map_cons, List.flatten_cons,
      List.append_assoc]

end Mover

/-! ## Bodies -/

namespace CodeBody

/-- The layout records for each instruction where its block is to be jumped to and where it stands,
and for the end of the old code the end of the new one. -/
theorem offsets_mover {body : CodeBody} {old : List Instruction} (insertions : List Insertion)
    (method : String) (hbefore : body.instructions = .ok old)
    (hle : (place (ofInsertions insertions old)).2 ≤ maxLength) :
    List.Forall₂ (fun i new =>
        (body.mover insertions old method).relocation.offsets[i.offset]? = some new)
      old ((place (ofInsertions insertions old)).1.map PlacedBlock.newOffsets) ∧
    (body.mover insertions old method).relocation.offsets[body.code.length]? =
      some ⟨(place (ofInsertions insertions old)).2, (place (ofInsertions insertions old)).2⟩ := by
  have hinstructions := map_instruction_place_ofInsertions insertions old
  have hfills := fills_of_place_le hbefore hle
  rw [← hinstructions] at hfills
  have hdistinct := (List.pairwise_map.1 hfills.ascending).imp (fun {_ _} => Nat.ne_of_lt)
  have hwithin : ∀ p ∈ (place (ofInsertions insertions old)).1,
      p.instruction.offset ≠ body.code.length := fun p hp =>
    Nat.ne_of_lt (hfills.offset_lt (List.mem_map_of_mem hp))
  refine ⟨?_, (Relocation.getElem?_ofPlaced_iff hdistinct hwithin).2 (Or.inl ⟨rfl, rfl⟩)⟩
  -- the instructions are those of the placed blocks, one by one
  have hplaced : List.Forall₂ (fun i new =>
      (body.mover insertions old method).relocation.offsets[i.offset]? = some new)
      ((place (ofInsertions insertions old)).1.map fun p => p.instruction)
      ((place (ofInsertions insertions old)).1.map PlacedBlock.newOffsets) := by
    rw [List.forall₂_map_left_iff, List.forall₂_map_right_iff, List.forall₂_same]
    exact fun p hp =>
      (Relocation.getElem?_ofPlaced_iff hdistinct hwithin).2 (Or.inr ⟨p, hp, rfl, rfl⟩)
  rwa [hinstructions] at hplaced

/-- An instruction takes as many bytes as its length at the offset says, whatever its operand is,
if it can be written at all. So wherever code is inserted, writing by the length of the output gives
the new code: what was written in front of the guard code of an instruction, in front of the
instruction, and in the end is as long as the layout has recorded. -/
theorem written_at_offsets :
    (∀ (i : Instruction) (offset : Nat) (bytes : List UInt8),
      i.encode offset = .ok bytes → bytes.length = i.encodedLength offset) ∧
    ∀ (body body' : CodeBody) (pool : Pool) (insertions : List Insertion) (depth : UInt16)
      (method : String), body.withInsertions pool insertions depth method = .ok body' →
      ∃ old news, body.instructions = .ok old ∧
        (body.mover insertions old method).writeBlocks [] (ofInsertions insertions old) =
          .ok (news, body'.code) ∧
        List.Forall₂ (fun i new =>
          (body.mover insertions old method).relocation.offsets[i.offset]? = some new) old news ∧
        (body.mover insertions old method).relocation.offsets[body.code.length]? =
          some ⟨body'.code.length, body'.code.length⟩ := by
  refine ⟨fun _ _ _ => Instruction.length_of_encode, ?_⟩
  intro body body' pool insertions depth method h
  obtain ⟨-, -, old, hold, -, hle, codes, handlers, attributes, hcodes, -, -, rfl⟩ :=
    withInsertions_ok_iff.1 h
  obtain ⟨hoffsets, hend⟩ := offsets_mover insertions method hold hle
  have hlength : codes.flatten.length = (place (ofInsertions insertions old)).2 := by
    rw [Block.place, ← length_of_encodeBlocks hcodes, Nat.zero_add]
  rw [← hlength] at hend
  refine ⟨old, _, hold, ?_, hoffsets, hend⟩
  rw [Mover.writeBlocks_eq]
  exact bind_ok_iff.2 ⟨codes, mapM_ok_iff.2 hcodes, rfl⟩

/-- Insertions with operands that do not suit their opcodes: switches behind opcodes without
operands, a load without its local variable and a jump behind an opcode that does not jump. -/
def unsuitedInsertions : List Insertion :=
  [⟨0, true, [.ofOperand .nop (.tableSwitch 1 5 2 [7])]⟩,
    ⟨7, false, [.simple .aload, .ofOperand .dup (.lookupSwitch 0 [(1, 2)])]⟩,
    ⟨7, true, [.ofOperand .pop (.branch (-3)), .ofOperand .nop (.bytes [1, 2, 3])]⟩]

/-- The padding of the switches depends on where they come to stand. -/
theorem exists_written_unsuitedInsertions :
    (∀ n ∈ unsuitedInsertions, ¬∀ i ∈ n.code, i.WellFormed) ∧
      ∃ body', loop.withInsertions .empty unsuitedInsertions 2 "f" = .ok body' ∧
        ∃ old news, loop.instructions = .ok old ∧
          (loop.mover unsuitedInsertions old "f").writeBlocks []
            (ofInsertions unsuitedInsertions old) = .ok (news, body'.code) ∧
          List.Forall₂ (fun i new =>
            (loop.mover unsuitedInsertions old "f").relocation.offsets[i.offset]? = some new)
            old news ∧
          (loop.mover unsuitedInsertions old "f").relocation.offsets[loop.code.length]? =
            some ⟨body'.code.length, body'.code.length⟩ := by
  refine ⟨by decide +kernel, ?_⟩
  cases h : loop.withInsertions .empty unsuitedInsertions 2 "f" with
  | ok body' => exact ⟨body', rfl, written_at_offsets.2 _ _ _ _ _ _ h⟩
  | error e =>
    have hok : (loop.withInsertions .empty unsuitedInsertions 2 "f").isOk = true := by
      decide +kernel
    rw [h] at hok
    exact absurd hok Bool.false_ne_true

end CodeBody

end PatternGuard
