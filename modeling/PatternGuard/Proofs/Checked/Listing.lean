import PatternGuard.Listing
import PatternGuard.Proofs.Checked.Instruction
import PatternGuard.Proofs.Code.Stream

/-!
# Listing without stops

The operand bytes of an instruction are shown by looking at the first one or two of them. They are
there if the operand has the layout that its opcode calls for (`checkedOperand_eq`). Instructions
that were read from code have it, so that the listing of a class never stops
(`computes_checkedCompact`).
-/

set_option autoImplicit false

namespace PatternGuard.Listing

open Checked Text

/-- The operand bytes of an instruction without constant index. -/
def checkedBytesOperand (form : OperandForm) (bytes : List UInt8) : Checked String :=
  match form with
  | .byte => do return " " ++ toString (← item bytes 0).toInt8.toInt
  | .slot => do return " " ++ toString (← item bytes 0).toNat
  | .short => do
    let upper ← item bytes 0
    let lower ← item bytes 1
    return " " ++ toString (UInt16.ofNat (Bytes.ofBytes [upper, lower])).toInt16.toInt
  | _ => return " " ++ byteList bytes

/-- The operand of an instruction after its mnemonic; jumps show where they go. -/
def checkedOperand (i : Instruction) : Checked String :=
  match i.operand with
  | .none => return ""
  | .branch d => return " " ++ toString (i.offset + d.toInt)
  | .tableSwitch _ low high _ => return " " ++ toString low.toInt ++ ".." ++ toString high.toInt
  | .lookupSwitch _ pairs => return " " ++ toString pairs.length ++ " pairs"
  | .bytes bytes => do
    match ← i.checkedPoolIndex? with
    | some index => return " " ++ indexText index
    | none => checkedBytesOperand i.opcode.form bytes

theorem checkedBytesOperand_eq {form : OperandForm} {bytes : List UInt8}
    (h : form.byteCount? bytes = some bytes.length) :
    checkedBytesOperand form bytes = .ok (bytesOperand form bytes) := by
  cases form with
  | byte =>
    obtain ⟨b, rfl⟩ := List.length_eq_one_iff.1 (Option.some.inj h).symm
    rfl
  | slot =>
    obtain ⟨b, rfl⟩ := List.length_eq_one_iff.1 (Option.some.inj h).symm
    rfl
  | short =>
    obtain ⟨b, c, rfl⟩ := List.length_eq_two.1 (Option.some.inj h).symm
    rfl
  | _ => rfl

/-- The operand of a well-formed instruction is shown without a look beyond its end. -/
theorem checkedOperand_eq {i : Instruction} (h : i.WellFormed) :
    checkedOperand i = .ok (operand i) := by
  rw [Instruction.WellFormed] at h
  rw [checkedOperand, operand]
  cases hoperand : i.operand with
  | bytes bytes =>
    rw [hoperand] at h
    show (i.checkedPoolIndex? >>= _) = _
    rw [bind_of_ok i.checkedPoolIndex?_eq]
    cases i.poolIndex? with
    | some index => rfl
    | none => exact checkedBytesOperand_eq h
  | _ => rfl

/-! ## The compact form -/

/-- The line of an instruction in the compact form. -/
def checkedCompactLine (i : Instruction) : Checked String := do
  return "  " ++ i.opcode.lowerMnemonic ++ (← checkedOperand i)

/-- The lines of a method in the compact form. -/
def checkedCompactLines (pool : Pool) (m : Member) : CheckedExcept Fault (List String) := do
  match ← (liftM (m.body? pool) : CheckedExcept Fault (Option CodeBody)) with
  | some body => do
    let is ← (liftM body.instructions : CheckedExcept Fault (List Instruction))
    (liftM (is.mapM checkedCompactLine) : CheckedExcept Fault (List String))
  | none => return []

/-- The text of a class in the compact form. -/
def checkedCompact (c : ClassFile) : CheckedExcept Fault String := do
  return String.join ((← c.methods.mapM (checkedCompactLines c.pool)).flatten.map (· ++ "\n"))

variable {l : Listing}

theorem instructionLine_of_compact (h : l.form = .compact) (pool : Pool) (i : Instruction) :
    l.instructionLine pool i = "  " ++ i.opcode.lowerMnemonic ++ operand i := by
  rw [instructionLine]
  simp [h]

theorem checkedCompactLine_eq (h : l.form = .compact) (pool : Pool) {i : Instruction}
    (hi : i.WellFormed) : checkedCompactLine i = .ok (l.instructionLine pool i) := by
  rw [checkedCompactLine, bind_of_ok (checkedOperand_eq hi), instructionLine_of_compact h]
  rfl

theorem computes_checkedCompactLines (h : l.form = .compact) (pool : Pool) (m : Member) :
    Computes (checkedCompactLines pool m) (l.compactLines pool m) := by
  refine .reuse fun body? _ => ?_
  cases body? with
  | none => exact .pure _
  | some body =>
    refine .reuse fun is his => ?_
    have hwell := Code.wellFormed_of_decode his
    exact .of_ok (mapM_eq_ok fun i hi => checkedCompactLine_eq h pool (hwell i hi))

theorem render_of_compact (h : l.form = .compact) (c : ClassFile) :
    l.render c = (do
      return String.join ((← c.methods.mapM (l.compactLines c.pool)).flatten.map (· ++ "\n"))) := by
  rw [render, lines, h]
  exact bind_assoc _ _ _

/-- The compact listing of a class never looks for an operand byte that is not there. -/
theorem computes_checkedCompact (h : l.form = .compact) (c : ClassFile) :
    Computes (checkedCompact c) (l.render c) := by
  rw [render_of_compact h]
  refine Computes.bind (.mapM (List.forall₂_same.2 fun m _ => ?_)) fun _ _ => .pure _
  exact computes_checkedCompactLines h c.pool m

end PatternGuard.Listing
