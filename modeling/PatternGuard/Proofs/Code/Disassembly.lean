import PatternGuard.Proofs.Code.Assembly

/-!
# Reading what was assembled

Instructions with suitable operands can be assembled exactly if every 16-bit displacement fits its
field. What is assembled is read back: the same instructions, each at the offset that it was given
(`Code.decode_of_assemble`). Reading refuses switches that are too large for the length of the code,
but a switch that is part of the code takes more bytes than these limits ask for.
-/

set_option autoImplicit false

namespace PatternGuard

open Outcome

/-- Among operands that suit their opcodes, only a displacement of 16 bits can be too long. -/
theorem Instruction.reaches_iff {i : Instruction} (hi : i.WellFormed) :
    i.operand.Reaches i.opcode.form ↔ ∀ d, i.operand = .branch d → i.opcode.form = .branch →
      -32768 ≤ d.toInt ∧ d.toInt ≤ 32767 := by
  rw [WellFormed] at hi
  cases hoperand : i.operand with
  | branch d =>
    rw [hoperand] at hi
    constructor
    · rintro hreaches d' hd hform
      obtain rfl := Operand.branch.inj hd
      rcases hreaches with hwide | hfits
      · rw [hform] at hwide
        exact absurd hwide (by decide)
      · exact hfits
    · intro h
      rcases hi with hshort | hwide
      · exact Or.inr (h d rfl hshort)
      · exact Or.inl hwide
  | _ => simp [Operand.Reaches]

namespace Code

open Block

/-- Instructions that are written where they were placed tile the code. -/
theorem tiles_of_assemble {is placed : List Instruction} {code : List UInt8}
    (h : assemble is = .ok (placed, code)) :
    Tiles 0 placed code.length ∧ code.length = endOf 0 is := by
  obtain ⟨rfl, -, hcode⟩ := assemble_eq_ok_iff.1 h
  have hplace := place_place 0 0 is
  have hend := length_of_encodePlaced hplace hcode
  rw [Nat.zero_add] at hend
  refine ⟨tiles_iff.2 ⟨hplace, hend⟩, ?_⟩
  rw [← hend, endOf_place]

/-- Instructions whose operands suit their opcodes, with less than 2 GiB of code, can be assembled
exactly if all displacements of 16-bit branches fit. The same instructions are read back at the
offsets that they were given: these tile the code, and no switch is larger than the limits that the
reader takes from the length of the code. -/
theorem decode_of_assemble {is : List Instruction} (his : ∀ i ∈ is, i.WellFormed)
    (hlength : endOf 0 is < 2147483648) :
    ((∃ placed code, assemble is = .ok (placed, code)) ↔
      ∀ i ∈ is, ∀ d, i.operand = .branch d → i.opcode.form = .branch →
        -32768 ≤ d.toInt ∧ d.toInt ≤ 32767) ∧
      ∀ placed code, assemble is = .ok (placed, code) →
        decode code = .ok placed ∧ placed.map Instruction.bare = is.map Instruction.bare ∧
          Tiles 0 placed code.length ∧ ∀ i ∈ placed, i.operand.WithinCode code.length := by
  constructor
  · have hreaches : (∀ i ∈ is, i.operand.Reaches i.opcode.form) ↔
        ∀ i ∈ is, ∀ d, i.operand = .branch d → i.opcode.form = .branch →
          -32768 ≤ d.toInt ∧ d.toInt ≤ 32767 :=
      forall₂_congr fun i hi => Instruction.reaches_iff (his i hi)
    rw [← hreaches, ← @exists_encodePlaced_place_iff 0 is]
    constructor
    · rintro ⟨placed, code, h⟩
      obtain ⟨rfl, -, hcode⟩ := assemble_eq_ok_iff.1 h
      exact ⟨code, hcode⟩
    · rintro ⟨code, hcode⟩
      refine ⟨_, code, assemble_eq_ok_iff.2 ⟨rfl, fun i hi => ?_, hcode⟩⟩
      have hlt := (offset_of_mem_place hi).2
      omega
  · intro placed code h
    obtain ⟨htiles, hcodeLength⟩ := tiles_of_assemble h
    obtain ⟨rfl, -, hcode⟩ := assemble_eq_ok_iff.1 h
    have hbare := map_bare_place 0 is
    have hwell := Instruction.wellFormed_of_map_bare_eq hbare his
    have hdecode : decode code = .ok (place 0 is) :=
      decode_of_encodePlaced (place_place 0 0 is) hwell hcode (by omega)
    exact ⟨hdecode, hbare, htiles, withinCode_of_decode hdecode⟩

/-- Instructions without places: a table switch for the smallest keys there are, a wide increment
and branches of both widths that go as far as a short branch can, or farther. -/
def farJumps : List Instruction :=
  [.simple .nop, .ofOperand .tableswitch (.tableSwitch 40 (-2147483648) (-2147483647) [40, -1]),
    .ofOperand .wide (.bytes [0x84, 1, 0, 0xff, 0xff]), .ofOperand .goto (.branch (-32768)),
    .ofOperand .goto_w (.branch 40000),
    .ofOperand .lookupswitch (.lookupSwitch 7 [(-1, 2147483647)]), .simple .return_void]

/-- A short branch that goes a little farther than it can. -/
def tooFar : Instruction := .ofOperand .goto (.branch 32768)

/-- The instructions are read back where they were placed, with two bytes of padding in the table
switch at offset 1; with the branch that does not fit they cannot be assembled. -/
theorem exists_assemble_farJumps :
    (∀ i ∈ farJumps ++ [tooFar], i.WellFormed) ∧ endOf 0 (farJumps ++ [tooFar]) < 2147483648 ∧
      (∃ placed code, assemble farJumps = .ok (placed, code) ∧ decode code = .ok placed ∧
        placed.map Instruction.offset = [0, 1, 24, 30, 33, 38, 56]) ∧
      ¬∃ placed code, assemble (farJumps ++ [tooFar]) = .ok (placed, code) := by
  have hwell : ∀ i ∈ farJumps ++ [tooFar], i.WellFormed := by decide +kernel
  have hlength : endOf 0 (farJumps ++ [tooFar]) < 2147483648 := by decide +kernel
  refine ⟨hwell, hlength, ?_, ?_⟩
  · have hfar : ∀ i ∈ farJumps, i.WellFormed := fun i hi => hwell i (List.mem_append_left _ hi)
    have hread := (decode_of_assemble hfar (by decide +kernel)).2
    obtain ⟨placed, code, h⟩ : ∃ placed code, assemble farJumps = .ok (placed, code) :=
      ⟨_, _, rfl⟩
    refine ⟨placed, code, h, (hread placed code h).1, ?_⟩
    obtain ⟨rfl, -⟩ := assemble_eq_ok_iff.1 h
    decide
  · rw [(decode_of_assemble hwell hlength).1]
    intro hfits
    have htooFar := hfits tooFar (List.mem_append_right _ List.mem_cons_self) 32768 rfl rfl
    exact absurd htooFar.2 (by decide)

end Code

end PatternGuard
