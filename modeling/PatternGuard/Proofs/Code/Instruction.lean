import PatternGuard.Code.Stream
import PatternGuard.Proofs.Bytes.Reader

/-!
# Instructions and their bytes

An operand suits a form if its layout is the one that the form calls for. Reading an instruction
delivers an operand that suits the form of its opcode (`decode_ok_iff`), and an instruction with
such an operand is read back from its bytes (`decode_of_encode`). The padding of a switch is zero
when written and anything when read, which is the only freedom in the bytes of an instruction.
-/

set_option autoImplicit false

namespace PatternGuard

open Bytes Outcome

/-! ## Operands that suit a form -/

/-- The length of the operand of `wide` that begins with the given bytes, if they begin with an
opcode that can be widened. -/
def wideLength? : List UInt8 → Option Nat
  | [] => none
  | inner :: _ => (Opcode.ofWideByte? inner).map fun opcode => if opcode = .iinc then 5 else 3

/-- The number of operand bytes that the form calls for, if its operand is plain bytes; that of
`wide` depends on the first of them. -/
def OperandForm.byteCount? (form : OperandForm) (bytes : List UInt8) : Option Nat :=
  match form with
  | none | branch | branchWide => Option.none
  | wide => wideLength? bytes
  | form => form.fixedLength

/-- Whether the operand has the layout that the form calls for. -/
def OperandForm.Suits (form : OperandForm) : Operand → Prop
  | .none => form = .none
  | .bytes bytes => form.byteCount? bytes = some bytes.length
  | .branch _ => form = .branch ∨ form = .branchWide
  | .tableSwitch _ low high targets =>
    form = .tableSwitch ∧ low.toInt ≤ high.toInt ∧
      (targets.length : Int) = high.toInt - low.toInt + 1
  | .lookupSwitch _ _ => form = .lookupSwitch

instance (form : OperandForm) : DecidablePred form.Suits
  | .none => inferInstanceAs (Decidable (_ = _))
  | .bytes _ => inferInstanceAs (Decidable (_ = _))
  | .branch _ => inferInstanceAs (Decidable (_ ∨ _))
  | .tableSwitch .. => inferInstanceAs (Decidable (_ ∧ _))
  | .lookupSwitch .. => inferInstanceAs (Decidable (_ = _))

/-- Whether the operand of an instruction has the layout that its opcode calls for. -/
def Instruction.WellFormed (i : Instruction) : Prop := i.opcode.form.Suits i.operand

instance (i : Instruction) : Decidable i.WellFormed :=
  inferInstanceAs (Decidable (i.opcode.form.Suits i.operand))

namespace Operand

/-- Whether a displacement in the operand fits the field that the form has for it. -/
def Reaches (form : OperandForm) : Operand → Prop
  | .branch d => form = .branchWide ∨ (-32768 ≤ d.toInt ∧ d.toInt ≤ 32767)
  | _ => True

/-- Whether code of the given length has room for the rows of the operand. -/
def WithinCode (codeLength : Nat) : Operand → Prop
  | .tableSwitch _ _ _ targets => targets.length ≤ codeLength / 4
  | .lookupSwitch _ pairs => pairs.length ≤ codeLength / 8 ∧ pairs.length < 2147483648
  | _ => True

/-- The bytes of a key and a displacement. -/
def pairBytes (pair : Int32 × Int32) : List UInt8 := i32Bytes pair.1 ++ i32Bytes pair.2

/-- The bytes of the operand after padding. -/
def spell (form : OperandForm) (padding : List UInt8) : Operand → List UInt8
  | .none => []
  | .bytes given => given
  | .branch d =>
    if form = .branchWide then i32Bytes d else toBytes 2 (d.toInt % 65536).toNat
  | .tableSwitch default low high targets =>
    padding ++ i32Bytes default ++ i32Bytes low ++ i32Bytes high ++ targets.flatMap i32Bytes
  | .lookupSwitch default pairs =>
    padding ++ i32Bytes default ++ toBytes 4 pairs.length ++ pairs.flatMap pairBytes

end Operand

namespace Instruction

open Reader

theorem checkReach_ok_iff {i : Instruction} {offset : Nat} {r : Unit} :
    i.checkReach offset = .ok r ↔ i.operand.Reaches i.opcode.form := by
  rw [checkReach]
  cases i.operand with
  | branch d =>
    simp only [Operand.Reaches]
    split
    · rename_i hreaches
      exact iff_of_true rfl hreaches
    · rename_i hreaches
      exact iff_of_false (fun h => by simp at h) hreaches
  | _ => exact iff_of_true rfl trivial

theorem encodeOperand_eq_ok_iff {i : Instruction} {offset : Nat} {bytes : List UInt8} :
    i.encodeOperand offset = .ok bytes ↔
      i.operand.Reaches i.opcode.form ∧
        bytes = i.operand.spell i.opcode.form (List.replicate (paddingAt offset) 0) := by
  rw [encodeOperand]
  cases hoperand : i.operand with
  | none => simp [Operand.Reaches, Operand.spell, eq_comm]
  | bytes given => simp [Operand.Reaches, Operand.spell, eq_comm]
  | branch d =>
    simp only [bind_ok_iff, checkReach_ok_iff, hoperand, pure_ok_iff]
    exact ⟨fun ⟨_, hreaches, hbytes⟩ => ⟨hreaches, hbytes.symm⟩,
      fun ⟨hreaches, hbytes⟩ => ⟨⟨⟩, hreaches, hbytes.symm⟩⟩
  | tableSwitch default low high targets => simp [Operand.Reaches, Operand.spell, eq_comm]
  | lookupSwitch default pairs =>
    -- the two ways to write the bytes of a row are the same function
    have hpairs : (fun x : Int32 × Int32 => i32Bytes x.1 ++ i32Bytes x.2) = Operand.pairBytes := rfl
    simp [Operand.Reaches, Operand.spell, hpairs, eq_comm]

theorem encode_eq_ok_iff {i : Instruction} {offset : Nat} {bytes : List UInt8} :
    i.encode offset = .ok bytes ↔
      i.operand.Reaches i.opcode.form ∧
        bytes = i.opcode.byte ::
          i.operand.spell i.opcode.form (List.replicate (paddingAt offset) 0) := by
  rw [encode, bind_ok_iff]
  constructor
  · rintro ⟨payload, hpayload, hbytes⟩
    obtain ⟨hreaches, rfl⟩ := encodeOperand_eq_ok_iff.1 hpayload
    exact ⟨hreaches, (pure_ok_iff.1 hbytes).symm⟩
  · rintro ⟨hreaches, rfl⟩
    exact ⟨_, encodeOperand_eq_ok_iff.2 ⟨hreaches, rfl⟩, rfl⟩

theorem length_flatMap_of_forall {α : Type} {f : α → List UInt8} {n : Nat}
    (h : ∀ a, (f a).length = n) (xs : List α) : (xs.flatMap f).length = n * xs.length := by
  induction xs with
  | nil => simp
  | cons x xs ih =>
    rw [List.flatMap_cons, List.length_append, h, ih, List.length_cons, Nat.mul_succ, Nat.add_comm]

/-- An operand takes as many bytes as the layout allots to it. -/
theorem length_spell (i : Instruction) {offset : Nat} {padding : List UInt8}
    (hpadding : padding.length = paddingAt offset) :
    (i.operand.spell i.opcode.form padding).length = i.operandLength offset := by
  rw [operandLength]
  cases i.operand with
  | none => rfl
  | bytes given => rfl
  | branch d =>
    simp only [Operand.spell]
    split
    · exact length_i32Bytes d
    · exact length_toBytes 2 _
  | tableSwitch default low high targets =>
    simp only [Operand.spell, List.length_append, length_i32Bytes, hpadding,
      length_flatMap_of_forall length_i32Bytes]
  | lookupSwitch default pairs =>
    have hpair : ∀ pair, (Operand.pairBytes pair).length = 8 := by
      intro pair
      rw [Operand.pairBytes, List.length_append, length_i32Bytes, length_i32Bytes]
    simp only [Operand.spell, List.length_append, length_i32Bytes, length_toBytes, hpadding,
      length_flatMap_of_forall hpair]

theorem length_of_encode {i : Instruction} {offset : Nat} {bytes : List UInt8}
    (h : i.encode offset = .ok bytes) : bytes.length = i.encodedLength offset := by
  obtain ⟨-, rfl⟩ := encode_eq_ok_iff.1 h
  rw [List.length_cons, length_spell i List.length_replicate, encodedLength, Nat.add_comm]

/-! ## Reading operands -/

theorem decodeBranch_ok_iff {operand : Operand} {s t : Input} :
    (do return Operand.branch (← i16 context).toInt32 : Reader Operand) s = .ok operand t ↔
      ∃ d, operand = .branch d ∧ (-32768 ≤ d.toInt ∧ d.toInt ≤ 32767) ∧
        s.Advances (toBytes 2 (d.toInt % 65536).toNat) t := by
  rw [bind_run_ok_iff]
  constructor
  · rintro ⟨w, u, hread, hpure⟩
    obtain ⟨rfl, rfl⟩ := pure_run_ok_iff.1 hpure
    have hw := i16_ok_iff.1 hread
    rw [u16Bytes_toUInt16, ← Int16.toInt_toInt32] at hw
    refine ⟨w.toInt32, rfl, ?_, hw⟩
    rw [Int16.toInt_toInt32]
    have hle := w.le_toInt
    have hlt := w.toInt_lt
    omega
  · rintro ⟨d, rfl, ⟨hle, hlt⟩, hadvances⟩
    have hd : (Int16.ofInt d.toInt).toInt = d.toInt :=
      Int16.toInt_ofInt_of_le (by omega) (by omega)
    refine ⟨Int16.ofInt d.toInt, t, i16_ok_iff.2 ?_, pure_run_ok_iff.2 ⟨?_, rfl⟩⟩
    · rwa [u16Bytes_toUInt16, hd]
    · rw [Int32.toInt_inj.1 ((Int16.toInt_toInt32 _).trans hd)]

theorem decodeBytes_ok_iff {n : Nat} {operand : Operand} {s t : Input} :
    (do return Operand.bytes (← take n context) : Reader Operand) s = .ok operand t ↔
      ∃ bytes, operand = .bytes bytes ∧ bytes.length = n ∧ s.Advances bytes t := by
  rw [bind_run_ok_iff]
  constructor
  · rintro ⟨bytes, u, htake, hpure⟩
    obtain ⟨rfl, rfl⟩ := pure_run_ok_iff.1 hpure
    exact ⟨bytes, rfl, take_ok_iff.1 htake⟩
  · rintro ⟨bytes, rfl, h⟩
    exact ⟨bytes, t, take_ok_iff.2 h, rfl⟩

theorem exact_i32 : Exact (i32 context) (fun _ => True) i32Bytes := by
  intro s d t
  rw [i32_ok_iff, true_and]

theorem exact_decodePair : Exact decodePair (fun _ => True) Operand.pairBytes := by
  intro s pair t
  rw [decodePair, bind_run_ok_iff, true_and, Operand.pairBytes, Input.advances_append_iff]
  constructor
  · rintro ⟨key, u, hkey, hrest⟩
    obtain ⟨target, v, htarget, hpure⟩ := bind_run_ok_iff.1 hrest
    obtain ⟨rfl, rfl⟩ := pure_run_ok_iff.1 hpure
    exact ⟨u, i32_ok_iff.1 hkey, i32_ok_iff.1 htarget⟩
  · rintro ⟨u, hkey, htarget⟩
    exact ⟨pair.1, u, i32_ok_iff.2 hkey,
      bind_run_ok_iff.2 ⟨pair.2, t, i32_ok_iff.2 htarget, rfl⟩⟩

theorem decodeTableSwitch_ok_iff {n offset : Nat} {operand : Operand} {s t : Input} :
    decodeTableSwitch n offset s = .ok operand t ↔
      ∃ default low high targets, operand = .tableSwitch default low high targets ∧
        OperandForm.tableSwitch.Suits operand ∧ operand.WithinCode n ∧
          ∃ padding : List UInt8, padding.length = paddingAt offset ∧
            s.Advances (operand.spell .tableSwitch padding) t := by
  simp only [decodeTableSwitch, bind_run_ok_iff, skip_ok_iff, i32_ok_iff, unless_fail_ok_iff,
    exact_i32.times_ok_iff, pure_run_ok_iff]
  constructor
  · rintro ⟨⟨⟩, s₁, ⟨padding, hpadding, a₁⟩, default, s₂, a₂, low, s₃, a₃, high, s₄, a₄, hrange,
      hroom, targets, s₅, ⟨hlength, -, a₅⟩, rfl, rfl⟩
    refine ⟨default, low, high, targets, rfl, ⟨rfl, by omega, by omega⟩, ?_, padding, hpadding, ?_⟩
    · rw [Operand.WithinCode]
      omega
    · simp only [Operand.spell, Input.advances_append_iff]
      exact ⟨s₄, ⟨s₃, ⟨s₂, ⟨s₁, a₁, a₂⟩, a₃⟩, a₄⟩, a₅⟩
  · rintro ⟨default, low, high, targets, rfl, ⟨-, hle, hlength⟩, hroom, padding, hpadding, h⟩
    simp only [Operand.spell, Input.advances_append_iff] at h
    obtain ⟨s₄, ⟨s₃, ⟨s₂, ⟨s₁, a₁, a₂⟩, a₃⟩, a₄⟩, a₅⟩ := h
    rw [Operand.WithinCode] at hroom
    exact ⟨⟨⟩, s₁, ⟨padding, hpadding, a₁⟩, default, s₂, a₂, low, s₃, a₃, high, s₄, a₄, by omega,
      by omega, targets, t, ⟨by omega, fun _ _ => trivial, a₅⟩, rfl, rfl⟩

theorem decodeLookupSwitch_ok_iff {n offset : Nat} {operand : Operand} {s t : Input} :
    decodeLookupSwitch n offset s = .ok operand t ↔
      ∃ default pairs, operand = .lookupSwitch default pairs ∧ operand.WithinCode n ∧
        ∃ padding : List UInt8, padding.length = paddingAt offset ∧
          s.Advances (operand.spell .lookupSwitch padding) t := by
  simp only [decodeLookupSwitch, bind_run_ok_iff, skip_ok_iff, i32_ok_iff, unless_fail_ok_iff,
    exact_decodePair.times_ok_iff, pure_run_ok_iff]
  constructor
  · rintro ⟨⟨⟩, s₁, ⟨padding, hpadding, a₁⟩, default, s₂, a₂, count, s₃, a₃, hroom, pairs, s₄,
      ⟨hlength, -, a₄⟩, rfl, rfl⟩
    -- a negative count is refused with the counts that are too large
    have hcount : 0 ≤ count.toInt := by omega
    have hlt := count.toInt_lt
    refine ⟨default, pairs, rfl, ⟨by omega, by omega⟩, padding, hpadding, ?_⟩
    simp only [Operand.spell, Input.advances_append_iff]
    rw [i32Bytes_eq_toBytes hcount, ← hlength] at a₃
    exact ⟨s₃, ⟨s₂, ⟨s₁, a₁, a₂⟩, a₃⟩, a₄⟩
  · rintro ⟨default, pairs, rfl, ⟨hroom, hlt⟩, padding, hpadding, h⟩
    simp only [Operand.spell, Input.advances_append_iff] at h
    obtain ⟨s₃, ⟨s₂, ⟨s₁, a₁, a₂⟩, a₃⟩, a₄⟩ := h
    have hcount : (Int32.ofNat pairs.length).toInt = pairs.length := Int32.toInt_ofNat_of_lt hlt
    refine ⟨⟨⟩, s₁, ⟨padding, hpadding, a₁⟩, default, s₂, a₂, Int32.ofNat pairs.length, s₃, ?_,
      by omega, pairs, t, ⟨by omega, fun _ _ => trivial, a₄⟩, rfl, rfl⟩
    rwa [i32Bytes_eq_toBytes (by omega), hcount]

theorem decodeWide_ok_iff {offset : Nat} {operand : Operand} {s t : Input} :
    decodeWide offset s = .ok operand t ↔
      ∃ bytes, operand = .bytes bytes ∧ wideLength? bytes = some bytes.length ∧
        s.Advances bytes t := by
  rw [decodeWide, bind_run_ok_iff]
  constructor
  · rintro ⟨inner, u, hinner, hrest⟩
    cases hopcode : Opcode.ofWideByte? inner with
    | none =>
      rw [hopcode] at hrest
      exact absurd hrest fail_ne_ok
    | some opcode =>
      rw [hopcode] at hrest
      obtain ⟨operands, v, htake, hpure⟩ := bind_run_ok_iff.1 hrest
      obtain ⟨rfl, rfl⟩ := pure_run_ok_iff.1 hpure
      obtain ⟨hlength, hadvances⟩ := take_ok_iff.1 htake
      refine ⟨inner :: operands, rfl, ?_, Input.advances_cons_iff.2
        ⟨u, u8_ok_iff.1 hinner, hadvances⟩⟩
      rw [wideLength?, hopcode, Option.map_some, List.length_cons, hlength]
      split <;> rfl
  · rintro ⟨bytes, rfl, hlength, hadvances⟩
    cases bytes with
    | nil => exact absurd hlength (by simp [wideLength?])
    | cons inner operands =>
      obtain ⟨u, hinner, hrest⟩ := Input.advances_cons_iff.1 hadvances
      refine ⟨inner, u, u8_ok_iff.2 hinner, ?_⟩
      cases hopcode : Opcode.ofWideByte? inner with
      | none => exact absurd hlength (by simp [wideLength?, hopcode])
      | some opcode =>
        refine bind_run_ok_iff.2 ⟨operands, t, take_ok_iff.2 ⟨?_, hrest⟩, rfl⟩
        rw [wideLength?, hopcode, Option.map_some, Option.some.injEq, List.length_cons] at hlength
        split <;> simp_all

/-- An operand is read exactly where its layout stands, whatever the padding is. -/
theorem decodeOperand_ok_iff {n offset : Nat} {form : OperandForm} {operand : Operand}
    {s t : Input} :
    decodeOperand n offset form s = .ok operand t ↔
      form.Suits operand ∧ operand.Reaches form ∧ operand.WithinCode n ∧
        ∃ padding : List UInt8, padding.length = paddingAt offset ∧
          s.Advances (operand.spell form padding) t := by
  -- where an operand has no padding, any padding will do
  have hpadding : ∀ {p : Prop}, p ↔ ∃ padding : List UInt8, padding.length = paddingAt offset ∧ p :=
    fun {p} => ⟨fun h => ⟨List.replicate (paddingAt offset) 0, List.length_replicate, h⟩,
      fun ⟨_, _, h⟩ => h⟩
  cases form with
  | none =>
    rw [decodeOperand, pure_run_ok_iff]
    cases operand <;>
      simp [OperandForm.Suits, OperandForm.byteCount?, Operand.Reaches, Operand.WithinCode,
        Operand.spell, Input.advances_nil_iff, ← hpadding]
  | branch =>
    rw [decodeOperand, decodeBranch_ok_iff]
    cases operand <;>
      simp [OperandForm.Suits, OperandForm.byteCount?, Operand.Reaches, Operand.WithinCode,
        Operand.spell, ← hpadding]
  | branchWide =>
    rw [decodeOperand, bind_run_ok_iff]
    cases operand <;>
      simp [OperandForm.Suits, OperandForm.byteCount?, Operand.Reaches, Operand.WithinCode,
        Operand.spell, ← hpadding, pure_run_ok_iff, i32_ok_iff]
  | tableSwitch =>
    rw [decodeOperand, decodeTableSwitch_ok_iff]
    cases operand <;>
      simp [OperandForm.Suits, Operand.Reaches, OperandForm.byteCount?, OperandForm.fixedLength]
  | lookupSwitch =>
    rw [decodeOperand, decodeLookupSwitch_ok_iff]
    cases operand <;>
      simp [OperandForm.Suits, Operand.Reaches, OperandForm.byteCount?, OperandForm.fixedLength]
  | wide =>
    rw [decodeOperand, decodeWide_ok_iff]
    cases operand <;>
      simp [OperandForm.Suits, OperandForm.byteCount?, Operand.Reaches, Operand.WithinCode,
        Operand.spell, ← hpadding]
  | _ =>
    refine decodeBytes_ok_iff.trans ?_
    cases operand <;>
      simp [OperandForm.Suits, OperandForm.byteCount?, OperandForm.fixedLength, Operand.Reaches,
        Operand.WithinCode, Operand.spell, ← hpadding, eq_comm]

/-- An instruction is read exactly where its opcode and its operand stand. It keeps the last 32 bits
of its offset. -/
theorem decode_ok_iff {n : Nat} {i : Instruction} {s t : Input} :
    decode n s = .ok i t ↔
      i.offset = s.position % 4294967296 ∧ i.WellFormed ∧ i.operand.Reaches i.opcode.form ∧
        i.operand.WithinCode n ∧ ∃ padding : List UInt8, padding.length = paddingAt s.position ∧
          s.Advances (i.opcode.byte :: i.operand.spell i.opcode.form padding) t := by
  rw [decode, bind_run_ok_iff]
  constructor
  · rintro ⟨offset, s₁, hposition, h₁⟩
    obtain ⟨rfl, rfl⟩ := position_ok_iff.1 hposition
    obtain ⟨byte, s₂, hbyte, h₂⟩ := bind_run_ok_iff.1 h₁
    cases hopcode : Opcode.ofByte? byte with
    | none =>
      rw [hopcode] at h₂
      exact absurd h₂ fail_ne_ok
    | some opcode =>
      rw [hopcode] at h₂
      obtain ⟨operand, s₃, hoperand, hpure⟩ := bind_run_ok_iff.1 h₂
      obtain ⟨rfl, rfl⟩ := pure_run_ok_iff.1 hpure
      obtain ⟨hsuits, hreaches, hwithin, padding, hpadding, hadvances⟩ :=
        decodeOperand_ok_iff.1 hoperand
      refine ⟨rfl, hsuits, hreaches, hwithin, padding, hpadding,
        Input.advances_cons_iff.2 ⟨s₂, ?_, hadvances⟩⟩
      rw [Opcode.byte_of_ofByte? hopcode]
      exact u8_ok_iff.1 hbyte
  · rintro ⟨hoffset, hsuits, hreaches, hwithin, padding, hpadding, hadvances⟩
    obtain ⟨u, hbyte, hoperand⟩ := Input.advances_cons_iff.1 hadvances
    refine ⟨s.position, s, position_ok_iff.2 ⟨rfl, rfl⟩, ?_⟩
    refine bind_run_ok_iff.2 ⟨i.opcode.byte, u, u8_ok_iff.2 hbyte, ?_⟩
    rw [Opcode.ofByte?_byte]
    refine bind_run_ok_iff.2 ⟨i.operand, t,
      decodeOperand_ok_iff.2 ⟨hsuits, hreaches, hwithin, padding, hpadding, hoperand⟩, ?_⟩
    rw [← hoffset]
    rfl

/-- An instruction that is read takes the bytes that its layout allots to it. -/
theorem position_of_decode {n : Nat} {i : Instruction} {s t : Input} (h : decode n s = .ok i t) :
    t.position = s.position + i.encodedLength s.position := by
  obtain ⟨-, -, -, -, padding, hpadding, hadvances⟩ := decode_ok_iff.1 h
  rw [hadvances.position_eq, List.length_cons, length_spell i hpadding, encodedLength,
    Nat.add_comm 1]

theorem consumes_decode (n : Nat) : Consumes (decode n) := by
  intro s i t h
  obtain ⟨-, -, -, -, padding, -, hadvances⟩ := decode_ok_iff.1 h
  have hlength := hadvances.length_rest
  rw [List.length_cons] at hlength
  omega

/-- The rows of an operand that is written take room in the code. -/
theorem withinCode_of_length_le {i : Instruction} {offset n : Nat} (hn : n < 4294967296)
    (h : i.encodedLength offset ≤ n) : i.operand.WithinCode n := by
  rw [encodedLength, operandLength] at h
  cases hoperand : i.operand with
  | none => trivial
  | bytes given => trivial
  | branch d => trivial
  | tableSwitch default low high targets =>
    rw [hoperand] at h
    simp only [Operand.WithinCode] at h ⊢
    omega
  | lookupSwitch default pairs =>
    rw [hoperand] at h
    simp only [Operand.WithinCode] at h ⊢
    omega

/-- The instruction with its offset as a word of 32 bits. -/
def wrapped (i : Instruction) : Instruction := { i with offset := i.offset % 4294967296 }

theorem encodedLength_wrapped (i : Instruction) : i.wrapped.encodedLength = i.encodedLength := rfl

theorem wrapped_eq_self {i : Instruction} (h : i.offset < 4294967296) : i.wrapped = i := by
  rw [wrapped, Nat.mod_eq_of_lt h]

/-- An instruction whose operand suits its opcode is read back from what is written for it. -/
theorem decode_of_encode {i : Instruction} {n : Nat} {bytes : List UInt8} {s t : Input}
    (hi : i.WellFormed) (hwithin : i.operand.WithinCode n)
    (hbytes : i.encode i.offset = .ok bytes) (hs : i.offset = s.position)
    (hadvances : s.Advances bytes t) : decode n s = .ok i.wrapped t := by
  obtain ⟨hreaches, rfl⟩ := encode_eq_ok_iff.1 hbytes
  rw [hs] at hadvances
  exact decode_ok_iff.2 ⟨congrArg (· % 4294967296) hs, hi, hreaches, hwithin, _,
    List.length_replicate, hadvances⟩

/-- An instruction can be written where it stands exactly if its offset is a word of 32 bits and its
displacement fits. -/
theorem checkPlace_ok_iff {i : Instruction} {r : Unit} :
    i.checkPlace = .ok r ↔ i.offset < 4294967296 ∧ i.operand.Reaches i.opcode.form := by
  rw [checkPlace, unless_ok_iff fun _ => throw_ne_ok, Nat.not_le, checkReach_ok_iff]

/-- A load of a local variable that has no load of its own has its number in one byte, if that is
enough. -/
theorem loadLocal_of_le {slot : UInt16} (hleast : 4 ≤ slot) (hgreatest : slot ≤ 255) :
    loadLocal slot = ofOperand .aload (.bytes [slot.toUInt8]) := by
  have hleast : 4 ≤ slot.toNat := UInt16.le_iff_toNat_le.1 hleast
  rw [loadLocal]
  split
  case h_5 => exact if_pos hgreatest
  all_goals omega

theorem loadLocal_of_lt {slot : UInt16} (hgreat : 255 < slot) :
    loadLocal slot = ofOperand .wide (.bytes (Opcode.aload.byte :: u16Bytes slot)) := by
  have hlt : 255 < slot.toNat := UInt16.lt_iff_toNat_lt.1 hgreat
  rw [loadLocal]
  split
  case h_5 => exact if_neg (UInt16.not_le.2 hgreat)
  all_goals omega

end Instruction

/-! ## Operands without their displacements -/

namespace Operand

/-- The operand with all its displacements erased. -/
def withoutJumps : Operand → Operand
  | .none => .none
  | .bytes given => .bytes given
  | .branch _ => .branch 0
  | .tableSwitch _ low high targets => .tableSwitch 0 low high (targets.map fun _ => 0)
  | .lookupSwitch _ pairs => .lookupSwitch 0 (pairs.map fun pair => (pair.1, 0))

theorem suits_withoutJumps (form : OperandForm) (operand : Operand) :
    form.Suits operand.withoutJumps ↔ form.Suits operand := by
  cases operand with
  | none => rfl
  | bytes given => rfl
  | branch d => rfl
  | tableSwitch default low high targets =>
    simp only [withoutJumps, OperandForm.Suits, List.length_map]
  | lookupSwitch default pairs => rfl

end Operand

namespace Instruction

/-- Displacements do not matter for the layout of an instruction. -/
theorem wellFormed_congr {i j : Instruction} (hopcode : j.opcode = i.opcode)
    (hoperand : j.operand.withoutJumps = i.operand.withoutJumps) (hi : i.WellFormed) :
    j.WellFormed := by
  rw [WellFormed, hopcode, ← Operand.suits_withoutJumps, hoperand, Operand.suits_withoutJumps]
  exact hi

theorem operandLength_withoutJumps (offset offset' place : Nat) (opcode : Opcode)
    (operand : Operand) :
    operandLength ⟨offset, opcode, operand.withoutJumps⟩ place =
      operandLength ⟨offset', opcode, operand⟩ place := by
  cases operand with
  | none => rfl
  | bytes given => rfl
  | branch d => rfl
  | tableSwitch default low high targets =>
    simp only [operandLength, Operand.withoutJumps, List.length_map]
  | lookupSwitch default pairs => simp only [operandLength, Operand.withoutJumps, List.length_map]

/-- Displacements do not matter for the length of an instruction. -/
theorem encodedLength_congr {i j : Instruction} (hopcode : j.opcode = i.opcode)
    (hoperand : j.operand.withoutJumps = i.operand.withoutJumps) (place : Nat) :
    j.encodedLength place = i.encodedLength place := by
  have hj := operandLength_withoutJumps i.offset j.offset place j.opcode j.operand
  have hi := operandLength_withoutJumps i.offset i.offset place i.opcode i.operand
  rw [hoperand, hopcode] at hj
  have hlength : j.operandLength place = i.operandLength place := by
    rw [← hi, hj, ← hopcode]
  rw [encodedLength, encodedLength, hlength]

end Instruction

end PatternGuard
