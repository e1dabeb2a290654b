import PatternGuard.Proofs.Code.Stream

/-!
# Assembling what was read

Instructions that are read from code tile it, and assembling them leaves each where it is. The bytes
that are written are those that were read, but for the padding of switches: whatever stood there is
zero afterwards (`Code.Blanks`). Reading does not look at padding, so that the same instructions are
read again (`Code.assemble_of_decode`).
-/

set_option autoImplicit false

namespace PatternGuard

open Bytes Outcome Reader

/-! ## Padding -/

namespace Operand

/-- Whether the operand begins with padding. -/
def isSwitch : Operand → Bool
  | .tableSwitch .. | .lookupSwitch .. => true
  | _ => false

/-- Padding stands in front of the rest of the operand of a switch, and nowhere else. -/
theorem spell_eq (form : OperandForm) (padding : List UInt8) (operand : Operand) :
    operand.spell form padding =
      (if operand.isSwitch then padding else []) ++ operand.spell form [] := by
  cases operand with
  | tableSwitch default low high targets => simp [spell, isSwitch]
  | lookupSwitch default pairs => simp [spell, isSwitch]
  | _ => rfl

end Operand

namespace Instruction

/-- The number of bytes by which the operand of the instruction is aligned. -/
def padding (i : Instruction) : Nat :=
  if i.opcode = .tableswitch ∨ i.opcode = .lookupswitch then paddingAt i.offset else 0

theorem form_eq_tableSwitch_iff (o : Opcode) : o.form = .tableSwitch ↔ o = .tableswitch := by
  cases o <;> decide

theorem form_eq_lookupSwitch_iff (o : Opcode) : o.form = .lookupSwitch ↔ o = .lookupswitch := by
  cases o <;> decide

/-- Whether the operand is that of a switch can be seen from the opcode. -/
theorem isSwitch_operand_iff {i : Instruction} (hi : i.WellFormed) :
    i.operand.isSwitch = true ↔ i.opcode = .tableswitch ∨ i.opcode = .lookupswitch := by
  rw [← form_eq_tableSwitch_iff, ← form_eq_lookupSwitch_iff]
  rw [WellFormed] at hi
  cases hoperand : i.operand with
  | none => simp_all [OperandForm.Suits, Operand.isSwitch]
  | bytes given =>
    rw [hoperand] at hi
    refine iff_of_false Bool.false_ne_true ?_
    rintro (hform | hform) <;>
      simp [OperandForm.Suits, OperandForm.byteCount?, OperandForm.fixedLength, hform] at hi
  | branch d =>
    rw [hoperand] at hi
    rcases hi with hform | hform <;> simp [Operand.isSwitch, hform]
  | tableSwitch default low high targets =>
    rw [hoperand] at hi
    simp [Operand.isSwitch, hi.1]
  | lookupSwitch default pairs =>
    rw [hoperand] at hi
    have hform : i.opcode.form = .lookupSwitch := hi
    simp [Operand.isSwitch, hform]

/-- Padding is part of the instruction. -/
theorem padding_lt_encodedLength {i : Instruction} (hi : i.WellFormed) :
    i.padding < i.encodedLength i.offset := by
  rw [padding, encodedLength]
  by_cases hswitch : i.opcode = .tableswitch ∨ i.opcode = .lookupswitch
  · rw [if_pos hswitch, operandLength]
    have hoperand := (isSwitch_operand_iff hi).2 hswitch
    cases hcase : i.operand with
    | tableSwitch default low high targets =>
      show paddingAt i.offset < 1 + (paddingAt i.offset + 12 + 4 * targets.length)
      omega
    | lookupSwitch default pairs =>
      show paddingAt i.offset < 1 + (paddingAt i.offset + 8 + 8 * pairs.length)
      omega
    | _ =>
      rw [hcase] at hoperand
      exact absurd hoperand Bool.false_ne_true
  · rw [if_neg hswitch]
    omega

end Instruction

/-! ## Code without gaps -/

namespace Code

open Block

/-- The instructions stand one after the other, without gaps, from `start` to `stop`. -/
def Tiles : Nat → List Instruction → Nat → Prop
  | start, [], stop => start = stop
  | start, i :: is, stop => i.offset = start ∧ Tiles (start + i.encodedLength start) is stop

/-- Instructions without gaps are in place. -/
theorem tiles_iff {start stop : Nat} {is : List Instruction} :
    Tiles start is stop ↔ place start is = is ∧ endOf start is = stop := by
  induction is generalizing start with
  | nil => exact ⟨fun h => ⟨rfl, h⟩, fun h => h.2⟩
  | cons i is ih =>
    rw [Tiles, ih, place_cons, endOf_cons, List.cons.injEq]
    constructor
    · rintro ⟨rfl, hplace, hend⟩
      exact ⟨⟨rfl, hplace⟩, hend⟩
    · rintro ⟨⟨hi, hplace⟩, hend⟩
      exact ⟨by rw [← hi], hplace, hend⟩

/-! ## Code with blank padding -/

/-- The byte at an offset aligns the operand of a switch. -/
def IsPadding (is : List Instruction) (offset : Nat) : Prop :=
  ∃ i ∈ is, i.offset < offset ∧ offset ≤ i.offset + i.padding

instance (is : List Instruction) : DecidablePred (IsPadding is) :=
  fun _ => inferInstanceAs (Decidable (∃ i ∈ is, _))

/-- Where the instructions stand in `bytes`, which begin at `start`, `written` has zeros for padding
and the same bytes everywhere else. -/
structure Blanks (is : List Instruction) (start : Nat) (bytes written : List UInt8) : Prop where
  length_eq : written.length = bytes.length
  getElem?_eq : ∀ k, k < bytes.length →
    written[k]? = if IsPadding is (start + k) then some 0 else bytes[k]?

theorem isPadding_append_iff {xs ys : List Instruction} {offset : Nat} :
    IsPadding (xs ++ ys) offset ↔ IsPadding xs offset ∨ IsPadding ys offset := by
  simp only [IsPadding, List.mem_append, or_and_right, exists_or]

theorem Blanks.append {xs ys : List Instruction} {start : Nat}
    {front back front' back' : List UInt8} (hfront : Blanks xs start front front')
    (hback : Blanks ys (start + front.length) back back')
    (hxs : ∀ k, IsPadding xs k → k < start + front.length)
    (hys : ∀ k, IsPadding ys k → start + front.length ≤ k) :
    Blanks (xs ++ ys) start (front ++ back) (front' ++ back') := by
  refine ⟨?_, ?_⟩
  · rw [List.length_append, List.length_append, hfront.length_eq, hback.length_eq]
  · intro k hk
    rw [List.length_append] at hk
    -- a byte belongs to one side, and there only the padding of that side counts
    by_cases hside : k < front.length
    · have hnot : ¬IsPadding ys (start + k) := fun hpad => by
        have hle := hys _ hpad
        omega
      rw [List.getElem?_append_left hside, List.getElem?_append_left (hfront.length_eq ▸ hside),
        hfront.getElem?_eq k hside]
      simp only [isPadding_append_iff, hnot, or_false]
    · have hnot : ¬IsPadding xs (start + k) := fun hpad => by
        have hlt := hxs _ hpad
        omega
      have hle : front'.length ≤ k := by
        rw [hfront.length_eq]
        omega
      have hshift : start + front.length + (k - front.length) = start + k := by omega
      have hrest := hback.getElem?_eq (k - front.length) (by omega)
      rw [hshift] at hrest
      rw [List.getElem?_append_right hle, hfront.length_eq,
        List.getElem?_append_right (Nat.le_of_not_lt hside), hrest]
      simp only [isPadding_append_iff, hnot, false_or]

/-! ## What is read and what is written for it -/

/-- The padding of one instruction stands after its opcode. -/
theorem isPadding_singleton_iff {i : Instruction} {offset : Nat} :
    IsPadding [i] offset ↔ i.offset < offset ∧ offset ≤ i.offset + i.padding := by
  simp [IsPadding]

/-- What is written for an instruction has zeros where it was read with padding. -/
theorem blanks_instruction {i : Instruction} (hi : i.WellFormed) {padding : List UInt8}
    (hpadding : padding.length = paddingAt i.offset) :
    Blanks [i] i.offset (i.opcode.byte :: i.operand.spell i.opcode.form padding)
      (i.opcode.byte ::
        i.operand.spell i.opcode.form (List.replicate (paddingAt i.offset) 0)) := by
  refine ⟨?_, ?_⟩
  · rw [List.length_cons, List.length_cons, Instruction.length_spell i hpadding,
      Instruction.length_spell i List.length_replicate]
  · intro k hk
    have hswitch := Instruction.isSwitch_operand_iff hi
    rw [Operand.spell_eq _ padding, Operand.spell_eq _ (List.replicate _ _)]
    simp only [isPadding_singleton_iff, Instruction.padding, ← hswitch]
    cases k with
    | zero => simp
    | succ k =>
      -- behind the opcode the operand begins with its padding, if it has any
      rw [List.getElem?_cons_succ, List.getElem?_cons_succ]
      by_cases hs : i.operand.isSwitch = true
      · simp only [hs, if_true]
        by_cases hin : k < paddingAt i.offset
        · have hat : i.offset < i.offset + (k + 1) ∧
              i.offset + (k + 1) ≤ i.offset + paddingAt i.offset := by omega
          rw [if_pos hat, List.getElem?_append_left (by rwa [List.length_replicate]),
            List.getElem?_replicate, if_pos hin]
        · have hat : ¬(i.offset < i.offset + (k + 1) ∧
              i.offset + (k + 1) ≤ i.offset + paddingAt i.offset) := by omega
          have hle : paddingAt i.offset ≤ k := by omega
          rw [if_neg hat, List.getElem?_append_right (by rwa [List.length_replicate]),
            List.getElem?_append_right (by rwa [hpadding]), List.length_replicate, hpadding]
      · have hat : ¬(i.offset < i.offset + (k + 1) ∧ i.offset + (k + 1) ≤ i.offset + 0) := by
          omega
        simp only [hs, if_false, hat, Bool.false_eq_true]

/-- Instructions that are delivered can be written where they stand, with blank padding, and are
delivered again from what is written. -/
theorem encodePlaced_of_delivers {n : Nat} {is : List Instruction} {s t : Input}
    (h : Delivers (Instruction.decode n) s is t) :
    ∃ bytes written, s.Advances bytes t ∧ encodePlaced (place s.position is) = .ok written ∧
      Blanks (place s.position is) s.position bytes written ∧
        ∀ s' t', s'.position = s.position → s'.Advances written t' →
          Delivers (Instruction.decode n) s' is t' := by
  induction is generalizing s with
  | nil =>
    refine ⟨[], [], Input.advances_nil_iff.2 h, rfl, ⟨rfl, fun k hk => ?_⟩, ?_⟩
    · exact absurd hk (Nat.not_lt_zero k)
    · exact fun s' t' _ hs' => Input.advances_nil_iff.1 hs'
  | cons i is ih =>
    obtain ⟨u, hi, his⟩ := h
    obtain ⟨hoffset, hwell, hreaches, hwithin, padding, hpadding, hu⟩ :=
      Instruction.decode_ok_iff.1 hi
    obtain ⟨back, written, hback, hwritten, hblanks, hagain⟩ := ih his
    -- the first instruction ends where the others begin, both as read and as written
    have hfront := blanks_instruction (i := { i with offset := s.position }) hwell hpadding
    have hends := Instruction.padding_lt_encodedLength (i := { i with offset := s.position }) hwell
    have hend := Instruction.position_of_decode hi
    have hposition := hu.position_eq
    have hrest : ∀ {j}, j ∈ place u.position is → u.position ≤ j.offset :=
      fun hj => (offset_of_mem_place hj).1
    rw [place_cons, ← hend]
    generalize place u.position is = rest at hwritten hblanks hrest ⊢
    rw [hposition] at hblanks
    refine ⟨_, _, Input.advances_append_iff.2 ⟨u, hu, hback⟩,
      encodePlaced_cons_eq_ok_iff.2 ⟨_, written,
        Instruction.encode_eq_ok_iff.2 ⟨hreaches, rfl⟩, hwritten, rfl⟩, ?_, ?_⟩
    · refine hfront.append hblanks ?_ ?_
      · intro k hk
        obtain ⟨-, hk⟩ := isPadding_singleton_iff.1 hk
        have hlt : s.position + i.encodedLength s.position = s.position + _ :=
          hend.symm.trans hposition
        exact Nat.lt_of_le_of_lt hk (hlt ▸ Nat.add_lt_add_left hends _)
      · rintro k ⟨j, hj, hlt, -⟩
        have hle := hrest hj
        rw [hposition] at hle
        exact Nat.le_of_lt (Nat.lt_of_le_of_lt hle hlt)
    · intro s' t' hs hs'
      obtain ⟨u', hfront', hback'⟩ := Input.advances_append_iff.1 hs'
      refine ⟨u', Instruction.decode_ok_iff.2 ⟨by rw [hs, hoffset], hwell, hreaches, hwithin, _,
        by rw [hs]; exact List.length_replicate, hfront'⟩, hagain u' t' ?_ hback'⟩
      rw [hfront'.position_eq, hs, hposition, hfront.length_eq]

/-! ## Assembling -/

/-- Assembling puts the instructions in place and writes them, if they all begin at offsets of 32
bits. -/
theorem assemble_eq_ok_iff {is placed : List Instruction} {code : List UInt8} :
    assemble is = .ok (placed, code) ↔ placed = place 0 is ∧
      (∀ i ∈ placed, i.offset < 4294967296) ∧ encodePlaced placed = .ok code := by
  rw [assemble, bind_ok_iff]
  constructor
  · rintro ⟨⟨⟩, hchecked, h⟩
    obtain ⟨bytes, hbytes, hpure⟩ := bind_ok_iff.1 h
    obtain ⟨rfl, rfl⟩ := Prod.mk.inj (pure_ok_iff.1 hpure)
    exact ⟨rfl, fun i hi => (Instruction.checkPlace_ok_iff.1 (forM_ok_iff.1 hchecked i hi)).1,
      hbytes⟩
  · rintro ⟨rfl, hoffsets, hcode⟩
    refine ⟨⟨⟩, forM_ok_iff.2 fun i hi => ?_, bind_ok_iff.2 ⟨code, hcode, rfl⟩⟩
    have hreaches := exists_encodePlaced_iff.1 ⟨code, hcode⟩ i hi
    exact Instruction.checkPlace_ok_iff.2 ⟨hoffsets i hi, hreaches⟩

/-- Instructions that could be written are too much code for the first one of them that does not
begin at an offset of 32 bits. -/
theorem forM_checkPlace_eq_error {is : List Instruction}
    (hreaches : ∀ i ∈ is, i.operand.Reaches i.opcode.form)
    (hascending : is.Pairwise fun i j => i.offset < j.offset) {i : Instruction} (hi : i ∈ is)
    (hoffset : 4294967296 ≤ i.offset) :
    ∃ j ∈ is, 4294967296 ≤ j.offset ∧ j.offset ≤ i.offset ∧
      is.forM Instruction.checkPlace = .error (.codeTooLarge j.offset) := by
  induction is with
  | nil => exact absurd hi List.not_mem_nil
  | cons k is ih =>
    obtain ⟨hk, hreaches⟩ := List.forall_mem_cons.1 hreaches
    obtain ⟨hfirst, hascending⟩ := List.pairwise_cons.1 hascending
    rw [forM_cons]
    by_cases hlarge : 4294967296 ≤ k.offset
    · refine ⟨k, List.mem_cons_self, hlarge, ?_, ?_⟩
      · rcases List.mem_cons.1 hi with rfl | hi
        · exact Nat.le_refl _
        · exact Nat.le_of_lt (hfirst i hi)
      · rw [Instruction.checkPlace, if_pos hlarge]
        rfl
    · -- the first instruction passes the check
      have hcheck := Instruction.checkPlace_ok_iff (r := ⟨⟩) |>.2 ⟨Nat.not_le.1 hlarge, hk⟩
      have hi : i ∈ is := by
        rcases List.mem_cons.1 hi with rfl | hi
        · exact absurd hoffset hlarge
        · exact hi
      obtain ⟨j, hj, hlarge', hle, herror⟩ := ih hreaches hascending hi
      refine ⟨j, List.mem_cons_of_mem k hj, hlarge', hle, ?_⟩
      rw [hcheck]
      exact herror

/-- Instructions that could be written cannot be assembled if one of them is placed farther back
than offsets of 32 bits go. -/
theorem exists_assemble_eq_error {is : List Instruction}
    (hreaches : ∀ i ∈ is, i.operand.Reaches i.opcode.form) {i : Instruction}
    (hi : i ∈ place 0 is) (hoffset : 4294967296 ≤ i.offset) :
    ∃ j ∈ place 0 is, 4294967296 ≤ j.offset ∧ j.offset ≤ i.offset ∧
      assemble is = .error (.codeTooLarge j.offset) := by
  have hplaced : ∀ j ∈ place 0 is, j.operand.Reaches j.opcode.form :=
    Instruction.forall_of_map_bare_eq (P := fun p => p.2.Reaches p.1.form) (map_bare_place 0 is)
      hreaches
  obtain ⟨j, hj, hlarge, hle, herror⟩ :=
    forM_checkPlace_eq_error hplaced (pairwise_place 0 is) hi hoffset
  refine ⟨j, hj, hlarge, hle, ?_⟩
  rw [assemble, herror]
  rfl

/-- Code that can be read is tiled by its instructions if they all begin at offsets of 32 bits.
Assembling them succeeds then and leaves them as they are; it gives back the code with blank
padding, from which the same instructions are read. Otherwise there is too much code for the first
instruction that begins farther back. -/
theorem assemble_of_decode {code : List UInt8} {is : List Instruction}
    (h : decode code = .ok is) :
    ((∀ i ∈ place 0 is, i.offset < 4294967296) →
      Tiles 0 is code.length ∧
        ∃ written, assemble is = .ok (is, written) ∧ Blanks is 0 code written ∧
          decode written = .ok is) ∧
    ∀ i ∈ place 0 is, 4294967296 ≤ i.offset →
      ∃ j ∈ place 0 is, 4294967296 ≤ j.offset ∧ j.offset ≤ i.offset ∧
        assemble is = .error (.codeTooLarge j.offset) := by
  obtain ⟨t, ht, hrest⟩ := decode_eq_ok_iff.1 h
  obtain ⟨bytes, written, hadvances, hwritten, hblanks, hagain⟩ := encodePlaced_of_delivers ht
  obtain rfl : code = bytes := hadvances.eq_of_rest_eq_nil hrest
  refine ⟨fun hoffsets => ?_, fun i hi hoffset => ?_⟩
  · have hfills := fills_of_forall_lt h hoffsets
    have hplace : place 0 is = is := hfills.place_eq
    rw [hplace] at hwritten hblanks hoffsets
    refine ⟨tiles_iff.2 ⟨hplace, hfills.endOf_eq⟩, written,
      assemble_eq_ok_iff.2 ⟨hplace.symm, hoffsets, hwritten⟩, hblanks, ?_⟩
    rw [decode_eq_ok_iff, hblanks.length_eq]
    exact ⟨_, hagain ⟨written, 0⟩ _ rfl (Input.advances_all written 0), rfl⟩
  · exact exists_assemble_eq_error (exists_encodePlaced_place_iff.1 ⟨written, hwritten⟩) hi hoffset

/-- A table switch at offset 1, with two bytes of padding that are not zero. -/
theorem assemble_of_decode_switch :
    decode [0, 170, 7, 9, 0, 0, 0, 19, 0, 0, 0, 3, 0, 0, 0, 3, 0, 0, 0, 20, 177] =
        .ok [⟨0, .nop, .none⟩, ⟨1, .tableswitch, .tableSwitch 19 3 3 [20]⟩,
          ⟨20, .return_void, .none⟩] ∧
      (∀ i ∈ place 0 [⟨0, .nop, .none⟩, ⟨1, .tableswitch, .tableSwitch 19 3 3 [20]⟩,
        ⟨20, .return_void, .none⟩], i.offset < 4294967296) ∧
      ∃ written,
        assemble [⟨0, .nop, .none⟩, ⟨1, .tableswitch, .tableSwitch 19 3 3 [20]⟩,
            ⟨20, .return_void, .none⟩] =
          .ok ([⟨0, .nop, .none⟩, ⟨1, .tableswitch, .tableSwitch 19 3 3 [20]⟩,
            ⟨20, .return_void, .none⟩], written) ∧
        written[2]? = some 0 ∧ written[7]? = some 19 := by
  have hdecode : decode [0, 170, 7, 9, 0, 0, 0, 19, 0, 0, 0, 3, 0, 0, 0, 3, 0, 0, 0, 20, 177] =
      .ok [⟨0, .nop, .none⟩, ⟨1, .tableswitch, .tableSwitch 19 3 3 [20]⟩,
        ⟨20, .return_void, .none⟩] := by
    decide +kernel
  have hoffsets : ∀ i ∈ place 0 [⟨0, .nop, .none⟩, ⟨1, .tableswitch, .tableSwitch 19 3 3 [20]⟩,
      ⟨20, .return_void, .none⟩], i.offset < 4294967296 := by
    decide +kernel
  obtain ⟨-, written, hassemble, hblanks, -⟩ := (assemble_of_decode hdecode).1 hoffsets
  refine ⟨hdecode, hoffsets, written, hassemble, ?_, ?_⟩
  · rw [hblanks.getElem?_eq 2 (by decide)]
    decide +kernel
  · rw [hblanks.getElem?_eq 7 (by decide)]
    decide +kernel

/-! ## Too much code -/

/-- Copies of an instruction that keeps the next one aligned are written as copies of its bytes. -/
theorem encodePlaced_replicate {i : Instruction} {bytes : List UInt8} {m : Nat}
    (hbytes : ∀ k, i.encode (4 * k) = .ok bytes) (hlength : bytes.length = 4 * m) (k n : Nat) :
    encodePlaced (place (4 * k) (List.replicate n i)) = .ok (List.replicate n bytes).flatten := by
  induction n generalizing k with
  | zero => rfl
  | succ n ih =>
    have hnext : 4 * k + i.encodedLength (4 * k) = 4 * (k + m) := by
      rw [← Instruction.length_of_encode (hbytes k), hlength, Nat.mul_add]
    rw [List.replicate_succ, place_cons, hnext, List.replicate_succ, List.flatten_cons]
    exact encodePlaced_cons_eq_ok_iff.2 ⟨bytes, _, hbytes k, ih (k + m), rfl⟩

/-- A table switch that takes 4096 bytes at an offset that is a multiple of four. -/
def pageSwitch : Instruction :=
  .ofOperand .tableswitch (.tableSwitch 0 0 1019 (List.replicate 1020 0))

/-- The bytes of the switch at such an offset. -/
def pageBytes : List UInt8 :=
  [0xaa, 0, 0, 0, 0, 0, 0, 0, 0, 0, 0, 0, 0, 0, 3, 0xfb] ++
    (List.replicate 1020 [0, 0, 0, 0]).flatten

/-- As many copies of the switch as make 4 GiB, and one more instruction behind them. -/
def pages : List Instruction := List.replicate 1048576 pageSwitch ++ [.simple .nop]

/-- The bytes of this code. -/
def pagesBytes : List UInt8 := (List.replicate 1048576 pageBytes).flatten ++ [0]

theorem length_pageBytes : pageBytes.length = 4096 := by
  rw [pageBytes, List.length_append, List.length_flatten, List.map_replicate,
    List.sum_replicate_nat]
  rfl

theorem encode_pageSwitch (k : Nat) : pageSwitch.encode (4 * k) = .ok pageBytes := by
  have hpadding : paddingAt (4 * k) = 3 := by
    rw [paddingAt, Nat.mul_mod_right]
  have hzero : i32Bytes 0 = [0, 0, 0, 0] := by decide
  have hhigh : i32Bytes 1019 = [0, 0, 3, 0xfb] := by decide
  refine Instruction.encode_eq_ok_iff.2 ⟨trivial, ?_⟩
  rw [hpadding]
  show pageBytes = 0xaa :: (List.replicate 3 0 ++ i32Bytes 0 ++ i32Bytes 0 ++ i32Bytes 1019 ++
    (List.replicate 1020 0).flatMap i32Bytes)
  rw [List.flatMap_replicate, hzero, hhigh]
  rfl

theorem encodePlaced_pages : encodePlaced (place 0 pages) = .ok pagesBytes ∧
    pagesBytes.length = 4294967297 ∧
    ⟨4294967296, .nop, .none⟩ ∈ place 0 pages := by
  have hswitches := encodePlaced_replicate (m := 1024) encode_pageSwitch length_pageBytes 0 1048576
  have hbytes : (List.replicate 1048576 pageBytes).flatten.length = 4294967296 := by
    rw [List.length_flatten, List.map_replicate, List.sum_replicate_nat, length_pageBytes]
  have hend : endOf 0 (List.replicate 1048576 pageSwitch) = 4294967296 := by
    rw [← endOf_place 0 0, length_of_encodePlaced (place_place 0 0 _) hswitches, hbytes]
  have hplace : place 0 pages =
      place 0 (List.replicate 1048576 pageSwitch) ++ [⟨4294967296, .nop, .none⟩] := by
    rw [pages, place_append, hend]
    rfl
  refine ⟨?_, ?_, ?_⟩
  · rw [hplace]
    exact encodePlaced_append hswitches rfl
  · rw [pagesBytes, List.length_append, hbytes]
    rfl
  · rw [hplace]
    exact List.mem_append_right _ List.mem_cons_self

/-- These 4 GiB and one byte of code can be read, but what is read cannot be assembled: there is too
much code for the last instruction. -/
theorem decode_pagesBytes_not_assemble :
    ∃ is, decode pagesBytes = .ok is ∧ is.map Instruction.bare = pages.map Instruction.bare ∧
      assemble is = .error (.codeTooLarge 4294967296) := by
  obtain ⟨hwritten, hlength, hlast⟩ := encodePlaced_pages
  have hpages : ∀ i ∈ pages, i.WellFormed ∧ i.operand.WithinCode 4294967297 := by
    intro i hi
    rcases List.mem_append.1 hi with hi | hi
    · obtain rfl := List.eq_of_mem_replicate hi
      refine ⟨by decide +kernel, ?_⟩
      show (List.replicate 1020 0).length ≤ _
      rw [List.length_replicate]
      decide
    · obtain rfl := List.mem_singleton.1 hi
      exact ⟨by decide, trivial⟩
  have hplaced : ∀ i ∈ place 0 pages, i.WellFormed ∧ i.operand.WithinCode pagesBytes.length := by
    rw [hlength]
    exact Instruction.forall_of_map_bare_eq
      (P := fun p => p.1.form.Suits p.2 ∧ p.2.WithinCode 4294967297) (map_bare_place 0 pages) hpages
  have hread := decode_wrapped_of_encodePlaced (place_place 0 0 pages) hplaced hwritten
  have hbare : ((place 0 pages).map Instruction.wrapped).map Instruction.bare =
      pages.map Instruction.bare := by
    rw [List.map_map, ← map_bare_place 0 pages]
    rfl
  refine ⟨_, hread, hbare, ?_⟩
  have hreaches : ∀ i ∈ (place 0 pages).map Instruction.wrapped,
      i.operand.Reaches i.opcode.form :=
    Instruction.forall_of_map_bare_eq (P := fun p => p.2.Reaches p.1.form)
      (hbare.trans (map_bare_place 0 pages).symm) (exists_encodePlaced_iff.1 ⟨_, hwritten⟩)
  rw [← place_congr hbare] at hlast
  obtain ⟨j, -, hle, hge, herror⟩ := exists_assemble_eq_error hreaches hlast (Nat.le_refl _)
  rwa [Nat.le_antisymm hge hle] at herror

end Code

end PatternGuard
