import Mathlib.Data.List.Nodup
import PatternGuard.Guard.Layout
import PatternGuard.Proofs.Code.Instruction

/-!
# Instruction streams and their places

`Code.place` puts instructions one after the other, and instructions are in place if it leaves them
where they are. What is read from code ends where the code ends, and is in place but for offsets
that are no words of 32 bits, which wrap (`wrapped_of_decode`). If there are none it is in place
(`Code.Fills`, `fills_of_decode`), and instructions in place are read back from their bytes
(`decode_of_encodePlaced`).
-/

set_option autoImplicit false

namespace PatternGuard

open Bytes Outcome Reader

/-! ## Places -/

/-- What an instruction is, wherever it stands. -/
def Instruction.bare (i : Instruction) : Opcode × Operand := (i.opcode, i.operand)

/-- What holds of instructions wherever they stand holds of the same instructions elsewhere. -/
theorem Instruction.forall_of_map_bare_eq {P : Opcode × Operand → Prop} {xs ys : List Instruction}
    (h : xs.map bare = ys.map bare) (hys : ∀ y ∈ ys, P y.bare) : ∀ x ∈ xs, P x.bare := by
  intro x hx
  have hmem : x.bare ∈ ys.map bare := h ▸ List.mem_map_of_mem hx
  obtain ⟨y, hy, hbare⟩ := List.mem_map.1 hmem
  exact hbare ▸ hys y hy

theorem Instruction.wellFormed_of_map_bare_eq {xs ys : List Instruction}
    (h : xs.map bare = ys.map bare) (hys : ∀ y ∈ ys, y.WellFormed) : ∀ x ∈ xs, x.WellFormed :=
  forall_of_map_bare_eq (P := fun p => p.1.form.Suits p.2) h hys

namespace Instruction

/-- Padding is longest at offset 0. -/
theorem encodedLength_le_zero (i : Instruction) (offset : Nat) :
    i.encodedLength offset ≤ i.encodedLength 0 := by
  have hpadding : paddingAt offset ≤ paddingAt 0 := by
    show paddingAt offset ≤ 3
    rw [paddingAt]
    omega
  rw [encodedLength, encodedLength, operandLength, operandLength]
  cases i.operand with
  | tableSwitch default low high targets =>
    simp only
    omega
  | lookupSwitch default pairs =>
    simp only
    omega
  | _ => exact Nat.le_refl _

theorem encodedLength_zero_le (i : Instruction) (offset : Nat) :
    i.encodedLength 0 ≤ 4 * i.encodedLength offset := by
  have hpadding : paddingAt 0 = 3 := rfl
  rw [encodedLength, encodedLength, operandLength, operandLength, hpadding]
  cases i.operand with
  | _ =>
    simp only
    omega

end Instruction

namespace Block

theorem endOf_nil (offset : Nat) : endOf offset [] = offset := rfl

theorem endOf_cons (offset : Nat) (i : Instruction) (is : List Instruction) :
    endOf offset (i :: is) = endOf (offset + i.encodedLength offset) is := rfl

theorem endOf_append (offset : Nat) (xs ys : List Instruction) :
    endOf offset (xs ++ ys) = endOf (endOf offset xs) ys := List.foldl_append

theorem le_endOf (offset : Nat) (is : List Instruction) : offset ≤ endOf offset is := by
  induction is generalizing offset with
  | nil => exact Nat.le_refl _
  | cons i is ih => exact Nat.le_trans (Nat.le_add_right _ _) (ih _)

end Block

namespace Code

open Block

theorem placeAfter_eq (done : List Instruction) (offset : Nat) (is : List Instruction) :
    placeAfter done offset is = done.reverse ++ place offset is := by
  induction is generalizing done offset with
  | nil => exact (List.append_nil _).symm
  | cons i is ih =>
    rw [place, placeAfter, placeAfter, ih, ih [_]]
    simp

theorem place_cons (offset : Nat) (i : Instruction) (is : List Instruction) :
    place offset (i :: is) =
      { i with offset } :: place (offset + i.encodedLength offset) is := by
  rw [place, placeAfter, placeAfter_eq]
  rfl

theorem place_append (offset : Nat) (xs ys : List Instruction) :
    place offset (xs ++ ys) = place offset xs ++ place (endOf offset xs) ys := by
  induction xs generalizing offset with
  | nil => rfl
  | cons x xs ih =>
    rw [List.cons_append, place_cons, place_cons, ih, List.cons_append, endOf_cons]

theorem endOf_place (offset offset' : Nat) (is : List Instruction) :
    endOf offset (place offset' is) = endOf offset is := by
  induction is generalizing offset offset' with
  | nil => rfl
  | cons i is ih =>
    rw [place_cons, endOf_cons, endOf_cons, ih]
    rfl

/-- Placing changes nothing but the offsets. -/
theorem map_bare_place (offset : Nat) (is : List Instruction) :
    (place offset is).map Instruction.bare = is.map Instruction.bare := by
  induction is generalizing offset with
  | nil => rfl
  | cons i is ih =>
    rw [place_cons, List.map_cons, List.map_cons, ih]
    rfl

/-- Where instructions stood before does not matter. -/
theorem place_congr {offset : Nat} {xs ys : List Instruction}
    (h : xs.map Instruction.bare = ys.map Instruction.bare) :
    place offset xs = place offset ys := by
  induction xs generalizing offset ys with
  | nil => rw [List.map_eq_nil_iff.1 h.symm]
  | cons x xs ih =>
    obtain ⟨y, ys, rfl, hy, hys⟩ := List.map_eq_cons_iff.1 h.symm
    obtain ⟨hopcode, hoperand⟩ := Prod.mk.inj hy
    rw [place_cons, place_cons, ih hys.symm, Instruction.encodedLength, Instruction.encodedLength,
      Instruction.operandLength, Instruction.operandLength, hopcode, hoperand]

theorem place_place (offset offset' : Nat) (is : List Instruction) :
    place offset (place offset' is) = place offset is :=
  place_congr (map_bare_place offset' is)

/-- Instructions in place stand between their beginning and their end. -/
theorem offset_of_mem_place {offset : Nat} {is : List Instruction} {i : Instruction}
    (h : i ∈ place offset is) : offset ≤ i.offset ∧ i.offset < endOf offset is := by
  induction is generalizing offset with
  | nil => exact absurd h List.not_mem_nil
  | cons j is ih =>
    rw [place_cons, List.mem_cons] at h
    rw [endOf_cons]
    have hpos : offset < offset + j.encodedLength offset := by
      rw [Instruction.encodedLength]
      omega
    rcases h with rfl | h
    · exact ⟨Nat.le_refl _, Nat.lt_of_lt_of_le hpos (le_endOf _ _)⟩
    · obtain ⟨hle, hlt⟩ := ih h
      exact ⟨by omega, hlt⟩

/-- The offsets of instructions in place ascend. -/
theorem pairwise_place (offset : Nat) (is : List Instruction) :
    (place offset is).Pairwise fun i j => i.offset < j.offset := by
  induction is generalizing offset with
  | nil => exact List.Pairwise.nil
  | cons i is ih =>
    rw [place_cons, List.pairwise_cons]
    refine ⟨?_, ih _⟩
    intro j hj
    obtain ⟨hle, -⟩ := offset_of_mem_place hj
    rw [Instruction.encodedLength] at hle
    show offset < j.offset
    omega

/-! ## Reading what is in place -/

/-- What is delivered one after the other is in place, but for the offsets that wrap. -/
theorem place_of_delivers {n : Nat} {is : List Instruction} {s t : Input}
    (h : Delivers (Instruction.decode n) s is t) :
    (place s.position is).map Instruction.wrapped = is ∧ endOf s.position is = t.position := by
  induction is generalizing s with
  | nil =>
    have hst : s = t := h
    rw [hst]
    exact ⟨rfl, rfl⟩
  | cons i is ih =>
    obtain ⟨u, hi, his⟩ := h
    obtain ⟨hplace, hend⟩ := ih his
    have hoffset := (Instruction.decode_ok_iff.1 hi).1
    rw [Instruction.position_of_decode hi] at hplace hend
    rw [place_cons, endOf_cons, List.map_cons, hplace, Instruction.wrapped, ← hoffset]
    exact ⟨rfl, hend⟩

theorem advances_of_delivers {n : Nat} {is : List Instruction} {s t : Input}
    (h : Delivers (Instruction.decode n) s is t) : ∃ bytes, s.Advances bytes t := by
  induction is generalizing s with
  | nil => exact ⟨[], Input.advances_nil_iff.2 h⟩
  | cons i is ih =>
    obtain ⟨u, hi, his⟩ := h
    obtain ⟨-, -, -, -, padding, -, hadvances⟩ := Instruction.decode_ok_iff.1 hi
    obtain ⟨bytes, hbytes⟩ := ih his
    exact ⟨_, Input.advances_append_iff.2 ⟨u, hadvances, hbytes⟩⟩

/-- What is true of every instruction that is read is true of all that are delivered. -/
theorem forall_of_delivers {n : Nat} {P : Instruction → Prop} {is : List Instruction} {s t : Input}
    (hP : ∀ {i : Instruction} {s t : Input}, Instruction.decode n s = .ok i t → P i)
    (h : Delivers (Instruction.decode n) s is t) : ∀ i ∈ is, P i := by
  induction is generalizing s with
  | nil =>
    intro i hi
    exact absurd hi List.not_mem_nil
  | cons i is ih =>
    obtain ⟨u, hi, his⟩ := h
    exact List.forall_mem_cons.2 ⟨hP hi, ih his⟩

theorem wellFormed_of_delivers {n : Nat} {is : List Instruction} {s t : Input}
    (h : Delivers (Instruction.decode n) s is t) : ∀ i ∈ is, i.WellFormed :=
  forall_of_delivers (fun hi => (Instruction.decode_ok_iff.1 hi).2.1) h

theorem encodePlaced_cons_eq_ok_iff {i : Instruction} {is : List Instruction}
    {bytes : List UInt8} :
    encodePlaced (i :: is) = .ok bytes ↔
      ∃ front back, i.encode i.offset = .ok front ∧ encodePlaced is = .ok back ∧
        bytes = front ++ back :=
  each_cons_eq_ok_iff

theorem encodePlaced_append {xs ys : List Instruction} {front back : List UInt8}
    (hxs : encodePlaced xs = .ok front) (hys : encodePlaced ys = .ok back) :
    encodePlaced (xs ++ ys) = .ok (front ++ back) := by
  induction xs generalizing front with
  | nil =>
    obtain rfl := Except.ok.inj hxs
    exact hys
  | cons x xs ih =>
    obtain ⟨first, rest, hfirst, hrest, rfl⟩ := encodePlaced_cons_eq_ok_iff.1 hxs
    exact encodePlaced_cons_eq_ok_iff.2
      ⟨first, rest ++ back, hfirst, ih hrest, List.append_assoc _ _ _⟩

/-- Instructions can be written exactly if their displacements fit. -/
theorem exists_encodePlaced_iff {is : List Instruction} :
    (∃ bytes, encodePlaced is = .ok bytes) ↔ ∀ i ∈ is, i.operand.Reaches i.opcode.form := by
  induction is with
  | nil =>
    apply iff_of_true
    · exact ⟨[], rfl⟩
    · simp
  | cons i is ih =>
    rw [List.forall_mem_cons, ← ih]
    constructor
    · rintro ⟨bytes, h⟩
      obtain ⟨front, back, hfront, hback, -⟩ := encodePlaced_cons_eq_ok_iff.1 h
      exact ⟨(Instruction.encode_eq_ok_iff.1 hfront).1, back, hback⟩
    · rintro ⟨hi, back, hback⟩
      obtain ⟨front, hfront⟩ : ∃ front, i.encode i.offset = .ok front :=
        ⟨_, Instruction.encode_eq_ok_iff.2 ⟨hi, rfl⟩⟩
      exact ⟨_, encodePlaced_cons_eq_ok_iff.2 ⟨front, back, hfront, hback, rfl⟩⟩

/-- Whether code can be written does not depend on where it is placed. -/
theorem exists_encodePlaced_place_iff {start : Nat} {is : List Instruction} :
    (∃ bytes, encodePlaced (place start is) = .ok bytes) ↔
      ∀ i ∈ is, i.operand.Reaches i.opcode.form := by
  rw [exists_encodePlaced_iff]
  have hbare := map_bare_place start is
  constructor
  · exact Instruction.forall_of_map_bare_eq (P := fun p => p.2.Reaches p.1.form) hbare.symm
  · exact Instruction.forall_of_map_bare_eq (P := fun p => p.2.Reaches p.1.form) hbare

theorem length_of_encodePlaced {offset : Nat} {is : List Instruction} {bytes : List UInt8}
    (hplace : place offset is = is) (h : encodePlaced is = .ok bytes) :
    endOf offset is = offset + bytes.length := by
  induction is generalizing offset bytes with
  | nil =>
    obtain rfl := Except.ok.inj h
    rfl
  | cons i is ih =>
    rw [place_cons, List.cons.injEq] at hplace
    obtain ⟨hi, his⟩ := hplace
    obtain ⟨front, back, hfront, hback, rfl⟩ := encodePlaced_cons_eq_ok_iff.1 h
    have hoffset : i.offset = offset := by rw [← hi]
    rw [endOf_cons, ih his hback, ← hoffset, ← Instruction.length_of_encode hfront,
      List.length_append, Nat.add_assoc]

/-- Instructions in place are delivered from their bytes, but for the offsets that wrap. -/
theorem delivers_of_encodePlaced {n : Nat} {is : List Instruction} {bytes : List UInt8}
    {s t : Input} (hplace : place s.position is = is)
    (his : ∀ i ∈ is, i.WellFormed ∧ i.operand.WithinCode n) (h : encodePlaced is = .ok bytes)
    (hadvances : s.Advances bytes t) :
    Delivers (Instruction.decode n) s (is.map Instruction.wrapped) t := by
  induction is generalizing s bytes with
  | nil =>
    obtain rfl := Except.ok.inj h
    exact Input.advances_nil_iff.1 hadvances
  | cons i is ih =>
    rw [place_cons, List.cons.injEq] at hplace
    obtain ⟨hi, hrest⟩ := hplace
    obtain ⟨front, back, hfront, hback, rfl⟩ := encodePlaced_cons_eq_ok_iff.1 h
    obtain ⟨⟨hwell, hwithin⟩, hall⟩ := List.forall_mem_cons.1 his
    obtain ⟨u, hu, hadvances⟩ := Input.advances_append_iff.1 hadvances
    have hoffset : i.offset = s.position := by rw [← hi]
    -- the reader stands where the instruction stands, so that its padding is the one written
    have hread := Instruction.decode_of_encode hwell hwithin hfront hoffset hu
    rw [← i.encodedLength_wrapped, ← Instruction.position_of_decode hread] at hrest
    exact ⟨u, hread, ih hrest hall hback hadvances⟩

/-- The switches of code that is written have room for their rows in it. -/
theorem withinCode_of_encodePlaced {n : Nat} (hn : n < 4294967296) {is : List Instruction}
    {bytes : List UInt8} (h : encodePlaced is = .ok bytes) (hlength : bytes.length ≤ n) :
    ∀ i ∈ is, i.operand.WithinCode n := by
  induction is generalizing bytes with
  | nil => exact fun i hi => absurd hi List.not_mem_nil
  | cons i is ih =>
    obtain ⟨front, back, hfront, hback, rfl⟩ := encodePlaced_cons_eq_ok_iff.1 h
    rw [List.length_append, Instruction.length_of_encode hfront] at hlength
    have hfirst : i.encodedLength i.offset ≤ n := by omega
    exact List.forall_mem_cons.2
      ⟨Instruction.withinCode_of_length_le hn hfirst, ih hback (by omega)⟩

theorem decode_eq_ok_iff {code : List UInt8} {is : List Instruction} :
    decode code = .ok is ↔
      ∃ t, Delivers (Instruction.decode code.length) ⟨code, 0⟩ is t ∧ t.rest = [] := by
  rw [decode, onBytes_ok_iff]
  exact exists_congr fun t => untilEnd_ok_iff (Instruction.consumes_decode _)

/-- The instructions stand one after the other from offset 0 on, up to the given length. -/
structure Fills (is : List Instruction) (length : Nat) : Prop where
  place_eq : place 0 is = is
  endOf_eq : endOf 0 is = length

/-- The offsets of instructions in place ascend. -/
theorem Fills.ascending {is : List Instruction} {length : Nat} (h : Fills is length) :
    is.Pairwise fun i j => i.offset < j.offset := by
  rw [← h.place_eq]
  exact pairwise_place 0 is

/-- Instructions whose offsets ascend are told apart by them. -/
theorem eq_of_offset_eq {is : List Instruction}
    (hascending : is.Pairwise fun i j => i.offset < j.offset) {i j : Instruction} (hi : i ∈ is)
    (hj : j ∈ is) (hoffset : i.offset = j.offset) : i = j := by
  have hoffsets : (is.map Instruction.offset).Nodup :=
    List.pairwise_map.2 (hascending.imp fun hlt => Nat.ne_of_lt hlt)
  exact List.inj_on_of_nodup_map hoffsets hi hj hoffset

theorem Fills.offset_lt {is : List Instruction} {length : Nat} (h : Fills is length)
    {i : Instruction} (hi : i ∈ is) : i.offset < length := by
  rw [← h.endOf_eq]
  rw [← h.place_eq] at hi
  exact (offset_of_mem_place hi).2

theorem Fills.offset_eq_zero {i : Instruction} {is : List Instruction} {length : Nat}
    (h : Fills (i :: is) length) : i.offset = 0 := by
  have hplace := h.place_eq
  rw [place_cons, List.cons.injEq] at hplace
  rw [← hplace.1]

theorem map_wrapped_eq_self {is : List Instruction} (h : ∀ i ∈ is, i.offset < 4294967296) :
    is.map Instruction.wrapped = is :=
  (List.map_congr_left fun i hi => Instruction.wrapped_eq_self (h i hi)).trans (List.map_id' is)

/-- What is read from code takes up all of it, in place but for the offsets that wrap. -/
theorem wrapped_of_decode {code : List UInt8} {is : List Instruction} (h : decode code = .ok is) :
    (place 0 is).map Instruction.wrapped = is ∧ endOf 0 is = code.length := by
  obtain ⟨t, ht, hrest⟩ := decode_eq_ok_iff.1 h
  obtain ⟨hplace, hend⟩ := place_of_delivers ht
  obtain ⟨bytes, hadvances⟩ := advances_of_delivers ht
  refine ⟨hplace, ?_⟩
  rw [hend, hadvances.position_eq, Nat.zero_add, ← hadvances.eq_of_rest_eq_nil hrest]

/-- What is read from code fills it if no offset wraps. -/
theorem fills_of_forall_lt {code : List UInt8} {is : List Instruction} (h : decode code = .ok is)
    (hoffsets : ∀ i ∈ place 0 is, i.offset < 4294967296) : Fills is code.length := by
  obtain ⟨hplace, hend⟩ := wrapped_of_decode h
  rw [map_wrapped_eq_self hoffsets] at hplace
  exact ⟨hplace, hend⟩

/-- What is read from code of at most 4 GiB fills it. -/
theorem fills_of_decode {code : List UInt8} {is : List Instruction} (h : decode code = .ok is)
    (hlength : code.length ≤ 4294967296) : Fills is code.length := by
  refine fills_of_forall_lt h fun i hi => ?_
  have hlt := (offset_of_mem_place hi).2
  rw [(wrapped_of_decode h).2] at hlt
  omega

theorem wellFormed_of_decode {code : List UInt8} {is : List Instruction}
    (h : decode code = .ok is) : ∀ i ∈ is, i.WellFormed := by
  obtain ⟨t, ht, -⟩ := decode_eq_ok_iff.1 h
  exact wellFormed_of_delivers ht

/-- The code that instructions are read from has room for the rows of their switches. -/
theorem withinCode_of_decode {code : List UInt8} {is : List Instruction}
    (h : decode code = .ok is) : ∀ i ∈ is, i.operand.WithinCode code.length := by
  obtain ⟨t, ht, -⟩ := decode_eq_ok_iff.1 h
  exact forall_of_delivers (fun hi => (Instruction.decode_ok_iff.1 hi).2.2.2.1) ht

/-- Instructions in place are read back from their bytes, but for the offsets that wrap, if the code
has room for the rows of their switches. -/
theorem decode_wrapped_of_encodePlaced {is : List Instruction} {code : List UInt8}
    (hplace : place 0 is = is)
    (his : ∀ i ∈ is, i.WellFormed ∧ i.operand.WithinCode code.length)
    (h : encodePlaced is = .ok code) : decode code = .ok (is.map Instruction.wrapped) :=
  decode_eq_ok_iff.2
    ⟨_, delivers_of_encodePlaced hplace his h (Input.advances_all code 0), rfl⟩

/-- Instructions in place are read back from their bytes. -/
theorem decode_of_encodePlaced {is : List Instruction} {code : List UInt8}
    (hplace : place 0 is = is) (his : ∀ i ∈ is, i.WellFormed)
    (h : encodePlaced is = .ok code) (hlength : code.length < 4294967296) :
    decode code = .ok is := by
  have hwithin := withinCode_of_encodePlaced hlength h (Nat.le_refl _)
  have hoffsets : ∀ i ∈ is, i.offset < 4294967296 := by
    intro i hi
    have hend := length_of_encodePlaced hplace h
    rw [← hplace] at hi
    have hlt := (offset_of_mem_place hi).2
    omega
  rw [decode_wrapped_of_encodePlaced hplace (fun i hi => ⟨his i hi, hwithin i hi⟩) h,
    map_wrapped_eq_self hoffsets]

end Code

end PatternGuard
