import PatternGuard.Proofs.Text.Utf16
import PatternGuard.Text.ModifiedUtf8

/-!
# Reading encoded text

Each code unit is written in one of three forms, and each form is read back as the unit that it
stands for (`unitsAfter_encodeUnit`). So a text is read back from its encoding (`decode_encode`).
Other bytes may be read as the same text: longer forms than necessary, and surrogates out of pairs,
which are replaced (`encode_eq_iff`).
-/

set_option autoImplicit false

namespace PatternGuard.Text.ModifiedUtf8

/-! ## Bytes -/

section Bytes

variable {n : Nat}

theorem toNat_byte (h : n < 256) : (UInt8.ofNat n).toNat = n := UInt8.toNat_ofNat_of_lt' h

theorem isContinuation_ofNat (h : n < 64) : isContinuation (UInt8.ofNat (0x80 + n)) = true := by
  have hn : (UInt8.ofNat (0x80 + n)).toNat = 0x80 + n := toNat_byte (by omega)
  simp only [isContinuation, Bool.and_eq_true, decide_eq_true_eq, UInt8.le_iff_toNat_le, hn]
  exact ⟨Nat.le_add_right _ _, show 0x80 + n ≤ 0xBF by omega⟩

theorem unitOfTwo_ofNat {high low : Nat} (hhigh : high < 32) (hlow : low < 64) :
    unitOfTwo (UInt8.ofNat (0xC0 + high)) (UInt8.ofNat (0x80 + low)) =
      UInt16.ofNat (high * 64 + low) := by
  have h₁ : (UInt8.ofNat (0xC0 + high)).toNat = 0xC0 + high :=
    toNat_byte (by omega)
  have h₂ : (UInt8.ofNat (0x80 + low)).toNat = 0x80 + low := toNat_byte (by omega)
  rw [unitOfTwo, h₁, h₂]
  exact congrArg UInt16.ofNat (by omega)

theorem unitOfThree_ofNat {high middle low : Nat} (hhigh : high < 16) (hmiddle : middle < 64)
    (hlow : low < 64) :
    unitOfThree (UInt8.ofNat (0xE0 + high)) (UInt8.ofNat (0x80 + middle))
        (UInt8.ofNat (0x80 + low)) =
      UInt16.ofNat (high * 4096 + middle * 64 + low) := by
  have h₁ : (UInt8.ofNat (0xE0 + high)).toNat = 0xE0 + high :=
    toNat_byte (by omega)
  have h₂ : (UInt8.ofNat (0x80 + middle)).toNat = 0x80 + middle :=
    toNat_byte (by omega)
  have h₃ : (UInt8.ofNat (0x80 + low)).toNat = 0x80 + low := toNat_byte (by omega)
  rw [unitOfThree, h₁, h₂, h₃]
  exact congrArg UInt16.ofNat (by omega)

/-- Whether a byte lies in a range, by the number that it was made of. -/
theorem byte_mem_range_iff {low high : UInt8} (hn : n < 256) :
    (low ≤ UInt8.ofNat n && UInt8.ofNat n ≤ high) = true ↔
      low.toNat ≤ n ∧ n ≤ high.toNat := by
  rw [Bool.and_eq_true, decide_eq_true_eq, decide_eq_true_eq, UInt8.le_iff_toNat_le,
    UInt8.le_iff_toNat_le, toNat_byte hn]

end Bytes

/-! ## The three forms -/

section Forms

variable {position : Nat} {done : List UInt16} {rest : List UInt8}

theorem unitsAfter_one {n : Nat} (hpos : 0x01 ≤ n) (hle : n ≤ 0x7F) :
    unitsAfter position done (UInt8.ofNat n :: rest) =
      unitsAfter (position + 1) (UInt16.ofNat n :: done) rest := by
  have hform : (0x01 ≤ UInt8.ofNat n && UInt8.ofNat n ≤ 0x7F) = true :=
    (byte_mem_range_iff (by omega)).2 ⟨hpos, hle⟩
  have hunit : (UInt8.ofNat n).toUInt16 = UInt16.ofNat n := by
    rw [← UInt16.toNat_inj, UInt8.toNat_toUInt16, toNat_byte (by omega),
      UInt16.toNat_ofNat_of_lt' (show n < 65536 by omega)]
  rw [unitsAfter.eq_def]
  simp only
  rw [if_pos hform, hunit]

theorem unitsAfter_two {high low : Nat} (hhigh : high < 32) (hlow : low < 64) :
    unitsAfter position done (UInt8.ofNat (0xC0 + high) :: UInt8.ofNat (0x80 + low) :: rest) =
      unitsAfter (position + 2) (UInt16.ofNat (high * 64 + low) :: done) rest := by
  have hone : ¬(0x01 ≤ UInt8.ofNat (0xC0 + high) && UInt8.ofNat (0xC0 + high) ≤ 0x7F) = true := by
    rw [byte_mem_range_iff (by omega)]
    exact fun h => absurd h.2 (show ¬0xC0 + high ≤ 0x7F by omega)
  have hform : (0xC0 ≤ UInt8.ofNat (0xC0 + high) && UInt8.ofNat (0xC0 + high) ≤ 0xDF) = true := by
    rw [byte_mem_range_iff (by omega)]
    exact ⟨Nat.le_add_right 0xC0 high, show 0xC0 + high ≤ 0xDF by omega⟩
  rw [unitsAfter.eq_def]
  simp only
  rw [if_neg hone, if_pos hform, if_pos (isContinuation_ofNat hlow), unitOfTwo_ofNat hhigh hlow]

theorem unitsAfter_three {high middle low : Nat} (hhigh : high < 16) (hmiddle : middle < 64)
    (hlow : low < 64) :
    unitsAfter position done (UInt8.ofNat (0xE0 + high) :: UInt8.ofNat (0x80 + middle) ::
        UInt8.ofNat (0x80 + low) :: rest) =
      unitsAfter (position + 3) (UInt16.ofNat (high * 4096 + middle * 64 + low) :: done) rest := by
  have hone : ¬(0x01 ≤ UInt8.ofNat (0xE0 + high) && UInt8.ofNat (0xE0 + high) ≤ 0x7F) = true := by
    rw [byte_mem_range_iff (by omega)]
    exact fun h => absurd h.2 (show ¬0xE0 + high ≤ 0x7F by omega)
  have htwo : ¬(0xC0 ≤ UInt8.ofNat (0xE0 + high) && UInt8.ofNat (0xE0 + high) ≤ 0xDF) = true := by
    rw [byte_mem_range_iff (by omega)]
    exact fun h => absurd h.2 (show ¬0xE0 + high ≤ 0xDF by omega)
  have hform : (0xE0 ≤ UInt8.ofNat (0xE0 + high) && UInt8.ofNat (0xE0 + high) ≤ 0xEF) = true := by
    rw [byte_mem_range_iff (by omega)]
    exact ⟨Nat.le_add_right 0xE0 high, show 0xE0 + high ≤ 0xEF by omega⟩
  rw [unitsAfter.eq_def]
  simp only
  rw [if_neg hone, if_neg htwo, if_pos hform, if_pos (isContinuation_ofNat hmiddle),
    if_pos (isContinuation_ofNat hlow), unitOfThree_ofNat hhigh hmiddle hlow]

end Forms

/-! ## Texts -/

/-- A code unit is read back from its bytes. -/
theorem unitsAfter_encodeUnit (position : Nat) (done : List UInt16) (u : UInt16)
    (rest : List UInt8) :
    unitsAfter position done (encodeUnit u ++ rest) =
      unitsAfter (position + (encodeUnit u).length) (u :: done) rest := by
  have hu := u.toNat_lt
  have hunit : UInt16.ofNat u.toNat = u := UInt16.ofNat_toNat
  rw [encodeUnit]
  simp only [Bool.and_eq_true, decide_eq_true_eq]
  split
  · rename_i hone
    rw [List.singleton_append, unitsAfter_one hone.1 hone.2, hunit]
    rfl
  · split
    · have hvalue : u.toNat / 64 * 64 + u.toNat % 64 = u.toNat := by omega
      rw [List.cons_append, List.singleton_append, unitsAfter_two (by omega) (by omega), hvalue,
        hunit]
      rfl
    · have hvalue : u.toNat / 4096 * 4096 + u.toNat / 64 % 64 * 64 + u.toNat % 64 = u.toNat := by
        omega
      rw [List.cons_append, List.cons_append, List.singleton_append,
        unitsAfter_three (by omega) (by omega) (by omega), hvalue, hunit]
      rfl

/-- Units are read back from their bytes, one after the other. -/
theorem unitsAfter_flatMap_encodeUnit (position : Nat) (done us : List UInt16) :
    unitsAfter position done (us.flatMap encodeUnit) = .ok (done.reverse ++ us) := by
  induction us generalizing position done with
  | nil => rw [List.flatMap_nil, unitsAfter, List.append_nil]
  | cons u us ih =>
    rw [List.flatMap_cons, unitsAfter_encodeUnit, ih, List.reverse_cons, List.append_assoc,
      List.singleton_append]

/-- A text is read back from its bytes. -/
theorem decode_encode (text : String) : decode (encode text) = .ok text := by
  rw [decode, encode, unitsAfter_flatMap_encodeUnit]
  show Except.ok (String.ofList (ofUnits ([].reverse ++ units text.toList))) = .ok text
  rw [List.reverse_nil, List.nil_append, ofUnits_units, String.ofList_toList]

/-- Characters of ASCII but NUL are written in one byte each. -/
theorem length_encode_of_ascii {text : String}
    (h : ∀ c ∈ text.toList, 0x01 ≤ c.toNat ∧ c.toNat ≤ 0x7F) :
    (encode text).length = text.toList.length := by
  rw [encode, units]
  generalize text.toList = cs at h ⊢
  induction cs with
  | nil => rfl
  | cons c cs ih =>
    obtain ⟨⟨hpos, hle⟩, hcs⟩ := List.forall_mem_cons.1 h
    have hunits : charUnits c = [UInt16.ofNat c.toNat] := if_pos (by omega)
    have hunit : (UInt16.ofNat c.toNat).toNat = c.toNat :=
      UInt16.toNat_ofNat_of_lt' (by show c.toNat < 65536; omega)
    have hbytes : encodeUnit (UInt16.ofNat c.toNat) = [UInt8.ofNat c.toNat] := by
      rw [encodeUnit, hunit]
      simp [hpos, hle]
    rw [List.flatMap_cons, List.flatMap_append, List.length_append, ih hcs, hunits,
      List.flatMap_singleton, hbytes, List.length_singleton, List.length_cons, Nat.add_comm]

theorem length_encode_replicate (n : Nat) :
    (encode (String.ofList (List.replicate n 'a'))).length = n := by
  rw [length_encode_of_ascii, String.toList_ofList, List.length_replicate]
  intro c hc
  rw [String.toList_ofList] at hc
  rw [List.eq_of_mem_replicate hc]
  decide

/-- The text that was read is written as the same bytes exactly if these are the bytes, in the
shortest forms, of code units whose surrogates are paired. -/
theorem encode_eq_iff {bytes : List UInt8} {text : String} (h : decode bytes = .ok text) :
    encode text = bytes ↔ ∃ us, Paired us ∧ bytes = us.flatMap encodeUnit := by
  constructor
  · rintro rfl
    exact ⟨units text.toList, paired_units _, rfl⟩
  · rintro ⟨us, hus, rfl⟩
    obtain ⟨cs, rfl⟩ := hus.exists_units
    have hencode : encode (String.ofList cs) = (units cs).flatMap encodeUnit := by
      rw [encode, String.toList_ofList]
    rw [← hencode, decode_encode] at h
    rw [← Except.ok.inj h, hencode]

end PatternGuard.Text.ModifiedUtf8
