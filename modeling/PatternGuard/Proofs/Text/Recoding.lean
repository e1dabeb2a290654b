import PatternGuard.Proofs.Outcome
import PatternGuard.Proofs.Text.ModifiedUtf8

/-!
# Writing text that was read

Bytes that are read as a text stand for its code units in one of three forms each (`Forms`), and may
be longer than they need to be. Written again, each unit takes its shortest form, and a surrogate
that was replaced takes as many bytes as its replacement. So a text never takes more bytes than it
was read from (`length_encode_le`). No form has a zero byte, or a byte above EF
(`mem_encode_bounds`).
-/

set_option autoImplicit false

namespace PatternGuard.Text.ModifiedUtf8

/-! ## The bytes of a unit -/

/-- A unit takes one byte, two or three, and NUL takes two. -/
theorem length_encodeUnit (u : UInt16) : (encodeUnit u).length =
    if 0x01 ≤ u.toNat ∧ u.toNat ≤ 0x7F then 1 else if u.toNat ≤ 0x7FF then 2 else 3 := by
  simp only [encodeUnit, Bool.and_eq_true, decide_eq_true_eq]
  split
  · rfl
  · split
    · rfl
    · rfl

/-- A surrogate takes as many bytes as what it is replaced by. -/
theorem BecomesUnit.length_encodeUnit {u v : UInt16} (h : BecomesUnit u v) :
    (encodeUnit v).length = (encodeUnit u).length := by
  rcases h with rfl | ⟨hsurrogate, rfl⟩
  · rfl
  · have hlarge : 0x7FF < u.toNat := by
      rw [isHighSurrogate_iff, isLowSurrogate_iff] at hsurrogate
      omega
    have hthree : (encodeUnit 0xFFFD).length = 3 := by decide
    rw [hthree, ModifiedUtf8.length_encodeUnit, if_neg (by omega), if_neg (by omega)]

theorem length_flatMap_encodeUnit {us vs : List UInt16} (h : List.Forall₂ BecomesUnit us vs) :
    (vs.flatMap encodeUnit).length = (us.flatMap encodeUnit).length := by
  induction h with
  | nil => rfl
  | cons huv _ ih =>
    rw [List.flatMap_cons, List.flatMap_cons, List.length_append, List.length_append, ih,
      BecomesUnit.length_encodeUnit huv]

/-- All bytes of a unit lie between 01 and EF. -/
theorem mem_encodeUnit_bounds {u : UInt16} {b : UInt8} (h : b ∈ encodeUnit u) :
    b ≠ 0 ∧ b ≤ 0xEF := by
  have hu := u.toNat_lt
  -- a byte is made of a small number that is not zero
  have key : ∀ n, 0 < n → n ≤ 0xEF → b = UInt8.ofNat n → b ≠ 0 ∧ b ≤ 0xEF := by
    rintro n hpos hle rfl
    have hn : (UInt8.ofNat n).toNat = n := toNat_byte (by omega)
    refine ⟨?_, ?_⟩
    · intro hzero
      rw [hzero] at hn
      exact absurd hn (by show ¬0 = n; omega)
    · rw [UInt8.le_iff_toNat_le, hn]
      exact hle
  simp only [encodeUnit, Bool.and_eq_true, decide_eq_true_eq] at h
  split at h
  · rename_i hone
    exact key _ (by omega) (by omega) (List.mem_singleton.1 h)
  · split at h
    · rename_i htwo
      simp only [List.mem_cons, List.not_mem_nil, or_false] at h
      rcases h with h | h
      · exact key _ (by omega) (by omega) h
      · exact key _ (by omega) (by omega) h
    · simp only [List.mem_cons, List.not_mem_nil, or_false] at h
      rcases h with h | h | h
      · exact key _ (by omega) (by omega) h
      · exact key _ (by omega) (by omega) h
      · exact key _ (by omega) (by omega) h

/-- No byte of an encoded text is zero or above EF. -/
theorem mem_encode_bounds {text : String} {b : UInt8} (h : b ∈ encode text) :
    b ≠ 0 ∧ b ≤ 0xEF := by
  obtain ⟨u, -, hb⟩ := List.mem_flatMap.1 h
  exact mem_encodeUnit_bounds hb

/-! ## What was read -/

/-- The bytes stand for the code units, each in one of the three forms, whether or not it is the
shortest. -/
inductive Forms : List UInt8 → List UInt16 → Prop
  | nil : Forms [] []
  | one {b : UInt8} {bytes : List UInt8} {us : List UInt16}
      (first : (0x01 ≤ b && b ≤ 0x7F) = true) (rest : Forms bytes us) :
      Forms (b :: bytes) (b.toUInt16 :: us)
  | two {b c : UInt8} {bytes : List UInt8} {us : List UInt16}
      (first : (0xC0 ≤ b && b ≤ 0xDF) = true) (second : isContinuation c = true)
      (rest : Forms bytes us) : Forms (b :: c :: bytes) (unitOfTwo b c :: us)
  | three {b c d : UInt8} {bytes : List UInt8} {us : List UInt16}
      (first : (0xE0 ≤ b && b ≤ 0xEF) = true) (second : isContinuation c = true)
      (third : isContinuation d = true) (rest : Forms bytes us) :
      Forms (b :: c :: d :: bytes) (unitOfThree b c d :: us)

/-- The bytes stand for the units that were read behind those that were done. -/
theorem forms_of_unitsAfter {position : Nat} {done us : List UInt16} {bytes : List UInt8}
    (h : unitsAfter position done bytes = .ok us) :
    ∃ vs, Forms bytes vs ∧ us = done.reverse ++ vs := by
  -- the unit that is done first is the first one of those that follow
  have step : ∀ {u : UInt16} {done : List UInt16} {bytes rest : List UInt8},
      (∀ vs, Forms rest vs → Forms bytes (u :: vs)) →
      (∃ vs, Forms rest vs ∧ us = (u :: done).reverse ++ vs) →
      ∃ vs, Forms bytes vs ∧ us = done.reverse ++ vs := by
    rintro u done bytes rest hforms ⟨vs, hvs, hus⟩
    refine ⟨u :: vs, hforms vs hvs, ?_⟩
    rw [hus, List.reverse_cons, List.append_assoc, List.singleton_append]
  fun_induction unitsAfter position done bytes with
  | case1 position done => exact ⟨[], .nil, by rw [← Except.ok.inj h, List.append_nil]⟩
  | case2 position done b rest hfirst ih => exact step (fun _ => .one hfirst) (ih h)
  | case4 position done b _ hfirst c rest hsecond ih =>
    exact step (fun _ => .two hfirst hsecond) (ih h)
  | case9 position done b _ _ hfirst c d rest hsecond hthird ih =>
    exact step (fun _ => .three hfirst hsecond hthird) (ih h)
  | _ => exact absurd h (by simp)

/-- The shortest forms of the units take no more bytes than those that were read. -/
theorem Forms.length_flatMap_le {bytes : List UInt8} {us : List UInt16} (h : Forms bytes us) :
    (us.flatMap encodeUnit).length ≤ bytes.length := by
  induction h with
  | nil => exact Nat.le_refl 0
  | @one b bytes us first _ ih =>
    simp only [Bool.and_eq_true, decide_eq_true_eq, UInt8.le_iff_toNat_le] at first
    have hone : (encodeUnit b.toUInt16).length = 1 := by
      rw [length_encodeUnit, if_pos (by rw [UInt8.toNat_toUInt16]; exact first)]
    rw [List.flatMap_cons, List.length_append, List.length_cons, hone]
    omega
  | @two b c bytes us _ _ _ ih =>
    -- two bytes hold eleven bits, so that the unit never needs a third
    have hunit : (unitOfTwo b c).toNat ≤ 0x7FF := by
      rw [unitOfTwo, UInt16.toNat_ofNat']
      omega
    have htwo : (encodeUnit (unitOfTwo b c)).length ≤ 2 := by
      rw [length_encodeUnit, if_pos hunit]
      split <;> omega
    rw [List.flatMap_cons, List.length_append, List.length_cons, List.length_cons]
    omega
  | @three b c d bytes us _ _ _ _ ih =>
    have hthree : (encodeUnit (unitOfThree b c d)).length ≤ 3 := by
      rw [length_encodeUnit]
      split
      · omega
      · split <;> omega
    rw [List.flatMap_cons, List.length_append, List.length_cons, List.length_cons,
      List.length_cons]
    omega

/-- A text takes no more bytes than it was read from. -/
theorem length_encode_le {bytes : List UInt8} {text : String} (h : decode bytes = .ok text) :
    (encode text).length ≤ bytes.length := by
  obtain ⟨us, hus, htext⟩ := Outcome.bind_ok_iff.1 h
  obtain ⟨vs, hforms, rfl⟩ := forms_of_unitsAfter hus
  obtain rfl := Outcome.pure_ok_iff.1 htext
  rw [encode, String.toList_ofList, length_flatMap_encodeUnit (forall₂_units_ofUnits _)]
  exact hforms.length_flatMap_le

end PatternGuard.Text.ModifiedUtf8
