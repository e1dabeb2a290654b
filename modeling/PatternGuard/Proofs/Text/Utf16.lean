import Mathlib.Data.List.Forall2
import PatternGuard.Text.Utf16

/-!
# Which code units are texts

A sequence of code units is that of a text exactly if every surrogate stands in a pair (`Paired`).
Such a sequence is read as this text (`units_ofUnits`), and a text is read back from its units
(`ofUnits_units`). In all other sequences a surrogate is replaced.
-/

set_option autoImplicit false

namespace PatternGuard.Text

/-- Every surrogate stands in a pair. -/
inductive Paired : List UInt16 → Prop
  | nil : Paired []
  | single {u : UInt16} {us : List UInt16} (notHigh : isHighSurrogate u = false)
      (notLow : isLowSurrogate u = false) (rest : Paired us) : Paired (u :: us)
  | pair {u v : UInt16} {us : List UInt16} (high : isHighSurrogate u = true)
      (low : isLowSurrogate v = true) (rest : Paired us) : Paired (u :: v :: us)

/-! ## Surrogates as numbers -/

theorem isHighSurrogate_iff {u : UInt16} :
    isHighSurrogate u = true ↔ 0xD800 ≤ u.toNat ∧ u.toNat ≤ 0xDBFF := by
  rw [isHighSurrogate, Bool.and_eq_true, decide_eq_true_eq, decide_eq_true_eq]
  exact Iff.rfl

theorem isLowSurrogate_iff {u : UInt16} :
    isLowSurrogate u = true ↔ 0xDC00 ≤ u.toNat ∧ u.toNat ≤ 0xDFFF := by
  rw [isLowSurrogate, Bool.and_eq_true, decide_eq_true_eq, decide_eq_true_eq]
  exact Iff.rfl

theorem toNat_ofNat_char {n : Nat} (h : n.isValidChar) : (Char.ofNat n).toNat = n := by
  rw [Char.ofNat, dif_pos h]
  rfl

/-- A number outside the surrogates, as the unit that it is. -/
theorem not_surrogate_ofNat {n : Nat} (hn : n < 0x10000) (h : n < 0xD800 ∨ 0xDFFF < n) :
    isHighSurrogate (UInt16.ofNat n) = false ∧ isLowSurrogate (UInt16.ofNat n) = false := by
  have hnat : (UInt16.ofNat n).toNat = n := UInt16.toNat_ofNat_of_lt' hn
  constructor
  · rw [Bool.eq_false_iff, Ne, isHighSurrogate_iff, hnat]
    omega
  · rw [Bool.eq_false_iff, Ne, isLowSurrogate_iff, hnat]
    omega

/-! ## Single characters -/

/-- A unit that is no surrogate is that of a character. -/
theorem charUnits_ofNat {u : UInt16} (hhigh : isHighSurrogate u = false)
    (hlow : isLowSurrogate u = false) : charUnits (Char.ofNat u.toNat) = [u] := by
  have hu := u.toNat_lt
  rw [Bool.eq_false_iff, Ne, isHighSurrogate_iff] at hhigh
  rw [Bool.eq_false_iff, Ne, isLowSurrogate_iff] at hlow
  have hvalid : u.toNat.isValidChar := by
    show u.toNat < 0xD800 ∨ (0xDFFF < u.toNat ∧ u.toNat < 0x110000)
    omega
  rw [charUnits, toNat_ofNat_char hvalid]
  simp only [show u.toNat < 0x10000 from hu, ↓reduceIte, UInt16.ofNat_toNat]

/-- A pair is that of a character. -/
theorem charUnits_pairChar {u v : UInt16} (hhigh : isHighSurrogate u = true)
    (hlow : isLowSurrogate v = true) : charUnits (pairChar u v) = [u, v] := by
  obtain ⟨hu, hu'⟩ := isHighSurrogate_iff.1 hhigh
  obtain ⟨hv, hv'⟩ := isLowSurrogate_iff.1 hlow
  have hvalid : (0x10000 + (u.toNat - 0xD800) * 0x400 + (v.toNat - 0xDC00)).isValidChar := by
    refine Or.inr ⟨?_, ?_⟩
    · omega
    · omega
  have hhighUnit : 0xD800 + (0x10000 + (u.toNat - 0xD800) * 0x400 + (v.toNat - 0xDC00) - 0x10000)
      / 0x400 = u.toNat := by omega
  have hlowUnit : 0xDC00 + (0x10000 + (u.toNat - 0xD800) * 0x400 + (v.toNat - 0xDC00) - 0x10000)
      % 0x400 = v.toNat := by omega
  rw [charUnits, pairChar, toNat_ofNat_char hvalid]
  simp only [hhighUnit, hlowUnit, UInt16.ofNat_toNat]
  rw [if_neg (by omega)]

/-- A character has one unit, which is no surrogate, or a pair. -/
theorem charUnits_cases (c : Char) :
    (∃ u, charUnits c = [u] ∧ isHighSurrogate u = false ∧ isLowSurrogate u = false ∧
      Char.ofNat u.toNat = c) ∨
    ∃ u v, charUnits c = [u, v] ∧ isHighSurrogate u = true ∧ isLowSurrogate v = true ∧
      pairChar u v = c := by
  have hvalid : c.toNat < 0xD800 ∨ (0xDFFF < c.toNat ∧ c.toNat < 0x110000) := c.valid
  rw [charUnits]
  by_cases hc : c.toNat < 0x10000
  · have hnat : (UInt16.ofNat c.toNat).toNat = c.toNat := UInt16.toNat_ofNat_of_lt' hc
    obtain ⟨hhigh, hlow⟩ := not_surrogate_ofNat hc (by omega)
    refine Or.inl ⟨UInt16.ofNat c.toNat, if_pos hc, hhigh, hlow, ?_⟩
    rw [hnat, Char.ofNat_toNat]
  · have hsize : UInt16.size = 0x10000 := rfl
    have hu : (UInt16.ofNat (0xD800 + (c.toNat - 0x10000) / 0x400)).toNat =
        0xD800 + (c.toNat - 0x10000) / 0x400 := UInt16.toNat_ofNat_of_lt' (by omega)
    have hv : (UInt16.ofNat (0xDC00 + (c.toNat - 0x10000) % 0x400)).toNat =
        0xDC00 + (c.toNat - 0x10000) % 0x400 := UInt16.toNat_ofNat_of_lt' (by omega)
    refine Or.inr ⟨_, _, if_neg hc, ?_, ?_, ?_⟩
    · rw [isHighSurrogate_iff, hu]
      omega
    · rw [isLowSurrogate_iff, hv]
      omega
    · have hvalue : 0x10000 + (0xD800 + (c.toNat - 0x10000) / 0x400 - 0xD800) * 0x400 +
          (0xDC00 + (c.toNat - 0x10000) % 0x400 - 0xDC00) = c.toNat := by omega
      rw [pairChar, hu, hv, hvalue, Char.ofNat_toNat]

/-! ## Sequences -/

theorem ofUnitsAfter_single (done : List Char) {u : UInt16} (us : List UInt16)
    (hhigh : isHighSurrogate u = false) (hlow : isLowSurrogate u = false) :
    ofUnitsAfter done (u :: us) = ofUnitsAfter (Char.ofNat u.toNat :: done) us := by
  cases us with
  | nil => simp [ofUnitsAfter, hhigh, hlow]
  | cons v us => simp [ofUnitsAfter, hhigh, hlow]

theorem ofUnitsAfter_pair (done : List Char) {u v : UInt16} (us : List UInt16)
    (hhigh : isHighSurrogate u = true) (hlow : isLowSurrogate v = true) :
    ofUnitsAfter done (u :: v :: us) = ofUnitsAfter (pairChar u v :: done) us := by
  simp [ofUnitsAfter, hhigh, hlow]

theorem ofUnitsAfter_units (done cs : List Char) :
    ofUnitsAfter done (units cs) = done.reverse ++ cs := by
  induction cs generalizing done with
  | nil => simp [units, ofUnitsAfter]
  | cons c cs ih =>
    have hcons : units (c :: cs) = charUnits c ++ units cs := List.flatMap_cons
    rw [hcons]
    rcases charUnits_cases c with ⟨u, hunits, hhigh, hlow, hc⟩ | ⟨u, v, hunits, hhigh, hlow, hc⟩
    · rw [hunits, List.singleton_append, ofUnitsAfter_single done _ hhigh hlow, hc, ih]
      simp
    · rw [hunits, List.cons_append, List.singleton_append, ofUnitsAfter_pair done _ hhigh hlow, hc,
        ih]
      simp

/-- A text is read back from its units. -/
theorem ofUnits_units (cs : List Char) : ofUnits (units cs) = cs := ofUnitsAfter_units [] cs

theorem paired_units (cs : List Char) : Paired (units cs) := by
  induction cs with
  | nil => exact .nil
  | cons c cs ih =>
    have hcons : units (c :: cs) = charUnits c ++ units cs := List.flatMap_cons
    rw [hcons]
    rcases charUnits_cases c with ⟨u, hunits, hhigh, hlow, -⟩ | ⟨u, v, hunits, hhigh, hlow, -⟩
    · rw [hunits]
      exact .single hhigh hlow ih
    · rw [hunits]
      exact .pair hhigh hlow ih

/-- Units whose surrogates are paired are those of a text. -/
theorem Paired.exists_units {us : List UInt16} (h : Paired us) : ∃ cs, units cs = us := by
  induction h with
  | nil => exact ⟨[], rfl⟩
  | @single u us hhigh hlow _ ih =>
    obtain ⟨cs, rfl⟩ := ih
    refine ⟨Char.ofNat u.toNat :: cs, ?_⟩
    rw [units, List.flatMap_cons, charUnits_ofNat hhigh hlow]
    rfl
  | @pair u v us hhigh hlow _ ih =>
    obtain ⟨cs, rfl⟩ := ih
    refine ⟨pairChar u v :: cs, ?_⟩
    rw [units, List.flatMap_cons, charUnits_pairChar hhigh hlow]
    rfl

/-! ## What is replaced -/

/-- What a unit has become in the text that was read: it is the same, unless it is a surrogate and
was replaced. -/
def BecomesUnit (u v : UInt16) : Prop :=
  v = u ∨ ((isHighSurrogate u = true ∨ isLowSurrogate u = true) ∧ v = 0xFFFD)

/-- The units of the text are those that were read before and, for each that was still to be read,
the one that it has become. -/
def ReadsOn (done : List Char) (us : List UInt16) (text : List Char) : Prop :=
  ∃ vs, units text = units done.reverse ++ vs ∧ List.Forall₂ BecomesUnit us vs

/-- One more character is read, from the units in front of the others. -/
theorem ReadsOn.cons {done text : List Char} {c : Char} {front us : List UInt16}
    (h : ReadsOn (c :: done) us text) (hc : List.Forall₂ BecomesUnit front (charUnits c)) :
    ReadsOn done (front ++ us) text := by
  obtain ⟨vs, hvs, hus⟩ := h
  refine ⟨charUnits c ++ vs, ?_, List.rel_append hc hus⟩
  rw [hvs, List.reverse_cons, units, List.flatMap_append, List.flatMap_singleton, units,
    List.append_assoc]

theorem readsOn_nil (done : List Char) : ReadsOn done [] done.reverse :=
  ⟨[], (List.append_nil _).symm, List.Forall₂.nil⟩

/-- A surrogate out of a pair is read as the replacement, which has one unit as well. -/
theorem forall₂_replacement {u : UInt16} (h : isHighSurrogate u = true ∨ isLowSurrogate u = true) :
    List.Forall₂ BecomesUnit [u] (charUnits replacement) := by
  have hreplacement : charUnits replacement = [0xFFFD] := by decide
  rw [hreplacement]
  exact List.Forall₂.cons (Or.inr ⟨h, rfl⟩) List.Forall₂.nil

/-- Characters that have the units they were read from. -/
theorem forall₂_of_charUnits_eq {c : Char} {us : List UInt16} (h : charUnits c = us) :
    List.Forall₂ BecomesUnit us (charUnits c) := by
  rw [h]
  exact List.forall₂_same.2 fun u _ => Or.inl rfl

/-- Reading delivers a unit for each unit that is read, and only surrogates are replaced. -/
theorem readsOn_ofUnitsAfter (done : List Char) (us : List UInt16) :
    ReadsOn done us (ofUnitsAfter done us) := by
  fun_induction ofUnitsAfter done us with
  | case1 done => exact readsOn_nil done
  | case2 done u c =>
    show ReadsOn done ([u] ++ []) (c :: done).reverse
    apply (readsOn_nil (c :: done)).cons
    by_cases hsurrogate : (isHighSurrogate u || isLowSurrogate u) = true
    · have hc : c = replacement := if_pos hsurrogate
      rw [hc]
      exact forall₂_replacement (Bool.or_eq_true _ _ ▸ hsurrogate)
    · have hc : c = Char.ofNat u.toNat := if_neg hsurrogate
      rw [Bool.not_eq_true, Bool.or_eq_false_iff] at hsurrogate
      rw [hc]
      exact forall₂_of_charUnits_eq (charUnits_ofNat hsurrogate.1 hsurrogate.2)
  | case3 done u v rest hhigh hlow ih =>
    exact ih.cons (forall₂_of_charUnits_eq (charUnits_pairChar hhigh hlow))
  | case4 done u v rest hhigh hlow ih => exact ih.cons (forall₂_replacement (Or.inl hhigh))
  | case5 done u v rest hhigh hlow ih => exact ih.cons (forall₂_replacement (Or.inr hlow))
  | case6 done u v rest hhigh hlow ih =>
    rw [Bool.not_eq_true] at hhigh hlow
    exact ih.cons (forall₂_of_charUnits_eq (charUnits_ofNat hhigh hlow))

/-- The units of the text that was read are those that it was read from, but for surrogates that
were replaced. -/
theorem forall₂_units_ofUnits (us : List UInt16) :
    List.Forall₂ BecomesUnit us (units (ofUnits us)) := by
  obtain ⟨vs, hvs, hus⟩ := readsOn_ofUnitsAfter [] us
  rw [ofUnits, hvs]
  exact hus

end PatternGuard.Text
