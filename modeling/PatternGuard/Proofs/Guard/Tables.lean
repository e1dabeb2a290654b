import PatternGuard.Proofs.Code.DebugTables
import PatternGuard.Proofs.Code.FrameMove
import PatternGuard.Proofs.Guard.Insert
import PatternGuard.Proofs.Guard.Order

/-!
# Tables follow the code

The attributes of a body are tables of offsets. A table that is moved has the same rows in the same
order, and each offset in it has gone where it lands, or, for an uninitialized value, where the
instruction that makes it stands now (`Attribute.Follows`, `Mover.Tracks.follows_of_moveAttribute`).
Since landings stay in order, the length of a variable's range is again a length
(`Mover.Tracks.moveVariable_ok_iff`).
-/

set_option autoImplicit false

namespace PatternGuard

open Outcome

/-- `l'` is the row for the same line as `l`, from where its start lands. -/
structure LineNumber.Follows (lands : Nat → Nat → Prop) (l l' : LineNumber) : Prop where
  start : lands l.start.toNat l'.start.toNat
  line : l'.line = l.line

/-- `v'` is the same variable as `v`, in the range from where its start lands to where its end
lands. -/
structure LocalVariable.Follows (lands : Nat → Nat → Prop) (v v' : LocalVariable) : Prop where
  start : lands v.start.toNat v'.start.toNat
  stop : lands (v.start.toNat + v.length.toNat) (v'.start.toNat + v'.length.toNat)
  nameIndex : v'.nameIndex = v.nameIndex
  typeIndex : v'.typeIndex = v.typeIndex
  slot : v'.slot = v.slot

/-- `a'` is the same attribute as `a`, and if it is a table of offsets, its rows follow the code. -/
structure Attribute.Follows (pool : Pool) (lands moves : Nat → Nat → Prop) (a a' : Attribute) :
    Prop where
  nameIndex : a'.nameIndex = a.nameIndex
  lines : a.isNamed pool Attribute.lineNumbersName = true → ∃ rows rows',
    LineNumber.decodeTable a.info = .ok rows ∧ LineNumber.decodeTable a'.info = .ok rows' ∧
      List.Forall₂ (LineNumber.Follows lands) rows rows'
  frames : a.isNamed pool Attribute.stackMapName = true → ∃ frames frames',
    Frame.decodeTable a.info = .ok frames ∧ Frame.decodeTable a'.info = .ok frames' ∧
      List.Forall₂ (Frame.Follows lands moves) (Frame.locate frames) (Frame.locate frames')
  locals : a.isNamed pool Attribute.localVariablesName = true ∨
      a.isNamed pool Attribute.localVariableTypesName = true → ∃ rows rows',
    LocalVariable.decodeTable a.info = .ok rows ∧ LocalVariable.decodeTable a'.info = .ok rows' ∧
      List.Forall₂ (LocalVariable.Follows lands) rows rows'

/-! ## Names of tables -/

/-- An attribute has one name. -/
theorem Attribute.isNamed_eq_false {a : Attribute} {pool : Pool} {name other : String}
    (hne : Text.ModifiedUtf8.encode name ≠ Text.ModifiedUtf8.encode other)
    (h : a.isNamed pool name = true) : a.isNamed pool other = false := by
  rw [isNamed, Pool.isText] at h ⊢
  split at h
  · rw [beq_iff_eq] at h
    rw [h]
    simpa using hne
  · exact absurd h Bool.false_ne_true

namespace Mover

open Attribute

/-- An attribute passes the check if it is a table that can be moved. -/
theorem checkAttribute_ok_iff {pool : Pool} {method : String} {a : Attribute} {r : Unit} :
    checkAttribute pool method a = .ok r ↔
      a.isNamed pool lineNumbersName = true ∨ a.isNamed pool localVariablesName = true ∨
        a.isNamed pool localVariableTypesName = true ∨ a.isNamed pool stackMapName = true := by
  rw [checkAttribute]
  by_cases h : movableNames.any (a.isNamed pool) = true
  · rw [if_pos h]
    refine iff_of_true rfl ?_
    simpa [movableNames] using h
  · rw [if_neg h]
    refine iff_of_false ?_ ?_
    · intro hok
      obtain ⟨_, -, hrefuse⟩ := bind_ok_iff.1 hok
      exact absurd hrefuse refuse_ne_ok
    · simpa [movableNames] using h

section Moves

variable {m : Mover} {pool : Pool} {a a' : Attribute}

/-- A moved attribute keeps its name, and its name says how its body is moved. -/
theorem moveAttribute_ok_iff :
    m.moveAttribute pool a = .ok a' ↔ a'.nameIndex = a.nameIndex ∧
      (if a.isNamed pool lineNumbersName then m.moveLines a.info
        else if a.isNamed pool stackMapName then m.moveFrames a.info
        else m.moveVariables a.info) = .ok a'.info := by
  have hbody : ∀ x : Except GuardError (List UInt8),
      (do return { a with info := ← x }) = .ok a' ↔
        a'.nameIndex = a.nameIndex ∧ x = .ok a'.info := by
    intro x
    rcases a' with ⟨nameIndex, info⟩
    rw [bind_ok_iff]
    simp only [pure_ok_iff, Attribute.mk.injEq]
    constructor
    · rintro ⟨_, hinfo, rfl, rfl⟩
      exact ⟨rfl, hinfo⟩
    · rintro ⟨rfl, hinfo⟩
      exact ⟨info, hinfo, rfl, rfl⟩
  rw [moveAttribute]
  -- the name decides how the body is moved, and either way the name stays
  by_cases hlines : a.isNamed pool lineNumbersName = true
  · simp only [hlines, ↓reduceIte]
    exact hbody _
  · by_cases hframes : a.isNamed pool stackMapName = true
    · simp only [hlines, hframes, ↓reduceIte]
      exact hbody _
    · simp only [hlines, hframes]
      exact hbody _

theorem moveAttribute_lines_iff (h : a.isNamed pool lineNumbersName = true) :
    m.moveAttribute pool a = .ok a' ↔
      a'.nameIndex = a.nameIndex ∧ m.moveLines a.info = .ok a'.info := by
  rw [moveAttribute_ok_iff, if_pos h]

theorem moveAttribute_frames_iff (h : a.isNamed pool stackMapName = true) :
    m.moveAttribute pool a = .ok a' ↔
      a'.nameIndex = a.nameIndex ∧ m.moveFrames a.info = .ok a'.info := by
  have hlines : a.isNamed pool lineNumbersName = false := isNamed_eq_false (by decide +kernel) h
  rw [moveAttribute_ok_iff, if_neg (by simp [hlines]), if_pos h]

theorem moveAttribute_locals_iff (h : a.isNamed pool localVariablesName = true ∨
      a.isNamed pool localVariableTypesName = true) :
    m.moveAttribute pool a = .ok a' ↔
      a'.nameIndex = a.nameIndex ∧ m.moveVariables a.info = .ok a'.info := by
  have hother : a.isNamed pool lineNumbersName = false ∧ a.isNamed pool stackMapName = false := by
    rcases h with h | h
    · exact ⟨isNamed_eq_false (by decide +kernel) h, isNamed_eq_false (by decide +kernel) h⟩
    · exact ⟨isNamed_eq_false (by decide +kernel) h, isNamed_eq_false (by decide +kernel) h⟩
  rw [moveAttribute_ok_iff, if_neg (by simp [hother.1]), if_neg (by simp [hother.2])]

end Moves

/-- A table is moved row by row. -/
theorem moveRows_ok_iff {α : Type} {decode : List UInt8 → Except Fault (List α)}
    {encode : List α → Except Fault (List UInt8)} {move : α → Except GuardError α}
    {follows : α → α → Prop}
    (hcodec : ∀ {rows info}, decode info = .ok rows ↔ encode rows = .ok info)
    (hrow : ∀ row row', move row = .ok row' ↔ follows row row') {info info' : List UInt8} :
    (do let rows ← GuardError.ofData (decode info)
        GuardError.ofData (encode (← rows.mapM move))) = .ok info' ↔
      ∃ rows rows', decode info = .ok rows ∧ decode info' = .ok rows' ∧
        List.Forall₂ follows rows rows' := by
  constructor
  · intro hmoved
    obtain ⟨rows, hrows, h₁⟩ := bind_ok_iff.1 hmoved
    obtain ⟨rows', hrows', hinfo⟩ := bind_ok_iff.1 h₁
    rw [GuardError.ofData_ok_iff] at hrows hinfo
    refine ⟨rows, rows', hrows, hcodec.2 hinfo, ?_⟩
    exact (mapM_ok_iff.1 hrows').imp fun row row' hmove => (hrow row row').1 hmove
  · rintro ⟨rows, rows', hrows, hrows', hfollows⟩
    refine bind_ok_iff.2 ⟨rows, GuardError.ofData_ok_iff.2 hrows, ?_⟩
    refine bind_ok_iff.2 ⟨rows', mapM_ok_iff.2 ?_, ?_⟩
    · exact hfollows.imp fun row row' hrow' => (hrow row row').2 hrow'
    · exact GuardError.ofData_ok_iff.2 (hcodec.1 hrows')

/-! ## Rows -/

namespace Tracks

variable {m : Mover} {old : List Instruction} {oldLength newLength : Nat} {woven : List Woven}

theorem target?_le (h : m.Tracks old oldLength woven newLength)
    (haligned : Woven.Aligned old oldLength woven newLength)
    (hlength : newLength ≤ CodeBody.maxLength) :
    ∀ a b, m.relocation.target? a = some b → b ≤ 65535 := by
  intro a b hab
  exact Nat.le_trans (haligned.lands_le (h.target?_iff.1 hab)) hlength

theorem moveOffset_ok_iff (h : m.Tracks old oldLength woven newLength)
    (haligned : Woven.Aligned old oldLength woven newLength)
    (hlength : newLength ≤ CodeBody.maxLength) {a b : UInt16} :
    m.moveOffset a = .ok b ↔ Woven.Lands old oldLength woven newLength a.toNat b.toNat := by
  rw [Mover.moveOffset_ok_iff (h.target?_le haligned hlength), h.target?_iff]

theorem moveLine_ok_iff (h : m.Tracks old oldLength woven newLength)
    (haligned : Woven.Aligned old oldLength woven newLength)
    (hlength : newLength ≤ CodeBody.maxLength) {l l' : LineNumber} :
    m.moveLine l = .ok l' ↔ l.Follows (Woven.Lands old oldLength woven newLength) l' := by
  have hoffset := fun a b => h.moveOffset_ok_iff haligned hlength (a := a) (b := b)
  rcases l' with ⟨start, line⟩
  constructor
  · intro hmoved
    obtain ⟨start', hstart, hpure⟩ := bind_ok_iff.1 hmoved
    obtain ⟨rfl, rfl⟩ := LineNumber.mk.inj (pure_ok_iff.1 hpure)
    exact ⟨(hoffset _ _).1 hstart, rfl⟩
  · rintro ⟨hstart, rfl⟩
    exact bind_ok_iff.2 ⟨start, (hoffset _ _).2 hstart, rfl⟩

/-- The range of a variable may end within 16 bits only. It lands as a range since landings are in
order. -/
theorem moveVariable_ok_iff (h : m.Tracks old oldLength woven newLength)
    (haligned : Woven.Aligned old oldLength woven newLength)
    (hlength : newLength ≤ CodeBody.maxLength) {v v' : LocalVariable} :
    m.moveVariable v = .ok v' ↔ v.start.toNat + v.length.toNat ≤ 65535 ∧
      v.Follows (Woven.Lands old oldLength woven newLength) v' := by
  have hoffset := fun a b => h.moveOffset_ok_iff haligned hlength (a := a) (b := b)
  have hstop : v.start.toNat + v.length.toNat ≤ 65535 →
      (UInt16.ofNat (v.start.toNat + v.length.toNat)).toNat =
        v.start.toNat + v.length.toNat := by
    intro hle
    apply UInt16.toNat_ofNat_of_lt'
    show v.start.toNat + v.length.toNat < 65536
    omega
  rw [moveVariable, unless_ok_iff fun _ => refuse_ne_ok, Nat.not_lt]
  refine and_congr_right fun hle => ?_
  constructor
  · intro hmoved
    obtain ⟨start, hstart, h₁⟩ := bind_ok_iff.1 hmoved
    obtain ⟨stop, hstop', hpure⟩ := bind_ok_iff.1 h₁
    obtain rfl := pure_ok_iff.1 hpure
    rw [hoffset] at hstart
    rw [hoffset, hstop hle] at hstop'
    -- both ends have landed, in order, so that their difference is a length
    have horder : start ≤ stop := by
      rw [UInt16.le_iff_toNat_le, haligned.lands_le_iff hstart hstop']
      exact Nat.le_add_right _ _
    have hrange : start.toNat + (stop - start).toNat = stop.toNat := by
      rw [UInt16.toNat_sub_of_le _ _ horder]
      exact Nat.add_sub_cancel' (UInt16.le_iff_toNat_le.1 horder)
    refine ⟨hstart, ?_, rfl, rfl, rfl⟩
    show Woven.Lands old oldLength woven newLength _ (start.toNat + (stop - start).toNat)
    rw [hrange]
    exact hstop'
  · intro hfollows
    rcases v' with ⟨start, length, nameIndex, typeIndex, slot⟩
    obtain ⟨hstart, hend, rfl, rfl, rfl⟩ := hfollows
    simp only at hstart hend
    -- the end lies in the new code, so that the sum is a word
    have hbound : start.toNat + length.toNat ≤ 65535 :=
      Nat.le_trans (haligned.lands_le hend) hlength
    have hsum : (start + length).toNat = start.toNat + length.toNat := by
      rw [UInt16.toNat_add, Nat.mod_eq_of_lt (by omega)]
    refine bind_ok_iff.2 ⟨start, (hoffset _ _).2 hstart, ?_⟩
    refine bind_ok_iff.2 ⟨start + length, (hoffset _ _).2 ?_, ?_⟩
    · rw [hstop hle, hsum]
      exact hend
    · have hcancel : start + length - start = length := by grind
      rw [hcancel]
      rfl

/-! ## Tables -/

theorem moveLines_ok_iff (h : m.Tracks old oldLength woven newLength)
    (haligned : Woven.Aligned old oldLength woven newLength)
    (hlength : newLength ≤ CodeBody.maxLength) {info info' : List UInt8} :
    m.moveLines info = .ok info' ↔ ∃ rows rows', LineNumber.decodeTable info = .ok rows ∧
      LineNumber.decodeTable info' = .ok rows' ∧
      List.Forall₂ (LineNumber.Follows (Woven.Lands old oldLength woven newLength)) rows rows' := by
  apply moveRows_ok_iff LineNumber.decodeTable_ok_iff
  intro l l'
  exact h.moveLine_ok_iff haligned hlength

theorem moveVariables_ok_iff (h : m.Tracks old oldLength woven newLength)
    (haligned : Woven.Aligned old oldLength woven newLength)
    (hlength : newLength ≤ CodeBody.maxLength) {info info' : List UInt8} :
    m.moveVariables info = .ok info' ↔ ∃ rows rows', LocalVariable.decodeTable info = .ok rows ∧
      LocalVariable.decodeTable info' = .ok rows' ∧
      List.Forall₂ (fun v v' => v.start.toNat + v.length.toNat ≤ 65535 ∧
        v.Follows (Woven.Lands old oldLength woven newLength) v') rows rows' := by
  apply moveRows_ok_iff LocalVariable.decodeTable_ok_iff
  intro v v'
  exact h.moveVariable_ok_iff haligned hlength

theorem frameAt_ok_iff (h : m.Tracks old oldLength woven newLength) {a b : Nat} :
    m.frameAt a = .ok b ↔ Woven.Lands old oldLength woven newLength a b := by
  rw [← h.target?_iff, frameAt]
  cases m.relocation.target? a with
  | none => simp
  | some new => simp

theorem newAt_ok_iff (h : m.Tracks old oldLength woven newLength) {a b : Nat} :
    m.newAt a = .ok b ↔ Woven.Moves old oldLength woven newLength a b := by
  rw [← h.moved?_iff, newAt]
  cases m.relocation.moved? a with
  | none => simp
  | some new => simp

theorem moveTable_ok_iff (h : m.Tracks old oldLength woven newLength)
    {frames frames' : List Frame} :
    Frame.moveTable m.frameAt m.newAt frames = .ok frames' ↔
      List.Forall₂ (Frame.Follows (Woven.Lands old oldLength woven newLength)
        (Woven.Moves old oldLength woven newLength)) (Frame.locate frames)
        (Frame.locate frames') := by
  rw [Frame.moveTable_ok_iff]
  simp only [h.frameAt_ok_iff, h.newAt_ok_iff]

theorem moveFrames_ok (h : m.Tracks old oldLength woven newLength) {info info' : List UInt8}
    (hmoved : m.moveFrames info = .ok info') :
    ∃ frames frames', Frame.decodeTable info = .ok frames ∧
      Frame.decodeTable info' = .ok frames' ∧
      List.Forall₂ (Frame.Follows (Woven.Lands old oldLength woven newLength)
        (Woven.Moves old oldLength woven newLength)) (Frame.locate frames)
        (Frame.locate frames') := by
  obtain ⟨frames, hframes, h₁⟩ := bind_ok_iff.1 (GuardError.ofData_ok_iff.1 hmoved)
  obtain ⟨frames', hframes', hinfo⟩ := bind_ok_iff.1 h₁
  exact ⟨frames, frames', hframes, Frame.decodeTable_of_encodeTable hinfo,
    h.moveTable_ok_iff.1 hframes'⟩

/-- A moved attribute follows the code. -/
theorem follows_of_moveAttribute (h : m.Tracks old oldLength woven newLength)
    (haligned : Woven.Aligned old oldLength woven newLength)
    (hlength : newLength ≤ CodeBody.maxLength) {pool : Pool} {a a' : Attribute}
    (hmoved : m.moveAttribute pool a = .ok a') :
    a.Follows pool (Woven.Lands old oldLength woven newLength)
      (Woven.Moves old oldLength woven newLength) a' := by
  refine ⟨(moveAttribute_ok_iff.1 hmoved).1, ?_, ?_, ?_⟩
  · intro hnamed
    exact (h.moveLines_ok_iff haligned hlength).1 ((moveAttribute_lines_iff hnamed).1 hmoved).2
  · intro hnamed
    exact h.moveFrames_ok ((moveAttribute_frames_iff hnamed).1 hmoved).2
  · intro hnamed
    obtain ⟨rows, rows', hrows, hrows', hfollows⟩ :=
      (h.moveVariables_ok_iff haligned hlength).1 ((moveAttribute_locals_iff hnamed).1 hmoved).2
    exact ⟨rows, rows', hrows, hrows', hfollows.imp fun v v' hv => hv.2⟩

end Tracks

end Mover

/-! ## Bodies -/

namespace CodeBody

/-- Old and new code stand in the same order. -/
theorem Expansion.aligned {body body' : CodeBody} {insertions : List Insertion}
    {old : List Instruction} {woven : List Woven} (h : body.Expansion insertions body' old woven) :
    Woven.Aligned old body.code.length woven body'.code.length :=
  ⟨h.filled, h.fills, h.replaces.length_eq⟩

/-- Insertion succeeds only with a body whose attributes follow the code. -/
theorem exists_expansion_follows {body body' : CodeBody} {pool : Pool}
    {insertions : List Insertion} {depth : UInt16} {method : String}
    (h : body.withInsertions pool insertions depth method = .ok body') :
    ∃ old woven, body.Expansion insertions body' old woven ∧
      List.Forall₂ (Attribute.Follows pool
        (Woven.Lands old body.code.length woven body'.code.length)
        (Woven.Moves old body.code.length woven body'.code.length)) body.attributes
        body'.attributes := by
  obtain ⟨old, woven, hexpansion, m, htracks, hattributes⟩ := exists_expansion h
  refine ⟨old, woven, hexpansion, hattributes.imp fun a a' hmoved => ?_⟩
  exact htracks.follows_of_moveAttribute hexpansion.aligned hexpansion.length_le hmoved

end CodeBody

end PatternGuard
