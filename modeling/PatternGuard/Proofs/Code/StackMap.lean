import PatternGuard.Code.StackMap
import PatternGuard.Proofs.Bytes.Reader

/-!
# Stack map frames and their bytes

A frame may have two spellings, a short and a long one (`Frame.Spells`). It is read from any of its
spellings and from nothing else, and written in one of them; so a table that is written is read back
(`Frame.decodeTable_of_encodeTable`), and what is read can be written
(`Frame.writable_of_decodeTable`, `Frame.exists_encodeTable`).
-/

set_option autoImplicit false

namespace PatternGuard

open Bytes Outcome Reader

/-! ## Types and their bytes -/

namespace VerificationType

theorem exact_decode : Exact decode (fun _ => True) encode := by
  intro s type t
  simp only [decode, bind_run_ok_iff, u8_ok_iff, true_and]
  constructor
  · rintro ⟨tag, u, htag, hrest⟩
    -- each tag has its type, and two of them are followed by a word
    split at hrest
    case h_8 =>
      obtain ⟨index, v, hindex, hpure⟩ := bind_run_ok_iff.1 hrest
      obtain ⟨rfl, rfl⟩ := pure_run_ok_iff.1 hpure
      exact Input.advances_cons_iff.2 ⟨u, htag, u16_ok_iff.1 hindex⟩
    case h_9 =>
      obtain ⟨offset, v, hoffset, hpure⟩ := bind_run_ok_iff.1 hrest
      obtain ⟨rfl, rfl⟩ := pure_run_ok_iff.1 hpure
      exact Input.advances_cons_iff.2 ⟨u, htag, u16_ok_iff.1 hoffset⟩
    case h_10 => exact absurd hrest fail_ne_ok
    all_goals
      obtain ⟨rfl, rfl⟩ := pure_run_ok_iff.1 hrest
      exact htag
  · intro h
    cases type with
    | object index =>
      obtain ⟨u, htag, hindex⟩ := Input.advances_cons_iff.1 h
      exact ⟨7, u, htag, bind_run_ok_iff.2 ⟨index, t, u16_ok_iff.2 hindex, rfl⟩⟩
    | uninitialized offset =>
      obtain ⟨u, htag, hoffset⟩ := Input.advances_cons_iff.1 h
      exact ⟨8, u, htag, bind_run_ok_iff.2 ⟨offset, t, u16_ok_iff.2 hoffset, rfl⟩⟩
    | _ => exact ⟨_, t, h, rfl⟩

end VerificationType

theorem Frame.readTypes_ok_iff {n : Nat} {types : List VerificationType} {s t : Input} :
    Frame.readTypes n s = .ok types t ↔
      types.length = n ∧ s.Advances (FrameKind.encodeTypes types) t := by
  rw [Frame.readTypes, VerificationType.exact_decode.times_ok_iff, FrameKind.encodeTypes]
  simp

/-! ## Frames and their bytes -/

/-- Whether the numbers of a frame of this kind fit the fields that a table has for them. -/
def FrameKind.Writable : FrameKind → Prop
  | .same | .sameWithItem _ => True
  | .chop count => 1 ≤ count ∧ count ≤ 3
  | .append locals => 1 ≤ locals.length ∧ locals.length ≤ 3
  | .full locals stack => locals.length < 65536 ∧ stack.length < 65536

namespace Frame

/-- The frame may be read from these bytes. -/
inductive Spells : Frame → List UInt8 → Prop
  | sameShort {delta : UInt16} : delta ≤ 63 → Spells ⟨delta, .same⟩ [delta.toUInt8]
  | same {delta : UInt16} : Spells ⟨delta, .same⟩ (251 :: u16Bytes delta)
  | itemShort {delta : UInt16} {item : VerificationType} : delta ≤ 63 →
      Spells ⟨delta, .sameWithItem item⟩ ((64 + delta.toUInt8) :: item.encode)
  | item {delta : UInt16} {item : VerificationType} :
      Spells ⟨delta, .sameWithItem item⟩ (247 :: (u16Bytes delta ++ item.encode))
  | chop {delta : UInt16} {count : UInt8} : 1 ≤ count ∧ count ≤ 3 →
      Spells ⟨delta, .chop count⟩ ((251 - count) :: u16Bytes delta)
  | append {delta : UInt16} {locals : List VerificationType} :
      1 ≤ locals.length ∧ locals.length ≤ 3 → Spells ⟨delta, .append locals⟩
        (UInt8.ofNat (251 + locals.length) :: (u16Bytes delta ++ FrameKind.encodeTypes locals))
  | full {delta : UInt16} {locals stack : List VerificationType} :
      locals.length < 65536 ∧ stack.length < 65536 → Spells ⟨delta, .full locals stack⟩
        (255 :: (u16Bytes delta ++ ((toBytes 2 locals.length ++ FrameKind.encodeTypes locals) ++
          (toBytes 2 stack.length ++ FrameKind.encodeTypes stack))))

theorem Spells.writable {f : Frame} {bytes : List UInt8} (h : f.Spells bytes) :
    f.kind.Writable := by
  cases h with
  | sameShort _ | same | itemShort _ | item => trivial
  | chop hcount => exact hcount
  | append hcount => exact hcount
  | full hcounts => exact hcounts

/-- A frame is written in one of its spellings. -/
theorem spells_of_encode {f : Frame} {bytes : List UInt8} (h : f.encode = .ok bytes) :
    f.Spells bytes := by
  rcases f with ⟨delta, kind⟩
  rw [encode] at h
  cases kind with
  | same =>
    simp only [FrameKind.encode] at h
    split at h
    · rename_i hshort
      obtain rfl := Except.ok.inj h
      exact .sameShort hshort
    · obtain rfl := Except.ok.inj h
      exact .same
  | sameWithItem item =>
    simp only [FrameKind.encode] at h
    split at h
    · rename_i hshort
      obtain rfl := Except.ok.inj h
      exact .itemShort hshort
    · obtain rfl := Except.ok.inj h
      exact .item
  | chop count =>
    simp only [FrameKind.encode] at h
    split at h
    · rename_i hcount
      obtain rfl := Except.ok.inj h
      exact .chop hcount
    · exact absurd h (by simp)
  | append locals =>
    simp only [FrameKind.encode] at h
    split at h
    · rename_i hcount
      obtain rfl := Except.ok.inj h
      exact .append hcount
    · exact absurd h (by simp)
  | full locals stack =>
    obtain ⟨_, hlocals, h₁⟩ := bind_ok_iff.1 h
    obtain ⟨_, hstack, h₂⟩ := bind_ok_iff.1 h₁
    obtain ⟨hlocalCount, rfl⟩ := count16_eq_ok_iff.1 hlocals
    obtain ⟨hstackCount, rfl⟩ := count16_eq_ok_iff.1 hstack
    obtain rfl := pure_ok_iff.1 h₂
    have hspells : Spells ⟨delta, .full locals stack⟩ _ := .full ⟨hlocalCount, hstackCount⟩
    simpa using hspells

/-- A frame whose numbers fit their fields can be written. -/
theorem exists_encode_of_writable {f : Frame} (h : f.kind.Writable) :
    ∃ bytes, f.encode = .ok bytes := by
  rcases f with ⟨delta, kind⟩
  rw [encode]
  -- a frame with a small delta has the short spelling, but each delta has one
  cases kind with
  | same =>
    simp only [FrameKind.encode]
    split
    · exact ⟨_, rfl⟩
    · exact ⟨_, rfl⟩
  | sameWithItem item =>
    simp only [FrameKind.encode]
    split
    · exact ⟨_, rfl⟩
    · exact ⟨_, rfl⟩
  | chop count => exact ⟨_, if_pos h⟩
  | append locals => exact ⟨_, if_pos h⟩
  | full locals stack =>
    exact ⟨_, bind_ok_iff.2 ⟨_, count16_eq_ok_iff.2 ⟨h.1, rfl⟩,
      bind_ok_iff.2 ⟨_, count16_eq_ok_iff.2 ⟨h.2, rfl⟩, rfl⟩⟩⟩

/-- The tag of a short frame is its delta. -/
theorem short_facts {delta : UInt16} (h : delta ≤ 63) :
    delta.toUInt8 ≤ 63 ∧ delta.toUInt8.toUInt16 = delta := by
  rw [UInt16.le_iff_toNat_le] at h
  have h : delta.toNat ≤ 63 := h
  refine ⟨?_, UInt16.toNat_inj.1 ?_⟩
  · simp [UInt8.le_iff_toNat_le]
    omega
  · simp
    omega

/-- The tag of a short frame with an item is 64 more than its delta. -/
theorem itemShort_facts {delta : UInt16} (h : delta ≤ 63) :
    ¬64 + delta.toUInt8 ≤ 63 ∧ 64 + delta.toUInt8 ≤ 127 ∧
      (64 + delta.toUInt8 - 64).toUInt16 = delta := by
  obtain ⟨hle, hdelta⟩ := short_facts h
  have hcancel : 64 + delta.toUInt8 - 64 = delta.toUInt8 := by grind
  refine ⟨?_, ?_, by rw [hcancel, hdelta]⟩
  · simp [UInt8.le_iff_toNat_le] at hle ⊢
    omega
  · simp [UInt8.le_iff_toNat_le] at hle ⊢
    omega

/-- The tag of a frame that drops locals lies as far below 251 as it drops locals. -/
theorem chop_facts {count : UInt8} (h : 1 ≤ count ∧ count ≤ 3) :
    ¬251 - count ≤ 63 ∧ ¬251 - count ≤ 127 ∧ ¬251 - count ≤ 246 ∧ 251 - count ≠ 247 ∧
      251 - count ≤ 250 := by
  have hsub : (251 - count).toNat = 251 - count.toNat :=
    UInt8.toNat_sub_of_le 251 count (UInt8.le_trans h.2 (by decide))
  simp only [UInt8.le_iff_toNat_le, ne_eq, ← UInt8.toNat_inj, hsub] at h ⊢
  simp at h ⊢
  omega

/-- The tag of a frame that adds locals lies as far above 251 as it adds locals. -/
theorem append_facts {count : Nat} (h : 1 ≤ count ∧ count ≤ 3) :
    ¬UInt8.ofNat (251 + count) ≤ 63 ∧ ¬UInt8.ofNat (251 + count) ≤ 127 ∧
      ¬UInt8.ofNat (251 + count) ≤ 246 ∧ UInt8.ofNat (251 + count) ≠ 247 ∧
      ¬UInt8.ofNat (251 + count) ≤ 250 ∧ UInt8.ofNat (251 + count) ≠ 251 ∧
      UInt8.ofNat (251 + count) ≤ 254 ∧ (UInt8.ofNat (251 + count)).toNat - 251 = count := by
  have hof : (UInt8.ofNat (251 + count)).toNat = 251 + count :=
    UInt8.toNat_ofNat_of_lt' (by show 251 + count < 256; omega)
  simp only [UInt8.le_iff_toNat_le, ne_eq, ← UInt8.toNat_inj, hof]
  simp
  omega

/-- A tag of at most 63 is a delta. -/
theorem shortTag_facts {tag : UInt8} (h : tag ≤ 63) : tag.toUInt16 ≤ 63 := by
  simp [UInt8.le_iff_toNat_le, UInt16.le_iff_toNat_le] at h ⊢
  exact h

/-- A tag from 64 to 127 is 64 more than a delta. -/
theorem itemTag_facts {tag : UInt8} (hlong : ¬tag ≤ 63) (hshort : tag ≤ 127) :
    (tag - 64).toUInt16 ≤ 63 ∧ 64 + (tag - 64) = tag := by
  have hsub : (tag - 64).toNat = tag.toNat - 64 := by
    apply UInt8.toNat_sub_of_le
    simp [UInt8.le_iff_toNat_le] at hlong ⊢
    omega
  refine ⟨?_, by grind⟩
  rw [UInt16.le_iff_toNat_le, UInt8.toNat_toUInt16, hsub]
  simp [UInt8.le_iff_toNat_le] at hshort ⊢
  omega

/-- A tag from 248 to 250 drops locals. -/
theorem chopTag_facts {tag : UInt8} (hreserved : ¬tag ≤ 246) (hitem : tag ≠ 247)
    (hchop : tag ≤ 250) : (1 ≤ 251 - tag ∧ 251 - tag ≤ 3) ∧ 251 - (251 - tag) = tag := by
  have hsub : (251 - tag).toNat = 251 - tag.toNat :=
    UInt8.toNat_sub_of_le 251 tag (UInt8.le_trans hchop (by decide))
  refine ⟨?_, by grind⟩
  simp only [UInt8.le_iff_toNat_le, ne_eq, ← UInt8.toNat_inj, hsub] at hreserved hitem hchop ⊢
  simp at hreserved hitem hchop ⊢
  omega

/-- Every tag from 252 to 254 adds locals, and every higher one is that of a full frame. -/
theorem tag_facts {tag : UInt8} (hchop : ¬tag ≤ 250) (hsame : tag ≠ 251) :
    (tag ≤ 254 → (1 ≤ tag.toNat - 251 ∧ tag.toNat - 251 ≤ 3) ∧
      UInt8.ofNat (251 + (tag.toNat - 251)) = tag) ∧ (¬tag ≤ 254 → tag = 255) := by
  simp [UInt8.le_iff_toNat_le, ← UInt8.toNat_inj] at hchop hsame ⊢
  have hlt := tag.toNat_lt
  omega

/-- A frame is read from each of its spellings. -/
theorem decode_of_spells {f : Frame} {bytes : List UInt8} {s t : Input} (h : f.Spells bytes)
    (hadvances : s.Advances bytes t) : decode s = .ok f t := by
  rw [decode, bind_run_ok_iff]
  -- tags are told apart from below: each spelling fails the tests in front of its own
  cases h with
  | @sameShort delta hshort =>
    obtain ⟨hle, hdelta⟩ := short_facts hshort
    refine ⟨_, t, u8_ok_iff.2 hadvances, ?_⟩
    rw [if_pos hle, hdelta]
    rfl
  | @same delta =>
    obtain ⟨u, htag, hrest⟩ := Input.advances_cons_iff.1 hadvances
    exact ⟨_, u, u8_ok_iff.2 htag, bind_run_ok_iff.2 ⟨delta, t, u16_ok_iff.2 hrest, rfl⟩⟩
  | @itemShort delta item hshort =>
    obtain ⟨hnot, hle, hdelta⟩ := itemShort_facts hshort
    obtain ⟨u, htag, hrest⟩ := Input.advances_cons_iff.1 hadvances
    refine ⟨_, u, u8_ok_iff.2 htag, ?_⟩
    rw [if_neg hnot, if_pos hle, hdelta]
    exact bind_run_ok_iff.2
      ⟨item, t, (VerificationType.exact_decode _ _ _).2 ⟨trivial, hrest⟩, rfl⟩
  | @item delta item =>
    obtain ⟨u, htag, hrest⟩ := Input.advances_cons_iff.1 hadvances
    obtain ⟨v, hdelta, hitem⟩ := Input.advances_append_iff.1 hrest
    refine ⟨_, u, u8_ok_iff.2 htag, bind_run_ok_iff.2 ⟨delta, v, u16_ok_iff.2 hdelta, ?_⟩⟩
    exact bind_run_ok_iff.2
      ⟨item, t, (VerificationType.exact_decode _ _ _).2 ⟨trivial, hitem⟩, rfl⟩
  | @chop delta count hcount =>
    obtain ⟨h₁, h₂, h₃, h₄, h₅⟩ := chop_facts hcount
    obtain ⟨u, htag, hdelta⟩ := Input.advances_cons_iff.1 hadvances
    have hcancel : 251 - (251 - count) = count := by grind
    refine ⟨_, u, u8_ok_iff.2 htag, ?_⟩
    rw [if_neg h₁, if_neg h₂, if_neg h₃]
    refine bind_run_ok_iff.2 ⟨delta, t, u16_ok_iff.2 hdelta, ?_⟩
    rw [if_neg h₄, if_pos h₅, hcancel]
    rfl
  | @append delta locals hcount =>
    obtain ⟨h₁, h₂, h₃, h₄, h₅, h₆, h₇, hlength⟩ := append_facts hcount
    obtain ⟨u, htag, hrest⟩ := Input.advances_cons_iff.1 hadvances
    obtain ⟨v, hdelta, hlocals⟩ := Input.advances_append_iff.1 hrest
    refine ⟨_, u, u8_ok_iff.2 htag, ?_⟩
    rw [if_neg h₁, if_neg h₂, if_neg h₃]
    refine bind_run_ok_iff.2 ⟨delta, v, u16_ok_iff.2 hdelta, ?_⟩
    rw [if_neg h₄, if_neg h₅, if_neg h₆, if_pos h₇, hlength]
    exact bind_run_ok_iff.2 ⟨locals, t, readTypes_ok_iff.2 ⟨rfl, hlocals⟩, rfl⟩
  | @full delta locals stack hcounts =>
    obtain ⟨u, htag, hrest⟩ := Input.advances_cons_iff.1 hadvances
    obtain ⟨v, hdelta, hrest⟩ := Input.advances_append_iff.1 hrest
    obtain ⟨w, hfront, hback⟩ := Input.advances_append_iff.1 hrest
    obtain ⟨x, hlocalCount, hlocals⟩ := Input.advances_append_iff.1 hfront
    obtain ⟨y, hstackCount, hstackTypes⟩ := Input.advances_append_iff.1 hback
    refine ⟨_, u, u8_ok_iff.2 htag, bind_run_ok_iff.2 ⟨delta, v, u16_ok_iff.2 hdelta, ?_⟩⟩
    refine bind_run_ok_iff.2 ⟨_, x, count16_ok_iff.2 ⟨hcounts.1, hlocalCount⟩, ?_⟩
    refine bind_run_ok_iff.2 ⟨_, w, readTypes_ok_iff.2 ⟨rfl, hlocals⟩, ?_⟩
    refine bind_run_ok_iff.2 ⟨_, y, count16_ok_iff.2 ⟨hcounts.2, hstackCount⟩, ?_⟩
    exact bind_run_ok_iff.2 ⟨_, t, readTypes_ok_iff.2 ⟨rfl, hstackTypes⟩, rfl⟩

/-- A frame is read from one of its spellings only. -/
theorem exists_spells_of_decode {f : Frame} {s t : Input} (h : decode s = .ok f t) :
    ∃ bytes, f.Spells bytes ∧ s.Advances bytes t := by
  obtain ⟨tag, u, htag, h₁⟩ := bind_run_ok_iff.1 h
  rw [u8_ok_iff] at htag
  -- the tag tells the kind of the frame, and the delta too if it is at most 127
  split at h₁
  · rename_i hshort
    obtain ⟨rfl, rfl⟩ := pure_run_ok_iff.1 h₁
    have hspells := Spells.sameShort (shortTag_facts hshort)
    rw [UInt8.toUInt8_toUInt16] at hspells
    exact ⟨_, hspells, htag⟩
  split at h₁
  · rename_i hlong hshort
    obtain ⟨item, v, hitem, hpure⟩ := bind_run_ok_iff.1 h₁
    obtain ⟨rfl, rfl⟩ := pure_run_ok_iff.1 hpure
    obtain ⟨hdelta, hcancel⟩ := itemTag_facts hlong hshort
    have hspells : Spells ⟨_, .sameWithItem item⟩ _ := .itemShort hdelta
    rw [UInt8.toUInt8_toUInt16, hcancel] at hspells
    exact ⟨_, hspells, Input.advances_cons_iff.2
      ⟨u, htag, ((VerificationType.exact_decode _ _ _).1 hitem).2⟩⟩
  split at h₁
  · -- these tags are reserved
    exact absurd h₁ fail_ne_ok
  -- behind any other tag stands the delta
  rename_i hreserved
  obtain ⟨delta, v, hdelta, h₂⟩ := bind_run_ok_iff.1 h₁
  rw [u16_ok_iff] at hdelta
  split at h₂
  · rename_i hitemTag
    obtain ⟨item, w, hitem, hpure⟩ := bind_run_ok_iff.1 h₂
    obtain ⟨rfl, rfl⟩ := pure_run_ok_iff.1 hpure
    rw [hitemTag] at htag
    exact ⟨_, .item, Input.advances_cons_iff.2 ⟨u, htag, Input.advances_append_iff.2
      ⟨v, hdelta, ((VerificationType.exact_decode _ _ _).1 hitem).2⟩⟩⟩
  split at h₂
  · rename_i hitemTag hchop
    obtain ⟨rfl, rfl⟩ := pure_run_ok_iff.1 h₂
    obtain ⟨hcount, hcancel⟩ := chopTag_facts hreserved hitemTag hchop
    refine ⟨_, .chop hcount, ?_⟩
    rw [hcancel]
    exact Input.advances_cons_iff.2 ⟨u, htag, hdelta⟩
  split at h₂
  · rename_i hsame
    obtain ⟨rfl, rfl⟩ := pure_run_ok_iff.1 h₂
    rw [hsame] at htag
    exact ⟨_, .same, Input.advances_cons_iff.2 ⟨u, htag, hdelta⟩⟩
  rename_i hchop hsame
  obtain ⟨happend, hfull⟩ := tag_facts hchop hsame
  split at h₂
  · rename_i hle
    obtain ⟨locals, w, hlocals, hpure⟩ := bind_run_ok_iff.1 h₂
    obtain ⟨rfl, rfl⟩ := pure_run_ok_iff.1 hpure
    obtain ⟨hlength, hlocals⟩ := readTypes_ok_iff.1 hlocals
    obtain ⟨hcount, hcancel⟩ := happend hle
    rw [← hlength] at hcount hcancel
    rw [← hcancel] at htag
    exact ⟨_, .append hcount, Input.advances_cons_iff.2
      ⟨u, htag, Input.advances_append_iff.2 ⟨v, hdelta, hlocals⟩⟩⟩
  · rename_i hgt
    obtain ⟨n, w, hlocalCount, h₃⟩ := bind_run_ok_iff.1 h₂
    obtain ⟨locals, x, hlocals, h₄⟩ := bind_run_ok_iff.1 h₃
    obtain ⟨m, y, hstackCount, h₅⟩ := bind_run_ok_iff.1 h₄
    obtain ⟨stack, z, hstack, hpure⟩ := bind_run_ok_iff.1 h₅
    obtain ⟨rfl, rfl⟩ := pure_run_ok_iff.1 hpure
    obtain ⟨rfl, hlocalTypes⟩ := readTypes_ok_iff.1 hlocals
    obtain ⟨rfl, hstackTypes⟩ := readTypes_ok_iff.1 hstack
    obtain ⟨hlocals, hlocalCount⟩ := count16_ok_iff.1 hlocalCount
    obtain ⟨hstack, hstackCount⟩ := count16_ok_iff.1 hstackCount
    rw [hfull hgt] at htag
    refine ⟨_, .full ⟨hlocals, hstack⟩, Input.advances_cons_iff.2 ⟨u, htag,
      Input.advances_append_iff.2 ⟨v, hdelta, Input.advances_append_iff.2 ⟨x, ?_, ?_⟩⟩⟩⟩
    · exact Input.advances_append_iff.2 ⟨w, hlocalCount, hlocalTypes⟩
    · exact Input.advances_append_iff.2 ⟨y, hstackCount, hstackTypes⟩

/-! ## Tables and their bytes -/

theorem delivers_of_each {frames : List Frame} {bytes : List UInt8} {s t : Input}
    (h : each encode frames = .ok bytes) (hadvances : s.Advances bytes t) :
    Delivers decode s frames t := by
  induction frames generalizing s bytes with
  | nil =>
    obtain rfl := Except.ok.inj h
    exact Input.advances_nil_iff.1 hadvances
  | cons f frames ih =>
    obtain ⟨front, back, hfront, hback, rfl⟩ := each_cons_eq_ok_iff.1 h
    obtain ⟨u, hf, hrest⟩ := Input.advances_append_iff.1 hadvances
    exact ⟨u, decode_of_spells (spells_of_encode hfront) hf, ih hback hrest⟩

/-- A table that is written is read back. -/
theorem decodeTable_of_encodeTable {frames : List Frame} {info : List UInt8}
    (h : encodeTable frames = .ok info) : decodeTable info = .ok frames := by
  obtain ⟨hlt, body, hbody, rfl⟩ := counted_eq_ok_iff.1 h
  obtain ⟨s, hcount, hframes⟩ := Input.advances_append_iff.1 (Input.advances_all _ 0)
  exact onBytes_table_ok_iff.2 ⟨hlt, s, _, hcount, delivers_of_each hbody hframes, rfl⟩

theorem writable_of_delivers {frames : List Frame} {s t : Input}
    (h : Delivers decode s frames t) : ∀ f ∈ frames, f.kind.Writable := by
  induction frames generalizing s with
  | nil => exact fun f hf => absurd hf List.not_mem_nil
  | cons f frames ih =>
    obtain ⟨u, hf, hrest⟩ := h
    obtain ⟨bytes, hspells, -⟩ := exists_spells_of_decode hf
    exact List.forall_mem_cons.2 ⟨hspells.writable, ih hrest⟩

/-- What a table can hold is what is read from it. -/
theorem writable_of_decodeTable {frames : List Frame} {info : List UInt8}
    (h : decodeTable info = .ok frames) :
    frames.length < 65536 ∧ ∀ f ∈ frames, f.kind.Writable := by
  obtain ⟨hlt, s, t, -, hframes, -⟩ := onBytes_table_ok_iff.1 h
  exact ⟨hlt, writable_of_delivers hframes⟩

/-- A table can be written if its frames can be counted and fit their fields. -/
theorem exists_encodeTable {frames : List Frame} (hlength : frames.length < 65536)
    (hframes : ∀ f ∈ frames, f.kind.Writable) : ∃ info, encodeTable frames = .ok info := by
  have hbody : ∃ body, each encode frames = .ok body := by
    clear hlength
    induction frames with
    | nil => exact ⟨[], rfl⟩
    | cons f frames ih =>
      obtain ⟨hf, hrest⟩ := List.forall_mem_cons.1 hframes
      obtain ⟨front, hfront⟩ := exists_encode_of_writable hf
      obtain ⟨back, hback⟩ := ih hrest
      exact ⟨front ++ back, each_cons_eq_ok_iff.2 ⟨front, back, hfront, hback, rfl⟩⟩
  obtain ⟨body, hbody⟩ := hbody
  exact ⟨_, counted_eq_ok_iff.2 ⟨hlength, body, hbody, rfl⟩⟩

end Frame

end PatternGuard
