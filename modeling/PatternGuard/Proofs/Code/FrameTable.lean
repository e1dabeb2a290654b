import PatternGuard.Proofs.Code.StackMap

/-!
# Frame tables and their bytes

A table can be written exactly if its frames can be counted and the numbers in them fit their fields
(`Frame.exists_encodeTable_iff`). Of the spellings of a frame the shortest is written
(`Frame.length_le_of_spells`), so that a table that is read is written again in no more bytes than
it was read from, and is then read as the same table (`Frame.tables_faithful`).
-/

set_option autoImplicit false

namespace PatternGuard.Frame

open Bytes Outcome Reader

variable {frames : List Frame} {info info' : List UInt8}

theorem exists_encodeTable_iff : (∃ info, encodeTable frames = .ok info) ↔
    frames.length < 65536 ∧ ∀ f ∈ frames, f.kind.Writable := by
  constructor
  · rintro ⟨info, h⟩
    exact writable_of_decodeTable (decodeTable_of_encodeTable h)
  · rintro ⟨hlength, hframes⟩
    exact exists_encodeTable hlength hframes

/-! ## Shortest spellings -/

/-- No spelling of a frame is shorter than the one that is written. -/
theorem length_le_of_spells {f : Frame} {bytes bytes' : List UInt8} (h : f.encode = .ok bytes)
    (hspells : f.Spells bytes') : bytes.length ≤ bytes'.length := by
  have hwritten := spells_of_encode h
  cases hspells with
  | sameShort hshort =>
    simp only [encode, FrameKind.encode, hshort, ↓reduceIte, Except.ok.injEq] at h
    rw [← h]
  | itemShort hshort =>
    simp only [encode, FrameKind.encode, hshort, ↓reduceIte, Except.ok.injEq] at h
    rw [← h]
  | same =>
    cases hwritten with
    | sameShort hshort => exact Nat.succ_le_succ (Nat.zero_le _)
    | same => exact Nat.le_refl _
  | item =>
    cases hwritten with
    | itemShort hshort =>
      simp only [List.length_cons, List.length_append]
      omega
    | item => exact Nat.le_refl _
  | chop hcount =>
    cases hwritten
    exact Nat.le_refl _
  | append hcount =>
    cases hwritten
    exact Nat.le_refl _
  | full hcounts =>
    cases hwritten
    exact Nat.le_refl _

/-- The frames that are delivered are written in no more bytes than they were delivered from. -/
theorem length_le_of_delivers {body : List UInt8} {s t : Input}
    (hbody : each encode frames = .ok body) (h : Delivers decode s frames t) :
    body.length + t.rest.length ≤ s.rest.length := by
  induction frames generalizing s body with
  | nil =>
    obtain rfl := Except.ok.inj hbody
    obtain rfl : s = t := h
    exact Nat.le_of_eq (Nat.zero_add _)
  | cons f frames ih =>
    obtain ⟨front, back, hfront, hback, rfl⟩ := each_cons_eq_ok_iff.1 hbody
    obtain ⟨u, hf, hrest⟩ := h
    obtain ⟨bytes, hspells, hadvances⟩ := exists_spells_of_decode hf
    have hfirst := length_le_of_spells hfront hspells
    have hothers := ih hback hrest
    have hlength := hadvances.length_rest
    rw [List.length_append]
    omega

/-- A table that was read is not written in more bytes. -/
theorem length_encodeTable_le (hread : decodeTable info = .ok frames)
    (hwrite : encodeTable frames = .ok info') : info'.length ≤ info.length := by
  obtain ⟨-, s, t, hcount, hframes, -⟩ := onBytes_table_ok_iff.1 hread
  obtain ⟨-, body, hbody, rfl⟩ := counted_eq_ok_iff.1 hwrite
  have hlength := length_le_of_delivers hbody hframes
  have hinfo : info.length = (toBytes 2 frames.length).length + s.rest.length := hcount.length_rest
  rw [List.length_append]
  omega

/-! ## Reading and writing -/

/-- A table can be written exactly if its frames can be counted, a frame that drops or adds locals
does so with one to three, and full frames have countable locals and stack items. What is written is
read back. A table that is read can be written again, in no more bytes than it was read from, and
these are read as the same table. -/
theorem tables_faithful :
    (∀ frames, (∃ info, encodeTable frames = .ok info) ↔
      frames.length < 65536 ∧ ∀ f ∈ frames, f.kind.Writable) ∧
      (∀ frames info, encodeTable frames = .ok info → decodeTable info = .ok frames) ∧
      ∀ info frames, decodeTable info = .ok frames → ∃ info', encodeTable frames = .ok info' ∧
        info'.length ≤ info.length ∧ decodeTable info' = .ok frames := by
  refine ⟨?_, ?_, ?_⟩
  · intro frames
    exact exists_encodeTable_iff
  · intro frames info h
    exact decodeTable_of_encodeTable h
  · intro info frames h
    obtain ⟨info', hinfo'⟩ := exists_encodeTable_iff.2 (writable_of_decodeTable h)
    exact ⟨info', hinfo', length_encodeTable_le h hinfo', decodeTable_of_encodeTable hinfo'⟩

/-- Frames at the greatest delta of a short form and one beyond it, and one that drops locals. -/
def borderFrames : List Frame :=
  [⟨63, .same⟩, ⟨63, .sameWithItem (.object 3)⟩, ⟨64, .same⟩, ⟨0, .chop 3⟩]

/-- The first two frames stand in their long forms: they are read, and written in four bytes less.
With a frame that drops four locals the table cannot be written. -/
theorem exists_faithful_borderFrames :
    decodeTable [0, 4, 251, 0, 63, 247, 0, 63, 7, 0, 3, 251, 0, 64, 248, 0, 0] = .ok borderFrames ∧
      (∃ info, encodeTable borderFrames = .ok info ∧ info.length ≤ 17 ∧
        decodeTable info = .ok borderFrames) ∧
      encodeTable borderFrames = .ok [0, 4, 63, 127, 7, 0, 3, 251, 0, 64, 248, 0, 0] ∧
      ¬∃ info, encodeTable (⟨0, .chop 4⟩ :: borderFrames) = .ok info := by
  have hread : decodeTable [0, 4, 251, 0, 63, 247, 0, 63, 7, 0, 3, 251, 0, 64, 248, 0, 0] =
      .ok borderFrames := by
    decide +kernel
  obtain ⟨hwritable, -, hagain⟩ := tables_faithful
  refine ⟨hread, hagain _ _ hread, by decide +kernel, ?_⟩
  rw [hwritable]
  rintro ⟨-, hframes⟩
  have hchop := hframes _ List.mem_cons_self
  exact absurd hchop.2 (by decide)

end PatternGuard.Frame
