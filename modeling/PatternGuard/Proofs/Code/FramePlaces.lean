import PatternGuard.Proofs.Code.FrameMove

/-!
# Places of moved frames

Frames may stand wherever each lies behind the one before it, no farther than a delta of 16 bits
reaches (`Frame.Spaced`); a table has just the deltas that put its frames there. So moving a table
succeeds exactly if the frames go to such places and the uninitialized values to 16-bit offsets, and
then the frames stand where they were taken and are otherwise the same (`Frame.moveTable_exact`).
Nothing is asked of the two maps: they may fail, and need not keep any order. A map that keeps the
order of 16-bit offsets is in nobody's way (`Frame.exists_moveTable`).
-/

set_option autoImplicit false

namespace PatternGuard

open Outcome

/-! ## Types that follow -/

/-- The types that a frame names follow one by one. -/
theorem FrameKind.Follows.forall₂_types {moves : Nat → Nat → Prop} {kind kind' : FrameKind}
    (h : kind.Follows moves kind') :
    List.Forall₂ (VerificationType.Follows moves) kind.types kind'.types := by
  cases h with
  | same | chop => exact List.Forall₂.nil
  | sameWithItem hitem => exact List.Forall₂.cons hitem List.Forall₂.nil
  | append hlocals => exact hlocals
  | full hlocals hstack => exact List.rel_append hlocals hstack

/-- A kind can follow exactly if the uninitialized values in it go to offsets of 16 bits. -/
theorem FrameKind.exists_follows_iff {moves : Nat → Nat → Prop} {kind : FrameKind} :
    (∃ kind', kind.Follows moves kind') ↔ ∀ offset, .uninitialized offset ∈ kind.types →
      ∃ place, moves offset.toNat place ∧ place < 65536 := by
  constructor
  · rintro ⟨kind', h⟩ offset hoffset
    obtain ⟨type', -, htype⟩ := exists_mem_zip_of_forall₂ h.forall₂_types hoffset
    cases htype with
    | @uninitialized _ offset' hmoves => exact ⟨offset'.toNat, hmoves, offset'.toNat_lt⟩
    | same hsame => exact absurd rfl (hsame offset)
  · intro h
    apply exists_follows
    intro offset hoffset
    obtain ⟨place, hmoves, hlt⟩ := h offset hoffset
    exact ⟨UInt16.ofNat place, by rwa [UInt16.toNat_ofNat_of_lt' hlt]⟩

namespace Frame

/-! ## Places within reach -/

/-- A delta of 16 bits takes a frame to the offset from the frame before it, if there is one. -/
def WithinReach : Option Nat → Nat → Prop
  | none, offset => offset < 65536
  | some previous, offset => previous < offset ∧ offset - previous - 1 < 65536

/-- Each of the offsets is within reach of the one before it, and the first of the previous one. -/
def Spaced (previous : Option Nat) : List Nat → Prop
  | [] => True
  | offset :: rest => WithinReach previous offset ∧ Spaced (some offset) rest

theorem withinReach_iff {previous : Option Nat} {offset : Nat} (kind : FrameKind) :
    WithinReach previous offset ↔ ∃ delta, offsetAfter previous ⟨delta, kind⟩ = offset := by
  cases previous with
  | none =>
    constructor
    · intro h
      exact ⟨UInt16.ofNat offset, UInt16.toNat_ofNat_of_lt' h⟩
    · rintro ⟨delta, rfl⟩
      exact delta.toNat_lt
  | some previous =>
    constructor
    · rintro ⟨hlt, hreach⟩
      refine ⟨UInt16.ofNat (offset - previous - 1), ?_⟩
      show previous + (UInt16.ofNat (offset - previous - 1)).toNat + 1 = offset
      rw [UInt16.toNat_ofNat_of_lt' hreach]
      omega
    · rintro ⟨delta, rfl⟩
      have hdelta := delta.toNat_lt
      show previous < previous + delta.toNat + 1 ∧
        previous + delta.toNat + 1 - previous - 1 < 65536
      omega

theorem spaced_some_iff {previous : Nat} {offsets : List Nat} :
    Spaced (some previous) offsets ↔
      (previous :: offsets).IsChain fun p q => p < q ∧ q - p - 1 < 65536 := by
  induction offsets generalizing previous with
  | nil => exact iff_of_true trivial (List.IsChain.singleton previous)
  | cons offset rest ih =>
    rw [List.isChain_cons_cons, ← ih]
    exact Iff.rfl

/-- The first offset fits 16 bits, and so does each delta to the next one. -/
theorem spaced_none_iff {offsets : List Nat} :
    Spaced none offsets ↔ (∀ offset ∈ offsets.head?, offset < 65536) ∧
      offsets.IsChain fun p q => p < q ∧ q - p - 1 < 65536 := by
  cases offsets with
  | nil => exact iff_of_true trivial ⟨by simp, List.IsChain.nil⟩
  | cons offset rest =>
    rw [Spaced, spaced_some_iff, List.head?_cons]
    simp [WithinReach]

/-- The frames of a table are spaced. -/
theorem spaced_locateAfter (previous : Option Nat) (frames : List Frame) :
    Spaced previous ((locateAfter [] previous frames).map Prod.fst) := by
  induction frames generalizing previous with
  | nil => trivial
  | cons f frames ih =>
    rw [locateAfter_cons, List.map_cons]
    exact ⟨(withinReach_iff f.kind).2 ⟨f.delta, rfl⟩, ih _⟩

/-- Frames of any kinds may stand at offsets that are spaced. -/
theorem exists_locateAfter {previous : Option Nat} {offsets : List Nat} {kinds : List FrameKind}
    (hlength : kinds.length = offsets.length) (h : Spaced previous offsets) :
    ∃ frames, (locateAfter [] previous frames).map Prod.fst = offsets ∧
      frames.map kind = kinds := by
  induction offsets generalizing previous kinds with
  | nil =>
    obtain rfl := List.length_eq_zero_iff.1 hlength
    exact ⟨[], rfl, rfl⟩
  | cons offset rest ih =>
    cases kinds with
    | nil => exact absurd hlength (by simp)
    | cons kind kinds =>
      rw [List.length_cons, List.length_cons, Nat.add_right_cancel_iff] at hlength
      obtain ⟨delta, hdelta⟩ := (withinReach_iff kind).1 h.1
      obtain ⟨frames, hframes, hkinds⟩ := ih hlength h.2
      refine ⟨⟨delta, kind⟩ :: frames, ?_, ?_⟩
      · rw [locateAfter_cons, hdelta, List.map_cons, hframes]
      · rw [List.map_cons, hkinds]

/-! ## Moved tables -/

/-- Located frames follow exactly if their places and their kinds do. -/
theorem forall₂_follows_iff {lands moves : Nat → Nat → Prop} {ls ls' : List (Nat × Frame)} :
    List.Forall₂ (Follows lands moves) ls ls' ↔
      List.Forall₂ lands (ls.map Prod.fst) (ls'.map Prod.fst) ∧
        List.Forall₂ (fun f f' : Frame => f.kind.Follows moves f'.kind) (ls.map Prod.snd)
          (ls'.map Prod.snd) := by
  simp only [List.forall₂_map_left_iff, List.forall₂_map_right_iff]
  constructor
  · intro h
    exact ⟨h.imp fun _ _ hl => hl.place, h.imp fun _ _ hl => hl.kind⟩
  · rintro ⟨hplaces, hkinds⟩
    induction hplaces with
    | nil => exact List.Forall₂.nil
    | cons hplace _ ih =>
      obtain ⟨hkind, hkinds⟩ := List.forall₂_cons.1 hkinds
      exact List.Forall₂.cons ⟨hplace, hkind⟩ (ih hkinds)

variable {frameAt newAt : Nat → Except Fault Nat} {frames frames' : List Frame}

/-- What becomes of a table when it is moved: its places are mapped one by one, the kinds follow. -/
theorem moveTable_eq_ok_iff : moveTable frameAt newAt frames = .ok frames' ↔
    (offsets frames).mapM frameAt = .ok (offsets frames') ∧
      List.Forall₂ (fun f f' => f.kind.Follows (fun a b => newAt a = .ok b) f'.kind)
        frames frames' := by
  rw [moveTable_ok_iff, forall₂_follows_iff, map_snd_locate, map_snd_locate, mapM_ok_iff]
  exact Iff.rfl

theorem exists_moveTable_iff : (∃ frames', moveTable frameAt newAt frames = .ok frames') ↔
    (∃ places, (offsets frames).mapM frameAt = .ok places ∧ Spaced none places) ∧
      ∀ f ∈ frames, ∃ kind', f.kind.Follows (fun a b => newAt a = .ok b) kind' := by
  constructor
  · rintro ⟨frames', h⟩
    obtain ⟨hplaces, hkinds⟩ := moveTable_eq_ok_iff.1 h
    refine ⟨⟨_, hplaces, spaced_locateAfter none frames'⟩, ?_⟩
    intro f hf
    obtain ⟨f', -, hfollows⟩ := exists_mem_zip_of_forall₂ hkinds hf
    exact ⟨f'.kind, hfollows⟩
  · rintro ⟨⟨places, hplaces, hspaced⟩, hkinds⟩
    obtain ⟨kinds, hkinds⟩ := exists_forall₂ hkinds
    -- there are as many places as frames, and as many kinds
    have hlength : kinds.length = places.length := by
      have hmapped := (mapM_ok_iff.1 hplaces).length_eq
      rw [← hkinds.length_eq, ← hmapped, offsets, List.length_map, ← List.length_map Prod.snd,
        map_snd_locate]
    obtain ⟨frames', hoffsets, rfl⟩ := exists_locateAfter hlength hspaced
    refine ⟨frames', moveTable_eq_ok_iff.2 ⟨?_, List.forall₂_map_right_iff.1 hkinds⟩⟩
    rw [hplaces, ← hoffsets]
    rfl

/-- Offsets of 16 bits that ascend are spaced. -/
theorem spaced_of_pairwise {offsets : List Nat} (h : offsets.Pairwise (· < ·))
    (hlt : ∀ offset ∈ offsets, offset < 65536) : Spaced none offsets := by
  refine spaced_none_iff.2 ⟨fun offset hhead => hlt offset (List.mem_of_mem_head? hhead), ?_⟩
  refine (h.imp_of_mem fun hp hq hpq => ?_).isChain
  have hbound := hlt _ hq
  exact ⟨hpq, by omega⟩

/-- A table can be moved if its frames go, in order, to offsets of 16 bits, and so do the
instructions that it refers to. -/
theorem exists_moveTable
    (hmono : ∀ a b a' b', a < b → frameAt a = .ok a' → frameAt b = .ok b' → a' < b')
    (hplaces : ∀ offset ∈ offsets frames, ∃ place, frameAt offset = .ok place ∧ place < 65536)
    (htypes : ∀ f ∈ frames, ∀ offset, .uninitialized offset ∈ f.kind.types →
      ∃ place, newAt offset.toNat = .ok place ∧ place < 65536) :
    ∃ frames', moveTable frameAt newAt frames = .ok frames' := by
  obtain ⟨places, hmapped⟩ := exists_forall₂ hplaces
  have hascending : places.Pairwise (· < ·) := by
    refine pairwise_of_forall₂ (fun a b a' b' ha hb hab => hmono a b a' b' hab ha.1 hb.1) hmapped ?_
    exact List.pairwise_map.2 (pairwise_locate frames)
  have hlt : ∀ place ∈ places, place < 65536 := by
    intro place hplace
    obtain ⟨offset, -, hoffset⟩ := exists_mem_zip_of_mem_right hmapped hplace
    exact hoffset.2
  refine exists_moveTable_iff.2 ⟨⟨places, ?_, spaced_of_pairwise hascending hlt⟩, ?_⟩
  · exact mapM_ok_iff.2 (hmapped.imp fun _ _ hplace => hplace.1)
  · intro f hf
    exact FrameKind.exists_follows_iff.2 (htypes f hf)

/-- A table can be moved exactly if every frame has a place to go to, each behind the one before and
within reach of its delta, and every uninitialized value in it comes from an instruction that goes
to an offset of 16 bits. Then the frames stand at these places, in their order, and nothing else has
changed but the offsets of the uninitialized values. -/
theorem moveTable_exact (frameAt newAt : Nat → Except Fault Nat) (frames : List Frame) :
    ((∃ frames', moveTable frameAt newAt frames = .ok frames') ↔
      (∃ places, (offsets frames).mapM frameAt = .ok places ∧
        (∀ first ∈ places.head?, first < 65536) ∧
          places.IsChain fun p q => p < q ∧ q - p - 1 < 65536) ∧
        ∀ f ∈ frames, ∀ offset, .uninitialized offset ∈ f.kind.types →
          ∃ place, newAt offset.toNat = .ok place ∧ place < 65536) ∧
      ∀ frames', moveTable frameAt newAt frames = .ok frames' ↔
        (offsets frames).mapM frameAt = .ok (offsets frames') ∧
          List.Forall₂ (fun f f' => f.kind.Follows (fun a b => newAt a = .ok b) f'.kind)
            frames frames' := by
  constructor
  · simp only [exists_moveTable_iff, spaced_none_iff, FrameKind.exists_follows_iff]
  · intro frames'
    exact moveTable_eq_ok_iff

/-- Three frames, at offsets 5, 8 and 9, with an uninitialized value from offset 8. -/
def threeFrames : List Frame :=
  [⟨5, .append [.object 3]⟩, ⟨2, .sameWithItem (.uninitialized 8)⟩, ⟨0, .chop 1⟩]

/-- The frames can be moved by 100 bytes, but not so that the first two come to stand at the same
offset, and not if the uninitialized value comes from an offset beyond 16 bits. -/
theorem exists_moveTable_threeFrames :
    (∃ frames', moveTable (fun n => .ok (n + 100)) (fun n => .ok (2 * n)) threeFrames =
        .ok frames' ∧ offsets frames' = [105, 108, 109] ∧
        frames'.map kind = [.append [.object 3], .sameWithItem (.uninitialized 16), .chop 1]) ∧
      (¬∃ frames', moveTable (fun n => .ok (n / 9)) .ok threeFrames = .ok frames') ∧
      ¬∃ frames', moveTable .ok (fun n => .ok (8192 * n)) threeFrames = .ok frames' := by
  refine ⟨?_, ?_, ?_⟩
  · obtain ⟨hexists, hmoved⟩ :=
      moveTable_exact (fun n => .ok (n + 100)) (fun n => .ok (2 * n)) threeFrames
    obtain ⟨frames', hframes'⟩ := hexists.2
      ⟨⟨[105, 108, 109], rfl, by decide, by decide⟩, by simp [threeFrames, FrameKind.types]⟩
    obtain ⟨hplaces, -⟩ := (hmoved frames').1 hframes'
    refine ⟨frames', hframes', (Except.ok.inj hplaces).symm, ?_⟩
    rw [← Except.ok.inj hframes']
    rfl
  · rw [(moveTable_exact _ _ _).1]
    rintro ⟨⟨places, hplaces, -, hchain⟩, -⟩
    obtain rfl : [0, 0, 1] = places := Except.ok.inj hplaces
    exact absurd hchain (by decide)
  · rw [(moveTable_exact _ _ _).1]
    rintro ⟨-, htypes⟩
    obtain ⟨place, hplace, hlt⟩ := htypes ⟨2, .sameWithItem (.uninitialized 8)⟩
      (List.mem_cons_of_mem _ List.mem_cons_self) 8 List.mem_cons_self
    obtain rfl : 65536 = place := Except.ok.inj hplace
    exact absurd hlt (Nat.lt_irrefl _)

end Frame

end PatternGuard
