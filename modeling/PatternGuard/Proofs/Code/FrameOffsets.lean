import PatternGuard.Proofs.Code.FrameMove

/-!
# Frame positions in 32-bit words

The position of a frame is a sum over all frames up to it (`Frame.offsets_eq`), and no frame takes
more than 65536 bytes of it (`Frame.lt_of_mem_offsets`). A sum that is made in 32-bit words loses
what is beyond them: for any frames it is the position modulo 2^32 (`Frame.wordOffsets_eq`), so that
the words are the positions exactly if all of these are less than 2^32
(`Frame.map_toNat_wordOffsets_eq_iff`). Of frames of the greatest delta, the 65537th is the first
beyond that bound (`Frame.wordOffsets_widest_iff`).
-/

set_option autoImplicit false

namespace PatternGuard.Frame

/-! ## Sums in words -/

/-- Where a frame stands that follows a frame at `previous`, if there is one. The sum wraps. -/
def wordAfter (previous : Option UInt32) (f : Frame) : UInt32 :=
  match previous with
  | none => f.delta.toUInt32
  | some p => p + f.delta.toUInt32 + 1

/-- The positions of frames that follow a frame at `previous`, if there is one. -/
def wordsAfter (previous : Option UInt32) : List Frame → List UInt32
  | [] => []
  | f :: rest =>
    let offset := f.wordAfter previous
    offset :: wordsAfter (some offset) rest

/-- The absolute positions of the frames, summed in 32-bit words. -/
def wordOffsets (frames : List Frame) : List UInt32 := wordsAfter none frames

/-- Reduction to words commutes with the step from one frame to the next. -/
theorem wordAfter_ofNat (previous : Option Nat) (f : Frame) :
    f.wordAfter (previous.map UInt32.ofNat) = UInt32.ofNat (f.offsetAfter previous) := by
  have hdelta := UInt32.ofNat_uInt16ToNat f.delta
  cases previous with
  | none => exact hdelta.symm
  | some p =>
    rw [offsetAfter, UInt32.ofNat_add, UInt32.ofNat_add, hdelta]
    rfl

theorem wordsAfter_ofNat (previous : Option Nat) (frames : List Frame) :
    wordsAfter (previous.map UInt32.ofNat) frames =
      ((locateAfter [] previous frames).map Prod.fst).map UInt32.ofNat := by
  induction frames generalizing previous with
  | nil => rfl
  | cons f frames ih =>
    rw [locateAfter_cons, List.map_cons, List.map_cons, ← ih, wordsAfter, wordAfter_ofNat]
    rfl

/-- The words are the positions modulo 2^32. -/
theorem wordOffsets_eq (frames : List Frame) :
    wordOffsets frames = (offsets frames).map UInt32.ofNat :=
  wordsAfter_ofNat none frames

/-- The words are the positions exactly if all of these are words. -/
theorem map_toNat_wordOffsets_eq_iff {frames : List Frame} :
    (wordOffsets frames).map UInt32.toNat = offsets frames ↔
      ∀ offset ∈ offsets frames, offset < 4294967296 := by
  constructor
  · intro h offset hoffset
    rw [← h] at hoffset
    obtain ⟨word, -, rfl⟩ := List.mem_map.1 hoffset
    exact word.toNat_lt
  · intro h
    calc (wordOffsets frames).map UInt32.toNat
        = (offsets frames).map (UInt32.toNat ∘ UInt32.ofNat) := by
          rw [wordOffsets_eq, List.map_map]
      _ = (offsets frames).map id := List.map_congr_left fun offset hoffset =>
          UInt32.toNat_ofNat_of_lt' (h offset hoffset)
      _ = offsets frames := List.map_id _

/-! ## Positions as sums -/

/-- Where the frame at an index stands: behind all deltas up to its own, and one byte behind each of
the frames before it. -/
def positionAt (frames : List Frame) (i : Nat) : Nat :=
  ((frames.take (i + 1)).map fun f => f.delta.toNat).sum + i

theorem positionAt_cons_zero (f : Frame) (frames : List Frame) :
    positionAt (f :: frames) 0 = f.delta.toNat := by
  simp [positionAt]

theorem positionAt_cons_succ (f : Frame) (frames : List Frame) (i : Nat) :
    positionAt (f :: frames) (i + 1) = f.delta.toNat + 1 + positionAt frames i := by
  rw [positionAt, positionAt, List.take_succ_cons, List.map_cons, List.sum_cons]
  omega

theorem map_fst_locateAfter (previous : Option Nat) (frames : List Frame) :
    (locateAfter [] previous frames).map Prod.fst =
      (List.range frames.length).map fun i => previous.elim 0 (· + 1) + positionAt frames i := by
  induction frames generalizing previous with
  | nil => rfl
  | cons f frames ih =>
    -- a frame without one before it stands as if it followed a frame at -1
    have hoffset : f.offsetAfter previous = previous.elim 0 (· + 1) + f.delta.toNat := by
      cases previous with
      | none => exact (Nat.zero_add _).symm
      | some p => exact Nat.add_right_comm p f.delta.toNat 1
    rw [locateAfter_cons, List.map_cons, ih, List.length_cons, List.range_succ_eq_map,
      List.map_cons, List.map_map, positionAt_cons_zero, ← hoffset]
    refine congrArg (_ :: ·) (List.map_congr_left fun i _ => ?_)
    show f.offsetAfter previous + 1 + positionAt frames i =
      previous.elim 0 (· + 1) + positionAt (f :: frames) (i + 1)
    rw [hoffset, positionAt_cons_succ]
    omega

/-- The positions that are summed up from frame to frame are these sums. -/
theorem offsets_eq (frames : List Frame) :
    offsets frames = (List.range frames.length).map (positionAt frames) := by
  rw [offsets, locate, map_fst_locateAfter]
  exact List.map_congr_left fun i _ => Nat.zero_add _

theorem pairwise_offsets (frames : List Frame) : (offsets frames).Pairwise (· < ·) :=
  List.pairwise_map.2 (pairwise_locate frames)

/-- No frame takes more than 65536 bytes. -/
theorem positionAt_lt (frames : List Frame) (i : Nat) :
    positionAt frames i < 65536 * (i + 1) := by
  induction frames generalizing i with
  | nil =>
    show 0 + i < 65536 * (i + 1)
    omega
  | cons f frames ih =>
    have hdelta := f.delta.toNat_lt
    cases i with
    | zero =>
      rw [positionAt_cons_zero]
      omega
    | succ i =>
      have hrest := ih i
      rw [positionAt_cons_succ]
      omega

theorem lt_of_mem_offsets {frames : List Frame} {offset : Nat} (h : offset ∈ offsets frames) :
    offset < 65536 * frames.length := by
  rw [offsets_eq] at h
  obtain ⟨i, hi, rfl⟩ := List.mem_map.1 h
  have hposition := positionAt_lt frames i
  rw [List.mem_range] at hi
  omega

/-! ## Frames as far apart as can be -/

/-- Frames of the greatest delta. -/
def widest (count : Nat) : List Frame := List.replicate count ⟨65535, .same⟩

theorem positionAt_widest {count i : Nat} (h : i < count) :
    positionAt (widest count) i = 65536 * i + 65535 := by
  have htake : (widest count).take (i + 1) = widest (i + 1) := by
    rw [widest, List.take_replicate, Nat.min_eq_left h, widest]
  rw [positionAt, htake, widest, List.map_replicate, List.sum_replicate_nat]
  show (i + 1) * 65535 + i = 65536 * i + 65535
  omega

theorem getLast?_offsets_widest (count : Nat) :
    (offsets (widest (count + 1))).getLast? = some (65536 * count + 65535) := by
  have hlength : (widest (count + 1)).length = count + 1 := List.length_replicate
  rw [offsets_eq, hlength, List.range_succ, List.map_append, List.map_singleton,
    List.getLast?_concat, positionAt_widest (Nat.lt_succ_self count)]

/-- Of frames of the greatest delta, the first 65536 stand at positions that are words. -/
theorem wordOffsets_widest_iff {count : Nat} :
    (wordOffsets (widest count)).map UInt32.toNat = offsets (widest count) ↔ count ≤ 65536 := by
  have hlength : (widest count).length = count := List.length_replicate
  rw [map_toNat_wordOffsets_eq_iff]
  constructor
  · intro h
    cases count with
    | zero => exact Nat.zero_le _
    | succ count =>
      -- the last frame is the first to stand too far behind
      have hlast := h _ (List.mem_of_getLast? (getLast?_offsets_widest count))
      omega
  · intro h offset hoffset
    have hlt := lt_of_mem_offsets hoffset
    rw [hlength] at hlt
    omega

/-- A table may hold frames of the greatest delta, as many as it can count. -/
theorem exists_decodeTable_widest {count : Nat} (h : count < 65536) :
    ∃ info, decodeTable info = .ok (widest count) := by
  have hlength : (widest count).length < 65536 := by rwa [widest, List.length_replicate]
  have hwritable : ∀ f ∈ widest count, f.kind.Writable := by
    intro f hf
    rw [List.eq_of_mem_replicate hf]
    trivial
  obtain ⟨info, hinfo⟩ := exists_encodeTable hlength hwritable
  exact ⟨info, decodeTable_of_encodeTable hinfo⟩

end PatternGuard.Frame
