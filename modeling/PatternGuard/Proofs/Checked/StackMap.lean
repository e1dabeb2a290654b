import PatternGuard.Proofs.Checked.Bytes
import PatternGuard.Proofs.Code.FrameOffsets

/-!
# Stack map frames without stops

The tags of frames are bytes that are computed from counts and deltas, and counts and deltas are
computed back from tags. Between the tests for the kind of a frame these are in range for all bytes
and for all frames. The absolute positions of frames add up the deltas of all frames before: a table
has at most 65535 of them, so that the sums are 32-bit words (`Frame.checkedLocate_eq`). The
greatest of them is 65537 less than 2^32 (`Frame.wordOffsets_exact`).
-/

set_option autoImplicit false

namespace PatternGuard

open Bytes Checked Outcome Reader

namespace Frame

/-- Reads one frame. -/
def checkedDecode : CheckedReader Frame := do
  let tag ← Reader.u8 context
  if tag ≤ 63 then return ⟨tag.toUInt16, .same⟩
  else if tag ≤ 127 then
    let delta ← minus tag.toNat 64
    let item ← VerificationType.decode
    return ⟨UInt16.ofNat delta, .sameWithItem item⟩
  else if tag ≤ 246 then
    CheckedState.fail (.malformedAttribute context (.reservedFrame tag))
  else
    let delta ← Reader.u16 context
    if tag = 247 then
      let item ← VerificationType.decode
      return ⟨delta, .sameWithItem item⟩
    else if tag ≤ 250 then
      let count ← minus 251 tag.toNat
      return ⟨delta, .chop (UInt8.ofNat count)⟩
    else if tag = 251 then return ⟨delta, .same⟩
    else if tag ≤ 254 then
      let count ← minus tag.toNat 251
      let locals ← readTypes count
      return ⟨delta, .append locals⟩
    else
      let localCount ← Reader.count16 context
      let locals ← readTypes localCount
      let stackCount ← Reader.count16 context
      let stack ← readTypes stackCount
      return ⟨delta, .full locals stack⟩

/-- The frames of a table. -/
def checkedDecodeTable (info : List UInt8) : CheckedExcept Fault (List Frame) :=
  (CheckedReader.table context checkedDecode).onBytes info

end Frame

/-! ## Writing -/

namespace FrameKind

/-- The bytes of a frame of this kind with the given delta. -/
def checkedEncode (delta : UInt16) : FrameKind → CheckedExcept Fault (List UInt8)
  | same =>
    if delta ≤ 63 then do
      let tag ← toUInt8 delta.toNat
      return [tag]
    else return 251 :: u16Bytes delta
  | sameWithItem item =>
    if delta ≤ 63 then do
      let short ← toUInt8 delta.toNat
      let tag ← toUInt8 (64 + short.toNat)
      return tag :: item.encode
    else return 247 :: u16Bytes delta ++ item.encode
  | chop count =>
    if 1 ≤ count ∧ count ≤ 3 then do
      let tag ← minus 251 count.toNat
      return UInt8.ofNat tag :: u16Bytes delta
    else .fail (.malformedAttribute "StackMapTable" (.chopCount count.toNat))
  | append locals =>
    if 1 ≤ locals.length ∧ locals.length ≤ 3 then do
      let count ← toUInt8 locals.length
      let tag ← toUInt8 (251 + count.toNat)
      return tag :: u16Bytes delta ++ encodeTypes locals
    else .fail (.malformedAttribute "StackMapTable" (.appendCount locals.length))
  | kind => liftM (kind.encode delta)

end FrameKind

namespace Frame

/-- The bytes of a frame table. -/
def checkedEncodeTable (frames : List Frame) : CheckedExcept Fault (List UInt8) :=
  CheckedExcept.counted "stack map frames" (fun f => f.kind.checkedEncode f.delta) frames

/-- Where a frame stands that follows a frame at `previous`, if there is one. -/
def checkedOffset (previous : Option Nat) (f : Frame) : Checked Nat :=
  match previous with
  | none => .ok f.delta.toNat
  | some p => fit 32 (p + f.delta.toNat + 1)

/-- The frames with their absolute positions, in front of those that `done` holds in reverse. -/
def checkedLocateAfter (done : List (Nat × Frame)) (previous : Option Nat) :
    List Frame → Checked (List (Nat × Frame))
  | [] => .ok done.reverse
  | f :: rest => do
    let offset ← checkedOffset previous f
    checkedLocateAfter ((offset, f) :: done) (some offset) rest

/-- The frames with their absolute positions. -/
def checkedLocate (frames : List Frame) : Checked (List (Nat × Frame)) :=
  checkedLocateAfter [] none frames

/-- Positions that are 32-bit words are summed without a stop. -/
theorem checkedLocateAfter_eq (done : List (Nat × Frame)) (previous : Option Nat)
    (frames : List Frame) (h : ∀ l ∈ locateAfter [] previous frames, l.1 < 4294967296) :
    checkedLocateAfter done previous frames = .ok (locateAfter done previous frames) := by
  induction frames generalizing done previous with
  | nil => rfl
  | cons f frames ih =>
    rw [locateAfter_cons] at h
    obtain ⟨hlt, hrest⟩ := List.forall_mem_cons.1 h
    have hoffset : checkedOffset previous f = .ok (f.offsetAfter previous) := by
      cases previous with
      | none => rfl
      | some p => exact fit_of_lt 32 hlt
    rw [checkedLocateAfter, bind_of_ok hoffset, locateAfter]
    exact ih _ _ hrest

/-- The positions of the frames in a table are 32-bit words. -/
theorem checkedLocate_eq {frames : List Frame} (h : frames.length < 65536) :
    checkedLocate frames = .ok (locate frames) := by
  refine checkedLocateAfter_eq [] none frames fun l hl => ?_
  have hlt : l.1 < 65536 * frames.length := lt_of_mem_offsets (List.mem_map_of_mem hl)
  omega

/-- The positions of the frames in a table are the same whether they are summed in 32-bit words or in
unbounded numbers: no sum is beyond a word. They ascend, and none is greater than the last position
of 65535 frames of the greatest delta, which a table can hold. -/
theorem wordOffsets_exact :
    (∀ info frames, decodeTable info = .ok frames →
      checkedLocate frames = .ok (locate frames) ∧
        (wordOffsets frames).map UInt32.toNat = offsets frames ∧
        offsets frames = (List.range frames.length).map (positionAt frames) ∧
        (wordOffsets frames).Pairwise (· < ·) ∧ ∀ offset ∈ offsets frames, offset ≤ 4294901759) ∧
      ∃ info, decodeTable info = .ok (widest 65535) ∧
        (offsets (widest 65535)).getLast? = some 4294901759 := by
  constructor
  · intro info frames h
    -- the bytes matter only in that they count the frames in 16 bits
    obtain ⟨hlength, -⟩ := writable_of_decodeTable h
    have hle : ∀ offset ∈ offsets frames, offset ≤ 4294901759 := by
      intro offset hoffset
      have hlt := lt_of_mem_offsets hoffset
      omega
    have hwords : (wordOffsets frames).map UInt32.toNat = offsets frames :=
      map_toNat_wordOffsets_eq_iff.2 fun offset hoffset =>
        Nat.lt_of_le_of_lt (hle offset hoffset) (by decide)
    refine ⟨checkedLocate_eq hlength, hwords, offsets_eq frames, ?_, hle⟩
    have hascending := pairwise_offsets frames
    rw [← hwords, List.pairwise_map] at hascending
    exact hascending.imp UInt32.lt_iff_toNat_lt.2
  · obtain ⟨info, hinfo⟩ := exists_decodeTable_widest (show 65535 < 65536 by decide)
    exact ⟨info, hinfo, getLast?_offsets_widest 65534⟩

/-- Two frames of the greatest delta and one right behind them. -/
def farFrames : List Frame := [⟨65535, .same⟩, ⟨65535, .sameWithItem .integer⟩, ⟨0, .chop 1⟩]

/-- The frames are read from a table, and so are 65535 frames of the greatest delta, whose words
ascend up to the last one. With two frames more the words would not be the positions. -/
theorem exists_words_farFrames :
    decodeTable [0, 3, 251, 255, 255, 247, 255, 255, 1, 250, 0, 0] = .ok farFrames ∧
      (wordOffsets farFrames).map UInt32.toNat = [65535, 131071, 131072] ∧
      (∃ info, decodeTable info = .ok (widest 65535) ∧
        (wordOffsets (widest 65535)).Pairwise (· < ·) ∧
        (wordOffsets (widest 65535)).getLast? = some 4294901759) ∧
      (wordOffsets (widest 65537)).map UInt32.toNat ≠ offsets (widest 65537) := by
  have hread : decodeTable [0, 3, 251, 255, 255, 247, 255, 255, 1, 250, 0, 0] = .ok farFrames := by
    decide +kernel
  obtain ⟨htables, info, hinfo, hlast⟩ := wordOffsets_exact
  obtain ⟨-, hwords, -⟩ := htables _ _ hread
  obtain ⟨-, -, -, hascending, -⟩ := htables _ _ hinfo
  refine ⟨hread, ?_, ⟨info, hinfo, hascending, ?_⟩, ?_⟩
  · rw [hwords]
    rfl
  · rw [wordOffsets_eq, List.getLast?_map, hlast]
    rfl
  · rw [ne_eq, wordOffsets_widest_iff]
    decide

/-! ## Moves -/

/-- The number of bytes between a frame at `offset` and a frame at `previous`, if there is one. -/
def checkedGap (previous : Option Nat) (offset : Nat) : CheckedExcept Fault Nat :=
  match previous with
  | none => return offset
  | some p =>
    if p < offset then do
      let distance ← minus offset p
      return ← minus distance 1
    else .fail (.malformedAttribute "StackMapTable" (.frameOrder offset p))

/-- The delta of a frame at `offset` that follows a frame at `previous`, if there is one. -/
def checkedDeltaAfter (previous : Option Nat) (offset : Nat) : CheckedExcept Fault UInt16 := do
  let delta ← checkedGap previous offset
  if delta < 65536 then return UInt16.ofNat delta
  else .fail (.malformedAttribute "StackMapTable" .deltaOverflow)

/-- The located frames moved by `frameAt`, and the uninitialized values in them by `newAt`, after
the frames that `done` holds in reverse. -/
def checkedMoveAfter (frameAt newAt : Nat → Except Fault Nat) (done : List Frame)
    (previous : Option Nat) : List (Nat × Frame) → CheckedExcept Fault (List Frame)
  | [] => return done.reverse
  | (old, f) :: rest => do
    let offset ← frameAt old
    let delta ← checkedDeltaAfter previous offset
    let kind ← f.kind.move newAt
    checkedMoveAfter frameAt newAt (⟨delta, kind⟩ :: done) (some offset) rest

/-- The frames moved by `frameAt`, and the uninitialized values in them by `newAt`. -/
def checkedMoveTable (frameAt newAt : Nat → Except Fault Nat) (frames : List Frame) :
    CheckedExcept Fault (List Frame) := do
  let located ← checkedLocate frames
  checkedMoveAfter frameAt newAt [] none located

end Frame

end PatternGuard
