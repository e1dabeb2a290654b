import PatternGuard.Proofs.Code.StackMap

/-!
# Moving stack map frames

The place of a frame is relative to the frame before it. Moving a table comes down to moving the
located frames one by one: each goes where it is taken, its kind follows (`FrameKind.Follows`), and
the places of the new table are just these (`Frame.moveTable_ok_iff`). A kind can follow if the
uninitialized values in it can (`FrameKind.exists_follows`).
-/

set_option autoImplicit false

namespace PatternGuard

open Outcome

/-! ## Located frames -/

namespace Frame

theorem locateAfter_eq (done : List (Nat × Frame)) (previous : Option Nat)
    (frames : List Frame) :
    locateAfter done previous frames = done.reverse ++ locateAfter [] previous frames := by
  induction frames generalizing done previous with
  | nil => simp [locateAfter]
  | cons f frames ih =>
    rw [locateAfter, locateAfter, ih, ih [_]]
    simp

theorem locateAfter_cons (previous : Option Nat) (f : Frame) (frames : List Frame) :
    locateAfter [] previous (f :: frames) =
      (f.offsetAfter previous, f) :: locateAfter [] (some (f.offsetAfter previous)) frames := by
  rw [locateAfter, locateAfter_eq]
  rfl

theorem map_snd_locateAfter (previous : Option Nat) (frames : List Frame) :
    (locateAfter [] previous frames).map Prod.snd = frames := by
  induction frames generalizing previous with
  | nil => rfl
  | cons f frames ih => rw [locateAfter_cons, List.map_cons, ih]

theorem map_snd_locate (frames : List Frame) : (locate frames).map Prod.snd = frames :=
  map_snd_locateAfter none frames

theorem lt_of_mem_locateAfter {previous : Nat} {frames : List Frame} {l : Nat × Frame}
    (h : l ∈ locateAfter [] (some previous) frames) : previous < l.1 := by
  induction frames generalizing previous with
  | nil => exact absurd h List.not_mem_nil
  | cons f frames ih =>
    rw [locateAfter_cons, List.mem_cons] at h
    have hlt : previous < f.offsetAfter (some previous) := by
      show previous < previous + f.delta.toNat + 1
      omega
    rcases h with rfl | h
    · exact hlt
    · exact Nat.lt_trans hlt (ih h)

/-- Frames stand one behind the other. -/
theorem pairwise_locate (frames : List Frame) :
    (locate frames).Pairwise fun l m => l.1 < m.1 := by
  rw [locate]
  -- only the first frame has none before it, so the induction is over any previous offset
  generalize none = previous
  induction frames generalizing previous with
  | nil => exact List.Pairwise.nil
  | cons f frames ih =>
    rw [locateAfter_cons]
    exact List.pairwise_cons.2 ⟨fun l hl => lt_of_mem_locateAfter hl, ih _⟩

/-- The delta that takes a frame to an offset. -/
theorem deltaAfter_ok_iff {previous : Option Nat} {offset : Nat} {delta : UInt16}
    {kind : FrameKind} :
    deltaAfter previous offset = .ok delta ↔
      offsetAfter previous ⟨delta, kind⟩ = offset := by
  have hdelta := delta.toNat_lt
  -- a number of 16 bits is the delta exactly if the delta is that number
  have hword : ∀ n, (if n < 65536 then (.ok (UInt16.ofNat n) : Except Fault UInt16)
      else .error (.malformedAttribute "StackMapTable" .deltaOverflow)) = .ok delta ↔
        delta.toNat = n := by
    intro n
    split
    · rename_i hn
      rw [Except.ok.injEq, ← UInt16.toNat_inj, UInt16.toNat_ofNat_of_lt' hn]
      exact eq_comm
    · simp
      omega
  cases previous with
  | none => exact hword offset
  | some p =>
    -- a delta takes a frame at least one byte behind the frame before it
    by_cases hlt : p < offset
    · have hdelta : deltaAfter (some p) offset = .ok delta ↔ delta.toNat = offset - p - 1 := by
        rw [← hword]
        simp only [deltaAfter, hlt, ↓reduceIte]
        rfl
      rw [hdelta]
      show delta.toNat = offset - p - 1 ↔ p + delta.toNat + 1 = offset
      omega
    · have herror : deltaAfter (some p) offset ≠ .ok delta := by
        simp [deltaAfter, hlt, bind, Except.bind]
      refine iff_of_false herror ?_
      show ¬p + delta.toNat + 1 = offset
      omega

end Frame

/-! ## Types that follow the code -/

/-- The type is the same, but that an uninitialized value is made where the instruction that made it
has moved. -/
inductive VerificationType.Follows (moves : Nat → Nat → Prop) :
    VerificationType → VerificationType → Prop
  | uninitialized {offset offset' : UInt16} : moves offset.toNat offset'.toNat →
      Follows moves (.uninitialized offset) (.uninitialized offset')
  | same {type : VerificationType} : (∀ offset, type ≠ .uninitialized offset) →
      Follows moves type type

/-- The kind is the same, and so are its types, but for the uninitialized values that have moved. -/
inductive FrameKind.Follows (moves : Nat → Nat → Prop) : FrameKind → FrameKind → Prop
  | same : Follows moves .same .same
  | sameWithItem {item item' : VerificationType} : item.Follows moves item' →
      Follows moves (.sameWithItem item) (.sameWithItem item')
  | chop {count : UInt8} : Follows moves (.chop count) (.chop count)
  | append {locals locals' : List VerificationType} :
      List.Forall₂ (VerificationType.Follows moves) locals locals' →
      Follows moves (.append locals) (.append locals')
  | full {locals locals' stack stack' : List VerificationType} :
      List.Forall₂ (VerificationType.Follows moves) locals locals' →
      List.Forall₂ (VerificationType.Follows moves) stack stack' →
      Follows moves (.full locals stack) (.full locals' stack')

/-- A located frame follows the code: it stands where its place has gone, and the instructions that
it refers to are the same. -/
structure Frame.Follows (lands moves : Nat → Nat → Prop) (l l' : Nat × Frame) : Prop where
  place : lands l.1 l'.1
  kind : l.2.kind.Follows moves l'.2.kind

/-- What follows a kind fits the fields that the kind fits. -/
theorem FrameKind.Follows.writable {moves : Nat → Nat → Prop} {kind kind' : FrameKind}
    (h : kind.Follows moves kind') (hkind : kind.Writable) : kind'.Writable := by
  cases h with
  | same | sameWithItem _ | chop => exact hkind
  | append hlocals =>
    simp only [Writable, ← hlocals.length_eq]
    exact hkind
  | full hlocals hstack =>
    simp only [Writable, ← hlocals.length_eq, ← hstack.length_eq]
    exact hkind

/-! ## Moving frames -/

theorem VerificationType.move_ok_iff {newAt : Nat → Except Fault Nat}
    {type type' : VerificationType} :
    type.move newAt = .ok type' ↔ type.Follows (fun a b => newAt a = .ok b) type' := by
  constructor
  · intro h
    cases type with
    | uninitialized offset =>
      obtain ⟨new, hnew, h₁⟩ := bind_ok_iff.1 h
      split at h₁
      · rename_i hlt
        obtain rfl := pure_ok_iff.1 h₁
        refine .uninitialized ?_
        rw [hnew, UInt16.toNat_ofNat_of_lt' hlt]
      · exact absurd h₁ throw_ne_ok
    | _ =>
      obtain rfl := Except.ok.inj h
      exact .same (by simp)
  · intro h
    cases h with
    | @uninitialized offset offset' hnew =>
      refine bind_ok_iff.2 ⟨_, hnew, ?_⟩
      rw [if_pos offset'.toNat_lt, UInt16.ofNat_toNat]
      rfl
    | same hsame =>
      cases type with
      | uninitialized offset => exact absurd rfl (hsame offset)
      | _ => rfl

theorem VerificationType.mapM_move_ok_iff {newAt : Nat → Except Fault Nat}
    {types types' : List VerificationType} :
    types.mapM (move newAt) = .ok types' ↔
      List.Forall₂ (Follows fun a b => newAt a = .ok b) types types' := by
  rw [mapM_ok_iff]
  constructor
  · intro h
    exact h.imp fun _ _ htype => move_ok_iff.1 htype
  · intro h
    exact h.imp fun _ _ htype => move_ok_iff.2 htype

theorem FrameKind.move_ok_iff {newAt : Nat → Except Fault Nat} {kind kind' : FrameKind} :
    kind.move newAt = .ok kind' ↔ kind.Follows (fun a b => newAt a = .ok b) kind' := by
  constructor
  · intro h
    cases kind with
    | same =>
      obtain rfl := Except.ok.inj h
      exact .same
    | chop count =>
      obtain rfl := Except.ok.inj h
      exact .chop
    | sameWithItem item =>
      obtain ⟨item', hitem, hpure⟩ := bind_ok_iff.1 h
      obtain rfl := pure_ok_iff.1 hpure
      exact .sameWithItem (VerificationType.move_ok_iff.1 hitem)
    | append locals =>
      obtain ⟨locals', hlocals, hpure⟩ := bind_ok_iff.1 h
      obtain rfl := pure_ok_iff.1 hpure
      exact .append (VerificationType.mapM_move_ok_iff.1 hlocals)
    | full locals stack =>
      obtain ⟨locals', hlocals, h₁⟩ := bind_ok_iff.1 h
      obtain ⟨stack', hstack, hpure⟩ := bind_ok_iff.1 h₁
      obtain rfl := pure_ok_iff.1 hpure
      exact .full (VerificationType.mapM_move_ok_iff.1 hlocals)
        (VerificationType.mapM_move_ok_iff.1 hstack)
  · intro h
    cases h with
    | same => rfl
    | chop => rfl
    | sameWithItem hitem =>
      exact bind_ok_iff.2 ⟨_, VerificationType.move_ok_iff.2 hitem, rfl⟩
    | append hlocals => exact bind_ok_iff.2 ⟨_, VerificationType.mapM_move_ok_iff.2 hlocals, rfl⟩
    | full hlocals hstack =>
      exact bind_ok_iff.2 ⟨_, VerificationType.mapM_move_ok_iff.2 hlocals,
        bind_ok_iff.2 ⟨_, VerificationType.mapM_move_ok_iff.2 hstack, rfl⟩⟩

namespace Frame

theorem moveAfter_ok_iff {frameAt newAt : Nat → Except Fault Nat} {done frames' : List Frame}
    {previous : Option Nat} {located : List (Nat × Frame)} :
    moveAfter frameAt newAt done previous located = .ok frames' ↔
      ∃ rest, frames' = done.reverse ++ rest ∧
        List.Forall₂ (Follows (fun a b => frameAt a = .ok b) fun a b => newAt a = .ok b)
          located (locateAfter [] previous rest) := by
  induction located generalizing done previous with
  | nil =>
    constructor
    · intro h
      obtain rfl := Except.ok.inj h
      exact ⟨[], (List.append_nil _).symm, List.Forall₂.nil⟩
    · rintro ⟨rest, rfl, hrest⟩
      have hnil : rest = [] := by
        rw [← map_snd_locateAfter previous rest, List.forall₂_nil_left_iff.1 hrest, List.map_nil]
      rw [hnil, List.append_nil]
      rfl
  | cons l located ih =>
    rcases l with ⟨old, f⟩
    -- the delta puts the frame at its new offset, from which the next frame is counted
    rw [moveAfter, bind_ok_iff]
    constructor
    · rintro ⟨offset, hoffset, h₁⟩
      obtain ⟨delta, hdelta, h₂⟩ := bind_ok_iff.1 h₁
      obtain ⟨kind, hkind, h₃⟩ := bind_ok_iff.1 h₂
      obtain ⟨rest, rfl, hrest⟩ := ih.1 h₃
      have hplace : offsetAfter previous ⟨delta, kind⟩ = offset := deltaAfter_ok_iff.1 hdelta
      refine ⟨⟨delta, kind⟩ :: rest, by simp, ?_⟩
      rw [locateAfter_cons, hplace]
      exact List.Forall₂.cons ⟨hoffset, FrameKind.move_ok_iff.1 hkind⟩ hrest
    · rintro ⟨rest, rfl, h⟩
      cases rest with
      | nil => exact absurd h (by simp [locateAfter])
      | cons f' rest =>
        rw [locateAfter_cons] at h
        obtain ⟨hfollows, hrest⟩ := List.forall₂_cons.1 h
        refine ⟨_, hfollows.place, bind_ok_iff.2 ⟨f'.delta, deltaAfter_ok_iff.2 rfl, ?_⟩⟩
        refine bind_ok_iff.2 ⟨f'.kind, FrameKind.move_ok_iff.2 hfollows.kind, ?_⟩
        exact ih.2 ⟨rest, by simp, hrest⟩

/-- Moving a table moves its located frames one by one. -/
theorem moveTable_ok_iff {frameAt newAt : Nat → Except Fault Nat} {frames frames' : List Frame} :
    moveTable frameAt newAt frames = .ok frames' ↔
      List.Forall₂ (Follows (fun a b => frameAt a = .ok b) fun a b => newAt a = .ok b)
        (locate frames) (locate frames') := by
  rw [moveTable, moveAfter_ok_iff]
  constructor
  · rintro ⟨rest, rfl, hrest⟩
    exact hrest
  · intro h
    exact ⟨frames', rfl, h⟩

end Frame

/-- Moved frames are as many as before, and fit the fields that they fitted. -/
theorem Frame.writable_of_moveTable {frameAt newAt : Nat → Except Fault Nat}
    {frames frames' : List Frame} (h : moveTable frameAt newAt frames = .ok frames')
    (hframes : ∀ f ∈ frames, f.kind.Writable) :
    frames.length = frames'.length ∧ ∀ f' ∈ frames', f'.kind.Writable := by
  have hfollows := moveTable_ok_iff.1 h
  refine ⟨?_, ?_⟩
  · rw [← map_snd_locate frames, ← map_snd_locate frames', List.length_map, List.length_map]
    exact hfollows.length_eq
  · intro f' hf'
    rw [← map_snd_locate frames'] at hf'
    obtain ⟨l', hl', rfl⟩ := List.mem_map.1 hf'
    obtain ⟨l, hl, hfollow⟩ := exists_mem_zip_of_mem_right hfollows hl'
    have hf : l.2 ∈ frames := map_snd_locate frames ▸ List.mem_map_of_mem (List.of_mem_zip hl).1
    exact hfollow.kind.writable (hframes l.2 hf)

/-! ## Kinds that can follow -/

/-- The types that a frame of this kind names. -/
def FrameKind.types : FrameKind → List VerificationType
  | .same | .chop _ => []
  | .sameWithItem item => [item]
  | .append locals => locals
  | .full locals stack => locals ++ stack

/-- Types follow if the uninitialized values among them do. -/
theorem VerificationType.exists_follows {moves : Nat → Nat → Prop}
    {types : List VerificationType} (h : ∀ offset, uninitialized offset ∈ types →
      ∃ offset' : UInt16, moves offset.toNat offset'.toNat) :
    ∃ types', List.Forall₂ (Follows moves) types types' := by
  apply exists_forall₂
  intro type htype
  cases type with
  | uninitialized offset =>
    obtain ⟨offset', hmoves⟩ := h offset htype
    exact ⟨_, .uninitialized hmoves⟩
  | _ => exact ⟨_, .same (by simp)⟩

theorem FrameKind.exists_follows {moves : Nat → Nat → Prop} {kind : FrameKind}
    (h : ∀ offset, .uninitialized offset ∈ kind.types →
      ∃ offset' : UInt16, moves offset.toNat offset'.toNat) :
    ∃ kind', kind.Follows moves kind' := by
  cases kind with
  | same => exact ⟨_, .same⟩
  | chop count => exact ⟨_, .chop⟩
  | sameWithItem item =>
    obtain ⟨items', hitems⟩ := VerificationType.exists_follows h
    obtain ⟨item', _, hitem, -, -⟩ := List.forall₂_cons_left_iff.1 hitems
    exact ⟨_, .sameWithItem hitem⟩
  | append locals =>
    obtain ⟨locals', hlocals⟩ := VerificationType.exists_follows h
    exact ⟨_, .append hlocals⟩
  | full locals stack =>
    obtain ⟨locals', hlocals⟩ := VerificationType.exists_follows
      fun offset hoffset => h offset (List.mem_append_left stack hoffset)
    obtain ⟨stack', hstack⟩ := VerificationType.exists_follows
      fun offset hoffset => h offset (List.mem_append_right locals hoffset)
    exact ⟨_, .full hlocals hstack⟩

end PatternGuard
