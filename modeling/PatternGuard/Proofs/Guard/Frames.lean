import PatternGuard.Proofs.Guard.Paths
import PatternGuard.Proofs.Guard.Simulation
import PatternGuard.Proofs.Guard.Tables

/-!
# Frames stand where the verifier needs them

The verifier needs a frame wherever control may arrive other than from the instruction above
(`Framed`). Frames land like jumps do, and the code that a straight policy inserts needs no frames
of its own. So a rewritten method has the frames that it needs if the method had them before
(`CodeBody.Weaving.framed`).
-/

set_option autoImplicit false

namespace PatternGuard

open Outcome

/-- At each of the offsets where the verifier needs a frame there is one: the targets of jumps, the
handlers of exceptions, and what stands below an instruction that does not fall through. -/
structure Framed (code : List Instruction) (handlers : List Handler) (frames : List Frame) :
    Prop where
  targets : ∀ i ∈ code, ∀ t ∈ i.targets, ∃ offset ∈ Frame.offsets frames, t = (offset : Int)
  handlers : ∀ h ∈ handlers, h.target.toNat ∈ Frame.offsets frames
  below : ∀ i j, [i, j] <:+: code → i.fallsThrough = false → j.offset ∈ Frame.offsets frames

/-- The frames of `a'` are those of `a`, in order: each where the offset of the old one lands, and
of the same kind with the same types, except that uninitialized values are made by the moved
instructions. If the old code had all the frames that it needed, so has the new code. -/
def Attribute.FramesFollow (pool : Pool) (body body' : CodeBody) (old : List Instruction)
    (woven : List Woven) (a a' : Attribute) : Prop :=
  a'.nameIndex = a.nameIndex ∧ (a.isNamed pool stackMapName = true → ∃ frames frames',
    Frame.decodeTable a.info = .ok frames ∧ Frame.decodeTable a'.info = .ok frames' ∧
    List.Forall₂ (Frame.Follows (Woven.Lands old body.code.length woven body'.code.length)
      (Woven.Moves old body.code.length woven body'.code.length)) (Frame.locate frames)
      (Frame.locate frames') ∧
    (Framed old body.handlers frames → Framed (woven.flatMap Woven.code) body'.handlers frames'))

theorem Attribute.FramesFollow.of_isNamed_eq {pool pool' : Pool} {body body' : CodeBody}
    {old : List Instruction} {woven : List Woven} {a a' : Attribute}
    (h : a.FramesFollow pool body body' old woven a')
    (hname : a.isNamed pool' stackMapName = a.isNamed pool stackMapName) :
    a.FramesFollow pool' body body' old woven a' :=
  ⟨h.1, fun hnamed => h.2 (hname ▸ hnamed)⟩

/-- An offset with a frame lands at an offset with a frame. -/
theorem Woven.Aligned.mem_offsets {old : List Instruction} {oldLength newLength : Nat}
    {woven : List Woven} (h : Aligned old oldLength woven newLength) {moves : Nat → Nat → Prop}
    {frames frames' : List Frame}
    (hframes : List.Forall₂ (Frame.Follows (Lands old oldLength woven newLength) moves)
      (Frame.locate frames) (Frame.locate frames')) {a b : Nat}
    (ha : a ∈ Frame.offsets frames) (hab : Lands old oldLength woven newLength a b) :
    b ∈ Frame.offsets frames' := by
  obtain ⟨l, hl, rfl⟩ := List.mem_map.1 ha
  obtain ⟨l', hll', hfollows⟩ := exists_mem_zip_of_forall₂ hframes hl
  -- nothing lands at two offsets
  have hle := h.lands_le_iff hab hfollows.place
  have hge := h.lands_le_iff hfollows.place hab
  have hb : b = l'.1 := by omega
  rw [hb]
  exact List.mem_map_of_mem (List.of_mem_zip hll').2

namespace CodeBody.Weaving

variable {body body' : CodeBody} {insertions : List Insertion} {old : List Instruction}
  {woven : List Woven}

/-- Below an instruction that does not fall through stands a landing, and it was the same before. -/
theorem exists_below (h : body.Weaving insertions body' old woven)
    (hstraight : ∀ n ∈ insertions, ∀ i ∈ n.code, i.WellFormed ∧ i.isStraight = true)
    (hentry : ∀ n ∈ insertions, n.catchesJumps = false → n.offset = 0) {i j : Instruction}
    (hij : [i, j] <:+: woven.flatMap Woven.code) (hfalls : i.fallsThrough = false) :
    ∃ i' j', [i', j'] <:+: old ∧ i'.fallsThrough = false ∧
      Woven.Lands old body.code.length woven body'.code.length j'.offset j.offset := by
  obtain ⟨w, hw, hi⟩ := List.mem_flatMap.1 (hij.subset List.mem_cons_self)
  rcases Woven.mem_code_iff.1 hi with hinserted | rfl
  · -- what is inserted falls through
    have hi := (h.straight_of_mem hstraight hw hinserted).2
    rw [Instruction.fallsThrough_of_isStraight hi] at hfalls
    exact absurd hfalls (by simp)
  · obtain ⟨i', hi'w, hreplaces⟩ := exists_mem_zip_of_mem_right h.replaces hw
    obtain ⟨j', v, hjv, hold, hhead⟩ := h.exists_old_of_below hstraight hentry hi'w hij
    rw [Instruction.fallsThrough_congr hreplaces.opcode hreplaces.operand] at hfalls
    refine ⟨i', j', hold, hfalls, Or.inr ⟨j', v, hjv, rfl, ?_⟩⟩
    obtain ⟨head, hhead', hlanding⟩ := Woven.exists_head_segment v
    rw [hhead] at hhead'
    obtain rfl := Option.some.inj hhead'
    exact hlanding.symm

/-- The new code has the frames that it needs if the old code had them. -/
theorem framed (h : body.Weaving insertions body' old woven)
    (hstraight : ∀ n ∈ insertions, ∀ i ∈ n.code, i.WellFormed ∧ i.isStraight = true)
    (hentry : ∀ n ∈ insertions, n.catchesJumps = false → n.offset = 0)
    {moves : Nat → Nat → Prop} {frames frames' : List Frame}
    (hfollows : List.Forall₂ (Frame.Follows
      (Woven.Lands old body.code.length woven body'.code.length) moves) (Frame.locate frames)
      (Frame.locate frames')) (hframed : Framed old body.handlers frames) :
    Framed (woven.flatMap Woven.code) body'.handlers frames' := by
  have hmem := fun a b => h.aligned.mem_offsets hfollows (a := a) (b := b)
  refine ⟨?_, ?_, ?_⟩
  · intro i hi t ht
    obtain ⟨w, hw, hiw⟩ := List.mem_flatMap.1 hi
    rcases Woven.mem_code_iff.1 hiw with hinserted | rfl
    · -- inserted code does not jump
      obtain ⟨hwell, hi⟩ := h.straight_of_mem hstraight hw hinserted
      rw [Instruction.targets_eq_nil hwell hi] at ht
      exact absurd ht List.not_mem_nil
    · obtain ⟨o, ho, hreplaces⟩ := exists_mem_zip_of_mem_right h.replaces hw
      obtain ⟨t₀, ht₀, a, b, rfl, rfl, hlands⟩ :=
        exists_mem_zip_of_mem_right hreplaces.targets ht
      obtain ⟨a', ha', heq⟩ :=
        hframed.targets o (List.of_mem_zip ho).1 _ (List.of_mem_zip ht₀).1
      obtain rfl := Int.ofNat_inj.1 heq
      exact ⟨b, hmem _ _ ha' hlands, rfl⟩
  · intro handler hhandler
    obtain ⟨o, ho, hhandles⟩ := exists_mem_zip_of_mem_right h.handlers hhandler
    exact hmem _ _ (hframed.handlers o (List.of_mem_zip ho).1) hhandles.target
  · intro i j hij hfalls
    obtain ⟨i', j', hold, hfalls', hlands⟩ := h.exists_below hstraight hentry hij hfalls
    exact hmem _ _ (hframed.below i' j' hold hfalls') hlands

end CodeBody.Weaving

namespace Rewriting

variable {policy : Policy} {className marker : String} {fields : List FieldPattern}
  {method method' : Member}

/-- The frames of a rewritten method follow its code. -/
theorem exists_framesFollow (r : Rewriting policy className marker fields method method')
    (hpolicy : policy.IsStraight) :
    ∃ old woven, r.body.Weaving r.insertions r.body' old woven ∧
      List.Forall₂ (Attribute.FramesFollow r.after r.body r.body' old woven) r.body.attributes
        r.body'.attributes := by
  have hstraight := r.straight_of_mem_insertions hpolicy
  obtain ⟨old, woven, hexpansion, hattributes⟩ := CodeBody.exists_expansion_follows r.inserts
  have hweaving := hexpansion.weaving fun n hn i hi => (hstraight n hn i hi).1
  refine ⟨old, woven, hweaving, hattributes.imp fun a a' hfollows => ⟨hfollows.nameIndex, ?_⟩⟩
  intro hnamed
  obtain ⟨frames, frames', hframes, hframes', hlocated⟩ := hfollows.frames hnamed
  refine ⟨frames, frames', hframes, hframes', hlocated, fun hframed => ?_⟩
  exact hweaving.framed hstraight r.offset_eq_zero_of_mem_insertions hlocated hframed

/-- The frames of a rewritten method follow its code. If the policy only interns, this is seen in
the class that had the pool `first` and in the one with the pool `final`: there the bodies are
found, and the frames by their name if the first pool has it. -/
structure HasFrames (r : Rewriting policy className marker fields method method')
    (first final : Pool) (old : List Instruction) (woven : List Woven) : Prop where
  body : method'.body? r.after = .ok (some r.body')
  weaving : r.body.Weaving r.insertions r.body' old woven
  frames : List.Forall₂ (Attribute.FramesFollow r.after r.body r.body' old woven)
    r.body.attributes r.body'.attributes
  found : policy.OnlyInterns → first.Built → r.Found first final
  named : policy.OnlyInterns → first.Built →
    (∃ index, first.isText index Attribute.stackMapName = true) →
      List.Forall₂ (Attribute.FramesFollow final r.body r.body' old woven) r.body.attributes
        r.body'.attributes

theorem exists_hasFrames (r : Rewriting policy className marker fields method method')
    {first final : Pool} (hpolicy : policy.IsStraight)
    (hfound : policy.OnlyInterns → first.Built → r.Found first final) :
    ∃ old woven, r.HasFrames first final old woven := by
  obtain ⟨old, woven, hweaving, hframes⟩ := r.exists_framesFollow hpolicy
  refine ⟨old, woven, r.body?_eq, hweaving, hframes, hfound, fun honly hbuilt hname => ?_⟩
  -- the name stands at the same indices in both pools
  have hnames := (hfound honly hbuilt).names _ hname
  refine hframes.imp fun a a' hfollows => hfollows.of_isNamed_eq ?_
  exact (hnames a.nameIndex).2.trans (hnames a.nameIndex).1.symm

end Rewriting

namespace Guarding

/-- In a class that is guarded by a policy that emits straight code, the frames of every rewritten
method follow its code: they stand where the offsets of the old frames land, and if the method had
the frames that the verifier needs, it has them afterwards. -/
theorem frames_of_guardClass {policy : Policy} {marker : String} {p p' : Progress}
    {report : Report} (hpolicy : policy.IsStraight)
    (h : guardClass policy marker p = .ok report p') :
    (p.file.isModule = true ∧ p' = p) ∨
      ∃ className fields plans pool, p.file.name = .ok className ∧
        Plan.markedFields p.file className marker = .ok fields ∧
        Run policy className marker fields
          (fun r => ∃ (old : List Instruction) (woven : List Woven),
            r.HasFrames p.file.pool p'.file.pool old woven)
          p.file.pool p.file.methods plans p'.file.methods pool ∧
        (p'.file.pool = pool ∨
          ∃ index, Interning.text guardedName pool = .ok index p'.file.pool) := by
  refine exists_run_of_guardClass h fun r hfound => ?_
  exact r.exists_hasFrames hpolicy hfound

/-- The marked method with frames at the beginning, to which it jumps, and at its handler. -/
def framedMethod : Member :=
  { markedMethod with attributes := ⟨5, [0, 1, 0, 1, 0, 0, 0, 6, 0x2a, 0xc6, 0xff, 0xff, 0x2a, 0xb0,
      0, 1, 0, 0, 0, 5, 0, 5, 0, 0, 0, 1, 0, 11, 0, 0, 0, 7, 0, 2, 0, 68, 7, 0, 2]⟩ ::
    markedMethod.attributes.tail }

/-- A class with the method that has frames. -/
def framedClass : ClassFile :=
  { markedClass with
    pool := markedClass.pool.append (.ofText "StackMapTable"), methods := [framedMethod] }

theorem built_framedClass : framedClass.pool.Built := by
  obtain ⟨cs, hcs⟩ := built_markedClass.built
  refine ⟨⟨cs ++ [.ofText "StackMapTable"], ?_⟩, by decide +kernel⟩
  rw [framedClass, hcs, Pool.ofList, Pool.ofList, List.foldl_append]
  rfl

theorem exists_frames_framedMethod : ∃ report p', dropping.IsStraight ∧
    guardClass dropping "Lm;" ⟨framedClass, #[]⟩ = .ok report p' ∧
    ∃ (className : String) (fields : List FieldPattern) (method' : Member)
      (r : Rewriting dropping className "Lm;" fields framedMethod method')
      (old : List Instruction) (woven : List Woven), p'.file.methods = [method'] ∧
      r.before = framedClass.pool ∧ r.HasFrames framedClass.pool p'.file.pool old woven ∧
      method'.body? p'.file.pool = .ok (some r.body') ∧
      List.Forall₂ (Attribute.FramesFollow p'.file.pool r.body r.body' old woven)
        r.body.attributes r.body'.attributes := by
  obtain ⟨report, p', hrun, hne⟩ :=
    exists_guardClass_of_changesMethods framedClass (by decide +kernel)
  refine ⟨report, p', straight_dropping, hrun, ?_⟩
  rcases frames_of_guardClass straight_dropping hrun with ⟨hmodule, -⟩ | ⟨className, fields, plans,
    pool, -, -, hmethods, -⟩
  · exact absurd hmodule (by decide +kernel)
  · obtain ⟨method', r, hmethod, hbefore, -, old, woven, hframes⟩ := hmethods.exists_rewriting hne
    have hname : ∃ index, framedClass.pool.isText index Attribute.stackMapName = true :=
      ⟨11, by decide +kernel⟩
    exact ⟨className, fields, method', r, old, woven, hmethod, hbefore, hframes,
      (hframes.found onlyInterns_dropping built_framedClass).after,
      hframes.named onlyInterns_dropping built_framedClass hname⟩

end Guarding

end PatternGuard
