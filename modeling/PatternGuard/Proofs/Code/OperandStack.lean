import PatternGuard.Proofs.Code.Flow
import PatternGuard.Proofs.Descriptor
import PatternGuard.Proofs.Pool.Interning

/-!
# The operand stack in slots

What an instruction does to the operand stack is counted in slots (`StackEffect`). For the
instructions that matter here the counts follow from the opcode and from what the constant pool says
about the operand; for all other instructions they are a parameter, so that what is proved holds
whatever these do. Along straight code the number of slots is followed from instruction to
instruction (`RunsWithin`), and along the edges of a body from its beginning on (`StackDepth`). A
limit suffices for a body if no instruction that is reached needs more slots (`StackSuffices`).
-/

set_option autoImplicit false

namespace PatternGuard

/-! ## Effects -/

/-- What an instruction does to the operand stack. -/
structure StackEffect where
  /-- The number of slots that there must be. -/
  reads : Nat
  /-- The number of slots that are taken off. -/
  pops : Nat
  /-- The number of slots that are put on after that. -/
  pushes : Nat
  pops_le : pops ≤ reads

namespace StackEffect

/-- Puts slots on the stack. -/
def push (n : Nat) : StackEffect := ⟨0, 0, n, Nat.le_refl 0⟩

/-- Takes slots off the stack. -/
def take (n : Nat) : StackEffect := ⟨n, n, 0, Nat.le_refl n⟩

/-- Takes arguments off the stack and puts results on it. -/
def replace (arguments results : Nat) : StackEffect :=
  ⟨arguments, arguments, results, Nat.le_refl arguments⟩

/-- Puts a copy of the topmost slot on the stack. -/
def copy : StackEffect := ⟨1, 0, 1, Nat.zero_le 1⟩

/-- The number of slots after the instruction, if there were `depth` before. -/
def after (e : StackEffect) (depth : Nat) : Nat := depth - e.pops + e.pushes

end StackEffect

/-- The number of slots that the arguments of a static method take. -/
def MethodType.argumentSlots (type : MethodType) : Nat :=
  (type.parameters.map FieldType.slots).sum

/-- The number of slots that the result of a method takes. -/
def MethodType.resultSlots (type : MethodType) : Nat :=
  (type.returns.map FieldType.slots).getD 0

/-- The type of the method at an index. -/
def Pool.methodType? (pool : Pool) (index : UInt16) : Option MethodType :=
  (pool.memberRef index).toOption.bind fun m => (MethodType.parse m.descriptor).toOption

/-- The type of the field at an index. -/
def Pool.fieldType? (pool : Pool) (index : UInt16) : Option FieldType :=
  (pool.memberRef index).toOption.bind fun m => (FieldType.parse m.descriptor).toOption

/-- The kinds of instructions whose effect is told here, and all others. -/
inductive StackUse where
  | loadReference
  | loadConstant
  | copy
  | callStatic
  | returnReference
  | storeField
  | storeStatic
  | other
deriving DecidableEq, Repr

namespace Instruction

/-- How the instruction uses the operand stack. -/
def stackUse (i : Instruction) : StackUse :=
  match i.opcode with
  | .aload | .aload_0 | .aload_1 | .aload_2 | .aload_3 => .loadReference
  | .wide =>
    match i.operand with
    | .bytes (inner :: _) => if inner = Opcode.aload.byte then .loadReference else .other
    | _ => .other
  | .ldc | .ldc_w => .loadConstant
  | .dup => .copy
  | .invokestatic => .callStatic
  | .areturn => .returnReference
  | .putfield => .storeField
  | .putstatic => .storeStatic
  | _ => .other

/-- The instruction without its place and its displacements. -/
def withoutJumps (i : Instruction) : Instruction := .ofOperand i.opcode i.operand.withoutJumps

/-- What the instruction does to the operand stack. There is no effect if the pool does not tell
what the operand refers to. For constants other than strings, as for all other instructions, it is
`others` that tells, without regard to where the instruction stands and jumps to. -/
def effect? (others : Instruction → Option StackEffect) (pool : Pool) (i : Instruction) :
    Option StackEffect :=
  match i.stackUse with
  | .loadReference => some (.push 1)
  | .loadConstant => (i.poolIndex?.bind pool.get?).bind fun c =>
    match c with
    | .string _ => some (.push 1)
    | _ => others i.withoutJumps
  | .copy => some .copy
  | .callStatic => (i.poolIndex?.bind pool.methodType?).map fun type =>
    .replace type.argumentSlots type.resultSlots
  | .returnReference => some (.take 1)
  | .storeField => (i.poolIndex?.bind pool.fieldType?).map fun type => .take (type.slots + 1)
  | .storeStatic => (i.poolIndex?.bind pool.fieldType?).map fun type => .take type.slots
  | .other => others i.withoutJumps

end Instruction

namespace Instruction

theorem stackUse_withoutJumps (i : Instruction) : i.withoutJumps.stackUse = i.stackUse := by
  obtain ⟨offset, opcode, operand⟩ := i
  cases operand <;> rfl

theorem poolIndex?_withoutJumps (i : Instruction) :
    i.withoutJumps.poolIndex? = i.poolIndex? := by
  obtain ⟨offset, opcode, operand⟩ := i
  cases operand with
  | none | bytes _ => rfl
  | branch _ | tableSwitch _ _ _ _ | lookupSwitch _ _ =>
    -- only operand bytes hold an index
    simp only [poolIndex?, withoutJumps, ofOperand, Operand.withoutJumps]
    cases opcode.form <;> rfl

end Instruction

section Effects

variable {others : Instruction → Option StackEffect} {pool pool' : Pool} {i j : Instruction}
  {e : StackEffect}

theorem Instruction.effect?_congr (hopcode : j.opcode = i.opcode)
    (hoperand : j.operand.withoutJumps = i.operand.withoutJumps) :
    j.effect? others pool = i.effect? others pool := by
  have hsame : j.withoutJumps = i.withoutJumps := by
    rw [withoutJumps, withoutJumps, hopcode, hoperand]
  rw [effect?, effect?, ← stackUse_withoutJumps i, ← stackUse_withoutJumps j,
    ← poolIndex?_withoutJumps i, ← poolIndex?_withoutJumps j, hsame]

theorem Instruction.effect?_of_bare_eq (h : j.bare = i.bare) :
    j.effect? others pool = i.effect? others pool :=
  effect?_congr (congrArg Prod.fst h) (congrArg (fun p => p.2.withoutJumps) h)

/-! ## Effects in a growing pool -/

theorem Pool.Extends.memberRef_toOption {index : UInt16} {m : MemberRef}
    (hextends : pool.Extends pool') (h : (pool.memberRef index).toOption = some m) :
    (pool'.memberRef index).toOption = some m := by
  cases href : pool.memberRef index with
  | error f =>
    rw [href] at h
    exact absurd h (by simp [Except.toOption])
  | ok m' =>
    rw [hextends.memberRef_eq_ok href]
    rwa [href] at h

/-- What is found through a reference that is found stays found. -/
theorem bind_eq_some_of_imp {α β : Type} {o o' : Option α} {f f' : α → Option β} {b : β}
    (ho : ∀ a, o = some a → o' = some a) (hf : ∀ a, f a = some b → f' a = some b)
    (h : o.bind f = some b) : o'.bind f' = some b := by
  obtain ⟨a, ha, hb⟩ := Option.bind_eq_some_iff.1 h
  exact Option.bind_eq_some_iff.2 ⟨a, ho a ha, hf a hb⟩

/-- The effect of an instruction stays the same when constants are added. -/
theorem Instruction.effect?_of_extends (hextends : pool.Extends pool')
    (h : i.effect? others pool = some e) : i.effect? others pool' = some e := by
  have hmethod : ∀ index type, pool.methodType? index = some type →
      pool'.methodType? index = some type := fun _ _ =>
    bind_eq_some_of_imp (fun _ => hextends.memberRef_toOption) fun _ => id
  have hfield : ∀ index type, pool.fieldType? index = some type →
      pool'.fieldType? index = some type := fun _ _ =>
    bind_eq_some_of_imp (fun _ => hextends.memberRef_toOption) fun _ => id
  rw [effect?] at h ⊢
  cases huse : i.stackUse with
  | loadReference | copy | returnReference | other =>
    rw [huse] at h
    exact h
  | loadConstant =>
    rw [huse] at h
    refine bind_eq_some_of_imp (fun c => ?_) (fun _ => id) h
    exact bind_eq_some_of_imp (fun _ => id) fun index => hextends index c
  | callStatic =>
    rw [huse] at h
    obtain ⟨type, htype, he⟩ := Option.map_eq_some_iff.1 h
    exact Option.map_eq_some_iff.2
      ⟨type, bind_eq_some_of_imp (fun _ => id) (fun _ => hmethod _ _) htype, he⟩
  | storeField | storeStatic =>
    rw [huse] at h
    obtain ⟨type, htype, he⟩ := Option.map_eq_some_iff.1 h
    exact Option.map_eq_some_iff.2
      ⟨type, bind_eq_some_of_imp (fun _ => id) (fun _ => hfield _ _) htype, he⟩

/-- What is returned or stored stands on the stack. -/
theorem Instruction.reads_pos_of_opcode
    (hopcode : i.opcode = .areturn ∨ i.opcode = .putfield ∨ i.opcode = .putstatic)
    (h : i.effect? others pool = some e) : 1 ≤ e.reads := by
  rw [effect?] at h
  rcases hopcode with hopcode | hopcode | hopcode
  · have huse : i.stackUse = .returnReference := by
      simp only [stackUse, hopcode]
    rw [huse] at h
    obtain rfl := Option.some.inj h
    exact Nat.le_refl 1
  · have huse : i.stackUse = .storeField := by
      simp only [stackUse, hopcode]
    rw [huse] at h
    obtain ⟨type, -, rfl⟩ := Option.map_eq_some_iff.1 h
    exact Nat.le_add_left 1 type.slots
  · have huse : i.stackUse = .storeStatic := by
      simp only [stackUse, hopcode]
    rw [huse] at h
    obtain ⟨type, -, rfl⟩ := Option.map_eq_some_iff.1 h
    exact type.one_le_slots

end Effects

/-! ## Straight code -/

/-- The instructions, executed one after the other, lead from `depth` slots to `depth'` slots. On
the way there are never more than `ceiling` slots, and none of the lowest `floor` slots is taken
off. -/
inductive RunsWithin (others : Instruction → Option StackEffect) (pool : Pool)
    (floor ceiling : Nat) : List Instruction → Nat → Nat → Prop
  | nil {depth : Nat} (le : depth ≤ ceiling) : RunsWithin others pool floor ceiling [] depth depth
  | cons {i : Instruction} {is : List Instruction} {depth depth' : Nat} {e : StackEffect}
      (le : depth ≤ ceiling) (effect : i.effect? others pool = some e) (reads : e.reads ≤ depth)
      (above : floor + e.pops ≤ depth)
      (rest : RunsWithin others pool floor ceiling is (e.after depth) depth') :
      RunsWithin others pool floor ceiling (i :: is) depth depth'

section Runs

variable {others : Instruction → Option StackEffect} {pool : Pool} {floor ceiling : Nat}
  {xs ys : List Instruction} {depth depth' depth'' : Nat}

theorem RunsWithin.le_ceiling (h : RunsWithin others pool floor ceiling xs depth depth') :
    depth ≤ ceiling := by
  cases h with
  | nil le => exact le
  | cons le _ _ _ _ => exact le

theorem RunsWithin.append (hxs : RunsWithin others pool floor ceiling xs depth depth')
    (hys : RunsWithin others pool floor ceiling ys depth' depth'') :
    RunsWithin others pool floor ceiling (xs ++ ys) depth depth'' := by
  induction hxs with
  | nil _ => exact hys
  | cons le effect reads above _ ih => exact .cons le effect reads above (ih hys)

/-- Pieces of code that leave the number of slots as it is may stand one after the other. -/
theorem RunsWithin.flatMap {α : Type} {f : α → List Instruction} {items : List α}
    (hle : depth ≤ ceiling)
    (h : ∀ a ∈ items, RunsWithin others pool floor ceiling (f a) depth depth) :
    RunsWithin others pool floor ceiling (items.flatMap f) depth depth := by
  induction items with
  | nil => exact .nil hle
  | cons a items ih =>
    obtain ⟨ha, hitems⟩ := List.forall_mem_cons.1 h
    rw [List.flatMap_cons]
    exact ha.append (ih hitems)

/-- Where the instructions stand does not matter. -/
theorem RunsWithin.of_map_bare_eq (hbare : ys.map Instruction.bare = xs.map Instruction.bare)
    (h : RunsWithin others pool floor ceiling xs depth depth') :
    RunsWithin others pool floor ceiling ys depth depth' := by
  induction h generalizing ys with
  | nil le =>
    obtain rfl := List.map_eq_nil_iff.1 hbare
    exact .nil le
  | @cons x xs depth depth' e le effect reads above _ ih =>
    obtain ⟨y, ys, rfl, hy, hys⟩ := List.map_eq_cons_iff.1 hbare
    rw [← Instruction.effect?_of_bare_eq hy] at effect
    exact .cons le effect reads above (ih hys)

end Runs

/-! ## Bodies -/

/-- An instruction may be reached with this number of slots: the first one with none, each other one
from an instruction before it, and a handler with the exception alone. -/
inductive StackDepth (others : Instruction → Option StackEffect) (pool : Pool)
    (code : List Instruction) (handlers : List Handler) : Instruction → Nat → Prop
  | start {i : Instruction} (first : code.head? = some i) :
      StackDepth others pool code handlers i 0
  | step {i j : Instruction} {depth : Nat} {e : StackEffect}
      (before : StackDepth others pool code handlers i depth) (edge : Code.Edge code [] i j)
      (effect : i.effect? others pool = some e) (reads : e.reads ≤ depth) :
      StackDepth others pool code handlers j (e.after depth)
  | caught {i j : Instruction} {depth : Nat} {h : Handler}
      (before : StackDepth others pool code handlers i depth) (mem : j ∈ code)
      (handler : h ∈ handlers) (start_le : h.start.toNat ≤ i.offset)
      (lt_stop : i.offset < h.stop.toNat) (target : j.offset = h.target.toNat) :
      StackDepth others pool code handlers j 1

/-- Whatever is reached finds the slots that it reads, and there are never more than `limit` slots.
-/
def StackSuffices (others : Instruction → Option StackEffect) (pool : Pool)
    (code : List Instruction) (handlers : List Handler) (limit : Nat) : Prop :=
  ∀ i depth, StackDepth others pool code handlers i depth → depth ≤ limit ∧
    ∃ e, i.effect? others pool = some e ∧ e.reads ≤ depth ∧ e.after depth ≤ limit

section Bodies

variable {others : Instruction → Option StackEffect} {pool pool' : Pool} {code : List Instruction}
  {handlers : List Handler} {limit : Nat}

theorem Code.Edge.right_mem {i j : Instruction} (h : Code.Edge code handlers i j) : j ∈ code := by
  cases h with
  | next _ hbelow => exact hbelow.subset (List.mem_cons_of_mem _ List.mem_cons_self)
  | jump _ hj _ => exact hj
  | resume _ _ _ hbelow => exact hbelow.subset (List.mem_cons_of_mem _ List.mem_cons_self)
  | handle _ hj _ _ _ _ => exact hj

theorem StackDepth.mem {i : Instruction} {depth : Nat}
    (h : StackDepth others pool code handlers i depth) : i ∈ code := by
  cases h with
  | start first => exact List.mem_of_head? first
  | step _ edge _ _ => exact edge.right_mem
  | caught _ mem _ _ _ _ => exact mem

/-- If the effects in the smaller pool suffice, no other depth comes about in the larger one. -/
theorem StackDepth.of_extends (hextends : pool.Extends pool')
    (hsuffices : StackSuffices others pool code handlers limit) {i : Instruction} {depth : Nat}
    (h : StackDepth others pool' code handlers i depth) :
    StackDepth others pool code handlers i depth := by
  induction h with
  | start first => exact .start first
  | @step i j depth e _ edge effect reads ih =>
    -- the smaller pool tells an effect here, which is the one that the larger pool tells
    obtain ⟨-, e', he', -, -⟩ := hsuffices i depth ih
    have hsame := (Instruction.effect?_of_extends hextends he').symm.trans effect
    obtain rfl := Option.some.inj hsame
    exact .step ih edge he' reads
  | caught _ mem handler start_le lt_stop target ih =>
    exact .caught ih mem handler start_le lt_stop target

/-- A limit that suffices still does when constants are added. -/
theorem StackSuffices.of_extends (hextends : pool.Extends pool')
    (h : StackSuffices others pool code handlers limit) :
    StackSuffices others pool' code handlers limit := by
  intro i depth hdepth
  obtain ⟨hle, e, he, hreads, hafter⟩ := h i depth (hdepth.of_extends hextends h)
  exact ⟨hle, e, Instruction.effect?_of_extends hextends he, hreads, hafter⟩

/-- A limit suffices if every instruction has a number of slots within it, with which the
instructions around it and the handlers agree. -/
theorem StackSuffices.of_assigned (assigned : Instruction → Nat)
    (hstart : ∀ i, code.head? = some i → assigned i = 0)
    (hstep : ∀ i ∈ code, assigned i ≤ limit ∧ ∃ e, i.effect? others pool = some e ∧
      e.reads ≤ assigned i ∧ e.after (assigned i) ≤ limit ∧
      ∀ j, Code.Edge code [] i j → assigned j = e.after (assigned i))
    (hcaught : ∀ h ∈ handlers, ∀ j ∈ code, j.offset = h.target.toNat → assigned j = 1) :
    StackSuffices others pool code handlers limit := by
  have hassigned : ∀ i depth, StackDepth others pool code handlers i depth →
      depth = assigned i := by
    intro i depth hdepth
    induction hdepth with
    | start first => exact (hstart _ first).symm
    | @step i j depth e before edge effect _ ih =>
      obtain ⟨-, e', he', -, -, hnext⟩ := hstep i before.mem
      obtain rfl := Option.some.inj (he'.symm.trans effect)
      rw [hnext j edge, ih]
    | caught _ mem handler _ _ target _ => exact (hcaught _ handler _ mem target).symm
  intro i depth hdepth
  obtain ⟨hle, e, heffect, hreads, hafter, -⟩ := hstep i hdepth.mem
  rw [hassigned i depth hdepth]
  exact ⟨hle, e, heffect, hreads, hafter⟩

end Bodies

end PatternGuard
