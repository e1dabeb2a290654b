import Mathlib.Data.List.Chain
import Mathlib.Data.List.Nodup
import PatternGuard.Code.Body
import PatternGuard.Proofs.Code.Stream

/-!
# Control flow

`Edge` relates an instruction to those that may be executed next: the one below, the targets of a
jump, the instructions below the calls of subroutines, and the handlers of exceptions. A path begins
at the first instruction and follows edges. Two facts about paths do not depend on the code. If the
items of a segment are entered only from the item before, a path arrives at an item of the segment
only through the items before it (`isSuffix_of_isChain`). If the items of a front part are entered
and left only in order, a path runs through the front part once (`prefix_or_append_of_isChain`).
-/

set_option autoImplicit false

namespace PatternGuard

namespace Instruction

/-- Whether the instruction calls a subroutine of the method. -/
def isJsr (i : Instruction) : Bool := i.opcode = .jsr || i.opcode = .jsr_w

/-- Whether the instruction returns from a subroutine, in its plain or in its wide form. -/
def isRet (i : Instruction) : Bool :=
  i.opcode = .ret ||
    (i.opcode = .wide && match i.operand with
      | .bytes (inner :: _) => inner = Opcode.ret.byte
      | _ => false)

/-- Whether control may go on to the instruction below. -/
def fallsThrough (i : Instruction) : Bool :=
  match i.opcode with
  | .goto | .goto_w | .jsr | .jsr_w | .tableswitch | .lookupswitch => false
  | opcode => !opcode.isReturn && !i.isRet

/-- Whether control goes on to the instruction below or to a handler, and nowhere else. -/
def isStraight (i : Instruction) : Bool :=
  !i.opcode.isBranch && !i.opcode.isReturn && !i.isRet

/-- Displacements do not matter for whether the instruction returns from a subroutine, -/
theorem isRet_congr {i j : Instruction} (hopcode : j.opcode = i.opcode)
    (hoperand : j.operand.withoutJumps = i.operand.withoutJumps) : j.isRet = i.isRet := by
  have herased : ∀ k : Instruction,
      k.isRet = isRet { k with operand := k.operand.withoutJumps } := by
    intro k
    rw [isRet, isRet]
    cases k.operand with
    | _ => rfl
  rw [herased j, herased i, isRet, isRet, hopcode, hoperand]

/-- and so not for whether control may go on to the instruction below. -/
theorem fallsThrough_congr {i j : Instruction} (hopcode : j.opcode = i.opcode)
    (hoperand : j.operand.withoutJumps = i.operand.withoutJumps) :
    j.fallsThrough = i.fallsThrough := by
  rw [fallsThrough, fallsThrough, hopcode, isRet_congr hopcode hoperand]

/-- What goes straight on goes on to the instruction below. -/
theorem fallsThrough_of_isStraight {i : Instruction} (h : i.isStraight = true) :
    i.fallsThrough = true := by
  simp only [isStraight, Bool.and_eq_true, Bool.not_eq_true'] at h
  obtain ⟨⟨hbranch, hreturn⟩, hret⟩ := h
  -- the opcodes that never fall through are branches
  have hopcode : ∀ o : Opcode, o.isBranch = false → o ≠ .goto ∧ o ≠ .goto_w ∧ o ≠ .jsr ∧
      o ≠ .jsr_w ∧ o ≠ .tableswitch ∧ o ≠ .lookupswitch := by
    intro o ho
    refine ⟨?_, ?_, ?_, ?_, ?_, ?_⟩ <;> rintro rfl <;> exact absurd ho (by decide)
  obtain ⟨h₁, h₂, h₃, h₄, h₅, h₆⟩ := hopcode i.opcode hbranch
  rw [fallsThrough]
  split <;> simp_all

theorem straight_of_map_bare_eq {xs ys : List Instruction} (h : xs.map bare = ys.map bare)
    (hys : ∀ y ∈ ys, y.WellFormed ∧ y.isStraight = true) :
    ∀ x ∈ xs, x.WellFormed ∧ x.isStraight = true :=
  forall_of_map_bare_eq
    (P := fun p => p.1.form.Suits p.2 ∧ (ofOperand p.1 p.2).isStraight = true) h hys

end Instruction

namespace Code

/-- `j` may be executed next after `i`. -/
inductive Edge (code : List Instruction) (handlers : List Handler) :
    Instruction → Instruction → Prop
  | next {i j : Instruction} : i.fallsThrough → [i, j] <:+: code → Edge code handlers i j
  | jump {i j : Instruction} : i ∈ code → j ∈ code → (j.offset : Int) ∈ i.targets →
      Edge code handlers i j
  /-- A subroutine returns to the instruction below a call. -/
  | resume {i j call : Instruction} : i ∈ code → i.isRet → call.isJsr → [call, j] <:+: code →
      Edge code handlers i j
  | handle {i j : Instruction} {h : Handler} : i ∈ code → j ∈ code → h ∈ handlers →
      h.start.toNat ≤ i.offset → i.offset < h.stop.toNat → j.offset = h.target.toNat →
      Edge code handlers i j

/-- The instructions of a path are executed one after the other from the first one on. -/
structure IsPath (code : List Instruction) (handlers : List Handler) (path : List Instruction) :
    Prop where
  start : ∃ first, code.head? = some first ∧ path.head? = some first
  chain : path.IsChain (Edge code handlers)

end Code

/-! ## Paths through segments -/

namespace Flow

variable {α : Type} {E : α → α → Prop}

theorem tail_subset_of_isInfix {s l : List α} (h : s <:+: l) : s.tail ⊆ l.tail := by
  obtain ⟨front, back, rfl⟩ := h
  intro x hx
  cases s with
  | nil => exact absurd hx List.not_mem_nil
  | cons a s =>
    have hmem : x ∈ s := hx
    cases front with
    | nil => simp [hmem]
    | cons b front => simp [hmem]

theorem mem_tail_of_isInfix {l : List α} {a x : α} (h : [a, x] <:+: l) : x ∈ l.tail :=
  tail_subset_of_isInfix h List.mem_cons_self

theorem not_mem_tail_of_head? {l : List α} (hl : l.Nodup) {x : α} (h : l.head? = some x) :
    x ∉ l.tail := by
  cases l with
  | nil => exact List.not_mem_nil
  | cons a l =>
    obtain rfl := Option.some.inj h
    exact (List.nodup_cons.1 hl).1

/-- In a list without duplicates an item has one predecessor. -/
theorem eq_of_isInfix_left {l : List α} (hl : l.Nodup) {a b x : α} (ha : [a, x] <:+: l)
    (hb : [b, x] <:+: l) : a = b := by
  induction l with
  | nil => exact absurd (mem_tail_of_isInfix ha) List.not_mem_nil
  | cons c l ih =>
    obtain ⟨-, hl⟩ := List.nodup_cons.1 hl
    -- an infix at the front makes `x` the head of the rest, where it has no predecessor
    have hhead : ∀ {d e : α}, [d, x] <+: c :: l → ¬[e, x] <:+: l := by
      intro d e hd he
      obtain ⟨-, t, ht⟩ := List.cons_prefix_cons.1 hd
      rw [← ht] at he hl
      exact (List.nodup_cons.1 hl).1 (mem_tail_of_isInfix he)
    rcases List.infix_cons_iff.1 ha with ha | ha
    · rcases List.infix_cons_iff.1 hb with hb | hb
      · rw [(List.cons_prefix_cons.1 ha).1, (List.cons_prefix_cons.1 hb).1]
      · exact absurd hb (hhead ha)
    · rcases List.infix_cons_iff.1 hb with hb | hb
      · exact absurd ha (hhead hb)
      · exact ih hl ha hb

/-- In a list without duplicates an item has one successor. -/
theorem eq_of_isInfix_right {l : List α} (hl : l.Nodup) {a b x : α} (ha : [x, a] <:+: l)
    (hb : [x, b] <:+: l) : a = b :=
  eq_of_isInfix_left (List.nodup_reverse.2 hl) (List.reverse_infix.2 ha) (List.reverse_infix.2 hb)

/-- In a list without duplicates nothing follows the last item. -/
theorem not_isInfix_concat {front : List α} {z x : α} (h : (front ++ [z]).Nodup) :
    ¬[z, x] <:+: front ++ [z] := by
  intro hinfix
  have hz := mem_tail_of_isInfix (List.reverse_infix.2 hinfix)
  have hnodup := List.nodup_reverse.2 h
  rw [List.reverse_append] at hz hnodup
  exact (List.nodup_cons.1 hnodup).1 hz

/-- Two neighbours in an appended list are neighbours in one part, or stand at the seam. -/
theorem isInfix_append {xs ys : List α} {a b : α} (h : [a, b] <:+: xs ++ ys) :
    [a, b] <:+: xs ∨ [a, b] <:+: ys ∨ (xs.getLast? = some a ∧ ys.head? = some b) := by
  rcases List.infix_append_iff_ne_nil.1 h with h | h | ⟨front, back, hfront, hback, hab, hx, hy⟩
  · exact Or.inl h
  · exact Or.inr (Or.inl h)
  · -- both parts of the pair are single items
    cases front with
    | nil => exact absurd rfl hfront
    | cons a' front =>
      obtain ⟨rfl, hrest⟩ := List.cons.inj hab
      cases front with
      | cons b' front =>
        have hempty := (List.append_eq_nil_iff.1 (List.cons.inj hrest).2.symm).2
        exact absurd hempty hback
      | nil =>
        obtain rfl : [b] = back := hrest
        obtain ⟨xs, rfl⟩ := hx
        obtain ⟨ys, rfl⟩ := hy
        exact Or.inr (Or.inr ⟨by simp, rfl⟩)

/-- Two neighbours in joined lists are neighbours in one of them, or stand at a seam. -/
theorem isInfix_flatMap {β : Type} {f : β → List α} {bs : List β} (hf : ∀ b ∈ bs, f b ≠ [])
    {i j : α} (h : [i, j] <:+: bs.flatMap f) :
    (∃ b ∈ bs, [i, j] <:+: f b) ∨
      ∃ b b', [b, b'] <:+: bs ∧ (f b).getLast? = some i ∧ (f b').head? = some j := by
  induction bs with
  | nil => exact absurd (mem_tail_of_isInfix h) List.not_mem_nil
  | cons b bs ih =>
    rw [List.flatMap_cons] at h
    obtain ⟨hb, hbs⟩ := List.forall_mem_cons.1 hf
    rcases isInfix_append h with h | h | ⟨hi, hj⟩
    · exact Or.inl ⟨b, List.mem_cons_self, h⟩
    · rcases ih hbs h with ⟨c, hc, hij⟩ | ⟨c, c', hcc, hi, hj⟩
      · exact Or.inl ⟨c, List.mem_cons_of_mem b hc, hij⟩
      · exact Or.inr ⟨c, c', List.infix_cons hcc, hi, hj⟩
    · cases bs with
      | nil => exact absurd hj (by simp)
      | cons c bs =>
        refine Or.inr ⟨b, c, ⟨[], bs, rfl⟩, hi, ?_⟩
        rw [List.flatMap_cons, List.head?_append_of_ne_nil _ (hbs c List.mem_cons_self)] at hj
        exact hj

/-- The last step of a chain. -/
theorem rel_of_isChain_concat {front : List α} {z x : α} (h : (front ++ [z] ++ [x]).IsChain E) :
    E z x :=
  (List.isChain_append.1 h).2.2 z (by simp) x (by simp)

/-- If the items of a segment are entered only from the item before, a path from elsewhere arrives
at an item of the segment only through all items before it. -/
theorem isSuffix_of_isChain {segment : List α}
    (hsegment : ∀ y x, [y, x] <:+: segment → ∀ z, E z x → z = y) {start : α}
    (hstart : start ∉ segment.tail) {before after front : List α} {x : α}
    (hx : segment = before ++ x :: after) (hchain : (front ++ [x]).IsChain E)
    (hhead : (front ++ [x]).head? = some start) : before <:+ front := by
  induction before using List.reverseRecOn generalizing x after front with
  | nil => exact List.nil_suffix
  | append_singleton before y ih =>
    have hyx : [y, x] <:+: segment := ⟨before, after, by rw [hx]; simp⟩
    cases front using List.reverseRecOn with
    | nil =>
      -- the path would begin at `x`
      obtain rfl := Option.some.inj hhead
      exact absurd (mem_tail_of_isInfix hyx) hstart
    | append_singleton front z =>
      obtain rfl := hsegment y x hyx z (rel_of_isChain_concat hchain)
      have hz : segment = before ++ z :: x :: after := by rw [hx]; simp
      have hfront : (front ++ [z]).head? = some start := by
        rw [List.head?_append] at hhead
        simpa using hhead
      obtain ⟨rest, rfl⟩ := ih hz (List.isChain_append.1 hchain).1 hfront
      exact ⟨rest, by simp⟩

section Entry

variable {entry rest : List α}

/-- One step from the front part goes on in it, or leaves it for good at its end. -/
theorem step_of_prefix (hnodup : (entry ++ rest).Nodup)
    (hout : ∀ x ∈ entry, ∀ y, E x y → [x, y] <:+: entry ++ rest)
    (hin : ∀ x y, E x y → y ∈ entry → [x, y] <:+: entry) {front : List α} {z x : α}
    (hfront : front ++ [z] <+: entry) (hstep : E z x) :
    front ++ [z] ++ [x] <+: entry ∨ (front ++ [z] = entry ∧ x ∉ entry) := by
  obtain ⟨after, hafter⟩ := hfront
  have hz : z ∈ entry := by rw [← hafter]; simp
  have hnext := hout z hz x hstep
  cases after with
  | nil =>
    rw [List.append_nil] at hafter
    have hentry : (front ++ [z]).Nodup := hafter ▸ (List.nodup_append.1 hnodup).1
    refine Or.inr ⟨hafter, ?_⟩
    intro hmem
    exact not_isInfix_concat hentry (hafter ▸ hin z x hstep hmem)
  | cons y after =>
    have hzy : [z, y] <:+: entry ++ rest := ⟨front, after ++ rest, by rw [← hafter]; simp⟩
    obtain rfl := eq_of_isInfix_right hnodup hnext hzy
    exact Or.inl ⟨after, by rw [← hafter]; simp⟩

/-- One step from behind the front part does not lead back into it. -/
theorem not_mem_of_step (hentry : entry.Nodup)
    (hin : ∀ x y, E x y → y ∈ entry → [x, y] <:+: entry) {front later : List α} {z x : α}
    (hpath : front ++ [z] = entry ++ later) (hlater : ∀ y ∈ later, y ∉ entry) (hstep : E z x) :
    x ∉ entry := by
  intro hmem
  have hzx := hin z x hstep hmem
  cases later using List.reverseRecOn with
  | nil =>
    rw [List.append_nil] at hpath
    rw [← hpath] at hentry hzx
    exact not_isInfix_concat hentry hzx
  | append_singleton later z' =>
    rw [← List.append_assoc] at hpath
    obtain rfl := (List.append_singleton_inj.1 hpath).2
    exact hlater z (by simp) (hzx.subset List.mem_cons_self)

/-- If the items of a front part are left only to the item after, and entered only from the item
before, a path runs through the front part in order and never comes back. -/
theorem prefix_or_append_of_isChain (hnodup : (entry ++ rest).Nodup)
    (hout : ∀ x ∈ entry, ∀ y, E x y → [x, y] <:+: entry ++ rest)
    (hin : ∀ x y, E x y → y ∈ entry → [x, y] <:+: entry) {path : List α}
    (hchain : path.IsChain E) (hhead : path.head? = (entry ++ rest).head?) :
    path <+: entry ∨ ∃ later, path = entry ++ later ∧ ∀ x ∈ later, x ∉ entry := by
  -- the induction is on the path from its end, one step at a time
  induction path using List.reverseRecOn with
  | nil => exact Or.inl List.nil_prefix
  | append_singleton front x ih =>
    cases front using List.reverseRecOn with
    | nil =>
      cases entry with
      | nil => exact Or.inr ⟨[x], rfl, fun _ _ => List.not_mem_nil⟩
      | cons e entry =>
        obtain rfl := Option.some.inj hhead
        exact Or.inl ⟨entry, rfl⟩
    | append_singleton front z =>
      have hstep : E z x := rel_of_isChain_concat hchain
      have hfront : (front ++ [z]).head? = (entry ++ rest).head? := by
        rw [← hhead, List.head?_append]
        simp
      rcases ih (List.isChain_append.1 hchain).1 hfront with hinside | ⟨later, hpath, hlater⟩
      · rcases step_of_prefix hnodup hout hin hinside hstep with hinside | ⟨hleft, hx⟩
        · exact Or.inl hinside
        · refine Or.inr ⟨[x], by rw [hleft], ?_⟩
          intro y hy
          exact List.mem_singleton.1 hy ▸ hx
      · have hx := not_mem_of_step (List.nodup_append.1 hnodup).1 hin hpath hlater hstep
        refine Or.inr ⟨later ++ [x], by rw [hpath, List.append_assoc], ?_⟩
        intro y hy
        rcases List.mem_append.1 hy with hy | hy
        · exact hlater y hy
        · exact List.mem_singleton.1 hy ▸ hx

end Entry

end Flow

end PatternGuard
