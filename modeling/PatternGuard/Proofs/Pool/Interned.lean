import Mathlib.Logic.Relation
import PatternGuard.Proofs.Pool.Interning

/-!
# Pools in which constants were interned

Interning appends a constant at most, and only one that is missing. So every entry stays at its
index, however many constants are interned (`Pool.Interned.prefix_entries`), and a text that the
pool holds is not added again: the indices that stand for it stay the same
(`Pool.Interned.isText_eq`). This holds of all pools that come about (`Pool.Built`), and needs no
constant to be well-formed.
-/

set_option autoImplicit false

namespace PatternGuard

open Outcome

namespace Pool

variable {pool pool' : Pool} {c : Constant} {index : UInt16} {text : String}

/-- The second pool is the first one after constants were interned. -/
def Interned : Pool → Pool → Prop :=
  Relation.ReflTransGen fun pool pool' => ∃ c index, intern c pool = .ok index pool'

theorem Interned.trans {pool'' : Pool} (h : pool.Interned pool') (h' : pool'.Interned pool'') :
    pool.Interned pool'' :=
  Relation.ReflTransGen.trans h h'

/-! ## Pools that come about -/

theorem built_of_decode {s t : Input} (h : decode s = .ok pool t) : pool.Built := by
  obtain ⟨hsound, bytes, hbytes, -⟩ := decode_ok_iff.1 h
  exact (hsound.writable_of_encode hbytes).built

theorem Built.of_intern (hpool : pool.Built) (h : intern c pool = .ok index pool') :
    pool'.Built := by
  obtain ⟨-, ⟨-, rfl⟩ | ⟨-, hroom, -, rfl⟩⟩ := intern_cases h
  · exact hpool
  · obtain ⟨⟨cs, rfl⟩, -⟩ := hpool
    refine ⟨⟨cs ++ [c], (ofList_append_singleton cs c).symm⟩, ?_⟩
    rw [count_append]
    exact Nat.lt_succ_of_le hroom

theorem Interned.built (h : pool.Interned pool') (hpool : pool.Built) : pool'.Built := by
  induction h with
  | refl => exact hpool
  | tail _ hstep ih =>
    obtain ⟨c, index, hintern⟩ := hstep
    exact ih.of_intern hintern

/-! ## Entries -/

/-- Entries are only appended. -/
theorem Interned.prefix_entries (h : pool.Interned pool') :
    pool.entries.toList <+: pool'.entries.toList := by
  induction h with
  | refl => exact List.prefix_rfl
  | tail _ hstep ih =>
    obtain ⟨c, index, hintern⟩ := hstep
    obtain ⟨-, ⟨-, rfl⟩ | ⟨-, -, -, rfl⟩⟩ := intern_cases hintern
    · exact ih
    · rw [toList_entries_append]
      exact ih.trans (List.prefix_append _ _)

theorem eq_of_mem_slots {d : Constant} (hd : d ∈ c.slots) (hne : d ≠ .unusable) : d = c := by
  rw [Constant.slots] at hd
  split at hd
  · rcases List.mem_cons.1 hd with rfl | hd
    · rfl
    · exact absurd (List.mem_singleton.1 hd) hne
  · exact List.mem_singleton.1 hd

/-- Every usable slot of a pool holds one of the constants that it was built from. -/
theorem mem_of_mem_entries_ofList {cs : List Constant} (hc : c ∈ (ofList cs).entries.toList)
    (hne : c ≠ .unusable) : c ∈ cs := by
  rw [toList_entries_ofList] at hc
  rcases List.mem_cons.1 hc with rfl | hc
  · exact absurd rfl hne
  · obtain ⟨d, hd, hslot⟩ := List.mem_flatMap.1 hc
    rwa [eq_of_mem_slots hslot hne]

/-- Every entry is found under its bytes. -/
theorem find?_ofList_ne_none {cs : List Constant} (hc : c ∈ (ofList cs).entries.toList)
    (hne : c ≠ .unusable) : (ofList cs).find? c ≠ none := by
  induction cs using List.reverseRecOn with
  | nil =>
    obtain rfl : c = .unusable := List.mem_singleton.1 hc
    exact absurd rfl hne
  | append_singleton cs d ih =>
    rw [ofList_append_singleton] at hc ⊢
    rw [toList_entries_append, List.mem_append] at hc
    rw [find?_append]
    split
    · simp
    · rename_i hlater
      rcases hc with hc | hc
      · exact ih hc
      · -- the last constant is found under its bytes, or was found before
        obtain rfl := eq_of_mem_slots hc hne
        intro hnone
        exact hlater ⟨rfl, hnone⟩

/-! ## Texts -/

theorem isText_eq_true_iff : pool.isText index text = true ↔
    pool.get? index = some (.ofText text) := by
  rw [isText, Constant.ofText]
  split
  · rename_i bytes hget
    rw [hget, beq_iff_eq, Option.some.injEq, Constant.utf8.injEq]
  · rename_i hnot
    exact iff_of_false Bool.false_ne_true (hnot _)

/-- A text that is in the pool is not added to it once more. -/
theorem Built.isText_of_intern (hpool : pool.Built) (h : intern c pool = .ok index pool')
    (htext : ∃ i, pool.isText i text = true) (j : UInt16) :
    pool'.isText j text = pool.isText j text := by
  obtain ⟨i, hi⟩ := htext
  obtain ⟨hentry, hne⟩ := get?_eq_some_iff.1 (isText_eq_true_iff.1 hi)
  obtain ⟨-, ⟨-, rfl⟩ | ⟨hmissing, -, -, rfl⟩⟩ := intern_cases h
  · rfl
  · -- the constant that is appended was missing, so it is not the text
    have hc : Constant.ofText text ∉ c.slots := by
      intro hmem
      obtain rfl := eq_of_mem_slots hmem hne
      obtain ⟨⟨cs, rfl⟩, -⟩ := hpool
      exact find?_ofList_ne_none (List.mem_of_getElem? hentry) hne hmissing
    rw [Bool.eq_iff_iff, isText_eq_true_iff, isText_eq_true_iff, get?_eq_some_iff,
      get?_eq_some_iff, toList_entries_append]
    refine and_congr_left fun _ => ?_
    by_cases hlt : j.toNat < pool.entries.toList.length
    · rw [List.getElem?_append_left hlt]
    · rw [List.getElem?_append_right (Nat.not_lt.1 hlt), List.getElem?_eq_none (Nat.not_lt.1 hlt)]
      exact iff_of_false (fun hnew => hc (List.mem_of_getElem? hnew)) (by simp)

/-- The indices that stand for a text in the pool stay the same. -/
theorem Interned.isText_eq (h : pool.Interned pool') (hpool : pool.Built)
    (htext : ∃ i, pool.isText i text = true) (j : UInt16) :
    pool'.isText j text = pool.isText j text := by
  induction h generalizing j with
  | refl => rfl
  | tail hinterned hstep ih =>
    obtain ⟨c, index, hintern⟩ := hstep
    obtain ⟨i, hi⟩ := htext
    have hbuilt := Interned.built hinterned hpool
    rw [hbuilt.isText_of_intern hintern ⟨i, (ih i).trans hi⟩, ih]

/-- A text stands at the index under which it is interned. -/
theorem Built.get?_of_text (hpool : pool.Built) (h : Interning.text text pool = .ok index pool') :
    pool'.get? index = some (.ofText text) :=
  hpool.get?_of_intern h

/-! ## Computations that intern -/

/-- The computation does nothing to the pool but intern constants. -/
def OnlyInterns {ε α : Type} (action : EStateM ε Pool α) : Prop :=
  ∀ pool a pool', action pool = .ok a pool' → pool.Interned pool'

theorem onlyInterns_pure {ε α : Type} (a : α) : OnlyInterns (pure a : EStateM ε Pool α) := by
  intro pool b pool' h
  obtain ⟨-, rfl⟩ := pure_run_ok_iff.1 h
  exact .refl

theorem OnlyInterns.bind {ε α β : Type} {action : EStateM ε Pool α} {next : α → EStateM ε Pool β}
    (h : OnlyInterns action) (hnext : ∀ a, OnlyInterns (next a)) :
    OnlyInterns (action >>= next) := by
  intro pool b pool' hrun
  obtain ⟨a, pool₁, ha, hb⟩ := bind_run_ok_iff.1 hrun
  exact (h _ _ _ ha).trans (hnext a _ _ _ hb)

theorem onlyInterns_intern (c : Constant) : OnlyInterns (intern c) :=
  fun _ index _ h => .single ⟨c, index, h⟩

end Pool

namespace Interning

open Pool

theorem onlyInterns_text (t : String) : OnlyInterns (text t) := onlyInterns_intern _

theorem onlyInterns_string (value : String) : OnlyInterns (string value) :=
  (onlyInterns_text value).bind fun _ => onlyInterns_intern _

theorem onlyInterns_member (entry : UInt16 → UInt16 → Constant) (m : MemberRef) :
    OnlyInterns (member entry m) := by
  have howner : OnlyInterns (classNamed m.owner) :=
    (onlyInterns_text m.owner).bind fun _ => onlyInterns_intern _
  have hmember : OnlyInterns (nameAndType m.name m.descriptor) :=
    (onlyInterns_text m.name).bind fun _ =>
      (onlyInterns_text m.descriptor).bind fun _ => onlyInterns_intern _
  exact howner.bind fun _ => hmember.bind fun _ => onlyInterns_intern _

end Interning

end PatternGuard
