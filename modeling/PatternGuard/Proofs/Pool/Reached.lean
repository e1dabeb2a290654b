import PatternGuard.Proofs.Pool.Interned

/-!
# Pools that come about

A pool is new or was read, and after that one constant after the other is interned in it. Some of
these attempts fail. In every pool that comes about in this way (`Pool.Reached`) the slots stand in
order and the index tells of each constant where it occurs first (`Pool.Consistent`). An attempt to
intern either leaves the pool as it is or appends the one constant (`Pool.Attempt`), so that no
index ever gets another meaning. This holds of constants of any form, also of those that no class
file can hold.
-/

set_option autoImplicit false

namespace PatternGuard

open Outcome

theorem Constant.width_eq_two_iff {c : Constant} :
    c.width = 2 ↔ (∃ value, c = long value) ∨ ∃ bits, c = double bits := by
  cases c <;> simp [width]

namespace Pool

variable {pool pool' : Pool} {c : Constant} {index : UInt16}

/-! ## Attempts -/

/-- The pool after an attempt to intern a constant, whether or not it succeeds. -/
def tryIntern (pool : Pool) (c : Constant) : Pool := lastState (intern c pool)

/-- The pool after attempts to intern these constants one after the other. -/
def tryAll (pool : Pool) (cs : List Constant) : Pool := cs.foldl tryIntern pool

/-- The pools that come about: new ones and those that were read, after any number of attempts to
intern a constant. -/
inductive Reached : Pool → Prop where
  | new : Reached empty
  | read {s t : Input} {pool : Pool} (h : decode s = .ok pool t) : Reached pool
  | intern {pool : Pool} (h : Reached pool) (c : Constant) : Reached (pool.tryIntern c)

theorem Reached.tryAll (h : pool.Reached) (cs : List Constant) : (pool.tryAll cs).Reached := by
  induction cs generalizing pool with
  | nil => exact h
  | cons c cs ih => exact ih (h.intern c)

/-- The slots of a pool stand in order, and its index tells where each constant occurs first. -/
structure Consistent (pool : Pool) : Prop where
  /-- Slot 0 is unusable. -/
  first : pool.entries[0]? = some .unusable
  /-- Any other slot is unusable exactly if it stands behind a constant that takes two. -/
  unusable_iff : ∀ i, i + 1 < pool.count → (pool.entries[i + 1]? = some .unusable ↔
    (∃ value, pool.entries[i]? = some (.long value)) ∨
      ∃ bits, pool.entries[i]? = some (.double bits))
  count_le : pool.count ≤ 65535
  /-- A constant is found at the smallest index that holds it. -/
  find?_eq_some_iff : ∀ c index, c ≠ .unusable → (pool.find? c = some index ↔
    pool.entries[index.toNat]? = some c ∧ ∀ j < index.toNat, pool.entries[j]? ≠ some c)
  /-- A constant is not found exactly if it does not occur. -/
  find?_eq_none_iff : ∀ c, c ≠ .unusable → (pool.find? c = none ↔ c ∉ pool.entries)

/-- What may come of an attempt to intern a constant: the pool stays as it is, or exactly this
constant is appended. -/
inductive Attempt (pool : Pool) (c : Constant) : EStateM.Result Fault Pool UInt16 → Prop where
  | refused {e : Fault} (h : c.refusal = some e) : Attempt pool c (.error e pool)
  | found {index : UInt16} (accepted : c.refusal = none) (h : pool.find? c = some index) :
      Attempt pool c (.ok index pool)
  | full (accepted : c.refusal = none) (missing : c ∉ pool.entries)
      (h : maxCount < pool.count + c.width) : Attempt pool c (.error .constantPoolOverflow pool)
  | added {index : UInt16} {pool' : Pool} (accepted : c.refusal = none)
      (missing : c ∉ pool.entries) (room : pool.count + c.width ≤ maxCount)
      (index_eq : index.toNat = pool.count)
      (entries_eq : pool'.entries.toList = pool.entries.toList ++ c.slots) :
      Attempt pool c (.ok index pool')

theorem tryIntern_cases (pool : Pool) (c : Constant) :
    pool.tryIntern c = pool ∨ (c.refusal = none ∧ pool.count + c.width ≤ maxCount ∧
      pool.tryIntern c = pool.append c) := by
  rw [tryIntern]
  cases h : intern c pool with
  | error e pool' => exact Or.inl (intern_error_cases h).1
  | ok index pool' =>
    obtain ⟨hrefusal, ⟨-, hsame⟩ | ⟨-, hroom, -, hadded⟩⟩ := intern_cases h
    · exact Or.inl hsame
    · exact Or.inr ⟨hrefusal, hroom, hadded⟩

theorem extends_tryIntern (pool : Pool) (c : Constant) : pool.Extends (pool.tryIntern c) := by
  rcases tryIntern_cases pool c with hsame | ⟨-, -, hadded⟩
  · rw [hsame]
    exact Extends.refl pool
  · rw [hadded]
    exact extends_append pool c

theorem extends_tryAll (pool : Pool) (cs : List Constant) : pool.Extends (pool.tryAll cs) := by
  induction cs generalizing pool with
  | nil => exact Extends.refl pool
  | cons c cs ih => exact (extends_tryIntern pool c).trans (ih _)

/-- A pool that can be written is read from what is written for it. -/
theorem Writable.exists_decode (hpool : pool.Writable) : ∃ s t, decode s = .ok pool t := by
  obtain ⟨cs, -, rfl⟩ := hpool.sound.built
  have hwritten := encode_ofList_ok_iff.2 ⟨hpool.count_lt, rfl⟩
  exact ⟨_, _, decode_ok_iff.2 ⟨hpool.sound, _, hwritten, Input.advances_all _ 0⟩⟩

theorem Writable.reached (hpool : pool.Writable) : pool.Reached := by
  obtain ⟨s, t, h⟩ := hpool.exists_decode
  exact .read h

/-- A pool that comes about is built from constants that a pool may hold. -/
theorem Reached.exists_ofList (h : pool.Reached) :
    ∃ cs, (∀ c ∈ cs, c.refusal = none) ∧ pool = ofList cs ∧ pool.count ≤ maxCount := by
  induction h with
  | new => exact ⟨[], by simp, rfl, by decide⟩
  | read h =>
    obtain ⟨cs, hcs, hpool⟩ := (decode_ok_iff.1 h).1.built
    exact ⟨cs, fun c hc => (Constant.readable_iff.1 (hcs c hc)).1, hpool,
      Nat.le_of_lt_succ (built_of_decode h).count_lt⟩
  | @intern pool _ c ih =>
    obtain ⟨cs, hcs, hpool, hcount⟩ := ih
    rcases tryIntern_cases pool c with hsame | ⟨hrefusal, hroom, hadded⟩
    · rw [hsame]
      exact ⟨cs, hcs, hpool, hcount⟩
    · rw [hadded]
      refine ⟨cs ++ [c], ?_, ?_, ?_⟩
      · exact List.forall_mem_append.2 ⟨hcs, List.forall_mem_singleton.2 hrefusal⟩
      · rw [ofList_append_singleton, hpool]
      · rw [count_append]
        exact hroom

theorem Reached.built (h : pool.Reached) : pool.Built := by
  obtain ⟨cs, -, hpool, hcount⟩ := h.exists_ofList
  exact ⟨⟨cs, hpool⟩, Nat.lt_succ_of_le hcount⟩

/-- No entry of a pool that comes about is one that a pool may not hold. -/
theorem Reached.refusal_of_get? (h : pool.Reached) (hget : pool.get? index = some c) :
    c.refusal = none := by
  obtain ⟨cs, hcs, rfl, -⟩ := h.exists_ofList
  obtain ⟨hentry, hne⟩ := get?_eq_some_iff.1 hget
  exact hcs c (mem_of_mem_entries_ofList (List.mem_of_getElem? hentry) hne)

/-! ## Slots -/

/-- How a slot determines the next one: it is unusable exactly behind a constant that takes two. -/
def SlotThen (c d : Constant) : Prop := d = .unusable ↔ c.width = 2

theorem isChain_slots {cs : List Constant} (hcs : ∀ c ∈ cs, c ≠ .unusable)
    (hc : c.width ≠ 2) : (c :: cs.flatMap Constant.slots).IsChain SlotThen := by
  induction cs generalizing c with
  | nil => exact List.IsChain.singleton c
  | cons d cs ih =>
    obtain ⟨hd, hcs⟩ := List.forall_mem_cons.1 hcs
    have hfirst : SlotThen c d := iff_of_false hd hc
    rw [List.flatMap_cons, Constant.slots]
    split
    · rename_i hwidth
      have hsecond : SlotThen d .unusable := iff_of_true rfl hwidth
      exact List.IsChain.cons_cons hfirst (List.IsChain.cons_cons hsecond (ih hcs (by decide)))
    · rename_i hwidth
      exact List.IsChain.cons_cons hfirst (ih hcs hwidth)

theorem unusable_iff_ofList {cs : List Constant} (hcs : ∀ c ∈ cs, c ≠ .unusable) {i : Nat}
    (hi : i + 1 < (ofList cs).count) : (ofList cs).entries[i + 1]? = some .unusable ↔
      (∃ value, (ofList cs).entries[i]? = some (.long value)) ∨
        ∃ bits, (ofList cs).entries[i]? = some (.double bits) := by
  have hchain := isChain_slots hcs (show Constant.unusable.width ≠ 2 by decide)
  rw [← toList_entries_ofList, List.isChain_iff_getElem] at hchain
  have hi' : i < (ofList cs).count := Nat.lt_of_succ_lt hi
  have hslot : SlotThen (ofList cs).entries[i] (ofList cs).entries[i + 1] := hchain i hi
  rw [Array.getElem?_eq_getElem hi, Array.getElem?_eq_getElem hi']
  simp only [Option.some.injEq]
  rw [← Constant.width_eq_two_iff]
  exact hslot

/-! ## The index -/

theorem idxOf?_slots {d : Constant} (hd : d ≠ .unusable) :
    c.slots.idxOf? d = if c = d then some 0 else none := by
  by_cases hcd : c = d
  · rw [if_pos hcd, Constant.slots]
    split <;> simp [List.idxOf?_cons, hcd]
  · rw [if_neg hcd, List.idxOf?_eq_none_iff]
    exact fun hmem => hcd (eq_of_mem_slots hmem hd).symm

/-- A constant is found where it occurs first. -/
theorem find?_ofList {cs : List Constant} (hcs : ∀ c ∈ cs, c ≠ .unusable) {d : Constant}
    (hd : d ≠ .unusable) :
    (ofList cs).find? d = ((ofList cs).entries.toList.idxOf? d).map UInt16.ofNat := by
  induction cs using List.reverseRecOn with
  | nil =>
    have hnone : [Constant.unusable].idxOf? d = none :=
      List.idxOf?_eq_none_iff.2 fun hmem => hd (List.mem_singleton.1 hmem)
    rw [toList_entries_ofList, List.flatMap_nil, hnone]
    simp [ofList, find?, empty]
  | append_singleton cs c ih =>
    obtain ⟨hcs, hc⟩ := List.forall_mem_append.1 hcs
    have hsame : c.encode = d.encode ↔ c = d := Constant.encode_eq_iff hd
    have happend : ((ofList cs).entries.toList ++ c.slots).idxOf? d =
        ((ofList cs).entries.toList.idxOf? d).or
          ((if c = d then some 0 else none).map (· + (ofList cs).count)) := by
      rw [← idxOf?_slots hd]
      exact List.findIdx?_append
    rw [ofList_append_singleton, toList_entries_append, find?_append, happend]
    by_cases hcd : c = d
    · -- the constant is indexed where it is appended, unless it occurs before
      subst hcd
      rw [ih hcs]
      cases (ofList cs).entries.toList.idxOf? c with
      | none => simp
      | some i => simp
    · simp [hsame, hcd, ih hcs]

theorem find?_ofList_eq_some_iff {cs : List Constant} (hcs : ∀ c ∈ cs, c ≠ .unusable)
    (hcount : (ofList cs).count < 65536) (hc : c ≠ .unusable) :
    (ofList cs).find? c = some index ↔ (ofList cs).entries[index.toNat]? = some c ∧
      ∀ j < index.toNat, (ofList cs).entries[j]? ≠ some c := by
  have hfirst : ∀ i, (ofList cs).entries.toList.idxOf? c = some i ↔
      (ofList cs).entries[i]? = some c ∧ ∀ j < i, (ofList cs).entries[j]? ≠ some c := by
    intro i
    rw [List.idxOf?_eq_some_iff]
    simp only [Array.length_toList, Array.getElem_toList, ne_eq, Array.getElem?_eq_some_iff,
      not_exists]
    constructor
    · rintro ⟨hi, heq, hbefore⟩
      exact ⟨⟨hi, heq⟩, fun j hj _ => hbefore j hj⟩
    · rintro ⟨⟨hi, heq⟩, hbefore⟩
      exact ⟨hi, heq, fun j hj => hbefore j hj (Nat.lt_trans hj hi)⟩
  rw [find?_ofList hcs hc, ← hfirst, Option.map_eq_some_iff]
  -- places in the pool are small enough to be kept as indices
  constructor
  · rintro ⟨i, hi, rfl⟩
    obtain ⟨hlt, -⟩ := Array.getElem?_eq_some_iff.1 ((hfirst i).1 hi).1
    rwa [UInt16.toNat_ofNat_of_lt' (Nat.lt_trans hlt hcount)]
  · intro hi
    exact ⟨index.toNat, hi, UInt16.ofNat_toNat⟩

theorem find?_ofList_eq_none_iff {cs : List Constant} (hcs : ∀ c ∈ cs, c ≠ .unusable)
    (hc : c ≠ .unusable) : (ofList cs).find? c = none ↔ c ∉ (ofList cs).entries := by
  rw [find?_ofList hcs hc, Option.map_eq_none_iff, List.idxOf?_eq_none_iff, Array.mem_toList_iff]

/-! ## Consistency -/

theorem Reached.consistent (h : pool.Reached) : pool.Consistent := by
  obtain ⟨cs, haccepted, rfl, hcount⟩ := h.exists_ofList
  have hcs : ∀ c ∈ cs, c ≠ .unusable := fun c hc =>
    Constant.ne_unusable_of_refusal (haccepted c hc)
  refine ⟨?_, fun i hi => unusable_iff_ofList hcs hi, hcount, ?_, ?_⟩
  · rw [← Array.getElem?_toList, toList_entries_ofList]
    rfl
  · exact fun c index hc => find?_ofList_eq_some_iff hcs (Nat.lt_succ_of_le hcount) hc
  · exact fun c hc => find?_ofList_eq_none_iff hcs hc

/-- One attempt on a consistent pool. -/
theorem Consistent.attempt (hpool : pool.Consistent) (c : Constant) :
    pool.Attempt c (intern c pool) := by
  cases h : intern c pool with
  | error e pool' =>
    obtain ⟨rfl, hrefused | ⟨haccepted, hmissing, hfull, rfl⟩⟩ := intern_error_cases h
    · exact .refused hrefused
    · have hc := Constant.ne_unusable_of_refusal haccepted
      exact .full haccepted ((hpool.find?_eq_none_iff c hc).1 hmissing) hfull
  | ok index pool' =>
    obtain ⟨haccepted, ⟨hfound, rfl⟩ | ⟨hmissing, hroom, rfl, rfl⟩⟩ := intern_cases h
    · exact .found haccepted hfound
    · have hc := Constant.ne_unusable_of_refusal haccepted
      refine .added haccepted ((hpool.find?_eq_none_iff c hc).1 hmissing) hroom ?_
        (toList_entries_append pool c)
      exact UInt16.toNat_ofNat_of_lt' (Nat.lt_succ_of_le hpool.count_le)

/-- Every pool that comes about is consistent, an attempt to intern leaves it as it is or appends
the one constant, and whatever is interned later, each entry keeps its index, those that were there
as well as those for which an index was handed out. -/
theorem consistent_of_reached (hpool : pool.Reached) :
    pool.Consistent ∧ (∀ c, pool.Attempt c (intern c pool)) ∧
      (∀ cs, pool.Extends (pool.tryAll cs)) ∧
      ∀ c index pool' cs, intern c pool = .ok index pool' →
        (pool'.tryAll cs).get? index = some c := by
  have hconsistent := hpool.consistent
  refine ⟨hconsistent, hconsistent.attempt, extends_tryAll pool, ?_⟩
  intro c index pool' cs h
  exact extends_tryAll pool' cs _ _ (hpool.built.get?_of_intern h)

/-- A pool that holds one text twice, with a two-slot constant between the two entries. -/
def repeating : Pool := ofList [.utf8 [65], .long 1, .utf8 [65]]

theorem reached_repeating : repeating.Reached := by
  have hreadable : (Constant.utf8 [65]).Readable := ⟨by decide, "A", by decide +kernel⟩
  have hsound : repeating.Sound := by
    refine ⟨⟨_, ?_, rfl⟩, by decide +kernel⟩
    exact List.forall_mem_cons.2 ⟨hreadable, List.forall_mem_cons.2
      ⟨trivial, List.forall_mem_singleton.2 hreadable⟩⟩
  exact Writable.reached ⟨hsound, by decide⟩

/-- The attempt for a placeholder fails and the one for the text finds it at its first place, so that
the second entry of the text still stands at its index when other constants are added. -/
theorem exists_consistent_repeating : ∃ pool, pool = repeating.tryAll [.unusable, .utf8 [65]] ∧
    pool.Reached ∧ pool.Consistent ∧ pool.Attempt (.double 0) (intern (.double 0) pool) ∧
    pool.find? (.utf8 [65]) = some 1 ∧ pool.count = 5 ∧
    (pool.tryAll [.double 0, .integer 7]).get? 4 = some (.utf8 [65]) := by
  have hreached := reached_repeating.tryAll [.unusable, .utf8 [65]]
  obtain ⟨hconsistent, hattempt, hextends, -⟩ := consistent_of_reached hreached
  exact ⟨_, rfl, hreached, hconsistent, hattempt _, by decide +kernel, by decide +kernel,
    hextends _ _ _ (by decide +kernel)⟩

end Pool

end PatternGuard
