import Mathlib.Data.Finset.Card
import PatternGuard.Proofs.Pool.Requests

/-!
# Room for a name

A name demands several constants of a pool, which refer to each other by index (`Demand`). Interning
the name succeeds exactly if the pool may hold each of them and has room for those that it misses
(`Pool.Interns`), and since no two of the missing ones are the same entry, their number is that of a
finite set (`Pool.count_includingAll`). Together with what a success delivers this says all about a
request for a name (`NameRequest.interned_faithfully`).
-/

set_option autoImplicit false

namespace PatternGuard

open Outcome Text

namespace Pool

variable {pool : Pool} {c d : Constant} {cs ds : List Constant}

/-! ## Pools without a limit -/

/-- The pool with the constant, which is added if it is missing, whether or not there is room. -/
def including (pool : Pool) (c : Constant) : Pool :=
  if c ∈ pool.entries then pool else pool.append c

/-- The pool with these constants, each of which is added if it is missing by then. -/
def includingAll (pool : Pool) (cs : List Constant) : Pool := cs.foldl including pool

/-- The index of the constant in the pool that includes it. -/
def indexOf (pool : Pool) (c : Constant) : UInt16 :=
  (pool.find? c).getD (UInt16.ofNat pool.count)

/-- Those of the constants that the pool does not hold. -/
def missing (pool : Pool) (cs : List Constant) : Finset Constant :=
  cs.toFinset.filter (· ∉ pool.entries)

theorem including_of_mem (h : c ∈ pool.entries) : pool.including c = pool := if_pos h

theorem including_of_not_mem (h : c ∉ pool.entries) : pool.including c = pool.append c := if_neg h

theorem includingAll_append (pool : Pool) (cs ds : List Constant) :
    pool.includingAll (cs ++ ds) = (pool.includingAll cs).includingAll ds :=
  List.foldl_append

theorem count_le_count_including (pool : Pool) (c : Constant) :
    pool.count ≤ (pool.including c).count := by
  by_cases h : c ∈ pool.entries
  · rw [including_of_mem h]
  · rw [including_of_not_mem h, count_append]
    exact Nat.le_add_right _ _

theorem count_le_count_includingAll (pool : Pool) (cs : List Constant) :
    pool.count ≤ (pool.includingAll cs).count := by
  induction cs generalizing pool with
  | nil => exact Nat.le_refl _
  | cons c cs ih => exact (count_le_count_including pool c).trans (ih _)

theorem mem_entries_append (h : c.width = 1) :
    d ∈ (pool.append c).entries ↔ d ∈ pool.entries ∨ d = c := by
  have hslots : c.slots = [c] := if_neg (by rw [h]; decide)
  rw [← Array.mem_toList_iff, toList_entries_append, hslots, List.mem_append, Array.mem_toList_iff,
    List.mem_singleton]

theorem missing_cons_of_mem (h : c ∈ pool.entries) : pool.missing (c :: cs) = pool.missing cs := by
  rw [missing, List.toFinset_cons, Finset.filter_insert, if_neg (not_not_intro h)]
  rfl

/-- A constant that is missing is no longer so when it was added. -/
theorem missing_cons_of_not_mem (hwidth : c.width = 1) (h : c ∉ pool.entries) :
    pool.missing (c :: cs) = insert c ((pool.append c).missing cs) := by
  ext d
  simp only [missing, List.toFinset_cons, Finset.mem_filter, Finset.mem_insert, List.mem_toFinset,
    mem_entries_append hwidth]
  by_cases hd : d = c
  · simp [hd, h]
  · simp [hd]

/-- As many slots are filled as constants are missing, however often each of them is named. -/
theorem count_includingAll (hcs : ∀ c ∈ cs, c.width = 1) (pool : Pool) :
    (pool.includingAll cs).count = pool.count + (pool.missing cs).card := by
  induction cs generalizing pool with
  | nil => rfl
  | cons c cs ih =>
    obtain ⟨hwidth, hcs⟩ := List.forall_mem_cons.1 hcs
    show ((pool.including c).includingAll cs).count = _
    rw [ih hcs]
    by_cases h : c ∈ pool.entries
    · rw [including_of_mem h, missing_cons_of_mem h]
    · have hadded : c ∉ (pool.append c).missing cs := by
        intro hmem
        exact (Finset.mem_filter.1 hmem).2 ((mem_entries_append hwidth).2 (Or.inr rfl))
      rw [including_of_not_mem h, missing_cons_of_not_mem hwidth h,
        Finset.card_insert_of_notMem hadded, count_append, hwidth]
      omega

/-- A pool may hold each of the constants, and it has room for those that it misses. -/
structure Admits (pool : Pool) (cs : List Constant) : Prop where
  accepted : ∀ c ∈ cs, c.refusal = none
  room : (pool.includingAll cs).count ≤ maxCount

theorem admits_append_iff :
    pool.Admits (cs ++ ds) ↔ pool.Admits cs ∧ (pool.includingAll cs).Admits ds := by
  constructor
  · rintro ⟨haccepted, hroom⟩
    obtain ⟨hcs, hds⟩ := List.forall_mem_append.1 haccepted
    rw [includingAll_append] at hroom
    exact ⟨⟨hcs, (count_le_count_includingAll _ ds).trans hroom⟩, hds, hroom⟩
  · rintro ⟨⟨hcs, -⟩, hds, hroom⟩
    rw [← includingAll_append] at hroom
    exact ⟨List.forall_mem_append.2 ⟨hcs, hds⟩, hroom⟩

end Pool

/-! ## Demands -/

/-- What a name demands of a pool: the constants that are to be there, each after those that it
refers to, and the index of the last one. -/
abbrev Demand := Pool → List Constant × UInt16

namespace Demand

/-- A single constant is demanded. -/
def entry (c : Constant) : Demand := fun pool => ([c], pool.indexOf c)

/-- More is demanded of the pool that includes the first constants. -/
def andThen (first : Demand) (next : UInt16 → Demand) : Demand := fun pool =>
  let (cs, i) := first pool
  let (ds, j) := next i (pool.includingAll cs)
  (cs ++ ds, j)

/-- The entry of a text. -/
def text (t : String) : Demand := entry (.ofText t)

/-- An entry that refers to one text. -/
def named (constant : UInt16 → Constant) (t : String) : Demand :=
  (text t).andThen fun i => entry (constant i)

/-- The entry of a name with a descriptor. -/
def nameAndType (name descriptor : String) : Demand :=
  (text name).andThen fun i => (text descriptor).andThen fun j => entry (.nameAndType i j)

/-- A reference to a member. -/
def member (constant : UInt16 → UInt16 → Constant) (m : MemberRef) : Demand :=
  (named .classEntry m.owner).andThen fun i =>
    (nameAndType m.name m.descriptor).andThen fun j => entry (constant i j)

end Demand

namespace Pool

variable {pool : Pool} {action : Interning UInt16} {demand : Demand}

/-- The computation succeeds exactly in those pools that admit all that is demanded, and it adds
what is missing of it. -/
structure Interns (action : Interning UInt16) (demand : Demand) : Prop where
  ok : ∀ pool, pool.Reached → pool.Admits (demand pool).1 →
    action pool = .ok (demand pool).2 (pool.includingAll (demand pool).1)
  error : ∀ pool, pool.Reached → ¬pool.Admits (demand pool).1 →
    ∃ e pool', action pool = .error e pool'

theorem Reached.admits_singleton_iff {c : Constant} (hpool : pool.Reached) :
    pool.Admits [c] ↔
      c.refusal = none ∧ (c ∈ pool.entries ∨ pool.count + c.width ≤ maxCount) := by
  have hroom : (pool.includingAll [c]).count ≤ maxCount ↔
      c ∈ pool.entries ∨ pool.count + c.width ≤ maxCount := by
    show (pool.including c).count ≤ maxCount ↔ _
    by_cases hmem : c ∈ pool.entries
    · rw [including_of_mem hmem]
      exact iff_of_true hpool.consistent.count_le (Or.inl hmem)
    · rw [including_of_not_mem hmem, count_append, or_iff_right hmem]
  rw [← hroom]
  constructor
  · rintro ⟨haccepted, hroom⟩
    exact ⟨haccepted c List.mem_cons_self, hroom⟩
  · rintro ⟨hc, hroom⟩
    exact ⟨List.forall_mem_singleton.2 hc, hroom⟩

theorem Reached.find?_eq_none_iff {c : Constant} (hpool : pool.Reached) (hc : c.refusal = none) :
    pool.find? c = none ↔ c ∉ pool.entries :=
  hpool.consistent.find?_eq_none_iff c (Constant.ne_unusable_of_refusal hc)

theorem interns_intern (c : Constant) : Interns (intern c) (.entry c) := by
  constructor
  · intro pool hpool hadmits
    obtain ⟨hc, hroom⟩ := hpool.admits_singleton_iff.1 hadmits
    show intern c pool = .ok (pool.indexOf c) (pool.including c)
    by_cases hmem : c ∈ pool.entries
    · have hfound := mt (hpool.find?_eq_none_iff hc).1 (not_not_intro hmem)
      obtain ⟨index, hindex⟩ := Option.ne_none_iff_exists'.1 hfound
      rw [intern_of_find? hc hindex, including_of_mem hmem, indexOf, hindex]
      rfl
    · have hmissing := (hpool.find?_eq_none_iff hc).2 hmem
      rw [including_of_not_mem hmem, intern, hc, indexOf, hmissing]
      exact if_pos (hroom.resolve_left hmem)
  · intro pool hpool hnot
    cases hrun : intern c pool with
    | error e pool' => exact ⟨e, pool', rfl⟩
    | ok index pool' =>
      -- a constant that was found is there, and for one that was added there was room
      obtain ⟨hc, ⟨hfound, -⟩ | ⟨-, hroom, -, -⟩⟩ := intern_cases hrun
      · have hmem : c ∈ pool.entries := by
          by_contra hmem
          have hmissing := (hpool.find?_eq_none_iff hc).2 hmem
          exact absurd (hfound.symm.trans hmissing) (by simp)
        exact absurd (hpool.admits_singleton_iff.2 ⟨hc, Or.inl hmem⟩) hnot
      · exact absurd (hpool.admits_singleton_iff.2 ⟨hc, Or.inr hroom⟩) hnot

theorem Interns.bind {next : UInt16 → Interning UInt16} {demandNext : UInt16 → Demand}
    (h : Interns action demand) (hrepeats : Repeats action)
    (hnext : ∀ i, Interns (next i) (demandNext i)) :
    Interns (action >>= next) (demand.andThen demandNext) := by
  constructor
  · intro pool hpool hadmits
    obtain ⟨hfirst, hsecond⟩ := admits_append_iff.1 hadmits
    have hrun := h.ok pool hpool hfirst
    obtain ⟨hpool₁, -⟩ := hrepeats.of_ok hpool hrun
    rw [bind_run_of_ok hrun, (hnext _).ok _ hpool₁ hsecond, ← includingAll_append]
    rfl
  · intro pool hpool hnot
    by_cases hfirst : pool.Admits (demand pool).1
    · -- the first constants are there, so it is one of the others that is not admitted
      have hrun := h.ok pool hpool hfirst
      obtain ⟨hpool₁, -⟩ := hrepeats.of_ok hpool hrun
      rw [bind_run_of_ok hrun]
      exact (hnext _).error _ hpool₁ fun hsecond => hnot (admits_append_iff.2 ⟨hfirst, hsecond⟩)
    · obtain ⟨e, pool', hrun⟩ := h.error pool hpool hfirst
      exact ⟨e, pool', bind_run_of_error hrun⟩

theorem Interns.exists_error_iff (h : Interns action demand) (hpool : pool.Reached) :
    (∃ e pool', action pool = .error e pool') ↔ ¬pool.Admits (demand pool).1 := by
  refine ⟨?_, h.error pool hpool⟩
  rintro ⟨e, pool', herror⟩ hadmits
  exact absurd (herror.symm.trans (h.ok pool hpool hadmits)) (by simp)

end Pool

namespace Interning

open Pool

theorem interns_text (t : String) : Interns (text t) (.text t) := interns_intern _

theorem interns_named (entry : UInt16 → Constant) (t : String) :
    Interns (do intern (entry (← text t))) (.named entry t) :=
  (interns_text t).bind (repeats_text t) fun _ => interns_intern _

theorem interns_nameAndType (name descriptor : String) :
    Interns (nameAndType name descriptor) (.nameAndType name descriptor) :=
  (interns_text name).bind (repeats_text name) fun _ =>
    (interns_text descriptor).bind (repeats_text descriptor) fun _ => interns_intern _

theorem interns_member (entry : UInt16 → UInt16 → Constant) (m : MemberRef) :
    Interns (member entry m) (.member entry m) :=
  (interns_named _ m.owner).bind (repeats_named _ m.owner) fun _ =>
    (interns_nameAndType _ _).bind (repeats_nameAndType _ _) fun _ => interns_intern _

end Interning

/-! ## Requests -/

namespace NameRequest

open Pool Interning

variable {pool pool' : Pool} {index : UInt16}

/-- The constants that stand for the name. -/
def demand : NameRequest → Demand
  | text t => .text t
  | classNamed name => .named .classEntry name
  | string value => .named .string value
  | nameAndType name descriptor => .nameAndType name descriptor
  | fieldRef m => .member .fieldRef m
  | methodRef m => .member .methodRef m

theorem interns_intern (request : NameRequest) : Interns request.intern request.demand := by
  cases request with
  | text t => exact interns_text t
  | classNamed name => exact interns_named _ name
  | string value => exact interns_named _ value
  | nameAndType name descriptor => exact interns_nameAndType name descriptor
  | fieldRef m | methodRef m => exact interns_member _ m

theorem width_of_mem_demand (request : NameRequest) (pool : Pool) :
    ∀ c ∈ (request.demand pool).1, c.width = 1 := by
  cases request <;>
    simp [demand, Demand.text, Demand.named, Demand.nameAndType, Demand.member, Demand.andThen,
      Demand.entry, Constant.ofText, Constant.width]

/-- Only its texts can keep a name from being put into a pool. -/
theorem refusal_of_mem_demand_iff (request : NameRequest) (pool : Pool) :
    (∀ c ∈ (request.demand pool).1, c.refusal = none) ↔
      ∀ t ∈ request.texts, (ModifiedUtf8.encode t).length ≤ 65535 := by
  cases request <;>
    simp [demand, Demand.text, Demand.named, Demand.nameAndType, Demand.member, Demand.andThen,
      Demand.entry, texts, Constant.ofText, Constant.refusal]

theorem admits_demand_iff (request : NameRequest) (pool : Pool) :
    pool.Admits (request.demand pool).1 ↔
      (∀ t ∈ request.texts, (ModifiedUtf8.encode t).length ≤ 65535) ∧
        pool.count + (pool.missing (request.demand pool).1).card ≤ maxCount := by
  rw [← request.refusal_of_mem_demand_iff pool,
    ← count_includingAll (request.width_of_mem_demand pool)]
  exact ⟨fun h => ⟨h.accepted, h.room⟩, fun h => ⟨h.1, h.2⟩⟩

/-- A request fails exactly if one of its texts takes too many bytes or the pool has too few free
slots for the constants that are missing. -/
theorem exists_error_intern_iff (hpool : pool.Reached) (request : NameRequest) :
    (∃ e pool', request.intern pool = .error e pool') ↔
      (∃ t ∈ request.texts, 65535 < (ModifiedUtf8.encode t).length) ∨
        maxCount < pool.count + (pool.missing (request.demand pool).1).card := by
  rw [(interns_intern request).exists_error_iff hpool, admits_demand_iff, not_and_or, not_le]
  simp only [not_forall, not_le, exists_prop]

/-- In a pool that comes about, a name that is interned stands at its index with exactly its texts,
also after any attempts to intern other constants, and when the request is made again then, it
delivers the same index and leaves the pool as it is. A request fails exactly if a text takes too
many bytes or there are too few free slots for what is missing. Also if it fails, it has done
nothing but attempt to intern constants, and every constant has kept its index. -/
theorem interned_faithfully (hpool : pool.Reached) (request : NameRequest) :
    (∀ index pool', request.intern pool = .ok index pool' → ∀ cs,
      request.StandsAt (pool'.tryAll cs) index ∧
        request.intern (pool'.tryAll cs) = .ok index (pool'.tryAll cs)) ∧
      ((∃ e pool', request.intern pool = .error e pool') ↔
        (∃ t ∈ request.texts, 65535 < (ModifiedUtf8.encode t).length) ∨
          maxCount < pool.count + (pool.missing (request.demand pool).1).card) ∧
      (∃ cs, lastState (request.intern pool) = pool.tryAll cs) ∧
      pool.Extends (lastState (request.intern pool)) := by
  have hrepeats := repeats_intern request
  refine ⟨?_, exists_error_intern_iff hpool request, hrepeats.attempts pool,
    hrepeats.extends_lastState pool⟩
  intro index pool' h cs
  have hstands := standsAt_of_intern hpool h
  exact ⟨hstands.of_extends (extends_tryAll pool' cs), hrepeats.again pool index pool' h cs⟩

/-- A method whose owner and name are the text that the pool holds twice takes four more entries,
and a class whose name is too long fails. -/
theorem exists_interned_repeating : repeating.Reached ∧
    (repeating.missing ((methodRef ⟨"A", "A", "()V"⟩).demand repeating).1).card = 4 ∧
    (∃ pool, (methodRef ⟨"A", "A", "()V"⟩).intern repeating = .ok 8 pool ∧
      ∀ cs, (pool.tryAll cs).memberRef 8 = .ok ⟨"A", "A", "()V"⟩ ∧
        (methodRef ⟨"A", "A", "()V"⟩).intern (pool.tryAll cs) = .ok 8 (pool.tryAll cs)) ∧
    ∃ e pool, (classNamed (String.ofList (List.replicate 65536 'a'))).intern repeating =
      .error e pool := by
  obtain ⟨hagain, -⟩ := interned_faithfully reached_repeating (methodRef ⟨"A", "A", "()V"⟩)
  obtain ⟨-, hfails, -⟩ := interned_faithfully reached_repeating
    (classNamed (String.ofList (List.replicate 65536 'a')))
  have hrun : ∃ index pool, (methodRef ⟨"A", "A", "()V"⟩).intern repeating = .ok index pool ∧
      index = 8 := by
    decide +kernel
  obtain ⟨_, pool, hrun, rfl⟩ := hrun
  refine ⟨reached_repeating, by decide +kernel, ⟨pool, hrun, hagain _ _ hrun⟩, ?_⟩
  refine hfails.2 (Or.inl ⟨_, List.mem_cons_self, ?_⟩)
  rw [ModifiedUtf8.length_encode_replicate]
  decide

end NameRequest

end PatternGuard
