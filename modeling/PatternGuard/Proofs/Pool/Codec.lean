import Mathlib.Algebra.Ring.Nat
import PatternGuard.Pool.Basic
import PatternGuard.Proofs.Bytes.Writer
import PatternGuard.Proofs.Pool.Constant

/-!
# Reading and writing constant pools

A pool that is read is built from its constants by appending them one by one, and the same is true
of a pool to which constants are added later. Reading delivers exactly the pools that are built from
constants a class file can hold and whose references are right, each from the bytes that writing it
gives (`Pool.decode_ok_iff`).
-/

set_option autoImplicit false

namespace PatternGuard

open Bytes Outcome Reader

/-- The slots that a constant takes. -/
def Constant.slots (c : Constant) : List Constant := if c.width = 2 then [c, .unusable] else [c]

theorem Constant.width_eq_one_or_two (c : Constant) : c.width = 1 ∨ c.width = 2 := by
  cases c <;> simp [width]

@[simp] theorem Constant.length_slots (c : Constant) : c.slots.length = c.width := by
  rcases c.width_eq_one_or_two with h | h
  · simp [slots, h]
  · simp [slots, h]

/-- A second slot takes no bytes. -/
@[simp] theorem Constant.flatMap_encode_slots (c : Constant) :
    c.slots.flatMap encode = c.encode := by
  have hunusable : encode unusable = [] := rfl
  rcases c.width_eq_one_or_two with h | h
  · simp [slots, h]
  · simp [slots, h, hunusable]

namespace Pool

/-- The pool of the given constants. -/
def ofList (constants : List Constant) : Pool := constants.foldl append empty

theorem toList_entries_append (pool : Pool) (c : Constant) :
    (pool.append c).entries.toList = pool.entries.toList ++ c.slots := by
  rcases c.width_eq_one_or_two with h | h
  · simp [append, Constant.slots, h]
  · simp [append, Constant.slots, h]

theorem toList_entries_foldl_append (pool : Pool) (cs : List Constant) :
    (cs.foldl append pool).entries.toList = pool.entries.toList ++ cs.flatMap Constant.slots := by
  induction cs generalizing pool with
  | nil => simp
  | cons c cs ih =>
    rw [List.foldl_cons, ih, toList_entries_append, List.flatMap_cons, List.append_assoc]

theorem toList_entries_ofList (cs : List Constant) :
    (ofList cs).entries.toList = Constant.unusable :: cs.flatMap Constant.slots :=
  toList_entries_foldl_append empty cs

theorem count_append (pool : Pool) (c : Constant) :
    (pool.append c).count = pool.count + c.width := by
  have h := congrArg List.length (toList_entries_append pool c)
  rwa [List.length_append, Constant.length_slots, Array.length_toList, Array.length_toList] at h

theorem count_foldl_append (pool : Pool) (cs : List Constant) :
    (cs.foldl append pool).count = pool.count + (cs.map Constant.width).sum := by
  induction cs generalizing pool with
  | nil => rfl
  | cons c cs ih =>
    rw [List.foldl_cons, ih, count_append, List.map_cons, List.sum_cons, Nat.add_assoc]

theorem ofList_append_singleton (cs : List Constant) (c : Constant) :
    ofList (cs ++ [c]) = (ofList cs).append c := by
  simp [ofList]

/-- What a class file can hold as its pool, but for the number of slots. -/
structure Sound (pool : Pool) : Prop where
  /-- The pool is built from constants that can be read. -/
  built : ∃ cs, (∀ c ∈ cs, c.Readable) ∧ pool = ofList cs
  /-- Every constant refers to constants of the right kinds. -/
  references : pool.checkReferences = .ok ()

/-! ## Writing -/

theorem flatMap_encode_entries (cs : List Constant) :
    (ofList cs).entries.toList.flatMap Constant.encode = cs.flatMap Constant.encode := by
  have hunusable : Constant.unusable.encode = [] := rfl
  rw [toList_entries_ofList, List.flatMap_cons, hunusable, List.nil_append, List.flatMap_assoc]
  exact congrArg (List.flatMap · cs) (funext Constant.flatMap_encode_slots)

theorem encode_ofList_ok_iff {cs : List Constant} {bytes : List UInt8} :
    (ofList cs).encode = .ok bytes ↔
      (ofList cs).count < 65536 ∧
        bytes = toBytes 2 (ofList cs).count ++ cs.flatMap Constant.encode := by
  rw [encode, bind_ok_iff, flatMap_encode_entries]
  constructor
  · rintro ⟨count, hcount, hbytes⟩
    obtain ⟨hlt, rfl⟩ := count16_eq_ok_iff.1 hcount
    exact ⟨hlt, (pure_ok_iff.1 hbytes).symm⟩
  · rintro ⟨hlt, rfl⟩
    exact ⟨_, count16_eq_ok_iff.2 ⟨hlt, rfl⟩, rfl⟩

/-! ## Reading -/

/-- One more entry is read if its slots are left. -/
theorem decodeEntries_succ_ok_iff {slots : Nat} {pool pool' : Pool} {s t : Input} :
    decodeEntries (slots + 1) pool s = .ok pool' t ↔
      ∃ c u, (c.Readable ∧ s.Advances c.encode u) ∧ c.width ≤ slots + 1 ∧
        decodeEntries (slots + 1 - c.width) (pool.append c) u = .ok pool' t := by
  rw [decodeEntries, bind_run_ok_iff]
  refine exists_congr fun c => exists_congr fun u => ?_
  rw [Constant.exact_decode]
  refine and_congr_right fun _ => ?_
  rcases c.width_eq_one_or_two with hwidth | hwidth
  · simp [hwidth]
  · cases slots with
    | zero => simp [hwidth, fail_ne_ok]
    | succ slots => simp [hwidth]

/-- Filling a number of slots appends constants of that many slots, each read from its encoding. -/
theorem decodeEntries_ok_iff {slots : Nat} {pool pool' : Pool} {s t : Input} :
    decodeEntries slots pool s = .ok pool' t ↔
      ∃ cs : List Constant, pool' = cs.foldl append pool ∧ (cs.map Constant.width).sum = slots ∧
        (∀ c ∈ cs, c.Readable) ∧ s.Advances (cs.flatMap Constant.encode) t := by
  -- an entry takes one slot or two, so that the induction is a strong one
  induction slots using Nat.strongRecOn generalizing pool s with
  | ind slots ih =>
    cases slots with
    | zero =>
      rw [decodeEntries, pure_run_ok_iff]
      constructor
      · rintro ⟨rfl, rfl⟩
        exact ⟨[], rfl, rfl, by simp, Input.advances_nil_iff.2 rfl⟩
      · rintro ⟨cs, rfl, hsum, -, hadvances⟩
        cases cs with
        | nil => exact ⟨rfl, Input.advances_nil_iff.1 hadvances⟩
        | cons c cs =>
          have hwidth := c.width_eq_one_or_two
          rw [List.map_cons, List.sum_cons] at hsum
          omega
    | succ slots =>
      rw [decodeEntries_succ_ok_iff]
      constructor
      · rintro ⟨c, u, ⟨hreadable, hfront⟩, hwidth, hrest⟩
        have hpos := c.width_eq_one_or_two
        obtain ⟨cs, rfl, hsum, hall, hadvances⟩ := (ih _ (by omega)).1 hrest
        refine ⟨c :: cs, rfl, ?_, List.forall_mem_cons.2 ⟨hreadable, hall⟩, ?_⟩
        · rw [List.map_cons, List.sum_cons, hsum]
          omega
        · rw [List.flatMap_cons]
          exact Input.advances_append_iff.2 ⟨u, hfront, hadvances⟩
      · rintro ⟨cs, rfl, hsum, hall, hadvances⟩
        cases cs with
        | nil => exact absurd hsum (by simp)
        | cons c cs =>
          have hpos := c.width_eq_one_or_two
          rw [List.map_cons, List.sum_cons] at hsum
          rw [List.flatMap_cons] at hadvances
          obtain ⟨u, hfront, hrest⟩ := Input.advances_append_iff.1 hadvances
          obtain ⟨hreadable, hall⟩ := List.forall_mem_cons.1 hall
          refine ⟨c, u, ⟨hreadable, hfront⟩, by omega, (ih _ (by omega)).2 ?_⟩
          exact ⟨cs, rfl, by omega, hall, hrest⟩

/-- A pool is read exactly from the bytes that it is written as. -/
theorem decode_ok_iff {pool : Pool} {s t : Input} :
    decode s = .ok pool t ↔
      pool.Sound ∧ ∃ bytes, pool.encode = .ok bytes ∧ s.Advances bytes t := by
  have hcount : ∀ cs, (ofList cs).count = 1 + (cs.map Constant.width).sum := fun cs =>
    count_foldl_append empty cs
  rw [decode, bind_run_ok_iff]
  constructor
  · rintro ⟨count, u, hread, hbody⟩
    obtain ⟨hlt, hlength⟩ := count16_ok_iff.1 hread
    obtain ⟨hne, hbody⟩ := unless_fail_ok_iff.1 hbody
    obtain ⟨pool', v, hentries, hcheck⟩ := bind_run_ok_iff.1 hbody
    obtain ⟨cs, rfl, hsum, hall, hadvances⟩ := decodeEntries_ok_iff.1 hentries
    cases hreferences : (cs.foldl append empty).checkReferences with
    | error e =>
      rw [hreferences] at hcheck
      exact absurd hcheck fail_ne_ok
    | ok r =>
      rw [hreferences] at hcheck
      obtain ⟨rfl, rfl⟩ := pure_run_ok_iff.1 hcheck
      -- the count that was read counts slot 0 as well
      have hslots : (ofList cs).count = count := by
        rw [hcount, hsum]
        omega
      refine ⟨⟨⟨cs, hall, rfl⟩, hreferences⟩, _, encode_ofList_ok_iff.2 ⟨by omega, rfl⟩, ?_⟩
      rw [hslots]
      exact Input.advances_append_iff.2 ⟨u, hlength, hadvances⟩
  · rintro ⟨⟨⟨cs, hall, rfl⟩, hreferences⟩, bytes, hencode, hadvances⟩
    obtain ⟨hlt, rfl⟩ := encode_ofList_ok_iff.1 hencode
    obtain ⟨u, hlength, hentries⟩ := Input.advances_append_iff.1 hadvances
    have hpos := hcount cs
    refine ⟨_, u, count16_ok_iff.2 ⟨hlt, hlength⟩, ?_⟩
    refine unless_fail_ok_iff.2 ⟨by omega, ?_⟩
    refine bind_run_ok_iff.2 ⟨ofList cs, t, decodeEntries_ok_iff.2 ?_, ?_⟩
    · exact ⟨cs, rfl, by omega, hall, hentries⟩
    · rw [hreferences]
      rfl

end Pool

end PatternGuard
