import PatternGuard.Proofs.Checked.Instruction
import PatternGuard.Proofs.Guard.Insert

/-!
# Laying out code without stops

Insertions are sorted into buckets, one for each instruction, by a table that has an entry for each
offset of the code. While the code is laid out, the new offsets are stored in two such tables. An
instruction stands in front of the end of the code, so that every index is in range; the tables hold
what the relocation holds (`OffsetTables.Mirrors`). Positions are 32-bit words as long as the new
code is not too long for them.
-/

set_option autoImplicit false

namespace PatternGuard

open Block Checked Outcome

/-! ## Tables by offset -/

/-- What a table with gaps holds at an index. -/
def Checked.lookup {α : Type} (table : List (Option α)) (i : Nat) : Option α := table[i]?.join

theorem Checked.lookup_set {α : Type} {table : List (Option α)} {i : Nat} (hi : i < table.length)
    (x : α) (j : Nat) :
    lookup (table.set i (some x)) j = if i = j then some x else lookup table j := by
  rw [lookup, List.getElem?_set, lookup]
  by_cases h : i = j
  · subst h
    simp [hi]
  · simp [h]

/-! ## Buckets -/

namespace Code

/-- The table holds the number of the first instruction at each offset. -/
def Numbers (table : List (Option Nat)) (is : List Instruction) : Prop :=
  ∀ offset, lookup table offset = is.findIdx? fun i => i.offset = offset

theorem Numbers.set {table : List (Option Nat)} {is : List Instruction} {i : Instruction}
    (h : Numbers table is) (hi : i.offset < table.length) (hnew : ∀ j ∈ is, j.offset ≠ i.offset) :
    Numbers (table.set i.offset (some is.length)) (is ++ [i]) := by
  intro offset
  rw [lookup_set hi, h offset, List.findIdx?_append]
  by_cases hoffset : i.offset = offset
  · have hnone : is.findIdx? (fun j => j.offset = offset) = none := by
      rw [List.findIdx?_eq_none_iff]
      intro j hj
      simpa [← hoffset] using hnew j hj
    simp [hoffset, hnone, List.findIdx?_cons]
  · simp [hoffset, List.findIdx?_cons]

end Code

/-- The code to insert in front of each instruction. -/
structure Buckets where
  entry : List (List Instruction)
  guards : List (List Instruction)

namespace Buckets

/-- As many empty buckets as there are instructions. -/
def empty (count : Nat) : Buckets where
  entry := List.replicate count []
  guards := List.replicate count []

/-- The buckets of instructions for the given insertions. -/
def ofInsertions (insertions : List Insertion) (is : List Instruction) : Buckets where
  entry := is.map fun i => Insertion.codeAt insertions false i.offset
  guards := is.map fun i => Insertion.codeAt insertions true i.offset

end Buckets

/-! ## Positions -/

namespace Block

end Block

/-- The new offsets by old offset. -/
structure OffsetTables where
  /-- For what pointed at the instruction. -/
  targets : List (Option Nat)
  /-- For the instruction itself. -/
  moved : List (Option Nat)

namespace OffsetTables

/-- Tables for code of the given length. -/
def empty (codeLength : Nat) : OffsetTables where
  targets := List.replicate (codeLength + 1) none
  moved := List.replicate (codeLength + 1) none

/-- The tables for code of the given length hold the new offsets of these old ones. -/
structure Holds (t : OffsetTables) (oldLength : Nat) (old : Nat → Prop)
    (offsets : Std.TreeMap Nat NewOffsets compare) : Prop where
  length_targets : t.targets.length = oldLength + 1
  length_moved : t.moved.length = oldLength + 1
  target : ∀ o, old o → lookup t.targets o = offsets[o]?.map NewOffsets.target
  moved : ∀ o, old o → lookup t.moved o = offsets[o]?.map NewOffsets.moved

variable {t : OffsetTables} {oldLength : Nat} {old : Nat → Prop}
  {offsets : Std.TreeMap Nat NewOffsets compare}

/-- What is stored in the tables is inserted into the map. -/
theorem Holds.set (h : t.Holds oldLength old offsets) {o : Nat} (ho : o ≤ oldLength)
    (new : NewOffsets) :
    Holds ⟨t.targets.set o (some new.target), t.moved.set o (some new.moved)⟩ oldLength old
      (offsets.insert o new) := by
  have htargets : o < t.targets.length := by
    rw [h.length_targets]
    omega
  have hmoved : o < t.moved.length := by
    rw [h.length_moved]
    omega
  refine ⟨?_, ?_, fun o' ho' => ?_, fun o' ho' => ?_⟩
  · rw [List.length_set, h.length_targets]
  · rw [List.length_set, h.length_moved]
  · rw [lookup_set htargets, h.target o' ho', Std.TreeMap.getElem?_insert]
    by_cases heq : o = o' <;> simp [heq]
  · rw [lookup_set hmoved, h.moved o' ho', Std.TreeMap.getElem?_insert]
    by_cases heq : o = o' <;> simp [heq]

end OffsetTables

end PatternGuard
