import PatternGuard.Proofs.Bytes.Incremental
import PatternGuard.Proofs.ClassFile.Codec

/-!
# The end of a class file

Every part of a class file is read from the front, and what is checked about a part depends on the
bytes in front of its end only: the counts and lengths stand before what they count, and names are
looked up in a pool that was read before. So a class file determines where it ends. If some of its
bytes are missing the reader runs out of them, and if there are more it reports how many
(`ClassFile.parse_delimits`).
-/

set_option autoImplicit false

namespace PatternGuard

open Reader

/-! ## Constants and pools -/

namespace Constant

/-- A text is decoded once all its bytes are there. -/
theorem incremental_decodeUtf8 : Incremental decodeUtf8 := by
  apply (incremental_count16 context).bind
  intro n
  apply (incremental_take n context).bind
  intro bytes
  split
  · exact incremental_pure _
  · exact incremental_fail _

theorem incremental_decodeBits64 : Incremental decodeBits64 := by
  apply (incremental_number 4 context).bind
  intro high
  exact (incremental_number 4 context).map _

theorem incremental_decodePair (entry : UInt16 → UInt16 → Constant) :
    Incremental (decodePair entry) := by
  apply (incremental_u16 context).bind
  intro first
  exact (incremental_u16 context).map (entry first)

/-- The first byte of an entry decides what else is read of it. -/
theorem incremental_decode (index : UInt16) : Incremental (decode index) := by
  have hindex : ∀ entry : UInt16 → Constant,
      Incremental (do return entry (← u16 context) : Reader Constant) :=
    fun entry => (incremental_u16 context).map entry
  apply (incremental_u8 context).bind
  intro tag
  split
  · exact incremental_decodeUtf8
  · exact (incremental_i32 context).map integer
  · exact (incremental_u32 context).map float
  · exact incremental_decodeBits64.map fun bits => long bits.toInt64
  · exact incremental_decodeBits64.map double
  · exact hindex classEntry
  · exact hindex string
  · exact incremental_decodePair fieldRef
  · exact incremental_decodePair methodRef
  · exact incremental_decodePair interfaceMethodRef
  · exact incremental_decodePair nameAndType
  · apply (incremental_u8 context).bind
    intro kind
    exact hindex (methodHandle kind)
  · exact hindex methodType
  · exact incremental_decodePair dynamic
  · exact incremental_decodePair invokeDynamic
  · exact hindex moduleEntry
  · exact hindex packageEntry
  · exact incremental_fail _

end Constant

namespace Pool

theorem incremental_decodeEntries (slots : Nat) (pool : Pool) :
    Incremental (decodeEntries slots pool) := by
  -- an entry takes one slot or two, so that the induction is a strong one
  induction slots using Nat.strongRecOn generalizing pool with
  | ind slots ih =>
    cases slots with
    | zero => exact incremental_pure pool
    | succ slots =>
      rw [decodeEntries]
      apply (Constant.incremental_decode _).bind
      intro c
      split
      · cases slots with
        | zero => exact incremental_fail _
        | succ slots => exact ih slots (by omega) _
      · exact ih slots (by omega) _

/-- The references are checked when all entries have been read, before anything behind them. -/
theorem incremental_decode : Incremental decode := by
  apply (incremental_count16 _).bind
  intro count
  apply Incremental.unless
  apply (incremental_decodeEntries (count - 1) empty).bind
  intro pool
  split
  · exact incremental_pure pool
  · exact incremental_fail _

end Pool

/-! ## Members and attributes -/

theorem Attribute.incremental_decode : Incremental decode := by
  apply (incremental_u16 context).bind
  intro nameIndex
  exact (incremental_blob context).map _

theorem Attribute.incremental_decodeList : Incremental decodeList :=
  incremental_counted incremental_decode context

theorem Member.incremental_decode : Incremental decode := by
  apply (incremental_u16 context).bind
  intro access
  apply (incremental_u16 context).bind
  intro nameIndex
  apply (incremental_u16 context).bind
  intro descriptorIndex
  exact Attribute.incremental_decodeList.map _

namespace ClassFile

/-! ## Classes -/

theorem incremental_expect {α : Type} (outcome : Except Fault α) :
    Incremental (expect outcome) := by
  cases outcome with
  | ok a => exact incremental_pure a
  | error e => exact incremental_fail e

theorem incremental_readHeader : Incremental readHeader := by
  apply (incremental_u32 _).bind
  intro found
  split
  · apply (incremental_u16 _).bind
    intro minor
    exact (incremental_u16 _).map _
  · exact incremental_pure _

theorem incremental_readMember (pool : Pool) : Incremental (readMember pool) := by
  apply Member.incremental_decode.bind
  intro m
  apply (incremental_expect _).bind
  intro _
  apply (incremental_expect _).bind
  intro _
  apply (incremental_expect _).bind
  intro _
  exact incremental_pure m

theorem incremental_readMembers (pool : Pool) : Incremental (readMembers pool) :=
  incremental_counted (incremental_readMember pool) _

theorem incremental_readInterface (pool : Pool) : Incremental (readInterface pool) := by
  apply (incremental_u16 _).bind
  intro index
  apply (incremental_expect _).bind
  intro _
  exact incremental_pure index

/-- The super class is looked up if there is one, which its index tells. -/
theorem readsToEnd_superClass {α : Type} {pool : Pool} {superClass : UInt16} {rest : Reader α}
    (hrest : ReadsToEnd rest) :
    ReadsToEnd (do
      if superClass ≠ 0 then
        let _ ← expect (pool.className superClass)
      rest : Reader α) := by
  split
  · apply (incremental_expect _).bind_readsToEnd
    intro _
    exact hrest
  · exact hrest

theorem readsToEnd_readTail (major minor : UInt16) (pool : Pool) :
    ReadsToEnd (readTail major minor pool) := by
  apply (incremental_u16 _).bind_readsToEnd
  intro access
  apply (incremental_u16 _).bind_readsToEnd
  intro thisClass
  apply (incremental_u16 _).bind_readsToEnd
  intro superClass
  apply (incremental_expect _).bind_readsToEnd
  intro _
  apply readsToEnd_superClass
  apply (incremental_count16 _).bind_readsToEnd
  intro count
  apply (incremental_times (incremental_readInterface pool) count).bind_readsToEnd
  intro interfaces
  apply (incremental_readMembers pool).bind_readsToEnd
  intro fields
  apply (incremental_readMembers pool).bind_readsToEnd
  intro methods
  apply Attribute.incremental_decodeList.bind_readsToEnd
  intro attributes
  apply (incremental_expect _).bind_readsToEnd
  intro _
  exact readsToEnd_expectEnd _

theorem readsToEnd_read : ReadsToEnd read := by
  apply incremental_readHeader.bind_readsToEnd
  intro header
  split
  · exact readsToEnd_fail _
  · apply ReadsToEnd.unless
    apply Pool.incremental_decode.bind_readsToEnd
    intro pool
    exact readsToEnd_readTail _ _ pool

/-- A class file ends where it says: any strict part from its front is too short, so that the reader
runs out of bytes, and bytes behind it are left over, so that the reader tells their number. -/
theorem parse_delimits {bytes : List UInt8} {c : ClassFile} (h : parse bytes = .ok c) :
    (∀ front, front <+: bytes → front ≠ bytes →
      ∃ context offset needed, parse front = .error (.truncated context offset needed)) ∧
    ∀ more, more ≠ [] → parse (bytes ++ more) = .error (.trailingBytes more.length) :=
  readsToEnd_read.onBytes h

/-- The cut goes through the attributes at the end of the class. -/
theorem exists_delimited_oddBytes : (∃ c, parse oddBytes = .ok c) ∧
    (∃ context offset needed,
      parse (oddBytes.take 54) = .error (.truncated context offset needed)) ∧
    parse (oddBytes ++ [0, 0, 7]) = .error (.trailingBytes 3) := by
  have hparse : ∃ c, parse oddBytes = .ok c ∧ c.thisClass = 2 := by decide +kernel
  obtain ⟨c, h, -⟩ := hparse
  obtain ⟨hcut, htrailing⟩ := parse_delimits h
  refine ⟨⟨c, h⟩, ?_, ?_⟩
  · exact hcut (oddBytes.take 54) (List.take_prefix 54 oddBytes) (by decide)
  · exact htrailing [0, 0, 7] (by decide)

end ClassFile

end PatternGuard
