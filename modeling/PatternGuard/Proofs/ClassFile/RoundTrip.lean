import PatternGuard.Proofs.ClassFile.Linked
import PatternGuard.Proofs.Pool.Reached

/-!
# Classes that are read back

A class is coherent (`ClassFile.Coherent`) if its pool came about by reading and interning, its texts
can be decoded, and wherever it uses an index the entry there is of the right kind. Nothing is asked
of its flags, the lengths of its lists and the bodies of its attributes. Every class that is read is
coherent (`ClassFile.coherent_of_parse`), and a coherent class which can be written is read back as
it was (`ClassFile.parse_of_toBytes`).
-/

set_option autoImplicit false

namespace PatternGuard

open Outcome Text

/-! ## Entries of the right kind -/

namespace Pool

variable {pool : Pool} {index : UInt16}

theorem names_of_text (h : ∃ text, pool.text index = .ok text) : pool.Names index .utf8 := by
  obtain ⟨text, htext⟩ := h
  obtain ⟨bytes, hget, -⟩ := text_eq_ok_iff.1 htext
  exact ⟨_, hget, rfl⟩

theorem names_of_className (h : ∃ name, pool.className index = .ok name) :
    pool.Names index .classEntry := by
  obtain ⟨name, hname⟩ := h
  obtain ⟨i, hget, -⟩ := className_eq_ok_iff.1 hname
  exact ⟨_, hget, rfl⟩

/-- A pool that came about is sound if its texts can be decoded and its references lead to entries of
the right kind. -/
theorem Reached.sound (hpool : pool.Reached)
    (htexts : ∀ bytes, .utf8 bytes ∈ pool.entries →
      ∃ text, ModifiedUtf8.decode bytes = .ok text)
    (hreferences : ∀ c ∈ pool.entries, pool.Resolves c) : pool.Sound := by
  obtain ⟨cs, hcs, rfl, -⟩ := hpool.exists_ofList
  refine ⟨⟨cs, ?_, rfl⟩, ?_⟩
  · intro c hc
    refine Constant.readable_iff.2 ⟨hcs c hc, ?_⟩
    rintro bytes rfl
    -- the text is an entry of the pool that was built from it
    apply htexts
    have hslot : Constant.utf8 bytes ∈ cs.flatMap Constant.slots :=
      List.mem_flatMap.2 ⟨_, hc, List.mem_singleton.2 rfl⟩
    rw [← Array.mem_toList_iff, toList_entries_ofList]
    exact List.mem_cons_of_mem _ hslot
  · rw [checkReferences_ok_iff]
    intro c hc
    exact hreferences c (Array.mem_toList_iff.1 hc)

end Pool

/-- Where the member has an index of a text, a text stands in the pool. -/
structure Member.Coherent (m : Member) (pool : Pool) : Prop where
  name : pool.Names m.nameIndex .utf8
  descriptor : pool.Names m.descriptorIndex .utf8
  attributes : ∀ a ∈ m.attributes, pool.Names a.nameIndex .utf8

theorem Member.coherent_iff_named {m : Member} {pool : Pool} (hpool : pool.Sound) :
    m.Coherent pool ↔ m.Named pool := by
  constructor
  · intro hm
    refine ⟨hpool.exists_text hm.name, hpool.exists_text hm.descriptor, ?_⟩
    intro a ha
    exact hpool.exists_text (hm.attributes a ha)
  · intro hm
    refine ⟨Pool.names_of_text hm.name, Pool.names_of_text hm.descriptor, ?_⟩
    intro a ha
    exact Pool.names_of_text (hm.attributes a ha)

namespace ClassFile

/-- A class as it may be put together, part by part: its version is one that is read, its pool came
about by reading and interning, and all its indices are those of entries of the right kind. -/
structure Coherent (c : ClassFile) : Prop where
  version : oldestMajor ≤ c.majorVersion ∧ c.majorVersion ≤ newestMajor
  reached : c.pool.Reached
  texts : ∀ bytes, .utf8 bytes ∈ c.pool.entries → ∃ text, ModifiedUtf8.decode bytes = .ok text
  references : ∀ d ∈ c.pool.entries, c.pool.Resolves d
  thisClass : c.pool.Names c.thisClass .classEntry
  superClass : c.superClass = 0 ∨ c.pool.Names c.superClass .classEntry
  interfaces : ∀ i ∈ c.interfaces, c.pool.Names i .classEntry
  fields : ∀ m ∈ c.fields, m.Coherent c.pool
  methods : ∀ m ∈ c.methods, m.Coherent c.pool
  attributes : ∀ a ∈ c.attributes, c.pool.Names a.nameIndex .utf8

variable {c : ClassFile} {bytes : List UInt8}

theorem Coherent.sound (hc : c.Coherent) : c.Sound := by
  have hpool : c.pool.Sound := hc.reached.sound hc.texts hc.references
  refine ⟨⟨hpool.exists_className hc.thisClass, ?_, ?_, ?_, ?_, ?_⟩, hc.version, hpool⟩
  · exact hc.superClass.imp_right hpool.exists_className
  · intro i hi
    exact hpool.exists_className (hc.interfaces i hi)
  · intro m hm
    exact (Member.coherent_iff_named hpool).1 (hc.fields m hm)
  · intro m hm
    exact (Member.coherent_iff_named hpool).1 (hc.methods m hm)
  · intro a ha
    exact hpool.exists_text (hc.attributes a ha)

/-- Coherence is what reading a class establishes. -/
theorem coherent_of_parse (h : parse bytes = .ok c) : c.Coherent := by
  obtain ⟨hc, -⟩ := parse_ok_iff.1 h
  have hreached : c.pool.Reached := (writable_of_parse h).reached
  refine ⟨hc.version, hreached, ?_, ?_, Pool.names_of_className hc.thisClass, ?_, ?_, ?_, ?_, ?_⟩
  · intro text htext
    have hreadable : (Constant.utf8 text).Readable :=
      hc.pool.readable_of_mem (Array.mem_toList_iff.2 htext) (by simp)
    exact hreadable.2
  · intro d hd
    exact Pool.checkReferences_ok_iff.1 hc.pool.references d (Array.mem_toList_iff.2 hd)
  · exact hc.superClass.imp_right Pool.names_of_className
  · intro i hi
    exact Pool.names_of_className (hc.interfaces i hi)
  · intro m hm
    exact (Member.coherent_iff_named hc.pool).2 (hc.fields m hm)
  · intro m hm
    exact (Member.coherent_iff_named hc.pool).2 (hc.methods m hm)
  · intro a ha
    exact Pool.names_of_text (hc.attributes a ha)

/-- A coherent class that can be written is read back: not only with the same entries in its pool, but
also with the same index of them, so that each constant is found where it was found before. -/
theorem parse_of_toBytes (hc : c.Coherent) (h : c.toBytes = .ok bytes) : parse bytes = .ok c :=
  parse_ok_iff.2 ⟨hc.sound, h⟩

/-- A class whose pool ends with a two-slot constant. -/
def wideClass : ClassFile where
  minorVersion := 3
  majorVersion := 69
  pool := Pool.empty.tryAll [.utf8 [65], .classEntry 1, .unusable, .utf8 [65], .double 0]
  access := 0xFFFF
  thisClass := 2
  superClass := 0
  interfaces := []
  fields := []
  methods := [⟨0, 1, 1, [⟨1, [7]⟩]⟩]
  attributes := [⟨1, []⟩]

/-- The bytes that the class is written as. -/
def wideBytes : List UInt8 :=
  [0xCA, 0xFE, 0xBA, 0xBE, 0, 3, 0, 69, 0, 5, 1, 0, 1, 65, 7, 0, 1, 6, 0, 0, 0, 0, 0, 0, 0, 0, 0xFF,
    0xFF, 0, 2, 0, 0, 0, 0, 0, 0, 0, 1, 0, 0, 0, 1, 0, 1, 0, 1, 0, 1, 0, 0, 0, 1, 7, 0, 1, 0, 1, 0, 0,
    0, 0]

theorem parse_wideBytes :
    wideClass.Coherent ∧ wideClass.toBytes = .ok wideBytes ∧ parse wideBytes = .ok wideClass := by
  have hentries : wideClass.pool.entries =
      #[.unusable, .utf8 [65], .classEntry 1, .double 0, .unusable] := by decide +kernel
  have hchecked : wideClass.pool.checkReferences = .ok () := by decide +kernel
  have hname : wideClass.pool.Names 1 .utf8 := by decide +kernel
  have hcoherent : wideClass.Coherent := by
    refine ⟨by decide, Pool.Reached.new.tryAll _, ?_, ?_, by decide +kernel, Or.inl rfl,
      List.forall_mem_nil _, List.forall_mem_nil _, ?_, List.forall_mem_singleton.2 hname⟩
    · -- the only text is a single letter
      intro bytes hbytes
      rw [hentries] at hbytes
      obtain rfl : bytes = [65] := by simpa using hbytes
      exact ⟨"A", by decide +kernel⟩
    · intro d hd
      exact Pool.checkReferences_ok_iff.1 hchecked d (Array.mem_toList_iff.2 hd)
    · intro m hm
      obtain rfl := List.mem_singleton.1 hm
      exact ⟨hname, hname, List.forall_mem_singleton.2 hname⟩
  have hwritten : wideClass.toBytes = .ok wideBytes := by decide +kernel
  exact ⟨hcoherent, hwritten, parse_of_toBytes hcoherent hwritten⟩

end ClassFile

end PatternGuard
