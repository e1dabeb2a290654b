import PatternGuard.ClassFile.Basic
import PatternGuard.Proofs.ClassFile.Attribute
import PatternGuard.Proofs.Pool.Codec

/-!
# Reading and writing class files

A class file is read exactly from the bytes that the class is written as (`parse_ok_iff`): what is
accepted is determined by the class that it describes. One direction says that a class which is not
changed is written byte for byte as it was read, the other that a sound class, once written, is read
back as it was.
-/

set_option autoImplicit false

namespace PatternGuard

open Bytes Outcome Reader

/-- The names of the member and of its attributes are texts of the pool. -/
structure Member.Named (m : Member) (pool : Pool) : Prop where
  name : ∃ text, m.name pool = .ok text
  descriptor : ∃ text, m.descriptor pool = .ok text
  attributes : ∀ a ∈ m.attributes, ∃ text, a.name pool = .ok text

namespace ClassFile

/-- The names that the class uses are texts and classes of its pool. -/
structure Linked (c : ClassFile) : Prop where
  thisClass : ∃ text, c.pool.className c.thisClass = .ok text
  superClass : c.superClass = 0 ∨ ∃ text, c.pool.className c.superClass = .ok text
  interfaces : ∀ i ∈ c.interfaces, ∃ text, c.pool.className i = .ok text
  fields : ∀ m ∈ c.fields, m.Named c.pool
  methods : ∀ m ∈ c.methods, m.Named c.pool
  attributes : ∀ a ∈ c.attributes, ∃ text, a.name c.pool = .ok text

/-- What is checked when a class is read, but for the limits of its tables. -/
structure Sound (c : ClassFile) : Prop extends c.Linked where
  version : oldestMajor ≤ c.majorVersion ∧ c.majorVersion ≤ newestMajor
  pool : c.pool.Sound

/-! ## Parts of a class -/

section Parts

variable {s t : Input}

theorem expect_ok_iff {α : Type} {outcome : Except Fault α} {a : α} :
    expect outcome s = .ok a t ↔ outcome = .ok a ∧ s = t := by
  cases outcome with
  | ok b =>
    rw [expect, pure_run_ok_iff, Except.ok.injEq]
  | error e => simp [expect, fail_ne_ok]

/-- Whether all attributes have names is a check without a result. -/
theorem forM_name_ok_iff {attributes : List Attribute} {pool : Pool} {r : Unit} :
    (attributes.forM fun a => do let _ ← a.name pool : Except Fault Unit) = .ok r ↔
      ∀ a ∈ attributes, ∃ text, a.name pool = .ok text := by
  rw [forM_ok_iff]
  refine forall_congr' fun a => imp_congr_right fun _ => ?_
  rw [bind_ok_iff]
  exact exists_congr fun text => ⟨fun h => h.1, fun h => ⟨h, rfl⟩⟩

theorem readHeader_ok_iff {major minor : UInt16} :
    readHeader s = .ok (.ok (major, minor)) t ↔
      s.Advances (u32Bytes magic ++ (u16Bytes minor ++ u16Bytes major)) t := by
  rw [readHeader, bind_run_ok_iff, Input.advances_append_iff]
  constructor
  · rintro ⟨found, u, hfound, hrest⟩
    split at hrest
    · rename_i hmagic
      subst hmagic
      obtain ⟨_, v, hminor, h₁⟩ := bind_run_ok_iff.1 hrest
      obtain ⟨_, w, hmajor, hpure⟩ := bind_run_ok_iff.1 h₁
      obtain ⟨hvalue, rfl⟩ := pure_run_ok_iff.1 hpure
      obtain ⟨rfl, rfl⟩ := Prod.mk.inj (Except.ok.inj hvalue)
      exact ⟨u, u32_ok_iff.1 hfound,
        Input.advances_append_iff.2 ⟨v, u16_ok_iff.1 hminor, u16_ok_iff.1 hmajor⟩⟩
    · exact absurd (pure_run_ok_iff.1 hrest).1 (by simp)
  · rintro ⟨u, hmagic, hversion⟩
    obtain ⟨v, hminor, hmajor⟩ := Input.advances_append_iff.1 hversion
    refine ⟨magic, u, u32_ok_iff.2 hmagic, ?_⟩
    rw [if_pos rfl]
    exact bind_run_ok_iff.2 ⟨minor, v, u16_ok_iff.2 hminor,
      bind_run_ok_iff.2 ⟨major, t, u16_ok_iff.2 hmajor, rfl⟩⟩

theorem inverts_readMember (pool : Pool) :
    Inverts (readMember pool) (fun m => m.Named pool) Member.encode := by
  intro s m t
  rw [readMember, bind_run_ok_iff]
  constructor
  · rintro ⟨m', u, hm, h₁⟩
    obtain ⟨name, _, e₁, h₂⟩ := bind_run_ok_iff.1 h₁
    obtain ⟨hname, rfl⟩ := expect_ok_iff.1 e₁
    obtain ⟨descriptor, _, e₂, h₃⟩ := bind_run_ok_iff.1 h₂
    obtain ⟨hdescriptor, rfl⟩ := expect_ok_iff.1 e₂
    obtain ⟨_, _, e₃, hpure⟩ := bind_run_ok_iff.1 h₃
    obtain ⟨hattributes, rfl⟩ := expect_ok_iff.1 e₃
    obtain ⟨rfl, rfl⟩ := pure_run_ok_iff.1 hpure
    exact ⟨⟨⟨name, hname⟩, ⟨descriptor, hdescriptor⟩, forM_name_ok_iff.1 hattributes⟩,
      Member.decode_ok_iff.1 hm⟩
  · rintro ⟨⟨⟨name, hname⟩, ⟨descriptor, hdescriptor⟩, hattributes⟩, hm⟩
    refine ⟨m, t, Member.decode_ok_iff.2 hm, bind_run_ok_iff.2 ?_⟩
    refine ⟨name, t, expect_ok_iff.2 ⟨hname, rfl⟩, bind_run_ok_iff.2 ?_⟩
    refine ⟨descriptor, t, expect_ok_iff.2 ⟨hdescriptor, rfl⟩, bind_run_ok_iff.2 ?_⟩
    exact ⟨⟨⟩, t, expect_ok_iff.2 ⟨forM_name_ok_iff.2 hattributes, rfl⟩, rfl⟩

theorem readMembers_ok_iff {pool : Pool} {members : List Member} :
    readMembers pool s = .ok members t ↔
      (∀ m ∈ members, m.Named pool) ∧
        ∃ bytes, counted "members" Member.encode members = .ok bytes ∧ s.Advances bytes t :=
  (inverts_readMember pool).counted "member count" "members" s members t

theorem exact_readInterface (pool : Pool) :
    Exact (readInterface pool) (fun i => ∃ text, pool.className i = .ok text) u16Bytes := by
  intro s i t
  rw [readInterface, bind_run_ok_iff]
  constructor
  · rintro ⟨i', u, hi, h₁⟩
    obtain ⟨text, _, e₁, hpure⟩ := bind_run_ok_iff.1 h₁
    obtain ⟨htext, rfl⟩ := expect_ok_iff.1 e₁
    obtain ⟨rfl, rfl⟩ := pure_run_ok_iff.1 hpure
    exact ⟨⟨text, htext⟩, u16_ok_iff.1 hi⟩
  · rintro ⟨⟨text, htext⟩, hi⟩
    refine ⟨i, t, u16_ok_iff.2 hi, bind_run_ok_iff.2 ?_⟩
    exact ⟨text, t, expect_ok_iff.2 ⟨htext, rfl⟩, rfl⟩

end Parts

/-! ## What stands after the pool -/

/-- The super class is looked up if there is one. -/
theorem superClass_check_iff {pool : Pool} {superClass : UInt16} {α : Type} {rest : Reader α}
    {s t : Input} {a : α} :
    (do
      if superClass ≠ 0 then
        let _ ← expect (pool.className superClass)
      rest : Reader α) s = .ok a t ↔
      (superClass = 0 ∨ ∃ text, pool.className superClass = .ok text) ∧ rest s = .ok a t := by
  by_cases hzero : superClass = 0
  · simp [hzero]
  · simp only [ne_eq, hzero, not_false_eq_true, ↓reduceIte, false_or, bind_run_ok_iff,
      expect_ok_iff]
    constructor
    · rintro ⟨text, _, ⟨htext, rfl⟩, h⟩
      exact ⟨⟨text, htext⟩, h⟩
    · rintro ⟨⟨text, htext⟩, h⟩
      exact ⟨text, s, ⟨htext, rfl⟩, h⟩

/-- Reads what stands after the pool, to the end of the input. -/
def readTail (major minor : UInt16) (pool : Pool) : Reader ClassFile := do
  let access ← Reader.u16 "class header"
  let thisClass ← Reader.u16 "class header"
  let superClass ← Reader.u16 "class header"
  let _ ← expect (pool.className thisClass)
  if superClass ≠ 0 then
    let _ ← expect (pool.className superClass)
  let interfaces ← Reader.times (← Reader.count16 "interfaces") (readInterface pool)
  let fields ← readMembers pool
  let methods ← readMembers pool
  let attributes ← Attribute.decodeList
  expect (attributes.forM fun a => do let _ ← a.name pool)
  Reader.expectEnd .trailingBytes
  return { minorVersion := minor, majorVersion := major, pool, access, thisClass, superClass,
           interfaces, fields, methods, attributes }

/-- The bytes of the class after those of its pool. -/
def HasTail (c : ClassFile) (bytes : List UInt8) : Prop :=
  ∃ fields methods attributes, c.interfaces.length < 65536 ∧
    counted "members" Member.encode c.fields = .ok fields ∧
    counted "members" Member.encode c.methods = .ok methods ∧
    Attribute.encodeList c.attributes = .ok attributes ∧
    bytes = u16Bytes c.access ++ (u16Bytes c.thisClass ++ (u16Bytes c.superClass ++
      ((Bytes.toBytes 2 c.interfaces.length ++ c.interfaces.flatMap u16Bytes) ++
        (fields ++ (methods ++ attributes)))))

theorem linked_of_readTail {major minor : UInt16} {pool : Pool} {c : ClassFile} {s t : Input}
    (h : readTail major minor pool s = .ok c t) :
    c.majorVersion = major ∧ c.minorVersion = minor ∧ c.pool = pool ∧ c.Linked ∧ t.rest = [] ∧
      ∃ bytes, c.HasTail bytes ∧ s.Advances bytes t := by
  obtain ⟨access, s₁, e₁, h₁⟩ := bind_run_ok_iff.1 h
  obtain ⟨thisClass, s₂, e₂, h₂⟩ := bind_run_ok_iff.1 h₁
  obtain ⟨superClass, s₃, e₃, h₃⟩ := bind_run_ok_iff.1 h₂
  obtain ⟨text, _, thisRun, h₄⟩ := bind_run_ok_iff.1 h₃
  obtain ⟨hthis, rfl⟩ := expect_ok_iff.1 thisRun
  obtain ⟨hsuper, h₅⟩ := superClass_check_iff.1 h₄
  obtain ⟨count, s₄, e₄, h₆⟩ := bind_run_ok_iff.1 h₅
  obtain ⟨interfaces, s₅, e₅, h₇⟩ := bind_run_ok_iff.1 h₆
  obtain ⟨fields, s₆, e₆, h₈⟩ := bind_run_ok_iff.1 h₇
  obtain ⟨methods, s₇, e₇, h₉⟩ := bind_run_ok_iff.1 h₈
  obtain ⟨attributes, s₈, e₈, h₁₀⟩ := bind_run_ok_iff.1 h₉
  obtain ⟨_, _, namesRun, h₁₁⟩ := bind_run_ok_iff.1 h₁₀
  obtain ⟨hnames, rfl⟩ := expect_ok_iff.1 namesRun
  obtain ⟨_, _, hend, hpure⟩ := bind_run_ok_iff.1 h₁₁
  obtain ⟨hrest, rfl⟩ := expectEnd_ok_iff.1 hend
  obtain ⟨rfl, rfl⟩ := pure_run_ok_iff.1 hpure
  -- every part that was read stands in the bytes as it is written
  obtain ⟨hlt, a₄⟩ := count16_ok_iff.1 e₄
  obtain ⟨rfl, hinterfaces, a₅⟩ := (exact_readInterface pool).times_ok_iff.1 e₅
  obtain ⟨hfields, fieldBytes, hfieldBytes, a₆⟩ := readMembers_ok_iff.1 e₆
  obtain ⟨hmethods, methodBytes, hmethodBytes, a₇⟩ := readMembers_ok_iff.1 e₇
  obtain ⟨attributeBytes, hattributeBytes, a₈⟩ := Attribute.decodeList_ok_iff.1 e₈
  refine ⟨rfl, rfl, rfl, ⟨⟨text, hthis⟩, hsuper, hinterfaces, hfields, hmethods,
    forM_name_ok_iff.1 hnames⟩, hrest, _, ⟨fieldBytes, methodBytes, attributeBytes, hlt,
    hfieldBytes, hmethodBytes, hattributeBytes, rfl⟩, ?_⟩
  refine Input.advances_append_iff.2 ⟨s₁, u16_ok_iff.1 e₁, ?_⟩
  refine Input.advances_append_iff.2 ⟨s₂, u16_ok_iff.1 e₂, ?_⟩
  refine Input.advances_append_iff.2 ⟨s₃, u16_ok_iff.1 e₃, ?_⟩
  refine Input.advances_append_iff.2 ⟨s₅, Input.advances_append_iff.2 ⟨s₄, a₄, a₅⟩, ?_⟩
  exact Input.advances_append_iff.2 ⟨s₆, a₆, Input.advances_append_iff.2 ⟨s₇, a₇, a₈⟩⟩

theorem readTail_of_hasTail {c : ClassFile} {bytes : List UInt8} {s t : Input} (hc : c.Linked)
    (hrest : t.rest = []) (htail : c.HasTail bytes) (hadvances : s.Advances bytes t) :
    readTail c.majorVersion c.minorVersion c.pool s = .ok c t := by
  obtain ⟨fieldBytes, methodBytes, attributeBytes, hlt, hfields, hmethods, hattributes, rfl⟩ :=
    htail
  obtain ⟨s₁, a₁, h₁⟩ := Input.advances_append_iff.1 hadvances
  obtain ⟨s₂, a₂, h₂⟩ := Input.advances_append_iff.1 h₁
  obtain ⟨s₃, a₃, h₃⟩ := Input.advances_append_iff.1 h₂
  obtain ⟨s₅, interfaceBytes, h₅⟩ := Input.advances_append_iff.1 h₃
  obtain ⟨s₄, a₄, a₅⟩ := Input.advances_append_iff.1 interfaceBytes
  obtain ⟨s₆, a₆, h₆⟩ := Input.advances_append_iff.1 h₅
  obtain ⟨s₇, a₇, a₈⟩ := Input.advances_append_iff.1 h₆
  obtain ⟨text, hthis⟩ := hc.thisClass
  refine bind_run_ok_iff.2 ⟨c.access, s₁, u16_ok_iff.2 a₁, ?_⟩
  refine bind_run_ok_iff.2 ⟨c.thisClass, s₂, u16_ok_iff.2 a₂, ?_⟩
  refine bind_run_ok_iff.2 ⟨c.superClass, s₃, u16_ok_iff.2 a₃, ?_⟩
  refine bind_run_ok_iff.2 ⟨text, s₃, expect_ok_iff.2 ⟨hthis, rfl⟩, ?_⟩
  refine superClass_check_iff.2 ⟨hc.superClass, ?_⟩
  refine bind_run_ok_iff.2 ⟨_, s₄, count16_ok_iff.2 ⟨hlt, a₄⟩, ?_⟩
  refine bind_run_ok_iff.2 ⟨c.interfaces, s₅,
    (exact_readInterface c.pool).times_ok_iff.2 ⟨rfl, hc.interfaces, a₅⟩, ?_⟩
  refine bind_run_ok_iff.2 ⟨c.fields, s₆,
    readMembers_ok_iff.2 ⟨hc.fields, fieldBytes, hfields, a₆⟩, ?_⟩
  refine bind_run_ok_iff.2 ⟨c.methods, s₇,
    readMembers_ok_iff.2 ⟨hc.methods, methodBytes, hmethods, a₇⟩, ?_⟩
  refine bind_run_ok_iff.2 ⟨c.attributes, t,
    Attribute.decodeList_ok_iff.2 ⟨attributeBytes, hattributes, a₈⟩, ?_⟩
  refine bind_run_ok_iff.2 ⟨⟨⟩, t, expect_ok_iff.2 ⟨forM_name_ok_iff.2 hc.attributes, rfl⟩, ?_⟩
  exact bind_run_ok_iff.2 ⟨⟨⟩, t, expectEnd_ok_iff.2 ⟨hrest, rfl⟩, rfl⟩

/-! ## Whole classes -/

theorem toBytes_eq_ok_iff {c : ClassFile} {bytes : List UInt8} :
    c.toBytes = .ok bytes ↔
      ∃ pool tail, c.pool.encode = .ok pool ∧ c.HasTail tail ∧
        bytes = (u32Bytes magic ++ (u16Bytes c.minorVersion ++ u16Bytes c.majorVersion)) ++
          (pool ++ tail) := by
  rw [toBytes, bind_ok_iff]
  constructor
  · rintro ⟨pool, hpool, h₁⟩
    obtain ⟨count, e₁, h₂⟩ := bind_ok_iff.1 h₁
    obtain ⟨hlt, rfl⟩ := count16_eq_ok_iff.1 e₁
    obtain ⟨fields, hfields, h₃⟩ := bind_ok_iff.1 h₂
    obtain ⟨methods, hmethods, h₄⟩ := bind_ok_iff.1 h₃
    obtain ⟨attributes, hattributes, h₅⟩ := bind_ok_iff.1 h₄
    obtain rfl := pure_ok_iff.1 h₅
    refine ⟨pool, _, hpool, ⟨fields, methods, attributes, hlt, hfields, hmethods, hattributes, rfl⟩,
      ?_⟩
    simp only [List.append_assoc]
  · rintro ⟨pool, _, hpool, ⟨fields, methods, attributes, hlt, hfields, hmethods, hattributes, rfl⟩,
      rfl⟩
    refine ⟨pool, hpool, bind_ok_iff.2 ⟨_, count16_eq_ok_iff.2 ⟨hlt, rfl⟩, bind_ok_iff.2 ?_⟩⟩
    refine ⟨fields, hfields, bind_ok_iff.2 ⟨methods, hmethods, bind_ok_iff.2 ?_⟩⟩
    refine ⟨attributes, hattributes, pure_ok_iff.2 ?_⟩
    simp only [List.append_assoc]

/-- A class is read, to the end of the input, exactly from what it is written as. -/
theorem read_ok_iff {c : ClassFile} {s t : Input} :
    read s = .ok c t ↔
      c.Sound ∧ t.rest = [] ∧ ∃ bytes, c.toBytes = .ok bytes ∧ s.Advances bytes t := by
  rw [read, bind_run_ok_iff]
  constructor
  · rintro ⟨header, s₁, headerRun, h₁⟩
    split at h₁
    · exact absurd h₁ fail_ne_ok
    · have hheader := readHeader_ok_iff.1 headerRun
      obtain ⟨hversion, h₁⟩ := unless_fail_ok_iff.1 h₁
      rw [not_or, UInt16.not_lt, UInt16.not_lt] at hversion
      obtain ⟨pool, s₂, poolRun, h₂⟩ := bind_run_ok_iff.1 h₁
      obtain ⟨hpool, poolBytes, hpoolBytes, hadvances⟩ := Pool.decode_ok_iff.1 poolRun
      obtain ⟨rfl, rfl, rfl, hlinked, hrest, tail, htail, hadvances'⟩ := linked_of_readTail h₂
      refine ⟨⟨hlinked, hversion, hpool⟩, hrest, _,
        toBytes_eq_ok_iff.2 ⟨poolBytes, tail, hpoolBytes, htail, rfl⟩, ?_⟩
      refine Input.advances_append_iff.2 ⟨s₁, hheader, ?_⟩
      exact Input.advances_append_iff.2 ⟨s₂, hadvances, hadvances'⟩
  · rintro ⟨hc, hrest, bytes, hbytes, hadvances⟩
    obtain ⟨poolBytes, tail, hpool, htail, rfl⟩ := toBytes_eq_ok_iff.1 hbytes
    obtain ⟨s₁, hheader, h₁⟩ := Input.advances_append_iff.1 hadvances
    obtain ⟨s₂, hpoolBytes, htailBytes⟩ := Input.advances_append_iff.1 h₁
    have hversion : ¬(c.majorVersion < oldestMajor ∨ newestMajor < c.majorVersion) := by
      rw [not_or, UInt16.not_lt, UInt16.not_lt]
      exact hc.version
    refine ⟨.ok (c.majorVersion, c.minorVersion), s₁, readHeader_ok_iff.2 hheader, ?_⟩
    refine unless_fail_ok_iff.2 ⟨hversion, ?_⟩
    refine bind_run_ok_iff.2 ⟨c.pool, s₂, Pool.decode_ok_iff.2 ⟨hc.pool, _, hpool, hpoolBytes⟩, ?_⟩
    exact readTail_of_hasTail hc.toLinked hrest htail htailBytes

/-- What is accepted as a class file is what a sound class is written as. -/
theorem parse_ok_iff {c : ClassFile} {bytes : List UInt8} :
    parse bytes = .ok c ↔ c.Sound ∧ c.toBytes = .ok bytes := by
  rw [parse, onBytes_ok_iff]
  constructor
  · rintro ⟨t, ht⟩
    obtain ⟨hc, hrest, written, hwritten, hadvances⟩ := read_ok_iff.1 ht
    obtain rfl := hadvances.eq_of_rest_eq_nil hrest
    exact ⟨hc, hwritten⟩
  · rintro ⟨hc, hbytes⟩
    exact ⟨_, read_ok_iff.2 ⟨hc, rfl, bytes, hbytes, Input.advances_all bytes 0⟩⟩

/-- A class that is not changed is written byte for byte as it was read. -/
theorem toBytes_of_parse {c : ClassFile} {bytes : List UInt8} (h : parse bytes = .ok c) :
    c.toBytes = .ok bytes :=
  (parse_ok_iff.1 h).2

/-- A class file with a two-slot constant, an entry that occurs twice, text in more bytes than it
needs, and access flags without a meaning. -/
def oddBytes : List UInt8 :=
  [0xCA, 0xFE, 0xBA, 0xBE, 0, 0, 0, 52, 0, 7, 1, 0, 1, 65, 7, 0, 1, 5, 0, 0, 0, 0, 0, 0, 0, 1, 1,
    0, 1, 65, 1, 0, 2, 0xC1, 0x81, 0xFF, 0xFF, 0, 2, 0, 0, 0, 0, 0, 0, 0, 0, 0, 1, 0, 6, 0, 0, 0,
    2, 9, 9]

theorem exists_parse_oddBytes : ∃ c, parse oddBytes = .ok c ∧ c.toBytes = .ok oddBytes := by
  cases h : parse oddBytes with
  | ok c => exact ⟨c, rfl, toBytes_of_parse h⟩
  | error e =>
    have hok : (parse oddBytes).isOk = true := by decide +kernel
    rw [h] at hok
    exact absurd hok Bool.false_ne_true

end ClassFile

end PatternGuard
