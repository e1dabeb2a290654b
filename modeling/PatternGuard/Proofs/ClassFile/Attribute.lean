import PatternGuard.ClassFile.Member
import PatternGuard.Proofs.Bytes.Reader

/-!
# Reading and writing attributes, bodies and members

Attributes, method bodies and members are read exactly from what is written for them. Nothing that
is read is put into a different form, so that a body or a member that is not changed is written as
it was read, and one that is changed is read back as it was made.
-/

set_option autoImplicit false

namespace PatternGuard

open Bytes Outcome Reader

/-! ## Attributes -/

namespace Attribute

theorem encode_eq_ok_iff {a : Attribute} {bytes : List UInt8} :
    a.encode = .ok bytes ↔
      a.info.length < 4294967296 ∧
        bytes = u16Bytes a.nameIndex ++ (toBytes 4 a.info.length ++ a.info) := by
  rw [encode, bind_ok_iff]
  constructor
  · rintro ⟨body, hbody, hbytes⟩
    obtain ⟨hlt, rfl⟩ := blob_eq_ok_iff.1 hbody
    exact ⟨hlt, (pure_ok_iff.1 hbytes).symm⟩
  · rintro ⟨hlt, rfl⟩
    exact ⟨_, blob_eq_ok_iff.2 ⟨hlt, rfl⟩, rfl⟩

theorem inverts_decode : Inverts decode (fun _ => True) encode := by
  rintro s ⟨nameIndex, info⟩ t
  rw [decode, bind_run_ok_iff]
  constructor
  · rintro ⟨i, u, hi, hrest⟩
    obtain ⟨body, v, hbody, hpure⟩ := bind_run_ok_iff.1 hrest
    obtain ⟨hvalue, rfl⟩ := pure_run_ok_iff.1 hpure
    obtain ⟨rfl, rfl⟩ := Attribute.mk.inj hvalue
    obtain ⟨hlt, hadvances⟩ := blob_ok_iff.1 hbody
    exact ⟨trivial, _, encode_eq_ok_iff.2 ⟨hlt, rfl⟩,
      Input.advances_append_iff.2 ⟨u, u16_ok_iff.1 hi, hadvances⟩⟩
  · rintro ⟨-, bytes, hbytes, hadvances⟩
    obtain ⟨hlt, rfl⟩ := encode_eq_ok_iff.1 hbytes
    obtain ⟨u, hi, hbody⟩ := Input.advances_append_iff.1 hadvances
    exact ⟨nameIndex, u, u16_ok_iff.2 hi,
      bind_run_ok_iff.2 ⟨info, t, blob_ok_iff.2 ⟨hlt, hbody⟩, rfl⟩⟩

theorem decodeList_ok_iff {attributes : List Attribute} {s t : Input} :
    decodeList s = .ok attributes t ↔
      ∃ bytes, encodeList attributes = .ok bytes ∧ s.Advances bytes t := by
  have h := inverts_decode.counted context "attributes" s attributes t
  constructor
  · intro hread
    exact (h.1 hread).2
  · intro hbytes
    exact h.2 ⟨fun _ _ => trivial, hbytes⟩

end Attribute

/-! ## Method bodies -/

theorem Handler.exact_decode (context : String) :
    Exact (Handler.decode context) (fun _ => True) Handler.encode := by
  rintro s ⟨start, stop, target, catchType⟩ t
  simp only [Handler.decode, Handler.encode, bind_run_ok_iff, pure_run_ok_iff, u16_ok_iff,
    Input.advances_append_iff, Handler.mk.injEq, true_and]
  constructor
  · rintro ⟨_, u, h₁, _, v, h₂, _, w, h₃, _, x, h₄, ⟨rfl, rfl, rfl, rfl⟩, rfl⟩
    exact ⟨w, ⟨v, ⟨u, h₁, h₂⟩, h₃⟩, h₄⟩
  · rintro ⟨w, ⟨v, ⟨u, h₁, h₂⟩, h₃⟩, h₄⟩
    exact ⟨start, u, h₁, stop, v, h₂, target, w, h₃, catchType, t, h₄, ⟨rfl, rfl, rfl, rfl⟩, rfl⟩

namespace CodeBody

theorem encode_eq_ok_iff {body : CodeBody} {bytes : List UInt8} :
    body.encode = .ok bytes ↔
      body.code.length ≤ maxLength ∧ body.handlers.length < 65536 ∧
        ∃ attributes, Attribute.encodeList body.attributes = .ok attributes ∧
          bytes = u16Bytes body.maxStack ++ (u16Bytes body.maxLocals ++
            ((toBytes 4 body.code.length ++ body.code) ++
              ((toBytes 2 body.handlers.length ++ body.handlers.flatMap Handler.encode) ++
                attributes))) := by
  rw [encode, unless_ok_iff fun _ => throw_ne_ok, Nat.not_lt]
  refine and_congr_right fun hle => ?_
  constructor
  · intro h
    obtain ⟨code, hcode, h₁⟩ := bind_ok_iff.1 h
    obtain ⟨count, hcount, h₂⟩ := bind_ok_iff.1 h₁
    obtain ⟨attributes, hattributes, h₃⟩ := bind_ok_iff.1 h₂
    obtain ⟨-, rfl⟩ := blob_eq_ok_iff.1 hcode
    obtain ⟨hlt, rfl⟩ := count16_eq_ok_iff.1 hcount
    obtain rfl := pure_ok_iff.1 h₃
    exact ⟨hlt, attributes, hattributes, by simp⟩
  · rintro ⟨hlt, attributes, hattributes, rfl⟩
    have hblob : body.code.length < 4294967296 := Nat.lt_of_le_of_lt hle (by decide)
    refine bind_ok_iff.2 ⟨_, blob_eq_ok_iff.2 ⟨hblob, rfl⟩, bind_ok_iff.2 ?_⟩
    refine ⟨_, count16_eq_ok_iff.2 ⟨hlt, rfl⟩, bind_ok_iff.2 ⟨attributes, hattributes, ?_⟩⟩
    simp [pure, Except.pure]

/-- A body is read, to the end of the input, exactly from what is written for it; code that is empty
or too long is refused. -/
theorem read_ok_iff {body : CodeBody} {s t : Input} :
    read s = .ok body t ↔
      body.code ≠ [] ∧ t.rest = [] ∧ ∃ bytes, body.encode = .ok bytes ∧ s.Advances bytes t := by
  rw [read, bind_run_ok_iff]
  constructor
  · rintro ⟨maxStack, s₁, hmaxStack, h₁⟩
    obtain ⟨maxLocals, s₂, hmaxLocals, h₂⟩ := bind_run_ok_iff.1 h₁
    obtain ⟨code, s₃, hcode, h₃⟩ := bind_run_ok_iff.1 h₂
    obtain ⟨-, hcode⟩ := blob_ok_iff.1 hcode
    obtain ⟨hlength, h₃⟩ := unless_fail_ok_iff.1 h₃
    rw [not_or, List.length_eq_zero_iff, Nat.not_lt] at hlength
    obtain ⟨count, s₄, hcount, h₄⟩ := bind_run_ok_iff.1 h₃
    obtain ⟨handlers, s₅, hhandlers, h₅⟩ := bind_run_ok_iff.1 h₄
    obtain ⟨attributes, s₆, hattributes, h₆⟩ := bind_run_ok_iff.1 h₅
    obtain ⟨_, s₇, hend, hpure⟩ := bind_run_ok_iff.1 h₆
    obtain ⟨hrest, rfl⟩ := expectEnd_ok_iff.1 hend
    obtain ⟨rfl, rfl⟩ := pure_run_ok_iff.1 hpure
    obtain ⟨rfl, -, hhandlers⟩ := (Handler.exact_decode context).times_ok_iff.1 hhandlers
    obtain ⟨hlt, hcount⟩ := count16_ok_iff.1 hcount
    obtain ⟨bytes, hbytes, hattributes⟩ := Attribute.decodeList_ok_iff.1 hattributes
    refine ⟨hlength.1, hrest, _, encode_eq_ok_iff.2 ⟨hlength.2, hlt, bytes, hbytes, rfl⟩, ?_⟩
    refine Input.advances_append_iff.2 ⟨s₁, u16_ok_iff.1 hmaxStack, ?_⟩
    refine Input.advances_append_iff.2 ⟨s₂, u16_ok_iff.1 hmaxLocals, ?_⟩
    refine Input.advances_append_iff.2 ⟨s₃, hcode, ?_⟩
    exact Input.advances_append_iff.2
      ⟨s₅, Input.advances_append_iff.2 ⟨s₄, hcount, hhandlers⟩, hattributes⟩
  · rintro ⟨hcode, hrest, bytes, hencode, hadvances⟩
    obtain ⟨hle, hlt, attributes, hattributes, rfl⟩ := encode_eq_ok_iff.1 hencode
    obtain ⟨s₁, hmaxStack, h₁⟩ := Input.advances_append_iff.1 hadvances
    obtain ⟨s₂, hmaxLocals, h₂⟩ := Input.advances_append_iff.1 h₁
    obtain ⟨s₃, hblob, h₃⟩ := Input.advances_append_iff.1 h₂
    obtain ⟨s₅, hhandlers, h₅⟩ := Input.advances_append_iff.1 h₃
    obtain ⟨s₄, hcount, hhandlers⟩ := Input.advances_append_iff.1 hhandlers
    have hlength : ¬(body.code.length = 0 ∨ maxLength < body.code.length) := by
      rw [not_or, List.length_eq_zero_iff, Nat.not_lt]
      exact ⟨hcode, hle⟩
    refine ⟨_, s₁, u16_ok_iff.2 hmaxStack, bind_run_ok_iff.2 ?_⟩
    refine ⟨_, s₂, u16_ok_iff.2 hmaxLocals, bind_run_ok_iff.2 ?_⟩
    refine ⟨_, s₃, blob_ok_iff.2 ⟨Nat.lt_of_le_of_lt hle (by decide), hblob⟩, ?_⟩
    refine unless_fail_ok_iff.2 ⟨hlength, ?_⟩
    refine bind_run_ok_iff.2 ⟨_, s₄, count16_ok_iff.2 ⟨hlt, hcount⟩, bind_run_ok_iff.2 ?_⟩
    refine ⟨_, s₅, (Handler.exact_decode context).times_ok_iff.2
      ⟨rfl, fun _ _ => trivial, hhandlers⟩, bind_run_ok_iff.2 ?_⟩
    refine ⟨_, t, Attribute.decodeList_ok_iff.2 ⟨attributes, hattributes, h₅⟩, ?_⟩
    exact bind_run_ok_iff.2 ⟨⟨⟩, t, expectEnd_ok_iff.2 ⟨hrest, rfl⟩, rfl⟩

/-- Decoding and encoding bodies undo each other. -/
theorem decode_ok_iff {body : CodeBody} {info : List UInt8} :
    decode info = .ok body ↔ body.code ≠ [] ∧ body.encode = .ok info := by
  rw [decode, onBytes_ok_iff]
  constructor
  · rintro ⟨t, ht⟩
    obtain ⟨hcode, hrest, bytes, hencode, hadvances⟩ := read_ok_iff.1 ht
    obtain rfl := hadvances.eq_of_rest_eq_nil hrest
    exact ⟨hcode, hencode⟩
  · rintro ⟨hcode, hencode⟩
    exact ⟨_, read_ok_iff.2 ⟨hcode, rfl, info, hencode, Input.advances_all info 0⟩⟩

theorem length_code_of_decode {info : List UInt8} {body : CodeBody} (h : decode info = .ok body) :
    0 < body.code.length ∧ body.code.length ≤ maxLength := by
  obtain ⟨hcode, hencode⟩ := decode_ok_iff.1 h
  exact ⟨List.length_pos_iff.2 hcode, (encode_eq_ok_iff.1 hencode).1⟩

end CodeBody

/-! ## Members -/

namespace Member

theorem encode_eq_ok_iff {m : Member} {bytes : List UInt8} :
    m.encode = .ok bytes ↔
      ∃ attributes, Attribute.encodeList m.attributes = .ok attributes ∧
        bytes = u16Bytes m.access ++ (u16Bytes m.nameIndex ++
          (u16Bytes m.descriptorIndex ++ attributes)) := by
  rw [encode, bind_ok_iff]
  refine exists_congr fun attributes => and_congr_right fun _ => ?_
  rw [pure_ok_iff, List.append_assoc, List.append_assoc]
  exact eq_comm

theorem decode_ok_iff {m : Member} {s t : Input} :
    decode s = .ok m t ↔ ∃ bytes, m.encode = .ok bytes ∧ s.Advances bytes t := by
  rcases m with ⟨access, nameIndex, descriptorIndex, attributes⟩
  rw [decode, bind_run_ok_iff]
  constructor
  · rintro ⟨_, s₁, haccess, h₁⟩
    obtain ⟨_, s₂, hname, h₂⟩ := bind_run_ok_iff.1 h₁
    obtain ⟨_, s₃, hdescriptor, h₃⟩ := bind_run_ok_iff.1 h₂
    obtain ⟨_, s₄, hattributes, hpure⟩ := bind_run_ok_iff.1 h₃
    obtain ⟨hvalue, rfl⟩ := pure_run_ok_iff.1 hpure
    obtain ⟨rfl, rfl, rfl, rfl⟩ := Member.mk.inj hvalue
    obtain ⟨bytes, hbytes, hattributes⟩ := Attribute.decodeList_ok_iff.1 hattributes
    refine ⟨_, encode_eq_ok_iff.2 ⟨bytes, hbytes, rfl⟩, ?_⟩
    refine Input.advances_append_iff.2 ⟨s₁, u16_ok_iff.1 haccess, ?_⟩
    refine Input.advances_append_iff.2 ⟨s₂, u16_ok_iff.1 hname, ?_⟩
    exact Input.advances_append_iff.2 ⟨s₃, u16_ok_iff.1 hdescriptor, hattributes⟩
  · rintro ⟨bytes, hbytes, hadvances⟩
    obtain ⟨attributeBytes, hattributes, rfl⟩ := encode_eq_ok_iff.1 hbytes
    obtain ⟨s₁, haccess, h₁⟩ := Input.advances_append_iff.1 hadvances
    obtain ⟨s₂, hname, h₂⟩ := Input.advances_append_iff.1 h₁
    obtain ⟨s₃, hdescriptor, h₃⟩ := Input.advances_append_iff.1 h₂
    refine ⟨_, s₁, u16_ok_iff.2 haccess, bind_run_ok_iff.2 ?_⟩
    refine ⟨_, s₂, u16_ok_iff.2 hname, bind_run_ok_iff.2 ?_⟩
    refine ⟨_, s₃, u16_ok_iff.2 hdescriptor, bind_run_ok_iff.2 ?_⟩
    exact ⟨_, t, Attribute.decodeList_ok_iff.2 ⟨attributeBytes, hattributes, h₃⟩, rfl⟩

end Member

/-! ## Method bodies -/

namespace Attribute

variable {attributes : List Attribute} {pool : Pool} {name : String} {a : Attribute}

/-- The first attribute of a name stands behind attributes of other names only. -/
theorem findIn?_eq_some_iff : findIn? attributes pool name = some a ↔
    a.isNamed pool name = true ∧ ∃ front back, attributes = front ++ a :: back ∧
      ∀ b ∈ front, b.isNamed pool name = false := by
  rw [findIn?, List.find?_eq_some_iff_append]
  simp

/-- Only the first attribute of the name gets another body. -/
theorem replaceBody_append {front back : List Attribute} {info : List UInt8}
    (hfront : ∀ b ∈ front, b.isNamed pool name = false) (ha : a.isNamed pool name = true) :
    replaceBody (front ++ a :: back) pool name info = front ++ { a with info } :: back := by
  induction front with
  | nil => rw [List.nil_append, replaceBody, List.findIdx_cons, ha, cond_true,
      List.modify_zero_cons, List.nil_append]
  | cons b front ih =>
    obtain ⟨hb, hfront⟩ := List.forall_mem_cons.1 hfront
    rw [List.cons_append, replaceBody, List.findIdx_cons, hb, cond_false, List.modify_succ_cons,
      ← replaceBody, ih hfront, List.cons_append]

/-- An attribute keeps its name when its body is replaced, so that it is found again. -/
theorem findIn?_replaceBody {info : List UInt8} (h : findIn? attributes pool name = some a) :
    findIn? (replaceBody attributes pool name info) pool name = some { a with info } := by
  obtain ⟨ha, front, back, rfl, hfront⟩ := findIn?_eq_some_iff.1 h
  rw [replaceBody_append hfront ha]
  exact findIn?_eq_some_iff.2 ⟨ha, front, back, rfl, hfront⟩

end Attribute

namespace Member

/-- The code of a body that was read is not too long. -/
theorem length_code_le {m : Member} {pool : Pool} {body : CodeBody}
    (h : m.body? pool = .ok (some body)) : body.code.length ≤ CodeBody.maxLength := by
  rw [body?] at h
  split at h
  · exact absurd (Except.ok.inj h) (by simp)
  · obtain ⟨body', hbody, hpure⟩ := bind_ok_iff.1 h
    obtain rfl := Option.some.inj (pure_ok_iff.1 hpure)
    exact (CodeBody.length_code_of_decode hbody).2

/-- The body that a method is given is the body that it has. -/
theorem body?_of_setBody {m m' : Member} {pool : Pool} {body : CodeBody}
    (h : m.setBody pool body = .ok m') (hcode : body.code ≠ []) :
    m'.body? pool = .ok (some body) := by
  obtain ⟨info, hinfo, h₁⟩ := bind_ok_iff.1 h
  split at h₁
  · rename_i hsome
    obtain rfl := pure_ok_iff.1 h₁
    obtain ⟨a, ha⟩ := Option.isSome_iff_exists.1 hsome
    rw [body?, attribute?, Attribute.findIn?_replaceBody ha]
    exact bind_ok_iff.2 ⟨body, CodeBody.decode_ok_iff.2 ⟨hcode, hinfo⟩, rfl⟩
  · exact absurd h₁ throw_ne_ok

end Member

end PatternGuard
