import PatternGuard.Pool.Constant
import PatternGuard.Proofs.Bytes.Reader

/-!
# Reading and writing constants

Each kind of constant has one encoding. Reading an entry of a constant pool delivers exactly the
constants that a class file can hold, each from its encoding (`Constant.exact_decode`): there is no
byte string that is read as a constant with a different encoding, and no encoding that is refused.
-/

set_option autoImplicit false

namespace PatternGuard.Constant

open Bytes Outcome Text Reader

/-- A class file can hold the constant: it is no placeholder, and a text is short enough for its
length field and can be decoded. -/
def Readable : Constant → Prop
  | unusable => False
  | utf8 bytes => bytes.length < 65536 ∧ ∃ text, ModifiedUtf8.decode bytes = .ok text
  | _ => True

/-! ## The parts of an entry -/

section Parts

variable {s t : Input} {c : Constant}

/-- An entry with one part is read where the part is. -/
theorem return_ok_iff {α : Type} {p : Reader α} {encode : α → List UInt8}
    (hp : ∀ {s t : Input} {x : α}, p s = .ok x t ↔ s.Advances (encode x) t) {entry : α → Constant} :
    (do return entry (← p) : Reader Constant) s = .ok c t ↔
      ∃ x, entry x = c ∧ s.Advances (encode x) t := by
  rw [bind_run_ok_iff]
  constructor
  · rintro ⟨x, u, hx, h⟩
    obtain ⟨rfl, rfl⟩ := pure_run_ok_iff.1 h
    exact ⟨x, rfl, hp.1 hx⟩
  · rintro ⟨x, rfl, hx⟩
    exact ⟨x, t, hp.2 hx, rfl⟩

theorem return_u16_ok_iff {entry : UInt16 → Constant} :
    (do return entry (← u16 context) : Reader Constant) s = .ok c t ↔
      ∃ i, entry i = c ∧ s.Advances (u16Bytes i) t :=
  return_ok_iff u16_ok_iff

theorem decodePair_ok_iff {entry : UInt16 → UInt16 → Constant} :
    decodePair entry s = .ok c t ↔
      ∃ i j, entry i j = c ∧ s.Advances (u16Bytes i ++ u16Bytes j) t := by
  rw [decodePair, bind_run_ok_iff]
  constructor
  · rintro ⟨i, u, hi, h⟩
    obtain ⟨j, rfl, hj⟩ := return_u16_ok_iff.1 h
    exact ⟨i, j, rfl, Input.advances_append_iff.2 ⟨u, u16_ok_iff.1 hi, hj⟩⟩
  · rintro ⟨i, j, rfl, hij⟩
    obtain ⟨u, hi, hj⟩ := Input.advances_append_iff.1 hij
    exact ⟨i, u, u16_ok_iff.2 hi, return_u16_ok_iff.2 ⟨j, rfl, hj⟩⟩

theorem decodeUtf8_ok_iff :
    decodeUtf8 s = .ok c t ↔
      ∃ bytes, utf8 bytes = c ∧ (utf8 bytes).Readable ∧
        s.Advances (toBytes 2 bytes.length ++ bytes) t := by
  rw [decodeUtf8, bind_run_ok_iff]
  constructor
  · rintro ⟨n, u, hn, hbody⟩
    obtain ⟨bytes, v, hbytes, hcheck⟩ := bind_run_ok_iff.1 hbody
    obtain ⟨rfl, hadvances⟩ := take_ok_iff.1 hbytes
    obtain ⟨hlt, hlength⟩ := count16_ok_iff.1 hn
    cases hdecode : ModifiedUtf8.decode bytes with
    | error e =>
      rw [hdecode] at hcheck
      exact absurd hcheck fail_ne_ok
    | ok text =>
      rw [hdecode] at hcheck
      obtain ⟨rfl, rfl⟩ := pure_run_ok_iff.1 hcheck
      exact ⟨bytes, rfl, ⟨hlt, text, hdecode⟩,
        Input.advances_append_iff.2 ⟨u, hlength, hadvances⟩⟩
  · rintro ⟨bytes, rfl, ⟨hlt, text, hdecode⟩, hadvances⟩
    obtain ⟨u, hlength, hbytes⟩ := Input.advances_append_iff.1 hadvances
    refine ⟨bytes.length, u, count16_ok_iff.2 ⟨hlt, hlength⟩, bind_run_ok_iff.2 ?_⟩
    refine ⟨bytes, t, take_ok_iff.2 ⟨rfl, hbytes⟩, ?_⟩
    rw [hdecode]
    rfl

theorem decodeBits64_ok_iff {w : UInt64} :
    decodeBits64 s = .ok w t ↔ s.Advances (u64Bytes w) t := by
  have hsplit : u64Bytes w = toBytes 4 (w.toNat / 4294967296) ++ toBytes 4 (w.toNat % 4294967296) :=
    (toBytes_add 4 4 w.toNat).trans (congrArg _ (toBytes_mod 4 w.toNat).symm)
  have hw := w.toNat_lt
  rw [decodeBits64, bind_run_ok_iff, hsplit, Input.advances_append_iff]
  constructor
  · rintro ⟨high, u, hhigh, hrest⟩
    obtain ⟨low, v, hlow, hpure⟩ := bind_run_ok_iff.1 hrest
    obtain ⟨rfl, rfl⟩ := pure_run_ok_iff.1 hpure
    obtain ⟨hhighlt, hhigh⟩ := number_ok_iff.1 hhigh
    obtain ⟨hlowlt, hlow⟩ := number_ok_iff.1 hlow
    have hvalue : (UInt64.ofNat (high * 4294967296 + low)).toNat = high * 4294967296 + low :=
      UInt64.toNat_ofNat_of_lt' (show _ < 18446744073709551616 by omega)
    rw [hvalue]
    refine ⟨u, ?_, ?_⟩
    · have h : (high * 4294967296 + low) / 4294967296 = high := by omega
      rwa [h]
    · have h : (high * 4294967296 + low) % 4294967296 = low := by omega
      rwa [h]
  · rintro ⟨u, hhigh, hlow⟩
    refine ⟨_, u, number_ok_iff.2 ⟨by omega, hhigh⟩, bind_run_ok_iff.2 ?_⟩
    refine ⟨_, t, number_ok_iff.2 ⟨by omega, hlow⟩, pure_run_ok_iff.2 ⟨?_, rfl⟩⟩
    rw [Nat.mul_comm, Nat.div_add_mod]
    exact UInt64.ofNat_toNat

end Parts

/-! ## Whole entries -/

/-- What is read after a tag is the payload of a constant with that tag. -/
theorem readable_of_decode {index : UInt16} {s t : Input} {c : Constant}
    (h : decode index s = .ok c t) : c.Readable ∧ s.Advances c.encode t := by
  obtain ⟨tag, u, htag, hbody⟩ := bind_run_ok_iff.1 h
  have hfront := u8_ok_iff.1 htag
  -- every branch delivers a constant with the tag that was read, in front of its payload
  have key : ∀ {c : Constant}, c.tag = some tag → c.Readable → u.Advances c.payload t →
      c.Readable ∧ s.Advances c.encode t := by
    intro c hc hreadable hpayload
    rw [encode, hc]
    exact ⟨hreadable, Input.advances_cons_iff.2 ⟨u, hfront, hpayload⟩⟩
  split at hbody
  · obtain ⟨bytes, rfl, hreadable, hpayload⟩ := decodeUtf8_ok_iff.1 hbody
    exact key rfl hreadable hpayload
  · obtain ⟨v, rfl, hv⟩ := (return_ok_iff i32_ok_iff).1 hbody
    exact key rfl trivial hv
  · obtain ⟨v, rfl, hv⟩ := (return_ok_iff u32_ok_iff).1 hbody
    exact key rfl trivial hv
  · obtain ⟨v, rfl, hv⟩ := (return_ok_iff decodeBits64_ok_iff).1 hbody
    exact key rfl trivial hv
  · obtain ⟨v, rfl, hv⟩ := (return_ok_iff decodeBits64_ok_iff).1 hbody
    exact key rfl trivial hv
  · obtain ⟨i, rfl, hi⟩ := return_u16_ok_iff.1 hbody
    exact key rfl trivial hi
  · obtain ⟨i, rfl, hi⟩ := return_u16_ok_iff.1 hbody
    exact key rfl trivial hi
  · obtain ⟨i, j, rfl, hij⟩ := decodePair_ok_iff.1 hbody
    exact key rfl trivial hij
  · obtain ⟨i, j, rfl, hij⟩ := decodePair_ok_iff.1 hbody
    exact key rfl trivial hij
  · obtain ⟨i, j, rfl, hij⟩ := decodePair_ok_iff.1 hbody
    exact key rfl trivial hij
  · obtain ⟨i, j, rfl, hij⟩ := decodePair_ok_iff.1 hbody
    exact key rfl trivial hij
  · obtain ⟨kind, w, hkind, hrest⟩ := bind_run_ok_iff.1 hbody
    obtain ⟨i, rfl, hi⟩ := return_u16_ok_iff.1 hrest
    exact key rfl trivial (Input.advances_cons_iff.2 ⟨w, u8_ok_iff.1 hkind, hi⟩)
  · obtain ⟨i, rfl, hi⟩ := return_u16_ok_iff.1 hbody
    exact key rfl trivial hi
  · obtain ⟨i, j, rfl, hij⟩ := decodePair_ok_iff.1 hbody
    exact key rfl trivial hij
  · obtain ⟨i, j, rfl, hij⟩ := decodePair_ok_iff.1 hbody
    exact key rfl trivial hij
  · obtain ⟨i, rfl, hi⟩ := return_u16_ok_iff.1 hbody
    exact key rfl trivial hi
  · obtain ⟨i, rfl, hi⟩ := return_u16_ok_iff.1 hbody
    exact key rfl trivial hi
  · exact absurd hbody fail_ne_ok

/-- The encoding of a constant is read back. -/
theorem decode_of_readable (index : UInt16) {s t : Input} {c : Constant} (hc : c.Readable)
    (h : s.Advances c.encode t) : decode index s = .ok c t := by
  rw [decode, bind_run_ok_iff]
  cases c with
  | unusable => exact absurd hc id
  | utf8 bytes =>
    obtain ⟨u, htag, hpayload⟩ := Input.advances_cons_iff.1 h
    exact ⟨1, u, u8_ok_iff.2 htag, decodeUtf8_ok_iff.2 ⟨bytes, rfl, hc, hpayload⟩⟩
  | integer value =>
    obtain ⟨u, htag, hpayload⟩ := Input.advances_cons_iff.1 h
    exact ⟨3, u, u8_ok_iff.2 htag, bind_run_ok_iff.2 ⟨value, t, i32_ok_iff.2 hpayload, rfl⟩⟩
  | float bits =>
    obtain ⟨u, htag, hpayload⟩ := Input.advances_cons_iff.1 h
    exact ⟨4, u, u8_ok_iff.2 htag, bind_run_ok_iff.2 ⟨bits, t, u32_ok_iff.2 hpayload, rfl⟩⟩
  | long value =>
    obtain ⟨u, htag, hpayload⟩ := Input.advances_cons_iff.1 h
    exact ⟨5, u, u8_ok_iff.2 htag,
      bind_run_ok_iff.2 ⟨value.toUInt64, t, decodeBits64_ok_iff.2 hpayload, rfl⟩⟩
  | double bits =>
    obtain ⟨u, htag, hpayload⟩ := Input.advances_cons_iff.1 h
    exact ⟨6, u, u8_ok_iff.2 htag,
      bind_run_ok_iff.2 ⟨bits, t, decodeBits64_ok_iff.2 hpayload, rfl⟩⟩
  | classEntry i =>
    obtain ⟨u, htag, hpayload⟩ := Input.advances_cons_iff.1 h
    exact ⟨7, u, u8_ok_iff.2 htag, return_u16_ok_iff.2 ⟨i, rfl, hpayload⟩⟩
  | string i =>
    obtain ⟨u, htag, hpayload⟩ := Input.advances_cons_iff.1 h
    exact ⟨8, u, u8_ok_iff.2 htag, return_u16_ok_iff.2 ⟨i, rfl, hpayload⟩⟩
  | fieldRef i j =>
    obtain ⟨u, htag, hpayload⟩ := Input.advances_cons_iff.1 h
    exact ⟨9, u, u8_ok_iff.2 htag, decodePair_ok_iff.2 ⟨i, j, rfl, hpayload⟩⟩
  | methodRef i j =>
    obtain ⟨u, htag, hpayload⟩ := Input.advances_cons_iff.1 h
    exact ⟨10, u, u8_ok_iff.2 htag, decodePair_ok_iff.2 ⟨i, j, rfl, hpayload⟩⟩
  | interfaceMethodRef i j =>
    obtain ⟨u, htag, hpayload⟩ := Input.advances_cons_iff.1 h
    exact ⟨11, u, u8_ok_iff.2 htag, decodePair_ok_iff.2 ⟨i, j, rfl, hpayload⟩⟩
  | nameAndType i j =>
    obtain ⟨u, htag, hpayload⟩ := Input.advances_cons_iff.1 h
    exact ⟨12, u, u8_ok_iff.2 htag, decodePair_ok_iff.2 ⟨i, j, rfl, hpayload⟩⟩
  | methodHandle kind i =>
    obtain ⟨u, htag, hpayload⟩ := Input.advances_cons_iff.1 h
    obtain ⟨v, hkind, hi⟩ := Input.advances_cons_iff.1 hpayload
    exact ⟨15, u, u8_ok_iff.2 htag,
      bind_run_ok_iff.2 ⟨kind, v, u8_ok_iff.2 hkind, return_u16_ok_iff.2 ⟨i, rfl, hi⟩⟩⟩
  | methodType i =>
    obtain ⟨u, htag, hpayload⟩ := Input.advances_cons_iff.1 h
    exact ⟨16, u, u8_ok_iff.2 htag, return_u16_ok_iff.2 ⟨i, rfl, hpayload⟩⟩
  | dynamic i j =>
    obtain ⟨u, htag, hpayload⟩ := Input.advances_cons_iff.1 h
    exact ⟨17, u, u8_ok_iff.2 htag, decodePair_ok_iff.2 ⟨i, j, rfl, hpayload⟩⟩
  | invokeDynamic i j =>
    obtain ⟨u, htag, hpayload⟩ := Input.advances_cons_iff.1 h
    exact ⟨18, u, u8_ok_iff.2 htag, decodePair_ok_iff.2 ⟨i, j, rfl, hpayload⟩⟩
  | moduleEntry i =>
    obtain ⟨u, htag, hpayload⟩ := Input.advances_cons_iff.1 h
    exact ⟨19, u, u8_ok_iff.2 htag, return_u16_ok_iff.2 ⟨i, rfl, hpayload⟩⟩
  | packageEntry i =>
    obtain ⟨u, htag, hpayload⟩ := Input.advances_cons_iff.1 h
    exact ⟨20, u, u8_ok_iff.2 htag, return_u16_ok_iff.2 ⟨i, rfl, hpayload⟩⟩

theorem exact_decode (index : UInt16) : Exact (decode index) Readable encode :=
  fun _ _ _ => ⟨readable_of_decode, fun h => decode_of_readable index h.1 h.2⟩

end PatternGuard.Constant
