import PatternGuard.Proofs.ClassFile.Attribute
import PatternGuard.Proofs.Code.DebugTables

/-!
# Method bodies and their bytes

Reading and writing undo each other for method bodies and for the two debug tables inside them: one
succeeds with a value exactly where the other gives back the bytes. Bodies without code are written
but not read, and code that is longer than a method may be is neither written nor read, whatever
stands behind its length (`CodeBody.decode_ne_ok_of_length`). All this is `CodeBody.codecs_exact`.
-/

set_option autoImplicit false

namespace PatternGuard.CodeBody

open Bytes Outcome

/-- A body begins with its numbers and the length of its code. -/
theorem exists_eq_append_of_decode {info : List UInt8} {body : CodeBody}
    (h : decode info = .ok body) : ∃ rest, info = u16Bytes body.maxStack ++
      (u16Bytes body.maxLocals ++ (toBytes 4 body.code.length ++ rest)) := by
  obtain ⟨-, -, attributes, -, rfl⟩ := encode_eq_ok_iff.1 (decode_ok_iff.1 h).2
  rw [List.append_assoc (toBytes 4 body.code.length)]
  exact ⟨_, rfl⟩

/-- Where the length of the code is zero or too great, no body is read. -/
theorem decode_ne_ok_of_length {maxStack maxLocals : UInt16} {length : Nat} {rest : List UInt8}
    {body : CodeBody} (hlt : length < 4294967296) (hlength : length = 0 ∨ maxLength < length) :
    decode (u16Bytes maxStack ++ (u16Bytes maxLocals ++ (toBytes 4 length ++ rest))) ≠
      .ok body := by
  intro h
  have hrange := length_code_of_decode h
  obtain ⟨rest', heq⟩ := exists_eq_append_of_decode h
  have hwidth : ∀ {width n m : Nat}, (toBytes width n).length = (toBytes width m).length := by
    intro width n m
    rw [length_toBytes, length_toBytes]
  obtain ⟨-, heq⟩ := List.append_inj heq hwidth
  obtain ⟨-, heq⟩ := List.append_inj heq hwidth
  obtain ⟨hdigits, -⟩ := List.append_inj heq hwidth
  have hcode : body.code.length < 4294967296 := Nat.lt_of_le_of_lt hrange.2 (by decide)
  have hsame : length = body.code.length := toBytes_inj_of_lt hlt hcode hdigits
  omega

/-- Code that is too long is not written. -/
theorem encode_of_length_lt {body : CodeBody} (h : maxLength < body.code.length) :
    body.encode = .error (.codeTooLarge body.code.length) := by
  simp only [encode, h, ↓reduceIte]
  rfl

/-- Method bodies with code, line number tables and local variable tables are read from exactly the
bytes that are written for them. A body is not read where the length of its code is zero or above
65535, and not written if the code is longer than that. -/
theorem codecs_exact :
    (∀ info body, decode info = .ok body ↔ body.code ≠ [] ∧ body.encode = .ok info) ∧
      (∀ info rows, LineNumber.decodeTable info = .ok rows ↔
        LineNumber.encodeTable rows = .ok info) ∧
      (∀ info rows, LocalVariable.decodeTable info = .ok rows ↔
        LocalVariable.encodeTable rows = .ok info) ∧
      (∀ maxStack maxLocals length rest body, length < 4294967296 →
        (length = 0 ∨ 65535 < length) →
        decode (u16Bytes maxStack ++ (u16Bytes maxLocals ++ (toBytes 4 length ++ rest))) ≠
          .ok body) ∧
      ∀ body : CodeBody, 65535 < body.code.length →
        body.encode = .error (.codeTooLarge body.code.length) := by
  refine ⟨?_, ?_, ?_, ?_, ?_⟩
  · intro info body
    exact decode_ok_iff
  · intro info rows
    exact LineNumber.decodeTable_ok_iff
  · intro info rows
    exact LocalVariable.decodeTable_ok_iff
  · intro maxStack maxLocals length rest body hlt hlength
    exact decode_ne_ok_of_length hlt hlength
  · intro body h
    exact encode_of_length_lt h

/-- Two instructions with a handler and a line number table. -/
def returning : CodeBody :=
  { maxStack := 1, maxLocals := 2, code := [0x2b, 0xb0], handlers := [⟨0, 1, 1, 0⟩],
    attributes := [⟨9, [0, 1, 0, 0, 0, 12]⟩] }

/-- The body is read from what is written for it, and so is the table in it. Without its code it is
written, but not read; a length of code beyond the bytes that follow it is refused as well. -/
theorem exists_encode_returning :
    (∃ info, returning.encode = .ok info ∧ decode info = .ok returning) ∧
      LineNumber.decodeTable [0, 1, 0, 0, 0, 12] = .ok [⟨0, 12⟩] ∧
      (∃ info, { returning with code := [] }.encode = .ok info ∧
        ∀ body, decode info ≠ .ok body) ∧
      ∀ body, decode [0, 1, 0, 2, 0, 1, 0, 0, 0x2b, 0xb0] ≠ .ok body := by
  obtain ⟨hbody, hlines, -, hlength, -⟩ := codecs_exact
  refine ⟨⟨_, rfl, ?_⟩, ?_, ⟨_, rfl, ?_⟩, ?_⟩
  · exact (hbody _ _).2 ⟨by decide, rfl⟩
  · exact (hlines _ _).2 rfl
  · intro body
    exact hlength 1 2 0 _ body (by decide) (Or.inl rfl)
  · intro body
    exact hlength 1 2 65536 [0x2b, 0xb0] body (by decide) (Or.inr (by decide))

end PatternGuard.CodeBody
