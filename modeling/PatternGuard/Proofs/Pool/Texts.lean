import PatternGuard.Proofs.Pool.Names
import PatternGuard.Proofs.Pool.Reached
import PatternGuard.Proofs.Text.Recoding

/-!
# Entries and their texts

A text is read back from the entry that is written for it, and a text that is read from an entry
can be given an entry again, for it takes no more bytes than the entry has (`texts_faithful`). Not
every entry is the one that is written for its text. Such an entry is looked up as the text, but it
is not equal to the text when the two are compared: look-up and comparison agree exactly at the
entries that hold each code unit in its shortest form and no surrogate out of a pair
(`isText_iff_text_iff`).
-/

set_option autoImplicit false

namespace PatternGuard.Pool

open Outcome Text

variable {pool : Pool} {index : UInt16}

/-! ## Texts that are written again -/

/-- The entry of a text that is found in a pool may be put into a pool. -/
theorem Reached.refusal_ofText {text : String} (hpool : pool.Reached)
    (h : pool.text index = .ok text) : (Constant.ofText text).refusal = none := by
  obtain ⟨bytes, hget, hdecode⟩ := text_eq_ok_iff.1 h
  have hbytes := Constant.refusal_utf8_eq_none_iff.1 (hpool.refusal_of_get? hget)
  have hlength := ModifiedUtf8.length_encode_le hdecode
  exact Constant.refusal_utf8_eq_none_iff.2 (Nat.le_trans hlength hbytes)

/-- A text is read back from its encoding, in which no byte is zero or above EF. A text that was
read from any bytes is read again from its own encoding, which is not longer. So no text that stands
in a pool is too long to be interned. -/
theorem texts_faithful :
    (∀ text, ModifiedUtf8.decode (ModifiedUtf8.encode text) = .ok text ∧
      ∀ b ∈ ModifiedUtf8.encode text, b ≠ 0 ∧ b ≤ 0xEF) ∧
      (∀ bytes text, ModifiedUtf8.decode bytes = .ok text →
        ModifiedUtf8.decode (ModifiedUtf8.encode text) = .ok text ∧
          (ModifiedUtf8.encode text).length ≤ bytes.length) ∧
      ∀ pool index text, Reached pool → pool.text index = .ok text →
        (Constant.ofText text).refusal = none := by
  refine ⟨?_, ?_, ?_⟩
  · intro text
    exact ⟨ModifiedUtf8.decode_encode text, fun b => ModifiedUtf8.mem_encode_bounds⟩
  · intro bytes text h
    exact ⟨ModifiedUtf8.decode_encode text, ModifiedUtf8.length_encode_le h⟩
  · intro pool index text hpool h
    exact hpool.refusal_ofText h

/-- A pool with a text in its shortest form, the same text in two bytes, and a surrogate without its
partner. -/
def respelled : Pool :=
  ofList [.utf8 [0x41], .classEntry 1, .utf8 [0xC1, 0x81], .utf8 [0xED, 0xA0, 0x80]]

theorem writable_respelled : respelled.Writable := by
  have hreadable : ∀ c ∈ [Constant.utf8 [0x41], .classEntry 1, .utf8 [0xC1, 0x81],
      .utf8 [0xED, 0xA0, 0x80]], c.Readable := by
    simp only [List.forall_mem_cons, Constant.Readable]
    exact ⟨⟨by decide, "A", by decide +kernel⟩, trivial, ⟨by decide, "A", by decide +kernel⟩,
      ⟨by decide, "\ufffd", by decide +kernel⟩, by simp⟩
  exact ⟨⟨⟨_, hreadable, rfl⟩, by decide +kernel⟩, by decide⟩

/-- NUL in three bytes, a pair of surrogates in the wrong order and a letter in two bytes: the text
takes nine bytes of eleven. -/
theorem exists_faithful_respelled :
    ModifiedUtf8.decode [0xE0, 0x80, 0x80, 0xED, 0xB0, 0x80, 0xED, 0xA0, 0x80, 0xC1, 0x81] =
        .ok "\x00\ufffd\ufffdA" ∧
      (ModifiedUtf8.encode "\x00\ufffd\ufffdA").length ≤ 11 ∧
      ModifiedUtf8.decode (ModifiedUtf8.encode "\x00\ufffd\ufffdA") = .ok "\x00\ufffd\ufffdA" ∧
      Reached respelled ∧ respelled.text 3 = .ok "A" ∧
      (Constant.ofText "A").refusal = none := by
  have hdecode :
      ModifiedUtf8.decode [0xE0, 0x80, 0x80, 0xED, 0xB0, 0x80, 0xED, 0xA0, 0x80, 0xC1, 0x81] =
        .ok "\x00\ufffd\ufffdA" := by
    decide +kernel
  have htext : respelled.text 3 = .ok "A" := by decide +kernel
  obtain ⟨-, hrecoded, hpool⟩ := texts_faithful
  obtain ⟨hagain, hlength⟩ := hrecoded _ _ hdecode
  have hreached := writable_respelled.reached
  exact ⟨hdecode, hlength, hagain, hreached, htext, hpool _ _ _ hreached htext⟩

/-! ## Texts that are compared -/

/-- What equals a text is looked up as this text. -/
theorem text_of_isText {text : String} (h : pool.isText index text = true) :
    pool.text index = .ok text :=
  text_eq_ok_iff.2 ⟨_, isText_eq_true_iff.1 h, ModifiedUtf8.decode_encode text⟩

/-- The text of an entry equals the entry exactly if each code unit has its shortest form there and
every surrogate stands in a pair. -/
theorem isText_iff_of_decode {bytes : List UInt8} {text : String}
    (hget : pool.get? index = some (.utf8 bytes)) (hdecode : ModifiedUtf8.decode bytes = .ok text) :
    pool.isText index text = true ↔
      ∃ us, Paired us ∧ bytes = us.flatMap ModifiedUtf8.encodeUnit := by
  rw [isText_eq_true_iff, hget, Option.some.injEq, Constant.ofText, Constant.utf8.injEq, eq_comm]
  exact ModifiedUtf8.encode_eq_iff hdecode

/-- In a pool that was read, an entry that equals a text is looked up as this text. The converse
holds at an index exactly if the entry there, in case it is one of text, has the bytes that are
written for its text: the shortest form of each code unit, and no surrogate out of a pair. -/
theorem isText_iff_text_iff {s t : Input} (h : decode s = .ok pool t) (index : UInt16) :
    (∀ text, pool.isText index text = true → pool.text index = .ok text) ∧
      ((∀ text, pool.isText index text = true ↔ pool.text index = .ok text) ↔
        ∀ bytes, pool.get? index = some (.utf8 bytes) →
          ∃ us, Paired us ∧ bytes = us.flatMap ModifiedUtf8.encodeUnit) := by
  refine ⟨fun text => text_of_isText, ?_⟩
  constructor
  · intro hagree bytes hget
    -- whatever was read can be decoded, and is looked up as its text
    have hsound := (decode_ok_iff.1 h).1
    obtain ⟨⟨-, text, hdecode⟩, -⟩ := hsound.of_get? hget
    have htext := text_eq_ok_iff.2 ⟨bytes, hget, hdecode⟩
    exact (isText_iff_of_decode hget hdecode).1 ((hagree text).2 htext)
  · intro hshortest text
    refine ⟨text_of_isText, ?_⟩
    intro htext
    obtain ⟨bytes, hget, hdecode⟩ := text_eq_ok_iff.1 htext
    exact (isText_iff_of_decode hget hdecode).2 (hshortest bytes hget)

/-- Three entries are looked up as texts, but the letter in two bytes and the surrogate do not equal
the texts that they are looked up as. -/
theorem exists_respelled_text :
    ∃ s t, decode s = .ok respelled t ∧
      (∀ text, respelled.isText 1 text = true ↔ respelled.text 1 = .ok text) ∧
      respelled.text 3 = .ok "A" ∧ respelled.isText 3 "A" = false ∧
      respelled.text 4 = .ok "\ufffd" ∧ respelled.isText 4 "\ufffd" = false ∧
      ¬∃ us, Paired us ∧ [0xC1, 0x81] = us.flatMap ModifiedUtf8.encodeUnit := by
  obtain ⟨s, t, h⟩ := writable_respelled.exists_decode
  have htext : respelled.text 3 = .ok "A" := by decide +kernel
  have hnot : respelled.isText 3 "A" = false := by decide +kernel
  refine ⟨s, t, h, ?_, htext, hnot, by decide +kernel, by decide +kernel, ?_⟩
  · rw [(isText_iff_text_iff h 1).2]
    intro bytes hget
    have hbytes : respelled.get? 1 = some (.utf8 [0x41]) := by decide +kernel
    obtain rfl := Constant.utf8.inj (Option.some.inj (hbytes.symm.trans hget))
    exact ⟨[0x41], .single (by decide) (by decide) .nil, by decide⟩
  · intro hshortest
    have hbytes : respelled.get? 3 = some (.utf8 [0xC1, 0x81]) := by decide +kernel
    have hagree := (isText_iff_text_iff h 3).2.2 (by
      intro bytes hget
      obtain rfl := Constant.utf8.inj (Option.some.inj (hbytes.symm.trans hget))
      exact hshortest)
    exact Bool.false_ne_true (hnot.symm.trans ((hagree "A").2 htext))

end PatternGuard.Pool
