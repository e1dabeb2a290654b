import PatternGuard.Proofs.Guard.Refusal
import PatternGuard.Proofs.Guard.Validator
import PatternGuard.Proofs.Pool.Names

/-!
# Well-formed classes

Reading a class looks at its constants and at the names of its members. Descriptors, annotations and
method bodies are decoded later, where they are needed. A class is well formed
(`ClassFile.WellFormed`) if what guarding may look at can be decoded, its offsets are those of
instructions, and it names constants of the right kinds. A well-formed class stays well formed when
its pool grows.
-/

set_option autoImplicit false

namespace PatternGuard

open Outcome

/-! ## Parts that are decoded later -/

/-- The index of the text that a string element names. -/
def ElementValue.textIndex? : ElementValue → Option UInt16
  | .const tag index => if tag = 0x73 then some index else none
  | _ => none

/-- The string elements of the annotation name texts. -/
def Annotation.NamesTexts (a : Annotation) (pool : Pool) : Prop :=
  ∀ p ∈ a.elements, ∀ index ∈ p.value.textIndex?, pool.Names index .utf8

instance (a : Annotation) (pool : Pool) : Decidable (a.NamesTexts pool) :=
  decidable_of_iff ((a.elements.all fun p =>
    p.value.textIndex?.all fun index => decide (pool.Names index .utf8)) = true) (by
      simp [Option.all_eq_true, Annotation.NamesTexts])

/-- The attribute of a method body has a name, and if it is a table that moves with the code it can
be decoded and its frames stand at boundaries. -/
structure Attribute.WellFormed (a : Attribute) (pool : Pool) (boundary : Nat → Prop) : Prop where
  name : pool.Names a.nameIndex .utf8
  lines : a.isNamed pool lineNumbersName = true → ∃ rows, LineNumber.decodeTable a.info = .ok rows
  locals : a.isNamed pool localVariablesName = true ∨
    a.isNamed pool localVariableTypesName = true →
    ∃ rows, LocalVariable.decodeTable a.info = .ok rows
  frames : a.isNamed pool stackMapName = true → ∃ frames, Frame.decodeTable a.info = .ok frames ∧
    (∀ offset ∈ Frame.offsets frames, boundary offset) ∧
    ∀ f ∈ frames, ∀ offset, .uninitialized offset ∈ f.kind.types → boundary offset.toNat

/-- The body can be decoded, its attributes are well formed, and what stores to a field names a
member. -/
def CodeBody.WellFormed (body : CodeBody) (pool : Pool) : Prop :=
  ∃ is, body.instructions = .ok is ∧
    (∀ i ∈ is, i.opcode = .putfield ∨ i.opcode = .putstatic →
      ∀ index, i.poolIndex? = some index → pool.Names index .memberReference) ∧
    ∀ a ∈ body.attributes, a.WellFormed pool (body.IsBoundary is)

namespace Member

/-- The annotations of the member can be decoded, and their strings are texts. -/
def WellAnnotated (m : Member) (pool : Pool) : Prop :=
  ∃ annotations, m.annotations pool = .ok annotations ∧ ∀ a ∈ annotations, a.NamesTexts pool

instance (m : Member) (pool : Pool) : Decidable (m.WellAnnotated pool) :=
  inferInstanceAs (Decidable (∃ annotations, m.annotations pool = .ok annotations ∧
    ∀ a ∈ annotations, a.NamesTexts pool))

/-- The member is a well-formed field. -/
structure IsField (m : Member) (pool : Pool) : Prop where
  named : m.Named pool
  annotated : m.WellAnnotated pool
  type : ∃ descriptor, m.descriptor pool = .ok descriptor ∧
    ∃ type, FieldType.parse descriptor = .ok type

/-- The member is a well-formed method. -/
structure IsMethod (m : Member) (pool : Pool) : Prop where
  named : m.Named pool
  annotated : m.WellAnnotated pool
  type : ∃ descriptor, m.descriptor pool = .ok descriptor ∧
    ∃ type, MethodType.parse descriptor = .ok type ∧
    ∃ parameters, m.parameterAnnotations pool type.parameters.length = .ok parameters ∧
    ∀ annotations ∈ parameters, ∀ a ∈ annotations, a.NamesTexts pool
  body : ∃ body?, m.body? pool = .ok body? ∧ ∀ body ∈ body?, body.WellFormed pool

end Member

/-- What guarding may look at in the fields and methods of the class is well formed. -/
structure ClassFile.WellFormed (c : ClassFile) : Prop where
  fields : ∀ m ∈ c.fields, m.IsField c.pool
  methods : ∀ m ∈ c.methods, m.IsMethod c.pool

/-! ## Pools that grow -/

section Growth

variable {pool pool' : Pool}

theorem Annotation.NamesTexts.of_extends {a : Annotation} (hextends : pool.Extends pool')
    (h : a.NamesTexts pool) : a.NamesTexts pool' :=
  fun p hp index hindex => (h p hp index hindex).of_extends hextends

theorem Pool.Names.isText_eq {index : UInt16} {text : String} (hextends : pool.Extends pool')
    (h : pool.Names index .utf8) : pool'.isText index text = pool.isText index text := by
  obtain ⟨c, hget, hkind⟩ := h
  rw [Pool.isText, Pool.isText, hget, hextends _ _ hget]

theorem Attribute.WellFormed.of_extends {a : Attribute} {boundary : Nat → Prop}
    (hextends : pool.Extends pool') (h : a.WellFormed pool boundary) :
    a.WellFormed pool' boundary := by
  have hnamed : ∀ name, a.isNamed pool' name = a.isNamed pool name :=
    fun name => h.name.isText_eq hextends
  refine ⟨h.name.of_extends hextends, ?_, ?_, ?_⟩
  · rw [hnamed]
    exact h.lines
  · rw [hnamed, hnamed]
    exact h.locals
  · rw [hnamed]
    exact h.frames

theorem CodeBody.WellFormed.of_extends {body : CodeBody} (hextends : pool.Extends pool')
    (h : body.WellFormed pool) : body.WellFormed pool' := by
  obtain ⟨is, his, hstores, hattributes⟩ := h
  refine ⟨is, his, ?_, fun a ha => (hattributes a ha).of_extends hextends⟩
  intro i hi hput index hindex
  exact (hstores i hi hput index hindex).of_extends hextends

namespace Member

variable {m : Member}

theorem Named.attributesNamed_of_extends (hm : m.Named pool) (hextends : pool.Extends pool')
    (name₁ name₂ : String) :
    m.attributesNamed pool' name₁ name₂ = m.attributesNamed pool name₁ name₂ := by
  rw [attributesNamed, attributesNamed]
  refine List.filter_congr fun a ha => ?_
  rw [Attribute.isNamed_of_extends hextends (hm.attributes a ha),
    Attribute.isNamed_of_extends hextends (hm.attributes a ha)]

theorem IsMethod.of_extends (hextends : pool.Extends pool') (h : m.IsMethod pool) :
    m.IsMethod pool' := by
  obtain ⟨annotations, hannotations, htexts⟩ := h.annotated
  obtain ⟨descriptor, hdescriptor, type, htype, parameters, hparameters, hall⟩ := h.type
  obtain ⟨body?, hbody, hbodies⟩ := h.body
  refine ⟨h.named.mono hextends, ⟨annotations, ?_, ?_⟩, ⟨descriptor, ?_, type, htype, parameters,
    ?_, ?_⟩, ⟨body?, ?_, ?_⟩⟩
  · rw [Member.annotations, h.named.attributesNamed_of_extends hextends]
    exact hannotations
  · exact fun a ha => (htexts a ha).of_extends hextends
  · exact hextends.text_eq_ok hdescriptor
  · rw [parameterAnnotations, h.named.attributesNamed_of_extends hextends]
    exact hparameters
  · exact fun annotations hannotations a ha => (hall annotations hannotations a ha).of_extends
      hextends
  · rw [h.named.body?_of_extends hextends]
    exact hbody
  · exact fun body hmem => (hbodies body hmem).of_extends hextends

end Member

end Growth

end PatternGuard
