import PatternGuard.Annotation
import PatternGuard.Proofs.Descriptor
import PatternGuard.Proofs.Pool.Texts
import PatternGuard.Settings.Basic

/-!
# Valid settings name one marker

No character that separates names or delimits descriptors is a letter or a digit of Unicode
(`Alphabet.excludes_unicode`), and whatever the letters and digits are, this is all that counts: the
descriptor of a valid marker name is read back as the class of that name, the name is told by the
slashes for its dots, and annotations of one class are not taken for those of another
(`Settings.marker_unambiguous`).
-/

set_option autoImplicit false

namespace PatternGuard

open Outcome Text

/-! ## Characters of names -/

/-- The characters between the parts of names, and those that descriptors put around names. -/
def separators : List Char := ['.', '/', ';', '[']

namespace Alphabet

/-- No separator is a letter or a digit. -/
def ExcludesSeparators (alphabet : Alphabet) : Prop :=
  ∀ c ∈ separators, alphabet.alphabetic c = false ∧ alphabet.alphanumeric c = false

theorem excludes_unicode : unicode.ExcludesSeparators := by
  simp [ExcludesSeparators, separators, unicode, isAlphanumeric, isAlphabetic, isNumeric]

/-- No separator stands in an identifier. -/
theorem ExcludesSeparators.not_isIdentifier {alphabet : Alphabet}
    (h : alphabet.ExcludesSeparators) {c : Char} (hc : c ∈ separators) :
    alphabet.isIdentifierStart c = false ∧ alphabet.isIdentifierPart c = false := by
  have hmark : c ≠ '_' ∧ c ≠ '$' := by
    constructor <;> (rintro rfl; exact absurd hc (by decide))
  obtain ⟨halphabetic, halphanumeric⟩ := h c hc
  simp [isIdentifierStart, isIdentifierPart, halphabetic, halphanumeric, hmark]

/-- Dotted names consist of identifier characters and dots. -/
theorem isIdentifier_of_mem_isNameRest {alphabet : Alphabet} {fresh : Bool} {cs : List Char}
    {c : Char} (h : alphabet.isNameRest fresh cs = true) (hc : c ∈ cs) :
    c = '.' ∨ alphabet.isIdentifierStart c = true ∨ alphabet.isIdentifierPart c = true := by
  induction cs generalizing fresh with
  | nil => exact absurd hc List.not_mem_nil
  | cons d cs ih =>
    rw [isNameRest] at h
    by_cases hdot : d = '.'
    · rw [if_pos hdot, Bool.and_eq_true] at h
      rcases List.mem_cons.1 hc with rfl | hc
      · exact Or.inl hdot
      · exact ih h.2 hc
    · rw [if_neg hdot, Bool.and_eq_true] at h
      rcases List.mem_cons.1 hc with rfl | hc
      · right
        cases fresh with
        | true => exact Or.inl h.1
        | false => exact Or.inr h.1
      · exact ih h.2 hc

end Alphabet

section DottedNames

variable {alphabet : Alphabet} {name : String}

/-- No separator but the dot stands in a dotted name. -/
theorem not_mem_of_isDottedName (halphabet : alphabet.ExcludesSeparators)
    (h : alphabet.isDottedName name = true) {c : Char} (hc : c ∈ separators) (hdot : c ≠ '.') :
    c ∉ name.toList := by
  intro hmem
  obtain ⟨hstart, hpart⟩ := halphabet.not_isIdentifier hc
  rcases Alphabet.isIdentifier_of_mem_isNameRest h hmem with rfl | hmem | hmem
  · exact hdot rfl
  · exact Bool.false_ne_true (hstart.symm.trans hmem)
  · exact Bool.false_ne_true (hpart.symm.trans hmem)

theorem ne_empty_of_isDottedName (h : alphabet.isDottedName name = true) : name ≠ "" := by
  rintro rfl
  exact Bool.false_ne_true h

/-- Slashes in place of dots can be undone where there was no slash. -/
theorem dotted_slashed (h : '/' ∉ name.toList) : dotted (slashed name) = name := by
  have hchar : ∀ c ∈ name.toList,
      (if (if c = '.' then '/' else c) = '/' then '.' else if c = '.' then '/' else c) = c := by
    intro c hc
    have hslash : c ≠ '/' := fun heq => h (heq ▸ hc)
    by_cases hdot : c = '.' <;> simp [hdot, hslash]
  rw [dotted, slashed, ← String.toList_inj, String.toList_map, String.toList_map, List.map_map]
  exact (List.map_congr_left hchar).trans (List.map_id' _)

/-- A dotted name makes a class name that can be delimited. -/
theorem delimited_slashed (halphabet : alphabet.ExcludesSeparators)
    (h : alphabet.isDottedName name = true) : (FieldType.object (slashed name)).Delimited := by
  have hsemicolon := not_mem_of_isDottedName halphabet h (c := ';') (by decide) (by decide)
  refine ⟨?_, ?_⟩
  · intro hempty
    refine ne_empty_of_isDottedName h ?_
    rw [← String.toList_eq_nil_iff] at hempty ⊢
    simpa [slashed] using hempty
  · rw [slashed, String.toList_map, List.mem_map]
    rintro ⟨c, hc, heq⟩
    by_cases hdot : c = '.'
    · exact absurd heq (by simp [hdot])
    · rw [if_neg hdot] at heq
      exact hsemicolon (heq ▸ hc)

end DottedNames

/-! ## Markers -/

namespace Settings

theorem checkName_ok_iff {valid : Bool} {role : NameRole} {name : String} {r : Unit} :
    checkName valid role name = .ok r ↔ valid = true := by
  cases valid <;> simp [checkName]

section Valid

variable {alphabet : Alphabet}

theorem isDottedName_of_validateIn {s : Settings} (h : s.validateIn alphabet = .ok ⟨⟩) :
    alphabet.isDottedName s.marker = true := by
  obtain ⟨-, h⟩ := (unless_ok_iff fun _ => throw_ne_ok).1 h
  obtain ⟨_, hmarker, -⟩ := bind_ok_iff.1 h
  exact checkName_ok_iff.1 hmarker

/-- The descriptor of a valid marker is read back as the class of its name. -/
theorem parse_markerDescriptor (halphabet : alphabet.ExcludesSeparators) {s : Settings}
    (h : s.validateIn alphabet = .ok ⟨⟩) :
    FieldType.parse s.markerDescriptor = .ok (.object (slashed s.marker)) :=
  FieldType.parse_ok_iff.2 ⟨delimited_slashed halphabet (isDottedName_of_validateIn h), rfl⟩

/-- The names of valid markers are told apart by their descriptors. -/
theorem marker_eq_of_markerDescriptor_eq (halphabet : alphabet.ExcludesSeparators)
    {s s' : Settings} (hs : s.validateIn alphabet = .ok ⟨⟩) (hs' : s'.validateIn alphabet = .ok ⟨⟩)
    (h : s.markerDescriptor = s'.markerDescriptor) : s.marker = s'.marker := by
  have hslash : ∀ s : Settings, s.validateIn alphabet = .ok ⟨⟩ → '/' ∉ s.marker.toList :=
    fun s hs => not_mem_of_isDottedName halphabet (isDottedName_of_validateIn hs) (by decide)
      (by decide)
  have hread := parse_markerDescriptor halphabet hs
  rw [h, parse_markerDescriptor halphabet hs'] at hread
  have hslashed := FieldType.object.inj (Except.ok.inj hread)
  rw [← dotted_slashed (hslash s hs), ← dotted_slashed (hslash s' hs'), hslashed]

/-- No annotation, in whatever pool, is of the types of two valid markers with different names. -/
theorem not_isType_of_marker_ne (halphabet : alphabet.ExcludesSeparators) {s s' : Settings}
    (hs : s.validateIn alphabet = .ok ⟨⟩) (hs' : s'.validateIn alphabet = .ok ⟨⟩)
    (hne : s.marker ≠ s'.marker) (pool : Pool) (a : Annotation) :
    ¬(a.isType pool s.markerDescriptor = true ∧ a.isType pool s'.markerDescriptor = true) := by
  rintro ⟨htype, htype'⟩
  -- the entry for the type of the annotation is the text of one descriptor only
  have htext := Pool.text_of_isText htype
  rw [Pool.text_of_isText htype', Except.ok.injEq] at htext
  exact hne (marker_eq_of_markerDescriptor_eq halphabet hs hs' htext.symm)

end Valid

/-- The descriptor of a valid marker is read back as the class of its name, with slashes for dots;
and no annotation, in whatever pool, is of the types of two valid markers with different names. This
needs nothing of the letters and digits but that no separator is among them, as it is with those of
Unicode. -/
theorem marker_unambiguous :
    (∀ alphabet : Alphabet, alphabet.ExcludesSeparators →
      (∀ s : Settings, s.validateIn alphabet = .ok ⟨⟩ →
        FieldType.parse s.markerDescriptor = .ok (.object (slashed s.marker))) ∧
      ∀ s s' : Settings, s.validateIn alphabet = .ok ⟨⟩ → s'.validateIn alphabet = .ok ⟨⟩ →
        s.marker ≠ s'.marker → ∀ (pool : Pool) (a : Annotation),
          ¬(a.isType pool s.markerDescriptor = true ∧
            a.isType pool s'.markerDescriptor = true)) ∧
    (∀ s : Settings, s.validate = .ok ⟨⟩ →
      FieldType.parse s.markerDescriptor = .ok (.object (slashed s.marker))) ∧
    ∀ s s' : Settings, s.validate = .ok ⟨⟩ → s'.validate = .ok ⟨⟩ → s.marker ≠ s'.marker →
      ∀ (pool : Pool) (a : Annotation),
        ¬(a.isType pool s.markerDescriptor = true ∧ a.isType pool s'.markerDescriptor = true) := by
  refine ⟨fun alphabet halphabet => ⟨?_, ?_⟩, ?_, ?_⟩
  · intro s hs
    exact parse_markerDescriptor halphabet hs
  · intro s s' hs hs' hne pool a
    exact not_isType_of_marker_ne halphabet hs hs' hne pool a
  · intro s hs
    exact parse_markerDescriptor Alphabet.excludes_unicode hs
  · intro s s' hs hs' hne pool a
    exact not_isType_of_marker_ne Alphabet.excludes_unicode hs hs' hne pool a

/-- A marker with a letter outside ASCII. -/
def outerMarker : Settings := { marker := "a.Ω" }

/-- A marker that is nested in the outer one. -/
def innerMarker : Settings := { marker := "a.Ω.Ψ$1" }

/-- A pool with the descriptor of the outer marker. -/
def outerPool : Pool := Pool.ofList [.ofText outerMarker.markerDescriptor]

/-- The name of the outer marker is the beginning of that of the inner one. -/
theorem exists_isType_outerMarker : Alphabet.unicode.ExcludesSeparators ∧
    (outerMarker.validate = .ok ⟨⟩ ∧ innerMarker.validate = .ok ⟨⟩ ∧
      outerMarker.marker ≠ innerMarker.marker) ∧
    FieldType.parse outerMarker.markerDescriptor = .ok (.object "a/Ω") ∧
    FieldType.parse innerMarker.markerDescriptor = .ok (.object "a/Ω/Ψ$1") ∧
    ∃ a : Annotation, a.isType outerPool outerMarker.markerDescriptor = true ∧
      ¬a.isType outerPool innerMarker.markerDescriptor = true := by
  have houter : outerMarker.validate = .ok ⟨⟩ := by decide +kernel
  have hinner : innerMarker.validate = .ok ⟨⟩ := by decide +kernel
  have hne : outerMarker.marker ≠ innerMarker.marker := by decide
  have htype : (⟨1, []⟩ : Annotation).isType outerPool outerMarker.markerDescriptor = true := by
    decide +kernel
  have hname : slashed outerMarker.marker = "a/Ω" := by decide +kernel
  have hname' : slashed innerMarker.marker = "a/Ω/Ψ$1" := by decide +kernel
  rw [← hname, ← hname']
  obtain ⟨hparse, -⟩ := marker_unambiguous.1 .unicode Alphabet.excludes_unicode
  refine ⟨Alphabet.excludes_unicode, ⟨houter, hinner, hne⟩, hparse _ houter, hparse _ hinner,
    ⟨1, []⟩, htype, fun htype' => ?_⟩
  exact marker_unambiguous.2.2 _ _ houter hinner hne _ _ ⟨htype, htype'⟩

end Settings

end PatternGuard
