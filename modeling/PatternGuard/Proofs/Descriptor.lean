import Mathlib.Data.List.TakeWhile
import Mathlib.Data.Set.Function
import PatternGuard.Descriptor
import PatternGuard.Proofs.Outcome

/-!
# The grammar of descriptors

Every type whose class names can be delimited has one descriptor, and what is read from a text is
the type that the text is the descriptor of (`descriptors_exact`). The parameters of a method end at
the first closing bracket, so that no class name among them may hold one; the name of the returned
class may.
-/

set_option autoImplicit false

namespace PatternGuard

open Outcome

/-- A list is cut at the first place where an item stands. -/
theorem cut_iff {α : Type} [DecidableEq α] {item x : α} {l front back : List α} :
    (l.takeWhile (· ≠ item) = front ∧ l.dropWhile (· ≠ item) = x :: back) ↔
      x = item ∧ item ∉ front ∧ l = front ++ item :: back := by
  constructor
  · rintro ⟨rfl, hdrop⟩
    have hne : l.dropWhile (· ≠ item) ≠ [] := by
      rw [hdrop]
      exact List.cons_ne_nil x back
    have hx : x = item := by
      have hhead := List.head_dropWhile_not _ hne
      simpa only [hdrop, List.head_cons, decide_eq_false_iff_not, not_not] using hhead
    have hfree : item ∉ l.takeWhile (· ≠ item) := by
      intro hmem
      simpa using List.mem_takeWhile_imp hmem
    refine ⟨hx, hfree, ?_⟩
    rw [← hx, ← hdrop, hx, List.takeWhile_append_dropWhile]
  · rintro ⟨rfl, hfree, rfl⟩
    have hfront : ∀ y ∈ front, decide (y ≠ x) = true := by
      intro y hy
      rw [decide_eq_true_eq]
      rintro rfl
      exact hfree hy
    rw [List.takeWhile_append_of_pos hfront, List.dropWhile_append_of_pos hfront]
    simp

theorem FieldType.one_le_slots (type : FieldType) : 1 ≤ type.slots := by
  unfold slots
  split <;> decide

/-! ## Primitive types -/

theorem BaseType.ofLetter?_eq_some_iff {c : Char} {type : BaseType} :
    ofLetter? c = some type ↔ type.letter = c := by
  constructor
  · intro h
    simpa using List.find?_some h
  · rintro rfl
    cases type <;> rfl

theorem BaseType.exists_letter_iff {c : Char} :
    (∃ type : BaseType, type.letter = c) ↔ c ∈ "BCDFIJSZ".toList := by
  constructor
  · rintro ⟨type, rfl⟩
    cases type <;> decide
  · intro h
    have hmem : c ∈ BaseType.all.map letter := h
    obtain ⟨type, -, htype⟩ := List.mem_map.1 hmem
    exact ⟨type, htype⟩

/-! ## Types -/

namespace FieldType

/-- The class that the type is about, if it is about one, has a name with the property. -/
def Names (P : String → Prop) : FieldType → Prop
  | base _ => True
  | object name => P name
  | array element => element.Names P

instance decidableNames (P : String → Prop) [DecidablePred P] :
    (type : FieldType) → Decidable (type.Names P)
  | base _ => isTrue trivial
  | object name => inferInstanceAs (Decidable (P name))
  | array element => decidableNames P element

/-- The class name, if there is one, is delimited by the semicolon after it. -/
def Delimited (type : FieldType) : Prop :=
  type.Names fun name => name ≠ "" ∧ ';' ∉ name.toList

instance (type : FieldType) : Decidable type.Delimited := decidableNames _ type

@[simp] theorem toList_descriptor_base (type : BaseType) :
    (base type).descriptor.toList = [type.letter] := by
  simp [descriptor]

@[simp] theorem toList_descriptor_object (name : String) :
    (object name).descriptor.toList = 'L' :: (name.toList ++ [';']) := by
  simp [descriptor]

@[simp] theorem toList_descriptor_array (element : FieldType) :
    (array element).descriptor.toList = '[' :: element.descriptor.toList := by
  simp [descriptor]

theorem parsePrefix_letter (type : BaseType) (rest : List Char) :
    parsePrefix (type.letter :: rest) = some (base type, rest) := by
  cases type <;> rfl

/-- A class name is read up to the first semicolon, and one that is empty is refused. -/
theorem parsePrefix_object_eq_some_iff {text rest : List Char} {type : FieldType} :
    parsePrefix ('L' :: text) = some (type, rest) ↔
      ∃ name, type = object name ∧ type.Delimited ∧ text = name.toList ++ ';' :: rest := by
  rw [parsePrefix]
  constructor
  · intro h
    split at h
    · rename_i c name x back htake hdrop
      obtain ⟨rfl, rfl⟩ := Prod.mk.inj (Option.some.inj h)
      obtain ⟨-, hfree, rfl⟩ := cut_iff.1 ⟨htake, hdrop⟩
      refine ⟨_, rfl, ⟨?_, ?_⟩, ?_⟩
      · simp
      · rwa [String.toList_ofList]
      · rw [String.toList_ofList]
    · exact absurd h (by simp)
  · rintro ⟨name, rfl, ⟨hne, hfree⟩, rfl⟩
    obtain ⟨htake, hdrop⟩ := cut_iff.2 ⟨rfl, hfree, rfl⟩
    rw [htake, hdrop]
    cases hname : name.toList with
    | nil => exact absurd (String.toList_eq_nil_iff.1 hname) hne
    | cons c cs => simp [← hname]

/-- Reading one type consumes exactly its descriptor. -/
theorem parsePrefix_eq_some_iff {text rest : List Char} {type : FieldType} :
    parsePrefix text = some (type, rest) ↔
      type.Delimited ∧ text = type.descriptor.toList ++ rest := by
  constructor
  · intro h
    fun_induction parsePrefix text generalizing type rest with
    | case1 => exact absurd h (by simp)
    | case2 tail ih =>
      obtain ⟨⟨element, back⟩, hback, hsome⟩ := Option.map_eq_some_iff.1 h
      obtain ⟨rfl, rfl⟩ := Prod.mk.inj hsome
      obtain ⟨hdelimited, rfl⟩ := ih hback
      exact ⟨hdelimited, by simp⟩
    | case3 tail c name d back hdrop htake =>
      have hobject : parsePrefix ('L' :: tail) = some (type, rest) := by
        rw [parsePrefix, htake, hdrop]
        exact h
      obtain ⟨name, rfl, hdelimited, rfl⟩ := parsePrefix_object_eq_some_iff.1 hobject
      exact ⟨hdelimited, by simp⟩
    | case4 => exact absurd h (by simp)
    | case5 c tail _ _ =>
      obtain ⟨found, hfound, hsome⟩ := Option.map_eq_some_iff.1 h
      obtain ⟨rfl, rfl⟩ := Prod.mk.inj hsome
      obtain rfl := BaseType.ofLetter?_eq_some_iff.1 hfound
      exact ⟨trivial, by simp⟩
  · rintro ⟨hdelimited, rfl⟩
    induction type with
    | base type => simpa using parsePrefix_letter type rest
    | object name =>
      rw [toList_descriptor_object, List.cons_append, List.append_assoc]
      exact parsePrefix_object_eq_some_iff.2 ⟨name, rfl, hdelimited, rfl⟩
    | array element ih =>
      have helement := ih hdelimited
      simp [parsePrefix, helement]

/-- A whole text is read as the type of which it is the descriptor. -/
theorem parse_ok_iff {text : String} {type : FieldType} :
    parse text = .ok type ↔ type.Delimited ∧ text = type.descriptor := by
  have hwhole : parse text = .ok type ↔ parsePrefix text.toList = some (type, []) := by
    rw [parse]
    split
    · rename_i found hfound
      rw [hfound]
      simp
    · rename_i hnone
      exact iff_of_false (by simp) (hnone type)
  rw [hwhole, parsePrefix_eq_some_iff, List.append_nil, String.toList_inj]

theorem parse_error {text : String} {e : Fault} (h : parse text = .error e) :
    e = .invalidDescriptor text := by
  rw [parse] at h
  split at h
  · exact absurd h (by simp)
  · exact (Except.error.inj h).symm

theorem parseAllAfter_of_prefix {done : List FieldType} {text rest : List Char} {type : FieldType}
    (h : parsePrefix text = some (type, rest)) :
    parseAllAfter done text = parseAllAfter (type :: done) rest := by
  cases text with
  | nil => exact absurd h (by simp [parsePrefix])
  | cons c text =>
    rw [parseAllAfter]
    split
    · rename_i hnone
      exact absurd (hnone.symm.trans h) (by simp)
    · rename_i found back hsome
      obtain ⟨rfl, rfl⟩ := Prod.mk.inj (Option.some.inj (hsome.symm.trans h))
      rfl

/-- Reading types one after the other consumes exactly their descriptors. -/
theorem parseAllAfter_eq_some_iff {done types : List FieldType} {text : List Char} :
    parseAllAfter done text = some types ↔ ∃ later, types = done.reverse ++ later ∧
      (∀ type ∈ later, type.Delimited) ∧
      text = later.flatMap fun type => type.descriptor.toList := by
  constructor
  · intro h
    fun_induction parseAllAfter done text with
    | case1 done =>
      obtain rfl := Option.some.inj h
      exact ⟨[], by simp⟩
    | case2 => exact absurd h (by simp)
    | case3 done c text type rest hprefix _ ih =>
      obtain ⟨later, rfl, hlater, rfl⟩ := ih h
      obtain ⟨hdelimited, htext⟩ := parsePrefix_eq_some_iff.1 hprefix
      refine ⟨type :: later, by simp, List.forall_mem_cons.2 ⟨hdelimited, hlater⟩, ?_⟩
      rw [htext, List.flatMap_cons]
  · rintro ⟨later, rfl, hlater, rfl⟩
    induction later generalizing done with
    | nil => simp [parseAllAfter]
    | cons type later ih =>
      obtain ⟨hdelimited, hlater⟩ := List.forall_mem_cons.1 hlater
      rw [List.flatMap_cons, parseAllAfter_of_prefix (parsePrefix_eq_some_iff.2 ⟨hdelimited, rfl⟩),
        ih hlater, List.reverse_cons, List.append_assoc]
      rfl

theorem parseAll_eq_some_iff {types : List FieldType} {text : List Char} :
    parseAll text = some types ↔ (∀ type ∈ types, type.Delimited) ∧
      text = types.flatMap fun type => type.descriptor.toList := by
  rw [parseAll, parseAllAfter_eq_some_iff]
  simp

/-- A character that is in no letter and at no border stands in a descriptor only as part of a class
name. -/
theorem bracket_not_mem_descriptor_iff {type : FieldType} :
    ')' ∉ type.descriptor.toList ↔ type.Names fun name => ')' ∉ name.toList := by
  induction type with
  | base type => cases type <;> simp [Names, BaseType.letter]
  | object name => simp [Names]
  | array element ih => simpa [Names] using ih

end FieldType

/-! ## Types of methods -/

namespace MethodType

/-- The descriptor of what is returned. -/
def returnDescriptor : Option FieldType → String
  | none => "V"
  | some type => type.descriptor

/-- The descriptor of a method. -/
def descriptor (type : MethodType) : String :=
  "(" ++ String.join (type.parameters.map FieldType.descriptor) ++ ")"
    ++ returnDescriptor type.returns

/-- All class names are delimited, those of parameters also by the bracket after the parameters. -/
structure Delimited (type : MethodType) : Prop where
  parameters : ∀ parameter ∈ type.parameters,
    parameter.Delimited ∧ parameter.Names fun name => ')' ∉ name.toList
  returns : ∀ returned ∈ type.returns, returned.Delimited

theorem toList_descriptor (type : MethodType) : type.descriptor.toList =
    '(' :: (type.parameters.flatMap (fun parameter => parameter.descriptor.toList) ++
      ')' :: (returnDescriptor type.returns).toList) := by
  simp [descriptor, String.toList_join, List.flatMap_map]

theorem parseReturn_void : parseReturn ['V'] = some none := rfl

/-- Any text but that for nothing is read as a single type. -/
theorem parseReturn_of_ne {text : List Char} (h : text ≠ ['V']) {returns : Option FieldType} :
    parseReturn text = some returns ↔
      ∃ type, returns = some type ∧ FieldType.parsePrefix text = some (type, []) := by
  unfold parseReturn
  split
  · exact absurd rfl h
  · split
    · rename_i type htype
      rw [htype]
      simp [eq_comm]
    · rename_i hnone
      exact iff_of_false (by simp) fun ⟨type, _, htype⟩ => hnone type htype

theorem parseReturn_eq_some_iff {text : List Char} {returns : Option FieldType} :
    parseReturn text = some returns ↔ (∀ returned ∈ returns, returned.Delimited) ∧
      text = (returnDescriptor returns).toList := by
  by_cases h : text = ['V']
  · subst h
    rw [parseReturn_void]
    cases returns with
    | none => simp [returnDescriptor]
    | some type =>
      -- no type begins with the letter of nothing
      have hnone : FieldType.parsePrefix ['V'] = none := rfl
      refine iff_of_false (by simp) ?_
      rintro ⟨hdelimited, htext⟩
      have hsome := FieldType.parsePrefix_eq_some_iff.2
        ⟨hdelimited type rfl, htext.trans (List.append_nil _).symm⟩
      exact absurd (hnone.symm.trans hsome) (by simp)
  · rw [parseReturn_of_ne h]
    cases returns with
    | none => simpa [returnDescriptor] using h
    | some type =>
      simp [FieldType.parsePrefix_eq_some_iff, returnDescriptor]

/-- The parameters are what stands before the first closing bracket. -/
theorem parseChars_open_eq_some_iff {text : List Char} {type : MethodType} :
    parseChars ('(' :: text) = some type ↔ ∃ front back, ')' ∉ front ∧
      text = front ++ ')' :: back ∧ FieldType.parseAll front = some type.parameters ∧
      parseReturn back = some type.returns := by
  rw [parseChars]
  constructor
  · intro h
    split at h
    · exact absurd h (by simp)
    · rename_i x back hdrop
      obtain ⟨-, hfree, htext⟩ := cut_iff.1 ⟨rfl, hdrop⟩
      obtain ⟨parameters, hparameters, h₁⟩ := Option.bind_eq_some_iff.1 h
      obtain ⟨returns, hreturns, h₂⟩ := Option.bind_eq_some_iff.1 h₁
      obtain rfl := Option.some.inj h₂
      exact ⟨_, back, hfree, htext, hparameters, hreturns⟩
  · rintro ⟨front, back, hfree, rfl, hparameters, hreturns⟩
    obtain ⟨htake, hdrop⟩ := cut_iff.2 ⟨rfl, hfree, rfl⟩
    rw [htake, hdrop]
    simp [hparameters, hreturns]

theorem parseChars_ne_some {text : List Char} {type : MethodType}
    (h : ∀ rest, text ≠ '(' :: rest) : parseChars text ≠ some type := by
  unfold parseChars
  split
  · exact absurd rfl (h _)
  · simp

/-- A text is read as the type of a method exactly if it is the descriptor of this type. -/
theorem parseChars_eq_some_iff {text : List Char} {type : MethodType} :
    parseChars text = some type ↔ type.Delimited ∧ text = type.descriptor.toList := by
  rw [toList_descriptor]
  constructor
  · intro h
    obtain ⟨rest, rfl⟩ : ∃ rest, text = '(' :: rest := by
      by_contra hnot
      exact parseChars_ne_some (fun rest hrest => hnot ⟨rest, hrest⟩) h
    obtain ⟨front, back, hfree, rfl, hparameters, hreturns⟩ := parseChars_open_eq_some_iff.1 h
    obtain ⟨hdelimited, rfl⟩ := FieldType.parseAll_eq_some_iff.1 hparameters
    obtain ⟨hreturned, rfl⟩ := parseReturn_eq_some_iff.1 hreturns
    refine ⟨⟨fun parameter hmem => ⟨hdelimited parameter hmem, ?_⟩, hreturned⟩, rfl⟩
    rw [← FieldType.bracket_not_mem_descriptor_iff]
    exact fun hbracket => hfree (List.mem_flatMap.2 ⟨parameter, hmem, hbracket⟩)
  · rintro ⟨⟨hparameters, hreturns⟩, rfl⟩
    refine parseChars_open_eq_some_iff.2 ⟨_, _, ?_, rfl, ?_, ?_⟩
    · intro hmem
      obtain ⟨parameter, hparameter, hbracket⟩ := List.mem_flatMap.1 hmem
      exact FieldType.bracket_not_mem_descriptor_iff.2 (hparameters parameter hparameter).2 hbracket
    · exact FieldType.parseAll_eq_some_iff.2 ⟨fun parameter h => (hparameters parameter h).1, rfl⟩
    · exact parseReturn_eq_some_iff.2 ⟨hreturns, rfl⟩

theorem parse_ok_iff {text : String} {type : MethodType} :
    parse text = .ok type ↔ type.Delimited ∧ text = type.descriptor := by
  have hwhole : parse text = .ok type ↔ parseChars text.toList = some type := by
    rw [parse]
    split
    · rename_i found hfound
      simp [hfound]
    · rename_i hnone
      simp [hnone]
  rw [hwhole, parseChars_eq_some_iff, String.toList_inj]

theorem parse_error {text : String} {e : Fault} (h : parse text = .error e) :
    e = .invalidDescriptor text := by
  rw [parse] at h
  split at h
  · exact absurd h (by simp)
  · exact (Except.error.inj h).symm

end MethodType

/-! ## Both grammars -/

/-- A text is read as a type exactly if it is the descriptor of this type, both for fields and for
methods, where the letters of primitive types are `BCDFIJSZ`. No two types have the same descriptor,
and all texts that are no descriptor are refused with a fault that holds the whole text. -/
theorem descriptors_exact (text : String) :
    (∀ c, (∃ type : BaseType, type.letter = c) ↔ c ∈ "BCDFIJSZ".toList) ∧
    ((∀ type, FieldType.parse text = .ok type ↔ type.Delimited ∧ text = type.descriptor) ∧
      {type | FieldType.Delimited type}.InjOn FieldType.descriptor ∧
      ∀ e, FieldType.parse text = .error e ↔ e = .invalidDescriptor text ∧
        ∀ type : FieldType, ¬(type.Delimited ∧ text = type.descriptor)) ∧
    (∀ type, MethodType.parse text = .ok type ↔ type.Delimited ∧ text = type.descriptor) ∧
      {type | MethodType.Delimited type}.InjOn MethodType.descriptor ∧
      ∀ e, MethodType.parse text = .error e ↔ e = .invalidDescriptor text ∧
        ∀ type : MethodType, ¬(type.Delimited ∧ text = type.descriptor) := by
  refine ⟨fun _ => BaseType.exists_letter_iff, ⟨fun _ => FieldType.parse_ok_iff, ?_, fun e => ?_⟩,
    fun _ => MethodType.parse_ok_iff, ?_, fun e => ?_⟩
  · intro type htype type' htype' hsame
    have hparse := FieldType.parse_ok_iff.2 ⟨htype, rfl⟩
    have hparse' := FieldType.parse_ok_iff.2 ⟨htype', hsame⟩
    exact Except.ok.inj (hparse.symm.trans hparse')
  · have hfails : FailsOnly (· = .invalidDescriptor text) (FieldType.parse text) :=
      fun _ => FieldType.parse_error
    simp only [hfails.error_iff, ne_eq, FieldType.parse_ok_iff]
  · intro type htype type' htype' hsame
    have hparse := MethodType.parse_ok_iff.2 ⟨htype, rfl⟩
    have hparse' := MethodType.parse_ok_iff.2 ⟨htype', hsame⟩
    exact Except.ok.inj (hparse.symm.trans hparse')
  · have hfails : FailsOnly (· = .invalidDescriptor text) (MethodType.parse text) :=
      fun _ => MethodType.parse_error
    simp only [hfails.error_iff, ne_eq, MethodType.parse_ok_iff]

/-- An opening bracket may stand in the name of a parameter's class and a closing one in that of the
returned class, but a closing one in the name of a parameter's class ends the parameters. -/
theorem exists_descriptors_withBrackets :
    MethodType.parse "(Lx(;[J)L);" =
      .ok ⟨[.object "x(", .array (.base .long)], some (.object ")")⟩ ∧
    MethodType.parse "(Lx);[J)V" = .error (.invalidDescriptor "(Lx);[J)V") ∧
    ∀ type : MethodType, ¬(type.Delimited ∧ "(Lx);[J)V" = type.descriptor) := by
  obtain ⟨-, -, haccepted, -⟩ := descriptors_exact "(Lx(;[J)L);"
  obtain ⟨-, -, -, -, hrefused⟩ := descriptors_exact "(Lx);[J)V"
  have herror : MethodType.parse "(Lx);[J)V" = .error (.invalidDescriptor "(Lx);[J)V") := by
    decide +kernel
  refine ⟨(haccepted _).2 ⟨⟨by decide, by decide⟩, by decide +kernel⟩, herror, ?_⟩
  exact ((hrefused _).1 herror).2

end PatternGuard
