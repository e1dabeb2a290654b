import PatternGuard.Proofs.ClassFile.Attribute
import PatternGuard.Proofs.ClassFile.ParameterAnnotations
import PatternGuard.Proofs.Guard.Plan
import PatternGuard.Proofs.Pool.Interning

/-!
# Which sites a plan has

A plan has one check for each marked parameter and one in front of each instruction that returns a
value of a marked method or stores to a marked field of its own class, each with the pattern of the
marker that it is there for, and it has no other checks (`Plan.ofMethod_sites`). The local variable
that the check of a parameter loads is counted from the sizes of the parameters before it. Of two
marked fields with the same name and descriptor, the last one gives the pattern.
-/

set_option autoImplicit false

namespace PatternGuard

open Outcome Text

/-! ## Loads of local variables -/

/-- The local variable whose reference the instruction pushes, if it does. -/
def Instruction.loadedLocal? (i : Instruction) : Option Nat :=
  match i.opcode, i.operand with
  | .aload_0, .none => some 0
  | .aload_1, .none => some 1
  | .aload_2, .none => some 2
  | .aload_3, .none => some 3
  | .aload, .bytes [slot] => some slot.toNat
  | .wide, .bytes [opcode, high, low] =>
    if opcode = Opcode.aload.byte then some (Bytes.ofBytes [high, low]) else none
  | _, _ => none

theorem Instruction.loadedLocal?_loadLocal (slot : UInt16) :
    (loadLocal slot).loadedLocal? = some slot.toNat := by
  by_cases hshort : slot ≤ 255
  · by_cases hfour : 4 ≤ slot
    · have hbyte : slot.toUInt8.toNat = slot.toNat := by
        have hle : slot.toNat ≤ 255 := UInt16.le_iff_toNat_le.1 hshort
        rw [UInt16.toNat_toUInt8]
        omega
      rw [loadLocal_of_le hfour hshort]
      exact congrArg some hbyte
    · -- the first four variables have opcodes of their own
      have hlt : slot.toNat < 4 := UInt16.lt_iff_toNat_lt.1 (UInt16.not_le.1 hfour)
      obtain hslot | hslot | hslot | hslot : slot.toNat = 0 ∨ slot.toNat = 1 ∨ slot.toNat = 2 ∨
        slot.toNat = 3 := by omega
      all_goals rw [loadLocal, hslot]; rfl
  · have hbytes : Bytes.ofBytes (Bytes.u16Bytes slot) = slot.toNat :=
      Bytes.ofBytes_toBytes_of_lt slot.toNat_lt
    rw [loadLocal_of_lt (UInt16.not_le.1 hshort)]
    exact congrArg some hbytes

namespace MethodType

/-- The number of local variables before the parameter at a position. -/
def slotOf (type : MethodType) (isStatic : Bool) (index : Nat) : Nat :=
  (if isStatic then 0 else 1) + ((type.parameters.take index).map FieldType.slots).sum

theorem slotsAfter_eq (done : List UInt16) (slot : UInt16) (types : List FieldType) :
    slotsAfter done slot types = done.reverse ++ (List.range types.length).map fun i =>
      slot + UInt16.ofNat ((types.take i).map FieldType.slots).sum := by
  induction types generalizing done slot with
  | nil => simp [slotsAfter]
  | cons type rest ih =>
    rw [slotsAfter, ih, List.length_cons, List.range_succ_eq_map]
    simp [UInt16.ofNat_add, UInt16.add_assoc]

/-- Local variables are counted with 16 bits. -/
theorem parameterSlots_eq (type : MethodType) (isStatic : Bool) :
    type.parameterSlots isStatic =
      (List.range type.parameters.length).map fun i => UInt16.ofNat (type.slotOf isStatic i) := by
  rw [parameterSlots, slotsAfter_eq, List.reverse_nil, List.nil_append]
  refine List.map_congr_left fun i _ => ?_
  rw [slotOf, UInt16.ofNat_add]
  cases isStatic <;> rfl

theorem slotOf_mono (type : MethodType) (isStatic : Bool) {i j : Nat} (h : i ≤ j) :
    type.slotOf isStatic i ≤ type.slotOf isStatic j := by
  obtain ⟨k, rfl⟩ := Nat.exists_eq_add_of_le h
  rw [slotOf, slotOf, List.take_add, List.map_append, List.sum_append]
  omega

end MethodType

/-! ## Patterns -/

namespace Plan

/-- Whether one of the annotations is a marker. Types of annotations are compared as bytes, with
those that are written for the name of the marker: another way to write the same text does not
count. How far this is from comparing texts is told by `Pool.isText_iff_text_iff`. -/
def IsMarked (annotations : List Annotation) (pool : Pool) (marker : String) : Prop :=
  ∃ a ∈ annotations, a.isType pool marker = true

/-- The bytes of the text that the first marker names as its pattern. -/
def PatternBytes (annotations : List Annotation) (pool : Pool) (marker : String)
    (bytes : List UInt8) : Prop :=
  ∃ a index, annotations.find? (fun a => a.isType pool marker) = some a ∧
    a.element? pool patternElement = some (.const 0x73 index) ∧
    pool.get? index = some (.utf8 bytes)

/-- The pattern that the first marker gives. -/
def HasPattern (annotations : List Annotation) (pool : Pool) (marker pattern : String) : Prop :=
  ∃ bytes, PatternBytes annotations pool marker bytes ∧ ModifiedUtf8.decode bytes = .ok pattern

section Markers

variable {annotations : List Annotation} {pool : Pool} {marker site : String}

theorem HasPattern.isMarked {pattern : String} (h : HasPattern annotations pool marker pattern) :
    IsMarked annotations pool marker := by
  obtain ⟨bytes, ⟨a, index, hfind, -, -⟩, -⟩ := h
  have htype := List.find?_some (p := fun b : Annotation => b.isType pool marker) hfind
  exact ⟨a, List.mem_of_find?_eq_some hfind, htype⟩

theorem textUnder?_eq_some {a : Annotation} {name text : String}
    (h : a.textUnder? pool name = .ok (some text)) :
    ∃ index bytes, a.element? pool name = some (.const 0x73 index) ∧
      pool.get? index = some (.utf8 bytes) ∧ ModifiedUtf8.decode bytes = .ok text := by
  unfold Annotation.textUnder? at h
  split at h
  · rename_i index helement
    obtain ⟨found, htext, hpure⟩ := bind_ok_iff.1 h
    obtain rfl := Option.some.inj (pure_ok_iff.1 hpure)
    obtain ⟨bytes, hget, hdecode⟩ := Pool.text_eq_ok_iff.1 htext
    exact ⟨index, bytes, helement, hget, hdecode⟩
  · exact absurd (Except.ok.inj h) (by simp)

/-- No pattern is found if there is no marker, -/
theorem patternOfMarker_none (h : patternOfMarker annotations pool marker site = .ok none) :
    ¬ IsMarked annotations pool marker := by
  rw [patternOfMarker] at h
  split at h
  · rename_i hfind
    rintro ⟨a, ha, htype⟩
    exact List.find?_eq_none.1 hfind a ha htype
  · obtain ⟨text, -, hrest⟩ := bind_ok_iff.1 h
    split at hrest
    · exact absurd (pure_ok_iff.1 hrest) (by simp)
    · exact absurd hrest throw_ne_ok

/-- and otherwise it is that of the first marker. -/
theorem patternOfMarker_some {pattern : String}
    (h : patternOfMarker annotations pool marker site = .ok (some pattern)) :
    HasPattern annotations pool marker pattern := by
  rw [patternOfMarker] at h
  split at h
  · exact absurd (Except.ok.inj h) (by simp)
  · rename_i a hfind
    obtain ⟨text, htext, hrest⟩ := bind_ok_iff.1 h
    split at hrest
    · obtain rfl := Option.some.inj (pure_ok_iff.1 hrest)
      obtain ⟨index, bytes, helement, hget, hdecode⟩ :=
        textUnder?_eq_some (GuardError.ofData_ok_iff.1 htext)
      exact ⟨bytes, ⟨a, index, hfind, helement, hget⟩, hdecode⟩
    · exact absurd hrest throw_ne_ok

end Markers

end Plan

/-! ## Marked fields -/

/-- The member has the name, the descriptor and a marker. -/
def Member.MarkedAs (field : Member) (pool : Pool) (marker name descriptor : String) : Prop :=
  field.name pool = .ok name ∧ field.descriptor pool = .ok descriptor ∧
    ∃ annotations, field.annotations pool = .ok annotations ∧
      Plan.IsMarked annotations pool marker

/-- The member has the name and the descriptor, and its first marker gives the pattern. -/
def Member.GivesPattern (field : Member) (pool : Pool) (marker : String) (f : FieldPattern) :
    Prop :=
  field.name pool = .ok f.name ∧ field.descriptor pool = .ok f.descriptor ∧
    ∃ annotations, field.annotations pool = .ok annotations ∧
      Plan.HasPattern annotations pool marker f.pattern

theorem Member.GivesPattern.markedAs {field : Member} {pool : Pool} {marker : String}
    {f : FieldPattern} (h : field.GivesPattern pool marker f) :
    field.MarkedAs pool marker f.name f.descriptor := by
  obtain ⟨hname, hdescriptor, annotations, hannotations, hpattern⟩ := h
  exact ⟨hname, hdescriptor, annotations, hannotations, hpattern.isMarked⟩

/-- The last of the fields that has a marker, the name and the descriptor gives the pattern. -/
def Plan.LastMarked (fields : List Member) (pool : Pool) (marker : String) (f : FieldPattern) :
    Prop :=
  ∃ front field back, fields = front ++ field :: back ∧ field.GivesPattern pool marker f ∧
    ∀ later ∈ back, ¬later.MarkedAs pool marker f.name f.descriptor

namespace Plan

section Fields

variable {className marker : String} {pool : Pool}

/-- A field that is passed over has no marker. -/
theorem ofField_none {field : Member} (h : ofField className marker pool field = .ok none)
    (name descriptor : String) : ¬field.MarkedAs pool marker name descriptor := by
  rintro ⟨-, -, annotations, hannotations, hmarked⟩
  obtain ⟨_, -, h₁⟩ := bind_ok_iff.1 h
  obtain ⟨found, hfound, h₂⟩ := bind_ok_iff.1 h₁
  obtain rfl := Except.ok.inj ((GuardError.ofData_ok_iff.1 hfound).symm.trans hannotations)
  obtain ⟨pattern, hpattern, h₃⟩ := bind_ok_iff.1 h₂
  cases pattern with
  | none => exact patternOfMarker_none hpattern hmarked
  | some pattern =>
    obtain ⟨_, -, h₄⟩ := bind_ok_iff.1 h₃
    obtain ⟨_, -, h₅⟩ := bind_ok_iff.1 h₄
    obtain ⟨_, -, h₆⟩ := bind_ok_iff.1 h₅
    exact absurd (pure_ok_iff.1 h₆) (by simp)

theorem ofField_some {field : Member} {f : FieldPattern}
    (h : ofField className marker pool field = .ok (some f)) :
    field.GivesPattern pool marker f := by
  obtain ⟨name, hname, h₁⟩ := bind_ok_iff.1 h
  obtain ⟨annotations, hannotations, h₂⟩ := bind_ok_iff.1 h₁
  obtain ⟨pattern, hpattern, h₃⟩ := bind_ok_iff.1 h₂
  cases pattern with
  | none => exact absurd (pure_ok_iff.1 h₃) (by simp)
  | some pattern =>
    obtain ⟨descriptor, hdescriptor, h₄⟩ := bind_ok_iff.1 h₃
    obtain ⟨_, -, h₅⟩ := bind_ok_iff.1 h₄
    obtain ⟨_, -, h₆⟩ := bind_ok_iff.1 h₅
    obtain rfl := Option.some.inj (pure_ok_iff.1 h₆)
    exact ⟨GuardError.ofData_ok_iff.1 hname, GuardError.ofData_ok_iff.1 hdescriptor, annotations,
      GuardError.ofData_ok_iff.1 hannotations, patternOfMarker_some hpattern⟩

theorem lookup?_append (fs gs : List FieldPattern) (name descriptor : String) :
    FieldPattern.lookup? (fs ++ gs) name descriptor =
      (FieldPattern.lookup? fs name descriptor).or (FieldPattern.lookup? gs name descriptor) := by
  rw [FieldPattern.lookup?, List.find?_append, Option.map_or]
  rfl

/-- What is looked up in the patterns of fields, from last to first, is that of the last field with
a marker, the name and the descriptor; nothing is found only if there is no such field. -/
theorem lookup?_reverse {fields : List Member} {found : List (Option FieldPattern)}
    (h : List.Forall₂ (fun field o => ofField className marker pool field = .ok o) fields found)
    (name descriptor : String) :
    match FieldPattern.lookup? (found.filterMap id).reverse name descriptor with
    | none => ∀ field ∈ fields, ¬field.MarkedAs pool marker name descriptor
    | some pattern => LastMarked fields pool marker ⟨name, descriptor, pattern⟩ := by
  induction h with
  | nil => exact fun field hfield => absurd hfield List.not_mem_nil
  | @cons field o fields found hfield _ ih =>
    have hreverse : ((o :: found).filterMap id).reverse =
        (found.filterMap id).reverse ++ o.toList := by
      cases o <;> simp
    rw [hreverse, lookup?_append]
    -- the fields after this one count first
    cases hlater : FieldPattern.lookup? (found.filterMap id).reverse name descriptor with
    | some pattern =>
      rw [hlater] at ih
      obtain ⟨front, last, back, rfl, hlast, hback⟩ := ih
      exact ⟨field :: front, last, back, rfl, hlast, hback⟩
    | none =>
      rw [hlater] at ih
      cases o with
      | none => exact List.forall_mem_cons.2 ⟨ofField_none hfield name descriptor, ih⟩
      | some f =>
        have hgives := ofField_some hfield
        by_cases hf : f.name = name ∧ f.descriptor = descriptor
        · obtain ⟨rfl, rfl⟩ := hf
          have hfound : FieldPattern.lookup? [f] f.name f.descriptor = some f.pattern := by
            simp [FieldPattern.lookup?]
          rw [Option.toList_some, hfound, Option.none_or]
          exact ⟨[], field, fields, rfl, hgives, ih⟩
        · have hfound : FieldPattern.lookup? [f] name descriptor = none := by
            simp [FieldPattern.lookup?, hf]
          rw [Option.toList_some, hfound, Option.none_or]
          refine List.forall_mem_cons.2 ⟨?_, ih⟩
          rintro ⟨hname, hdescriptor, -⟩
          exact hf ⟨Except.ok.inj (hgives.1.symm.trans hname),
            Except.ok.inj (hgives.2.1.symm.trans hdescriptor)⟩

end Fields

end Plan

/-! ## Marked parameters -/

/-- What is read off a method to find its sites. -/
structure MethodView (pool : Pool) (method : Member) where
  name : String
  descriptor : String
  type : MethodType
  /-- The annotations of each parameter. -/
  parameters : List (List Annotation)
  /-- The annotations of the method itself. -/
  annotations : List Annotation
  name_eq : method.name pool = .ok name
  descriptor_eq : method.descriptor pool = .ok descriptor
  type_eq : MethodType.parse descriptor = .ok type
  parameters_eq : method.parameterAnnotations pool type.parameters.length = .ok parameters
  annotations_eq : method.annotations pool = .ok annotations

namespace MethodView

variable {pool : Pool} {method : Member}

/-- The local variable of the parameter at a position. -/
def slotOf (view : MethodView pool method) (index : Nat) : Nat :=
  view.type.slotOf method.isStatic index

/-- The number of local variables that the receiver and all parameters take. -/
def span (view : MethodView pool method) : Nat := view.slotOf view.type.parameters.length

/-- The local variable of the parameter at a position, counted with 16 bits. -/
def slot (view : MethodView pool method) (index : Nat) : UInt16 := UInt16.ofNat (view.slotOf index)

theorem toNat_slot {view : MethodView pool method} {index : Nat} (h : view.slotOf index ≤ 65535) :
    (view.slot index).toNat = view.slotOf index :=
  UInt16.toNat_ofNat_of_lt' (Nat.lt_succ_of_le h)

/-- The method, named for reports, in a class. -/
def context (view : MethodView pool method) (className marker : String) : Plan.MethodContext :=
  { className, methodName := view.name, type := view.type
    slots := view.type.parameterSlots method.isStatic, pool, marker }

/-- The parameters with their annotations, types and local variables, numbered. -/
def numbered (view : MethodView pool method) :
    List ((List Annotation × FieldType × UInt16) × Nat) :=
  (view.parameters.zip
    (view.type.parameters.zip (view.type.parameterSlots method.isStatic))).zipIdx

theorem map_numbered (view : MethodView pool method) :
    view.numbered.map (fun item => (item.1.1, item.2)) = view.parameters.zipIdx := by
  have hlength := Member.length_parameterAnnotations view.parameters_eq
  have hfst : (view.parameters.zip (view.type.parameters.zip
      (view.type.parameterSlots method.isStatic))).map Prod.fst = view.parameters := by
    refine List.map_fst_zip ?_
    simp [MethodType.parameterSlots_eq, hlength]
  conv_rhs => rw [← hfst, List.zipIdx_map]
  rfl

theorem slot_of_numbered (view : MethodView pool method) :
    ∀ item ∈ view.numbered, item.1.2.2 = view.slot item.2 := by
  rintro ⟨⟨annotations, type, slot⟩, index⟩ hitem
  have hget := List.mem_zipIdx_iff_getElem?.1 hitem
  obtain ⟨-, hrest⟩ := List.getElem?_zip_eq_some.1 hget
  obtain ⟨-, hslot⟩ := List.getElem?_zip_eq_some.1 hrest
  rw [MethodType.parameterSlots_eq, List.getElem?_map] at hslot
  obtain ⟨index', hindex, rfl⟩ := Option.map_eq_some_iff.1 hslot
  obtain ⟨hlt, hrange⟩ := List.getElem?_eq_some_iff.1 hindex
  rw [List.getElem_range] at hrange
  rw [hrange]
  rfl

end MethodView

namespace Plan

namespace MethodContext

variable {m : MethodContext} {returned : Option String} {fields : List FieldPattern}
  {i : Instruction}

theorem guardSubject_of_return (h : i.opcode = .areturn) :
    m.guardSubject returned fields i =
      .ok (returned.map fun pattern => (.returned, pattern)) := by
  rw [guardSubject, h]

/-- Before a store the member is looked up that it names. -/
theorem guardSubject_of_store (h : i.opcode = .putfield ∨ i.opcode = .putstatic) :
    m.guardSubject returned fields i = match i.poolIndex? with
      | none => .ok none
      | some index => do
        let target ← GuardError.ofData (m.pool.memberRef index)
        if target.owner = m.className then
          return (FieldPattern.lookup? fields target.name target.descriptor).map
            fun pattern => (.field target.name, pattern)
        else return none := by
  rw [guardSubject]
  split
  · rename_i hreturn
    rcases h with h | h
    · exact absurd (h.symm.trans hreturn) (by decide)
    · exact absurd (h.symm.trans hreturn) (by decide)
  · rfl
  · rfl
  · rename_i hput hstatic
    rcases h with h | h
    · exact absurd h hput
    · exact absurd h hstatic

theorem guardSubject_of_other (hreturn : i.opcode ≠ .areturn)
    (hstore : ¬(i.opcode = .putfield ∨ i.opcode = .putstatic)) :
    m.guardSubject returned fields i = .ok none := by
  rw [guardSubject]
  split
  · exact absurd ‹_› hreturn
  · exact absurd (Or.inl ‹_›) hstore
  · exact absurd (Or.inr ‹_›) hstore
  · rfl

end MethodContext

section Sites

variable {className marker : String} {pool : Pool} {method : Member}

/-- The check of the parameter at a position, with the annotations of the parameter. -/
structure IsParameterSite (className marker : String) (view : MethodView pool method)
    (parameter : List Annotation × Nat) (c : Check) : Prop where
  offset : c.offset = 0
  catchesJumps : c.catchesJumps = false
  load : c.load = .loadLocal (view.slot parameter.2)
  className_eq : c.site.className = className
  methodName_eq : c.site.methodName = view.name
  kind : c.site.kind = .parameter parameter.2 (view.slot parameter.2)
  pattern : HasPattern parameter.1 pool marker c.site.pattern

/-- The instruction stores to a field of the class itself. -/
def Stores (pool : Pool) (className : String) (i : Instruction) (target : MemberRef) : Prop :=
  (i.opcode = .putfield ∨ i.opcode = .putstatic) ∧ target.owner = className ∧
    ∃ index, i.poolIndex? = some index ∧ pool.memberRef index = .ok target

/-- The instruction returns a value of a marked method, or stores to a field of its class that is
declared with a marker. -/
def IsGuarded (file : ClassFile) (className marker : String) (view : MethodView pool method)
    (i : Instruction) : Prop :=
  (i.opcode = .areturn ∧ IsMarked view.annotations pool marker) ∨
    ∃ target, Stores pool className i target ∧ ∃ field ∈ file.fields,
      field.MarkedAs file.pool marker target.name target.descriptor

/-- What is checked before an instruction, with its pattern: the returned value of a marked method,
or the new value of a marked field. -/
inductive IsSubject (file : ClassFile) (className marker : String) (view : MethodView pool method)
    (i : Instruction) : SiteSubject → String → Prop where
  | returned {pattern : String} (opcode : i.opcode = .areturn)
      (hasPattern : HasPattern view.annotations pool marker pattern) :
      IsSubject file className marker view i .returned pattern
  | field {target : MemberRef} {pattern : String} (stores : Stores pool className i target)
      (last : LastMarked file.fields file.pool marker ⟨target.name, target.descriptor, pattern⟩) :
      IsSubject file className marker view i (.field target.name) pattern

/-- The check of what an instruction returns or stores. -/
structure IsGuardSite (file : ClassFile) (className marker : String)
    (view : MethodView pool method) (i : Instruction) (c : Check) : Prop where
  offset : c.offset = i.offset
  catchesJumps : c.catchesJumps = true
  load : c.load = .simple .dup
  className_eq : c.site.className = className
  methodName_eq : c.site.methodName = view.name
  subject : IsSubject file className marker view i c.site.kind c.site.pattern

variable {file : ClassFile} {fields : List FieldPattern} {view : MethodView pool method}
  {i : Instruction}

theorem LastMarked.exists_markedAs {f : FieldPattern}
    (h : LastMarked file.fields file.pool marker f) :
    ∃ field ∈ file.fields, field.MarkedAs file.pool marker f.name f.descriptor := by
  obtain ⟨front, field, back, hfields, hgives, -⟩ := h
  rw [hfields]
  exact ⟨field, List.mem_append_right front List.mem_cons_self, hgives.markedAs⟩

theorem IsSubject.isGuarded {kind : SiteSubject} {pattern : String}
    (h : IsSubject file className marker view i kind pattern) :
    IsGuarded file className marker view i := by
  cases h with
  | returned opcode hasPattern => exact Or.inl ⟨opcode, hasPattern.isMarked⟩
  | field stores last => exact Or.inr ⟨_, stores, last.exists_markedAs⟩

/-- What is looked up among the marked fields is the pattern of the last declaration. -/
theorem lookup?_markedFields (h : markedFields file className marker = .ok fields)
    (name descriptor : String) :
    match FieldPattern.lookup? fields name descriptor with
    | none => ∀ field ∈ file.fields, ¬field.MarkedAs file.pool marker name descriptor
    | some pattern => LastMarked file.fields file.pool marker ⟨name, descriptor, pattern⟩ := by
  obtain ⟨found, hfound, hpure⟩ := bind_ok_iff.1 h
  obtain rfl := pure_ok_iff.1 hpure
  exact lookup?_reverse (mapM_ok_iff.1 hfound) name descriptor

/-- The pattern of the returned value is that of the marker of the method. -/
theorem returnedPattern_ok {returned : Option String}
    (h : (view.context className marker).returnedPattern view.annotations = .ok returned) :
    match returned with
    | none => ¬IsMarked view.annotations pool marker
    | some pattern => HasPattern view.annotations pool marker pattern := by
  obtain ⟨found, hfound, hrest⟩ := bind_ok_iff.1 h
  cases found with
  | none =>
    obtain rfl := pure_ok_iff.1 hrest
    exact patternOfMarker_none hfound
  | some pattern =>
    simp only at hrest
    split at hrest
    · obtain ⟨_, -, hpure⟩ := bind_ok_iff.1 hrest
      obtain rfl := pure_ok_iff.1 hpure
      exact patternOfMarker_some hfound
    · obtain ⟨_, hthrow, -⟩ := bind_ok_iff.1 hrest
      exact absurd hthrow throw_ne_ok

/-- An instruction stores to one field. -/
theorem Stores.eq {target target' : MemberRef} (h : Stores pool className i target)
    (h' : Stores pool className i target') : target' = target := by
  obtain ⟨-, -, index, hindex, htarget⟩ := h
  obtain ⟨-, -, index', hindex', htarget'⟩ := h'
  obtain rfl := Option.some.inj (hindex.symm.trans hindex')
  exact Except.ok.inj (htarget'.symm.trans htarget)

/-- What is found out about an instruction: it is not guarded, or it has a subject. -/
def Settles (file : ClassFile) (className marker : String) (view : MethodView pool method)
    (i : Instruction) : Option (SiteSubject × String) → Prop
  | none => ¬IsGuarded file className marker view i
  | some (kind, pattern) => IsSubject file className marker view i kind pattern

theorem settles_of_store {returned : Option String} {o : Option (SiteSubject × String)}
    (hstore : i.opcode = .putfield ∨ i.opcode = .putstatic) (hreturn : i.opcode ≠ .areturn)
    (hfields : markedFields file className marker = .ok fields)
    (h : (view.context className marker).guardSubject returned fields i = .ok o) :
    Settles file className marker view i o := by
  rw [MethodContext.guardSubject_of_store hstore] at h
  split at h
  · rename_i hindex
    obtain rfl := Except.ok.inj h
    rintro (⟨hopcode, -⟩ | ⟨target, ⟨-, -, index, hsome, -⟩, -⟩)
    · exact hreturn hopcode
    · exact absurd (hindex.symm.trans hsome) (by simp)
  · rename_i index hindex
    obtain ⟨target, htarget, h₁⟩ := bind_ok_iff.1 h
    have hresolved : pool.memberRef index = .ok target := GuardError.ofData_ok_iff.1 htarget
    split at h₁
    · rename_i howner
      have hstores : Stores pool className i target := ⟨hstore, howner, index, hindex, hresolved⟩
      have hlookup := lookup?_markedFields hfields target.name target.descriptor
      obtain rfl := pure_ok_iff.1 h₁
      cases hfound : FieldPattern.lookup? fields target.name target.descriptor with
      | some pattern =>
        rw [hfound] at hlookup
        exact .field hstores hlookup
      | none =>
        rw [hfound] at hlookup
        rintro (⟨hopcode, -⟩ | ⟨target', hstores', field, hfield, hmarked⟩)
        · exact hreturn hopcode
        · rw [hstores.eq hstores'] at hmarked
          exact hlookup field hfield hmarked
    · rename_i howner
      obtain rfl := pure_ok_iff.1 h₁
      rintro (⟨hopcode, -⟩ | ⟨target', ⟨-, howner', index', hindex', htarget'⟩, -⟩)
      · exact hreturn hopcode
      · obtain rfl := Option.some.inj (hindex.symm.trans hindex')
        obtain rfl := Except.ok.inj (hresolved.symm.trans htarget')
        exact howner howner'

theorem settles_guardSubject {returned : Option String} {o : Option (SiteSubject × String)}
    (hfields : markedFields file className marker = .ok fields)
    (hreturned : (view.context className marker).returnedPattern view.annotations = .ok returned)
    (h : (view.context className marker).guardSubject returned fields i = .ok o) :
    Settles file className marker view i o := by
  by_cases hreturn : i.opcode = .areturn
  · rw [MethodContext.guardSubject_of_return hreturn] at h
    obtain rfl := Except.ok.inj h
    have hpattern := returnedPattern_ok hreturned
    cases returned with
    | some pattern => exact .returned hreturn hpattern
    | none =>
      rintro (⟨-, hmarked⟩ | ⟨target, ⟨hstore, -⟩, -⟩)
      · exact hpattern hmarked
      · simp [hreturn] at hstore
  · by_cases hstore : i.opcode = .putfield ∨ i.opcode = .putstatic
    · exact settles_of_store hstore hreturn hfields h
    · rw [MethodContext.guardSubject_of_other hreturn hstore] at h
      obtain rfl := Except.ok.inj h
      rintro (⟨hopcode, -⟩ | ⟨target, ⟨hput, -⟩, -⟩)
      · exact hreturn hopcode
      · exact hstore hput

/-- Exactly the guarded instructions have a check. -/
theorem guardCheck_cases {returned : Option String} {o : Option Check}
    (hfields : markedFields file className marker = .ok fields)
    (hreturned : (view.context className marker).returnedPattern view.annotations = .ok returned)
    (h : (view.context className marker).guardCheck returned fields i = .ok o) :
    (o = none ∧ ¬IsGuarded file className marker view i) ∨ ∃ c, o = some c ∧
      IsGuarded file className marker view i ∧ IsGuardSite file className marker view i c := by
  obtain ⟨subject, hsubject, hpure⟩ := bind_ok_iff.1 h
  have hsettles := settles_guardSubject hfields hreturned hsubject
  obtain rfl := pure_ok_iff.1 hpure
  cases subject with
  | none => exact Or.inl ⟨rfl, hsettles⟩
  | some subject =>
    have hsubject : IsSubject file className marker view i subject.1 subject.2 := hsettles
    exact Or.inr ⟨_, rfl, hsubject.isGuarded, rfl, rfl, rfl, rfl, rfl, hsubject⟩

/-- Exactly the marked parameters have a check. -/
theorem parameterCheck_cases {annotations : List Annotation} {type : FieldType} {index : Nat}
    {o : Option Check}
    (h : (view.context className marker).parameterCheck annotations type (view.slot index) index =
      .ok o) :
    (o = none ∧ ¬IsMarked annotations pool marker) ∨ ∃ c, o = some c ∧
      IsMarked annotations pool marker ∧
      IsParameterSite className marker view (annotations, index) c := by
  obtain ⟨found, hfound, hrest⟩ := bind_ok_iff.1 h
  cases found with
  | none =>
    obtain rfl := pure_ok_iff.1 hrest
    exact Or.inl ⟨rfl, patternOfMarker_none hfound⟩
  | some pattern =>
    obtain ⟨_, -, hpure⟩ := bind_ok_iff.1 hrest
    obtain rfl := pure_ok_iff.1 hpure
    have hpattern := patternOfMarker_some hfound
    exact Or.inr ⟨_, rfl, hpattern.isMarked, rfl, rfl, rfl, rfl, rfl, rfl, hpattern⟩

open Classical in
/-- The checks of the parameters are those of the marked ones, in order. -/
theorem parameterChecks_sites {checks : List Check}
    (h : (view.context className marker).parameterChecks view.parameters = .ok checks) :
    List.Forall₂ (IsParameterSite className marker view)
      (view.parameters.zipIdx.filter fun parameter => IsMarked parameter.1 pool marker) checks := by
  obtain ⟨found, hfound, hpure⟩ := bind_ok_iff.1 h
  obtain rfl := pure_ok_iff.1 hpure
  rw [← view.map_numbered, List.filter_map, List.forall₂_map_left_iff]
  have hnumbered := (List.forall₂_and_left _ _).2 ⟨view.slot_of_numbered, mapM_ok_iff.1 hfound⟩
  refine forall₂_filter ?_ ?_ hnumbered
  · rintro ⟨⟨annotations, type, slot⟩, index⟩ ⟨hslot, hnone⟩
    obtain rfl : slot = view.slot index := hslot
    rcases parameterCheck_cases hnone with ⟨-, hmarked⟩ | ⟨c, hsome, -⟩
    · exact hmarked
    · exact absurd hsome (by simp)
  · rintro ⟨⟨annotations, type, slot⟩, index⟩ c ⟨hslot, hsome⟩
    obtain rfl : slot = view.slot index := hslot
    rcases parameterCheck_cases hsome with ⟨hnone, -⟩ | ⟨d, hd, hmarked, hsite⟩
    · exact absurd hnone (by simp)
    · obtain rfl := Option.some.inj hd
      exact ⟨hmarked, hsite⟩

open Classical in
/-- The checks in front of instructions are those of the guarded ones, in order; if there is nothing
to look for, no instruction is guarded. -/
theorem guardChecks_sites {returned : Option String} {is : List Instruction}
    {found : List (Option Check)}
    (hfields : markedFields file className marker = .ok fields)
    (hreturned : (view.context className marker).returnedPattern view.annotations = .ok returned)
    (h : is.mapM ((view.context className marker).guardCheck returned fields) = .ok found) :
    List.Forall₂ (IsGuardSite file className marker view)
      (is.filter fun i => IsGuarded file className marker view i) (found.filterMap id) := by
  refine forall₂_filter ?_ ?_ (mapM_ok_iff.1 h)
  · intro i hnone
    rcases guardCheck_cases hfields hreturned hnone with ⟨-, hguarded⟩ | ⟨c, hsome, -⟩
    · exact hguarded
    · exact absurd hsome (by simp)
  · intro i c hsome
    rcases guardCheck_cases hfields hreturned hsome with ⟨hnone, -⟩ | ⟨d, hd, hguarded, hsite⟩
    · exact absurd hnone (by simp)
    · obtain rfl := Option.some.inj hd
      exact ⟨hguarded, hsite⟩

/-- If the method has no marker and no field has one, no instruction is guarded. -/
theorem not_isGuarded {returned : Option String}
    (hfields : markedFields file className marker = .ok fields)
    (hreturned : (view.context className marker).returnedPattern view.annotations = .ok returned)
    (hnone : (returned.isNone && fields.isEmpty) = true) :
    ¬IsGuarded file className marker view i := by
  rw [Bool.and_eq_true, Option.isNone_iff_eq_none, List.isEmpty_iff] at hnone
  obtain ⟨rfl, rfl⟩ := hnone
  rintro (⟨-, hmarked⟩ | ⟨target, -, field, hfield, hmarked⟩)
  · exact returnedPattern_ok hreturned hmarked
  · exact lookup?_markedFields hfields target.name target.descriptor field hfield hmarked

open Classical in
/-- A plan has one check for each marked parameter, in order, and one for each guarded instruction,
in the order of the code. -/
theorem ofMethod_sites {body : CodeBody} {is : List Instruction} {planned : List Check}
    (hfields : markedFields file className marker = .ok fields)
    (his : body.instructions = .ok is)
    (h : ofMethod className marker fields pool method body = .ok planned) :
    ∃ (view : MethodView pool method) (parameters guards : List Check),
      planned = parameters ++ guards ∧
      List.Forall₂ (IsParameterSite className marker view)
        (view.parameters.zipIdx.filter fun parameter => IsMarked parameter.1 pool marker)
        parameters ∧
      List.Forall₂ (IsGuardSite file className marker view)
        (is.filter fun i => IsGuarded file className marker view i) guards := by
  obtain ⟨name, hname, h₁⟩ := bind_ok_iff.1 h
  obtain ⟨descriptor, hdescriptor, h₂⟩ := bind_ok_iff.1 h₁
  obtain ⟨type, htype, h₃⟩ := bind_ok_iff.1 h₂
  obtain ⟨annotations, hannotations, h₄⟩ := bind_ok_iff.1 h₃
  obtain ⟨parameters, hparameters, h₅⟩ := bind_ok_iff.1 h₄
  obtain ⟨own, hown, h₆⟩ := bind_ok_iff.1 h₅
  obtain ⟨returned, hreturned, h₇⟩ := bind_ok_iff.1 h₆
  let view : MethodView pool method :=
    ⟨name, descriptor, type, annotations, own, GuardError.ofData_ok_iff.1 hname,
      GuardError.ofData_ok_iff.1 hdescriptor, GuardError.ofData_ok_iff.1 htype,
      GuardError.ofData_ok_iff.1 hannotations, GuardError.ofData_ok_iff.1 hown⟩
  have hreturned' : (view.context className marker).returnedPattern view.annotations =
      .ok returned := hreturned
  have hparameters' : (view.context className marker).parameterChecks view.parameters =
      .ok parameters := hparameters
  have hentry := parameterChecks_sites hparameters'
  refine ⟨view, parameters, ?_⟩
  split at h₇
  · rename_i hnothing
    have hnone : (is.filter fun i => IsGuarded file className marker view i) = [] := by
      rw [List.filter_eq_nil_iff]
      intro i _ hguarded
      exact not_isGuarded hfields hreturned' hnothing (of_decide_eq_true hguarded)
    refine ⟨[], ?_, hentry, ?_⟩
    · rw [List.append_nil, pure_ok_iff.1 h₇]
    · rw [hnone]
      exact List.Forall₂.nil
  · obtain ⟨is', his', h₈⟩ := bind_ok_iff.1 h₇
    obtain rfl := Except.ok.inj (his.symm.trans (GuardError.ofData_ok_iff.1 his'))
    obtain ⟨found, hfound, hpure⟩ := bind_ok_iff.1 h₈
    exact ⟨found.filterMap id, (pure_ok_iff.1 hpure).symm, hentry,
      guardChecks_sites hfields hreturned' hfound⟩

open Classical in
/-- If the receiver and the parameters take at most 65535 local variables, a plan is exactly this:
for each marked parameter in order a check at the entry that loads the local variable of the
parameter, then for each guarded instruction a check in front of it, in the order of the code. So
the offsets of these ascend in the body of the method, and in every body whose code is not too long
for offsets of 32 bits. -/
theorem ofMethod_exact {body : CodeBody} {is : List Instruction} {planned : List Check}
    (hfields : markedFields file className marker = .ok fields)
    (his : body.instructions = .ok is)
    (hspan : ∀ view : MethodView pool method, view.span ≤ 65535)
    (h : ofMethod className marker fields pool method body = .ok planned) :
    ∃ (view : MethodView pool method) (parameters guards : List Check),
      planned = parameters ++ guards ∧
      List.Forall₂ (fun parameter c => IsParameterSite className marker view parameter c ∧
          c.load.loadedLocal? = some (view.slotOf parameter.2))
        (view.parameters.zipIdx.filter fun parameter => IsMarked parameter.1 pool marker)
        parameters ∧
      List.Forall₂ (IsGuardSite file className marker view)
        (is.filter fun i => IsGuarded file className marker view i) guards ∧
      (method.body? pool = .ok (some body) ∨ body.code.length ≤ 4294967296 →
        guards.Pairwise fun c d => c.offset < d.offset) := by
  obtain ⟨view, parameters, guards, hplanned, hparameters, hguards⟩ :=
    ofMethod_sites hfields his h
  refine ⟨view, parameters, guards, hplanned, ?_, hguards, ?_⟩
  · have hmembers : ∀ parameter ∈ view.parameters.zipIdx.filter fun parameter =>
        decide (IsMarked parameter.1 pool marker), parameter.2 < view.parameters.length := by
      intro parameter hparameter
      exact List.snd_lt_of_mem_zipIdx (List.mem_of_mem_filter hparameter)
    refine ((List.forall₂_and_left _ _).2 ⟨hmembers, hparameters⟩).imp ?_
    rintro parameter c ⟨hindex, hsite⟩
    refine ⟨hsite, ?_⟩
    -- the variable of a parameter is one of those that all parameters take together
    have hslot : view.slotOf parameter.2 ≤ view.span := by
      rw [Member.length_parameterAnnotations view.parameters_eq] at hindex
      exact view.type.slotOf_mono method.isStatic (Nat.le_of_lt hindex)
    rw [hsite.load, Instruction.loadedLocal?_loadLocal,
      MethodView.toNat_slot (Nat.le_trans hslot (hspan view))]
  · intro hbody
    have hlength : body.code.length ≤ 4294967296 :=
      hbody.elim (fun h => Nat.le_trans (Member.length_code_le h) (by decide)) id
    refine pairwise_of_forall₂ ?_ hguards ((Code.fills_of_decode his hlength).ascending.filter _)
    intro i j c d hc hd hlt
    rw [hc.offset, hd.offset]
    exact hlt

end Sites

/-- A class that declares one field twice, with two patterns. Its method takes a number and a
reference, which is marked, stores the reference in the field and returns it. -/
def storingClass : ClassFile where
  minorVersion := 0
  majorVersion := 52
  pool := [.ofText "A", .classEntry 1, .ofText "f", .ofText "(JLA;)LA;", .ofText "Code",
    .ofText "RuntimeVisibleAnnotations", .ofText "RuntimeVisibleParameterAnnotations",
    .ofText "Lm;", .ofText "value", .ofText "p", .ofText "g", .ofText "LA;", .nameAndType 11 12,
    .fieldRef 2 13, .ofText "q"].foldl Pool.append .empty
  access := 0
  thisClass := 2
  superClass := 0
  interfaces := []
  fields :=
    [⟨0, 11, 12, [⟨6, [0, 1, 0, 8, 0, 1, 0, 9, 115, 0, 10]⟩]⟩,
      ⟨0, 11, 12, [⟨6, [0, 1, 0, 8, 0, 1, 0, 9, 115, 0, 15]⟩]⟩]
  methods := []
  attributes := []

/-- The method of the class. -/
def storingMethod : Member where
  access := 0
  nameIndex := 3
  descriptorIndex := 4
  attributes :=
    [⟨6, [0, 1, 0, 8, 0, 1, 0, 9, 115, 0, 10]⟩,
      ⟨7, [2, 0, 0, 0, 1, 0, 8, 0, 1, 0, 9, 115, 0, 10]⟩]

/-- The body of the method. -/
def storingBody : CodeBody where
  maxStack := 2
  maxLocals := 4
  code := [0x2a, 0x2d, 0xb5, 0, 14, 0x2d, 0xb0]
  handlers := []
  attributes := []

/-- The method takes its receiver, two variables for the number and one for the reference. -/
theorem span_storingMethod (view : MethodView storingClass.pool storingMethod) : view.span = 4 := by
  have hdescriptor : view.descriptor = "(JLA;)LA;" :=
    Except.ok.inj (view.descriptor_eq.symm.trans (by decide +kernel))
  have hparse := view.type_eq
  rw [hdescriptor] at hparse
  have htype : view.type = ⟨[.base .long, .object "A"], some (.object "A")⟩ :=
    Except.ok.inj (hparse.symm.trans (by decide +kernel))
  rw [MethodView.span, MethodView.slotOf, htype]
  decide +kernel

open Classical in
theorem exists_plan_storingMethod : ∃ (fields : List FieldPattern) (is : List Instruction)
    (entry store return' : Check) (view : MethodView storingClass.pool storingMethod),
    markedFields storingClass "A" "Lm;" = .ok fields ∧ storingBody.instructions = .ok is ∧
      (∀ view : MethodView storingClass.pool storingMethod, view.span ≤ 65535) ∧
      ofMethod "A" "Lm;" fields storingClass.pool storingMethod storingBody =
        .ok [entry, store, return'] ∧
      entry.load.loadedLocal? = some 3 ∧ store.offset = 2 ∧ store.site.pattern = "q" ∧
      return'.offset = 6 ∧ ∃ parameters guards, [entry, store, return'] = parameters ++ guards ∧
        List.Forall₂ (IsParameterSite "A" "Lm;" view)
          (view.parameters.zipIdx.filter fun parameter =>
            IsMarked parameter.1 storingClass.pool "Lm;") parameters ∧
        List.Forall₂ (IsGuardSite storingClass "A" "Lm;" view)
          (is.filter fun i => IsGuarded storingClass "A" "Lm;" view i) guards := by
  have hfields : markedFields storingClass "A" "Lm;" =
      .ok [⟨"g", "LA;", "q"⟩, ⟨"g", "LA;", "p"⟩] := by decide +kernel
  have his : storingBody.instructions = .ok [⟨0, .aload_0, .none⟩, ⟨1, .aload_3, .none⟩,
      ⟨2, .putfield, .bytes [0, 14]⟩, ⟨5, .aload_3, .none⟩, ⟨6, .areturn, .none⟩] := by
    decide +kernel
  have hspan : ∀ view : MethodView storingClass.pool storingMethod, view.span ≤ 65535 := by
    intro view
    rw [span_storingMethod view]
    decide
  have hplan : ofMethod "A" "Lm;" [⟨"g", "LA;", "q"⟩, ⟨"g", "LA;", "p"⟩] storingClass.pool
      storingMethod storingBody =
        .ok [⟨0, false, .loadLocal 3, ⟨"A", "f", .parameter 1 3, "p"⟩⟩,
          ⟨2, true, .simple .dup, ⟨"A", "f", .field "g", "q"⟩⟩,
          ⟨6, true, .simple .dup, ⟨"A", "f", .returned, "p"⟩⟩] := by decide +kernel
  obtain ⟨view, parameters, guards, hplanned, hparameters, hguards, -⟩ :=
    ofMethod_exact hfields his hspan hplan
  exact ⟨_, _, _, _, _, view, hfields, his, hspan, hplan, rfl, rfl, rfl, rfl, parameters, guards,
    hplanned, hparameters.imp fun _ _ h => h.1, hguards⟩

end Plan

end PatternGuard
