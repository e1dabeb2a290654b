import PatternGuard.Proofs.Guard.Sites
import PatternGuard.Proofs.Guard.WellFormed

/-!
# Why guarding a well-formed class fails

When a well-formed class cannot be guarded by calls of a validator, its data are not at fault: a
site is in the way of its check, or a constant or a table grows beyond a limit of the format
(`Guarding.blamesLimits_of_guardClass`).
-/

set_option autoImplicit false

namespace PatternGuard

open Outcome

/-- The fault is that something would grow beyond a limit of the format. -/
def Fault.IsLimit : Fault → Prop
  | constantPoolOverflow => True
  | tooMany _ _ => True
  | _ => False

/-- If the error is a fault of class data, it is a limit of the format. -/
def GuardError.BlamesLimits (e : GuardError) : Prop := ∀ fault, e = .malformed fault → fault.IsLimit

namespace GuardError

theorem blamesLimits_malformed {fault : Fault} (h : fault.IsLimit) :
    (malformed fault).BlamesLimits := by
  intro fault' heq
  rwa [← malformed.inj heq]

theorem blamesLimits_unsupported (site : String) (obstacle : Obstacle) :
    (unsupported site obstacle).BlamesLimits := fun _ h => GuardError.noConfusion h

theorem blamesLimits_missingPattern (site : String) : (missingPattern site).BlamesLimits :=
  fun _ h => GuardError.noConfusion h

theorem blamesLimits_alreadyGuarded (className : String) :
    (alreadyGuarded className).BlamesLimits := fun _ h => GuardError.noConfusion h

theorem failsOnly_ofData {α : Type} {x : Except Fault α} (h : FailsOnly Fault.IsLimit x) :
    FailsOnly BlamesLimits (ofData x) := by
  cases x with
  | ok a => exact failsOnly_ok a
  | error fault => exact failsOnly_error (blamesLimits_malformed (h fault rfl))

/-- Data that are there are no obstacle. -/
theorem failsOnly_bind_ofData {α β : Type} {x : Except Fault α} {f : α → Except GuardError β}
    {a : α} (h : x = .ok a) (hf : FailsOnly BlamesLimits (f a)) :
    FailsOnly BlamesLimits (ofData x >>= f) := by
  rw [h]
  exact hf

end GuardError

open GuardError

/-! ## Tables -/

namespace Bytes

theorem failsOnly_count16 (count : Nat) (what : String) :
    FailsOnly Fault.IsLimit (count16 count what) := by
  rw [count16]
  split
  · exact failsOnly_ok _
  · exact failsOnly_error trivial

theorem failsOnly_blob (bytes : List UInt8) (what : String) :
    FailsOnly Fault.IsLimit (blob bytes what) := by
  rw [blob]
  split
  · exact failsOnly_ok _
  · exact failsOnly_error trivial

end Bytes

theorem Attribute.failsOnly_encodeList (attributes : List Attribute) :
    FailsOnly Fault.IsLimit (encodeList attributes) := by
  refine (Bytes.failsOnly_count16 _ _).bind fun count _ => FailsOnly.bind ?_ fun _ _ =>
    failsOnly_ok _
  apply FailsOnly.map
  apply failsOnly_mapM
  intro a _
  exact (Bytes.failsOnly_blob _ _).bind fun _ _ => failsOnly_ok _

/-- A body of permitted length can be written but for the limits of its tables. -/
theorem CodeBody.failsOnly_encode {body : CodeBody} (h : body.code.length ≤ maxLength) :
    FailsOnly Fault.IsLimit body.encode := by
  refine FailsOnly.unless (fun _ => throw_ne_ok) ?_ fun _ => ?_
  · intro hlong
    exact absurd h (Nat.not_le.2 hlong)
  · refine (Bytes.failsOnly_blob _ _).bind fun _ _ => ?_
    refine (Bytes.failsOnly_count16 _ _).bind fun _ _ => ?_
    exact (Attribute.failsOnly_encodeList _).bind fun _ _ => failsOnly_ok _

/-! ## Annotations and plans -/

namespace Plan

variable {pool : Pool} {className marker : String}

/-- A string that an annotation names can be read. -/
theorem exists_textUnder? {a : Annotation} (hpool : pool.Sound) (ha : a.NamesTexts pool)
    (name : String) : ∃ text, a.textUnder? pool name = .ok text := by
  unfold Annotation.textUnder?
  split
  · rename_i index helement
    obtain ⟨p, hp, hvalue⟩ := Option.map_eq_some_iff.1 helement
    have hindex : index ∈ p.value.textIndex? := by
      rw [hvalue]
      rfl
    have hnames := ha p (List.mem_of_find?_eq_some hp) index hindex
    obtain ⟨text, htext⟩ := hpool.exists_text hnames
    exact ⟨some text, bind_ok_iff.2 ⟨text, htext, rfl⟩⟩
  · exact ⟨none, rfl⟩

theorem failsOnly_patternOfMarker {annotations : List Annotation} (hpool : pool.Sound)
    (h : ∀ a ∈ annotations, a.NamesTexts pool) (site : String) :
    FailsOnly BlamesLimits (patternOfMarker annotations pool marker site) := by
  rw [patternOfMarker]
  split
  · exact failsOnly_ok _
  · rename_i a hfind
    obtain ⟨text, htext⟩ :=
      exists_textUnder? hpool (h a (List.mem_of_find?_eq_some hfind)) patternElement
    refine failsOnly_bind_ofData htext ?_
    split
    · exact failsOnly_ok _
    · exact failsOnly_error (blamesLimits_missingPattern site)

theorem failsOnly_expectReference (type : FieldType) (site : String) :
    FailsOnly BlamesLimits (expectReference type site) := by
  rw [expectReference]
  split
  · exact failsOnly_ok _
  · exact failsOnly_error (blamesLimits_unsupported site _)

theorem failsOnly_ofField {field : Member} (hpool : pool.Sound) (h : field.IsField pool) :
    FailsOnly BlamesLimits (ofField className marker pool field) := by
  obtain ⟨name, hname⟩ := h.named.name
  obtain ⟨annotations, hannotations, htexts⟩ := h.annotated
  obtain ⟨descriptor, hdescriptor, type, htype⟩ := h.type
  refine failsOnly_bind_ofData hname (failsOnly_bind_ofData hannotations ?_)
  refine (failsOnly_patternOfMarker hpool htexts _).bind fun pattern _ => ?_
  cases pattern with
  | none => exact failsOnly_ok _
  | some pattern =>
    refine failsOnly_bind_ofData hdescriptor (failsOnly_bind_ofData htype ?_)
    exact (failsOnly_expectReference _ _).bind fun _ _ => failsOnly_ok _

theorem failsOnly_markedFields {file : ClassFile} (hpool : file.pool.Sound)
    (h : ∀ field ∈ file.fields, field.IsField file.pool) :
    FailsOnly BlamesLimits (markedFields file className marker) := by
  refine FailsOnly.bind (failsOnly_mapM fun field hfield => ?_) fun _ _ => failsOnly_ok _
  exact failsOnly_ofField hpool (h field hfield)

namespace MethodContext

variable {m : MethodContext}

theorem failsOnly_parameterChecks {annotations : List (List Annotation)} (hpool : m.pool.Sound)
    (h : ∀ own ∈ annotations, ∀ a ∈ own, a.NamesTexts m.pool) :
    FailsOnly BlamesLimits (m.parameterChecks annotations) := by
  refine FailsOnly.bind (failsOnly_mapM ?_) fun _ _ => failsOnly_ok _
  rintro ⟨⟨own, type, slot⟩, index⟩ hitem
  have hown : own ∈ annotations :=
    (List.of_mem_zip (List.mem_zipIdx_iff_getElem?.1 hitem |> List.mem_of_getElem?)).1
  refine (failsOnly_patternOfMarker hpool (h own hown) _).bind fun pattern _ => ?_
  cases pattern with
  | none => exact failsOnly_ok _
  | some pattern => exact (failsOnly_expectReference _ _).bind fun _ _ => failsOnly_ok _

theorem failsOnly_returnedPattern {annotations : List Annotation} (hpool : m.pool.Sound)
    (h : ∀ a ∈ annotations, a.NamesTexts m.pool) :
    FailsOnly BlamesLimits (m.returnedPattern annotations) := by
  refine (failsOnly_patternOfMarker hpool h _).bind fun pattern _ => ?_
  cases pattern with
  | none => exact failsOnly_ok _
  | some pattern =>
    simp only
    split
    · exact (failsOnly_expectReference _ _).bind fun _ _ => failsOnly_ok _
    · exact (failsOnly_error (blamesLimits_unsupported _ _)).bind fun _ _ => failsOnly_ok _

theorem failsOnly_guardCheck {returned : Option String} {fields : List FieldPattern}
    {i : Instruction} (hpool : m.pool.Sound)
    (h : i.opcode = .putfield ∨ i.opcode = .putstatic →
      ∀ index, i.poolIndex? = some index → m.pool.Names index .memberReference) :
    FailsOnly BlamesLimits (m.guardCheck returned fields i) := by
  refine FailsOnly.bind ?_ fun _ _ => failsOnly_ok _
  -- only what stores to a field follows its index into the pool
  by_cases hreturn : i.opcode = .areturn
  · rw [guardSubject_of_return hreturn]
    exact failsOnly_ok _
  · by_cases hstore : i.opcode = .putfield ∨ i.opcode = .putstatic
    · rw [guardSubject_of_store hstore]
      split
      · exact failsOnly_ok _
      · rename_i index hindex
        obtain ⟨target, htarget⟩ := hpool.exists_memberRef (h hstore index hindex)
        refine failsOnly_bind_ofData htarget ?_
        split
        · exact failsOnly_ok _
        · exact failsOnly_ok _
    · rw [guardSubject_of_other hreturn hstore]
      exact failsOnly_ok _

end MethodContext

/-- The plan of a well-formed method is made unless a site is in the way. -/
theorem failsOnly_ofMethod {fields : List FieldPattern} {method : Member} {body : CodeBody}
    (hpool : pool.Sound) (hmethod : method.IsMethod pool) (hbody : body.WellFormed pool) :
    FailsOnly BlamesLimits (ofMethod className marker fields pool method body) := by
  obtain ⟨name, hname⟩ := hmethod.named.name
  obtain ⟨own, hown, htexts⟩ := hmethod.annotated
  obtain ⟨descriptor, hdescriptor, type, htype, parameters, hparameters, hall⟩ := hmethod.type
  obtain ⟨is, his, hstores, -⟩ := hbody
  refine failsOnly_bind_ofData hname (failsOnly_bind_ofData hdescriptor ?_)
  refine failsOnly_bind_ofData htype (failsOnly_bind_ofData hparameters ?_)
  refine (MethodContext.failsOnly_parameterChecks hpool hall).bind fun _ _ => ?_
  refine failsOnly_bind_ofData hown ?_
  refine (MethodContext.failsOnly_returnedPattern hpool htexts).bind fun returned _ => ?_
  split
  · exact failsOnly_ok _
  · refine failsOnly_bind_ofData his ?_
    refine FailsOnly.bind (failsOnly_mapM fun i hi => ?_) fun _ _ => failsOnly_ok _
    exact MethodContext.failsOnly_guardCheck hpool (hstores i hi)

end Plan

/-! ## Insertions -/

theorem failsOnly_refuse {α : Type} (method : String) (obstacle : Obstacle) :
    FailsOnly BlamesLimits (Mover.refuse method obstacle : Except GuardError α) :=
  failsOnly_error (blamesLimits_unsupported method obstacle)

theorem LineNumber.failsOnly_encodeTable (rows : List LineNumber) :
    FailsOnly Fault.IsLimit (encodeTable rows) :=
  (Bytes.failsOnly_count16 _ _).bind fun _ _ => failsOnly_ok _

theorem LocalVariable.failsOnly_encodeTable (rows : List LocalVariable) :
    FailsOnly Fault.IsLimit (encodeTable rows) :=
  (Bytes.failsOnly_count16 _ _).bind fun _ _ => failsOnly_ok _

namespace Mover

variable {m : Mover} {pool : Pool} {method : String}

theorem failsOnly_moveOffset (old : UInt16) : FailsOnly BlamesLimits (m.moveOffset old) := by
  rw [moveOffset]
  split
  · exact failsOnly_ok _
  · exact failsOnly_refuse _ _

theorem failsOnly_moveJump (i : Instruction) (moved : Nat) (d : Int32) :
    FailsOnly BlamesLimits (m.moveJump i moved d) := by
  rw [moveJump]
  split
  · exact failsOnly_ok _
  · exact failsOnly_refuse _ _

theorem failsOnly_moveOperand (i : Instruction) (moved : Nat) :
    FailsOnly BlamesLimits (m.moveOperand i moved) := by
  rw [moveOperand]
  cases i.operand with
  | none => exact failsOnly_ok _
  | bytes given => exact failsOnly_ok _
  | branch d =>
    refine (failsOnly_moveJump i moved d).bind fun d' _ => ?_
    split
    · exact failsOnly_ok _
    · exact failsOnly_refuse _ _
  | tableSwitch default low high targets =>
    refine (failsOnly_moveJump i moved default).bind fun _ _ => ?_
    refine (failsOnly_mapM fun d _ => failsOnly_moveJump i moved d).bind fun _ _ => ?_
    exact failsOnly_ok _
  | lookupSwitch default pairs =>
    refine (failsOnly_moveJump i moved default).bind fun _ _ => ?_
    refine (failsOnly_mapM fun pair _ => ?_).bind fun _ _ => failsOnly_ok _
    exact (failsOnly_moveJump i moved pair.2).bind fun _ _ => failsOnly_ok _

/-- A block can be written unless its instruction cannot be moved. -/
theorem failsOnly_encodeBlock {b : PlacedBlock}
    (hinserted : ∀ j ∈ b.entry ++ b.guards, j.operand.Reaches j.opcode.form)
    (hi : b.instruction.WellFormed) : FailsOnly BlamesLimits (m.encodeBlock b) := by
  obtain ⟨inserted, hinserted⟩ := Code.exists_encodePlaced_place_iff.2 hinserted
  refine failsOnly_bind_ofData hinserted (FailsOnly.bind ?_ fun j hj => ?_)
  · exact (failsOnly_moveOperand _ _).bind fun _ _ => failsOnly_ok _
  · obtain ⟨bytes, hbytes⟩ := exists_encode_of_moveInstruction hi hj
    exact failsOnly_bind_ofData hbytes (failsOnly_ok _)

theorem failsOnly_moveHandler (h : Handler) : FailsOnly BlamesLimits (m.moveHandler h) := by
  refine (failsOnly_moveOffset _).bind fun _ _ => (failsOnly_moveOffset _).bind fun _ _ => ?_
  exact (failsOnly_moveOffset _).bind fun _ _ => failsOnly_ok _

theorem failsOnly_moveLine (l : LineNumber) : FailsOnly BlamesLimits (m.moveLine l) :=
  (failsOnly_moveOffset _).bind fun _ _ => failsOnly_ok _

theorem failsOnly_moveVariable (v : LocalVariable) :
    FailsOnly BlamesLimits (m.moveVariable v) := by
  refine FailsOnly.unless (fun _ => refuse_ne_ok) (fun _ => failsOnly_refuse _ _) fun _ => ?_
  refine (failsOnly_moveOffset _).bind fun _ _ => ?_
  exact (failsOnly_moveOffset _).bind fun _ _ => failsOnly_ok _

theorem failsOnly_moveLines {info : List UInt8}
    (h : ∃ rows, LineNumber.decodeTable info = .ok rows) :
    FailsOnly BlamesLimits (m.moveLines info) := by
  obtain ⟨rows, hrows⟩ := h
  refine failsOnly_bind_ofData hrows ?_
  refine (failsOnly_mapM fun l _ => failsOnly_moveLine l).bind fun rows' _ => ?_
  exact failsOnly_ofData (LineNumber.failsOnly_encodeTable rows')

theorem failsOnly_moveVariables {info : List UInt8}
    (h : ∃ rows, LocalVariable.decodeTable info = .ok rows) :
    FailsOnly BlamesLimits (m.moveVariables info) := by
  obtain ⟨rows, hrows⟩ := h
  refine failsOnly_bind_ofData hrows ?_
  refine (failsOnly_mapM fun v _ => failsOnly_moveVariable v).bind fun rows' _ => ?_
  exact failsOnly_ofData (LocalVariable.failsOnly_encodeTable rows')

/-- An attribute that is a table can be moved unless a row of it cannot. -/
theorem failsOnly_moveAttribute {a : Attribute} {boundary : Nat → Prop}
    (hchecked : checkAttribute pool method a = .ok ⟨⟩) (ha : a.WellFormed pool boundary)
    (hframes : ∀ {info : List UInt8} {frames : List Frame},
      Frame.decodeTable info = .ok frames → (∀ offset ∈ Frame.offsets frames, boundary offset) →
      (∀ f ∈ frames, ∀ offset, .uninitialized offset ∈ f.kind.types → boundary offset.toNat) →
      ∃ info', m.moveFrames info = .ok info') :
    FailsOnly BlamesLimits (m.moveAttribute pool a) := by
  have hbody : ∀ {x : Except GuardError (List UInt8)}, FailsOnly BlamesLimits x →
      FailsOnly BlamesLimits (do return { a with info := ← x }) :=
    fun hx => hx.bind fun _ _ => failsOnly_ok _
  rw [moveAttribute]
  -- the name decides how the body is moved
  by_cases hlines : a.isNamed pool Attribute.lineNumbersName = true
  · simp only [hlines, ↓reduceIte]
    exact hbody (failsOnly_moveLines (ha.lines hlines))
  · by_cases hstackMap : a.isNamed pool Attribute.stackMapName = true
    · obtain ⟨frames, htable, hoffsets, htypes⟩ := ha.frames hstackMap
      simp only [hlines, hstackMap, ↓reduceIte]
      exact hbody (failsOnly_of_exists_ok (hframes htable hoffsets htypes))
    · have hlocals : a.isNamed pool Attribute.localVariablesName = true ∨
          a.isNamed pool Attribute.localVariableTypesName = true := by
        rcases checkAttribute_ok_iff.1 hchecked with h | h | h | h
        · exact absurd h hlines
        · exact Or.inl h
        · exact Or.inr h
        · exact absurd h hstackMap
      simp only [hlines, hstackMap]
      exact hbody (failsOnly_moveVariables (ha.locals hlocals))

theorem failsOnly_checkAttribute {a : Attribute} (hpool : pool.Sound)
    (ha : pool.Names a.nameIndex .utf8) :
    FailsOnly BlamesLimits (checkAttribute pool method a) := by
  obtain ⟨name, hname⟩ := hpool.exists_text ha
  rw [checkAttribute]
  split
  · exact failsOnly_ok _
  · exact failsOnly_bind_ofData hname (failsOnly_refuse _ _)

theorem failsOnly_checkInsertion (boundaries : Std.TreeMap Nat Unit compare) (i : Insertion) :
    FailsOnly BlamesLimits (checkInsertion boundaries method i) := by
  rw [checkInsertion]
  split
  · exact failsOnly_refuse _ _
  · split
    · exact failsOnly_ok _
    · exact failsOnly_refuse _ _

end Mover

/-- Straight code is inserted into a well-formed body unless a part of it cannot be moved. -/
theorem CodeBody.failsOnly_withInsertions {body : CodeBody} {pool : Pool}
    {insertions : List Insertion} {depth : UInt16} {method : String} (hpool : pool.Sound)
    (hbody : body.WellFormed pool)
    (hinserted : ∀ n ∈ insertions, ∀ j ∈ n.code, j.WellFormed ∧ j.opcode.isBranch = false) :
    FailsOnly BlamesLimits (body.withInsertions pool insertions depth method) := by
  obtain ⟨old, hbefore, -, hattributes⟩ := hbody
  refine FailsOnly.bind (failsOnly_forM ?_) fun r hchecked => ?_
  · intro a ha
    exact Mover.failsOnly_checkAttribute hpool (hattributes a ha).name
  refine FailsOnly.unless (fun _ => Mover.refuse_ne_ok) (fun _ => failsOnly_refuse _ _) fun _ => ?_
  refine failsOnly_bind_ofData hbefore ?_
  refine FailsOnly.bind (failsOnly_forM fun n _ => Mover.failsOnly_checkInsertion _ n) fun _ _ => ?_
  refine FailsOnly.unless (fun _ => Mover.refuse_ne_ok) (fun _ => failsOnly_refuse _ _)
    fun hshort => ?_
  refine FailsOnly.bind (failsOnly_mapM fun p hp => ?_) fun _ _ => ?_
  · have hi : p.instruction ∈ old := by
      rw [← Block.map_instruction_place_ofInsertions insertions old]
      exact List.mem_map_of_mem hp
    exact Mover.failsOnly_encodeBlock (reaches_of_mem_place hinserted hp)
      (Code.wellFormed_of_decode hbefore _ hi)
  refine (failsOnly_mapM fun h _ => Mover.failsOnly_moveHandler h).bind fun _ _ => ?_
  refine FailsOnly.bind (failsOnly_mapM fun a ha => ?_) fun _ _ => failsOnly_ok _
  -- boundaries land, so frames are no obstacle
  have hlength : Woven.codeLength (Woven.layOut insertions 0 old) ≤ maxLength := by
    rw [Woven.codeLength_layOut]
    exact Nat.not_lt.1 hshort
  have haligned := aligned_layOut hbefore hlength
  refine Mover.failsOnly_moveAttribute (forM_ok_iff.1 hchecked a ha) (hattributes a ha) ?_
  exact (tracks_layOut method hbefore hlength).exists_moveFrames haligned hlength
    (fun _ hb => (hb.exists_lands haligned.length_eq).1)
    (fun _ hb => (hb.exists_lands haligned.length_eq).2)

/-- A body of permitted length replaces another one but for the limits of its tables. -/
theorem Member.failsOnly_setBody {method : Member} {pool : Pool} {body body' : CodeBody}
    (hbody : method.body? pool = .ok (some body))
    (hlength : body'.code.length ≤ CodeBody.maxLength) :
    FailsOnly Fault.IsLimit (method.setBody pool body') := by
  refine (CodeBody.failsOnly_encode hlength).bind fun info _ => ?_
  rw [body?] at hbody
  cases hattribute : method.attribute? pool Attribute.codeName with
  | none =>
    rw [hattribute] at hbody
    exact absurd (Except.ok.inj hbody) (by simp)
  | some a =>
    simp only [Option.isSome_some, ↓reduceIte]
    exact failsOnly_ok _

/-! ## New constants -/

theorem Pool.failsOnlyFrom_intern {c : Constant} (hc : c ≠ .unusable) (pool : Pool) :
    FailsOnlyFrom Fault.IsLimit pool (intern c) := by
  -- a constant is refused for its length alone
  have hrefusal : ∀ fault, c.refusal = some fault → fault.IsLimit := by
    intro fault h
    cases c with
    | unusable => exact absurd rfl hc
    | utf8 bytes =>
      simp only [Constant.refusal] at h
      split at h
      · rw [← Option.some.inj h]
        trivial
      · exact absurd h (by simp)
    | _ => exact absurd h (by simp [Constant.refusal])
  intro fault pool' h
  rw [intern] at h
  split at h
  · rename_i fault' hrefused
    obtain ⟨rfl, -⟩ := EStateM.Result.error.inj h
    exact hrefusal _ hrefused
  · split at h
    · exact absurd h (by simp)
    · split at h
      · exact absurd h (by simp)
      · -- and one that is added may find the pool full
        obtain ⟨rfl, -⟩ := EStateM.Result.error.inj h
        trivial

namespace Interning

theorem failsOnlyFrom_text (t : String) (pool : Pool) :
    FailsOnlyFrom Fault.IsLimit pool (text t) :=
  Pool.failsOnlyFrom_intern (by simp [Constant.ofText]) pool

theorem failsOnlyFrom_classNamed (name : String) (pool : Pool) :
    FailsOnlyFrom Fault.IsLimit pool (classNamed name) :=
  (failsOnlyFrom_text name pool).bind fun _ _ _ => Pool.failsOnlyFrom_intern (by simp) _

theorem failsOnlyFrom_string (value : String) (pool : Pool) :
    FailsOnlyFrom Fault.IsLimit pool (string value) :=
  (failsOnlyFrom_text value pool).bind fun _ _ _ => Pool.failsOnlyFrom_intern (by simp) _

theorem failsOnlyFrom_nameAndType (name descriptor : String) (pool : Pool) :
    FailsOnlyFrom Fault.IsLimit pool (nameAndType name descriptor) := by
  refine (failsOnlyFrom_text name pool).bind fun _ _ _ => ?_
  exact (failsOnlyFrom_text descriptor _).bind fun _ _ _ => Pool.failsOnlyFrom_intern (by simp) _

theorem failsOnlyFrom_methodRef (m : MemberRef) (pool : Pool) :
    FailsOnlyFrom Fault.IsLimit pool (methodRef m) := by
  refine (failsOnlyFrom_classNamed m.owner pool).bind fun _ _ _ => ?_
  refine (failsOnlyFrom_nameAndType m.name m.descriptor _).bind fun _ _ _ => ?_
  exact Pool.failsOnlyFrom_intern (by simp) _

end Interning

theorem Validator.failsOnlyFrom_check (v : Validator) (site : Site) (pool : Pool) :
    FailsOnlyFrom Fault.IsLimit pool (v.check site) := by
  refine (Interning.failsOnlyFrom_string site.pattern pool).bind fun _ _ _ => ?_
  refine (Interning.failsOnlyFrom_string site.describe _).bind fun _ _ _ => ?_
  exact (Interning.failsOnlyFrom_methodRef v.reference _).bind fun _ _ _ => failsOnlyFrom_pure _ _

/-! ## Guarding -/

namespace Guarding

section Steps

variable {α β : Type} {p : Progress}

theorem failsOnlyFrom_ofExcept {P : GuardError → Prop} {x : Except GuardError α}
    (h : FailsOnly P x) : FailsOnlyFrom P p (ofExcept x) := by
  cases x with
  | ok a => exact failsOnlyFrom_pure a p
  | error e => exact failsOnlyFrom_throw (h e rfl) p

theorem failsOnlyFrom_bind_ofData {P : GuardError → Prop} {x : Except Fault α} {a : α}
    {f : α → Guarding β} (h : x = .ok a) (hf : FailsOnlyFrom P p (f a)) :
    FailsOnlyFrom P p (ofData x >>= f) := by
  rw [h]
  exact hf

theorem failsOnlyFrom_emitting {P : GuardError → Prop} {action : Emission α}
    (h : FailsOnlyFrom P p.file.pool action) : FailsOnlyFrom P p (emitting action) := by
  intro e p' he
  rw [emitting] at he
  cases hrun : action p.file.pool with
  | ok a pool =>
    rw [hrun] at he
    exact absurd he (by simp)
  | error e' pool =>
    rw [hrun] at he
    obtain ⟨rfl, -⟩ := EStateM.Result.error.inj he
    exact h _ _ hrun

theorem failsOnlyFrom_adaptExcept {action : Interning α} {pool : Pool}
    (h : FailsOnlyFrom Fault.IsLimit pool action) :
    FailsOnlyFrom BlamesLimits pool (action.adaptExcept .malformed : Emission α) := by
  intro e pool' he
  rw [EStateM.adaptExcept] at he
  cases hrun : action pool with
  | ok a pool' =>
    rw [hrun] at he
    exact absurd he (by simp)
  | error fault pool' =>
    rw [hrun] at he
    obtain ⟨rfl, -⟩ := EStateM.Result.error.inj he
    exact blamesLimits_malformed (h _ _ hrun)

end Steps

section Runs

variable {v : Validator} {className marker : String} {fields : List FieldPattern}

theorem failsOnlyFrom_insertion (c : Check) (p : Progress) :
    FailsOnlyFrom BlamesLimits p (insertion v.policy c) := by
  refine FailsOnlyFrom.bind (failsOnlyFrom_of_ok rfl) fun _ p₁ _ => ?_
  refine FailsOnlyFrom.bind (failsOnlyFrom_emitting ?_) fun _ p₂ _ => ?_
  · exact failsOnlyFrom_adaptExcept (v.failsOnlyFrom_check c.site p₁.file.pool)
  · refine FailsOnlyFrom.unless (fun _ _ => throw_run_ne_ok) ?_ (failsOnlyFrom_pure _ p₂)
    exact failsOnlyFrom_throw (blamesLimits_unsupported _ _) p₂

theorem failsOnlyFrom_guardBody {report : Report} {index : Nat} {method : Member} {body : CodeBody}
    {p : Progress} (hpool : p.file.pool.Writable) (hmethod : method.IsMethod p.file.pool)
    (hbody : method.body? p.file.pool = .ok (some body)) :
    FailsOnlyFrom BlamesLimits p
      (guardBody v.policy className marker fields report index method body) := by
  have hwell : body.WellFormed p.file.pool := by
    obtain ⟨body?, hbody', hwell⟩ := hmethod.body
    obtain rfl := Except.ok.inj (hbody.symm.trans hbody')
    exact hwell body rfl
  obtain ⟨name, hname⟩ := hmethod.named.name
  obtain ⟨descriptor, hdescriptor⟩ := hmethod.named.descriptor
  refine FailsOnlyFrom.bind (failsOnlyFrom_of_ok rfl) fun before p₁ hbefore => ?_
  obtain ⟨rfl, rfl⟩ := pool_ok_iff.1 hbefore
  refine FailsOnlyFrom.bind (failsOnlyFrom_ofExcept ?_) fun planned p₂ hplan => ?_
  · exact Plan.failsOnly_ofMethod hpool.sound hmethod hwell
  obtain ⟨hplanned, rfl⟩ := ofExcept_ok_iff.1 hplan
  split
  · exact failsOnlyFrom_pure _ p
  refine failsOnlyFrom_bind_ofData hname (failsOnlyFrom_bind_ofData hdescriptor ?_)
  refine FailsOnlyFrom.bind ?_ fun insertions p₃ hinsertions => ?_
  · exact failsOnlyFrom_mapM (fun c _ p => failsOnlyFrom_insertion c p) p
  obtain ⟨sequences, hemits, rfl, -⟩ := mapM_insertion_ok hinsertions
  -- the pool has grown, in which the method is well formed still
  have hgrows := Validator.growsTo_of_reaches hpool hemits.reaches
  have hlength : body.code.length ≤ 4294967296 :=
    Nat.le_trans (Member.length_code_le hbody) (by decide)
  have hstraight := Plan.straight_of_emitsAll hlength hplanned v.straight_policy hemits
  refine FailsOnlyFrom.bind (failsOnlyFrom_of_ok rfl) fun after p₄ hafter => ?_
  obtain ⟨rfl, rfl⟩ := pool_ok_iff.1 hafter
  refine FailsOnlyFrom.bind (failsOnlyFrom_ofExcept ?_) fun body' p₅ hrun => ?_
  · refine CodeBody.failsOnly_withInsertions hgrows.writable.sound
      (hwell.of_extends hgrows.extends_get) fun n hn i hi => ?_
    obtain ⟨hi, hisStraight⟩ := hstraight n hn i hi
    simp only [Instruction.isStraight, Bool.and_eq_true, Bool.not_eq_true'] at hisStraight
    exact ⟨hi, hisStraight.1.1⟩
  obtain ⟨hinserts, rfl⟩ := ofExcept_ok_iff.1 hrun
  obtain ⟨old, woven, hexpansion, -⟩ := CodeBody.exists_expansion hinserts
  have hbody' := hbody
  rw [← hmethod.named.body?_of_extends hgrows.extends_get] at hbody'
  refine FailsOnlyFrom.bind (failsOnlyFrom_ofExcept (failsOnly_ofData ?_)) fun _ p₆ _ => ?_
  · exact Member.failsOnly_setBody hbody' hexpansion.length_le
  exact FailsOnlyFrom.bind (failsOnlyFrom_of_ok rfl) fun _ p₇ _ => failsOnlyFrom_pure _ p₇

theorem failsOnlyFrom_guardMethod {report : Report} {index : Nat} {method : Member} {p : Progress}
    (hpool : p.file.pool.Writable) (hmethod : method.IsMethod p.file.pool) :
    FailsOnlyFrom BlamesLimits p
      (guardMethod v.policy className marker fields report (method, index)) := by
  obtain ⟨body?, hbody, -⟩ := hmethod.body
  refine FailsOnlyFrom.bind (failsOnlyFrom_of_ok rfl) fun before p₁ hbefore => ?_
  obtain ⟨rfl, rfl⟩ := pool_ok_iff.1 hbefore
  refine failsOnlyFrom_bind_ofData hbody ?_
  cases body? with
  | none => exact failsOnlyFrom_pure _ p
  | some body => exact failsOnlyFrom_guardBody hpool hmethod hbody

/-- The methods stay well formed while the pool grows, so that limits alone end the work. -/
theorem failsOnlyFrom_foldlM_guardMethod {report : Report} {done rest : List Member} {p : Progress}
    (hpool : p.file.pool.Writable) (hmethods : p.file.methods = done ++ rest)
    (hrest : ∀ m ∈ rest, m.IsMethod p.file.pool) :
    FailsOnlyFrom BlamesLimits p ((rest.zipIdx done.length).foldlM
      (guardMethod v.policy className marker fields) report) := by
  induction rest generalizing done report p with
  | nil => exact failsOnlyFrom_pure _ p
  | cons method rest ih =>
    obtain ⟨hmethod, hrest⟩ := List.forall_mem_cons.1 hrest
    rw [List.zipIdx_cons, List.foldlM_cons]
    refine (failsOnlyFrom_guardMethod hpool hmethod).bind fun report₁ p₁ hstep => ?_
    obtain ⟨plan, method', hstep, -, hfile⟩ := guardMethod_ok (by rw [hmethods]; simp) hstep
    have hgrows := Validator.growsTo_of_reaches hpool hstep.reaches
    have hmethods' : p₁.file.methods = (done ++ [method']) ++ rest := by
      rw [hfile, hmethods]
      simp
    have hlength : done.length + 1 = (done ++ [method']).length := by simp
    rw [hlength]
    exact ih hgrows.writable hmethods' fun m hm => (hrest m hm).of_extends hgrows.extends_get

theorem failsOnlyFrom_markGuarded (p : Progress) : FailsOnlyFrom BlamesLimits p markGuarded := by
  refine FailsOnlyFrom.bind (failsOnlyFrom_emitting ?_) fun _ _ _ => failsOnlyFrom_of_ok rfl
  exact failsOnlyFrom_adaptExcept (Interning.failsOnlyFrom_text guardedName p.file.pool)

/-- If a well-formed class cannot be guarded and class data are at fault, they are constants or
tables that would grow beyond a limit of the format. -/
theorem blamesLimits_of_guardClass {p : Progress} (hfile : p.file.Sound)
    (hpool : p.file.pool.Writable) (hwell : p.file.WellFormed) :
    FailsOnlyFrom BlamesLimits p (guardClass v.policy marker) := by
  obtain ⟨className, hname⟩ := hfile.thisClass
  refine FailsOnlyFrom.bind (failsOnlyFrom_of_ok rfl) fun p₀ p₁ hget => ?_
  obtain ⟨rfl, rfl⟩ := get_run_ok_iff.1 hget
  simp only
  split
  · exact failsOnlyFrom_pure _ p
  refine failsOnlyFrom_bind_ofData hname ?_
  refine FailsOnlyFrom.unless (fun _ _ => throw_run_ne_ok) ?_ ?_
  · exact failsOnlyFrom_throw (blamesLimits_alreadyGuarded _) p
  refine FailsOnlyFrom.bind (failsOnlyFrom_ofExcept ?_) fun fields p₂ hfields => ?_
  · exact Plan.failsOnly_markedFields hpool.sound hwell.fields
  obtain ⟨-, rfl⟩ := ofExcept_ok_iff.1 hfields
  refine FailsOnlyFrom.bind ?_ fun report p₃ _ => ?_
  · exact failsOnlyFrom_foldlM_guardMethod hpool (List.nil_append _).symm hwell.methods
  split
  · exact (failsOnlyFrom_markGuarded p₃).bind fun _ p₄ _ => failsOnlyFrom_pure _ p₄
  · exact failsOnlyFrom_pure _ p₃

end Runs

end Guarding

end PatternGuard
