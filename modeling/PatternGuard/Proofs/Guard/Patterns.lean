import PatternGuard.Proofs.Guard.Sites
import PatternGuard.Proofs.Guard.Validator

/-!
# Which pattern a validator receives

A check begins with loading a string constant. Its text is that of the pattern which the marker of
the site names, decoded when the marker is looked at and encoded again when the constant is made
(`Guarding.patterns_of_guardClass`). The bytes stay the same unless the marker names text in a form
that is not written: longer than necessary, or with a surrogate out of a pair.
-/

set_option autoImplicit false

namespace PatternGuard

open Outcome Text

/-! ## Constants that are loaded -/

/-- The code begins with an instruction that loads a string constant with a text of these bytes. -/
def Pool.LoadsText (pool : Pool) (code : List Instruction) (bytes : List UInt8) : Prop :=
  ∃ load rest index value, code = load :: rest ∧ load.poolIndex? = some index ∧
    pool.get? index = some (.string value) ∧ pool.get? value = some (.utf8 bytes)

theorem Pool.LoadsText.of_extends {pool pool' : Pool} {code : List Instruction}
    {bytes : List UInt8} (hextends : pool.Extends pool') (h : pool.LoadsText code bytes) :
    pool'.LoadsText code bytes := by
  obtain ⟨load, rest, index, value, hcode, hload, hindex, hvalue⟩ := h
  exact ⟨load, rest, index, value, hcode, hload, hextends _ _ hindex, hextends _ _ hvalue⟩

/-- Code loads one text. -/
theorem Pool.LoadsText.eq {pool : Pool} {code : List Instruction} {bytes bytes' : List UInt8}
    (h : pool.LoadsText code bytes) (h' : pool.LoadsText code bytes') : bytes' = bytes := by
  obtain ⟨load, rest, index, value, rfl, hload, hindex, hvalue⟩ := h
  obtain ⟨load', rest', index', value', hcode, hload', hindex', hvalue'⟩ := h'
  obtain ⟨rfl, -⟩ := List.cons.inj hcode
  obtain rfl := Option.some.inj (hload.symm.trans hload')
  rw [hindex] at hindex'
  obtain rfl := Constant.string.inj (Option.some.inj hindex')
  rw [hvalue] at hvalue'
  exact (Constant.utf8.inj (Option.some.inj hvalue')).symm

theorem Instruction.poolIndex?_constant {opcode : Opcode} (htakes : opcode.takesConstant = true)
    (hform : opcode.form ≠ .constantByte) (index : UInt16) :
    (constant opcode index).poolIndex? = some index := by
  have hbytes : UInt16.ofNat (Bytes.ofBytes (Bytes.u16Bytes index)) = index := by
    have hlt : index.toNat < 256 ^ 2 := index.toNat_lt
    rw [Bytes.u16Bytes, Bytes.ofBytes_toBytes_of_lt hlt, UInt16.ofNat_toNat]
  have hopcode : (constant opcode index).opcode = opcode := rfl
  rw [poolIndex?, hopcode, if_pos htakes]
  cases hcase : opcode.form with
  | constantByte => exact absurd hcase hform
  | _ => exact congrArg some hbytes

namespace Validator

variable {v : Validator} {pool pool' first last : Pool}

theorem poolIndex?_load (index : UInt16) : (load index).poolIndex? = some index := by
  rw [load]
  split
  · rename_i hshort
    have hbyte : index.toUInt8.toUInt16 = index := by
      rw [← UInt16.toNat_inj]
      have hle : index.toNat ≤ 255 := UInt16.le_iff_toNat_le.1 hshort
      simp
      omega
    exact congrArg some hbyte
  · exact Instruction.poolIndex?_constant rfl (by decide) index

/-- A check loads the pattern of its site first. -/
theorem loadsText_check {site : Site} {code : List Instruction} (hpool : pool.Writable)
    (h : v.check site pool = .ok code pool') :
    pool'.LoadsText code (ModifiedUtf8.encode site.pattern) := by
  obtain ⟨pattern, pool₁, description, pool₂, method, hpattern, hdescription, hmethod, rfl⟩ :=
    exists_interned_of_check h
  obtain ⟨hgrows₁, value, hstring, htext⟩ := Interning.string_ok hpool hpattern
  obtain ⟨hgrows₂, -⟩ := Interning.string_ok hgrows₁.writable hdescription
  have hgrows₃ := Interning.methodRef_ok hgrows₂.writable hmethod
  -- the constants of the pattern stay where they are while the others are added
  have hextends := (hgrows₂.trans hgrows₃).extends_get
  exact ⟨_, _, pattern, value, rfl, poolIndex?_load pattern, hextends _ _ hstring,
    hextends _ _ htext⟩

theorem loadsText_of_emitsAll {cs : List Check} {sequences : List (List Instruction)}
    (hfirst : first.Writable) (h : v.policy.EmitsAll first cs sequences last) :
    ∀ c ∈ cs.zip sequences, last.LoadsText c.2 (ModifiedUtf8.encode c.1.site.pattern) := by
  induction h with
  | nil pool => exact fun c hc => absurd hc List.not_mem_nil
  | @cons first next last c sequence cs sequences hemit _ hrest ih =>
    have hcheck := Guarding.adaptExcept_ok_iff.1 hemit
    have hgrows := (check_ok hcheck).2 hfirst
    have hgrows' := growsTo_of_reaches hgrows.writable hrest.reaches
    refine List.forall_mem_cons.2 ⟨?_, ih hgrows.writable⟩
    exact (loadsText_check hfirst hcheck).of_extends hgrows'.extends_get

end Validator

/-! ## Texts that markers name -/

namespace Plan

section Markers

variable {file : ClassFile} {className marker : String} {pool : Pool} {method : Member}

/-- The bytes of the text that the marker of a checked site names as its pattern. -/
inductive MarkerNames (file : ClassFile) (className marker : String)
    (view : MethodView pool method) (is : List Instruction) (c : Check) : List UInt8 → Prop
  | parameter {parameter : List Annotation × Nat} {bytes : List UInt8}
      (mem : parameter ∈ view.parameters.zipIdx)
      (site : IsParameterSite className marker view parameter c)
      (names : PatternBytes parameter.1 pool marker bytes) :
      MarkerNames file className marker view is c bytes
  | returned {i : Instruction} {bytes : List UInt8} (mem : i ∈ is)
      (site : IsGuardSite file className marker view i c) (opcode : i.opcode = .areturn)
      (names : PatternBytes view.annotations pool marker bytes) :
      MarkerNames file className marker view is c bytes
  /-- The marker of a field is that of its last marked declaration. -/
  | field {i : Instruction} {target : MemberRef} {front back : List Member} {field : Member}
      {annotations : List Annotation} {bytes : List UInt8} (mem : i ∈ is)
      (site : IsGuardSite file className marker view i c)
      (stores : Stores pool className i target) (fields : file.fields = front ++ field :: back)
      (marked : field.MarkedAs file.pool marker target.name target.descriptor)
      (last : ∀ later ∈ back, ¬later.MarkedAs file.pool marker target.name target.descriptor)
      (annotations_eq : field.annotations file.pool = .ok annotations)
      (names : PatternBytes annotations file.pool marker bytes) :
      MarkerNames file className marker view is c bytes

variable {view : MethodView pool method} {is : List Instruction} {c : Check}

theorem IsParameterSite.exists_markerNames {parameter : List Annotation × Nat}
    (h : IsParameterSite className marker view parameter c)
    (hparameter : parameter ∈ view.parameters.zipIdx) :
    ∃ bytes, MarkerNames file className marker view is c bytes ∧
      ModifiedUtf8.decode bytes = .ok c.site.pattern := by
  obtain ⟨bytes, hnames, hdecode⟩ := h.pattern
  exact ⟨bytes, .parameter hparameter h hnames, hdecode⟩

theorem IsGuardSite.exists_markerNames {i : Instruction}
    (h : IsGuardSite file className marker view i c) (hi : i ∈ is) :
    ∃ bytes, MarkerNames file className marker view is c bytes ∧
      ModifiedUtf8.decode bytes = .ok c.site.pattern := by
  have hsubject := h.subject
  generalize hkind : c.site.kind = kind at hsubject
  generalize hpattern : c.site.pattern = pattern at hsubject
  cases hsubject with
  | returned opcode hasPattern =>
    obtain ⟨bytes, hnames, hdecode⟩ := hasPattern
    exact ⟨bytes, .returned hi h opcode hnames, hdecode⟩
  | field stores last =>
    obtain ⟨front, field, back, hfields, hgives, hback⟩ := last
    have hmarked := hgives.markedAs
    obtain ⟨-, -, annotations, hannotations, bytes, hnames, hdecode⟩ := hgives
    exact ⟨bytes, .field hi h stores hfields hmarked hback hannotations hnames, hdecode⟩

/-- What a marker names is an entry of the pool. -/
theorem MarkerNames.exists_entry {bytes : List UInt8}
    (h : MarkerNames file className marker view is c bytes) :
    ∃ index, pool.get? index = some (.utf8 bytes) ∨ file.pool.get? index = some (.utf8 bytes) := by
  cases h with
  | parameter _ _ names | returned _ _ _ names =>
    obtain ⟨a, index, -, -, hget⟩ := names
    exact ⟨index, Or.inl hget⟩
  | field _ _ _ _ _ _ _ names =>
    obtain ⟨a, index, -, -, hget⟩ := names
    exact ⟨index, Or.inr hget⟩

/-- Each check of a plan has the pattern that its marker names. -/
theorem exists_markerNames {fields : List FieldPattern} {body : CodeBody} {planned : List Check}
    (hfields : markedFields file className marker = .ok fields)
    (his : body.instructions = .ok is)
    (h : ofMethod className marker fields pool method body = .ok planned) :
    ∃ view : MethodView pool method, ∀ c ∈ planned,
      ∃ bytes, MarkerNames file className marker view is c bytes ∧
        ModifiedUtf8.decode bytes = .ok c.site.pattern := by
  obtain ⟨view, parameters, guards, rfl, hparameters, hguards⟩ := ofMethod_sites hfields his h
  refine ⟨view, fun c hc => ?_⟩
  rcases List.mem_append.1 hc with hc | hc
  · obtain ⟨parameter, hzip, hsite⟩ := exists_mem_zip_of_mem_right hparameters hc
    exact hsite.exists_markerNames (List.mem_of_mem_filter (List.of_mem_zip hzip).1)
  · obtain ⟨i, hzip, hsite⟩ := exists_mem_zip_of_mem_right hguards hc
    exact hsite.exists_markerNames (List.mem_of_mem_filter (List.of_mem_zip hzip).1)

end Markers

end Plan

namespace Rewriting

variable {v : Validator} {className marker : String} {fields : List FieldPattern}
  {method method' : Member}

/-- The checks of a rewritten method load what their markers name: in `pool` the string constant
that a check loads has the text that is read from the bytes which the marker names. -/
structure LoadsPatterns (r : Rewriting v.policy className marker fields method method')
    (file : ClassFile) (pool : Pool) (old : List Instruction) (woven : List Woven) : Prop where
  unavoidable : r.Unavoidable old woven
  /-- What the markers name stays in the pool. -/
  before : r.before.Extends pool
  checks : ∃ view : MethodView r.before method, ∀ c ∈ r.checks,
    ∃ bytes, Plan.MarkerNames file className marker view old c.1 bytes ∧
      ModifiedUtf8.decode bytes = .ok c.1.site.pattern ∧
      pool.LoadsText c.2 (ModifiedUtf8.encode c.1.site.pattern) ∧
      (pool.LoadsText c.2 bytes ↔ ∃ us, Paired us ∧ bytes = us.flatMap ModifiedUtf8.encodeUnit)

theorem exists_loadsPatterns (r : Rewriting v.policy className marker fields method method')
    {file : ClassFile} {pool : Pool}
    (hfields : Plan.markedFields file className marker = .ok fields)
    (hbefore : r.before.Writable) (hafter : r.after.Extends pool) :
    ∃ old woven, r.LoadsPatterns file pool old woven := by
  obtain ⟨old, woven, hunavoidable⟩ := r.unavoidable v.straight_policy
  obtain ⟨view, hnames⟩ :=
    Plan.exists_markerNames hfields hunavoidable.before r.planned_eq
  have hgrows := Validator.growsTo_of_reaches hbefore r.emits.reaches
  have hloads := Validator.loadsText_of_emitsAll hbefore r.emits
  refine ⟨old, woven, hunavoidable, hgrows.extends_get.trans hafter, view, fun c hc => ?_⟩
  obtain ⟨bytes, hbytes, hdecode⟩ := hnames c.1 (r.planned_of_mem_checks hc)
  have hload := (hloads c hc).of_extends hafter
  refine ⟨bytes, hbytes, hdecode, hload, ?_⟩
  rw [← ModifiedUtf8.encode_eq_iff hdecode]
  constructor
  · intro hsame
    exact hsame.eq hload
  · intro hsame
    rwa [hsame] at hload

end Rewriting

namespace Guarding

/-- In a class that was read, every check loads the pattern that its marker names. The string that
it receives is written as the very bytes which the marker names exactly if these are the bytes, in
the shortest forms, of code units whose surrogates are paired; in any case it is written as what is
read from them. -/
theorem patterns_of_guardClass {v : Validator} {marker : String} {input : List UInt8}
    {file : ClassFile} {report : Report} {p' : Progress}
    (hparse : ClassFile.parse input = .ok file)
    (h : guardClass v.policy marker ⟨file, #[]⟩ = .ok report p') :
    (file.isModule = true ∧ report = ⟨0, 0⟩ ∧ p'.file = file) ∨
      ∃ className fields, file.name = .ok className ∧
        Plan.markedFields file className marker = .ok fields ∧
        List.Forall₂ (fun method method' =>
          Unchecked v.policy className marker fields file.pool method method' ∨
          ∃ (r : Rewriting v.policy className marker fields method method')
            (old : List Instruction) (woven : List Woven),
            r.LoadsPatterns file p'.file.pool old woven)
          file.methods p'.file.methods := by
  have hpool : file.pool.Writable := ClassFile.writable_of_parse hparse
  rcases guardClass_grows hpool h with ⟨hmodule, hreport, rfl⟩ | ⟨className, fields, methods, pool,
    attributes, hname, hfields, hbefore, hafter, hresults, -, hp'⟩
  · exact Or.inl ⟨hmodule, hreport, rfl⟩
  · have hmethods : p'.file.methods = methods := by rw [hp']
    rw [hmethods]
    refine Or.inr ⟨className, fields, hname, hfields, hresults.imp fun m m' hresult => ?_⟩
    rcases hresult.cases_unchecked with hunchecked | ⟨r, hfirst, hlast⟩
    · exact Or.inl hunchecked
    · have hto := Validator.growsTo_of_reaches hpool hfirst
      have hemits := Validator.growsTo_of_reaches hto.writable r.emits.reaches
      have hfrom := Validator.growsTo_of_reaches hemits.writable hlast
      obtain ⟨old, woven, hloads⟩ := r.exists_loadsPatterns hfields hto.writable
        (hfrom.extends_get.trans hafter.extends_get)
      exact Or.inr ⟨r, old, woven, hloads⟩

/-- The bytes of the class with the marked method, where the text that both markers name is a
surrogate alone. -/
def surrogateBytes : List UInt8 :=
  let pool := [.ofText "A", .classEntry 1, .ofText "f", .ofText "(LA;)LA;", .ofText "Code",
    .ofText "RuntimeVisibleAnnotations", .ofText "RuntimeVisibleParameterAnnotations",
    .ofText "Lm;", .ofText "value", .utf8 [0xED, 0xA0, 0x80]].foldl Pool.append .empty
  match ({ markedClass with pool } : ClassFile).toBytes with
  | .ok bytes => bytes
  | .error _ => []

/-- The validator that is called in the examples. -/
def shortValidator : Validator := ⟨"V", "v"⟩

/-- The checks of the marked method in this class. -/
def replacedChecks : List Check :=
  [⟨0, false, .simple .aload_0, ⟨"A", "f", .parameter 0 0, "\ufffd"⟩⟩,
    ⟨5, true, .simple .dup, ⟨"A", "f", .returned, "\ufffd"⟩⟩]

theorem exists_run_surrogateBytes : ∃ file, ClassFile.parse surrogateBytes = .ok file ∧
    ∃ report p', guardClass shortValidator.policy "Lm;" ⟨file, #[]⟩ = .ok report p' ∧
      report.changed = true ∧ file.methods = [markedMethod] ∧ file.name = .ok "A" ∧
      Plan.markedFields file "A" "Lm;" = .ok [] ∧
      Constant.utf8 (ModifiedUtf8.encode "\ufffd") ∉ file.pool.entries.toList ∧
      ∃ body?, markedMethod.body? file.pool = .ok body? ∧ ∃ body ∈ body?,
        Plan.ofMethod "A" "Lm;" [] file.pool markedMethod body = .ok replacedChecks := by
  have hplan : ∃ file, ClassFile.parse surrogateBytes = .ok file ∧
      file.methods = [markedMethod] ∧ file.name = .ok "A" ∧
      Plan.markedFields file "A" "Lm;" = .ok [] ∧
      Constant.utf8 (ModifiedUtf8.encode "\ufffd") ∉ file.pool.entries.toList ∧
      ∃ body?, markedMethod.body? file.pool = .ok body? ∧ ∃ body ∈ body?,
        Plan.ofMethod "A" "Lm;" [] file.pool markedMethod body = .ok replacedChecks := by
    decide +kernel
  have hrun : ∃ file, ClassFile.parse surrogateBytes = .ok file ∧ ∃ report p',
      guardClass shortValidator.policy "Lm;" ⟨file, #[]⟩ = .ok report p' ∧
        report.changed = true := by
    decide +kernel
  obtain ⟨file, hparse, hfile⟩ := hplan
  obtain ⟨_, hparse', report, p', hguard, hchanged⟩ := hrun
  obtain rfl := Except.ok.inj (hparse.symm.trans hparse')
  exact ⟨file, hparse, report, p', hguard, hchanged, hfile⟩

theorem exists_patterns_surrogateBytes : ∃ file report p' className fields,
    ClassFile.parse surrogateBytes = .ok file ∧
    guardClass shortValidator.policy "Lm;" ⟨file, #[]⟩ = .ok report p' ∧
    List.Forall₂ (fun method method' =>
      Unchecked shortValidator.policy className "Lm;" fields file.pool method method' ∨
      ∃ (r : Rewriting shortValidator.policy className "Lm;" fields method method')
        (old : List Instruction) (woven : List Woven),
        r.LoadsPatterns file p'.file.pool old woven) [markedMethod] p'.file.methods := by
  obtain ⟨file, hparse, report, p', hrun, hchanged, hmethods, -⟩ := exists_run_surrogateBytes
  rcases patterns_of_guardClass hparse hrun with ⟨-, rfl, -⟩ | ⟨className, fields, -, -, hall⟩
  · exact absurd hchanged (by decide)
  · rw [hmethods] at hall
    exact ⟨file, report, p', className, fields, hparse, hrun, hall⟩

/-- A check of this class loads other bytes than any that its marker names. -/
theorem exists_replaced_pattern : ∃ (file : ClassFile) (report : Report) (p' : Progress)
    (fields : List FieldPattern) (method' : Member)
    (r : Rewriting shortValidator.policy "A" "Lm;" fields markedMethod method'),
    ClassFile.parse surrogateBytes = .ok file ∧
    guardClass shortValidator.policy "Lm;" ⟨file, #[]⟩ = .ok report p' ∧
    method' ∈ p'.file.methods ∧ ∃ (old : List Instruction) (woven : List Woven)
      (view : MethodView r.before markedMethod), r.Unavoidable old woven ∧
      ∃ c ∈ r.checks, (∃ bytes, Plan.MarkerNames file "A" "Lm;" view old c.1 bytes) ∧
        ∀ bytes, Plan.MarkerNames file "A" "Lm;" view old c.1 bytes →
          ¬p'.file.pool.LoadsText c.2 bytes := by
  obtain ⟨file, hparse, report, p', hrun, hchanged, hmethods, hname, hfields, hentries, _, hbody,
    body, rfl, hplan⟩ := exists_run_surrogateBytes
  rcases guardClass_ok hrun with ⟨-, rfl, -⟩ | ⟨className, fields, plans, methods, pool, hname',
    hfields', hsteps, hreport, ⟨hunchanged, -⟩ | ⟨-, index, last, htext, hfile⟩⟩
  · exact absurd hchanged (by decide)
  · rw [hunchanged] at hchanged
    exact absurd hchanged Bool.false_ne_true
  · obtain rfl := Except.ok.inj (hname.symm.trans hname')
    obtain rfl := Except.ok.inj (hfields.symm.trans hfields')
    have hpool := ClassFile.writable_of_parse hparse
    have hgrows := Validator.growsTo_of_reaches hpool hsteps.reaches
    obtain ⟨hgrows', -⟩ := Interning.text_ok hgrows.writable htext
    simp only [hmethods] at hsteps
    obtain ⟨method', plan, hstep, rfl, rfl⟩ := hsteps.of_singleton
    have hne : plan ≠ [] := by
      rintro rfl
      rw [hreport] at hchanged
      exact absurd hchanged (by decide)
    obtain ⟨r, hbefore, -, rfl, -⟩ := hstep.exists_rewriting hne
    have hplanned := r.planned_eq_of_before hbefore hbody hplan
    have hextends : r.after.Extends p'.file.pool := by
      rw [hfile]
      exact hgrows'.extends_get
    have hmem : method' ∈ p'.file.methods := by
      rw [hfile]
      exact List.mem_cons_self
    obtain ⟨old, woven, hloads⟩ := r.exists_loadsPatterns hfields (hbefore ▸ hpool) hextends
    obtain ⟨view, hchecks⟩ := hloads.checks
    have hsome : r.checks ≠ [] := by
      intro hnil
      have hfst := r.map_fst_checks
      rw [hnil] at hfst
      exact r.planned_ne_nil hfst.symm
    obtain ⟨c, hc⟩ := List.exists_mem_of_ne_nil _ hsome
    have hpattern : c.1.site.pattern = "\ufffd" := by
      have hall : ∀ c ∈ replacedChecks, c.site.pattern = "\ufffd" := by decide
      exact hall _ (hplanned ▸ r.planned_of_mem_checks hc)
    obtain ⟨bytes, hnames, -, hload, -⟩ := hchecks c hc
    refine ⟨file, report, p', [], method', r, hparse, hrun, hmem, old, woven, view,
      hloads.unavoidable, c, hc, ⟨bytes, hnames⟩, ?_⟩
    intro bytes' hnames' hload'
    -- the text that the check loads is none of those that the class had when it was read
    obtain ⟨index, hget⟩ := hnames'.exists_entry
    rw [hbefore, or_self, hload.eq hload', hpattern] at hget
    exact hentries (List.mem_of_getElem? (Pool.get?_eq_some_iff.1 hget).1)

end Guarding

end PatternGuard
