import PatternGuard.Proofs.Guard.Paths
import PatternGuard.Proofs.Guard.Tables

/-!
# Ranges follow their instructions

A range of old code, that of a handler or of a variable, becomes the range of the same instructions
and of the guard code in front of them (`CodeBody.Expansion.sameCover`), and the row that tells the
line of an instruction tells it afterwards (`CodeBody.Expansion.governs_iff`). The checks of the
parameters, which are executed on entry, are in no range of a handler
(`Rewriting.not_covers_of_mem_entry`).
-/

set_option autoImplicit false

namespace PatternGuard

open Outcome

/-! ## Ranges -/

/-- Whether the handler handles exceptions at an offset. -/
def Handler.Covers (h : Handler) (offset : Nat) : Prop :=
  h.start.toNat ≤ offset ∧ offset < h.stop.toNat

/-- Whether the variable has a value at an offset. -/
def LocalVariable.Covers (v : LocalVariable) (offset : Nat) : Prop :=
  v.start.toNat ≤ offset ∧ offset < v.start.toNat + v.length.toNat

/-- The row tells the line at an offset: it begins at or before the offset, and no other row that
does so begins behind it. -/
def LineNumber.Governs (rows : List LineNumber) (offset : Nat) (l : LineNumber) : Prop :=
  l ∈ rows ∧ l.start.toNat ≤ offset ∧
    ∀ k ∈ rows, k.start.toNat ≤ offset → k.start.toNat ≤ l.start.toNat

/-- The new range covers a moved instruction, and each instruction of the guard code in front of it,
exactly if the old range covered the old instruction. -/
def Woven.SameCover (old : List Instruction) (woven : List Woven) (covers covers' : Nat → Prop) :
    Prop :=
  ∀ i w, (i, w) ∈ old.zip woven → ∀ j ∈ w.segment, covers' j.offset ↔ covers i.offset

/-- The ranges of `body'` are the ranges of `body`, for the instructions that have moved. -/
structure CodeBody.RangesFollow (pool : Pool) (body body' : CodeBody) (old : List Instruction)
    (woven : List Woven) : Prop where
  handlers : List.Forall₂ (fun h h' => Woven.SameCover old woven h.Covers h'.Covers ∧
    Woven.Lands old body.code.length woven body'.code.length h.target.toNat h'.target.toNat ∧
    h'.catchType = h.catchType) body.handlers body'.handlers
  /-- The ends of a variable's range land, and its length is the distance between them. -/
  locals : List.Forall₂ (fun a a' => a.isNamed pool Attribute.localVariablesName = true ∨
      a.isNamed pool Attribute.localVariableTypesName = true → ∃ rows rows',
    LocalVariable.decodeTable a.info = .ok rows ∧ LocalVariable.decodeTable a'.info = .ok rows' ∧
      List.Forall₂ (fun v v' => Woven.SameCover old woven v.Covers v'.Covers ∧
        v.Follows (Woven.Lands old body.code.length woven body'.code.length) v') rows rows')
    body.attributes body'.attributes
  lines : List.Forall₂ (fun a a' => a.isNamed pool Attribute.lineNumbersName = true →
    ∃ rows rows', LineNumber.decodeTable a.info = .ok rows ∧
      LineNumber.decodeTable a'.info = .ok rows' ∧
      List.Forall₂ (fun l l' =>
        l.Follows (Woven.Lands old body.code.length woven body'.code.length) l' ∧
        ∀ i w, (i, w) ∈ old.zip woven →
          (LineNumber.Governs rows' w.moved.offset l' ↔ LineNumber.Governs rows i.offset l))
        rows rows')
    body.attributes body'.attributes

namespace Woven.Aligned

variable {old : List Instruction} {oldLength newLength : Nat} {woven : List Woven}

/-- A range between landings covers what the range between the old offsets covered. -/
theorem sameCover (h : Aligned old oldLength woven newLength) {start stop start' stop' : Nat}
    (hstart : Lands old oldLength woven newLength start start')
    (hstop : Lands old oldLength woven newLength stop stop') :
    SameCover old woven (fun offset => start ≤ offset ∧ offset < stop)
      (fun offset => start' ≤ offset ∧ offset < stop') := by
  intro i w hiw j hj
  have hle := h.landing_le_iff hstart hiw hj
  have hlt := h.landing_le_iff hstop hiw hj
  simp only
  omega

/-- A row that tells the line of an instruction tells the line of the moved instruction. -/
theorem governs_iff (h : Aligned old oldLength woven newLength) {rows rows' : List LineNumber}
    (hrows : List.Forall₂ (LineNumber.Follows (Lands old oldLength woven newLength)) rows rows')
    {l l' : LineNumber} (hl : (l, l') ∈ rows.zip rows') {i : Instruction} {w : Woven}
    (hiw : (i, w) ∈ old.zip woven) :
    LineNumber.Governs rows' w.moved.offset l' ↔ LineNumber.Governs rows i.offset l := by
  -- a row stands in front of the instruction as before, and rows stand in the order as before
  have hbegins : ∀ {k k'}, (k, k') ∈ rows.zip rows' →
      (k'.start.toNat ≤ w.moved.offset ↔ k.start.toNat ≤ i.offset) ∧
      (k'.start.toNat ≤ l'.start.toNat ↔ k.start.toNat ≤ l.start.toNat) := by
    intro k k' hk
    have hfollows := List.forall₂_zip hrows hk
    have hfollows' := List.forall₂_zip hrows hl
    exact ⟨h.landing_le_iff hfollows.start hiw w.moved_mem_segment,
      h.lands_le_iff hfollows.start hfollows'.start⟩
  obtain ⟨hmem, hmem'⟩ := List.of_mem_zip hl
  constructor
  · rintro ⟨-, hle, hlast⟩
    refine ⟨hmem, (hbegins hl).1.1 hle, ?_⟩
    intro k hk hkle
    obtain ⟨k', hkk', -⟩ := exists_mem_zip_of_forall₂ hrows hk
    obtain ⟨hoffset, hstart⟩ := hbegins hkk'
    exact hstart.1 (hlast k' (List.of_mem_zip hkk').2 (hoffset.2 hkle))
  · rintro ⟨-, hle, hlast⟩
    refine ⟨hmem', (hbegins hl).1.2 hle, ?_⟩
    intro k' hk' hkle
    obtain ⟨k, hkk', -⟩ := exists_mem_zip_of_mem_right hrows hk'
    obtain ⟨hoffset, hstart⟩ := hbegins hkk'
    exact hstart.2 (hlast k (List.of_mem_zip hkk').1 (hoffset.1 hkle))

end Woven.Aligned

/-- Insertion keeps every range for the instructions in it. -/
theorem CodeBody.exists_rangesFollow {body body' : CodeBody} {pool : Pool}
    {insertions : List Insertion} {depth : UInt16} {method : String}
    (h : body.withInsertions pool insertions depth method = .ok body') :
    ∃ old woven, body.Expansion insertions body' old woven ∧
      body.RangesFollow pool body' old woven := by
  obtain ⟨old, woven, hexpansion, hattributes⟩ := exists_expansion_follows h
  have haligned := hexpansion.aligned
  refine ⟨old, woven, hexpansion, ?_, ?_, ?_⟩
  · refine hexpansion.handlers.imp fun h h' hfollows => ?_
    exact ⟨haligned.sameCover hfollows.start hfollows.stop, hfollows.target, hfollows.catchType⟩
  · refine hattributes.imp fun a a' hfollows hnamed => ?_
    obtain ⟨rows, rows', hrows, hrows', hrow⟩ := hfollows.locals hnamed
    refine ⟨rows, rows', hrows, hrows', hrow.imp fun v v' hv => ?_⟩
    exact ⟨haligned.sameCover hv.start hv.stop, hv⟩
  · refine hattributes.imp fun a a' hfollows hnamed => ?_
    obtain ⟨rows, rows', hrows, hrows', hrow⟩ := hfollows.lines hnamed
    refine ⟨rows, rows', hrows, hrows', List.forall₂_iff_zip.2 ⟨hrow.length_eq, ?_⟩⟩
    intro l l' hl
    exact ⟨List.forall₂_zip hrow hl, fun i w hiw => haligned.governs_iff hrow hl hiw⟩

/-! ## Entry code -/

namespace Rewriting

variable {policy : Policy} {className marker : String} {fields : List FieldPattern}
  {method method' : Member}

/-- Entry code stands in front of the first instruction only. -/
theorem entry_eq_nil_of_mem_tail (r : Rewriting policy className marker fields method method')
    {old : List Instruction} {woven : List Woven}
    (h : r.body.Expansion r.insertions r.body' old woven) {w : Woven} (hw : w ∈ woven.tail) :
    w.entry = [] :=
  Woven.entry_eq_nil_of_mem_tail h.filled h.replaces
    r.offset_eq_zero_of_mem_insertions hw

/-- The entry code of a rewritten body are the checks of the parameters, in order. -/
theorem map_bare_entry (r : Rewriting policy className marker fields method method')
    {old : List Instruction} {woven : List Woven}
    (h : r.body.Expansion r.insertions r.body' old woven) :
    (woven.flatMap Woven.entry).map Instruction.bare = r.entryCode.map Instruction.bare := by
  have hnil := fun w hw => r.entry_eq_nil_of_mem_tail h (w := w) hw
  cases hreplaces : h.replaces with
  | nil =>
    obtain ⟨n, hn⟩ := List.exists_mem_of_ne_nil _ r.insertions_ne_nil
    obtain ⟨i, hi, -⟩ := h.boundary n hn
    exact absurd hi List.not_mem_nil
  | @cons i first is rest hfirst _ =>
    have hrest : rest.flatMap Woven.entry = [] := List.flatMap_eq_nil_iff.2 hnil
    rw [List.flatMap_cons, hrest, List.append_nil, hfirst.entry,
      h.filled.offset_eq_zero, r.codeAt_zero]

/-- The checks of the parameters are in no range of a handler. -/
theorem not_covers_of_mem_entry (r : Rewriting policy className marker fields method method')
    {old : List Instruction} {woven : List Woven}
    (h : r.body.Expansion r.insertions r.body' old woven) {w : Woven} (hw : w ∈ woven)
    {j : Instruction} (hj : j ∈ w.entry) {handler : Handler}
    (hhandler : handler ∈ r.body'.handlers) : ¬handler.Covers j.offset := by
  rintro ⟨hstart, -⟩
  obtain ⟨_, -, hfollows⟩ := exists_mem_zip_of_forall₂ h.handlers.flip hhandler
  have hlt := h.fills.offset_lt (List.mem_flatMap.2 ⟨w, hw, Woven.mem_code_iff.2 (.inl (.inl hj))⟩)
  -- the range begins at a landing, and all landings stand behind the entry code
  cases woven with
  | nil => exact absurd hw List.not_mem_nil
  | cons first rest =>
    rcases List.mem_cons.1 hw with rfl | hrest
    · rcases hfollows.start.landing with hend | ⟨v, hv, hlanding⟩
      · omega
      · have hbehind := Woven.offset_lt_landing h.fills.ascending hj hv
        omega
    · rw [r.entry_eq_nil_of_mem_tail h hrest] at hj
      exact absurd hj List.not_mem_nil

/-- The checks of the parameters, which are all that is executed before the old code, are in no
range of a handler. If the policy only interns, the body with these checks is that of the method in
a class with the pool `final`. -/
structure EntersUnhandled (r : Rewriting policy className marker fields method method')
    (first final : Pool) (old : List Instruction) (woven : List Woven) : Prop where
  body : method'.body? r.after = .ok (some r.body')
  expansion : r.body.Expansion r.insertions r.body' old woven
  entry : (woven.flatMap Woven.entry).map Instruction.bare = r.entryCode.map Instruction.bare
  unhandled : ∀ w ∈ woven, ∀ j ∈ w.entry, ∀ h ∈ r.body'.handlers, ¬h.Covers j.offset
  found : policy.OnlyInterns → first.Built → r.Found first final

theorem exists_entersUnhandled (r : Rewriting policy className marker fields method method')
    {first final : Pool} (hfound : policy.OnlyInterns → first.Built → r.Found first final) :
    ∃ old woven, r.EntersUnhandled first final old woven := by
  obtain ⟨old, woven, hexpansion, -⟩ := CodeBody.exists_expansion r.inserts
  refine ⟨old, woven, r.body?_eq, hexpansion, r.map_bare_entry hexpansion, ?_, hfound⟩
  intro w hw j hj handler hhandler
  exact r.not_covers_of_mem_entry hexpansion hw hj hhandler

end Rewriting

/-! ## All ranges -/

/-- Insertion keeps every range for the instructions in it, and in a guarded class the checks of the
parameters, which come before all else, are in no range of a handler. -/
theorem Guarding.ranges_follow :
    (∀ (body body' : CodeBody) (pool : Pool) (insertions : List Insertion) (depth : UInt16)
        (label : String), body.withInsertions pool insertions depth label = .ok body' →
      ∃ old woven, body.Expansion insertions body' old woven ∧
        body.RangesFollow pool body' old woven) ∧
    ∀ (policy : Policy) (marker : String) (p p' : Progress) (report : Report),
      guardClass policy marker p = .ok report p' →
      (p.file.isModule = true ∧ p' = p) ∨
        ∃ className fields plans pool, p.file.name = .ok className ∧
          Plan.markedFields p.file className marker = .ok fields ∧
          Run policy className marker fields
            (fun r => ∃ (old : List Instruction) (woven : List Woven),
              r.EntersUnhandled p.file.pool p'.file.pool old woven)
            p.file.pool p.file.methods plans p'.file.methods pool ∧
          (p'.file.pool = pool ∨
            ∃ index, Interning.text guardedName pool = .ok index p'.file.pool) := by
  refine ⟨?_, ?_⟩
  · intro body body' pool insertions depth label h
    exact CodeBody.exists_rangesFollow h
  · intro policy marker p p' report h
    refine exists_run_of_guardClass h fun r hfound => ?_
    exact r.exists_entersUnhandled hfound

/-- The loop with line numbers, which are not in order, and with a variable up to the end. -/
def CodeBody.loopWithTables : CodeBody :=
  { CodeBody.loop with attributes :=
      [⟨1, [0, 2, 0, 7, 0, 11, 0, 0, 0, 10]⟩, ⟨2, [0, 1, 0, 7, 0, 2, 0, 1, 0, 1, 0, 0]⟩] }

/-- The pool with the names of the tables. -/
def CodeBody.tableNames : Pool :=
  [.ofText "LineNumberTable", .ofText "LocalVariableTable"].foldl Pool.append .empty

theorem CodeBody.exists_loopWithTables : ∃ body',
    loopWithTables.withInsertions tableNames loopInsertions 2 "f" = .ok body' := by
  cases h : loopWithTables.withInsertions tableNames loopInsertions 2 "f" with
  | ok body' => exact ⟨body', rfl⟩
  | error e =>
    have hok : (loopWithTables.withInsertions tableNames loopInsertions 2 "f").isOk = true := by
      decide +kernel
    rw [h] at hok
    exact absurd hok Bool.false_ne_true

theorem Guarding.exists_ranges_follow :
    (∃ body', CodeBody.loopWithTables.withInsertions CodeBody.tableNames CodeBody.loopInsertions 2
        "f" = .ok body' ∧ ∃ old woven,
      CodeBody.loopWithTables.Expansion CodeBody.loopInsertions body' old woven ∧
        CodeBody.loopWithTables.RangesFollow CodeBody.tableNames body' old woven) ∧
    ∃ report p', guardClass dropping "Lm;" ⟨markedClass, #[]⟩ = .ok report p' ∧
      ∃ (className : String) (fields : List FieldPattern) (method' : Member)
        (r : Rewriting dropping className "Lm;" fields markedMethod method')
        (old : List Instruction) (woven : List Woven), p'.file.methods = [method'] ∧
        r.before = markedClass.pool ∧
        r.EntersUnhandled markedClass.pool p'.file.pool old woven ∧
        method'.body? p'.file.pool = .ok (some r.body') := by
  refine ⟨?_, ?_⟩
  · obtain ⟨body', h⟩ := CodeBody.exists_loopWithTables
    exact ⟨body', h, ranges_follow.1 _ _ _ _ _ _ h⟩
  · obtain ⟨report, p', hrun, hne⟩ :=
      exists_guardClass_of_changesMethods markedClass (by decide +kernel)
    refine ⟨report, p', hrun, ?_⟩
    rcases ranges_follow.2 _ _ _ _ _ hrun with ⟨hmodule, -⟩ | ⟨className, fields, plans, pool, -, -,
      hmethods, -⟩
    · exact absurd hmodule (by decide +kernel)
    · obtain ⟨method', r, hmethod, hbefore, -, old, woven, henters⟩ :=
        hmethods.exists_rewriting hne
      exact ⟨className, fields, method', r, old, woven, hmethod, hbefore, henters,
        (henters.found onlyInterns_dropping built_markedClass).after⟩

end PatternGuard
