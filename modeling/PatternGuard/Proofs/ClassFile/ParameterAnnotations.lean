import Mathlib.Data.List.Perm.Basic
import PatternGuard.ClassFile.Member
import PatternGuard.Proofs.Outcome

/-!
# Annotations of parameters

A table of parameter annotations may leave out parameters, and those that it leaves out are the
first ones: in a table for `declared` parameters the entry of the parameter `p` stands at
`p - (declared - length)` (`Member.tableRow?`). Read along all parameters, a table is its own list
of entries behind some gaps (`Member.map_tableRow?`). From this follows what merging one table
does to each parameter, by induction over the tables what merging all of them does, and that nothing
is lost or doubled in it (`Member.parameterAnnotations_exact`).
-/

set_option autoImplicit false

namespace PatternGuard.Member

open Outcome

/-! ## One table -/

/-- The entry that a table has for the parameter at a position, if it covers that parameter. -/
def tableRow? (declared : Nat) (table : List (List Annotation)) (p : Nat) :
    Option (List Annotation) :=
  if declared - table.length ≤ p then table[p - (declared - table.length)]? else none

section Table

variable {declared : Nat} {table : List (List Annotation)}

/-- Along the parameters a table has gaps and then its entries. -/
theorem map_tableRow? (h : table.length ≤ declared) :
    (List.range declared).map (tableRow? declared table) =
      List.replicate (declared - table.length) none ++ table.map some := by
  obtain ⟨gaps, rfl⟩ := Nat.exists_eq_add_of_le' h
  have hgaps : gaps + table.length - table.length = gaps := Nat.add_sub_cancel ..
  rw [hgaps, List.range_add, List.map_append, List.map_map]
  congr 1
  · refine List.eq_replicate_iff.2 ⟨by simp, ?_⟩
    intro entry hentry
    obtain ⟨p, hp, rfl⟩ := List.mem_map.1 hentry
    rw [tableRow?, hgaps, if_neg (Nat.not_le.2 (List.mem_range.1 hp))]
  · apply List.ext_getElem?
    intro i
    by_cases hi : i < table.length
    · simp [tableRow?, hgaps, hi]
    · simp [hi]

/-- Each entry belongs to exactly one parameter. -/
theorem filterMap_tableRow? (h : table.length ≤ declared) :
    (List.range declared).filterMap (tableRow? declared table) = table := by
  calc (List.range declared).filterMap (tableRow? declared table)
      = ((List.range declared).map (tableRow? declared table)).filterMap id := by
        rw [List.filterMap_map, Function.id_comp]
    _ = table := by
        rw [map_tableRow? h, List.filterMap_append, List.filterMap_replicate_of_none rfl,
          List.nil_append, List.filterMap_map, Function.id_comp, List.filterMap_some]

/-- With nothing in its gaps a table has a list of annotations for each parameter. -/
theorem aligned_eq_map (h : table.length ≤ declared) :
    List.replicate (declared - table.length) [] ++ table =
      (List.range declared).map fun p => (tableRow? declared table p).getD [] := by
  calc List.replicate (declared - table.length) [] ++ table
      = (List.replicate (declared - table.length) none ++ table.map some).map
          (Option.getD · []) := by simp [Function.comp_def]
    _ = (List.range declared).map fun p => (tableRow? declared table p).getD [] := by
        rw [← map_tableRow? h, List.map_map, Function.comp_def]

/-- The last entry belongs to the last parameter. -/
theorem tableRow?_last (h : table.length ≤ declared) :
    tableRow? declared table (declared - 1) = table.getLast? := by
  rw [List.getLast?_eq_getElem?, tableRow?]
  cases table with
  | nil => simp
  | cons entry table =>
    rw [List.length_cons] at h ⊢
    rw [if_pos (by omega)]
    congr 1
    omega

/-- Merging a table adds its entry for each parameter to what the parameter has so far. -/
theorem mergeParameters_ok_iff {sofar : Nat → List Annotation} {all : List (List Annotation)} :
    mergeParameters ((List.range declared).map sofar) table = .ok all ↔
      table.length ≤ declared ∧
        all = (List.range declared).map fun p =>
          sofar p ++ (tableRow? declared table p).getD [] := by
  rw [mergeParameters, List.length_map, List.length_range]
  by_cases h : table.length ≤ declared
  · simp only [if_neg (Nat.not_lt.2 h), aligned_eq_map h, List.zipWith_map, List.zipWith_self,
      Except.ok.injEq]
    rw [eq_comm]
    exact (and_iff_right h).symm
  · simp [h, Nat.lt_of_not_le h]

end Table

/-! ## All tables -/

/-- For each parameter the entries that the tables have for it, one table after the other. -/
def mergedTables (declared : Nat) (tables : List (List (List Annotation))) :
    List (List Annotation) :=
  (List.range declared).map fun p => (tables.filterMap (tableRow? declared · p)).flatten

theorem length_mergedTables (declared : Nat) (tables : List (List (List Annotation))) :
    (mergedTables declared tables).length = declared := by
  rw [mergedTables, List.length_map, List.length_range]

theorem getElem?_mergedTables {declared p : Nat} (hp : p < declared)
    (tables : List (List (List Annotation))) :
    (mergedTables declared tables)[p]? =
      some (tables.filterMap (tableRow? declared · p)).flatten := by
  rw [mergedTables, List.getElem?_map, List.getElem?_range hp, Option.map_some]

/-- A parameter has what the first table has for it, and then what the others have. -/
theorem flatten_filterMap_cons (declared p : Nat) (table : List (List Annotation))
    (tables : List (List (List Annotation))) :
    ((table :: tables).filterMap (tableRow? declared · p)).flatten =
      (tableRow? declared table p).getD [] ++
        (tables.filterMap (tableRow? declared · p)).flatten := by
  cases hentry : tableRow? declared table p with
  | none => simp [hentry]
  | some entry => simp [hentry]

/-- The annotations of all parameters are those of all tables. -/
theorem perm_flatten_mergedTables {declared : Nat} {tables : List (List (List Annotation))}
    (h : ∀ table ∈ tables, table.length ≤ declared) :
    (mergedTables declared tables).flatten.Perm tables.flatten.flatten := by
  induction tables with
  | nil => simp [mergedTables]
  | cons table tables ih =>
    obtain ⟨htable, htables⟩ := List.forall_mem_cons.1 h
    let own := fun p => (tableRow? declared table p).getD []
    have hcons : mergedTables declared (table :: tables) = (List.range declared).map fun p =>
        own p ++ (tables.filterMap (tableRow? declared · p)).flatten :=
      List.map_congr_left fun p _ => flatten_filterMap_cons declared p table tables
    have hown : (List.range declared).flatMap own = table.flatten := by
      rw [List.flatMap_def, ← aligned_eq_map htable]
      simp
    rw [hcons, ← List.flatMap_def, List.flatten_cons, List.flatten_append, ← hown]
    exact (List.flatMap_append_perm _ _ _).symm.trans ((ih htables).append_left _)

/-- Merging tables one after the other fails only for one that has too many entries. -/
theorem foldlM_mergeParameters_ok_iff {declared : Nat} {sofar : Nat → List Annotation}
    {tables : List (List (List Annotation))} {all : List (List Annotation)} :
    tables.foldlM mergeParameters ((List.range declared).map sofar) = .ok all ↔
      (∀ table ∈ tables, table.length ≤ declared) ∧
        all = (List.range declared).map fun p =>
          sofar p ++ (tables.filterMap (tableRow? declared · p)).flatten := by
  induction tables generalizing sofar with
  | nil =>
    rw [List.foldlM_nil, pure_ok_iff]
    simp [eq_comm]
  | cons table tables ih =>
    rw [List.foldlM_cons, bind_ok_iff, List.forall_mem_cons]
    simp only [mergeParameters_ok_iff, flatten_filterMap_cons, ← List.append_assoc]
    constructor
    · rintro ⟨next, ⟨htable, rfl⟩, hrest⟩
      obtain ⟨htables, hall⟩ := ih.1 hrest
      exact ⟨⟨htable, htables⟩, hall⟩
    · rintro ⟨⟨htable, htables⟩, hall⟩
      exact ⟨_, ⟨htable, rfl⟩, ih.2 ⟨htables, hall⟩⟩

/-- Attributes are merged as they are read; that is the same as reading all of them first, as far as
there is a result. -/
theorem foldlM_decode_ok_iff {holders : List Attribute} {merged all : List (List Annotation)} :
    holders.foldlM (fun merged a => do
        mergeParameters merged (← Annotation.decodeParameters a.info)) merged = .ok all ↔
      ∃ tables, List.Forall₂ (fun a table => Annotation.decodeParameters a.info = .ok table)
          holders tables ∧
        tables.foldlM mergeParameters merged = .ok all := by
  induction holders generalizing merged with
  | nil => simp
  | cons a holders ih =>
    rw [List.foldlM_cons, bind_ok_iff]
    constructor
    · rintro ⟨next, hnext, hrest⟩
      obtain ⟨table, htable, hmerge⟩ := bind_ok_iff.1 hnext
      obtain ⟨tables, htables, hfold⟩ := ih.1 hrest
      refine ⟨table :: tables, htables.cons htable, ?_⟩
      rw [List.foldlM_cons]
      exact bind_ok_iff.2 ⟨next, hmerge, hfold⟩
    · rintro ⟨tables, hholders, hfold⟩
      obtain ⟨table, tables, htable, htables, rfl⟩ := List.forall₂_cons_left_iff.1 hholders
      rw [List.foldlM_cons] at hfold
      obtain ⟨next, hmerge, hrest⟩ := bind_ok_iff.1 hfold
      exact ⟨next, bind_ok_iff.2 ⟨table, htable, hmerge⟩, ih.2 ⟨tables, htables, hrest⟩⟩

/-! ## The parameters of a member -/

section Parameters

variable {m : Member} {pool : Pool} {declared : Nat}

/-- Whether the attribute is one of the two that hold annotations of parameters. -/
theorem mem_attributesNamed_iff {name₁ name₂ : String} {a : Attribute} :
    a ∈ m.attributesNamed pool name₁ name₂ ↔
      a ∈ m.attributes ∧ (a.isNamed pool name₁ = true ∨ a.isNamed pool name₂ = true) := by
  rw [attributesNamed, List.mem_filter, Bool.or_eq_true]

theorem parameterAnnotations_ok_iff {merged : List (List Annotation)} :
    m.parameterAnnotations pool declared = .ok merged ↔
      ∃ tables, List.Forall₂ (fun a table => Annotation.decodeParameters a.info = .ok table)
          (m.attributesNamed pool Attribute.visibleParameterAnnotationsName
            Attribute.invisibleParameterAnnotationsName) tables ∧
        (∀ table ∈ tables, table.length ≤ declared) ∧ merged = mergedTables declared tables := by
  have hempty : List.replicate declared ([] : List Annotation) =
      (List.range declared).map fun _ => [] := by simp
  rw [parameterAnnotations, foldlM_decode_ok_iff, hempty]
  refine exists_congr fun tables => and_congr_right fun _ => ?_
  rw [foldlM_mergeParameters_ok_iff]
  simp only [List.nil_append]
  rfl

theorem length_parameterAnnotations {annotations : List (List Annotation)}
    (h : m.parameterAnnotations pool declared = .ok annotations) :
    annotations.length = declared := by
  obtain ⟨tables, -, -, rfl⟩ := parameterAnnotations_ok_iff.1 h
  exact length_mergedTables declared tables

/-- The annotations of the parameters can be told exactly if each attribute that holds such
annotations is a table with at most as many entries as there are parameters. Each parameter then
gets the entries that the tables have for it, in the order of the attributes; the last entry of each
table goes to the last parameter, and every annotation goes to exactly one. -/
theorem parameterAnnotations_exact (m : Member) (pool : Pool) (declared : Nat) :
    ((∃ merged, m.parameterAnnotations pool declared = .ok merged) ↔
        ∀ a ∈ m.attributes,
          a.isNamed pool Attribute.visibleParameterAnnotationsName = true ∨
            a.isNamed pool Attribute.invisibleParameterAnnotationsName = true →
          ∃ table, Annotation.decodeParameters a.info = .ok table ∧ table.length ≤ declared) ∧
      ∀ merged, m.parameterAnnotations pool declared = .ok merged →
        ∃ tables, List.Forall₂ (fun a table => Annotation.decodeParameters a.info = .ok table)
            (m.attributesNamed pool Attribute.visibleParameterAnnotationsName
              Attribute.invisibleParameterAnnotationsName) tables ∧
          merged.length = declared ∧
          (∀ p < declared, merged[p]? =
            some (tables.filterMap (tableRow? declared · p)).flatten) ∧
          (∀ table ∈ tables,
            tableRow? declared table (declared - 1) = table.getLast? ∧
              (List.range declared).filterMap (tableRow? declared table) = table) ∧
          merged.flatten.Perm tables.flatten.flatten := by
  refine ⟨⟨?_, ?_⟩, ?_⟩
  · rintro ⟨merged, hmerged⟩ a ha hnamed
    obtain ⟨tables, htables, hfew, -⟩ := parameterAnnotations_ok_iff.1 hmerged
    obtain ⟨table, hmem, htable⟩ :=
      exists_mem_zip_of_forall₂ htables (mem_attributesNamed_iff.2 ⟨ha, hnamed⟩)
    exact ⟨table, htable, hfew table (List.of_mem_zip hmem).2⟩
  · intro hdecodes
    obtain ⟨tables, htables⟩ := exists_forall₂ fun a ha =>
      have ⟨hmem, hnamed⟩ := mem_attributesNamed_iff.1 ha
      hdecodes a hmem hnamed
    refine ⟨_, parameterAnnotations_ok_iff.2 ⟨tables, htables.imp fun _ _ h => h.1, ?_, rfl⟩⟩
    intro table htable
    obtain ⟨a, -, -, hfew⟩ := exists_mem_zip_of_mem_right htables htable
    exact hfew
  · intro merged hmerged
    obtain ⟨tables, htables, hfew, rfl⟩ := parameterAnnotations_ok_iff.1 hmerged
    refine ⟨tables, htables, length_mergedTables declared tables, ?_, ?_, ?_⟩
    · intro p hp
      exact getElem?_mergedTables hp tables
    · intro table htable
      exact ⟨tableRow?_last (hfew table htable), filterMap_tableRow? (hfew table htable)⟩
    · exact perm_flatten_mergedTables hfew

/-- The names of the two attributes. -/
def tablesPool : Pool :=
  [.ofText "RuntimeInvisibleParameterAnnotations",
    .ofText "RuntimeVisibleParameterAnnotations"].foldl Pool.append .empty

/-- A method whose first table has one entry and whose second table has two. -/
def tablesMember : Member where
  access := 0
  nameIndex := 0
  descriptorIndex := 0
  attributes :=
    [⟨1, [1, 0, 1, 0, 8, 0, 0]⟩, ⟨2, [2, 0, 1, 0, 7, 0, 0, 0, 1, 0, 9, 0, 0]⟩]

theorem exists_parameterAnnotations_tablesMember : ∃ merged,
    tablesMember.parameterAnnotations tablesPool 3 = .ok merged ∧
      merged.map (List.map Annotation.typeIndex) = [[], [7], [8, 9]] ∧
      ∃ tables, List.Forall₂ (fun a table => Annotation.decodeParameters a.info = .ok table)
          tablesMember.attributes tables ∧
        (∀ table ∈ tables, tableRow? 3 table 2 = table.getLast?) ∧
        merged.flatten.Perm tables.flatten.flatten := by
  obtain ⟨merged, hmerged, htypes⟩ : ∃ merged,
      tablesMember.parameterAnnotations tablesPool 3 = .ok merged ∧
        merged.map (List.map Annotation.typeIndex) = [[], [7], [8, 9]] := by decide +kernel
  have hholders : tablesMember.attributesNamed tablesPool Attribute.visibleParameterAnnotationsName
      Attribute.invisibleParameterAnnotationsName = tablesMember.attributes := by decide +kernel
  obtain ⟨tables, htables, -, -, hentries, hperm⟩ :=
    (parameterAnnotations_exact tablesMember tablesPool 3).2 merged hmerged
  rw [hholders] at htables
  exact ⟨merged, hmerged, htypes, tables, htables, fun table h => (hentries table h).1, hperm⟩

end Parameters

end PatternGuard.Member
