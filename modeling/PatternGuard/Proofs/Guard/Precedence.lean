import Mathlib.Data.List.Perm.Basic
import PatternGuard.Guard.Plan
import PatternGuard.Proofs.ClassFile.ParameterAnnotations

/-!
# Which of several markers counts

A member may have visible and invisible annotations, in any number of attributes. They are listed in
the order in which the attributes are stored, and the first marker in that list gives the pattern.
The visible ones therefore come first exactly if no attribute with visible annotations is stored
behind one with invisible annotations (`Member.annotations_visibleFirst_iff`). Where one is, the
order of storage decides between two markers, and the invisible one can win.
-/

set_option autoImplicit false

namespace PatternGuard

open Outcome

/-! ## Lists with a property first -/

/-- The elements with a property come first exactly if none of them comes after one without it. -/
theorem eq_filter_append_filter_iff {α : Type} {p : α → Bool} {xs : List α} :
    xs = xs.filter p ++ xs.filter (fun x => !p x) ↔
      xs.Pairwise fun x y => p y = true → p x = true := by
  induction xs with
  | nil => simp
  | cons x xs ih =>
    rw [List.pairwise_cons]
    cases hx : p x with
    | true => simpa [hx] using ih
    | false =>
      -- behind an element without the property no other may have it
      have hnone : (∀ y ∈ xs, p y = true → false = true) ↔ xs.filter p = [] := by
        simp [List.filter_eq_nil_iff]
      rw [hnone, List.filter_cons_of_neg (by simp [hx]), List.filter_cons_of_pos (by simp [hx])]
      constructor
      · intro h
        cases hfilter : xs.filter p with
        | cons y ys =>
          rw [hfilter, List.cons_append] at h
          obtain ⟨rfl, -⟩ := List.cons.inj h
          have hy : p x = true := (List.mem_filter.1 (hfilter ▸ List.mem_cons_self)).2
          exact absurd (hx.symm.trans hy) (by decide)
        | nil =>
          refine ⟨rfl, ih.1 ?_⟩
          rw [hfilter, List.nil_append] at h ⊢
          exact (List.cons.inj h).2
      · rintro ⟨hfilter, hpairwise⟩
        have hxs := ih.2 hpairwise
        rw [hfilter, List.nil_append] at hxs ⊢
        rw [← hxs]

/-! ## Tables of annotations -/

/-- The two kinds of attributes that hold annotations of a member. -/
inductive Visibility where
  | visible
  | invisible
deriving DecidableEq, Repr

/-- The name of the attributes of a kind. -/
def Visibility.attributeName : Visibility → String
  | visible => Attribute.visibleAnnotationsName
  | invisible => Attribute.invisibleAnnotationsName

/-- What one attribute holds. -/
structure AnnotationTable where
  visibility : Visibility
  annotations : List Annotation

/-- The attribute is of the kind of the table and holds its annotations. -/
def Attribute.Stores (pool : Pool) (a : Attribute) (t : AnnotationTable) : Prop :=
  a.isNamed pool t.visibility.attributeName = true ∧
    Annotation.decodeList a.info = .ok t.annotations

namespace AnnotationTable

/-- The annotations of a table, each with its kind. -/
def entries (t : AnnotationTable) : List (Visibility × Annotation) :=
  t.annotations.map fun a => (t.visibility, a)

/-- The annotations of all tables, in the order of the tables. -/
def stored (tables : List AnnotationTable) : List (Visibility × Annotation) :=
  tables.flatMap entries

/-- The tables of one kind. -/
def ofKind (kind : Visibility) (tables : List AnnotationTable) : List AnnotationTable :=
  tables.filter fun t => t.visibility = kind

/-- The visible annotations in the order of the tables, and after them the invisible ones. -/
def visibleFirst (tables : List AnnotationTable) : List (Visibility × Annotation) :=
  stored (ofKind .visible tables) ++ stored (ofKind .invisible tables)

/-- Whether one of the annotations is a marker. -/
def carries (pool : Pool) (marker : String) (t : AnnotationTable) : Bool :=
  t.annotations.any fun a => a.isType pool marker

variable {tables : List AnnotationTable}

theorem filter_entries (kind : Visibility) (t : AnnotationTable) :
    (t.entries.filter fun e => e.1 = kind) = if t.visibility = kind then t.entries else [] := by
  rw [entries, List.filter_map]
  by_cases h : t.visibility = kind
  · simp [h, Function.comp_def]
  · simp [h, Function.comp_def]

theorem filter_stored (kind : Visibility) (tables : List AnnotationTable) :
    ((stored tables).filter fun e => e.1 = kind) = stored (ofKind kind tables) := by
  induction tables with
  | nil => rfl
  | cons t tables ih =>
    rw [stored, List.flatMap_cons, List.filter_append, filter_entries]
    by_cases h : t.visibility = kind
    · rw [if_pos h, ofKind, List.filter_cons_of_pos (by simpa using h), stored, List.flatMap_cons]
      exact congrArg (t.entries ++ ·) ih
    · rw [if_neg h, ofKind, List.filter_cons_of_neg (by simpa using h), List.nil_append]
      exact ih

theorem visibleFirst_eq (tables : List AnnotationTable) :
    visibleFirst tables = ((stored tables).filter fun e => e.1 = .visible) ++
      (stored tables).filter fun e => !decide (e.1 = .visible) := by
  have hother : (fun e : Visibility × Annotation => !decide (e.1 = .visible)) =
      fun e => decide (e.1 = .invisible) := by
    funext ⟨kind, a⟩
    cases kind <;> rfl
  rw [hother, filter_stored, filter_stored, visibleFirst]

/-- Both orders list the same annotations, each as often. -/
theorem perm_visibleFirst (tables : List AnnotationTable) :
    (visibleFirst tables).Perm (stored tables) := by
  rw [visibleFirst_eq]
  exact List.filter_append_perm _ _

theorem pairwise_stored_iff :
    ((stored tables).Pairwise fun x y => y.1 = .visible → x.1 = .visible) ↔
      tables.Pairwise fun s t => s.visibility = .invisible → t.visibility = .visible →
        s.annotations = [] ∨ t.annotations = [] := by
  have hentries : ∀ t ∈ tables, t.entries.Pairwise fun x y => y.1 = .visible → x.1 = .visible := by
    intro t _
    rw [entries, List.pairwise_map]
    exact List.pairwise_of_forall fun _ _ h => h
  rw [stored, List.pairwise_flatMap, and_iff_right hentries]
  refine List.Pairwise.iff fun s t => ⟨?_, ?_⟩
  · intro h hs ht
    cases hsa : s.annotations with
    | nil => exact Or.inl rfl
    | cons x xs =>
      cases hta : t.annotations with
      | nil => exact Or.inr rfl
      | cons y ys =>
        have hx : (s.visibility, x) ∈ s.entries := List.mem_map.2 ⟨x, by simp [hsa], rfl⟩
        have hy : (t.visibility, y) ∈ t.entries := List.mem_map.2 ⟨y, by simp [hta], rfl⟩
        have hvisible : s.visibility = .visible := h _ hx _ hy ht
        exact absurd (hs.symm.trans hvisible) (by decide)
  · intro h e he f hf hvisible
    obtain ⟨x, hx, rfl⟩ := List.mem_map.1 he
    obtain ⟨y, hy, rfl⟩ := List.mem_map.1 hf
    cases hs : s.visibility with
    | visible => rfl
    | invisible =>
      rcases h hs hvisible with hnil | hnil
      · exact absurd (hnil ▸ hx) List.not_mem_nil
      · exact absurd (hnil ▸ hy) List.not_mem_nil

/-- The visible annotations come first in storage exactly if no visible table with annotations
stands behind an invisible one. -/
theorem stored_eq_visibleFirst_iff :
    stored tables = visibleFirst tables ↔
      tables.Pairwise fun s t => s.visibility = .invisible → t.visibility = .visible →
        s.annotations = [] ∨ t.annotations = [] := by
  rw [visibleFirst_eq, ← pairwise_stored_iff, eq_filter_append_filter_iff]
  simp only [decide_eq_true_eq]

theorem map_snd_stored (tables : List AnnotationTable) :
    (stored tables).map Prod.snd = tables.flatMap annotations := by
  rw [stored, List.map_flatMap]
  congr 1
  funext t
  simp [entries, Function.comp_def]

/-- The first annotation with a property stands in the first table that has one. -/
theorem find?_annotations {p : Annotation → Bool} {t : AnnotationTable}
    (h : (tables.find? fun t => t.annotations.any p) = some t) :
    (tables.flatMap annotations).find? p = t.annotations.find? p := by
  obtain ⟨hany, front, back, rfl, hfront⟩ := List.find?_eq_some_iff_append.1 h
  have hnone : (front.flatMap annotations).find? p = none := by
    rw [List.find?_eq_none]
    intro a ha
    obtain ⟨s, hs, ha⟩ := List.mem_flatMap.1 ha
    have hs' := hfront s hs
    simp only [Bool.not_eq_true', List.any_eq_false] at hs'
    exact hs' a ha
  have hsome : (t.annotations.find? p).isSome = true := by
    rw [List.find?_isSome]
    exact List.any_eq_true.1 hany
  rw [List.flatMap_append, List.flatMap_cons, List.find?_append, hnone, Option.none_or,
    List.find?_append, Option.or_of_isSome hsome]

end AnnotationTable

/-! ## The annotations of a member -/

namespace Plan

/-- Only the first marker matters. -/
theorem patternOfMarker_congr {as bs : List Annotation} {pool : Pool} {marker : String}
    (h : (as.find? fun a => a.isType pool marker) = bs.find? fun a => a.isType pool marker)
    (site : String) :
    patternOfMarker as pool marker site = patternOfMarker bs pool marker site := by
  rw [patternOfMarker, patternOfMarker, h]

end Plan

namespace Member

open AnnotationTable Plan

variable {m : Member} {pool : Pool}

/-- The attributes that hold annotations of the member. -/
def annotationHolders (m : Member) (pool : Pool) : List Attribute :=
  m.attributesNamed pool Attribute.visibleAnnotationsName Attribute.invisibleAnnotationsName

/-- Each of these attributes is of one of the two kinds. -/
theorem exists_isNamed_of_mem_annotationHolders {a : Attribute}
    (ha : a ∈ m.annotationHolders pool) :
    ∃ kind : Visibility, a.isNamed pool kind.attributeName = true := by
  rcases (mem_attributesNamed_iff.1 ha).2 with hvisible | hinvisible
  · exact ⟨.visible, hvisible⟩
  · exact ⟨.invisible, hinvisible⟩

theorem annotations_of_stores {tables : List AnnotationTable}
    (h : List.Forall₂ (Attribute.Stores pool) (m.annotationHolders pool) tables) :
    m.annotations pool = .ok ((stored tables).map Prod.snd) := by
  rw [Member.annotations, bind_ok_iff]
  refine ⟨tables.map AnnotationTable.annotations, ?_, ?_⟩
  · rw [mapM_ok_iff, List.forall₂_map_right_iff]
    exact h.imp fun _ _ hstores => hstores.2
  · rw [pure_ok_iff, map_snd_stored, List.flatMap_def]

/-- The annotations are those of the attributes that hold some, one attribute after the other. -/
theorem annotations_ok_iff {listed : List Annotation} :
    m.annotations pool = .ok listed ↔
      ∃ tables, List.Forall₂ (Attribute.Stores pool) (m.annotationHolders pool) tables ∧
        (stored tables).map Prod.snd = listed := by
  constructor
  · intro h
    obtain ⟨lists, hlists, -⟩ := bind_ok_iff.1 h
    have hstores : ∀ a ∈ m.annotationHolders pool, ∃ t, a.Stores pool t := by
      intro a ha
      obtain ⟨kind, hkind⟩ := exists_isNamed_of_mem_annotationHolders ha
      obtain ⟨annotations, -, hdecode⟩ := exists_mem_zip_of_forall₂ (mapM_ok_iff.1 hlists) ha
      exact ⟨⟨kind, annotations⟩, hkind, hdecode⟩
    obtain ⟨tables, htables⟩ := exists_forall₂ hstores
    exact ⟨tables, htables, Except.ok.inj ((annotations_of_stores htables).symm.trans h)⟩
  · rintro ⟨tables, htables, rfl⟩
    exact annotations_of_stores htables

/-- The annotations of a member are listed in the order in which they are stored, each once. The
visible ones stand before the invisible ones exactly if no attribute with visible annotations is
stored behind one with invisible annotations, and then a visible marker is the one that counts. In
any case the marker that counts is that of the first attribute that holds one. -/
theorem annotations_visibleFirst_iff {listed : List Annotation}
    (h : m.annotations pool = .ok listed) :
    ∃ tables, List.Forall₂ (Attribute.Stores pool) (m.annotationHolders pool) tables ∧
      (stored tables).map Prod.snd = listed ∧ (visibleFirst tables).Perm (stored tables) ∧
      (stored tables = visibleFirst tables ↔
        tables.Pairwise fun s t => s.visibility = .invisible → t.visibility = .visible →
          s.annotations = [] ∨ t.annotations = []) ∧
      ∀ marker site,
        (stored tables = visibleFirst tables → ∀ t,
          (ofKind .visible tables).find? (carries pool marker) = some t →
          patternOfMarker listed pool marker site =
            patternOfMarker t.annotations pool marker site) ∧
        ∀ t, tables.find? (carries pool marker) = some t →
          patternOfMarker listed pool marker site =
            patternOfMarker t.annotations pool marker site := by
  obtain ⟨tables, htables, rfl⟩ := annotations_ok_iff.1 h
  refine ⟨tables, htables, rfl, perm_visibleFirst tables, stored_eq_visibleFirst_iff, ?_⟩
  intro marker site
  refine ⟨?_, ?_⟩
  · intro hfirst t ht
    refine patternOfMarker_congr ?_ site
    have hvisible := find?_annotations (p := fun a => a.isType pool marker) ht
    have hmarked : (t.annotations.find? fun a => a.isType pool marker).isSome = true := by
      rw [List.find?_isSome]
      exact List.any_eq_true.1 (List.find?_some (p := carries pool marker) ht)
    -- the invisible annotations stand behind a visible one that is a marker already
    rw [hfirst, visibleFirst, List.map_append, map_snd_stored, map_snd_stored, List.find?_append,
      hvisible, Option.or_of_isSome hmarked]
  · intro t ht
    refine patternOfMarker_congr ?_ site
    rw [map_snd_stored]
    exact find?_annotations ht

/-- The names of the two kinds of attributes, a marker and two patterns. -/
def markersPool : Pool :=
  [.ofText "RuntimeInvisibleAnnotations", .ofText "RuntimeVisibleAnnotations", .ofText "Lm;",
    .ofText "value", .ofText "i", .ofText "v"].foldl Pool.append .empty

/-- A member with an invisible marker for the pattern `i`, stored before a visible one for `v`. -/
def markersMember : Member where
  access := 0
  nameIndex := 0
  descriptorIndex := 0
  attributes :=
    [⟨1, [0, 1, 0, 3, 0, 1, 0, 4, 115, 0, 5]⟩, ⟨2, [0, 1, 0, 3, 0, 1, 0, 4, 115, 0, 6]⟩]

/-- The visible marker comes second, and the pattern is the other one. -/
theorem exists_annotations_invisibleFirst : ∃ listed tables,
    markersMember.annotations markersPool = .ok listed ∧
      List.Forall₂ (Attribute.Stores markersPool) markersMember.attributes tables ∧
      tables.map AnnotationTable.visibility = [.invisible, .visible] ∧
      (∀ t ∈ tables, t.carries markersPool "Lm;" = true) ∧
      stored tables ≠ visibleFirst tables ∧
      patternOfMarker listed markersPool "Lm;" "f" = .ok (some "i") := by
  obtain ⟨listed, hlisted, hpattern⟩ : ∃ listed,
      markersMember.annotations markersPool = .ok listed ∧
        patternOfMarker listed markersPool "Lm;" "f" = .ok (some "i") := by decide +kernel
  obtain ⟨tables, htables, -, -, hfirst, -⟩ := annotations_visibleFirst_iff hlisted
  have hholders : markersMember.annotationHolders markersPool = markersMember.attributes := by
    decide +kernel
  rw [hholders] at htables
  have hkinds : ∀ a ∈ markersMember.attributes, ∀ t, a.Stores markersPool t →
      t.visibility = (if a.nameIndex = 1 then Visibility.invisible else .visible) ∧
        t.carries markersPool "Lm;" = true := by
    have hdecides : ∀ a ∈ markersMember.attributes,
        (∀ kind ∈ [Visibility.visible, .invisible],
          a.isNamed markersPool kind.attributeName = true →
            kind = (if a.nameIndex = 1 then Visibility.invisible else .visible)) ∧
        ∃ annotations, Annotation.decodeList a.info = .ok annotations ∧
          (annotations.any fun a => a.isType markersPool "Lm;") = true := by decide +kernel
    rintro a ha ⟨kind, annotations⟩ ⟨hnamed, hdecode⟩
    obtain ⟨hkind, decoded, hdecoded, hmarked⟩ := hdecides a ha
    obtain rfl := Except.ok.inj (hdecode.symm.trans hdecoded)
    exact ⟨hkind kind (by cases kind <;> decide) hnamed, hmarked⟩
  obtain ⟨s, ts, hs, hts, rfl⟩ := List.forall₂_cons_left_iff.1 htables
  obtain ⟨t, us, ht, hus, rfl⟩ := List.forall₂_cons_left_iff.1 hts
  obtain rfl := List.forall₂_nil_left_iff.1 hus
  obtain ⟨hskind, hsmarked⟩ := hkinds _ List.mem_cons_self s hs
  obtain ⟨htkind, htmarked⟩ := hkinds _ (List.mem_cons_of_mem _ List.mem_cons_self) t ht
  refine ⟨listed, [s, t], hlisted, htables, ?_, ?_, ?_, hpattern⟩
  · rw [List.map_cons, List.map_singleton, hskind, htkind]
    decide
  · intro u hu
    rcases List.mem_pair.1 hu with rfl | rfl
    · exact hsmarked
    · exact htmarked
  · intro heq
    have hempty := List.pairwise_pair.1 (hfirst.1 heq)
    rcases hempty hskind htkind with hnil | hnil
    · simp [carries, hnil] at hsmarked
    · simp [carries, hnil] at htmarked

end Member

end PatternGuard
