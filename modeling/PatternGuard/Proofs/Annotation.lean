import PatternGuard.Annotation
import PatternGuard.Proofs.Bytes.Reader

/-!
# Annotations and their bytes

The depth of a value is the number of arrays and nested annotations around it. With `n` levels left,
a value is read from exactly what is written for it, provided that nothing in it lies `n` deep and
that its constants have tags of constants (`ElementValue.inverts_decode`). Writing knows no limit.
With enough levels every such value can be read, so that no two of them are written alike, and
whether the reader accepts what was written is a matter of the depth alone
(`Annotation.decode_encode_iff_depthLE`).
-/

set_option autoImplicit false

namespace PatternGuard

open Bytes Outcome Reader

/-! ## Depth -/

/-- The value `w` stands in `v`, or is `v`, with `d` arrays and annotations around it. -/
inductive ElementValue.Holds : ElementValue → Nat → ElementValue → Prop
  | self (v : ElementValue) : Holds v 0 v
  | array {vs : List ElementValue} {v w : ElementValue} {d : Nat} (hv : v ∈ vs)
      (h : Holds v d w) : Holds (.array vs) (d + 1) w
  | nested {a : Annotation} {p : ElementPair} {w : ElementValue} {d : Nat} (hp : p ∈ a.elements)
      (h : Holds p.value d w) : Holds (.nested a) (d + 1) w

/-- The value stands in one of the elements; the values of the elements themselves have depth 0. -/
def Annotation.Holds (a : Annotation) (d : Nat) (w : ElementValue) : Prop :=
  ∃ p ∈ a.elements, p.value.Holds d w

/-- No value in the annotation lies deeper. -/
def Annotation.DepthLE (limit : Nat) (a : Annotation) : Prop :=
  ∀ d w, a.Holds d w → d ≤ limit

/-- The constants in the annotation have one of the tags `BCDFIJSZs`. -/
def Annotation.ConstTagged (a : Annotation) : Prop :=
  ∀ d tag index, a.Holds d (.const tag index) → ∃ c ∈ "BCDFIJSZs".toList, tag.toNat = c.toNat

theorem ElementPair.sizeOf_value_lt {a : Annotation} {p : ElementPair} (hp : p ∈ a.elements) :
    sizeOf p.value < sizeOf a := by
  have hsize := List.sizeOf_lt_of_mem hp
  rcases a with ⟨typeIndex, elements⟩
  rcases p with ⟨nameIndex, v⟩
  simp only [value, Annotation.elements, mk.sizeOf_spec, Annotation.mk.sizeOf_spec] at *
  omega

namespace ElementValue

theorem isConstTag_iff {tag : UInt8} :
    isConstTag tag = true ↔ ∃ c ∈ "BCDFIJSZs".toList, tag.toNat = c.toNat := by
  rw [isConstTag, List.any_eq_true]
  refine exists_congr fun c => and_congr_right fun _ => ?_
  rw [decide_eq_true_eq, eq_comm]

/-- Nothing lies deeper than there is room for. -/
theorem Holds.lt_sizeOf {v w : ElementValue} {d : Nat} (h : v.Holds d w) : d < sizeOf v := by
  induction h with
  | self v =>
    cases v <;> simp only [const.sizeOf_spec, enumeration.sizeOf_spec, classInfo.sizeOf_spec,
      nested.sizeOf_spec, array.sizeOf_spec] <;> omega
  | array hv _ ih =>
    have hsize := List.sizeOf_lt_of_mem hv
    simp only [array.sizeOf_spec]
    omega
  | nested hp _ ih =>
    have hsize := ElementPair.sizeOf_value_lt hp
    simp only [nested.sizeOf_spec]
    omega

/-! ## What is read -/

/-- The value can be read with the given number of levels: nothing in it lies that deep, and its
constants can be told from other values by their tags. -/
def Readable (levels : Nat) (v : ElementValue) : Prop :=
  ∀ d w, v.Holds d w → d < levels ∧ ∀ tag index, w = .const tag index → isConstTag tag = true

theorem not_readable_zero (v : ElementValue) : ¬ v.Readable 0 := by
  intro h
  exact Nat.not_lt_zero _ (h 0 v (.self v)).1

section Levels

variable {levels : Nat}

theorem readable_const_iff {tag : UInt8} {index : UInt16} :
    (const tag index).Readable (levels + 1) ↔ isConstTag tag = true := by
  constructor
  · intro h
    exact (h 0 _ (.self _)).2 tag index rfl
  · intro h d w hw
    cases hw
    refine ⟨Nat.succ_pos levels, ?_⟩
    intro tag' index' heq
    obtain ⟨rfl, -⟩ := const.inj heq
    exact h

theorem readable_enumeration (typeName constName : UInt16) :
    (enumeration typeName constName).Readable (levels + 1) := by
  intro d w hw
  cases hw
  exact ⟨Nat.succ_pos levels, fun _ _ heq => nomatch heq⟩

theorem readable_classInfo (index : UInt16) : (classInfo index).Readable (levels + 1) := by
  intro d w hw
  cases hw
  exact ⟨Nat.succ_pos levels, fun _ _ heq => nomatch heq⟩

theorem readable_array_iff {vs : List ElementValue} :
    (array vs).Readable (levels + 1) ↔ ∀ v ∈ vs, v.Readable levels := by
  constructor
  · intro h v hv d w hw
    obtain ⟨hlt, htag⟩ := h (d + 1) w (.array hv hw)
    exact ⟨Nat.lt_of_succ_lt_succ hlt, htag⟩
  · intro h d w hw
    cases hw with
    | self => exact ⟨Nat.succ_pos levels, fun _ _ heq => nomatch heq⟩
    | array hv hw =>
      obtain ⟨hlt, htag⟩ := h _ hv _ w hw
      exact ⟨Nat.succ_lt_succ hlt, htag⟩

theorem readable_nested_iff {a : Annotation} :
    (nested a).Readable (levels + 1) ↔ ∀ p ∈ a.elements, p.value.Readable levels := by
  constructor
  · intro h p hp d w hw
    obtain ⟨hlt, htag⟩ := h (d + 1) w (.nested hp hw)
    exact ⟨Nat.lt_of_succ_lt_succ hlt, htag⟩
  · intro h d w hw
    cases hw with
    | self => exact ⟨Nat.succ_pos levels, fun _ _ heq => nomatch heq⟩
    | nested hp hw =>
      obtain ⟨hlt, htag⟩ := h _ hp _ w hw
      exact ⟨Nat.succ_lt_succ hlt, htag⟩

end Levels

end ElementValue

/-! ## What is written -/

/-- The bytes of an element. -/
def ElementPair.encode (p : ElementPair) : Except Fault (List UInt8) :=
  p.value.encode.map (u16Bytes p.nameIndex ++ ·)

namespace ElementValue

theorem encodeAll_ok_iff {vs : List ElementValue} {bytes : List UInt8} :
    encodeAll [] vs = .ok bytes ↔ each encode vs = .ok bytes := by
  rw [after_eq_ok_iff (fun _ => by rw [encodeAll]) (fun _ _ _ => by rw [encodeAll])]
  simp

end ElementValue

theorem ElementPair.encodeAll_ok_iff {ps : List ElementPair} {bytes : List UInt8} :
    ElementPair.encodeAll [] ps = .ok bytes ↔ each ElementPair.encode ps = .ok bytes := by
  have hcons : ∀ done p ps, ElementPair.encodeAll done (p :: ps) =
      ElementPair.encode p >>= fun bytes => ElementPair.encodeAll (bytes :: done) ps := by
    rintro done ⟨nameIndex, v⟩ ps
    rw [encodeAll, encode, value]
    cases v.encode with
    | error e => rfl
    | ok bytes => rfl
  rw [after_eq_ok_iff (fun _ => by rw [encodeAll]) hcons]
  simp

theorem ElementValue.encode_nested_ok_iff {a : Annotation} {bytes : List UInt8} :
    (nested a).encode = .ok bytes ↔ ∃ body, a.encode = .ok body ∧ bytes = 0x40 :: body := by
  rw [encode, bind_ok_iff]
  simp only [pure_ok_iff, eq_comm (b := bytes)]

theorem ElementValue.encode_array_ok_iff {vs : List ElementValue} {bytes : List UInt8} :
    (array vs).encode = .ok bytes ↔
      ∃ body, counted "array element values" encode vs = .ok body ∧ bytes = 0x5B :: body := by
  rw [encode, bind_ok_iff]
  simp only [bind_ok_iff, pure_ok_iff, encodeAll_ok_iff, counted]
  constructor
  · rintro ⟨count, hcount, body, hbody, rfl⟩
    exact ⟨count ++ body, ⟨count, hcount, body, hbody, rfl⟩, rfl⟩
  · rintro ⟨_, ⟨count, hcount, body, hbody, rfl⟩, rfl⟩
    exact ⟨count, hcount, body, hbody, rfl⟩

theorem Annotation.encode_ok_iff {a : Annotation} {bytes : List UInt8} :
    a.encode = .ok bytes ↔
      ∃ body, counted "annotation elements" ElementPair.encode a.elements = .ok body ∧
        bytes = u16Bytes a.typeIndex ++ body := by
  rcases a with ⟨typeIndex, elements⟩
  rw [encode, bind_ok_iff]
  simp only [bind_ok_iff, pure_ok_iff, ElementPair.encodeAll_ok_iff, counted, Annotation.elements,
    Annotation.typeIndex]
  constructor
  · rintro ⟨count, hcount, body, hbody, rfl⟩
    exact ⟨count ++ body, ⟨count, hcount, body, hbody, rfl⟩, List.append_assoc _ _ _⟩
  · rintro ⟨_, ⟨count, hcount, body, hbody, rfl⟩, rfl⟩
    exact ⟨count, hcount, body, hbody, List.append_assoc _ _ _⟩

/-! ## Reading undoes writing -/

theorem Annotation.inverts_decodeWith {value : Reader ElementValue} {ok : ElementValue → Prop}
    (hvalue : Inverts value ok ElementValue.encode) :
    Inverts (decodeWith value) (fun a => ∀ p ∈ a.elements, ok p.value) encode := by
  have helement : Inverts
      (do let nameIndex ← Reader.u16 "annotation"
          let v ← value
          return ElementPair.mk nameIndex v)
      (fun p => ok p.value) ElementPair.encode := by
    rintro s ⟨nameIndex, v⟩ t
    simp only [bind_run_ok_iff, pure_run_ok_iff, u16_ok_iff, ElementPair.encode, map_ok_iff,
      ElementPair.value, ElementPair.nameIndex]
    constructor
    · rintro ⟨_, u, hname, _, _, hread, heq, rfl⟩
      obtain ⟨rfl, rfl⟩ := ElementPair.mk.inj heq
      obtain ⟨hok, body, hbody, hadvances⟩ := (hvalue _ _ _).1 hread
      exact ⟨hok, _, ⟨body, hbody, rfl⟩, Input.advances_append_iff.2 ⟨u, hname, hadvances⟩⟩
    · rintro ⟨hok, _, ⟨body, hbody, rfl⟩, hadvances⟩
      obtain ⟨u, hname, hrest⟩ := Input.advances_append_iff.1 hadvances
      exact ⟨nameIndex, u, hname, v, t, (hvalue _ _ _).2 ⟨hok, body, hbody, hrest⟩, rfl, rfl⟩
  have helements := helement.counted "annotation" "annotation elements"
  rintro s ⟨typeIndex, elements⟩ t
  simp only [decodeWith, bind_run_ok_iff, pure_run_ok_iff, u16_ok_iff, encode_ok_iff,
    Annotation.elements, Annotation.typeIndex]
  constructor
  · rintro ⟨_, u, htype, n, v, hcount, ps, _, htimes, heq, rfl⟩
    obtain ⟨rfl, rfl⟩ := Annotation.mk.inj heq
    obtain ⟨hok, body, hbody, hadvances⟩ :=
      (helements _ _ _).1 (bind_run_ok_iff.2 ⟨n, v, hcount, htimes⟩)
    exact ⟨hok, _, ⟨body, hbody, rfl⟩, Input.advances_append_iff.2 ⟨u, htype, hadvances⟩⟩
  · rintro ⟨hok, _, ⟨body, hbody, rfl⟩, hadvances⟩
    obtain ⟨u, htype, hrest⟩ := Input.advances_append_iff.1 hadvances
    obtain ⟨n, v, hcount, htimes⟩ :=
      bind_run_ok_iff.1 ((helements _ _ _).2 ⟨hok, body, hbody, hrest⟩)
    exact ⟨typeIndex, u, htype, n, v, hcount, elements, t, htimes, rfl, rfl⟩

namespace ElementValue

/-- A value is read from its tag and what belongs to the tag; what is nested is read with one level
less. -/
theorem decode_succ_ok_iff {levels : Nat} {s t : Input} {v : ElementValue} :
    decode (levels + 1) s = .ok v t ↔
      match v with
      | .const tag index => isConstTag tag = true ∧ s.Advances (tag :: u16Bytes index) t
      | .enumeration typeName constName =>
        s.Advances (0x65 :: (u16Bytes typeName ++ u16Bytes constName)) t
      | .classInfo index => s.Advances (0x63 :: u16Bytes index) t
      | .nested a => ∃ u, s.Advances [0x40] u ∧ Annotation.decodeWith (decode levels) u = .ok a t
      | .array vs => ∃ u, s.Advances [0x5B] u ∧
        (do times (← Reader.count16 context) (decode levels) : Reader _) u = .ok vs t := by
  rw [decode, bind_run_ok_iff]
  constructor
  · rintro ⟨tag, u, htag, hrest⟩
    rw [u8_ok_iff] at htag
    split at hrest
    · simp only [bind_run_ok_iff, pure_run_ok_iff, u16_ok_iff] at hrest
      obtain ⟨typeName, x, htype, constName, y, hconst, rfl, rfl⟩ := hrest
      exact Input.advances_cons_iff.2 ⟨u, htag, Input.advances_append_iff.2 ⟨x, htype, hconst⟩⟩
    · simp only [bind_run_ok_iff, pure_run_ok_iff, u16_ok_iff] at hrest
      obtain ⟨index, x, hindex, rfl, rfl⟩ := hrest
      exact Input.advances_cons_iff.2 ⟨u, htag, hindex⟩
    · obtain ⟨a, x, ha, hpure⟩ := bind_run_ok_iff.1 hrest
      obtain ⟨rfl, rfl⟩ := pure_run_ok_iff.1 hpure
      exact ⟨u, htag, ha⟩
    · obtain ⟨count, x, hcount, hmore⟩ := bind_run_ok_iff.1 hrest
      obtain ⟨vs, y, hvs, hpure⟩ := bind_run_ok_iff.1 hmore
      obtain ⟨rfl, rfl⟩ := pure_run_ok_iff.1 hpure
      exact ⟨u, htag, bind_run_ok_iff.2 ⟨count, x, hcount, hvs⟩⟩
    · split at hrest
      · rename_i hconst
        simp only [bind_run_ok_iff, pure_run_ok_iff, u16_ok_iff] at hrest
        obtain ⟨index, x, hindex, rfl, rfl⟩ := hrest
        exact ⟨hconst, Input.advances_cons_iff.2 ⟨u, htag, hindex⟩⟩
      · exact absurd hrest fail_ne_ok
  · intro h
    cases v with
    | const tag index =>
      obtain ⟨hconst, hadvances⟩ := h
      obtain ⟨u, htag, hindex⟩ := Input.advances_cons_iff.1 hadvances
      refine ⟨tag, u, u8_ok_iff.2 htag, ?_⟩
      -- the tags of the other values are not those of constants
      split
      case h_5 =>
        rw [if_pos hconst]
        exact bind_run_ok_iff.2 ⟨index, t, u16_ok_iff.2 hindex, rfl⟩
      all_goals exact absurd hconst (by decide)
    | enumeration typeName constName =>
      obtain ⟨u, htag, hnames⟩ := Input.advances_cons_iff.1 h
      obtain ⟨x, htype, hconst⟩ := Input.advances_append_iff.1 hnames
      refine ⟨0x65, u, u8_ok_iff.2 htag, bind_run_ok_iff.2 ⟨typeName, x, u16_ok_iff.2 htype, ?_⟩⟩
      exact bind_run_ok_iff.2 ⟨constName, t, u16_ok_iff.2 hconst, rfl⟩
    | classInfo index =>
      obtain ⟨u, htag, hindex⟩ := Input.advances_cons_iff.1 h
      exact ⟨0x63, u, u8_ok_iff.2 htag, bind_run_ok_iff.2 ⟨index, t, u16_ok_iff.2 hindex, rfl⟩⟩
    | nested a =>
      obtain ⟨u, htag, ha⟩ := h
      exact ⟨0x40, u, u8_ok_iff.2 htag, bind_run_ok_iff.2 ⟨a, t, ha, rfl⟩⟩
    | array vs =>
      obtain ⟨u, htag, hvs⟩ := h
      obtain ⟨count, x, hcount, hvs⟩ := bind_run_ok_iff.1 hvs
      refine ⟨0x5B, u, u8_ok_iff.2 htag, bind_run_ok_iff.2 ⟨count, x, hcount, ?_⟩⟩
      exact bind_run_ok_iff.2 ⟨vs, t, hvs, rfl⟩

/-- Reading behind a tag, and what is written behind it. -/
theorem exists_tag_iff {tag : UInt8} {ok : Prop} {written : Except Fault (List UInt8)}
    {s t : Input} :
    (∃ u, s.Advances [tag] u ∧ ok ∧ ∃ body, written = .ok body ∧ u.Advances body t) ↔
      ok ∧ ∃ bytes, (∃ body, written = .ok body ∧ bytes = tag :: body) ∧ s.Advances bytes t := by
  constructor
  · rintro ⟨u, htag, hok, body, hbody, hadvances⟩
    exact ⟨hok, _, ⟨body, hbody, rfl⟩, Input.advances_cons_iff.2 ⟨u, htag, hadvances⟩⟩
  · rintro ⟨hok, _, ⟨body, hbody, rfl⟩, hadvances⟩
    obtain ⟨u, htag, hrest⟩ := Input.advances_cons_iff.1 hadvances
    exact ⟨u, htag, hok, body, hbody, hrest⟩

/-- With the given number of levels exactly the readable values are read, each from what is written
for it. -/
theorem inverts_decode (levels : Nat) : Inverts (decode levels) (Readable levels) encode := by
  induction levels with
  | zero =>
    intro s v t
    constructor
    · intro h
      exact absurd h fail_ne_ok
    · rintro ⟨h, -⟩
      exact absurd h (not_readable_zero v)
  | succ levels ih =>
    intro s v t
    rw [decode_succ_ok_iff]
    cases v with
    | const tag index =>
      rw [readable_const_iff, encode]
      simp
    | enumeration typeName constName =>
      simp [readable_enumeration, encode]
    | classInfo index =>
      simp [readable_classInfo, encode]
    | nested a =>
      have hnested := Annotation.inverts_decodeWith ih
      simp only [hnested _ _ _, readable_nested_iff, encode_nested_ok_iff]
      exact exists_tag_iff
    | array vs =>
      simp only [(ih.counted context "array element values") _ _ _, readable_array_iff,
        encode_array_ok_iff]
      exact exists_tag_iff

end ElementValue

namespace Annotation

/-- The annotation can be read with the given number of levels for its values. -/
def Readable (levels : Nat) (a : Annotation) : Prop :=
  ∀ p ∈ a.elements, p.value.Readable levels

theorem readable_iff {a : Annotation} {limit : Nat} :
    a.Readable (limit + 1) ↔ a.ConstTagged ∧ a.DepthLE limit := by
  constructor
  · intro h
    refine ⟨?_, ?_⟩
    · rintro d tag index ⟨p, hp, hw⟩
      exact ElementValue.isConstTag_iff.1 ((h p hp d _ hw).2 tag index rfl)
    · rintro d w ⟨p, hp, hw⟩
      exact Nat.le_of_lt_succ (h p hp d w hw).1
  · rintro ⟨htag, hdepth⟩ p hp d w hw
    refine ⟨Nat.lt_succ_of_le (hdepth d w ⟨p, hp, hw⟩), ?_⟩
    rintro tag index rfl
    exact ElementValue.isConstTag_iff.2 (htag d tag index ⟨p, hp, hw⟩)

/-- With enough levels, the tags of the constants are all that matters. -/
theorem readable_of_constTagged {as : List Annotation} {limit : Nat}
    (has : ∀ a ∈ as, a.ConstTagged) (hlimit : sizeOf as ≤ limit) :
    ∀ a ∈ as, a.Readable (limit + 1) := by
  intro a ha
  refine readable_iff.2 ⟨has a ha, ?_⟩
  rintro d w ⟨p, hp, hw⟩
  have hdepth := hw.lt_sizeOf
  have hvalue := ElementPair.sizeOf_value_lt hp
  have hannotation := List.sizeOf_lt_of_mem ha
  omega

theorem inverts_decode (levels : Nat) :
    Inverts (decodeWith (ElementValue.decode levels)) (Readable levels) encode :=
  inverts_decodeWith (ElementValue.inverts_decode levels)

/-- A counted list of annotations is read exactly from what is written for it. -/
theorem inverts_list (levels : Nat) (context : String) :
    Inverts (do times (← Reader.count16 context) (decodeWith (ElementValue.decode levels)))
      (fun as => ∀ a ∈ as, a.Readable levels) encodeList :=
  (inverts_decode levels).counted context "annotations"

theorem encodeParameters_ok_iff {ps : List (List Annotation)} {info : List UInt8} :
    encodeParameters ps = .ok info ↔
      ps.length ≤ 255 ∧ ∃ body, each encodeList ps = .ok body ∧
        info = toBytes 1 ps.length ++ body := by
  rw [encodeParameters, unless_ok_iff fun _ => throw_ne_ok, Nat.not_lt, bind_ok_iff]
  simp only [pure_ok_iff, eq_comm (b := info)]
  rfl

/-- The table of the parameters is read exactly from what is written for it. -/
theorem inverts_parameters {list : Reader (List Annotation)} {ok : List Annotation → Prop}
    (hlist : Inverts list ok encodeList) (context : String) :
    Inverts (do times (← Reader.number 1 context) list) (fun ps => ∀ as ∈ ps, ok as)
      encodeParameters := by
  intro s ps t
  rw [bind_run_ok_iff]
  constructor
  · rintro ⟨n, u, hcount, htimes⟩
    obtain ⟨rfl, hitems⟩ := Reader.times_ok_iff.1 htimes
    obtain ⟨hall, body, hbody, hadvances⟩ := hlist.delivers_iff.1 hitems
    obtain ⟨hlt, hlength⟩ := number_ok_iff.1 hcount
    exact ⟨hall, _, encodeParameters_ok_iff.2 ⟨Nat.le_of_lt_succ hlt, body, hbody, rfl⟩,
      Input.advances_append_iff.2 ⟨u, hlength, hadvances⟩⟩
  · rintro ⟨hall, bytes, hbytes, hadvances⟩
    obtain ⟨hle, body, hbody, rfl⟩ := encodeParameters_ok_iff.1 hbytes
    obtain ⟨u, hlength, hrest⟩ := Input.advances_append_iff.1 hadvances
    exact ⟨ps.length, u, number_ok_iff.2 ⟨Nat.lt_succ_of_le hle, hlength⟩,
      Reader.times_ok_iff.2 ⟨rfl, hlist.delivers_iff.2 ⟨hall, body, hbody, hrest⟩⟩⟩

/-! ## The limit -/

theorem decodeList_ok_iff {info : List UInt8} {as : List Annotation} :
    decodeList info = .ok as ↔
      ((∀ a ∈ as, a.ConstTagged) ∧ ∀ a ∈ as, a.DepthLE 64) ∧ encodeList as = .ok info := by
  have hinverts := inverts_list ElementValue.maxLevels "annotations"
  simp only [ElementValue.maxLevels, readable_iff, forall_and] at hinverts
  exact hinverts.onBytes_ok_iff

theorem decodeParameters_ok_iff {info : List UInt8} {ps : List (List Annotation)} :
    decodeParameters info = .ok ps ↔
      ((∀ as ∈ ps, ∀ a ∈ as, a.ConstTagged) ∧ ∀ as ∈ ps, ∀ a ∈ as, a.DepthLE 64) ∧
        encodeParameters ps = .ok info := by
  have hinverts := inverts_parameters
    (inverts_list ElementValue.maxLevels "parameter annotations") "parameter annotations"
  simp only [ElementValue.maxLevels, readable_iff, forall_and] at hinverts
  have hread : readParameters = (do
      let ps ← (do
        times (← Reader.number 1 "parameter annotations") (readCounted "parameter annotations"))
      expectEnd
      return ps) := by
    simp only [readParameters, bind_assoc]
  rw [decodeParameters, hread]
  exact hinverts.onBytes_ok_iff

/-- Different lists whose constants have tags of constants are not written alike, however deep they
are. -/
theorem eq_of_encodeList_eq {as bs : List Annotation} {info : List UInt8}
    (has : ∀ a ∈ as, a.ConstTagged) (hbs : ∀ b ∈ bs, b.ConstTagged)
    (hencode : encodeList as = .ok info) (hencode' : encodeList bs = .ok info) : as = bs := by
  have hreadable := readable_of_constTagged has (Nat.le_add_right _ (sizeOf bs))
  have hreadable' := readable_of_constTagged hbs (Nat.le_add_left _ (sizeOf as))
  exact (inverts_list _ "annotations").eq_of_encode_eq hreadable hreadable' hencode hencode'

theorem eq_of_encodeParameters_eq {ps qs : List (List Annotation)} {info : List UInt8}
    (hps : ∀ as ∈ ps, ∀ a ∈ as, a.ConstTagged) (hqs : ∀ bs ∈ qs, ∀ b ∈ bs, b.ConstTagged)
    (hencode : encodeParameters ps = .ok info) (hencode' : encodeParameters qs = .ok info) :
    ps = qs := by
  have hlists := inverts_list (sizeOf ps + sizeOf qs + 1) "annotations"
  refine (inverts_parameters hlists "parameters").eq_of_encode_eq ?_ ?_ hencode hencode'
  · intro as has
    have hsize := List.sizeOf_lt_of_mem has
    exact readable_of_constTagged (hps as has) (by omega)
  · intro bs hbs
    have hsize := List.sizeOf_lt_of_mem hbs
    exact readable_of_constTagged (hqs bs hbs) (by omega)

/-- What is written for `x` can only be read as `x`, and this happens if `x` is within the limit. -/
theorem exists_read_iff {β : Type} {read : List UInt8 → Except Fault β}
    {write : β → Except Fault (List UInt8)} {tagged within : β → Prop}
    (hread : ∀ {info y}, read info = .ok y ↔ (tagged y ∧ within y) ∧ write y = .ok info)
    (heq : ∀ {y z info}, tagged y → tagged z → write y = .ok info → write z = .ok info → y = z)
    {x : β} {info : List UInt8} (hx : tagged x) (hwrite : write x = .ok info) :
    ((∃ y, read info = .ok y) ↔ within x) ∧ ∀ y, read info = .ok y → y = x := by
  have honly : ∀ y, read info = .ok y → y = x := by
    intro y hy
    obtain ⟨⟨htagged, -⟩, hwrite'⟩ := hread.1 hy
    exact heq htagged hx hwrite' hwrite
  refine ⟨⟨?_, ?_⟩, honly⟩
  · rintro ⟨y, hy⟩
    obtain rfl := honly y hy
    exact (hread.1 hy).1.2
  · intro hwithin
    exact ⟨x, hread.2 ⟨⟨hx, hwithin⟩, hwrite⟩⟩

theorem exists_encodeParameters_iff {ps : List (List Annotation)} :
    (∃ info, encodeParameters ps = .ok info) ↔
      ps.length ≤ 255 ∧ ∀ as ∈ ps, ∃ info, encodeList as = .ok info := by
  simp only [encodeParameters_ok_iff, ← exists_each_iff]
  constructor
  · rintro ⟨_, hle, body, hbody, -⟩
    exact ⟨hle, body, hbody⟩
  · rintro ⟨hle, body, hbody⟩
    exact ⟨_, hle, body, hbody, rfl⟩

/-- What is read gives back its bytes when it is written. Conversely, annotations whose constants
have one of the nine tags, and that can be written, are read back exactly if no value lies deeper
than 64, and then as they were; the same holds of parameter tables, which can be written for up to
255 parameters. -/
theorem decode_encode_iff_depthLE :
    (∀ info as, decodeList info = .ok as → encodeList as = .ok info) ∧
      (∀ info ps, decodeParameters info = .ok ps → encodeParameters ps = .ok info) ∧
      (∀ as info, (∀ a ∈ as, a.ConstTagged) → encodeList as = .ok info →
        ((∃ bs, decodeList info = .ok bs) ↔ ∀ a ∈ as, a.DepthLE 64) ∧
          ∀ bs, decodeList info = .ok bs → bs = as) ∧
      (∀ ps info, (∀ as ∈ ps, ∀ a ∈ as, a.ConstTagged) → encodeParameters ps = .ok info →
        ((∃ qs, decodeParameters info = .ok qs) ↔ ∀ as ∈ ps, ∀ a ∈ as, a.DepthLE 64) ∧
          ∀ qs, decodeParameters info = .ok qs → qs = ps) ∧
      ∀ ps, (∃ info, encodeParameters ps = .ok info) ↔
        ps.length ≤ 255 ∧ ∀ as ∈ ps, ∃ info, encodeList as = .ok info := by
  refine ⟨?_, ?_, ?_, ?_, ?_⟩
  · intro info as h
    exact (decodeList_ok_iff.1 h).2
  · intro info ps h
    exact (decodeParameters_ok_iff.1 h).2
  · intro as info htagged hencode
    exact exists_read_iff decodeList_ok_iff eq_of_encodeList_eq htagged hencode
  · intro ps info htagged hencode
    exact exists_read_iff decodeParameters_ok_iff eq_of_encodeParameters_eq htagged hencode
  · intro ps
    exact exists_encodeParameters_iff

/-! ### At the limit -/

/-- A list without values. -/
def emptyArray : ElementValue := .array []

/-- An annotation without elements. -/
def marker : ElementValue := .nested (.mk 3 [])

/-- The value inside of `n` lists, each of one annotation with one element. -/
def tower (v : ElementValue) : Nat → ElementValue
  | 0 => v
  | n + 1 => .array [.nested (.mk 4 [.mk 5 (tower v n)])]

/-- Each storey takes two levels. -/
theorem readable_tower_iff {v : ElementValue} {levels n : Nat} :
    (tower v n).Readable (levels + 2 * n) ↔ v.Readable levels := by
  induction n with
  | zero => exact Iff.rfl
  | succ n ih =>
    rw [tower, Nat.mul_succ, ← Nat.add_assoc, ElementValue.readable_array_iff,
      List.forall_mem_singleton, ElementValue.readable_nested_iff]
    exact List.forall_mem_singleton.trans ih

/-- The annotation whose only element is the value under 32 storeys. -/
def under32 (v : ElementValue) : Annotation := .mk 1 [.mk 2 (tower v 32)]

theorem readable_under32_iff {v : ElementValue} {levels : Nat} :
    (under32 v).Readable (levels + 64) ↔ v.Readable levels :=
  List.forall_mem_singleton.trans readable_tower_iff

theorem readable_emptyArray : emptyArray.Readable 1 :=
  ElementValue.readable_array_iff.2 (List.forall_mem_nil _)

theorem readable_marker : marker.Readable 1 :=
  ElementValue.readable_nested_iff.2 (List.forall_mem_nil _)

theorem readable_array_marker_iff {levels : Nat} :
    (ElementValue.array [marker]).Readable (levels + 1) ↔ marker.Readable levels := by
  rw [ElementValue.readable_array_iff, List.forall_mem_singleton]

/-- A list without values and an annotation without elements are accepted 64 levels deep, in lists
of annotations and in parameter tables, and nothing is accepted one level deeper. -/
theorem exists_decodeList_under32 :
    (∃ info, encodeList [under32 emptyArray, under32 marker] = .ok info ∧
        decodeList info = .ok [under32 emptyArray, under32 marker]) ∧
      (∃ info, encodeParameters [[], [under32 marker]] = .ok info ∧
        decodeParameters info = .ok [[], [under32 marker]]) ∧
      ∃ info, encodeList [under32 (.array [marker])] = .ok info ∧
        ∀ as, decodeList info ≠ .ok as := by
  obtain ⟨-, -, hlist, hparameters, -⟩ := decode_encode_iff_depthLE
  obtain ⟨hconst, hdepth⟩ := readable_iff.1 (readable_under32_iff.2 readable_emptyArray)
  obtain ⟨hconst', hdepth'⟩ := readable_iff.1 (readable_under32_iff.2 readable_marker)
  refine ⟨?_, ?_, ?_⟩
  · obtain ⟨info, hinfo, -⟩ : ∃ info, encodeList [under32 emptyArray, under32 marker] = .ok info ∧
        info.length = 662 := by
      decide +kernel
    obtain ⟨hiff, honly⟩ := hlist _ info (by simp [hconst, hconst']) hinfo
    obtain ⟨as, has⟩ := hiff.2 (by simp [hdepth, hdepth'])
    exact ⟨info, hinfo, honly as has ▸ has⟩
  · obtain ⟨info, hinfo, -⟩ : ∃ info, encodeParameters [[], [under32 marker]] = .ok info ∧
        info.length = 336 := by
      decide +kernel
    obtain ⟨hiff, honly⟩ := hparameters _ info (by simp [hconst']) hinfo
    obtain ⟨ps, hps⟩ := hiff.2 (by simp [hdepth'])
    exact ⟨info, hinfo, honly ps hps ▸ hps⟩
  · obtain ⟨info, hinfo, -⟩ : ∃ info, encodeList [under32 (.array [marker])] = .ok info ∧
        info.length = 336 := by
      decide +kernel
    -- with one level more it could be read, so that its tags are not the reason
    obtain ⟨hconst, -⟩ := readable_iff.1
      (readable_under32_iff.2 (readable_array_marker_iff.2 readable_marker))
    obtain ⟨hiff, -⟩ := hlist _ info (by simpa using hconst) hinfo
    refine ⟨info, hinfo, ?_⟩
    intro as has
    have hdepth := hiff.1 ⟨as, has⟩ _ List.mem_cons_self
    have hreadable := readable_under32_iff.1 (readable_iff.2 ⟨hconst, hdepth⟩)
    exact absurd (readable_array_marker_iff.1 hreadable) (ElementValue.not_readable_zero marker)

end Annotation

end PatternGuard
