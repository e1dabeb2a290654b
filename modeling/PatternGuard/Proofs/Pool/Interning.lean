import PatternGuard.Pool.Lookup
import PatternGuard.Proofs.Pool.Codec
import PatternGuard.Proofs.Text.ModifiedUtf8

/-!
# Adding constants to a pool

A constant is looked up under its bytes, and since no two constants have the same bytes the entry
that is found is the constant (`get?_of_find?`). So whatever is interned stands at the index that
is delivered, every other entry stays where it is, and a pool that can be written stays one
(`intern_ok`). What is true of one constant is true of every name built from several, and the pool is
left in order also if a name is not finished because one of its constants is refused
(`Interning.Delivers`).
-/

set_option autoImplicit false

namespace PatternGuard

open Outcome Text

namespace Constant

variable {c d : Constant}

/-- No two constants that can be read have the same bytes. -/
theorem eq_of_encode_eq (hc : c.Readable) (hd : d.Readable) (h : c.encode = d.encode) : c = d := by
  have hread := decode_of_readable 0 hc (Input.advances_all c.encode 0)
  rw [h] at hread
  have hread' := decode_of_readable 0 hd (Input.advances_all d.encode 0)
  rw [hread'] at hread
  injection hread with hvalue
  exact hvalue.symm

/-- No other constant has the bytes of a text. -/
theorem eq_utf8_of_encode_eq {bytes : List UInt8} (h : c.encode = (utf8 bytes).encode) :
    c = utf8 bytes := by
  cases c with
  | utf8 other =>
    simp only [encode, tag, payload, List.cons.injEq, true_and] at h
    obtain ⟨-, rfl⟩ := List.append_inj h (by rw [Bytes.length_toBytes, Bytes.length_toBytes])
    rfl
  | _ => simp [encode, tag] at h

/-- Only a placeholder takes no bytes. -/
theorem encode_eq_nil_iff : c.encode = [] ↔ c = unusable := by
  cases c <;> simp [encode, tag]

/-- No other constant has the bytes of a usable one, even if a class file cannot hold it. -/
theorem encode_eq_iff (hd : d ≠ unusable) : c.encode = d.encode ↔ c = d := by
  refine ⟨fun h => ?_, congrArg encode⟩
  have hc : c ≠ unusable := by
    intro hc
    rw [encode_eq_nil_iff.2 hc] at h
    exact hd (encode_eq_nil_iff.1 h.symm)
  -- apart from texts, which may be too long or malformed, every usable constant can be read
  have hreadable : ∀ {e : Constant}, e ≠ unusable → (¬∃ bytes, e = utf8 bytes) → e.Readable := by
    intro e hne htext
    cases e with
    | unusable => exact absurd rfl hne
    | utf8 bytes => exact absurd ⟨bytes, rfl⟩ htext
    | _ => exact trivial
  by_cases hctext : ∃ bytes, c = utf8 bytes
  · obtain ⟨bytes, rfl⟩ := hctext
    exact (eq_utf8_of_encode_eq h.symm).symm
  · by_cases hdtext : ∃ bytes, d = utf8 bytes
    · obtain ⟨bytes, rfl⟩ := hdtext
      exact eq_utf8_of_encode_eq h
    · exact eq_of_encode_eq (hreadable hc hctext) (hreadable hd hdtext) h

theorem ne_unusable_of_refusal (h : c.refusal = none) : c ≠ unusable := by
  rintro rfl
  exact absurd h (by simp [refusal])

theorem refusal_utf8_eq_none_iff {bytes : List UInt8} :
    (utf8 bytes).refusal = none ↔ bytes.length ≤ 65535 := by
  simp [refusal]

/-- A constant can be read if a pool may hold it and its text, in case it is one, can be decoded. -/
theorem readable_iff : c.Readable ↔ c.refusal = none ∧
    ∀ bytes, c = utf8 bytes → ∃ text, ModifiedUtf8.decode bytes = .ok text := by
  cases c with
  | unusable => simp [Readable, refusal]
  | utf8 bytes => simp [Readable, refusal_utf8_eq_none_iff, Nat.lt_succ_iff]
  | _ => simp [Readable, refusal]

theorem readable_ofText {text : String} (h : (ofText text).refusal = none) :
    (ofText text).Readable := by
  refine readable_iff.2 ⟨h, ?_⟩
  intro bytes hbytes
  obtain rfl := utf8.inj hbytes
  exact ⟨_, ModifiedUtf8.decode_encode text⟩

end Constant

namespace Pool

variable {pool pool' pool'' : Pool} {c : Constant} {index : UInt16}

/-! ## Entries by index -/

theorem get?_eq_some_iff :
    pool.get? index = some c ↔
      pool.entries.toList[index.toNat]? = some c ∧ c ≠ .unusable := by
  rw [get?, Array.getElem?_toList]
  split
  · rename_i h
    rw [h]
    constructor
    · intro hnone
      exact absurd hnone (by simp)
    · rintro ⟨hsome, hne⟩
      exact absurd (Option.some.inj hsome).symm hne
  · rename_i h
    constructor
    · intro hsome
      refine ⟨hsome, ?_⟩
      rintro rfl
      exact h hsome
    · exact fun hsome => hsome.1

/-- Whatever stands in the pool stands at the same index in the other one. -/
def Extends (pool pool' : Pool) : Prop :=
  ∀ index c, pool.get? index = some c → pool'.get? index = some c

theorem Extends.refl (pool : Pool) : pool.Extends pool := fun _ _ h => h

theorem Extends.trans (h : pool.Extends pool') (h' : pool'.Extends pool'') :
    pool.Extends pool'' :=
  fun index c hget => h' index c (h index c hget)

theorem extends_append (pool : Pool) (c : Constant) : pool.Extends (pool.append c) := by
  intro index d hget
  obtain ⟨hentry, hne⟩ := get?_eq_some_iff.1 hget
  obtain ⟨hlt, -⟩ := List.getElem?_eq_some_iff.1 hentry
  refine get?_eq_some_iff.2 ⟨?_, hne⟩
  rw [toList_entries_append, List.getElem?_append_left hlt, hentry]

theorem get?_append_count (hcount : pool.count < 65536) (hc : c ≠ .unusable) :
    (pool.append c).get? (UInt16.ofNat pool.count) = some c := by
  have hindex : (UInt16.ofNat pool.count).toNat = pool.entries.toList.length := by
    rw [UInt16.toNat_ofNat_of_lt' hcount, Array.length_toList]
    rfl
  have hslots : c.slots[0]? = some c := by
    rw [Constant.slots]
    split <;> rfl
  refine get?_eq_some_iff.2 ⟨?_, hc⟩
  rw [toList_entries_append, hindex, List.getElem?_append_right (Nat.le_refl _), Nat.sub_self,
    hslots]

/-- The entry that is found under the bytes of a constant is the constant. -/
theorem get?_of_find? {cs : List Constant} (hc : c ≠ .unusable)
    (hcount : (ofList cs).count < 65536) (h : (ofList cs).find? c = some index) :
    (ofList cs).get? index = some c := by
  -- the induction follows the pool as it was built, from the last constant
  induction cs using List.reverseRecOn with
  | nil => exact absurd h (by simp [ofList, find?, empty])
  | append_singleton cs d ih =>
    rw [ofList_append_singleton] at h hcount ⊢
    rw [count_append] at hcount
    rw [find?_append] at h
    split at h
    · -- the constant was found nowhere before it was appended
      rename_i hfirst
      obtain rfl := (Constant.encode_eq_iff hc).1 hfirst.1
      obtain rfl := Option.some.inj h
      exact get?_append_count (by omega) hc
    · -- an earlier entry stays where it is
      exact extends_append _ d index c (ih (by omega) h)

/-! ## Lookups in a pool with more entries -/

theorem text_eq_ok_iff {text : String} :
    pool.text index = .ok text ↔
      ∃ bytes, pool.get? index = some (.utf8 bytes) ∧ ModifiedUtf8.decode bytes = .ok text := by
  rw [Pool.text]
  constructor
  · intro h
    split at h
    · rename_i bytes hget
      exact ⟨bytes, hget, h⟩
    · exact absurd h (by simp)
  · rintro ⟨bytes, hget, hdecode⟩
    rw [hget]
    exact hdecode

theorem className_eq_ok_iff {name : String} :
    pool.className index = .ok name ↔
      ∃ i, pool.get? index = some (.classEntry i) ∧ pool.text i = .ok name := by
  rw [className]
  constructor
  · intro h
    split at h
    · rename_i i hget
      exact ⟨i, hget, h⟩
    · exact absurd h (by simp)
  · rintro ⟨i, hget, htext⟩
    rw [hget]
    exact htext

theorem string_eq_ok_iff {value : String} :
    pool.string index = .ok value ↔
      ∃ i, pool.get? index = some (.string i) ∧ pool.text i = .ok value := by
  rw [Pool.string]
  constructor
  · intro h
    split at h
    · rename_i i hget
      exact ⟨i, hget, h⟩
    · exact absurd h (by simp)
  · rintro ⟨i, hget, htext⟩
    rw [hget]
    exact htext

theorem nameAndType_eq_ok_iff {name descriptor : String} :
    pool.nameAndType index = .ok (name, descriptor) ↔
      ∃ i j, pool.get? index = some (.nameAndType i j) ∧ pool.text i = .ok name ∧
        pool.text j = .ok descriptor := by
  rw [nameAndType]
  constructor
  · intro h
    split at h
    · rename_i i j hget
      obtain ⟨name', hname, h⟩ := bind_ok_iff.1 h
      obtain ⟨descriptor', hdescriptor, h⟩ := bind_ok_iff.1 h
      obtain ⟨rfl, rfl⟩ := Prod.mk.inj (pure_ok_iff.1 h)
      exact ⟨i, j, hget, hname, hdescriptor⟩
    · exact absurd h (by simp)
  · rintro ⟨i, j, hget, hname, hdescriptor⟩
    rw [hget]
    exact bind_ok_iff.2 ⟨name, hname, bind_ok_iff.2 ⟨descriptor, hdescriptor, rfl⟩⟩

theorem memberRef_eq_ok_iff {m : MemberRef} :
    pool.memberRef index = .ok m ↔
      ∃ c i j, pool.get? index = some c ∧ memberIndices c = some (i, j) ∧
        pool.className i = .ok m.owner ∧ pool.nameAndType j = .ok (m.name, m.descriptor) := by
  rw [memberRef]
  constructor
  · intro h
    split at h
    · rename_i i j hindices
      obtain ⟨c, hget, hindices⟩ := Option.bind_eq_some_iff.1 hindices
      obtain ⟨⟨name, descriptor⟩, hnames, h⟩ := bind_ok_iff.1 h
      obtain ⟨owner, howner, h⟩ := bind_ok_iff.1 h
      obtain rfl := pure_ok_iff.1 h
      exact ⟨c, i, j, hget, hindices, howner, hnames⟩
    · exact absurd h (by simp)
  · rintro ⟨c, i, j, hget, hindices, howner, hnames⟩
    rw [hget, Option.bind_some, hindices]
    exact bind_ok_iff.2 ⟨_, hnames, bind_ok_iff.2 ⟨_, howner, rfl⟩⟩

theorem Extends.text_eq_ok {text : String} (hextends : pool.Extends pool')
    (h : pool.text index = .ok text) : pool'.text index = .ok text := by
  obtain ⟨bytes, hget, hdecode⟩ := text_eq_ok_iff.1 h
  exact text_eq_ok_iff.2 ⟨bytes, hextends _ _ hget, hdecode⟩

theorem Extends.className_eq_ok {name : String} (hextends : pool.Extends pool')
    (h : pool.className index = .ok name) : pool'.className index = .ok name := by
  obtain ⟨i, hget, htext⟩ := className_eq_ok_iff.1 h
  exact className_eq_ok_iff.2 ⟨i, hextends _ _ hget, hextends.text_eq_ok htext⟩

theorem Extends.string_eq_ok {value : String} (hextends : pool.Extends pool')
    (h : pool.string index = .ok value) : pool'.string index = .ok value := by
  obtain ⟨i, hget, htext⟩ := string_eq_ok_iff.1 h
  exact string_eq_ok_iff.2 ⟨i, hextends _ _ hget, hextends.text_eq_ok htext⟩

theorem Extends.nameAndType_eq_ok {names : String × String} (hextends : pool.Extends pool')
    (h : pool.nameAndType index = .ok names) : pool'.nameAndType index = .ok names := by
  obtain ⟨i, j, hget, hname, hdescriptor⟩ := nameAndType_eq_ok_iff.1 h
  exact nameAndType_eq_ok_iff.2
    ⟨i, j, hextends _ _ hget, hextends.text_eq_ok hname, hextends.text_eq_ok hdescriptor⟩

theorem Extends.memberRef_eq_ok {m : MemberRef} (hextends : pool.Extends pool')
    (h : pool.memberRef index = .ok m) : pool'.memberRef index = .ok m := by
  obtain ⟨c, i, j, hget, hindices, howner, hnames⟩ := memberRef_eq_ok_iff.1 h
  exact memberRef_eq_ok_iff.2 ⟨c, i, j, hextends _ _ hget, hindices,
    hextends.className_eq_ok howner, hextends.nameAndType_eq_ok hnames⟩

theorem Extends.exists_text (hextends : pool.Extends pool')
    (h : ∃ text, pool.text index = .ok text) : ∃ text, pool'.text index = .ok text := by
  obtain ⟨text, htext⟩ := h
  exact ⟨text, hextends.text_eq_ok htext⟩

theorem Extends.exists_className (hextends : pool.Extends pool')
    (h : ∃ name, pool.className index = .ok name) : ∃ name, pool'.className index = .ok name := by
  obtain ⟨name, hname⟩ := h
  exact ⟨name, hextends.className_eq_ok hname⟩

theorem Extends.isText_eq {text name : String} (hextends : pool.Extends pool')
    (h : pool.text index = .ok text) : pool'.isText index name = pool.isText index name := by
  obtain ⟨bytes, hget, -⟩ := text_eq_ok_iff.1 h
  rw [isText, isText, hget, hextends _ _ hget]

/-! ## References -/

/-- The index is that of an entry of the kind. -/
def Names (pool : Pool) (index : UInt16) (kind : EntryKind) : Prop :=
  ∃ c, pool.get? index = some c ∧ c.isOf kind = true

instance (pool : Pool) (index : UInt16) (kind : EntryKind) : Decidable (pool.Names index kind) :=
  decidable_of_iff ((pool.get? index).any (Constant.isOf kind) = true) (by
    rw [Names]
    cases pool.get? index with
    | none => simp
    | some c => simp)

theorem Names.of_extends {kind : EntryKind} (hextends : pool.Extends pool')
    (h : pool.Names index kind) : pool'.Names index kind := by
  obtain ⟨c, hget, hkind⟩ := h
  exact ⟨c, hextends _ _ hget, hkind⟩

/-- Every reference of the constant names an entry of the right kind. -/
def Resolves (pool : Pool) (c : Constant) : Prop :=
  ∀ r ∈ c.references, ∃ d, pool.get? r.1 = some d ∧ d.isOf r.2 = true

theorem Resolves.mono (hextends : pool.Extends pool') (h : pool.Resolves c) : pool'.Resolves c := by
  intro r hr
  obtain ⟨d, hget, hkind⟩ := h r hr
  exact ⟨d, hextends _ _ hget, hkind⟩

theorem checkReferences_ok_iff :
    pool.checkReferences = .ok () ↔ ∀ c ∈ pool.entries.toList, pool.Resolves c := by
  rw [checkReferences, forM_ok_iff]
  refine forall_congr' fun c => imp_congr_right fun _ => ?_
  rw [forM_ok_iff]
  refine forall_congr' fun r => imp_congr_right fun _ => ?_
  rcases r with ⟨index, kind⟩
  simp only
  cases pool.get? index with
  | none => simp
  | some d => simp

/-! ## Growth -/

/-- The pool is sound, and its slots can be counted in two bytes. -/
structure Writable (pool : Pool) : Prop where
  sound : pool.Sound
  count_lt : pool.count < 65536

theorem Sound.writable_of_encode {bytes : List UInt8} (hsound : pool.Sound)
    (h : pool.encode = .ok bytes) : pool.Writable := by
  obtain ⟨cs, -, rfl⟩ := hsound.built
  exact ⟨hsound, (encode_ofList_ok_iff.1 h).1⟩

theorem Writable.append (hpool : pool.Writable) (hc : c.Readable) (hresolves : pool.Resolves c)
    (hcount : pool.count + c.width < 65536) : (pool.append c).Writable := by
  obtain ⟨⟨⟨cs, hcs, rfl⟩, hreferences⟩, -⟩ := hpool
  have hextends := extends_append (ofList cs) c
  refine ⟨⟨⟨cs ++ [c], ?_, (ofList_append_singleton cs c).symm⟩, ?_⟩, ?_⟩
  · intro d hd
    rcases List.mem_append.1 hd with hd | hd
    · exact hcs d hd
    · exact (List.mem_singleton.1 hd) ▸ hc
  · rw [checkReferences_ok_iff] at hreferences ⊢
    intro d hd
    rw [toList_entries_append] at hd
    rcases List.mem_append.1 hd with hd | hd
    · exact (hreferences d hd).mono hextends
    · rw [Constant.slots] at hd
      split at hd
      · rcases List.mem_cons.1 hd with rfl | hd
        · exact hresolves.mono hextends
        · -- the second slot refers to nothing
          obtain rfl := List.mem_singleton.1 hd
          exact fun r hr => absurd hr List.not_mem_nil
      · obtain rfl := List.mem_singleton.1 hd
        exact hresolves.mono hextends
  · rwa [count_append]

/-- The pool becomes the other one by the addition of constants. -/
structure GrowsTo (pool pool' : Pool) : Prop where
  writable : pool'.Writable
  extends_get : pool.Extends pool'

theorem GrowsTo.trans (h : pool.GrowsTo pool') (h' : pool'.GrowsTo pool'') :
    pool.GrowsTo pool'' :=
  ⟨h'.writable, h.extends_get.trans h'.extends_get⟩

/-- A constant that is interned is one that a pool may hold. It is found in the pool, or it is
missing, there is room for it, and it is appended. -/
theorem intern_cases (h : intern c pool = .ok index pool') :
    c.refusal = none ∧ ((pool.find? c = some index ∧ pool' = pool) ∨
      (pool.find? c = none ∧ pool.count + c.width ≤ maxCount ∧
        index = UInt16.ofNat pool.count ∧ pool' = pool.append c)) := by
  rw [intern] at h
  cases hrefusal : c.refusal with
  | some e => simp [hrefusal] at h
  | none =>
    refine ⟨rfl, ?_⟩
    simp only [hrefusal] at h
    cases hfind : pool.find? c with
    | some found =>
      simp only [hfind, EStateM.Result.ok.injEq] at h
      obtain ⟨rfl, rfl⟩ := h
      exact Or.inl ⟨rfl, rfl⟩
    | none =>
      simp only [hfind] at h
      split at h
      · rename_i hroom
        simp only [EStateM.Result.ok.injEq] at h
        obtain ⟨rfl, rfl⟩ := h
        exact Or.inr ⟨rfl, hroom, rfl, rfl⟩
      · simp at h

/-- An attempt that fails leaves the pool as it is. No pool may hold the constant, or it is missing
and there is no room for it. -/
theorem intern_error_cases {e : Fault} (h : intern c pool = .error e pool') :
    pool' = pool ∧ (c.refusal = some e ∨ (c.refusal = none ∧ pool.find? c = none ∧
      maxCount < pool.count + c.width ∧ e = .constantPoolOverflow)) := by
  rw [intern] at h
  cases hrefusal : c.refusal with
  | some e' =>
    simp only [hrefusal, EStateM.Result.error.injEq] at h
    obtain ⟨rfl, rfl⟩ := h
    exact ⟨rfl, Or.inl rfl⟩
  | none =>
    simp only [hrefusal] at h
    cases hfind : pool.find? c with
    | some found => simp [hfind] at h
    | none =>
      simp only [hfind] at h
      split at h
      · simp at h
      · rename_i hroom
        simp only [EStateM.Result.error.injEq] at h
        obtain ⟨rfl, rfl⟩ := h
        exact ⟨rfl, Or.inr ⟨rfl, rfl, Nat.not_le.1 hroom, rfl⟩⟩

/-- A pool as it comes about: its constants were appended one by one, and its slots can be counted
in two bytes. -/
structure Built (pool : Pool) : Prop where
  built : ∃ cs, pool = ofList cs
  count_lt : pool.count < 65536

theorem Writable.built (hpool : pool.Writable) : pool.Built := by
  obtain ⟨cs, -, hcs⟩ := hpool.sound.built
  exact ⟨⟨cs, hcs⟩, hpool.count_lt⟩

/-- A constant stands at the index under which it is interned. -/
theorem Built.get?_of_intern (hpool : pool.Built) (h : intern c pool = .ok index pool') :
    pool'.get? index = some c := by
  obtain ⟨hrefusal, hcases⟩ := intern_cases h
  have hne := Constant.ne_unusable_of_refusal hrefusal
  rcases hcases with ⟨hfind, rfl⟩ | ⟨-, -, rfl, rfl⟩
  · obtain ⟨⟨cs, rfl⟩, hcount⟩ := hpool
    exact get?_of_find? hne hcount hfind
  · exact get?_append_count hpool.count_lt hne

/-- A constant stands at the index under which it is interned, and the pool only grows. -/
theorem intern_ok (hpool : pool.Writable) (h : intern c pool = .ok index pool')
    (hc : c.refusal = none → c.Readable) (hresolves : pool.Resolves c) :
    pool.GrowsTo pool' ∧ pool'.get? index = some c := by
  refine ⟨?_, hpool.built.get?_of_intern h⟩
  obtain ⟨hrefusal, ⟨-, rfl⟩ | ⟨-, hroom, -, rfl⟩⟩ := intern_cases h
  · exact ⟨hpool, Extends.refl _⟩
  · have hcount : pool.count + c.width < 65536 := Nat.lt_succ_of_le hroom
    exact ⟨hpool.append (hc hrefusal) hresolves hcount, extends_append pool c⟩

end Pool

/-! ## Names of several constants -/

namespace Interning

open Pool

variable {pool pool' : Pool} {index : UInt16} {action : Interning UInt16} {kind kind' : EntryKind}

/-- What comes of interning in a pool: the pool has grown, whether or not the computation succeeds,
and an index that is delivered is that of an entry of the kind. -/
structure Delivers (pool : Pool) (action : Interning UInt16) (kind : EntryKind) : Prop where
  grows : pool.GrowsTo (lastState (action pool))
  names : ∀ index pool', action pool = .ok index pool' → pool'.Names index kind

theorem Delivers.of_ok (h : Delivers pool action kind) (hrun : action pool = .ok index pool') :
    pool.GrowsTo pool' ∧ pool'.Names index kind := by
  have hgrows := h.grows
  rw [hrun] at hgrows
  exact ⟨hgrows, h.names _ _ hrun⟩

theorem delivers_of_error {e : Fault} (hrun : action pool = .error e pool')
    (hgrows : pool.GrowsTo pool') : Delivers pool action kind := by
  refine ⟨?_, ?_⟩
  · rw [hrun]
    exact hgrows
  · intro index pool'' hok
    rw [hrun] at hok
    exact absurd hok (by simp)

theorem delivers_of_ok (hrun : action pool = .ok index pool') (hgrows : pool.GrowsTo pool')
    (hnames : pool'.Names index kind) : Delivers pool action kind := by
  refine ⟨?_, ?_⟩
  · rw [hrun]
    exact hgrows
  · intro index' pool'' hok
    rw [hrun] at hok
    obtain ⟨rfl, rfl⟩ := EStateM.Result.ok.inj hok
    exact hnames

theorem Delivers.bind {next : UInt16 → Interning UInt16} (h : Delivers pool action kind)
    (hnext : ∀ index pool', pool.GrowsTo pool' → pool'.Names index kind →
      Delivers pool' (next index) kind') : Delivers pool (action >>= next) kind' := by
  cases hrun : action pool with
  | error e pool' =>
    -- what was added before the failure only makes the pool larger
    have hgrows := h.grows
    rw [hrun] at hgrows
    exact delivers_of_error (bind_run_of_error hrun) hgrows
  | ok index pool' =>
    obtain ⟨hgrows, hnames⟩ := h.of_ok hrun
    obtain ⟨hgrows', hnames'⟩ := hnext index pool' hgrows hnames
    have hgoOn : (action >>= next) pool = next index pool' := bind_run_of_ok hrun
    refine ⟨?_, ?_⟩
    · rw [hgoOn]
      exact hgrows.trans hgrows'
    · rw [hgoOn]
      exact hnames'

theorem delivers_intern {c : Constant} (hpool : pool.Writable)
    (hc : c.refusal = none → c.Readable) (hresolves : pool.Resolves c)
    (hkind : c.isOf kind = true) : Delivers pool (intern c) kind := by
  cases hrun : intern c pool with
  | error e pool' =>
    obtain ⟨rfl, -⟩ := intern_error_cases hrun
    exact delivers_of_error hrun ⟨hpool, Extends.refl _⟩
  | ok index pool' =>
    obtain ⟨hgrows, hget⟩ := intern_ok hpool hrun hc hresolves
    exact delivers_of_ok hrun hgrows ⟨c, hget, hkind⟩

theorem text_ok {t : String} (hpool : pool.Writable) (h : text t pool = .ok index pool') :
    pool.GrowsTo pool' ∧ pool'.get? index = some (.ofText t) :=
  intern_ok hpool h Constant.readable_ofText (fun _ hr => absurd hr List.not_mem_nil)

theorem delivers_text (hpool : pool.Writable) (t : String) : Delivers pool (text t) .utf8 :=
  delivers_intern hpool Constant.readable_ofText (fun _ hr => absurd hr List.not_mem_nil) rfl

/-- An entry that refers to one text. -/
theorem delivers_named {entry : UInt16 → Constant} (hpool : pool.Writable) (t : String)
    (hreadable : ∀ i, (entry i).Readable) (hreferences : ∀ i, (entry i).references = [(i, .utf8)])
    (hkind : ∀ i, (entry i).isOf kind = true) :
    Delivers pool (do intern (entry (← text t))) kind := by
  refine (delivers_text hpool t).bind fun i pool₁ hgrows hname => ?_
  refine delivers_intern hgrows.writable (fun _ => hreadable i) ?_ (hkind i)
  rw [Resolves, hreferences]
  exact List.forall_mem_singleton.2 hname

theorem delivers_classNamed (hpool : pool.Writable) (name : String) :
    Delivers pool (classNamed name) .classEntry :=
  delivers_named hpool name (fun _ => trivial) (fun _ => rfl) (fun _ => rfl)

theorem delivers_string (hpool : pool.Writable) (value : String) :
    Delivers pool (string value) .string :=
  delivers_named hpool value (fun _ => trivial) (fun _ => rfl) (fun _ => rfl)

theorem string_ok {value : String} (hpool : pool.Writable)
    (h : string value pool = .ok index pool') :
    pool.GrowsTo pool' ∧ ∃ i, pool'.get? index = some (.string i) ∧
      pool'.get? i = some (.ofText value) := by
  obtain ⟨i, pool₁, hvalue, h₁⟩ := bind_run_ok_iff.1 h
  obtain ⟨hgrows, hget⟩ := text_ok hpool hvalue
  have hresolves : pool₁.Resolves (.string i) := List.forall_mem_singleton.2 ⟨_, hget, rfl⟩
  obtain ⟨hgrows', hget'⟩ := intern_ok hgrows.writable h₁ (fun _ => trivial) hresolves
  exact ⟨hgrows.trans hgrows', i, hget', hgrows'.extends_get _ _ hget⟩

theorem delivers_nameAndType (hpool : pool.Writable) (name descriptor : String) :
    Delivers pool (nameAndType name descriptor) .nameAndType := by
  refine (delivers_text hpool name).bind fun i pool₁ hgrows₁ hname => ?_
  refine (delivers_text hgrows₁.writable descriptor).bind fun j pool₂ hgrows₂ hdescriptor => ?_
  have hresolves : pool₂.Resolves (.nameAndType i j) := List.forall_mem_cons.2
    ⟨hname.of_extends hgrows₂.extends_get, List.forall_mem_singleton.2 hdescriptor⟩
  exact delivers_intern hgrows₂.writable (fun _ => trivial) hresolves rfl

/-- An entry that refers to a class and to a name with a descriptor. -/
theorem delivers_member {entry : UInt16 → UInt16 → Constant} (hpool : pool.Writable) (m : MemberRef)
    (hreadable : ∀ i j, (entry i j).Readable)
    (hreferences : ∀ i j, (entry i j).references = [(i, .classEntry), (j, .nameAndType)])
    (hkind : ∀ i j, (entry i j).isOf .memberReference = true) :
    Delivers pool (member entry m) .memberReference := by
  refine (delivers_classNamed hpool m.owner).bind fun i pool₁ hgrows₁ howner => ?_
  refine (delivers_nameAndType hgrows₁.writable m.name m.descriptor).bind
    fun j pool₂ hgrows₂ hname => ?_
  refine delivers_intern hgrows₂.writable (fun _ => hreadable i j) ?_ (hkind i j)
  rw [Resolves, hreferences]
  exact List.forall_mem_cons.2
    ⟨howner.of_extends hgrows₂.extends_get, List.forall_mem_singleton.2 hname⟩

theorem delivers_fieldRef (hpool : pool.Writable) (m : MemberRef) :
    Delivers pool (fieldRef m) .memberReference :=
  delivers_member hpool m (fun _ _ => trivial) (fun _ _ => rfl) (fun _ _ => rfl)

theorem delivers_methodRef (hpool : pool.Writable) (m : MemberRef) :
    Delivers pool (methodRef m) .memberReference :=
  delivers_member hpool m (fun _ _ => trivial) (fun _ _ => rfl) (fun _ _ => rfl)

theorem methodRef_ok {m : MemberRef} (hpool : pool.Writable)
    (h : methodRef m pool = .ok index pool') : pool.GrowsTo pool' :=
  ((delivers_methodRef hpool m).of_ok h).1

end Interning

end PatternGuard
