import PatternGuard.Proofs.Pool.Interned

/-!
# Names in a pool

In a sound pool every reference leads to an entry of the right kind, so that a name can be looked up
wherever an entry for it stands (`Pool.Sound.looksUp`). A sequence of requests for names leaves such
a pool sound, also if some of them fail half-way, with the constants that they had added by then
(`Pool.Writable.growsTo_afterRequests`).
-/

set_option autoImplicit false

namespace PatternGuard

open Outcome

namespace Pool

variable {pool : Pool} {index : UInt16}

/-! ## Looking up names -/

/-- The name that stands at the index is found by the look-up for entries of the kind. -/
def LooksUp (pool : Pool) (index : UInt16) : EntryKind → Prop
  | .utf8 => ∃ text, pool.text index = .ok text
  | .classEntry => ∃ name, pool.className index = .ok name
  | .string => ∃ text, pool.string index = .ok text
  | .nameAndType => ∃ names, pool.nameAndType index = .ok names
  | .memberReference => ∃ m, pool.memberRef index = .ok m

/-- The entries of a pool, but for the unusable ones, are constants that can be read. -/
theorem Sound.readable_of_mem {c : Constant} (hpool : pool.Sound) (hmem : c ∈ pool.entries.toList)
    (hne : c ≠ .unusable) : c.Readable := by
  obtain ⟨cs, hcs, rfl⟩ := hpool.built
  exact hcs c (mem_of_mem_entries_ofList hmem hne)

/-- An entry is a constant that can be read, and what it refers to is there. -/
theorem Sound.of_get? {c : Constant} (hpool : pool.Sound) (hget : pool.get? index = some c) :
    c.Readable ∧ pool.Resolves c := by
  obtain ⟨hentry, hne⟩ := get?_eq_some_iff.1 hget
  have hmem := List.mem_of_getElem? hentry
  exact ⟨hpool.readable_of_mem hmem hne, checkReferences_ok_iff.1 hpool.references c hmem⟩

theorem Sound.exists_text (hpool : pool.Sound) (h : pool.Names index .utf8) :
    ∃ text, pool.text index = .ok text := by
  obtain ⟨c, hget, hkind⟩ := h
  cases c with
  | utf8 bytes =>
    obtain ⟨⟨-, text, hdecode⟩, -⟩ := hpool.of_get? hget
    exact ⟨text, text_eq_ok_iff.2 ⟨bytes, hget, hdecode⟩⟩
  | _ => exact absurd hkind Bool.false_ne_true

theorem Sound.exists_className (hpool : pool.Sound) (h : pool.Names index .classEntry) :
    ∃ name, pool.className index = .ok name := by
  obtain ⟨c, hget, hkind⟩ := h
  cases c with
  | classEntry i =>
    obtain ⟨-, hresolves⟩ := hpool.of_get? hget
    obtain ⟨name, hname⟩ := hpool.exists_text (hresolves (i, .utf8) List.mem_cons_self)
    exact ⟨name, className_eq_ok_iff.2 ⟨i, hget, hname⟩⟩
  | _ => exact absurd hkind Bool.false_ne_true

theorem Sound.exists_string (hpool : pool.Sound) (h : pool.Names index .string) :
    ∃ text, pool.string index = .ok text := by
  obtain ⟨c, hget, hkind⟩ := h
  cases c with
  | string i =>
    obtain ⟨-, hresolves⟩ := hpool.of_get? hget
    obtain ⟨text, htext⟩ := hpool.exists_text (hresolves (i, .utf8) List.mem_cons_self)
    exact ⟨text, string_eq_ok_iff.2 ⟨i, hget, htext⟩⟩
  | _ => exact absurd hkind Bool.false_ne_true

theorem Sound.exists_nameAndType (hpool : pool.Sound) (h : pool.Names index .nameAndType) :
    ∃ names, pool.nameAndType index = .ok names := by
  obtain ⟨c, hget, hkind⟩ := h
  cases c with
  | nameAndType i j =>
    obtain ⟨-, hresolves⟩ := hpool.of_get? hget
    obtain ⟨name, hname⟩ := hpool.exists_text (hresolves (i, .utf8) List.mem_cons_self)
    obtain ⟨descriptor, hdescriptor⟩ :=
      hpool.exists_text (hresolves (j, .utf8) (List.mem_cons_of_mem _ List.mem_cons_self))
    exact ⟨(name, descriptor), nameAndType_eq_ok_iff.2 ⟨i, j, hget, hname, hdescriptor⟩⟩
  | _ => exact absurd hkind Bool.false_ne_true

/-- A reference to a member can be followed to the names of the member. -/
theorem Sound.exists_memberRef (hpool : pool.Sound) (h : pool.Names index .memberReference) :
    ∃ m, pool.memberRef index = .ok m := by
  obtain ⟨c, hget, hkind⟩ := h
  obtain ⟨-, hresolves⟩ := hpool.of_get? hget
  obtain ⟨owner, member, hindices, howner, hmember⟩ : ∃ owner member,
      Pool.memberIndices c = some (owner, member) ∧ pool.Names owner .classEntry ∧
        pool.Names member .nameAndType := by
    cases c with
    | fieldRef i j | methodRef i j | interfaceMethodRef i j =>
      exact ⟨i, j, rfl, hresolves (i, .classEntry) List.mem_cons_self,
        hresolves (j, .nameAndType) (List.mem_cons_of_mem _ List.mem_cons_self)⟩
    | _ => exact absurd hkind Bool.false_ne_true
  obtain ⟨⟨name, descriptor⟩, hnames⟩ := hpool.exists_nameAndType hmember
  obtain ⟨ownerName, hownerName⟩ := hpool.exists_className howner
  exact ⟨⟨ownerName, name, descriptor⟩,
    memberRef_eq_ok_iff.2 ⟨c, owner, member, hget, hindices, hownerName, hnames⟩⟩

/-- A name can be looked up at every entry for one, whatever its kind. -/
theorem Sound.looksUp (hpool : pool.Sound) {kind : EntryKind} (h : pool.Names index kind) :
    pool.LooksUp index kind := by
  cases kind with
  | utf8 => exact hpool.exists_text h
  | classEntry => exact hpool.exists_className h
  | string => exact hpool.exists_string h
  | nameAndType => exact hpool.exists_nameAndType h
  | memberReference => exact hpool.exists_memberRef h

end Pool

/-! ## Requests for names -/

/-- A name that is to have an entry in a pool. -/
inductive NameRequest where
  | text (t : String)
  | classNamed (name : String)
  | string (value : String)
  | nameAndType (name descriptor : String)
  | fieldRef (m : MemberRef)
  | methodRef (m : MemberRef)

namespace NameRequest

/-- The computation that interns the name. -/
def intern : NameRequest → Interning UInt16
  | text t => Interning.text t
  | classNamed name => Interning.classNamed name
  | string value => Interning.string value
  | nameAndType name descriptor => Interning.nameAndType name descriptor
  | fieldRef m => Interning.fieldRef m
  | methodRef m => Interning.methodRef m

/-- The kind of entry that stands for the name. -/
def kind : NameRequest → EntryKind
  | text _ => .utf8
  | classNamed _ => .classEntry
  | string _ => .string
  | nameAndType .. => .nameAndType
  | fieldRef _ | methodRef _ => .memberReference

end NameRequest

namespace Pool

variable {pool : Pool}

/-- The pool after requests for names, one after the other, whether or not they succeed. -/
def afterRequests (pool : Pool) (requests : List NameRequest) : Pool :=
  requests.foldl (fun pool request => lastState (request.intern pool)) pool

/-- One request: the pool grows, and the entry that is delivered is of the right kind. -/
theorem Writable.delivers (hpool : pool.Writable) (request : NameRequest) :
    Interning.Delivers pool request.intern request.kind := by
  cases request with
  | text t => exact Interning.delivers_text hpool t
  | classNamed name => exact Interning.delivers_classNamed hpool name
  | string value => exact Interning.delivers_string hpool value
  | nameAndType name descriptor => exact Interning.delivers_nameAndType hpool name descriptor
  | fieldRef m => exact Interning.delivers_fieldRef hpool m
  | methodRef m => exact Interning.delivers_methodRef hpool m

/-- After any requests the pool is one that can be written, with all entries that it had. -/
theorem Writable.growsTo_afterRequests (hpool : pool.Writable) (requests : List NameRequest) :
    pool.GrowsTo (pool.afterRequests requests) := by
  induction requests generalizing pool with
  | nil => exact ⟨hpool, Extends.refl pool⟩
  | cons request requests ih =>
    have hgrows := (hpool.delivers request).grows
    exact hgrows.trans (ih hgrows.writable)

end Pool

end PatternGuard
