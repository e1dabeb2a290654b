import PatternGuard.Proofs.Pool.Names
import PatternGuard.Proofs.Pool.Reached

/-!
# Names that were interned

A request for a name is a sequence of attempts to intern a constant. When all of them succeed, the
name is found at the index that is delivered (`NameRequest.StandsAt`), and it stays there. So the
same request, made again at any later time, delivers the same index and adds nothing
(`Pool.Repeats`).
-/

set_option autoImplicit false

namespace PatternGuard

open Outcome Text

namespace Pool

variable {pool pool' : Pool} {c d : Constant} {index : UInt16}

/-! ## Constants that are found again -/

/-- A constant that has an index keeps it. -/
theorem find?_tryIntern (h : pool.find? c = some index) (d : Constant) :
    (pool.tryIntern d).find? c = some index := by
  rcases tryIntern_cases pool d with hsame | ⟨-, -, hadded⟩
  · rw [hsame, h]
  · rw [hadded, find?_append, if_neg, h]
    -- constants with the same bytes are looked up in the same way
    rintro ⟨hbytes, hmissing⟩
    rw [find?, hbytes] at hmissing
    exact absurd (hmissing.symm.trans h) (by simp)

theorem find?_tryAll (h : pool.find? c = some index) (cs : List Constant) :
    (pool.tryAll cs).find? c = some index := by
  induction cs generalizing pool with
  | nil => exact h
  | cons d cs ih => exact ih (find?_tryIntern h d)

/-- A constant is found at the index under which it is interned. -/
theorem find?_of_intern (h : intern c pool = .ok index pool') : pool'.find? c = some index := by
  obtain ⟨-, ⟨hfound, rfl⟩ | ⟨hmissing, -, rfl, rfl⟩⟩ := intern_cases h
  · exact hfound
  · rw [find?_append, if_pos ⟨rfl, hmissing⟩]

/-- A constant that has an index is not added. -/
theorem intern_of_find? (hc : c.refusal = none) (h : pool.find? c = some index) :
    intern c pool = .ok index pool := by
  rw [intern, hc, h]

theorem tryAll_append (pool : Pool) (cs ds : List Constant) :
    pool.tryAll (cs ++ ds) = (pool.tryAll cs).tryAll ds :=
  List.foldl_append

/-! ## Computations that may be repeated -/

/-- The computation does nothing to the pool but attempt to intern constants. Once it has
succeeded, it delivers the same index again and adds nothing, whatever is interned meanwhile. -/
structure Repeats (action : Interning UInt16) : Prop where
  attempts : ∀ pool, ∃ cs, lastState (action pool) = pool.tryAll cs
  again : ∀ pool index pool', action pool = .ok index pool' →
    ∀ cs, action (pool'.tryAll cs) = .ok index (pool'.tryAll cs)

variable {action : Interning UInt16}

theorem repeats_intern (c : Constant) : Repeats (intern c) := by
  refine ⟨fun pool => ⟨[c], rfl⟩, ?_⟩
  intro pool index pool' h cs
  exact intern_of_find? (intern_cases h).1 (find?_tryAll (find?_of_intern h) cs)

theorem Repeats.exists_tryAll (h : Repeats action) (hrun : action pool = .ok index pool') :
    ∃ cs, pool' = pool.tryAll cs := by
  obtain ⟨cs, hcs⟩ := h.attempts pool
  rw [hrun] at hcs
  exact ⟨cs, hcs⟩

theorem Repeats.bind {next : UInt16 → Interning UInt16} (h : Repeats action)
    (hnext : ∀ i, Repeats (next i)) : Repeats (action >>= next) := by
  constructor
  · intro pool
    cases hrun : action pool with
    | error e pool' =>
      rw [bind_run_of_error hrun]
      have hattempts := h.attempts pool
      rwa [hrun] at hattempts
    | ok i pool₁ =>
      obtain ⟨cs, rfl⟩ := h.exists_tryAll hrun
      obtain ⟨ds, hds⟩ := (hnext i).attempts (pool.tryAll cs)
      refine ⟨cs ++ ds, ?_⟩
      rw [bind_run_of_ok hrun, hds, tryAll_append]
  · intro pool index pool' hrun cs
    obtain ⟨i, pool₁, hfirst, hsecond⟩ := bind_run_ok_iff.1 hrun
    obtain ⟨ds, rfl⟩ := (hnext i).exists_tryAll hsecond
    -- what the second step added is something that came after the first step
    have hagain := h.again _ _ _ hfirst (ds ++ cs)
    rw [tryAll_append] at hagain
    rw [bind_run_of_ok hagain]
    exact (hnext i).again _ _ _ hsecond cs

theorem Repeats.extends_lastState (h : Repeats action) (pool : Pool) :
    pool.Extends (lastState (action pool)) := by
  obtain ⟨cs, hcs⟩ := h.attempts pool
  rw [hcs]
  exact extends_tryAll pool cs

/-- A success leads from a pool that comes about to one with more entries. -/
theorem Repeats.of_ok (h : Repeats action) (hpool : pool.Reached)
    (hrun : action pool = .ok index pool') : pool'.Reached ∧ pool.Extends pool' := by
  obtain ⟨cs, rfl⟩ := h.exists_tryAll hrun
  exact ⟨hpool.tryAll cs, extends_tryAll pool cs⟩

end Pool

namespace Interning

open Pool

variable {pool pool' : Pool} {index : UInt16}

theorem repeats_text (t : String) : Repeats (text t) := repeats_intern _

/-- The index of an entry that refers to one text. -/
theorem repeats_named (entry : UInt16 → Constant) (t : String) :
    Repeats (do intern (entry (← text t))) :=
  (repeats_text t).bind fun _ => repeats_intern _

theorem repeats_nameAndType (name descriptor : String) : Repeats (nameAndType name descriptor) :=
  (repeats_text name).bind fun _ => (repeats_text descriptor).bind fun _ => repeats_intern _

theorem repeats_member (entry : UInt16 → UInt16 → Constant) (m : MemberRef) :
    Repeats (member entry m) :=
  (repeats_named _ m.owner).bind fun _ =>
    (repeats_nameAndType m.name m.descriptor).bind fun _ => repeats_intern _

/-! ## Names that are looked up -/

theorem text_of_text {t : String} (hpool : pool.Reached) (h : text t pool = .ok index pool') :
    pool'.text index = .ok t :=
  text_eq_ok_iff.2 ⟨_, hpool.built.get?_of_intern h, ModifiedUtf8.decode_encode t⟩

/-- An entry that refers to one text stands at its index, and the text can be looked up. -/
theorem get?_of_named {entry : UInt16 → Constant} {t : String} (hpool : pool.Reached)
    (h : (do Pool.intern (entry (← text t)) : Interning UInt16) pool = .ok index pool') :
    ∃ i, pool'.get? index = some (entry i) ∧ pool'.text i = .ok t := by
  obtain ⟨i, pool₁, hname, hentry⟩ := bind_run_ok_iff.1 h
  obtain ⟨hpool₁, -⟩ := (repeats_text t).of_ok hpool hname
  obtain ⟨-, hextends⟩ := (repeats_intern _).of_ok hpool₁ hentry
  exact ⟨i, hpool₁.built.get?_of_intern hentry, hextends.text_eq_ok (text_of_text hpool hname)⟩

theorem className_of_classNamed {name : String} (hpool : pool.Reached)
    (h : classNamed name pool = .ok index pool') : pool'.className index = .ok name :=
  className_eq_ok_iff.2 (get?_of_named hpool h)

theorem string_of_string {value : String} (hpool : pool.Reached)
    (h : string value pool = .ok index pool') : pool'.string index = .ok value :=
  string_eq_ok_iff.2 (get?_of_named hpool h)

theorem nameAndType_of_nameAndType {name descriptor : String} (hpool : pool.Reached)
    (h : nameAndType name descriptor pool = .ok index pool') :
    pool'.nameAndType index = .ok (name, descriptor) := by
  obtain ⟨i, pool₁, hname, hrest⟩ := bind_run_ok_iff.1 h
  obtain ⟨hpool₁, -⟩ := (repeats_text name).of_ok hpool hname
  obtain ⟨j, pool₂, hdescriptor, hentry⟩ := bind_run_ok_iff.1 hrest
  obtain ⟨hpool₂, hextends₁⟩ := (repeats_text descriptor).of_ok hpool₁ hdescriptor
  obtain ⟨-, hextends₂⟩ := (repeats_intern _).of_ok hpool₂ hentry
  refine nameAndType_eq_ok_iff.2 ⟨i, j, hpool₂.built.get?_of_intern hentry, ?_, ?_⟩
  · exact (hextends₁.trans hextends₂).text_eq_ok (text_of_text hpool hname)
  · exact hextends₂.text_eq_ok (text_of_text hpool₁ hdescriptor)

/-- The entry for a member stands at its index, and its names can be looked up. -/
theorem get?_of_member {entry : UInt16 → UInt16 → Constant} {m : MemberRef} (hpool : pool.Reached)
    (h : member entry m pool = .ok index pool') :
    ∃ i j, pool'.get? index = some (entry i j) ∧ pool'.className i = .ok m.owner ∧
      pool'.nameAndType j = .ok (m.name, m.descriptor) := by
  obtain ⟨i, pool₁, howner, hrest⟩ := bind_run_ok_iff.1 h
  obtain ⟨hpool₁, -⟩ := (repeats_named _ m.owner).of_ok hpool howner
  obtain ⟨j, pool₂, hnames, hmember⟩ := bind_run_ok_iff.1 hrest
  obtain ⟨hpool₂, hextends₁⟩ := (repeats_nameAndType _ _).of_ok hpool₁ hnames
  obtain ⟨-, hextends₂⟩ := (repeats_intern _).of_ok hpool₂ hmember
  refine ⟨i, j, hpool₂.built.get?_of_intern hmember, ?_, ?_⟩
  · exact (hextends₁.trans hextends₂).className_eq_ok (className_of_classNamed hpool howner)
  · exact hextends₂.nameAndType_eq_ok (nameAndType_of_nameAndType hpool₁ hnames)

/-- A reference to a member is followed to the names that it was made for. -/
theorem memberRef_of_member {entry : UInt16 → UInt16 → Constant} {m : MemberRef}
    (hentry : ∀ i j, memberIndices (entry i j) = some (i, j)) (hpool : pool.Reached)
    (h : member entry m pool = .ok index pool') : pool'.memberRef index = .ok m := by
  obtain ⟨i, j, hget, howner, hnames⟩ := get?_of_member hpool h
  exact memberRef_eq_ok_iff.2 ⟨_, i, j, hget, hentry i j, howner, hnames⟩

end Interning

namespace NameRequest

open Pool Interning

variable {pool pool' : Pool} {index : UInt16}

/-- The texts of which the name is made. -/
def texts : NameRequest → List String
  | text t | classNamed t | string t => [t]
  | nameAndType name descriptor => [name, descriptor]
  | fieldRef m | methodRef m => [m.owner, m.name, m.descriptor]

/-- The look-up for the name delivers exactly its texts at the index. -/
def StandsAt (pool : Pool) (index : UInt16) : NameRequest → Prop
  | text t => pool.text index = .ok t
  | classNamed name => pool.className index = .ok name
  | string value => pool.string index = .ok value
  | nameAndType name descriptor => pool.nameAndType index = .ok (name, descriptor)
  | fieldRef m | methodRef m => pool.memberRef index = .ok m

theorem StandsAt.of_extends {request : NameRequest} (hextends : pool.Extends pool')
    (h : request.StandsAt pool index) : request.StandsAt pool' index := by
  cases request with
  | text t => exact hextends.text_eq_ok h
  | classNamed name => exact hextends.className_eq_ok h
  | string value => exact hextends.string_eq_ok h
  | nameAndType name descriptor => exact hextends.nameAndType_eq_ok h
  | fieldRef m | methodRef m => exact hextends.memberRef_eq_ok h

/-- A name stands at the index under which it is interned. -/
theorem standsAt_of_intern {request : NameRequest} (hpool : pool.Reached)
    (h : request.intern pool = .ok index pool') : request.StandsAt pool' index := by
  cases request with
  | text t => exact text_of_text hpool h
  | classNamed name => exact className_of_classNamed hpool h
  | string value => exact string_of_string hpool h
  | nameAndType name descriptor => exact nameAndType_of_nameAndType hpool h
  | fieldRef m | methodRef m => exact memberRef_of_member (fun _ _ => rfl) hpool h

theorem repeats_intern (request : NameRequest) : Repeats request.intern := by
  cases request with
  | text t => exact repeats_text t
  | classNamed name => exact repeats_named _ name
  | string value => exact repeats_named _ value
  | nameAndType name descriptor => exact repeats_nameAndType name descriptor
  | fieldRef m | methodRef m => exact repeats_member _ m

end NameRequest

end PatternGuard
