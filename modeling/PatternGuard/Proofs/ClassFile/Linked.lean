import PatternGuard.Proofs.ClassFile.Codec
import PatternGuard.Proofs.Pool.Names

/-!
# Names in a class

The names that a class uses, its own, those of its super class and interfaces, and those of its
members and attributes, are found in its pool after it was read. They are still found when the pool
has more entries, and so is every other name in the pool, however many names were added and whether
or not adding them succeeded (`ClassFile.linked_of_parse`).
-/

set_option autoImplicit false

namespace PatternGuard

open Outcome

/-! ## Members in a pool with more entries -/

section Members

variable {pool pool' : Pool}

theorem Attribute.isNamed_of_extends {a : Attribute} {name : String}
    (hextends : pool.Extends pool') (ha : ∃ text, a.name pool = .ok text) :
    a.isNamed pool' name = a.isNamed pool name := by
  obtain ⟨text, htext⟩ := ha
  exact hextends.isText_eq htext

/-- More entries do not change which attribute is found. -/
theorem Attribute.findIn?_of_extends {attributes : List Attribute} {name : String}
    (hextends : pool.Extends pool')
    (hnamed : ∀ a ∈ attributes, ∃ text, a.name pool = .ok text) :
    findIn? attributes pool' name = findIn? attributes pool name := by
  rw [findIn?, findIn?]
  induction attributes with
  | nil => rfl
  | cons a rest ih =>
    obtain ⟨ha, hrest⟩ := List.forall_mem_cons.1 hnamed
    rw [List.find?_cons, List.find?_cons, isNamed_of_extends hextends ha, ih hrest]

/-- The attributes keep their names when a body is replaced. -/
theorem Attribute.exists_of_mem_replaceBody {attributes : List Attribute} {name : String}
    {info : List UInt8} {b : Attribute} (hb : b ∈ replaceBody attributes pool name info) :
    ∃ a ∈ attributes, b.nameIndex = a.nameIndex := by
  obtain ⟨n, hn⟩ := List.getElem?_of_mem hb
  rw [replaceBody, List.getElem?_modify] at hn
  obtain ⟨a, ha, rfl⟩ := Option.map_eq_some_iff.1 hn
  refine ⟨a, List.mem_of_getElem? ha, ?_⟩
  split <;> rfl

namespace Member

variable {m m' : Member}

theorem Named.mono (hextends : pool.Extends pool') (hm : m.Named pool) : m.Named pool' := by
  refine ⟨hextends.exists_text hm.name, hextends.exists_text hm.descriptor, ?_⟩
  intro a ha
  exact hextends.exists_text (hm.attributes a ha)

theorem Named.setBody {body : CodeBody} (hm : m.Named pool) (h : m.setBody pool' body = .ok m') :
    m'.Named pool := by
  obtain ⟨info, -, h₁⟩ := bind_ok_iff.1 h
  split at h₁
  · obtain rfl := pure_ok_iff.1 h₁
    refine ⟨hm.name, hm.descriptor, ?_⟩
    intro b hb
    obtain ⟨a, ha, hindex⟩ := Attribute.exists_of_mem_replaceBody hb
    obtain ⟨text, htext⟩ := hm.attributes a ha
    refine ⟨text, ?_⟩
    rw [Attribute.name, hindex]
    exact htext
  · exact absurd h₁ throw_ne_ok

theorem Named.body?_of_extends (hm : m.Named pool) (hextends : pool.Extends pool') :
    m.body? pool' = m.body? pool := by
  rw [body?, body?, attribute?, attribute?,
    Attribute.findIn?_of_extends hextends hm.attributes]

end Member

/-- A class stays linked if its pool has more entries, its methods have names, and it gets more
attributes with names. -/
theorem ClassFile.Linked.of_extends {c : ClassFile} (hc : c.Linked) (hextends : c.pool.Extends pool)
    {methods : List Member} (hmethods : ∀ m ∈ methods, m.Named pool) {attributes : List Attribute}
    (hattributes : ∀ a ∈ attributes, ∃ text, a.name pool = .ok text) :
    ({ c with pool, methods, attributes := c.attributes ++ attributes } : ClassFile).Linked := by
  refine ⟨hextends.exists_className hc.thisClass, ?_, ?_, ?_, hmethods, ?_⟩
  · rcases hc.superClass with hzero | hsuper
    · exact Or.inl hzero
    · exact Or.inr (hextends.exists_className hsuper)
  · intro i hi
    exact hextends.exists_className (hc.interfaces i hi)
  · intro m hm
    exact (hc.fields m hm).mono hextends
  · intro a ha
    rcases List.mem_append.1 ha with ha | ha
    · exact hextends.exists_text (hc.attributes a ha)
    · exact hattributes a ha

/-- A class stays linked if its pool has more entries. -/
theorem ClassFile.Linked.mono {c : ClassFile} (hc : c.Linked) (hextends : c.pool.Extends pool) :
    ({ c with pool } : ClassFile).Linked := by
  have hmethods : ∀ m ∈ c.methods, m.Named pool := by
    intro m hm
    exact (hc.methods m hm).mono hextends
  have hlinked := hc.of_extends hextends hmethods (List.forall_mem_nil _)
  rwa [List.append_nil] at hlinked

end Members

namespace ClassFile

/-- A pool that was read can be written. -/
theorem writable_of_parse {input : List UInt8} {file : ClassFile}
    (h : parse input = .ok file) : file.pool.Writable := by
  obtain ⟨hsound, hwritten⟩ := parse_ok_iff.1 h
  obtain ⟨pool, -, hpool, -⟩ := toBytes_eq_ok_iff.1 hwritten
  exact hsound.pool.writable_of_encode hpool

/-- Nothing dangles in a class that was read, also after requests for more names: all names that the
class uses are found, and at every entry of its pool the look-up of its kind succeeds. -/
theorem linked_of_parse {bytes : List UInt8} {c : ClassFile} (h : parse bytes = .ok c)
    (requests : List NameRequest) :
    ({ c with pool := c.pool.afterRequests requests } : ClassFile).Linked ∧
      ∀ index d kind, (c.pool.afterRequests requests).get? index = some d → d.isOf kind = true →
        (c.pool.afterRequests requests).LooksUp index kind := by
  obtain ⟨hsound, -⟩ := parse_ok_iff.1 h
  have hgrows := (writable_of_parse h).growsTo_afterRequests requests
  refine ⟨hsound.toLinked.mono hgrows.extends_get, ?_⟩
  intro index d kind hget hkind
  exact hgrows.writable.sound.looksUp ⟨d, hget, hkind⟩

/-- A class file with a method reference that points forwards to the name of the method, an
interface, a field, and a method and a class that have an attribute each. -/
def linkedBytes : List UInt8 :=
  [0xCA, 0xFE, 0xBA, 0xBE, 0, 0, 0, 52, 0, 7, 1, 0, 1, 65, 7, 0, 1, 10, 0, 2, 0, 4, 12, 0, 1, 0, 5,
    1, 0, 3, 40, 41, 86, 8, 0, 1, 0, 1, 0, 2, 0, 2, 0, 1, 0, 2, 0, 1, 0, 0, 0, 1, 0, 1, 0, 0, 0, 1,
    0, 0, 0, 1, 0, 5, 0, 1, 0, 1, 0, 0, 0, 0, 0, 1, 0, 5, 0, 0, 0, 0]

/-- Of the names requested here, that of the class is there, and the other ones are added. -/
theorem exists_linked_linkedBytes : ∃ c, parse linkedBytes = .ok c ∧
    let pool := c.pool.afterRequests [.classNamed "A", .fieldRef ⟨"A", "x", "I"⟩]
    pool.count = 11 ∧ ({ c with pool } : ClassFile).Linked ∧
      (∃ m, pool.memberRef 3 = .ok m) ∧ ∃ m, pool.memberRef 10 = .ok m := by
  have hparse : ∃ c, parse linkedBytes = .ok c ∧
      let pool := c.pool.afterRequests [.classNamed "A", .fieldRef ⟨"A", "x", "I"⟩]
      pool.count = 11 ∧ pool.get? 3 = some (.methodRef 2 4) ∧ pool.get? 10 = some (.fieldRef 2 9) := by
    decide +kernel
  obtain ⟨c, h, hcount, hmethod, hfield⟩ := hparse
  obtain ⟨hlinked, hlooksUp⟩ := linked_of_parse h [.classNamed "A", .fieldRef ⟨"A", "x", "I"⟩]
  exact ⟨c, h, hcount, hlinked, hlooksUp 3 _ .memberReference hmethod rfl,
    hlooksUp 10 _ .memberReference hfield rfl⟩

end ClassFile

end PatternGuard
