import PatternGuard.Proofs.ClassFile.Attribute
import PatternGuard.Proofs.Checked.Listing

/-!
# Listings in the compact form

The compact listing of a class has one line for each instruction, method after method and in the
order of the code (`compact_complete`). The numerals, mnemonics and lists of bytes that lines are
made of have no line feed in them, so that there are as many lines as instructions, whatever the
operands are.
-/

set_option autoImplicit false

namespace PatternGuard

open Outcome

/-! ## Texts on one line -/

namespace Text

/-- The text has no line feed in it. -/
def OneLine (text : String) : Prop := '\n' ∉ text.toList

instance (text : String) : Decidable (OneLine text) :=
  inferInstanceAs (Decidable ('\n' ∉ text.toList))

theorem OneLine.append {s t : String} (hs : OneLine s) (ht : OneLine t) : OneLine (s ++ t) := by
  rw [OneLine, String.toList_append, List.mem_append]
  exact not_or.2 ⟨hs, ht⟩

theorem OneLine.intercalate {separator : String} {texts : List String}
    (hseparator : OneLine separator) (htexts : ∀ t ∈ texts, OneLine t) :
    OneLine (separator.intercalate texts) := by
  induction texts with
  | nil =>
    rw [String.intercalate_nil]
    decide
  | cons t rest ih =>
    obtain ⟨ht, hrest⟩ := List.forall_mem_cons.1 htexts
    by_cases hlast : rest = []
    · rw [hlast, String.intercalate_singleton]
      exact ht
    · rw [String.intercalate_cons_of_ne_nil hlast]
      exact (ht.append hseparator).append (ih hrest)

/-- No digit is a line feed, nor is the character that stands for what is no digit. -/
theorem lineFeed_not_mem_toDigits {base : Nat} (hbase : 1 < base) (n : Nat) :
    '\n' ∉ base.toDigits n := by
  have hdigit (d : Nat) : '\n' ∉ [d.digitChar] := by
    rw [List.mem_singleton]
    exact (Nat.digitChar_ne '\n' (by decide)).symm
  induction n using Nat.strongRecOn with
  | ind n ih =>
    by_cases hlt : n < base
    · rw [Nat.toDigits_of_lt_base hlt]
      exact hdigit n
    · have hle : base ≤ n := Nat.not_lt.1 hlt
      have hsmaller : n / base < n := Nat.div_lt_self (by omega) hbase
      rw [Nat.toDigits_of_base_le hbase hle, List.mem_append]
      exact not_or.2 ⟨ih _ hsmaller, hdigit _⟩

theorem oneLine_nat (n : Nat) : OneLine (toString n) := by
  rw [OneLine, Nat.toString_eq_ofList_toDigits, String.toList_ofList]
  exact lineFeed_not_mem_toDigits (by decide) n

theorem oneLine_int (n : Int) : OneLine (toString n) := by
  cases n with
  | ofNat n => exact oneLine_nat n
  | negSucc n =>
    have hsign : OneLine "-" := by decide
    exact hsign.append (oneLine_nat (n + 1))

theorem oneLine_zeroPadded {width : Nat} {digits : String} (h : OneLine digits) :
    OneLine (zeroPadded width digits) := by
  refine OneLine.append ?_ h
  rw [OneLine, String.toList_ofList, List.mem_replicate]
  exact fun hmem => absurd hmem.2 (by decide)

theorem oneLine_hexByte (b : UInt8) : OneLine (hexByte b) := by
  refine oneLine_zeroPadded ?_
  rw [OneLine, hex, String.toList_ofList]
  exact lineFeed_not_mem_toDigits (by decide) _

theorem oneLine_byteList (bytes : List UInt8) : OneLine (byteList bytes) := by
  have hitems : ∀ t ∈ bytes.map hexByte, OneLine t := by
    intro t ht
    obtain ⟨b, -, rfl⟩ := List.mem_map.1 ht
    exact oneLine_hexByte b
  have hopen : OneLine "[" := by decide
  exact (hopen.append (.intercalate (by decide) hitems)).append (by decide)

/-- Lines that are each ended by a line feed have as many line feeds as there are lines. -/
theorem count_lineFeed_join {lines : List String} (h : ∀ line ∈ lines, OneLine line) :
    (String.join (lines.map (· ++ "\n"))).toList.count '\n' = lines.length := by
  rw [String.toList_join]
  induction lines with
  | nil => rfl
  | cons line lines ih =>
    obtain ⟨hline, hlines⟩ := List.forall_mem_cons.1 h
    rw [List.map_cons, List.flatMap_cons, List.count_append, ih hlines, String.toList_append,
      List.count_append, List.count_eq_zero.2 hline, List.length_cons]
    simp [Nat.add_comm]

end Text

open Text

/-! ## Lines of instructions -/

theorem Opcode.oneLine_lowerMnemonic (o : Opcode) : OneLine o.lowerMnemonic := by
  cases o <;> decide +kernel

namespace Listing

theorem oneLine_indexText (index : UInt16) : OneLine (indexText index) := by
  have hmark : OneLine "#" := by decide
  exact hmark.append (oneLine_nat _)

theorem oneLine_bytesOperand (form : OperandForm) (bytes : List UInt8) :
    OneLine (bytesOperand form bytes) := by
  have hblank : OneLine " " := by decide
  unfold bytesOperand
  split
  · exact hblank.append (oneLine_int _)
  · exact hblank.append (oneLine_nat _)
  · exact hblank.append (oneLine_int _)
  · exact hblank.append (oneLine_byteList _)

/-- No operand goes over the end of a line, whether or not it suits its opcode. -/
theorem oneLine_operand (i : Instruction) : OneLine (operand i) := by
  have hblank : OneLine " " := by decide
  rw [operand]
  cases i.operand with
  | none =>
    have hnothing : OneLine "" := by decide
    exact hnothing
  | branch d => exact hblank.append (oneLine_int _)
  | tableSwitch default low high targets =>
    exact ((hblank.append (oneLine_int _)).append (by decide)).append (oneLine_int _)
  | lookupSwitch default pairs => exact (hblank.append (oneLine_nat _)).append (by decide)
  | bytes bytes =>
    cases i.poolIndex? with
    | none => exact oneLine_bytesOperand _ _
    | some index => exact hblank.append (oneLine_indexText index)

/-- What the compact form shows of an instruction: a line with its mnemonic and operand, which is
the place that it may go to if it is a branch. -/
structure Shows (i : Instruction) (line : String) : Prop where
  line_eq : line = "  " ++ i.opcode.lowerMnemonic ++ operand i
  branch : ∀ d, i.operand = .branch d →
    ∃ target, i.targets = [target] ∧ operand i = " " ++ toString target
  oneLine : OneLine line

theorem shows_instructionLine {l : Listing} (h : l.form = .compact) (pool : Pool)
    (i : Instruction) : Shows i (l.instructionLine pool i) := by
  have hline := instructionLine_of_compact h pool i
  refine ⟨hline, ?_, ?_⟩
  · intro d hd
    refine ⟨i.offset + d.toInt, ?_, ?_⟩
    · rw [Instruction.targets, Instruction.displacements, hd]
      rfl
    · rw [operand, hd]
  · have hmargin : OneLine "  " := by decide
    rw [hline]
    exact (hmargin.append i.opcode.oneLine_lowerMnemonic).append (oneLine_operand i)

end Listing

/-! ## Methods and classes -/

namespace Member

/-- The instructions of a method: those of the body in its first attribute for one. -/
def HasInstructions (pool : Pool) (m : Member) (is : List Instruction) : Prop :=
  match m.attribute? pool Attribute.codeName with
  | none => is = []
  | some a => ∃ body, CodeBody.decode a.info = .ok body ∧ Code.decode body.code = .ok is

variable {pool : Pool} {m : Member}

/-- Only a body that cannot be read keeps a method from having instructions. -/
theorem exists_hasInstructions_iff :
    (∃ is, m.HasInstructions pool is) ↔
      ∀ a, m.attribute? pool Attribute.codeName = some a →
        ∃ body is, CodeBody.decode a.info = .ok body ∧ Code.decode body.code = .ok is := by
  simp only [HasInstructions]
  cases m.attribute? pool Attribute.codeName with
  | none => simp
  | some a =>
    simp only [Option.some.injEq, forall_eq']
    exact exists_comm

theorem HasInstructions.ascending {is : List Instruction} (h : m.HasInstructions pool is) :
    is.Pairwise fun i j => i.offset < j.offset := by
  rw [HasInstructions] at h
  split at h
  · rw [h]
    exact List.Pairwise.nil
  · obtain ⟨body, hbody, his⟩ := h
    have hlength := (CodeBody.length_code_of_decode hbody).2
    exact (Code.fills_of_decode his (Nat.le_trans hlength (by decide))).ascending

end Member

namespace Listing

variable {l : Listing}

theorem compactLines_ok_iff {pool : Pool} {m : Member} {lines : List String} :
    l.compactLines pool m = .ok lines ↔
      ∃ is, m.HasInstructions pool is ∧ is.map (l.instructionLine pool) = lines := by
  rw [compactLines, Member.body?]
  simp only [Member.HasInstructions]
  cases m.attribute? pool Attribute.codeName with
  | none =>
    show (pure [] : Except Fault (List String)) = .ok lines ↔ _
    simp [pure_ok_iff]
  | some a =>
    simp only [bind_assoc, bind_ok_iff, pure_bind, bodyLines, pure_ok_iff]
    constructor
    · rintro ⟨body, hbody, is, his, hlines⟩
      exact ⟨is, ⟨body, hbody, his⟩, hlines⟩
    · rintro ⟨is, ⟨body, hbody, his⟩, hlines⟩
      exact ⟨body, hbody, is, his, hlines⟩

/-- The compact form shows a class by the lines of the instructions of its methods. -/
theorem render_ok_iff (h : l.form = .compact) {c : ClassFile} {text : String} :
    l.render c = .ok text ↔
      ∃ bodies, List.Forall₂ (Member.HasInstructions c.pool) c.methods bodies ∧
        text = String.join ((bodies.flatten.map (l.instructionLine c.pool)).map (· ++ "\n")) := by
  rw [render_of_compact h, bind_ok_iff]
  simp only [mapM_ok_iff, compactLines_ok_iff, pure_ok_iff, forall₂_exists_eq_iff]
  constructor
  · rintro ⟨_, ⟨bodies, hbodies, rfl⟩, rfl⟩
    exact ⟨bodies, hbodies, by rw [List.map_flatten (f := l.instructionLine c.pool)]⟩
  · rintro ⟨bodies, hbodies, rfl⟩
    exact ⟨_, ⟨bodies, hbodies, rfl⟩, by rw [List.map_flatten (f := l.instructionLine c.pool)]⟩

/-- A class is shown in the compact form exactly if the bodies of its methods can be read with
their instructions, and then by one line for each instruction. No operand byte is looked for that is
not there. -/
theorem compact_complete (h : l.form = .compact) (c : ClassFile) :
    Computes (checkedCompact c) (l.render c) ∧
    ((∃ text, l.render c = .ok text) ↔
      ∀ m ∈ c.methods, ∀ a, m.attribute? c.pool Attribute.codeName = some a →
        ∃ body is, CodeBody.decode a.info = .ok body ∧ Code.decode body.code = .ok is) ∧
    ∀ text, l.render c = .ok text →
      ∃ (bodies : List (List Instruction)) (lines : List String),
        List.Forall₂ (Member.HasInstructions c.pool) c.methods bodies ∧
        (∀ is ∈ bodies, is.Pairwise fun i j => i.offset < j.offset) ∧
        List.Forall₂ Shows bodies.flatten lines ∧
        text = String.join (lines.map (· ++ "\n")) ∧
        text.toList.count '\n' = bodies.flatten.length := by
  refine ⟨computes_checkedCompact h c, ?_, ?_⟩
  · simp only [← Member.exists_hasInstructions_iff]
    constructor
    · rintro ⟨text, htext⟩ m hm
      obtain ⟨bodies, hbodies, -⟩ := (render_ok_iff h).1 htext
      obtain ⟨is, -, his⟩ := exists_mem_zip_of_forall₂ hbodies hm
      exact ⟨is, his⟩
    · intro hmethods
      obtain ⟨bodies, hbodies⟩ := exists_forall₂ hmethods
      exact ⟨_, (render_ok_iff h).2 ⟨bodies, hbodies, rfl⟩⟩
  · intro text htext
    obtain ⟨bodies, hbodies, rfl⟩ := (render_ok_iff h).1 htext
    have hshows : List.Forall₂ Shows bodies.flatten
        (bodies.flatten.map (l.instructionLine c.pool)) :=
      List.forall₂_map_right_iff.2
        (List.forall₂_same.2 fun i _ => shows_instructionLine h c.pool i)
    have hlines : ∀ line ∈ bodies.flatten.map (l.instructionLine c.pool), OneLine line := by
      intro line hline
      obtain ⟨i, -, hi⟩ := exists_mem_zip_of_mem_right hshows hline
      exact hi.oneLine
    refine ⟨bodies, _, hbodies, ?_, hshows, rfl, ?_⟩
    · intro is his
      obtain ⟨m, -, hm⟩ := exists_mem_zip_of_mem_right hbodies his
      exact hm.ascending
    · rw [count_lineFeed_join hlines, List.length_map]

/-- A class with a method that counts up without end, and one without a body. -/
def countingClass : ClassFile where
  minorVersion := 0
  majorVersion := 52
  pool := [.ofText "A", .classEntry 1, .ofText "f", .ofText "()V", .ofText "Code",
    .ofText "g"].foldl Pool.append .empty
  access := 0
  thisClass := 2
  superClass := 0
  interfaces := []
  fields := []
  methods :=
    [⟨8, 3, 4, [⟨5, [0, 1, 0, 1, 0, 0, 0, 12, 0x10, 0xff, 0x3b, 0xc4, 0x84, 0, 0, 1, 0, 0xa7, 0xff,
      0xfa, 0, 0, 0, 0]⟩]⟩, ⟨0x400, 6, 4, []⟩]
  attributes := []

theorem exists_lines_countingClass :
    ∃ (text : String) (bodies : List (List Instruction)) (lines : List String),
      render { form := .compact } countingClass = .ok text ∧
      List.Forall₂ (Member.HasInstructions countingClass.pool) countingClass.methods bodies ∧
      List.Forall₂ Shows bodies.flatten lines ∧
      text = String.join (lines.map (· ++ "\n")) ∧
      text = "  bipush -1\n  istore_0\n  wide [84, 00, 00, 01, 00]\n  goto 3\n" := by
  have htext : render { form := .compact } countingClass =
      .ok "  bipush -1\n  istore_0\n  wide [84, 00, 00, 01, 00]\n  goto 3\n" := by
    decide +kernel
  obtain ⟨-, -, hcomplete⟩ := compact_complete (l := { form := .compact }) rfl countingClass
  obtain ⟨bodies, lines, hbodies, -, hshows, hjoin, -⟩ := hcomplete _ htext
  exact ⟨_, bodies, lines, htext, hbodies, hshows, hjoin, rfl⟩

end Listing

end PatternGuard
