import PatternGuard.Code.DebugTables
import PatternGuard.Proofs.Bytes.Reader

/-!
# Debug tables and their bytes

A table of rows of fixed layout is read exactly from what is written for it: reading and writing
undo each other (`LineNumber.decodeTable_ok_iff`, `LocalVariable.decodeTable_ok_iff`), and a table
can be written if its rows can be counted.
-/

set_option autoImplicit false

namespace PatternGuard

open Bytes Outcome Reader

/-- If each row is read exactly where it stands, so is the table: it is read from the bytes of its
rows after their count. -/
theorem Reader.Exact.onBytes_rows_ok_iff {α : Type} {row : Reader α} {encode : α → List UInt8}
    (hrow : Exact row (fun _ => True) encode) {name : String} {info : List UInt8}
    {rows : List α} :
    (table name row).onBytes info = .ok rows ↔
      rows.length < 65536 ∧ info = toBytes 2 rows.length ++ rows.flatMap encode := by
  rw [hrow.onBytes_table_ok_iff]
  simp

namespace LineNumber

theorem exact_decode : Exact decode (fun _ => True) encode := by
  rintro s ⟨start, line⟩ t
  simp only [decode, encode, bind_run_ok_iff, pure_run_ok_iff, u16_ok_iff,
    Input.advances_append_iff, LineNumber.mk.injEq, true_and]
  constructor
  · rintro ⟨_, u, h₁, _, v, h₂, ⟨rfl, rfl⟩, rfl⟩
    exact ⟨u, h₁, h₂⟩
  · rintro ⟨u, h₁, h₂⟩
    exact ⟨start, u, h₁, line, t, h₂, ⟨rfl, rfl⟩, rfl⟩

theorem encodeTable_eq_ok_iff {rows : List LineNumber} {info : List UInt8} :
    encodeTable rows = .ok info ↔
      rows.length < 65536 ∧ info = toBytes 2 rows.length ++ rows.flatMap encode :=
  count16_append_eq_ok_iff

/-- Reading and writing line number tables undo each other. -/
theorem decodeTable_ok_iff {info : List UInt8} {rows : List LineNumber} :
    decodeTable info = .ok rows ↔ encodeTable rows = .ok info :=
  exact_decode.onBytes_rows_ok_iff.trans encodeTable_eq_ok_iff.symm

end LineNumber

namespace LocalVariable

theorem exact_decode : Exact decode (fun _ => True) encode := by
  rintro s ⟨start, length, nameIndex, typeIndex, slot⟩ t
  simp only [decode, encode, bind_run_ok_iff, pure_run_ok_iff, u16_ok_iff,
    Input.advances_append_iff, LocalVariable.mk.injEq, true_and]
  constructor
  · rintro ⟨_, u, h₁, _, v, h₂, _, w, h₃, _, x, h₄, _, y, h₅, ⟨rfl, rfl, rfl, rfl, rfl⟩, rfl⟩
    exact ⟨x, ⟨w, ⟨v, ⟨u, h₁, h₂⟩, h₃⟩, h₄⟩, h₅⟩
  · rintro ⟨x, ⟨w, ⟨v, ⟨u, h₁, h₂⟩, h₃⟩, h₄⟩, h₅⟩
    exact ⟨start, u, h₁, length, v, h₂, nameIndex, w, h₃, typeIndex, x, h₄, slot, t, h₅,
      ⟨rfl, rfl, rfl, rfl, rfl⟩, rfl⟩

theorem encodeTable_eq_ok_iff {rows : List LocalVariable} {info : List UInt8} :
    encodeTable rows = .ok info ↔
      rows.length < 65536 ∧ info = toBytes 2 rows.length ++ rows.flatMap encode :=
  count16_append_eq_ok_iff

/-- Reading and writing local variable tables undo each other. -/
theorem decodeTable_ok_iff {info : List UInt8} {rows : List LocalVariable} :
    decodeTable info = .ok rows ↔ encodeTable rows = .ok info :=
  exact_decode.onBytes_rows_ok_iff.trans encodeTable_eq_ok_iff.symm

end LocalVariable

end PatternGuard
