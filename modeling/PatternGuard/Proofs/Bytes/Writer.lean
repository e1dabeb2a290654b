import PatternGuard.Bytes.Writer
import PatternGuard.Proofs.Outcome

/-!
# What can be written

A writer succeeds on what fits its fields. The statements here say when, and which bytes it gives
then; a list is written item by item.
-/

set_option autoImplicit false

namespace PatternGuard.Bytes

open Outcome

theorem count16_eq_ok_iff {count : Nat} {what : String} {bytes : List UInt8} :
    count16 count what = .ok bytes ↔ count < 65536 ∧ bytes = toBytes 2 count := by
  unfold count16
  split
  · rename_i h
    simp [h, eq_comm]
  · rename_i h
    simp [h]

theorem blob_eq_ok_iff {info : List UInt8} {what : String} {bytes : List UInt8} :
    blob info what = .ok bytes ↔
      info.length < 4294967296 ∧ bytes = toBytes 4 info.length ++ info := by
  simp only [blob]
  split
  · rename_i h
    simp [h, eq_comm]
  · rename_i h
    simp [h]

/-- A count in front of bytes that are written in any case. -/
theorem count16_append_eq_ok_iff {count : Nat} {what : String} {body bytes : List UInt8} :
    (do return (← count16 count what) ++ body : Except Fault (List UInt8)) = .ok bytes ↔
      count < 65536 ∧ bytes = toBytes 2 count ++ body := by
  rw [bind_ok_iff]
  constructor
  · rintro ⟨digits, hdigits, hbytes⟩
    obtain ⟨hlt, rfl⟩ := count16_eq_ok_iff.1 hdigits
    exact ⟨hlt, (pure_ok_iff.1 hbytes).symm⟩
  · rintro ⟨hlt, rfl⟩
    exact ⟨_, count16_eq_ok_iff.2 ⟨hlt, rfl⟩, rfl⟩

section Lists

variable {α : Type} {encode : α → Except Fault (List UInt8)}

theorem each_nil : each encode [] = .ok [] := rfl

theorem each_cons (x : α) (xs : List α) :
    each encode (x :: xs) = (do return (← encode x) ++ (← each encode xs)) := by
  rw [each, each, List.mapM_cons]
  cases encode x with
  | error e => rfl
  | ok front => cases xs.mapM encode <;> rfl

theorem each_cons_eq_ok_iff {x : α} {xs : List α} {bytes : List UInt8} :
    each encode (x :: xs) = .ok bytes ↔
      ∃ front back, encode x = .ok front ∧ each encode xs = .ok back ∧ bytes = front ++ back := by
  rw [each_cons, bind_ok_iff]
  constructor
  · rintro ⟨front, hfront, h⟩
    obtain ⟨back, hback, hpure⟩ := bind_ok_iff.1 h
    exact ⟨front, back, hfront, hback, (pure_ok_iff.1 hpure).symm⟩
  · rintro ⟨front, back, hfront, hback, rfl⟩
    exact ⟨front, hfront, bind_ok_iff.2 ⟨back, hback, rfl⟩⟩

theorem exists_each_iff {xs : List α} :
    (∃ bytes, each encode xs = .ok bytes) ↔ ∀ x ∈ xs, ∃ bytes, encode x = .ok bytes := by
  simp only [each, map_ok_iff, mapM_ok_iff]
  constructor
  · rintro ⟨_, parts, hparts, -⟩ x hx
    obtain ⟨bytes, -, hbytes⟩ := exists_mem_zip_of_forall₂ hparts hx
    exact ⟨bytes, hbytes⟩
  · intro h
    obtain ⟨parts, hparts⟩ := exists_forall₂ h
    exact ⟨_, parts, hparts, rfl⟩

/-- Writing the items one after the other in front of what is done is writing each of them. -/
theorem after_eq_ok_iff {after : List (List UInt8) → List α → Except Fault (List UInt8)}
    (hnil : ∀ done, after done [] = .ok done.reverse.flatten)
    (hcons : ∀ done x xs, after done (x :: xs) = encode x >>= fun bytes => after (bytes :: done) xs)
    {done : List (List UInt8)} {xs : List α} {bytes : List UInt8} :
    after done xs = .ok bytes ↔
      ∃ body, each encode xs = .ok body ∧ bytes = done.reverse.flatten ++ body := by
  induction xs generalizing done with
  | nil =>
    rw [hnil, each_nil]
    simp [eq_comm]
  | cons x xs ih =>
    rw [hcons, bind_ok_iff]
    constructor
    · rintro ⟨front, hfront, hrest⟩
      obtain ⟨back, hback, rfl⟩ := ih.1 hrest
      exact ⟨front ++ back, each_cons_eq_ok_iff.2 ⟨front, back, hfront, hback, rfl⟩, by simp⟩
    · rintro ⟨body, hbody, rfl⟩
      obtain ⟨front, back, hfront, hback, rfl⟩ := each_cons_eq_ok_iff.1 hbody
      exact ⟨front, hfront, ih.2 ⟨back, hback, by simp⟩⟩

theorem counted_eq_ok_iff {what : String} {xs : List α} {bytes : List UInt8} :
    counted what encode xs = .ok bytes ↔
      xs.length < 65536 ∧
        ∃ body, each encode xs = .ok body ∧ bytes = toBytes 2 xs.length ++ body := by
  rw [counted, bind_ok_iff]
  constructor
  · rintro ⟨count, hcount, hrest⟩
    obtain ⟨body, hbody, hbytes⟩ := bind_ok_iff.1 hrest
    obtain ⟨hlt, rfl⟩ := count16_eq_ok_iff.1 hcount
    exact ⟨hlt, body, hbody, (pure_ok_iff.1 hbytes).symm⟩
  · rintro ⟨hlt, body, hbody, rfl⟩
    exact ⟨_, count16_eq_ok_iff.2 ⟨hlt, rfl⟩, bind_ok_iff.2 ⟨body, hbody, rfl⟩⟩

end Lists

end PatternGuard.Bytes
