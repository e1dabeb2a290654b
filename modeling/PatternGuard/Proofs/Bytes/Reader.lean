import PatternGuard.Bytes.Reader
import PatternGuard.Proofs.Bytes.Word
import PatternGuard.Proofs.Bytes.Writer

/-!
# What readers accept

A reader is described by the bytes that it consumes when it delivers a value. For the readers of
words and blobs these bytes are the encoding of the value and nothing else, and the description is
an equivalence (`u16_ok_iff`, `blob_ok_iff`): it serves to take a successful reading apart and to
show that written bytes are read back. `Exact` names this property, and it carries over to counted
lists and tables. `Inverts` is the same for values whose writing may be refused.
-/

set_option autoImplicit false

namespace PatternGuard

open Bytes Outcome

/-- `t` is what is left of `s` after `bytes` have been read. -/
structure Input.Advances (s : Input) (bytes : List UInt8) (t : Input) : Prop where
  rest_eq : s.rest = bytes ++ t.rest
  position_eq : t.position = s.position + bytes.length

namespace Input

theorem advances_nil_iff {s t : Input} : s.Advances [] t ↔ s = t := by
  rcases s with ⟨rest, position⟩
  rcases t with ⟨rest', position'⟩
  constructor
  · rintro ⟨hrest, hposition⟩
    simp only [List.nil_append, List.length_nil, Nat.add_zero] at hrest hposition
    rw [hrest, hposition]
  · intro h
    rw [h]
    exact ⟨rfl, rfl⟩

theorem advances_append_iff {s u : Input} {front back : List UInt8} :
    s.Advances (front ++ back) u ↔ ∃ t, s.Advances front t ∧ t.Advances back u := by
  constructor
  · rintro ⟨hrest, hposition⟩
    refine ⟨⟨back ++ u.rest, s.position + front.length⟩, ⟨?_, rfl⟩, ⟨rfl, ?_⟩⟩
    · rw [hrest, List.append_assoc]
    · rw [hposition, List.length_append, Nat.add_assoc]
  · rintro ⟨t, ⟨hrest, hposition⟩, ⟨hrest', hposition'⟩⟩
    refine ⟨?_, ?_⟩
    · rw [hrest, hrest', List.append_assoc]
    · rw [hposition', hposition, List.length_append, Nat.add_assoc]

theorem advances_cons_iff {s u : Input} {b : UInt8} {back : List UInt8} :
    s.Advances (b :: back) u ↔ ∃ t, s.Advances [b] t ∧ t.Advances back u := by
  rw [← List.singleton_append, advances_append_iff]

theorem Advances.length_rest {s t : Input} {bytes : List UInt8} (h : s.Advances bytes t) :
    s.rest.length = bytes.length + t.rest.length := by
  rw [h.rest_eq, List.length_append]

/-- Reading to the end takes all bytes. -/
theorem advances_all (bytes : List UInt8) (position : Nat) :
    Advances ⟨bytes, position⟩ bytes ⟨[], position + bytes.length⟩ :=
  ⟨(List.append_nil bytes).symm, rfl⟩

theorem Advances.eq_of_rest_eq_nil {s t : Input} {bytes : List UInt8} (h : s.Advances bytes t)
    (ht : t.rest = []) : s.rest = bytes := by
  rw [h.rest_eq, ht, List.append_nil]

end Input

namespace Reader

variable {α : Type}

/-! ## Single reads -/

theorem fail_ne_ok {e : Fault} {a : α} {s t : Input} : (fail e : Reader α) s ≠ .ok a t := by
  simp [fail]

/-- A refusal in the middle of a reading: it did not happen, or nothing was delivered. -/
theorem unless_fail_ok_iff {refused : Prop} [Decidable refused] {e : Fault}
    {next : Reader α} {s t : Input} {a : α} :
    (do if refused then fail e
        next : Reader α) s = .ok a t ↔ ¬refused ∧ next s = .ok a t :=
  unless_run_ok_iff fun _ _ => fail_ne_ok

theorem position_ok_iff {s t : Input} {n : Nat} :
    position s = .ok n t ↔ s.position = n ∧ s = t := by
  simp [position]

theorem take_ok_iff {n : Nat} {context : String} {s t : Input} {bytes : List UInt8} :
    take n context s = .ok bytes t ↔ bytes.length = n ∧ s.Advances bytes t := by
  constructor
  · intro h
    simp only [take, List.splitAt_eq] at h
    split at h
    · rename_i hlength
      simp only [EStateM.Result.ok.injEq] at h
      obtain ⟨rfl, rfl⟩ := h
      exact ⟨hlength, (List.take_append_drop n s.rest).symm, by rw [hlength]⟩
    · exact absurd h (by simp)
  · rintro ⟨rfl, hrest, hposition⟩
    rcases s with ⟨rest, position⟩
    rcases t with ⟨rest', position'⟩
    simp only at hrest hposition
    rw [hrest, hposition, take_append]

theorem skip_ok_iff {n : Nat} {context : String} {s t : Input} {r : Unit} :
    skip n context s = .ok r t ↔ ∃ bytes : List UInt8, bytes.length = n ∧ s.Advances bytes t := by
  rw [skip, bind_run_ok_iff]
  constructor
  · rintro ⟨bytes, u, htake, hpure⟩
    obtain ⟨-, rfl⟩ := pure_run_ok_iff.1 hpure
    exact ⟨bytes, take_ok_iff.1 htake⟩
  · rintro ⟨bytes, h⟩
    exact ⟨bytes, t, take_ok_iff.2 h, rfl⟩

theorem number_ok_iff {width n : Nat} {context : String} {s t : Input} :
    number width context s = .ok n t ↔ n < 256 ^ width ∧ s.Advances (toBytes width n) t := by
  rw [number, bind_run_ok_iff]
  constructor
  · rintro ⟨bytes, u, htake, hpure⟩
    obtain ⟨rfl, rfl⟩ := pure_run_ok_iff.1 hpure
    obtain ⟨rfl, hadvances⟩ := take_ok_iff.1 htake
    exact ⟨ofBytes_lt bytes, by rwa [toBytes_ofBytes]⟩
  · rintro ⟨hlt, hadvances⟩
    refine ⟨toBytes width n, t, take_ok_iff.2 ⟨length_toBytes width n, hadvances⟩, ?_⟩
    exact pure_run_ok_iff.2 ⟨ofBytes_toBytes_of_lt hlt, rfl⟩

theorem count16_ok_iff {n : Nat} {context : String} {s t : Input} :
    count16 context s = .ok n t ↔ n < 65536 ∧ s.Advances (toBytes 2 n) t :=
  number_ok_iff

/-- A word that is made from a number of its width is read exactly where its digits stand. -/
theorem word_ok_iff {width : Nat} {context : String} {ofNat : Nat → α} {toNat : α → Nat}
    (hlt : ∀ a, toNat a < 256 ^ width) (hof : ∀ a, ofNat (toNat a) = a)
    (hto : ∀ n, n < 256 ^ width → toNat (ofNat n) = n) {s t : Input} {a : α} :
    (do return ofNat (← number width context) : Reader α) s = .ok a t ↔
      s.Advances (toBytes width (toNat a)) t := by
  rw [bind_run_ok_iff]
  constructor
  · rintro ⟨n, u, hnumber, hpure⟩
    obtain ⟨rfl, rfl⟩ := pure_run_ok_iff.1 hpure
    obtain ⟨hn, hadvances⟩ := number_ok_iff.1 hnumber
    rwa [hto n hn]
  · intro h
    exact ⟨toNat a, t, number_ok_iff.2 ⟨hlt a, h⟩, pure_run_ok_iff.2 ⟨hof a, rfl⟩⟩

theorem u8_ok_iff {context : String} {s t : Input} {b : UInt8} :
    u8 context s = .ok b t ↔ s.Advances [b] t := by
  have hdigits : toBytes 1 b.toNat = [b] := by simp [toBytes]
  rw [← hdigits]
  exact word_ok_iff (fun a => a.toNat_lt) (fun _ => UInt8.ofNat_toNat)
    (fun _ hn => UInt8.toNat_ofNat_of_lt' hn)

theorem u16_ok_iff {context : String} {s t : Input} {w : UInt16} :
    u16 context s = .ok w t ↔ s.Advances (u16Bytes w) t :=
  word_ok_iff (fun a => a.toNat_lt) (fun _ => UInt16.ofNat_toNat)
    (fun _ hn => UInt16.toNat_ofNat_of_lt' hn)

theorem u32_ok_iff {context : String} {s t : Input} {w : UInt32} :
    u32 context s = .ok w t ↔ s.Advances (u32Bytes w) t :=
  word_ok_iff (fun a => a.toNat_lt) (fun _ => UInt32.ofNat_toNat)
    (fun _ hn => UInt32.toNat_ofNat_of_lt' hn)

theorem i16_ok_iff {context : String} {s t : Input} {w : Int16} :
    i16 context s = .ok w t ↔ s.Advances (u16Bytes w.toUInt16) t := by
  rw [i16, bind_run_ok_iff]
  constructor
  · rintro ⟨v, u, hread, hpure⟩
    obtain ⟨rfl, rfl⟩ := pure_run_ok_iff.1 hpure
    exact u16_ok_iff.1 hread
  · intro h
    exact ⟨w.toUInt16, t, u16_ok_iff.2 h, rfl⟩

theorem i32_ok_iff {context : String} {s t : Input} {w : Int32} :
    i32 context s = .ok w t ↔ s.Advances (i32Bytes w) t := by
  rw [i32, bind_run_ok_iff]
  constructor
  · rintro ⟨v, u, hread, hpure⟩
    obtain ⟨rfl, rfl⟩ := pure_run_ok_iff.1 hpure
    exact u32_ok_iff.1 hread
  · intro h
    exact ⟨w.toUInt32, t, u32_ok_iff.2 h, rfl⟩

theorem blob_ok_iff {context : String} {s t : Input} {bytes : List UInt8} :
    blob context s = .ok bytes t ↔
      bytes.length < 4294967296 ∧ s.Advances (toBytes 4 bytes.length ++ bytes) t := by
  rw [blob, bind_run_ok_iff, Input.advances_append_iff]
  constructor
  · rintro ⟨n, u, hnumber, htake⟩
    obtain ⟨rfl, hbytes⟩ := take_ok_iff.1 htake
    obtain ⟨hlt, hlength⟩ := number_ok_iff.1 hnumber
    exact ⟨hlt, u, hlength, hbytes⟩
  · rintro ⟨hlt, u, hlength, hbytes⟩
    exact ⟨bytes.length, u, number_ok_iff.2 ⟨hlt, hlength⟩, take_ok_iff.2 ⟨rfl, hbytes⟩⟩

theorem expectEnd_ok_iff {fault : Nat → Fault} {s t : Input} {r : Unit} :
    expectEnd fault s = .ok r t ↔ s.rest = [] ∧ s = t := by
  rcases s with ⟨rest, position⟩
  cases rest with
  | nil => simp [expectEnd, atEnd, bind, EStateM.bind, pure, EStateM.pure]
  | cons b rest => simp [expectEnd, atEnd, remaining, fail, bind, EStateM.bind]

theorem onBytes_ok_iff {p : Reader α} {bytes : List UInt8} {a : α} :
    p.onBytes bytes = .ok a ↔ ∃ t, p ⟨bytes, 0⟩ = .ok a t := by
  simp only [onBytes, EStateM.run]
  cases p ⟨bytes, 0⟩ with
  | ok b t => simp
  | error e t => simp

/-! ## Repeated reads -/

/-- The reader delivers the items one after the other from `s` on, and leaves `t`. -/
def Delivers (p : Reader α) : Input → List α → Input → Prop
  | s, [], t => s = t
  | s, x :: xs, u => ∃ t, p s = .ok x t ∧ Delivers p t xs u

theorem timesAfter_ok_iff {p : Reader α} {n : Nat} {done ys : List α} {s t : Input} :
    timesAfter p n done s = .ok ys t ↔
      ∃ xs, ys = done.reverse ++ xs ∧ xs.length = n ∧ Delivers p s xs t := by
  induction n generalizing done s with
  | zero =>
    rw [timesAfter, pure_run_ok_iff]
    constructor
    · rintro ⟨rfl, rfl⟩
      exact ⟨[], (List.append_nil _).symm, rfl, rfl⟩
    · rintro ⟨xs, rfl, hlength, hxs⟩
      obtain rfl := List.length_eq_zero_iff.1 hlength
      exact ⟨(List.append_nil _).symm, hxs⟩
  | succ n ih =>
    rw [timesAfter, bind_run_ok_iff]
    constructor
    · rintro ⟨x, u, hx, h⟩
      obtain ⟨xs, rfl, hlength, hxs⟩ := ih.1 h
      exact ⟨x :: xs, by simp, by rw [List.length_cons, hlength], u, hx, hxs⟩
    · rintro ⟨xs, rfl, hlength, hxs⟩
      cases xs with
      | nil => exact absurd hlength (by simp)
      | cons x xs =>
        obtain ⟨u, hx, hxs⟩ := hxs
        rw [List.length_cons, Nat.add_right_cancel_iff] at hlength
        exact ⟨x, u, hx, ih.2 ⟨xs, by simp, hlength, hxs⟩⟩

theorem times_ok_iff {p : Reader α} {n : Nat} {xs : List α} {s t : Input} :
    times n p s = .ok xs t ↔ xs.length = n ∧ Delivers p s xs t := by
  rw [times, timesAfter_ok_iff]
  constructor
  · rintro ⟨ys, rfl, h⟩
    exact h
  · intro h
    exact ⟨xs, rfl, h⟩

/-- Every item takes at least one byte, so that the fuel of `untilEnd` is never used up. -/
def Consumes (p : Reader α) : Prop := ∀ s x t, p s = .ok x t → t.rest.length < s.rest.length

/-- Nothing more can be delivered once all bytes have been read. -/
theorem delivers_iff_of_rest_eq_nil {p : Reader α} (hp : Consumes p) {s t : Input} {xs : List α}
    (hs : s.rest = []) : Delivers p s xs t ↔ xs = [] ∧ s = t := by
  cases xs with
  | nil => exact ⟨fun h => ⟨rfl, h⟩, fun h => h.2⟩
  | cons x xs =>
    constructor
    · rintro ⟨u, hx, -⟩
      have hlt := hp s x u hx
      rw [hs] at hlt
      exact absurd hlt (Nat.not_lt_zero _)
    · rintro ⟨h, -⟩
      exact absurd h (List.cons_ne_nil x xs)

theorem untilEndAfter_ok_iff {p : Reader α} (hp : Consumes p) {fuel : Nat} {done ys : List α}
    {s t : Input} (hfuel : s.rest.length ≤ fuel) :
    untilEndAfter p fuel done s = .ok ys t ↔
      ∃ xs, ys = done.reverse ++ xs ∧ Delivers p s xs t ∧ t.rest = [] := by
  -- at the end of the input nothing more is delivered, with or without fuel
  have hnil : ∀ {s : Input} {done : List α}, s.rest = [] → ((done.reverse = ys ∧ s = t) ↔
      ∃ xs, ys = done.reverse ++ xs ∧ Delivers p s xs t ∧ t.rest = []) := by
    intro s done hs
    constructor
    · rintro ⟨rfl, rfl⟩
      exact ⟨[], (List.append_nil _).symm, rfl, hs⟩
    · rintro ⟨xs, rfl, hxs, -⟩
      obtain ⟨rfl, hst⟩ := (delivers_iff_of_rest_eq_nil hp hs).1 hxs
      exact ⟨(List.append_nil _).symm, hst⟩
  induction fuel generalizing done s with
  | zero =>
    rw [untilEndAfter, pure_run_ok_iff]
    exact hnil (List.length_eq_zero_iff.1 (Nat.le_zero.1 hfuel))
  | succ fuel ih =>
    by_cases hs : s.rest = []
    · have hstop : untilEndAfter p (fuel + 1) done s = .ok done.reverse s := by
        simp [untilEndAfter, atEnd, hs, bind, EStateM.bind, pure, EStateM.pure]
      rw [hstop, EStateM.Result.ok.injEq]
      exact hnil hs
    · have hstep : untilEndAfter p (fuel + 1) done s =
          (p >>= fun x => untilEndAfter p fuel (x :: done)) s := by
        simp [untilEndAfter, atEnd, hs, bind, EStateM.bind]
      rw [hstep, bind_run_ok_iff]
      constructor
      · rintro ⟨x, u, hx, h⟩
        -- one unit of fuel is spent on an item that takes at least one byte
        have hlt := hp s x u hx
        obtain ⟨xs, rfl, hxs, hu⟩ := (ih (by omega)).1 h
        exact ⟨x :: xs, by simp, ⟨u, hx, hxs⟩, hu⟩
      · rintro ⟨xs, rfl, hxs, ht⟩
        cases xs with
        | nil =>
          have hst : s = t := hxs
          exact absurd (hst ▸ ht) hs
        | cons x xs =>
          obtain ⟨u, hx, hxs⟩ := hxs
          have hlt := hp s x u hx
          exact ⟨x, u, hx, (ih (by omega)).2 ⟨xs, by simp, hxs, ht⟩⟩

theorem untilEnd_ok_iff {p : Reader α} (hp : Consumes p) {xs : List α} {s t : Input} :
    untilEnd p s = .ok xs t ↔ Delivers p s xs t ∧ t.rest = [] := by
  have hrun : untilEnd p s = untilEndAfter p s.rest.length [] s := rfl
  rw [hrun, untilEndAfter_ok_iff hp (Nat.le_refl _)]
  constructor
  · rintro ⟨ys, rfl, h⟩
    exact h
  · intro h
    exact ⟨xs, rfl, h⟩

/-! ## Exact readers -/

/-- The reader delivers the acceptable values, each from its encoding and from nothing else. -/
def Exact (p : Reader α) (ok : α → Prop) (encode : α → List UInt8) : Prop :=
  ∀ s x t, p s = .ok x t ↔ ok x ∧ s.Advances (encode x) t

theorem Exact.delivers_iff {p : Reader α} {ok : α → Prop} {encode : α → List UInt8}
    (hp : Exact p ok encode) {xs : List α} {s t : Input} :
    Delivers p s xs t ↔ (∀ x ∈ xs, ok x) ∧ s.Advances (xs.flatMap encode) t := by
  induction xs generalizing s with
  | nil =>
    rw [List.flatMap_nil, Input.advances_nil_iff]
    exact ⟨fun h => ⟨fun x hx => absurd hx List.not_mem_nil, h⟩, fun h => h.2⟩
  | cons x xs ih =>
    rw [List.flatMap_cons, Input.advances_append_iff, List.forall_mem_cons]
    constructor
    · rintro ⟨u, hx, hxs⟩
      obtain ⟨hok, hadvances⟩ := (hp s x u).1 hx
      obtain ⟨hall, hrest⟩ := ih.1 hxs
      exact ⟨⟨hok, hall⟩, u, hadvances, hrest⟩
    · rintro ⟨⟨hok, hall⟩, u, hadvances, hrest⟩
      exact ⟨u, (hp s x u).2 ⟨hok, hadvances⟩, ih.2 ⟨hall, hrest⟩⟩

theorem Exact.times_ok_iff {p : Reader α} {ok : α → Prop} {encode : α → List UInt8}
    (hp : Exact p ok encode) {n : Nat} {xs : List α} {s t : Input} :
    times n p s = .ok xs t ↔
      xs.length = n ∧ (∀ x ∈ xs, ok x) ∧ s.Advances (xs.flatMap encode) t := by
  rw [Reader.times_ok_iff, hp.delivers_iff]

/-- A table is a counted list of rows with nothing behind it. -/
theorem onBytes_table_ok_iff {row : Reader α} {name : String} {info : List UInt8}
    {rows : List α} :
    (table name row).onBytes info = .ok rows ↔ rows.length < 65536 ∧
      ∃ s t, Input.Advances ⟨info, 0⟩ (toBytes 2 rows.length) s ∧ Delivers row s rows t ∧
        t.rest = [] := by
  simp only [onBytes_ok_iff, table, bind_run_ok_iff, expectEnd_ok_iff, pure_run_ok_iff]
  constructor
  · rintro ⟨t, n, s, hn, xs, u, hxs, -, v, ⟨hend, rfl⟩, rfl, rfl⟩
    obtain ⟨rfl, hrows⟩ := times_ok_iff.1 hxs
    obtain ⟨hlt, hcount⟩ := count16_ok_iff.1 hn
    exact ⟨hlt, s, u, hcount, hrows, hend⟩
  · rintro ⟨hlt, s, t, hcount, hrows, hend⟩
    exact ⟨t, rows.length, s, count16_ok_iff.2 ⟨hlt, hcount⟩, rows, t,
      times_ok_iff.2 ⟨rfl, hrows⟩, ⟨⟩, t, ⟨hend, rfl⟩, rfl, rfl⟩

/-- A table is read from exactly the bytes of its count and its rows. -/
theorem Exact.onBytes_table_ok_iff {row : Reader α} {ok : α → Prop} {encode : α → List UInt8}
    (hrow : Exact row ok encode) {name : String} {info : List UInt8} {rows : List α} :
    (table name row).onBytes info = .ok rows ↔
      rows.length < 65536 ∧ (∀ r ∈ rows, ok r) ∧
        info = toBytes 2 rows.length ++ rows.flatMap encode := by
  rw [Reader.onBytes_table_ok_iff]
  refine and_congr_right fun _ => ?_
  constructor
  · rintro ⟨s, t, hcount, hrows, hend⟩
    obtain ⟨hok, hadvances⟩ := hrow.delivers_iff.1 hrows
    exact ⟨hok, (Input.advances_append_iff.2 ⟨s, hcount, hadvances⟩).eq_of_rest_eq_nil hend⟩
  · rintro ⟨hok, rfl⟩
    obtain ⟨s, hcount, hadvances⟩ := Input.advances_append_iff.1 (Input.advances_all _ 0)
    exact ⟨s, _, hcount, hrow.delivers_iff.2 ⟨hok, hadvances⟩, rfl⟩

/-! ## Readers that undo a writer -/

/-- The reader delivers the acceptable values that can be written, each from what is written for it
and from nothing else. -/
def Inverts (p : Reader α) (ok : α → Prop) (encode : α → Except Fault (List UInt8)) : Prop :=
  ∀ s x t, p s = .ok x t ↔ ok x ∧ ∃ bytes, encode x = .ok bytes ∧ s.Advances bytes t

section Inverts

variable {p : Reader α} {ok : α → Prop} {encode : α → Except Fault (List UInt8)}

theorem Inverts.delivers_iff (hp : Inverts p ok encode) {xs : List α} {s t : Input} :
    Delivers p s xs t ↔
      (∀ x ∈ xs, ok x) ∧ ∃ bytes, each encode xs = .ok bytes ∧ s.Advances bytes t := by
  induction xs generalizing s with
  | nil =>
    rw [each_nil]
    constructor
    · intro h
      exact ⟨fun x hx => absurd hx List.not_mem_nil, [], rfl, Input.advances_nil_iff.2 h⟩
    · rintro ⟨-, bytes, hbytes, hadvances⟩
      obtain rfl := Except.ok.inj hbytes
      exact Input.advances_nil_iff.1 hadvances
  | cons x xs ih =>
    rw [List.forall_mem_cons]
    constructor
    · rintro ⟨u, hx, hxs⟩
      obtain ⟨hok, front, hfront, hadvances⟩ := (hp s x u).1 hx
      obtain ⟨hall, back, hback, hrest⟩ := ih.1 hxs
      exact ⟨⟨hok, hall⟩, front ++ back, each_cons_eq_ok_iff.2 ⟨front, back, hfront, hback, rfl⟩,
        Input.advances_append_iff.2 ⟨u, hadvances, hrest⟩⟩
    · rintro ⟨⟨hok, hall⟩, bytes, hbytes, hadvances⟩
      obtain ⟨front, back, hfront, hback, rfl⟩ := each_cons_eq_ok_iff.1 hbytes
      obtain ⟨u, hfrontAdvances, hrest⟩ := Input.advances_append_iff.1 hadvances
      exact ⟨u, (hp s x u).2 ⟨hok, front, hfront, hfrontAdvances⟩, ih.2 ⟨hall, back, hback, hrest⟩⟩

/-- A counted list is read exactly from what is written for it. -/
theorem Inverts.counted (hp : Inverts p ok encode) (context what : String) :
    Inverts (do times (← count16 context) p) (fun xs => ∀ x ∈ xs, ok x)
      (Bytes.counted what encode) := by
  intro s xs t
  rw [bind_run_ok_iff]
  constructor
  · rintro ⟨n, u, hcount, htimes⟩
    obtain ⟨rfl, hitems⟩ := Reader.times_ok_iff.1 htimes
    obtain ⟨hall, body, hbody, hadvances⟩ := hp.delivers_iff.1 hitems
    obtain ⟨hlt, hlength⟩ := count16_ok_iff.1 hcount
    exact ⟨hall, _, Bytes.counted_eq_ok_iff.2 ⟨hlt, body, hbody, rfl⟩,
      Input.advances_append_iff.2 ⟨u, hlength, hadvances⟩⟩
  · rintro ⟨hall, bytes, hbytes, hadvances⟩
    obtain ⟨hlt, body, hbody, rfl⟩ := Bytes.counted_eq_ok_iff.1 hbytes
    obtain ⟨u, hlength, hrest⟩ := Input.advances_append_iff.1 hadvances
    exact ⟨xs.length, u, count16_ok_iff.2 ⟨hlt, hlength⟩,
      Reader.times_ok_iff.2 ⟨rfl, hp.delivers_iff.2 ⟨hall, body, hbody, hrest⟩⟩⟩

/-- With nothing behind it, a value is read from exactly what is written for it. -/
theorem Inverts.onBytes_ok_iff (hp : Inverts p ok encode) {fault : Nat → Fault}
    {info : List UInt8} {x : α} :
    (do let y ← p
        expectEnd fault
        return y : Reader α).onBytes info = .ok x ↔ ok x ∧ encode x = .ok info := by
  simp only [Reader.onBytes_ok_iff, bind_run_ok_iff, expectEnd_ok_iff, pure_run_ok_iff, hp _ _ _]
  constructor
  · rintro ⟨t, y, u, ⟨hok, bytes, hbytes, hadvances⟩, -, v, ⟨hend, rfl⟩, rfl, rfl⟩
    obtain rfl : info = bytes := hadvances.eq_of_rest_eq_nil hend
    exact ⟨hok, hbytes⟩
  · rintro ⟨hok, hbytes⟩
    have hadvances := Input.advances_all info 0
    exact ⟨_, x, _, ⟨hok, info, hbytes, hadvances⟩, ⟨⟩, _, ⟨rfl, rfl⟩, rfl, rfl⟩

/-- No two acceptable values are written alike. -/
theorem Inverts.eq_of_encode_eq (hp : Inverts p ok encode) {x y : α} {bytes : List UInt8}
    (hx : ok x) (hy : ok y) (hxbytes : encode x = .ok bytes) (hybytes : encode y = .ok bytes) :
    x = y := by
  have hadvances := Input.advances_all bytes 0
  have hreadx := (hp _ x _).2 ⟨hx, bytes, hxbytes, hadvances⟩
  have hready := (hp _ y _).2 ⟨hy, bytes, hybytes, hadvances⟩
  rw [hreadx] at hready
  exact (EStateM.Result.ok.inj hready).1

end Inverts

end Reader

end PatternGuard
