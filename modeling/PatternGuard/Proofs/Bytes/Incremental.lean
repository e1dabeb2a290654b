import PatternGuard.Proofs.Bytes.Reader

/-!
# Readers and the end of the input

A reader takes its bytes from the front and does not know how many there are. So more bytes behind
the input make no difference to what it does, unless it runs out of bytes without them
(`Reader.Incremental`). This property carries over from single reads to whatever is put together from
them. A reader that in the end asks for the end of the input (`Reader.ReadsToEnd`) notices the further
bytes there, and only there: it reports just as many as there are.
-/

set_option autoImplicit false

namespace PatternGuard

open Outcome

namespace Input

/-- The input with more bytes behind it. -/
def extend (s : Input) (more : List UInt8) : Input := { s with rest := s.rest ++ more }

theorem Advances.extend {s t : Input} {bytes : List UInt8} (h : s.Advances bytes t)
    (more : List UInt8) : (s.extend more).Advances bytes (t.extend more) := by
  refine ⟨?_, h.position_eq⟩
  show s.rest ++ more = bytes ++ (t.rest ++ more)
  rw [h.rest_eq, List.append_assoc]

end Input

namespace Reader

variable {α β : Type} {p : Reader α} {f : α → Reader β} {s t : Input}

/-! ## More bytes -/

/-- The reader runs out of bytes. -/
def Truncates (p : Reader α) (s : Input) : Prop :=
  ∃ context offset needed t, p s = .error (.truncated context offset needed) t

/-- What more bytes behind the input change. A reader that runs out of bytes without them may go on
with them, one that fails for another reason still fails, and if it succeeds, `after` says what comes
of the longer input. -/
inductive Continues (p : Reader α) (s : Input) (more : List UInt8)
    (after : α → Input → EStateM.Result Fault Input α → Prop) : Prop where
  | cut (h : p.Truncates s)
  | failed {e e' : Fault} {t u : Input} (h : p s = .error e t)
      (hmore : p (s.extend more) = .error e' u)
  | delivered {a : α} {t : Input} (h : p s = .ok a t) (hmore : after a t (p (s.extend more)))

/-- The reader delivers the same value, whatever follows behind, and leaves what follows. -/
def Incremental (p : Reader α) : Prop :=
  ∀ s more, p.Continues s more fun a t r => r = .ok a (t.extend more)

/-- The reader reports what follows: where it succeeds, nothing may follow. -/
def ReadsToEnd (p : Reader α) : Prop :=
  ∀ s more, more ≠ [] → p.Continues s more fun _ _ r =>
    ∃ t, r = .error (.trailingBytes more.length) t

theorem Truncates.bind (h : p.Truncates s) (f : α → Reader β) : (p >>= f).Truncates s := by
  obtain ⟨context, offset, needed, t, h⟩ := h
  exact ⟨context, offset, needed, t, bind_run_of_error h⟩

theorem Truncates.bind_of_ok {a : α} (ha : p s = .ok a t) (h : (f a).Truncates t) :
    (p >>= f).Truncates s := by
  obtain ⟨context, offset, needed, u, h⟩ := h
  refine ⟨context, offset, needed, u, ?_⟩
  rw [bind_run_of_ok ha, h]

/-- After an incremental reader the next one starts from an input that is longer by the same bytes.
-/
theorem Incremental.continues_bind {more : List UInt8}
    {after : β → Input → EStateM.Result Fault Input β → Prop} (hp : Incremental p)
    (hf : ∀ a t, (f a).Continues t more after) : (p >>= f).Continues s more after := by
  cases hp s more with
  | cut h => exact .cut (h.bind f)
  | failed h hmore => exact .failed (bind_run_of_error h) (bind_run_of_error hmore)
  | @delivered a t h hmore =>
    cases hf a t with
    | cut hcut => exact .cut (hcut.bind_of_ok h)
    | failed h' hmore' =>
      apply Continues.failed
      · rw [bind_run_of_ok h, h']
      · rw [bind_run_of_ok hmore, hmore']
    | delivered h' hmore' =>
      apply Continues.delivered
      · rw [bind_run_of_ok h, h']
      · rwa [bind_run_of_ok hmore]

theorem Incremental.bind (hp : Incremental p) (hf : ∀ a, Incremental (f a)) :
    Incremental (p >>= f) := by
  intro s more
  exact hp.continues_bind fun a t => hf a t more

/-- The end is asked for after the last part. -/
theorem Incremental.bind_readsToEnd (hp : Incremental p) (hf : ∀ a, ReadsToEnd (f a)) :
    ReadsToEnd (p >>= f) := by
  intro s more hne
  exact hp.continues_bind fun a t => hf a t more hne

theorem incremental_pure (a : α) : Incremental (pure a : Reader α) := by
  intro s more
  exact .delivered rfl rfl

theorem incremental_fail (e : Fault) : Incremental (fail e : Reader α) := by
  intro s more
  exact .failed rfl rfl

theorem Incremental.map (hp : Incremental p) (g : α → β) :
    Incremental (do return g (← p) : Reader β) := by
  apply hp.bind
  intro a
  exact incremental_pure (g a)

/-- A refusal in the middle depends on what was read before it. -/
theorem Incremental.unless {refused : Prop} [Decidable refused] {e : Fault} {next : Reader α}
    (h : Incremental next) :
    Incremental (do if refused then fail e
                    next : Reader α) := by
  split
  · apply (incremental_fail e).bind
    intro _
    exact h
  · exact h

/-! ## Words and blobs -/

/-- A read of some bytes fails only if there are too few. -/
theorem incremental_take (n : Nat) (context : String) : Incremental (take n context) := by
  intro s more
  cases h : take n context s with
  | ok bytes t =>
    obtain ⟨hlength, hadvances⟩ := take_ok_iff.1 h
    exact .delivered h (take_ok_iff.2 ⟨hlength, hadvances.extend more⟩)
  | error e t =>
    apply Continues.cut
    simp only [take, List.splitAt_eq] at h
    split at h
    · exact absurd h (by simp)
    · rename_i hshort
      refine ⟨context, s.position, n - (s.rest.take n).length, s, ?_⟩
      simp only [take, List.splitAt_eq, hshort, ↓reduceIte]

theorem incremental_number (width : Nat) (context : String) : Incremental (number width context) :=
  (incremental_take width context).map _

theorem incremental_u8 (context : String) : Incremental (u8 context) :=
  (incremental_number 1 context).map _

theorem incremental_u16 (context : String) : Incremental (u16 context) :=
  (incremental_number 2 context).map _

theorem incremental_u32 (context : String) : Incremental (u32 context) :=
  (incremental_number 4 context).map _

theorem incremental_i32 (context : String) : Incremental (i32 context) :=
  (incremental_u32 context).map _

theorem incremental_count16 (context : String) : Incremental (count16 context) :=
  incremental_number 2 context

/-- The length stands in front of the blob, so that the end of the blob is known. -/
theorem incremental_blob (context : String) : Incremental (blob context) := by
  apply (incremental_number 4 context).bind
  intro n
  exact incremental_take n context

/-! ## Repeated reads -/

theorem incremental_timesAfter (hp : Incremental p) (n : Nat) (done : List α) :
    Incremental (timesAfter p n done) := by
  induction n generalizing done with
  | zero => exact incremental_pure _
  | succ n ih =>
    rw [timesAfter]
    apply hp.bind
    intro a
    exact ih (a :: done)

theorem incremental_times (hp : Incremental p) (n : Nat) : Incremental (times n p) :=
  incremental_timesAfter hp n []

/-- The number of items is read before them. -/
theorem incremental_counted (hp : Incremental p) (context : String) :
    Incremental (do times (← count16 context) p) := by
  apply (incremental_count16 context).bind
  intro n
  exact incremental_times hp n

/-! ## The end of the input -/

theorem readsToEnd_fail (e : Fault) : ReadsToEnd (fail e : Reader α) := by
  intro s more _
  exact .failed rfl rfl

theorem ReadsToEnd.unless {refused : Prop} [Decidable refused] {e : Fault} {next : Reader α}
    (h : ReadsToEnd next) :
    ReadsToEnd (do if refused then fail e
                   next : Reader α) := by
  split
  · apply (incremental_fail e).bind_readsToEnd
    intro _
    exact h
  · exact h

theorem expectEnd_of_cons {fault : Nat → Fault} {b : UInt8} {rest : List UInt8}
    (h : s.rest = b :: rest) : expectEnd fault s = .error (fault s.rest.length) s := by
  simp [expectEnd, atEnd, remaining, fail, bind, EStateM.bind, h]

/-- Nothing is read after the end. -/
theorem readsToEnd_expectEnd (a : α) :
    ReadsToEnd (do expectEnd .trailingBytes; return a : Reader α) := by
  intro s more hmore
  obtain ⟨b, rest, hrest⟩ : ∃ b rest, (s.extend more).rest = b :: rest := by
    apply List.exists_cons_of_ne_nil
    exact List.append_ne_nil_of_right_ne_nil s.rest hmore
  have hend : expectEnd .trailingBytes (s.extend more) =
      .error (.trailingBytes (s.extend more).rest.length) (s.extend more) :=
    expectEnd_of_cons hrest
  cases hs : s.rest with
  | nil =>
    -- the bytes that are left over are the further ones
    have hlength : (s.extend more).rest.length = more.length := by
      show (s.rest ++ more).length = more.length
      rw [hs, List.nil_append]
    rw [hlength] at hend
    have hempty : expectEnd .trailingBytes s = .ok ⟨⟩ s := expectEnd_ok_iff.2 ⟨hs, rfl⟩
    exact .delivered (bind_run_of_ok hempty) ⟨_, bind_run_of_error hend⟩
  | cons b rest =>
    exact .failed (bind_run_of_error (expectEnd_of_cons hs)) (bind_run_of_error hend)

/-- With too few bytes a reader to the end runs out of them, with too many it reports how many. -/
theorem ReadsToEnd.onBytes (hp : ReadsToEnd p) {bytes : List UInt8} {a : α}
    (h : p.onBytes bytes = .ok a) :
    (∀ front, front <+: bytes → front ≠ bytes →
      ∃ context offset needed, p.onBytes front = .error (.truncated context offset needed)) ∧
    ∀ more, more ≠ [] → p.onBytes (bytes ++ more) = .error (.trailingBytes more.length) := by
  obtain ⟨t, hrun⟩ := onBytes_ok_iff.1 h
  refine ⟨?_, ?_⟩
  · rintro front ⟨back, rfl⟩ hne
    have hback : back ≠ [] := by
      rintro rfl
      exact hne (List.append_nil front).symm
    -- the bytes that were cut off are more bytes behind the others
    have hext : p (Input.extend ⟨front, 0⟩ back) = .ok a t := hrun
    cases hp ⟨front, 0⟩ back hback with
    | cut hcut =>
      obtain ⟨context, offset, needed, u, hu⟩ := hcut
      refine ⟨context, offset, needed, ?_⟩
      rw [Reader.onBytes, EStateM.run, hu]
    | failed _ hmore =>
      rw [hext] at hmore
      exact absurd hmore (by simp)
    | delivered _ hmore =>
      obtain ⟨u, hu⟩ := hmore
      rw [hext] at hu
      exact absurd hu (by simp)
  · intro more hmore
    cases hp ⟨bytes, 0⟩ more hmore with
    | cut hcut =>
      obtain ⟨context, offset, needed, u, hu⟩ := hcut
      rw [hrun] at hu
      exact absurd hu (by simp)
    | failed hfailed _ =>
      rw [hrun] at hfailed
      exact absurd hfailed (by simp)
    | delivered _ hext =>
      obtain ⟨u, hu⟩ := hext
      have hlonger : p ⟨bytes ++ more, 0⟩ = .error (.trailingBytes more.length) u := hu
      rw [Reader.onBytes, EStateM.run, hlonger]

end Reader

end PatternGuard
