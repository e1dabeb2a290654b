import Mathlib.Algebra.Group.Nat.Defs
import PatternGuard.Proofs.Outcome

/-!
# Partial operations

Indices, differences of unsigned numbers and numbers of fixed width are partial: outside their range
there is no result. The definitions of this library compute with lists and unbounded numbers, where
every operation has a result. A computation in `Checked` is one that stops at the first operation
outside its range. `Computes` and `RunsFrom` say that it never stops, and that it has the outcome of
the unchecked computation, be it a value or an error; both carry over to larger computations step by
step.
-/

set_option autoImplicit false

namespace PatternGuard

/-- A partial operation outside its range. -/
inductive Trap where
  /-- An index, or the end of a slice, beyond the end. -/
  | beyondEnd (index length : Nat)
  /-- A difference of unsigned numbers below zero. -/
  | belowZero (minuend subtrahend : Nat)
  /-- A number that is too large for its type, in absolute value. -/
  | tooLarge (bits : Nat) (value : Int)
deriving DecidableEq, Repr

/-- A computation that stops at the first partial operation outside its range. -/
abbrev Checked := Except Trap

namespace Checked

variable {α β : Type}

/-! ## Operations -/

/-- The item at an index. -/
def item (xs : List α) (i : Nat) : Checked α :=
  match xs[i]? with
  | some x => .ok x
  | none => .error (.beyondEnd i xs.length)

/-- The list with another item at an index. -/
def store (xs : List α) (i : Nat) (x : α) : Checked (List α) :=
  if i < xs.length then .ok (xs.set i x) else .error (.beyondEnd i xs.length)

/-- The items in front of an index. -/
def front (xs : List α) (stop : Nat) : Checked (List α) :=
  if stop ≤ xs.length then .ok (xs.take stop) else .error (.beyondEnd stop xs.length)

/-- The items from an index on. -/
def back (xs : List α) (start : Nat) : Checked (List α) :=
  if start ≤ xs.length then .ok (xs.drop start) else .error (.beyondEnd start xs.length)

/-- The difference of unsigned numbers. -/
def minus (m n : Nat) : Checked Nat := if n ≤ m then .ok (m - n) else .error (.belowZero m n)

/-- A number as an unsigned number of the given width. -/
def fit (bits n : Nat) : Checked Nat := if n < 2 ^ bits then .ok n else .error (.tooLarge bits n)

/-- A number as an unsigned byte. -/
def toUInt8 (n : Nat) : Checked UInt8 := UInt8.ofNat <$> fit 8 n

/-- A number as an unsigned 16-bit word. -/
def toUInt16 (n : Nat) : Checked UInt16 := UInt16.ofNat <$> fit 16 n

/-- A number as a signed 32-bit word. -/
def toInt32 (n : Int) : Checked Int32 :=
  if -2147483648 ≤ n ∧ n < 2147483648 then .ok (Int32.ofInt n) else .error (.tooLarge 32 n)

/-- A signed number as an unsigned one. -/
def toNat (n : Int) : Checked Nat := if 0 ≤ n then .ok n.toNat else .error (.tooLarge 64 n)

theorem fit_of_lt (bits : Nat) {n : Nat} (h : n < 2 ^ bits) : fit bits n = .ok n := if_pos h

theorem bind_of_ok {x : Checked α} {f : α → Checked β} {a : α} (h : x = .ok a) :
    x >>= f = f a := by
  rw [h]
  rfl

theorem mapM_eq_ok {f : α → Checked β} {g : α → β} {xs : List α} (h : ∀ x ∈ xs, f x = .ok (g x)) :
    xs.mapM f = .ok (xs.map g) := by
  refine Outcome.mapM_ok_iff.2 ?_
  rw [List.forall₂_map_right_iff, List.forall₂_same]
  exact h

end Checked

/-! ## Computations that may fail -/

/-- A checked computation that may fail with an error of its own. -/
structure CheckedExcept (ε α : Type) where
  run : Checked (Except ε α)

namespace CheckedExcept

variable {ε α β : Type}

/-- Continues with what has been delivered. -/
protected def bind (x : CheckedExcept ε α) (f : α → CheckedExcept ε β) : CheckedExcept ε β :=
  ⟨match x.run with
    | .error trap => .error trap
    | .ok (.error e) => .ok (.error e)
    | .ok (.ok a) => (f a).run⟩

instance : Monad (CheckedExcept ε) where
  pure a := ⟨.ok (.ok a)⟩
  bind := CheckedExcept.bind

instance : LawfulMonad (CheckedExcept ε) :=
  LawfulMonad.mk' (CheckedExcept ε)
    (by rintro α ⟨_ | _ | _⟩ <;> rfl)
    (fun _ _ => rfl)
    (by rintro α β γ ⟨_ | _ | _⟩ f g <;> rfl)

/-- Computations without partial operations. -/
instance : MonadLift (Except ε) (CheckedExcept ε) := ⟨fun m => ⟨.ok m⟩⟩

/-- Operations that may stop the computation. -/
instance : MonadLift Checked (CheckedExcept ε) := ⟨fun x => ⟨Except.ok <$> x⟩⟩

/-- Fails with an error of its own. -/
def fail (e : ε) : CheckedExcept ε α := ⟨.ok (.error e)⟩

end CheckedExcept

/-- The checked computation never stops, and has the outcome of the unchecked one. -/
def Computes {ε α : Type} (x : CheckedExcept ε α) (m : Except ε α) : Prop := x.run = .ok m

namespace Computes

variable {ε α β γ : Type}

theorem of_unchecked (m : Except ε α) : Computes (liftM m : CheckedExcept ε α) m := rfl

theorem pure (a : α) : Computes (Pure.pure a : CheckedExcept ε α) (.ok a) := rfl

theorem fail (e : ε) : Computes (CheckedExcept.fail e : CheckedExcept ε α) (.error e) := rfl

theorem bind {x : CheckedExcept ε α} {m : Except ε α} {f : α → CheckedExcept ε β}
    {g : α → Except ε β} (hx : Computes x m) (hf : ∀ a, m = .ok a → Computes (f a) (g a)) :
    Computes (x >>= f) (m >>= g) := by
  have hbind : x >>= f = CheckedExcept.bind x f := rfl
  rw [Computes, hbind, CheckedExcept.bind, show x.run = .ok m from hx]
  cases m with
  | error e => rfl
  | ok a => exact hf a rfl

/-- An operation in its range is no step of the unchecked computation. -/
theorem step {x : Checked γ} {c : γ} {f : γ → CheckedExcept ε β} {m : Except ε β}
    (hx : x = .ok c) (hf : Computes (f c) m) :
    Computes ((liftM x : CheckedExcept ε γ) >>= f) m := by
  rw [hx]
  exact hf

/-- An operation in its range, at the end. -/
theorem of_ok {x : Checked γ} {c : γ} (hx : x = .ok c) :
    Computes (liftM x : CheckedExcept ε γ) (.ok c) := by
  rw [hx]
  rfl

/-- What is unchecked may be reused. -/
theorem reuse {m : Except ε α} {f : α → CheckedExcept ε β} {g : α → Except ε β}
    (hf : ∀ a, m = .ok a → Computes (f a) (g a)) :
    Computes ((liftM m : CheckedExcept ε α) >>= f) (m >>= g) :=
  (of_unchecked m).bind hf

/-- A refusal in the middle of a computation. -/
theorem guard {refused : Prop} [Decidable refused] {e : ε} {x : CheckedExcept ε β}
    {next : Except ε β} (h : ¬refused → Computes x next) :
    Computes (if refused then .fail e else x)
      (do if refused then .error e
          next : Except ε β) := by
  by_cases hrefused : refused
  · rw [if_pos hrefused]
    simp only [hrefused, ↓reduceIte]
    exact .fail e
  · rw [if_neg hrefused]
    simp only [hrefused, ↓reduceIte]
    exact h hrefused

theorem mapM {f : α → CheckedExcept ε γ} {g : β → Except ε γ} {xs : List α} {ys : List β}
    (h : List.Forall₂ (fun x y => Computes (f x) (g y)) xs ys) :
    Computes (xs.mapM f) (ys.mapM g) := by
  induction h with
  | nil => exact pure []
  | cons hxy _ ih =>
    rw [List.mapM_cons, List.mapM_cons]
    exact hxy.bind fun z _ => ih.bind fun zs _ => pure (z :: zs)

theorem forM {f : α → CheckedExcept ε Unit} {g : β → Except ε Unit} {xs : List α} {ys : List β}
    (h : List.Forall₂ (fun x y => Computes (f x) (g y)) xs ys) :
    Computes (xs.forM f) (ys.forM g) := by
  induction h with
  | nil => exact pure ()
  | cons hxy _ ih => exact hxy.bind fun _ _ => ih

theorem foldlM {f : β → α → CheckedExcept ε β} {g : β → α → Except ε β} {xs : List α}
    (h : ∀ b, ∀ x ∈ xs, Computes (f b x) (g b x)) (b : β) :
    Computes (xs.foldlM f b) (xs.foldlM g b) := by
  induction xs generalizing b with
  | nil => exact pure b
  | cons x xs ih =>
    exact (h b x List.mem_cons_self).bind fun c _ =>
      ih (fun b y hy => h b y (List.mem_cons_of_mem x hy)) c

end Computes

/-! ## Computations with a state -/

/-- A checked computation that may fail with an error of its own and changes a state; what was
changed before an error stays. -/
def CheckedState (ε σ α : Type) := σ → Checked (EStateM.Result ε σ α)

namespace CheckedState

variable {ε σ α β : Type}

/-- Delivers a value. -/
protected def pure (a : α) : CheckedState ε σ α := fun s => .ok (.ok a s)

/-- Continues with what has been delivered. -/
protected def bind (x : CheckedState ε σ α) (f : α → CheckedState ε σ β) : CheckedState ε σ β :=
  fun s =>
    match x s with
    | .error trap => .error trap
    | .ok (.error e t) => .ok (.error e t)
    | .ok (.ok a t) => f a t

instance : Monad (CheckedState ε σ) where
  pure := CheckedState.pure
  bind := CheckedState.bind

instance : LawfulMonad (CheckedState ε σ) :=
  LawfulMonad.mk' (CheckedState ε σ)
    (fun x => by
      funext s
      show CheckedState.bind x CheckedState.pure s = x s
      rw [CheckedState.bind]
      rcases x s with _ | _ | _ <;> rfl)
    (fun _ _ => rfl)
    (fun x f g => by
      funext s
      show CheckedState.bind (CheckedState.bind x f) g s =
        CheckedState.bind x (fun a => CheckedState.bind (f a) g) s
      rw [CheckedState.bind, CheckedState.bind, CheckedState.bind]
      rcases x s with _ | _ | _ <;> rfl)

/-- A computation without partial operations. -/
def unchecked (x : EStateM ε σ α) : CheckedState ε σ α := fun s => .ok (x s)

/-- Fails without a change. -/
def fail (e : ε) : CheckedState ε σ α := unchecked (throw e)

instance : MonadLift (EStateM ε σ) (CheckedState ε σ) := ⟨unchecked⟩

instance : MonadLift Checked (CheckedState ε σ) := ⟨fun x s =>
  match x with
  | .ok a => .ok (.ok a s)
  | .error trap => .error trap⟩

end CheckedState

/-- From the given state the checked computation never stops, and it has the outcome of the
unchecked one. -/
def RunsFrom {ε σ α : Type} (s : σ) (x : CheckedState ε σ α) (m : EStateM ε σ α) : Prop :=
  x s = .ok (m s)

namespace RunsFrom

variable {ε σ α β γ : Type} {s : σ}

theorem of_unchecked (m : EStateM ε σ α) : RunsFrom s (CheckedState.unchecked m) m := rfl

theorem pure (a : α) : RunsFrom s (Pure.pure a : CheckedState ε σ α) (Pure.pure a) := rfl

theorem bind {x : CheckedState ε σ α} {m : EStateM ε σ α} {f : α → CheckedState ε σ β}
    {g : α → EStateM ε σ β} (hx : RunsFrom s x m)
    (hf : ∀ a t, m s = .ok a t → RunsFrom t (f a) (g a)) : RunsFrom s (x >>= f) (m >>= g) := by
  have hbind : (x >>= f) s = CheckedState.bind x f s := rfl
  rw [RunsFrom, hbind, CheckedState.bind, show x s = .ok (m s) from hx]
  cases hm : m s with
  | error e t =>
    rw [Outcome.bind_run_of_error hm]
  | ok a t =>
    rw [Outcome.bind_run_of_ok hm]
    exact hf a t hm

/-- An operation in its range is no step of the unchecked computation. -/
theorem step {x : Checked γ} {c : γ} {f : γ → CheckedState ε σ β} {m : EStateM ε σ β}
    (hx : x = .ok c) (hf : RunsFrom s (f c) m) :
    RunsFrom s ((liftM x : CheckedState ε σ γ) >>= f) m := by
  rw [hx]
  exact hf

/-- What is unchecked may be reused. -/
theorem reuse {m : EStateM ε σ α} {f : α → CheckedState ε σ β} {g : α → EStateM ε σ β}
    (hf : ∀ a t, m s = .ok a t → RunsFrom t (f a) (g a)) :
    RunsFrom s ((liftM m : CheckedState ε σ α) >>= f) (m >>= g) :=
  (of_unchecked m).bind hf

/-- A refusal in the middle of a computation. -/
theorem guard {refused : Prop} [Decidable refused] {e : ε} {x : CheckedState ε σ β}
    {next : EStateM ε σ β} (h : ¬refused → RunsFrom s x next) :
    RunsFrom s (if refused then CheckedState.fail e else x)
      (do if refused then throw e
          next) := by
  by_cases hrefused : refused
  · rw [if_pos hrefused]
    simp only [hrefused, ↓reduceIte]
    rfl
  · rw [if_neg hrefused]
    simp only [hrefused, ↓reduceIte]
    exact h hrefused

theorem mapM {f : α → CheckedState ε σ β} {g : α → EStateM ε σ β} {xs : List α}
    (h : ∀ x ∈ xs, ∀ s, RunsFrom s (f x) (g x)) (s : σ) : RunsFrom s (xs.mapM f) (xs.mapM g) := by
  induction xs generalizing s with
  | nil => exact pure []
  | cons x xs ih =>
    obtain ⟨hx, hxs⟩ := List.forall_mem_cons.1 h
    rw [List.mapM_cons, List.mapM_cons]
    exact (hx s).bind fun y t _ => (ih hxs t).bind fun ys _ _ => pure (y :: ys)

end RunsFrom

end PatternGuard
