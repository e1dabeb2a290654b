import Mathlib.Data.List.Forall2

/-!
# Outcomes

A computation in steps succeeds exactly when each step succeeds in turn, and it fails for a reason
of some step. The statements here take a success apart into the successes of its steps, for plain
outcomes and for computations with a state, and put it together again; the last ones say which
reasons a failure can have.
-/

set_option autoImplicit false

namespace PatternGuard.Outcome

/-! ## Plain outcomes -/

section Plain

variable {ε α β : Type}

theorem bind_ok_iff {x : Except ε α} {f : α → Except ε β} {b : β} :
    (x >>= f) = .ok b ↔ ∃ a, x = .ok a ∧ f a = .ok b := by
  cases x with
  | error e => simp [bind, Except.bind]
  | ok a => simp [bind, Except.bind]

/-- What follows a computation may be replaced by what does the same with its result. -/
theorem bind_congr_of_ok {x : Except ε α} {f g : α → Except ε β}
    (h : ∀ a, x = .ok a → f a = g a) : x >>= f = x >>= g := by
  cases x with
  | error e => rfl
  | ok a => exact h a rfl

theorem pure_ok_iff {a b : α} : (pure a : Except ε α) = .ok b ↔ a = b := by
  simp [pure, Except.pure]

theorem throw_ne_ok {e : ε} {a : α} : (throw e : Except ε α) ≠ .ok a := by
  simp [throw, throwThe, MonadExceptOf.throw]

theorem throw_eq_error_iff {e e' : ε} : (throw e : Except ε α) = .error e' ↔ e = e' := by
  simp [throw, throwThe, MonadExceptOf.throw]

/-- A refusal in the middle of a computation: it did not happen, or nothing was computed. -/
theorem unless_ok_iff {refused : Prop} [Decidable refused] {refusal : Except ε PUnit}
    (hrefusal : ∀ r, refusal ≠ .ok r) {next : Except ε α} {a : α} :
    (do if refused then refusal
        next : Except ε α) = .ok a ↔ ¬refused ∧ next = .ok a := by
  by_cases h : refused
  · simp only [h, ↓reduceIte, not_true_eq_false, false_and, iff_false]
    intro hok
    obtain ⟨r, hr, -⟩ := bind_ok_iff.1 hok
    exact hrefusal r hr
  · simp [h]

/-- Whether there is a result that has a property can be decided if the property can. -/
instance decidableExistsOk {x : Except ε α} {P : α → Prop} [DecidablePred P] :
    Decidable (∃ a, x = .ok a ∧ P a) :=
  match x with
  | .ok a => decidable_of_iff (P a) (by simp)
  | .error _ => isFalse (by simp)

theorem map_ok_iff {x : Except ε α} {f : α → β} {b : β} :
    x.map f = .ok b ↔ ∃ a, x = .ok a ∧ f a = b := by
  cases x with
  | error e => simp [Except.map]
  | ok a => simp [Except.map]

/-- Items are treated one by one: the results stand in the order of the items. -/
theorem mapM_ok_iff {f : α → Except ε β} {xs : List α} {ys : List β} :
    xs.mapM f = .ok ys ↔ List.Forall₂ (fun x y => f x = .ok y) xs ys := by
  induction xs generalizing ys with
  | nil =>
    rw [List.mapM_nil, pure_ok_iff, List.forall₂_nil_left_iff]
    exact eq_comm
  | cons x xs ih =>
    rw [List.mapM_cons, bind_ok_iff, List.forall₂_cons_left_iff]
    constructor
    · rintro ⟨y, hy, h⟩
      obtain ⟨zs, hzs, h⟩ := bind_ok_iff.1 h
      exact ⟨y, zs, hy, ih.1 hzs, (pure_ok_iff.1 h).symm⟩
    · rintro ⟨y, zs, hy, hzs, rfl⟩
      exact ⟨y, hy, bind_ok_iff.2 ⟨zs, ih.2 hzs, rfl⟩⟩

/-- If each item has a result, the items have a list of results. -/
theorem exists_forall₂ {R : α → β → Prop} {xs : List α} (h : ∀ x ∈ xs, ∃ y, R x y) :
    ∃ ys, List.Forall₂ R xs ys := by
  induction xs with
  | nil => exact ⟨[], List.Forall₂.nil⟩
  | cons x xs ih =>
    obtain ⟨hx, hxs⟩ := List.forall_mem_cons.1 h
    obtain ⟨y, hy⟩ := hx
    obtain ⟨ys, hys⟩ := ih hxs
    exact ⟨y :: ys, List.Forall₂.cons hy hys⟩

/-- The library states this equation for its own class of collections only. -/
theorem forM_cons (f : α → Except ε Unit) (x : α) (xs : List α) :
    (x :: xs).forM f = f x >>= fun _ => xs.forM f := rfl

/-- A check of every item succeeds exactly when it succeeds for each. -/
theorem forM_ok_iff {f : α → Except ε Unit} {xs : List α} {r : Unit} :
    xs.forM f = .ok r ↔ ∀ x ∈ xs, f x = .ok ⟨⟩ := by
  induction xs with
  | nil => simp [List.forM, pure, Except.pure]
  | cons x xs ih =>
    rw [forM_cons, bind_ok_iff]
    constructor
    · rintro ⟨⟨⟩, hx, hxs⟩ z hz
      rcases List.mem_cons.1 hz with rfl | hz
      · exact hx
      · exact ih.1 hxs z hz
    · intro h
      exact ⟨⟨⟩, h x List.mem_cons_self, ih.2 fun z hz => h z (List.mem_cons_of_mem x hz)⟩

/-- Items and results that agree in a part have the same list of that part. -/
theorem map_eq_of_forall₂ {γ : Type} {R : α → β → Prop} {f : α → γ} {g : β → γ} {xs : List α}
    {ys : List β} (hR : ∀ x y, R x y → g y = f x) (h : List.Forall₂ R xs ys) :
    ys.map g = xs.map f := by
  induction h with
  | nil => rfl
  | cons hxy _ ih => rw [List.map_cons, List.map_cons, hR _ _ hxy, ih]

/-- Items that each have the image of a result have the images of a list of results. -/
theorem forall₂_exists_eq_iff {γ : Type} {R : α → β → Prop} {g : β → γ} {xs : List α}
    {zs : List γ} :
    List.Forall₂ (fun x z => ∃ y, R x y ∧ g y = z) xs zs ↔
      ∃ ys, List.Forall₂ R xs ys ∧ ys.map g = zs := by
  constructor
  · intro h
    induction h with
    | nil => exact ⟨[], List.Forall₂.nil, rfl⟩
    | cons hxz _ ih =>
      obtain ⟨y, hxy, rfl⟩ := hxz
      obtain ⟨ys, hys, rfl⟩ := ih
      exact ⟨y :: ys, List.Forall₂.cons hxy hys, rfl⟩
  · rintro ⟨ys, hys, rfl⟩
    rw [List.forall₂_map_right_iff]
    exact hys.imp fun _ y hxy => ⟨y, hxy, rfl⟩

theorem exists_mem_zip_of_forall₂ {R : α → β → Prop} {xs : List α} {ys : List β} {x : α}
    (h : List.Forall₂ R xs ys) (hx : x ∈ xs) : ∃ y, (x, y) ∈ xs.zip ys ∧ R x y := by
  induction h with
  | nil => exact absurd hx List.not_mem_nil
  | cons hxy _ ih =>
    rcases List.mem_cons.1 hx with rfl | hx
    · exact ⟨_, List.mem_cons_self, hxy⟩
    · obtain ⟨y, hy, hR⟩ := ih hx
      exact ⟨y, List.mem_cons_of_mem _ hy, hR⟩

theorem exists_mem_zip_of_mem_right {R : α → β → Prop} {xs : List α} {ys : List β} {y : β}
    (h : List.Forall₂ R xs ys) (hy : y ∈ ys) : ∃ x, (x, y) ∈ xs.zip ys ∧ R x y := by
  induction h with
  | nil => exact absurd hy List.not_mem_nil
  | cons hxy _ ih =>
    rcases List.mem_cons.1 hy with rfl | hy
    · exact ⟨_, List.mem_cons_self, hxy⟩
    · obtain ⟨x, hx, hR⟩ := ih hy
      exact ⟨x, List.mem_cons_of_mem _ hx, hR⟩

/-- If each item has a result exactly when it is selected, the results are those of the selected
items, in their order. -/
theorem forall₂_filter {S : α → Option β → Prop} {P : α → Prop} [DecidablePred P]
    {R : α → β → Prop} {xs : List α} {os : List (Option β)} (hnone : ∀ x, S x none → ¬P x)
    (hsome : ∀ x y, S x (some y) → P x ∧ R x y) (h : List.Forall₂ S xs os) :
    List.Forall₂ R (xs.filter P) (os.filterMap id) := by
  induction h with
  | nil => exact List.Forall₂.nil
  | @cons x o xs os hxo _ ih =>
    cases o with
    | none =>
      rw [List.filter_cons_of_neg (by simpa using hnone x hxo)]
      exact ih
    | some y =>
      obtain ⟨hx, hxy⟩ := hsome x y hxo
      rw [List.filter_cons_of_pos (by simpa using hx)]
      exact List.Forall₂.cons hxy ih

/-- What holds of parts of items, each with its result, may be said of the items. -/
theorem forall_mem_zip_of_map_eq {γ : Type} {f : α → β} {P : β → γ → Prop} {xs : List α}
    {ys : List β} {zs : List γ} (h : xs.map f = ys) :
    (∀ y z, (y, z) ∈ ys.zip zs → P y z) ↔ ∀ x z, (x, z) ∈ xs.zip zs → P (f x) z := by
  rw [← h, List.zip_map_left]
  constructor
  · intro hys x z hxz
    exact hys _ _ (List.mem_map_of_mem hxz)
  · intro hxs y z hyz
    obtain ⟨⟨x, z'⟩, hxz, hprod⟩ := List.mem_map.1 hyz
    obtain ⟨rfl, rfl⟩ := Prod.mk.inj hprod
    exact hxs x z' hxz

/-- Results whose relation follows from that of their items are related pairwise if the items are.
-/
theorem pairwise_of_forall₂ {R : α → β → Prop} {S : α → α → Prop} {T : β → β → Prop} {xs : List α}
    {ys : List β} (hR : ∀ x x' y y', R x y → R x' y' → S x x' → T y y')
    (h : List.Forall₂ R xs ys) (hxs : xs.Pairwise S) : ys.Pairwise T := by
  induction h with
  | nil => exact List.Pairwise.nil
  | cons hxy hrest ih =>
    obtain ⟨hx, hxs⟩ := List.pairwise_cons.1 hxs
    refine List.pairwise_cons.2 ⟨?_, ih hxs⟩
    intro y' hy'
    obtain ⟨x', hx', hR'⟩ := exists_mem_zip_of_forall₂ hrest.flip hy'
    exact hR _ _ _ _ hxy hR' (hx x' (List.of_mem_zip hx').2)

end Plain

/-! ## Computations with a state -/

section Stateful

variable {ε σ α β : Type}

/-- The state in which a computation ends, whether or not it succeeds. -/
def lastState : EStateM.Result ε σ α → σ
  | .ok _ s => s
  | .error _ s => s

theorem bind_run_ok_iff {p : EStateM ε σ α} {f : α → EStateM ε σ β} {s u : σ} {b : β} :
    (p >>= f) s = .ok b u ↔ ∃ a t, p s = .ok a t ∧ f a t = .ok b u := by
  simp only [bind, EStateM.bind]
  cases p s with
  | ok a t => simp
  | error e t => simp

/-- After a success the computation goes on with its result and its state. -/
theorem bind_run_of_ok {p : EStateM ε σ α} {f : α → EStateM ε σ β} {s t : σ} {a : α}
    (h : p s = .ok a t) : (p >>= f) s = f a t := by
  simp only [bind, EStateM.bind, h]

/-- A failure ends the computation. -/
theorem bind_run_of_error {p : EStateM ε σ α} {f : α → EStateM ε σ β} {s t : σ} {e : ε}
    (h : p s = .error e t) : (p >>= f) s = .error e t := by
  simp only [bind, EStateM.bind, h]

theorem pure_run_ok_iff {a b : α} {s t : σ} :
    (pure a : EStateM ε σ α) s = .ok b t ↔ a = b ∧ s = t := by
  simp [pure, EStateM.pure]

theorem throw_run_ne_ok {e : ε} {a : α} {s t : σ} : (throw e : EStateM ε σ α) s ≠ .ok a t := by
  show EStateM.Result.error e s ≠ .ok a t
  simp

theorem unless_run_ok_iff {refused : Prop} [Decidable refused] {refusal : EStateM ε σ PUnit}
    {s t : σ} (hrefusal : ∀ r u, refusal s ≠ .ok r u) {next : EStateM ε σ α} {a : α} :
    (do if refused then refusal
        next : EStateM ε σ α) s = .ok a t ↔ ¬refused ∧ next s = .ok a t := by
  by_cases h : refused
  · simp only [h, ↓reduceIte, not_true_eq_false, false_and, iff_false]
    intro hok
    obtain ⟨r, u, hr, -⟩ := bind_run_ok_iff.1 hok
    exact hrefusal r u hr
  · simp [h]

instance decidableExistsRun {x : EStateM.Result ε σ α} : Decidable (∃ a s, x = .ok a s) :=
  match x with
  | .ok a s => isTrue ⟨a, s, rfl⟩
  | .error _ _ => isFalse (by simp)

/-- For a computation with a state the property is one of its result and its last state. -/
instance decidableExistsRunOk {x : EStateM.Result ε σ α} {P : α → σ → Prop}
    [∀ a s, Decidable (P a s)] : Decidable (∃ a s, x = .ok a s ∧ P a s) :=
  match x with
  | .ok a s => decidable_of_iff (P a s) (by simp)
  | .error _ _ => isFalse (by simp)

theorem modify_run_ok_iff {f : σ → σ} {s t : σ} {r : Unit} :
    (modify f : EStateM ε σ Unit) s = .ok r t ↔ f s = t := by
  show EStateM.Result.ok _ (f s) = .ok r t ↔ f s = t
  simp

theorem get_run_ok_iff {s t u : σ} : (get : EStateM ε σ σ) s = .ok u t ↔ s = u ∧ s = t := by
  show EStateM.Result.ok s s = .ok u t ↔ s = u ∧ s = t
  simp

end Stateful

/-! ## Failures -/

section Failures

variable {ε σ α β : Type} {P : ε → Prop}

/-- If the computation fails, it is for a reason of this kind. -/
def FailsOnly (P : ε → Prop) (x : Except ε α) : Prop := ∀ e, x = .error e → P e

theorem failsOnly_of_exists_ok {x : Except ε α} (h : ∃ a, x = .ok a) : FailsOnly P x := by
  obtain ⟨a, rfl⟩ := h
  intro e he
  exact absurd he (by simp)

theorem failsOnly_ok (a : α) : FailsOnly P (.ok a : Except ε α) := failsOnly_of_exists_ok ⟨a, rfl⟩

theorem failsOnly_error {e : ε} (he : P e) : FailsOnly P (.error e : Except ε α) := by
  intro e' he'
  rwa [← Except.error.inj he']

/-- A computation that fails for one reason only does so exactly if it has no result. -/
theorem FailsOnly.error_iff {x : Except ε α} {e e' : ε} (h : FailsOnly (· = e) x) :
    x = .error e' ↔ e' = e ∧ ∀ a, x ≠ .ok a := by
  cases x with
  | ok a => simp
  | error e₁ =>
    obtain rfl := h e₁ rfl
    simp [eq_comm]

theorem FailsOnly.bind {x : Except ε α} {f : α → Except ε β} (hx : FailsOnly P x)
    (hf : ∀ a, x = .ok a → FailsOnly P (f a)) : FailsOnly P (x >>= f) := by
  intro e he
  cases hcase : x with
  | error e' =>
    rw [hcase] at he
    obtain rfl : e' = e := Except.error.inj he
    exact hx _ hcase
  | ok a =>
    rw [hcase] at he
    exact hf a hcase e he

theorem FailsOnly.map {x : Except ε α} (hx : FailsOnly P x) (f : α → β) :
    FailsOnly P (x.map f) := by
  intro e he
  cases hcase : x with
  | error e' =>
    rw [hcase] at he
    obtain rfl : e' = e := Except.error.inj he
    exact hx _ hcase
  | ok a =>
    rw [hcase] at he
    exact absurd he (by simp [Except.map])

theorem FailsOnly.unless {refused : Prop} [Decidable refused] {refusal : Except ε PUnit}
    {next : Except ε α} (hrefusal : ∀ r, refusal ≠ .ok r) (hfails : refused → FailsOnly P refusal)
    (hnext : ¬refused → FailsOnly P next) :
    FailsOnly P (do if refused then refusal
                    next : Except ε α) := by
  by_cases h : refused
  · simp only [h, ↓reduceIte]
    exact (hfails h).bind fun r hr => absurd hr (hrefusal r)
  · simp only [h, ↓reduceIte]
    exact hnext h

theorem failsOnly_mapM {f : α → Except ε β} {xs : List α} (h : ∀ x ∈ xs, FailsOnly P (f x)) :
    FailsOnly P (xs.mapM f) := by
  induction xs with
  | nil => exact failsOnly_ok _
  | cons x xs ih =>
    obtain ⟨hx, hxs⟩ := List.forall_mem_cons.1 h
    rw [List.mapM_cons]
    refine hx.bind fun y _ => ?_
    exact (ih hxs).bind fun ys _ => failsOnly_ok _

theorem failsOnly_forM {f : α → Except ε Unit} {xs : List α} (h : ∀ x ∈ xs, FailsOnly P (f x)) :
    FailsOnly P (xs.forM f) := by
  induction xs with
  | nil => exact failsOnly_ok _
  | cons x xs ih =>
    obtain ⟨hx, hxs⟩ := List.forall_mem_cons.1 h
    rw [forM_cons]
    exact hx.bind fun _ _ => ih hxs

/-- If the computation fails from this state, it is for a reason of this kind. -/
def FailsOnlyFrom (P : ε → Prop) (s : σ) (x : EStateM ε σ α) : Prop :=
  ∀ e t, x s = .error e t → P e

theorem failsOnlyFrom_of_ok {x : EStateM ε σ α} {s t : σ} {a : α} (h : x s = .ok a t) :
    FailsOnlyFrom P s x := by
  intro e u he
  rw [h] at he
  exact absurd he (by simp)

theorem FailsOnlyFrom.bind {x : EStateM ε σ α} {f : α → EStateM ε σ β} {s : σ}
    (hx : FailsOnlyFrom P s x) (hf : ∀ a t, x s = .ok a t → FailsOnlyFrom P t (f a)) :
    FailsOnlyFrom P s (x >>= f) := by
  intro e u he
  cases hcase : x s with
  | error e' t =>
    rw [bind_run_of_error hcase] at he
    obtain ⟨rfl, rfl⟩ := EStateM.Result.error.inj he
    exact hx _ _ hcase
  | ok a t =>
    rw [bind_run_of_ok hcase] at he
    exact hf a t hcase e u he

theorem failsOnlyFrom_pure (a : α) (s : σ) : FailsOnlyFrom P s (pure a : EStateM ε σ α) :=
  failsOnlyFrom_of_ok rfl

theorem failsOnlyFrom_throw {e : ε} (he : P e) (s : σ) :
    FailsOnlyFrom P s (throw e : EStateM ε σ α) := by
  intro e' u he'
  obtain ⟨rfl, rfl⟩ := EStateM.Result.error.inj he'
  exact he

theorem FailsOnlyFrom.unless {refused : Prop} [Decidable refused] {refusal : EStateM ε σ PUnit}
    {next : EStateM ε σ α} {s : σ} (hrefusal : ∀ r u, refusal s ≠ .ok r u)
    (hfails : FailsOnlyFrom P s refusal) (hnext : FailsOnlyFrom P s next) :
    FailsOnlyFrom P s (do if refused then refusal
                          next : EStateM ε σ α) := by
  by_cases h : refused
  · simp only [h, ↓reduceIte]
    exact hfails.bind fun r u hr => absurd hr (hrefusal r u)
  · simp only [h, ↓reduceIte]
    exact hnext

theorem failsOnlyFrom_mapM {f : α → EStateM ε σ β} {xs : List α}
    (h : ∀ x ∈ xs, ∀ s, FailsOnlyFrom P s (f x)) (s : σ) : FailsOnlyFrom P s (xs.mapM f) := by
  induction xs generalizing s with
  | nil => exact failsOnlyFrom_pure _ s
  | cons x xs ih =>
    obtain ⟨hx, hxs⟩ := List.forall_mem_cons.1 h
    rw [List.mapM_cons]
    refine (hx s).bind fun y t _ => ?_
    exact (ih hxs t).bind fun ys u _ => failsOnlyFrom_pure _ u

end Failures

end PatternGuard.Outcome
