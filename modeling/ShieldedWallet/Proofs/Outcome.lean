/-
Chains of steps that can fail.

A chain `x >>= f` in `Except` ends well exactly if both steps do, and fails
with the error of the step that fails first.

* `Except.bind_eq_ok_iff`, `Except.bind_eq_error_iff` — how a chain ends;
* `Except.mapError_eq_ok_iff`, `Except.mapError_eq_error_iff` — how a step ends
  whose errors are renamed;
* `Except.mapM_eq_ok_iff`, `Except.mapM_eq_error_iff` — how a step ends that is
  taken for each element of a list: well if all do, and otherwise with the
  first failure (`Except.FirstFailure`).

Design notes: with these facts a chain is opened step by step, and no proof has
to unfold the monad.
-/
namespace Except

variable {ε ε' α β : Type}

@[simp] theorem pure_eq_ok_iff {a b : α} : (pure a : Except ε α) = .ok b ↔ a = b :=
  ⟨fun h => Except.ok.inj h, fun h => congrArg Except.ok h⟩

@[simp] theorem throw_ne_ok {e : ε} {a : α} : (throw e : Except ε α) ≠ .ok a :=
  fun h => nomatch h

@[simp] theorem ok_bind {a : α} {f : α → Except ε β} : (Except.ok a >>= f) = f a := rfl

@[simp] theorem error_bind {e : ε} {f : α → Except ε β} :
    (Except.error e >>= f) = Except.error e := rfl

@[simp] theorem mapError_ok {f : ε → ε'} {a : α} :
    (Except.ok a : Except ε α).mapError f = .ok a := rfl

@[simp] theorem mapError_error {f : ε → ε'} {e : ε} :
    (Except.error e : Except ε α).mapError f = .error (f e) := rfl

theorem bind_eq_ok_iff {x : Except ε α} {f : α → Except ε β} {b : β} :
    x >>= f = .ok b ↔ ∃ a, x = .ok a ∧ f a = .ok b := by
  cases x with
  | error e =>
    constructor
    · intro h
      cases h
    · rintro ⟨a, ha, _⟩
      cases ha
  | ok a =>
    constructor
    · intro h
      exact ⟨a, rfl, h⟩
    · rintro ⟨a', ha, h⟩
      cases ha
      exact h

theorem bind_eq_error_iff {x : Except ε α} {f : α → Except ε β} {e : ε} :
    x >>= f = .error e ↔ x = .error e ∨ ∃ a, x = .ok a ∧ f a = .error e := by
  cases x with
  | error e' =>
    constructor
    · intro h
      cases h
      exact .inl rfl
    · rintro (h | ⟨a, ha, _⟩)
      · cases h
        rfl
      · cases ha
  | ok a =>
    constructor
    · intro h
      exact .inr ⟨a, rfl, h⟩
    · rintro (h | ⟨a', ha, h⟩)
      · cases h
      · cases ha
        exact h

theorem map_eq_ok_iff {x : Except ε α} {f : α → β} {b : β} :
    x.map f = .ok b ↔ ∃ a, x = .ok a ∧ f a = b := by
  cases x <;> simp [Except.map]

theorem map_eq_error_iff {x : Except ε α} {f : α → β} {e : ε} :
    x.map f = .error e ↔ x = .error e := by
  cases x <;> simp [Except.map]

theorem mapError_eq_ok_iff {x : Except ε α} {f : ε → ε'} {a : α} :
    x.mapError f = .ok a ↔ x = .ok a := by
  cases x <;> simp

theorem mapError_eq_error_iff {x : Except ε α} {f : ε → ε'} {e : ε'} :
    x.mapError f = .error e ↔ ∃ cause, x = .error cause ∧ f cause = e := by
  cases x <;> simp

/-! ### A step for each element of a list -/

/-- The step fails at an element with the given error, and at none before it. -/
def FirstFailure (f : α → Except ε β) (xs : List α) (e : ε) : Prop :=
  ∃ before x after, xs = before ++ x :: after ∧ (∀ y ∈ before, ∃ b, f y = .ok b) ∧ f x = .error e

theorem not_firstFailure_nil {f : α → Except ε β} {e : ε} : ¬ FirstFailure f [] e := by
  rintro ⟨before, x, after, h, -⟩
  exact absurd h.symm (by simp)

theorem firstFailure_cons_iff {f : α → Except ε β} {x : α} {xs : List α} {e : ε} :
    FirstFailure f (x :: xs) e ↔ f x = .error e ∨ ∃ b, f x = .ok b ∧ FirstFailure f xs e := by
  constructor
  · rintro ⟨before, y, after, hsplit, hbefore, hy⟩
    -- the failure is at the head exactly if nothing stands before it
    cases before with
    | nil =>
      cases hsplit
      exact .inl hy
    | cons z before =>
      cases hsplit
      obtain ⟨⟨b, hb⟩, hbefore⟩ := List.forall_mem_cons.mp hbefore
      exact .inr ⟨b, hb, before, y, after, rfl, hbefore, hy⟩
  · rintro (hx | ⟨b, hb, before, y, after, rfl, hbefore, hy⟩)
    · exact ⟨[], x, xs, rfl, List.forall_mem_nil _, hx⟩
    · exact ⟨x :: before, y, after, rfl, List.forall_mem_cons.mpr ⟨⟨b, hb⟩, hbefore⟩, hy⟩

theorem mapM_eq_ok_iff {f : α → Except ε β} {xs : List α} {ys : List β} :
    xs.mapM f = .ok ys ↔ xs.map f = ys.map .ok := by
  induction xs generalizing ys with
  | nil =>
    rw [List.mapM_nil, pure_eq_ok_iff]
    simp [eq_comm]
  | cons x xs ih =>
    rw [List.mapM_cons, bind_eq_ok_iff, List.map_cons]
    constructor
    · rintro ⟨y, hx, hrest⟩
      obtain ⟨ys, hxs, hys⟩ := bind_eq_ok_iff.mp hrest
      cases hys
      rw [hx, ih.mp hxs, List.map_cons]
    · intro h
      cases ys with
      | nil => cases h
      | cons y ys =>
        obtain ⟨hx, hxs⟩ := List.cons.inj h
        exact ⟨y, hx, bind_eq_ok_iff.mpr ⟨ys, ih.mpr hxs, rfl⟩⟩

theorem mapM_eq_error_iff {f : α → Except ε β} {xs : List α} {e : ε} :
    xs.mapM f = .error e ↔ FirstFailure f xs e := by
  induction xs with
  | nil => exact iff_of_false (fun h => nomatch h) not_firstFailure_nil
  | cons x xs ih =>
    rw [List.mapM_cons, bind_eq_error_iff, firstFailure_cons_iff]
    refine or_congr_right (exists_congr fun b => and_congr_right fun _ => ?_)
    rw [bind_eq_error_iff, ih]
    -- the last step only puts the list together
    exact or_iff_left (fun ⟨_, _, h⟩ => nomatch h)

end Except
