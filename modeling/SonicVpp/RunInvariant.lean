/-
# Runs of a step function

A system is given by a step function `step : σ → α → σ`; a run is the list of
actions taken from a start state.  `Allowed ok s as` says that every action of
the run `as` meets the side condition `ok` in the state in which it is taken.

The one rule every whole-run result is proved with is `run_invariant`: what
holds at the start and survives each allowed step holds wherever an allowed
run ends.  A run that stops earlier is a run again, so this covers every state
that is passed through.  `run_simulation` is the same rule for two systems that take the
same actions.
-/
import Mathlib

namespace RunInvariant

variable {σ α : Type*} (step : σ → α → σ)

/-- The state in which the run `as` from `s` ends. -/
def run (s : σ) (as : List α) : σ := as.foldl step s

/-- Every action of the run meets `ok` in the state in which it is taken. -/
def Allowed (ok : σ → α → Prop) : σ → List α → Prop
  | _, [] => True
  | s, a :: as => ok s a ∧ Allowed ok (step s a) as

@[simp] theorem run_cons (s : σ) (a : α) (as : List α) :
    run step s (a :: as) = run step (step s a) as := rfl

theorem run_snoc (s : σ) (as : List α) (a : α) :
    run step s (as ++ [a]) = step (run step s as) a := List.foldl_append

/-- What every step meets is met along every run. -/
theorem allowed_of_forall {ok : σ → α → Prop} (h : ∀ s a, ok s a) :
    ∀ {as : List α} {s : σ}, Allowed step ok s as := by
  intro as
  induction as with
  | nil => intro s; trivial
  | cons a as ih => intro s; exact ⟨h s a, ih⟩

/-- A weaker side condition allows more runs. -/
theorem Allowed.mono {ok ok' : σ → α → Prop} (h : ∀ s a, ok s a → ok' s a) :
    ∀ {as : List α} {s : σ}, Allowed step ok s as → Allowed step ok' s as := by
  intro as
  induction as with
  | nil => intro s _; trivial
  | cons a as ih =>
    intro s has
    exact ⟨h s a has.1, ih has.2⟩

/-- Two side conditions met along a run are met together. -/
theorem Allowed.and {ok ok' : σ → α → Prop} :
    ∀ {as : List α} {s : σ}, Allowed step ok s as → Allowed step ok' s as →
      Allowed step (fun s a => ok s a ∧ ok' s a) s as := by
  intro as
  induction as with
  | nil => intro s _ _; trivial
  | cons a as ih =>
    intro s h h'
    exact ⟨⟨h.1, h'.1⟩, ih h.2 h'.2⟩

/-- **The invariant rule.**  What every allowed step preserves holds at the end
of every allowed run. -/
theorem run_invariant (ok : σ → α → Prop) (inv : σ → Prop)
    (hstep : ∀ s a, inv s → ok s a → inv (step s a)) :
    ∀ {as : List α} {s : σ}, inv s → Allowed step ok s as → inv (run step s as) := by
  intro as
  induction as with
  | nil => intro s hs _; exact hs
  | cons a as ih =>
    intro s hs has
    exact ih (hstep s a hs has.1) has.2

/-- Two step properties that agree wherever the invariant holds, and of which one keeps
it, are met along the same allowed runs. -/
theorem allowed_iff_of_invariant (ok : σ → α → Prop) (inv : σ → Prop) {P Q : σ → α → Prop}
    (hiff : ∀ s a, inv s → ok s a → (P s a ↔ Q s a))
    (hstep : ∀ s a, inv s → ok s a → Q s a → inv (step s a)) :
    ∀ {as : List α} {s : σ}, inv s → Allowed step ok s as →
      (Allowed step P s as ↔ Allowed step Q s as) := by
  intro as
  induction as with
  | nil => intro s _ _; exact Iff.rfl
  | cons a as ih =>
    intro s hs has
    have ha := hiff s a hs has.1
    constructor
    · rintro ⟨hP, hrest⟩
      exact ⟨ha.1 hP, (ih (hstep s a hs has.1 (ha.1 hP)) has.2).1 hrest⟩
    · rintro ⟨hQ, hrest⟩
      exact ⟨ha.2 hQ, (ih (hstep s a hs has.1 hQ) has.2).2 hrest⟩

/-- What follows for a step from the invariant before and after it is met along every run
that keeps the invariant. -/
theorem Allowed.of_keeps (inv : σ → Prop) {ok Q : σ → α → Prop}
    (hQ : ∀ s a, inv s → ok s a → inv (step s a) → Q s a) :
    ∀ {as : List α} {s : σ}, inv s → Allowed step ok s as →
      Allowed step (fun s a => inv (step s a)) s as → Allowed step Q s as := by
  intro as
  induction as with
  | nil => intro s _ _ _; trivial
  | cons a as ih =>
    intro s hs hok hkeeps
    exact ⟨hQ s a hs hok.1 hkeeps.1, ih hkeeps.1 hok.2 hkeeps.2⟩

/-- A side condition on what a system shows is met along the same runs by the system and by
what is shown. -/
theorem allowed_image {τ : Type*} (step' : τ → α → τ) (π : τ → σ) (ok : σ → α → Prop)
    (hπ : ∀ t a, π (step' t a) = step (π t) a) :
    ∀ {as : List α} {t : τ},
      Allowed step' (fun t a => ok (π t) a) t as ↔ Allowed step ok (π t) as := by
  intro as
  induction as with
  | nil => intro t; exact Iff.rfl
  | cons a as ih =>
    intro t
    show ok (π t) a ∧ Allowed step' _ (step' t a) as ↔ ok (π t) a ∧ Allowed step ok _ as
    rw [ih, hπ]

/-- **The rule of the first bad step.**  Where the invariant gives `P`, an allowed step that
meets `Q` keeps the invariant, and one that does not leaves `P` false, `P` holds of every
state that a run passes through if and only if all its steps meet `Q`. -/
theorem forall_take_iff (ok Q : σ → α → Prop) (inv P : σ → Prop) (hP : ∀ s, inv s → P s)
    (hkeep : ∀ s a, inv s → ok s a → Q s a → inv (step s a))
    (hbreak : ∀ s a, inv s → ok s a → ¬ Q s a → ¬ P (step s a)) :
    ∀ {as : List α} {s : σ}, inv s → Allowed step ok s as →
      ((∀ n, P (run step s (as.take n))) ↔ Allowed step Q s as) := by
  intro as
  induction as with
  | nil =>
    intro s hs _
    refine ⟨fun _ => trivial, fun _ n => ?_⟩
    rw [List.take_nil]
    exact hP s hs
  | cons a as ih =>
    intro s hs has
    constructor
    · intro hall
      have hQ : Q s a := by
        by_contra hnot
        exact hbreak s a hs has.1 hnot (hall 1)
      exact ⟨hQ, (ih (hkeep s a hs has.1 hQ) has.2).1 fun n => hall (n + 1)⟩
    · rintro ⟨hQ, hrest⟩ n
      cases n with
      | zero => exact hP s hs
      | succ n => exact (ih (hkeep s a hs has.1 hQ) has.2).2 hrest n

/-- **The simulation rule.**  What every allowed step of one system and the step of another
on the same action preserve relates the ends of their runs. -/
theorem run_simulation {τ : Type*} (step' : τ → α → τ) (ok : σ → α → Prop) (R : σ → τ → Prop)
    (hstep : ∀ s t a, R s t → ok s a → R (step s a) (step' t a)) :
    ∀ {as : List α} {s : σ} {t : τ}, R s t → Allowed step ok s as →
      R (run step s as) (run step' t as) := by
  intro as
  induction as with
  | nil => intro s t h _; exact h
  | cons a as ih =>
    intro s t h has
    exact ih (hstep s t a h has.1) has.2

end RunInvariant
