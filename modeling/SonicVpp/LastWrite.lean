/-
# Maps written by a list of items

Every item of a list writes one value under one key, in order.  Reading a key gives what
the last item for it wrote, and what was there before if there is none.
-/
import Mathlib

namespace LastWrite

variable {ι κ ν : Type*} [DecidableEq κ] (key : ι → κ) (val : ι → ν)

/-- The last item of the list with the key `k`. -/
def lastFor (k : κ) : List ι → Option ι
  | [] => none
  | a :: as => (lastFor k as).or (if key a = k then some a else none)

/-- The map after all items have written. -/
def writeAll (m : κ → ν) (as : List ι) : κ → ν :=
  as.foldl (fun m a => Function.update m (key a) (val a)) m

/-- **Reading gives the last write.** -/
theorem writeAll_apply (k : κ) (as : List ι) :
    ∀ m : κ → ν, writeAll key val m as k = (lastFor key k as).elim (m k) val := by
  induction as with
  | nil => intro m; rfl
  | cons a as ih =>
    intro m
    show writeAll key val (Function.update m (key a) (val a)) as k = _
    rw [ih, lastFor]
    cases lastFor key k as with
    | some b => rfl
    | none =>
      by_cases hk : key a = k
      · subst hk
        simp
      · simp [hk, Function.update_of_ne (Ne.symm hk)]

/-- The last item for a key is an item of the list with this key. -/
theorem lastFor_eq_some {k : κ} {a : ι} :
    ∀ {as : List ι}, lastFor key k as = some a → a ∈ as ∧ key a = k := by
  intro as
  induction as with
  | nil => intro h; cases h
  | cons b as ih =>
    intro h
    rw [lastFor, Option.or_eq_some_iff] at h
    rcases h with h | ⟨-, h⟩
    · exact ⟨List.mem_cons_of_mem _ (ih h).1, (ih h).2⟩
    · by_cases hb : key b = k
      · rw [if_pos hb] at h
        obtain rfl := Option.some.inj h
        exact ⟨List.mem_cons_self, hb⟩
      · rw [if_neg hb] at h
        cases h

/-- There is no last item for a key that no item has. -/
theorem lastFor_eq_none {k : κ} :
    ∀ {as : List ι}, lastFor key k as = none → ∀ a ∈ as, key a ≠ k := by
  intro as
  induction as with
  | nil => intro _ a ha; exact absurd ha List.not_mem_nil
  | cons b as ih =>
    intro h
    rw [lastFor, Option.or_eq_none_iff] at h
    rw [List.forall_mem_cons]
    refine ⟨fun hb => ?_, ih h.1⟩
    rw [if_pos hb] at h
    cases h.2

/-- One more item. -/
theorem lastFor_append_singleton (k : κ) (as : List ι) (a : ι) :
    lastFor key k (as ++ [a]) = if key a = k then some a else lastFor key k as := by
  induction as with
  | nil => rfl
  | cons b as ih =>
    rw [List.cons_append, lastFor, ih, lastFor]
    split
    · rfl
    · rfl

/-- The last item for a key in a range: there is none with this key behind it. -/
theorem lastFor_range {key : ℕ → κ} {k : κ} {i : ℕ} :
    ∀ {len : ℕ}, lastFor key k (List.range len) = some i →
      i < len ∧ key i = k ∧ ∀ j, i < j → j < len → key j ≠ k := by
  intro len
  induction len with
  | zero => intro h; cases h
  | succ len ih =>
    intro h
    rw [List.range_succ, lastFor_append_singleton] at h
    by_cases hlast : key len = k
    · rw [if_pos hlast] at h
      obtain rfl := Option.some.inj h
      exact ⟨Nat.lt_succ_self _, hlast, fun j hlt hle => by omega⟩
    · rw [if_neg hlast] at h
      obtain ⟨hi, hkey, hbehind⟩ := ih h
      refine ⟨by omega, hkey, fun j hlt hle => ?_⟩
      by_cases hj : j = len
      · rw [hj]
        exact hlast
      · exact hbehind j hlt (by omega)

end LastWrite
