/-
# Reference counts and the references behind them

A table of reference counts over a type of keys is changed by calls that take or drop one
reference; a drop with no reference left changes nothing.  Owners keep lists of the
references they hold, and the table is *backed* by the owners at a key if its count is
the number of references to it that they hold together.
-/
import Mathlib

namespace RefCount

variable {κ : Type*} [DecidableEq κ]

/-- One call: take or drop a reference to `key`. -/
structure Call (κ : Type*) where
  key : κ
  take : Bool
  deriving DecidableEq, Repr

/-- The table after one call. -/
def apply (c : κ → ℕ) (a : Call κ) : κ → ℕ := fun k =>
  if k = a.key then (if a.take then c k + 1 else c k - 1) else c k

/-- The table after a list of calls. -/
def applyAll (c : κ → ℕ) (as : List (Call κ)) : κ → ℕ := as.foldl apply c

@[simp] theorem applyAll_nil (c : κ → ℕ) : applyAll c [] = c := rfl

@[simp] theorem applyAll_cons (c : κ → ℕ) (a : Call κ) (as : List (Call κ)) :
    applyAll c (a :: as) = applyAll (apply c a) as := rfl

/-- Calls that do not name a key leave its count alone. -/
theorem applyAll_of_notMem (as : List (Call κ)) (c : κ → ℕ) (k : κ) (h : ∀ a ∈ as, a.key ≠ k) :
    applyAll c as k = c k := by
  induction as generalizing c with
  | nil => rfl
  | cons a as ih =>
    rw [applyAll_cons, ih _ (fun b hb => h b (List.mem_cons_of_mem _ hb))]
    unfold apply
    rw [if_neg (h a List.mem_cons_self).symm]

section Count

variable [BEq κ] [LawfulBEq κ]

/-- Takes add the references taken. -/
theorem applyAll_takes (as : List (Call κ)) (c : κ → ℕ) (k : κ) (h : ∀ a ∈ as, a.take = true) :
    applyAll c as k = c k + (as.map Call.key).count k := by
  induction as generalizing c with
  | nil => simp
  | cons a as ih =>
    rw [applyAll_cons, ih _ (fun b hb => h b (List.mem_cons_of_mem _ hb)), List.map_cons,
      List.count_cons]
    unfold apply
    rw [h a List.mem_cons_self]
    by_cases hk : k = a.key
    · simp [hk]
      omega
    · simp [hk, Ne.symm hk]

/-- Drops remove the references dropped, as far as there are any. -/
theorem applyAll_drops (as : List (Call κ)) (c : κ → ℕ) (k : κ) (h : ∀ a ∈ as, a.take = false) :
    applyAll c as k = c k - (as.map Call.key).count k := by
  induction as generalizing c with
  | nil => simp
  | cons a as ih =>
    rw [applyAll_cons, ih _ (fun b hb => h b (List.mem_cons_of_mem _ hb)), List.map_cons,
      List.count_cons]
    unfold apply
    rw [h a List.mem_cons_self]
    by_cases hk : k = a.key
    · simp [hk]
      omega
    · simp [hk, Ne.symm hk]

/-! ## Owners -/

variable {ω : Type*} (held : ω → List κ)

/-- The count of `k` is the number of references to it that the owners hold. -/
def Backed (c : κ → ℕ) (owners : List ω) (k : κ) : Prop := c k = (owners.flatMap held).count k

/-- A new owner takes what it holds. -/
theorem Backed.join {c : κ → ℕ} {owners : List ω} {k : κ} (h : Backed held c owners k)
    {as : List (Call κ)} (htake : ∀ a ∈ as, a.take = true) {o : ω}
    (ho : held o = as.map Call.key) : Backed held (applyAll c as) (owners ++ [o]) k := by
  unfold Backed at h ⊢
  rw [applyAll_takes as c k htake, h]
  simp [ho]

/-- An owner that leaves drops, of `k`, exactly what it holds. -/
theorem Backed.leave {c : κ → ℕ} {l₁ l₂ : List ω} {o : ω} {k : κ}
    (h : Backed held c (l₁ ++ o :: l₂) k) {as : List (Call κ)}
    (hdrop : ∀ a ∈ as, a.take = false)
    (ho : (as.map Call.key).count k = (held o).count k) :
    Backed held (applyAll c as) (l₁ ++ l₂) k := by
  unfold Backed at h ⊢
  rw [applyAll_drops as c k hdrop, h, ho]
  simp only [List.flatMap_append, List.flatMap_cons, List.count_append]
  omega

omit [LawfulBEq κ] in
/-- Nothing changes for `k`. -/
theorem Backed.keep {c : κ → ℕ} {owners : List ω} {k : κ} (h : Backed held c owners k)
    {as : List (Call κ)} (has : ∀ a ∈ as, a.key ≠ k) (grow : ω → ω)
    (hgrow : ∀ o, held (grow o) = held o) :
    Backed held (applyAll c as) (owners.map grow) k := by
  unfold Backed at h ⊢
  rw [applyAll_of_notMem as c k has, h, List.flatMap_map]
  simp only [hgrow]

/-- Every owner takes some more references. -/
theorem Backed.extend {c : κ → ℕ} {owners : List ω} {k : κ} (h : Backed held c owners k)
    {as : List (Call κ)} (htake : ∀ a ∈ as, a.take = true) (more : ω → List κ) (grow : ω → ω)
    (hgrow : ∀ o, held (grow o) = held o ++ more o)
    (has : (as.map Call.key).count k = (owners.flatMap more).count k) :
    Backed held (applyAll c as) (owners.map grow) k := by
  unfold Backed at h ⊢
  rw [applyAll_takes as c k htake, h, has]
  clear h has
  induction owners with
  | nil => rfl
  | cons o owners ih =>
    simp only [List.flatMap_cons, List.count_append, List.map_cons, hgrow] at ih ⊢
    omega

end Count

/-! ## The history of one count -/

/-- What happens to the count of one key: a reference is taken, dropped if there is one, or all of
them go. -/
inductive Op
  | take
  | drop
  | clear
  deriving DecidableEq, Repr

/-- The count after one operation. -/
def Op.apply (n : ℕ) : Op → ℕ
  | .take => n + 1
  | .drop => n - 1
  | .clear => 0

/-- The count after a history. -/
def level (ops : List Op) : ℕ := ops.foldl Op.apply 0

theorem level_append (ops ops' : List Op) : level (ops ++ ops') = ops'.foldl Op.apply (level ops) :=
  List.foldl_append

/-- Since some moment, without a clear, there were more than `n` takes that no drop answers. -/
def Surplus (n : ℕ) (ops : List Op) : Prop :=
  ∃ since, since <:+ ops ∧ .clear ∉ since ∧ since.count .drop + n < since.count .take

theorem surplus_snoc (n : ℕ) (ops : List Op) (op : Op) : Surplus n (ops ++ [op]) ↔
    ∃ since, since <:+ ops ∧ .clear ∉ since ∧ op ≠ .clear ∧
      (since ++ [op]).count .drop + n < (since ++ [op]).count .take := by
  constructor
  · rintro ⟨since, hsuf, hclear, hlt⟩
    rcases List.suffix_concat_iff.1 hsuf with rfl | ⟨before, rfl, hbefore⟩
    · exact absurd hlt (by simp)
    · rw [List.mem_append, not_or, List.mem_singleton] at hclear
      exact ⟨before, hbefore, hclear.1, Ne.symm hclear.2, hlt⟩
  · rintro ⟨since, hsuf, hclear, hop, hlt⟩
    refine ⟨since ++ [op], List.suffix_concat_iff.2 (Or.inr ⟨since, rfl, hsuf⟩), ?_, hlt⟩
    rw [List.mem_append, not_or, List.mem_singleton]
    exact ⟨hclear, Ne.symm hop⟩

/-- **A count is more than `n`** exactly if since some moment that many references were taken and
not dropped. -/
theorem lt_level_iff (ops : List Op) : ∀ n, n < level ops ↔ Surplus n ops := by
  induction ops using List.reverseRecOn with
  | nil =>
    intro n
    simp [level, Surplus]
  | append_singleton ops op ih =>
    intro n
    rw [level_append, surplus_snoc]
    cases op with
    | take =>
      show n < level ops + 1 ↔ _
      cases n with
      | zero =>
        -- the moment is now: one was just taken
        constructor
        · intro _
          exact ⟨[], List.nil_suffix, List.not_mem_nil, by decide, by simp⟩
        · intro _
          omega
      | succ n =>
        rw [Nat.add_lt_add_iff_right, ih n, Surplus]
        simp only [List.count_append, List.count_singleton_self, ne_eq, reduceCtorEq,
          not_false_eq_true, true_and]
        refine exists_congr fun since => and_congr_right fun _ => and_congr_right fun _ => ?_
        rw [List.count_singleton, if_neg (by decide)]
        omega
    | drop =>
      show n < level ops - 1 ↔ _
      rw [Nat.lt_sub_iff_add_lt, ih (n + 1), Surplus]
      simp only [List.count_append, List.count_singleton_self, ne_eq, reduceCtorEq,
        not_false_eq_true, true_and]
      refine exists_congr fun since => and_congr_right fun _ => and_congr_right fun _ => ?_
      rw [List.count_singleton, if_neg (by decide)]
      omega
    | clear =>
      show n < 0 ↔ _
      simp

instance (n : ℕ) (ops : List Op) : Decidable (Surplus n ops) :=
  decidable_of_iff _ (lt_level_iff ops n)

end RefCount
