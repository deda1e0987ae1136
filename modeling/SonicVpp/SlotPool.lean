/-
# Slot pools

A pool is a vector of slots, some of them free.  A slot index stays valid until
the slot is freed, and a freed slot may be handed out again, so indices are
reused.  `elt` reads a slot, `fill` occupies the free slot an allocator has
chosen (an existing hole, or the one just past the end), `clear` frees a slot,
`first` is the left-to-right search for the first occupied slot that passes a test,
and `indices` lists all of these slots in order.
-/
import Mathlib

/-- A vector of slots; `none` is a free slot. -/
@[reducible] def SlotPool (α : Type*) := List (Option α)

namespace SlotPool

variable {α : Type*}

/-- The pool with no slots. -/
def empty : SlotPool α := []

/-- The occupant of slot `i`, if any. -/
def elt (p : SlotPool α) (i : ℕ) : Option α := p[i]?.join

/-- A slot an allocator may hand out: a hole, or the next one past the end. -/
def Vacant (p : SlotPool α) (i : ℕ) : Prop := p.elt i = none ∧ i ≤ List.length p

/-- Occupy the vacant slot `i`. -/
def fill (p : SlotPool α) (i : ℕ) (a : α) : SlotPool α :=
  if i < List.length p then List.set p i (some a) else p ++ [some a]

/-- A choice of a vacant slot for every pool. -/
structure Allocator (α : Type*) where
  slot : SlotPool α → ℕ
  vacant : ∀ p : SlotPool α, p.Vacant (slot p)

/-- The allocator that takes the first hole. -/
def firstHole : Allocator α where
  slot p := List.findIdx Option.isNone p
  vacant p := by
    refine ⟨?_, List.findIdx_le_length⟩
    unfold elt
    by_cases h : List.findIdx Option.isNone p < List.length p
    · have hnone := List.findIdx_getElem (w := h)
      rw [List.getElem?_eq_getElem h, Option.isNone_iff_eq_none.1 hnone]
      rfl
    · rw [List.getElem?_eq_none (by omega)]
      rfl

/-- Free slot `i`. -/
def clear (p : SlotPool α) (i : ℕ) : SlotPool α := List.set p i none

/-- The first occupied slot from `n` on, in index order, that passes `q`. -/
def firstFrom (q : ℕ → α → Bool) : ℕ → List (Option α) → Option (ℕ × α)
  | _, [] => none
  | n, none :: p => firstFrom q (n + 1) p
  | n, some a :: p => if q n a then some (n, a) else firstFrom q (n + 1) p

/-- The first occupied slot, in index order, that passes `q`. -/
def first (p : SlotPool α) (q : ℕ → α → Bool) : Option (ℕ × α) := firstFrom q 0 p

/-- The occupied slots, in index order, that pass `q`. -/
def indices (p : SlotPool α) (q : α → Bool) : List ℕ :=
  (List.range (List.length p)).filter fun i => (p.elt i).any q

@[simp] theorem elt_empty (i : ℕ) : (empty : SlotPool α).elt i = none := rfl

/-- Reading a pool after a slot, up to the one past the end, is filled. -/
theorem elt_fill_of_le {p : SlotPool α} {i : ℕ} (h : i ≤ List.length p) (a : α) (j : ℕ) :
    (p.fill i a).elt j = if j = i then some a else p.elt j := by
  unfold fill elt
  by_cases hi : i < List.length p
  · rw [if_pos hi]
    by_cases hij : j = i
    · rw [if_pos hij, hij]
      simp [hi]
    · rw [if_neg hij, List.getElem?_set_ne (Ne.symm hij)]
  · have hlen : i = List.length p := by omega
    rw [if_neg hi, List.getElem?_append]
    by_cases hj : j < List.length p
    · rw [if_pos hj, if_neg (by omega)]
    · rw [if_neg hj]
      by_cases hij : j = i
      · rw [if_pos hij, hij, hlen]
        simp
      · rw [if_neg hij, List.getElem?_eq_none (by simp; omega),
          List.getElem?_eq_none (by omega)]

/-- Reading a pool after one slot is filled. -/
theorem elt_fill {p : SlotPool α} {i : ℕ} (h : p.Vacant i) (a : α) (j : ℕ) :
    (p.fill i a).elt j = if j = i then some a else p.elt j :=
  elt_fill_of_le h.2 a j

/-- An occupied slot is a slot of the pool. -/
theorem lt_length_of_elt {p : SlotPool α} {i : ℕ} {a : α} (h : p.elt i = some a) :
    i < List.length p :=
  (List.getElem?_eq_some_iff.1 (Option.join_eq_some_iff.1 h)).1

theorem mem_indices {p : SlotPool α} {q : α → Bool} {i : ℕ} :
    i ∈ p.indices q ↔ ∃ a, p.elt i = some a ∧ q a = true := by
  unfold indices
  rw [List.mem_filter, List.mem_range]
  constructor
  · rintro ⟨-, h⟩
    simpa [Option.any_eq_true] using h
  · rintro ⟨a, ha, hq⟩
    exact ⟨lt_length_of_elt ha, by simp [ha, hq]⟩

theorem nodup_indices (p : SlotPool α) (q : α → Bool) : (p.indices q).Nodup :=
  List.nodup_range.filter _

/-- Reading a pool after one slot is freed. -/
theorem elt_clear (p : SlotPool α) (i j : ℕ) :
    (p.clear i).elt j = if j = i then none else p.elt j := by
  unfold clear elt
  by_cases hij : j = i
  · subst hij
    rw [if_pos rfl, List.getElem?_set_self']
    cases p[j]? <;> rfl
  · rw [if_neg hij, List.getElem?_set_ne (Ne.symm hij)]

/-- A property of all occupants, as one of all slots. -/
theorem forall_elt {p : SlotPool α} {P : α → Prop} (h : ∀ o ∈ p, ∀ a ∈ o, P a) {i : ℕ} {a : α}
    (hi : p.elt i = some a) : P a := by
  unfold elt at hi
  have hmem : some a ∈ p := List.mem_of_getElem? (Option.join_eq_some_iff.1 hi)
  exact h (some a) hmem a rfl

theorem elt_cons_succ (o : Option α) (p : List (Option α)) (i : ℕ) :
    elt (o :: p) (i + 1) = elt p i := by
  simp [elt]

theorem elt_cons_zero (o : Option α) (p : List (Option α)) : elt (o :: p) 0 = o := by
  simp [elt]

/-- What a successful search returns: an occupied slot that passes the test and
has no earlier one passing it. -/
theorem firstFrom_eq_some {q : ℕ → α → Bool} {p : List (Option α)} :
    ∀ {n i : ℕ} {a : α}, firstFrom q n p = some (i, a) →
      ∃ k, i = n + k ∧ elt p k = some a ∧ q i a = true ∧
        ∀ j < k, ∀ b, elt p j = some b → q (n + j) b = false := by
  induction p with
  | nil => intro n i a h; cases h
  | cons o p ih =>
    intro n i a h
    -- a miss in the head slot moves the search on; its verdict is the case `j = 0`
    have hskip : (∀ b, o = some b → q n b = false) → firstFrom q (n + 1) p = some (i, a) →
        ∃ k, i = n + k ∧ elt (o :: p) k = some a ∧ q i a = true ∧
          ∀ j < k, ∀ b, elt (o :: p) j = some b → q (n + j) b = false := by
      intro hmiss hrest
      obtain ⟨k, hk, helt, hq, hbefore⟩ := ih hrest
      refine ⟨k + 1, by omega, by rw [elt_cons_succ, helt], hq, ?_⟩
      intro j hj b hb
      cases j with
      | zero =>
        rw [elt_cons_zero] at hb
        exact hmiss b hb
      | succ j =>
        rw [elt_cons_succ] at hb
        have := hbefore j (by omega) b hb
        rwa [show n + (j + 1) = n + 1 + j from by omega]
    cases o with
    | none => exact hskip (by intro b hb; cases hb) h
    | some c =>
      rw [firstFrom] at h
      by_cases hc : q n c = true
      · rw [if_pos hc] at h
        cases h
        exact ⟨0, rfl, elt_cons_zero _ _, hc, by intro j hj; omega⟩
      · rw [if_neg hc] at h
        refine hskip ?_ h
        rintro b ⟨⟩
        simpa using hc

/-- A failed search: no occupied slot passes the test. -/
theorem firstFrom_eq_none {q : ℕ → α → Bool} {p : List (Option α)} :
    ∀ {n : ℕ}, firstFrom q n p = none →
      ∀ k a, elt p k = some a → q (n + k) a = false := by
  induction p with
  | nil => intro n _ k a h; simp [elt] at h
  | cons o p ih =>
    intro n h k a hk
    have hrest : firstFrom q (n + 1) p = none := by
      cases o with
      | none => exact h
      | some c =>
        rw [firstFrom] at h
        by_cases hc : q n c = true
        · rw [if_pos hc] at h; cases h
        · rwa [if_neg hc] at h
    cases k with
    | zero =>
      rw [elt_cons_zero] at hk
      subst hk
      rw [firstFrom] at h
      by_cases hc : q n a = true
      · rw [if_pos hc] at h; cases h
      · simpa using hc
    | succ k =>
      rw [elt_cons_succ] at hk
      have := ih hrest k a hk
      rwa [show n + (k + 1) = n + 1 + k from by omega]

/-- **Specification of a successful `first`.** -/
theorem first_eq_some {p : SlotPool α} {q : ℕ → α → Bool} {i : ℕ} {a : α}
    (h : p.first q = some (i, a)) :
    p.elt i = some a ∧ q i a = true ∧
      ∀ j < i, ∀ b, p.elt j = some b → q j b = false := by
  obtain ⟨k, hk, helt, hq, hbefore⟩ := firstFrom_eq_some h
  obtain rfl : i = k := by omega
  refine ⟨helt, hq, ?_⟩
  intro j hj b hb
  have := hbefore j hj b hb
  rwa [Nat.zero_add] at this

/-- **Specification of a failed `first`.** -/
theorem first_eq_none {p : SlotPool α} {q : ℕ → α → Bool} (h : p.first q = none)
    {i : ℕ} {a : α} (hi : p.elt i = some a) : q i a = false := by
  have := firstFrom_eq_none h i a hi
  rwa [Nat.zero_add] at this

end SlotPool
