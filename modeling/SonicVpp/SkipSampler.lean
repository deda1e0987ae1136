/-
# Skip samplers

A skip sampler counts down to the next item it takes: `skip s = 1` says that the next item
is taken, and `tick` passes one item.  The items it takes of a stream are those at the
positions `s₁, s₁ + s₂, …`, where `s₁` is the first skip and the others are those that the
state has right after an item was taken.

A stream may arrive in chunks.  The state at a chunk is the one after all items before it,
so sampling chunk by chunk gives the samples of the stream.
-/
import Mathlib

namespace SkipSampler

/-- A sampler that counts down to the next item it takes. -/
structure SkipMachine (σ : Type*) where
  skip : σ → ℕ
  tick : σ → σ
  skip_pos : ∀ s, 0 < skip s
  skip_tick : ∀ s, skip s ≠ 1 → skip (tick s) + 1 = skip s

namespace SkipMachine

variable {σ α : Type*} (M : SkipMachine σ)

/-! ## Positions -/

/-- The position, from 1 on, of the item that is taken as number `k`. -/
def position (s : σ) : ℕ → ℕ
  | 0 => M.skip s
  | k + 1 => position s k + M.skip (M.tick^[position s k] s)

/-- The items of a stream at these positions. -/
def itemsAt (s : σ) (stream : List α) : List α :=
  (List.range stream.length).filterMap fun k => stream[M.position s k - 1]?

theorem position_lt_succ (s : σ) (k : ℕ) : M.position s k < M.position s (k + 1) := by
  have hpos := M.skip_pos (M.tick^[M.position s k] s)
  simp only [position]
  omega

theorem lt_position (s : σ) (k : ℕ) : k < M.position s k := by
  induction k with
  | zero => exact M.skip_pos s
  | succ k ih =>
    have hlt := M.position_lt_succ s k
    omega

theorem position_strictMono (s : σ) : StrictMono (M.position s) :=
  strictMono_nat_of_lt_succ (M.position_lt_succ s)

/-- When the first item is taken, the other positions are those behind it. -/
theorem position_tick_of_one {s : σ} (h : M.skip s = 1) (k : ℕ) :
    M.position s (k + 1) = M.position (M.tick s) k + 1 := by
  induction k with
  | zero =>
    simp only [position, h, Function.iterate_one]
    omega
  | succ k ih =>
    rw [position, ih, position, Function.iterate_succ_apply]
    omega

/-- When it is not, so are all of them. -/
theorem position_tick_of_ne {s : σ} (h : M.skip s ≠ 1) (k : ℕ) :
    M.position s k = M.position (M.tick s) k + 1 := by
  induction k with
  | zero => exact (M.skip_tick s h).symm
  | succ k ih =>
    rw [position, ih, position, Function.iterate_succ_apply]
    omega

/-- The positions behind the first `m` items are those of the state after these. -/
theorem exists_position_add (s : σ) (m : ℕ) :
    ∃ k, (∀ j < k, M.position s j ≤ m) ∧
      ∀ j, M.position s (k + j) = m + M.position (M.tick^[m] s) j := by
  induction m with
  | zero => exact ⟨0, by omega, fun j => by simp⟩
  | succ m ih =>
    obtain ⟨k, hbefore, hafter⟩ := ih
    rw [Function.iterate_succ_apply']
    by_cases hone : M.skip (M.tick^[m] s) = 1
    · -- item `m + 1` is taken
      refine ⟨k + 1, fun j hj => ?_, fun j => ?_⟩
      · rcases Nat.lt_succ_iff_lt_or_eq.1 hj with hj | rfl
        · exact (hbefore j hj).trans (Nat.le_succ m)
        · have h0 := hafter 0
          rw [position, hone] at h0
          exact h0.le
      · have hj := hafter (j + 1)
        rw [M.position_tick_of_one hone] at hj
        rw [show k + 1 + j = k + (j + 1) by omega]
        omega
    · refine ⟨k, fun j hj => (hbefore j hj).trans (Nat.le_succ m), fun j => ?_⟩
      have hj := hafter j
      rw [M.position_tick_of_ne hone] at hj
      omega

/-- Two items of a window are taken exactly if its second position is in it. -/
theorem two_positions_iff (s : σ) (m n : ℕ) :
    (∃ k, m < M.position s k ∧ M.position s (k + 1) ≤ m + n) ↔
      M.position (M.tick^[m] s) 1 ≤ n := by
  obtain ⟨k, hbefore, hafter⟩ := M.exists_position_add s m
  have h1 := hafter 1
  constructor
  · rintro ⟨i, hi, hi'⟩
    have hki : k ≤ i := by
      by_contra hlt
      have hle := hbefore i (by omega)
      omega
    have hmono := (M.position_strictMono s).monotone (show k + 1 ≤ i + 1 by omega)
    omega
  · intro hle
    refine ⟨k, ?_, by omega⟩
    have h0 := hafter 0
    have hpos := M.lt_position (M.tick^[m] s) 0
    rw [Nat.add_zero] at h0
    omega

/-! ## Item by item -/

/-- The items that are taken, one item at a time. -/
def perItem : σ → List α → List α
  | _, [] => []
  | s, a :: as => if M.skip s = 1 then a :: perItem (M.tick s) as else perItem (M.tick s) as

/-- **Item by item the sampler takes the items at its positions.** -/
theorem itemsAt_eq_perItem (stream : List α) :
    ∀ s, M.itemsAt s stream = M.perItem s stream := by
  induction stream with
  | nil => intro s; rfl
  | cons a as ih =>
    intro s
    -- positions in the whole stream are one more than those in its rest
    have hcons : ∀ k, (a :: as)[M.position (M.tick s) k + 1 - 1]?
        = as[M.position (M.tick s) k - 1]? := by
      intro k
      have hpos := M.lt_position (M.tick s) k
      obtain ⟨p, hp⟩ : ∃ p, M.position (M.tick s) k = p + 1 :=
        ⟨M.position (M.tick s) k - 1, by omega⟩
      rw [hp]
      rfl
    rw [perItem, ← ih, itemsAt, List.length_cons]
    by_cases hone : M.skip s = 1
    · rw [if_pos hone, List.range_succ_eq_map, List.filterMap_cons, position, hone,
        List.filterMap_map]
      show a :: _ = a :: _
      congr 1
      apply List.filterMap_congr
      intro k _
      show (a :: as)[M.position s (k + 1) - 1]? = _
      rw [M.position_tick_of_one hone, hcons]
    · rw [if_neg hone, List.range_succ, List.filterMap_append]
      -- the last position of the range is beyond the stream
      have hlast : (a :: as)[M.position s as.length - 1]? = none := by
        rw [M.position_tick_of_ne hone, hcons]
        have hlt := M.lt_position (M.tick s) as.length
        exact List.getElem?_eq_none (by omega)
      simp only [List.filterMap_cons, hlast, List.filterMap_nil, List.append_nil]
      apply List.filterMap_congr
      intro k _
      rw [M.position_tick_of_ne hone, hcons]

/-- A stream in two parts. -/
theorem perItem_append (as bs : List α) :
    ∀ s, M.perItem s (as ++ bs) = M.perItem s as ++ M.perItem (M.tick^[as.length] s) bs := by
  induction as with
  | nil => intro s; rfl
  | cons a as ih =>
    intro s
    simp only [List.cons_append, perItem, ih, List.length_cons, Function.iterate_succ_apply]
    split <;> rfl

/-- Before the first position nothing is taken. -/
theorem perItem_of_lt {as : List α} :
    ∀ {s}, as.length < M.skip s → M.perItem s as = [] := by
  induction as with
  | nil => intro s _; rfl
  | cons a as ih =>
    intro s h
    rw [List.length_cons] at h
    have hone : M.skip s ≠ 1 := by omega
    have htick := M.skip_tick s hone
    rw [perItem, if_neg hone]
    exact ih (by omega)

/-- From there on the first item is taken, and the rest is that of the stream behind it. -/
theorem perItem_of_le {as : List α} :
    ∀ {s} (h : M.skip s ≤ as.length), M.perItem s as
      = as.get ⟨M.skip s - 1, by have := M.skip_pos s; omega⟩
        :: M.perItem (M.tick^[M.skip s] s) (as.drop (M.skip s)) := by
  induction as with
  | nil =>
    intro s h
    have hpos := M.skip_pos s
    rw [List.length_nil] at h
    omega
  | cons a as ih =>
    intro s h
    by_cases hone : M.skip s = 1
    · rw [perItem, if_pos hone]
      simp [hone]
    · have htick := M.skip_tick s hone
      rw [List.length_cons] at h
      obtain ⟨n, hn⟩ : ∃ n, M.skip s = n + 2 := ⟨M.skip s - 2, by have := M.skip_pos s; omega⟩
      have hn' : M.skip (M.tick s) = n + 1 := by omega
      rw [perItem, if_neg hone, ih (s := M.tick s) (by omega)]
      simp [hn, hn', Function.iterate_succ_apply]

/-! ## Chunks -/

/-- No chunk holds two of the positions. -/
def AtMostOnePerChunk (s : σ) (chunks : List (List α)) : Prop :=
  ∀ before chunk behind, chunks = before ++ chunk :: behind →
    ∀ k, before.flatten.length < M.position s k →
      before.flatten.length + chunk.length < M.position s (k + 1)

/-- Chunk by chunk: each ends before the second position of the state it starts with. -/
theorem atMostOnePerChunk_cons (s : σ) (c : List α) (cs : List (List α)) :
    M.AtMostOnePerChunk s (c :: cs) ↔
      c.length < M.position s 1 ∧ M.AtMostOnePerChunk (M.tick^[c.length] s) cs := by
  have hwindow : ∀ s m n, (∀ k, m < M.position s k → m + n < M.position s (k + 1)) ↔
      n < M.position (M.tick^[m] s) 1 := by
    intro s m n
    rw [← not_le, ← M.two_positions_iff s m n]
    push Not
    rfl
  unfold AtMostOnePerChunk
  simp only [hwindow]
  constructor
  · intro h
    refine ⟨h [] c cs rfl, fun before chunk behind hcs => ?_⟩
    have hc := h (c :: before) chunk behind (by rw [hcs]; rfl)
    rwa [List.flatten_cons, List.length_append, Nat.add_comm, Function.iterate_add_apply] at hc
  · rintro ⟨hc, hcs⟩ before chunk behind heq
    cases before with
    | nil =>
      obtain ⟨rfl, -⟩ := List.cons.inj heq
      exact hc
    | cons b before =>
      obtain ⟨rfl, htail⟩ := List.cons.inj heq
      rw [List.flatten_cons, List.length_append, Nat.add_comm, Function.iterate_add_apply]
      exact hcs before chunk behind htail

theorem atMostOnePerChunk_nil (s : σ) : M.AtMostOnePerChunk s ([] : List (List α)) := by
  intro before chunk behind h
  simp at h

end SkipMachine

end SkipSampler
