/-
# Loops over frames

A node passes the items of a frame two at a time as long as there are enough of them and
room for two results, and then one at a time; when there is no room left it gets some and
starts again.  The body has a state, such as a cache, that goes from item to item.

How much room there is depends on the results before, and is left open (`Rooms`).  If the
body does with every state that comes up what `alone` says, the loops do so for each item,
in order, whatever the rooms are (`frameLoop_eq`).
-/
import Mathlib

namespace BatchedLoop

/-- The room for results: as it is got, with so many items left, and what an enqueue makes
of it. -/
structure Rooms where
  get : ℕ → ℕ
  get_pos : ∀ left, 0 < get left
  enqueued : ℕ → ℕ → ℕ

/-- Where a loop has come to: the results, the room, the state, and the items that are left. -/
structure Progress (α β σ : Type*) where
  results : List β
  room : ℕ
  state : σ
  left : List α

section Loops

variable {α β σ : Type*} (body : σ → α → β × σ) (rooms : Rooms)

/-! ## The loops -/

/-- `while (n_left_from >= 4 && n_left_to_next >= 2)`. -/
def dualLoop : ℕ → σ → List α → Progress α β σ
  | room, s, a :: b :: as =>
    if 4 ≤ (a :: b :: as).length ∧ 2 ≤ room then
      let p := body s a
      let q := body p.2 b
      let rest := dualLoop (rooms.enqueued as.length (room - 2)) q.2 as
      { rest with results := p.1 :: q.1 :: rest.results }
    else ⟨[], room, s, a :: b :: as⟩
  | room, s, as => ⟨[], room, s, as⟩

/-- `while (n_left_from > 0 && n_left_to_next > 0)`. -/
def singleLoop : ℕ → σ → List α → Progress α β σ
  | room, s, a :: as =>
    if 0 < room then
      let p := body s a
      let rest := singleLoop (rooms.enqueued as.length (room - 1)) p.2 as
      { rest with results := p.1 :: rest.results }
    else ⟨[], room, s, a :: as⟩
  | room, s, [] => ⟨[], room, s, []⟩

/-- `while (n_left_from > 0)`; `none` says that the fuel has run out. -/
def frameLoop : ℕ → σ → List α → Option (List β)
  | _, _, [] => some []
  | 0, _, _ :: _ => none
  | fuel + 1, s, a :: as =>
    let dual := dualLoop body rooms (rooms.get (a :: as).length) s (a :: as)
    let single := singleLoop body rooms dual.room dual.state dual.left
    (frameLoop fuel single.state single.left).map (dual.results ++ single.results ++ ·)

/-! ## What they do -/

variable (Good : σ → Prop) (alone : α → β)

/-- The results so far are right, and so is the state. -/
structure Progress.Right (as : List α) (p : Progress α β σ) : Prop where
  results : p.results ++ p.left.map alone = as.map alone
  good : Good p.state
  left : p.left <:+ as

variable {Good alone}

/-- Nothing has been done. -/
theorem Progress.right_refl {s : σ} (hs : Good s) (room : ℕ) (as : List α) :
    Progress.Right Good alone as (⟨[], room, s, as⟩ : Progress α β σ) where
  results := rfl
  good := hs
  left := List.suffix_rfl

/-- Two items at a time, or nothing. -/
theorem dualLoop_right : ∀ (as : List α) (room : ℕ) (s : σ), Good s →
    (∀ s a, Good s → a ∈ as → (body s a).1 = alone a ∧ Good (body s a).2) →
    Progress.Right Good alone as (dualLoop body rooms room s as) ∧
      ((dualLoop body rooms room s as).left.length < as.length ∨
        dualLoop body rooms room s as = ⟨[], room, s, as⟩)
  | [], room, s, hs, _ => ⟨Progress.right_refl hs room [], Or.inr rfl⟩
  | [a], room, s, hs, _ => ⟨Progress.right_refl hs room [a], Or.inr rfl⟩
  | a :: b :: as, room, s, hs, hbody => by
    rw [dualLoop]
    by_cases h : 4 ≤ (a :: b :: as).length ∧ 2 ≤ room
    · obtain ⟨ha, hsa⟩ := hbody s a hs List.mem_cons_self
      obtain ⟨hb, hsb⟩ := hbody (body s a).2 b hsa (List.mem_cons_of_mem _ List.mem_cons_self)
      obtain ⟨⟨hres, hgood, hleft⟩, -⟩ := dualLoop_right as (rooms.enqueued as.length (room - 2))
        (body (body s a).2 b).2 hsb
        fun s x hs hx => hbody s x hs (List.mem_cons_of_mem _ (List.mem_cons_of_mem _ hx))
      rw [if_pos h]
      refine ⟨⟨?_, hgood, ?_⟩, Or.inl ?_⟩
      · simp only [List.cons_append, List.map_cons, ha, hb]
        rw [hres]
      · exact (hleft.trans (List.suffix_cons b as)).trans (List.suffix_cons a _)
      · have hle := hleft.length_le
        simp only [List.length_cons]
        omega
    · rw [if_neg h]
      exact ⟨Progress.right_refl hs room _, Or.inr rfl⟩

/-- One item at a time, and at least one if there is room. -/
theorem singleLoop_right (as : List α) : ∀ (room : ℕ) (s : σ), Good s →
    (∀ s a, Good s → a ∈ as → (body s a).1 = alone a ∧ Good (body s a).2) →
    Progress.Right Good alone as (singleLoop body rooms room s as) ∧
      (0 < room → as ≠ [] → (singleLoop body rooms room s as).left.length < as.length) := by
  induction as with
  | nil =>
    intro room s hs _
    exact ⟨Progress.right_refl hs room [], fun _ h => absurd rfl h⟩
  | cons a as ih =>
    intro room s hs hbody
    rw [singleLoop]
    by_cases h : 0 < room
    · obtain ⟨ha, hsa⟩ := hbody s a hs List.mem_cons_self
      obtain ⟨⟨hres, hgood, hleft⟩, -⟩ := ih (rooms.enqueued as.length (room - 1)) (body s a).2 hsa
        fun s x hs hx => hbody s x hs (List.mem_cons_of_mem _ hx)
      rw [if_pos h]
      refine ⟨⟨?_, hgood, hleft.trans (List.suffix_cons a as)⟩, fun _ _ => ?_⟩
      · simp only [List.cons_append, List.map_cons, ha]
        rw [hres]
      · have hle := hleft.length_le
        simp only [List.length_cons]
        omega
    · rw [if_neg h]
      exact ⟨Progress.right_refl hs room _, fun hroom => absurd hroom h⟩

variable (Good alone) in
/-- **The loops come to an end, and every item is treated as if it were alone.**  Each turn of
the outer loop has room for at least one result, so it takes at least one item. -/
theorem frameLoop_eq (fuel : ℕ) : ∀ (as : List α) (s : σ), as.length ≤ fuel → Good s →
    (∀ s a, Good s → a ∈ as → (body s a).1 = alone a ∧ Good (body s a).2) →
    frameLoop body rooms fuel s as = some (as.map alone) := by
  induction fuel with
  | zero =>
    intro as s hlen _ _
    rw [List.eq_nil_of_length_eq_zero (Nat.le_zero.1 hlen)]
    rfl
  | succ fuel ih =>
    intro as s hlen hs hbody
    cases as with
    | nil => rfl
    | cons a as =>
      -- one round: the dual loop, and the single loop on what it leaves
      obtain ⟨hdual, htook⟩ := dualLoop_right body rooms (a :: as)
        (rooms.get (a :: as).length) s hs hbody
      rw [frameLoop]
      generalize dualLoop body rooms (rooms.get (a :: as).length) s (a :: as) = dual
        at hdual htook ⊢
      have hbody' : ∀ s x, Good s → x ∈ dual.left → (body s x).1 = alone x ∧ Good (body s x).2 :=
        fun s x hs hx => hbody s x hs (hdual.left.mem hx)
      obtain ⟨hsingle, htook'⟩ := singleLoop_right body rooms dual.left dual.room
        dual.state hdual.good hbody'
      generalize singleLoop body rooms dual.room dual.state dual.left = single
        at hsingle htook' ⊢
      -- the round has passed a packet, in one loop or the other
      have hless : single.left.length < (a :: as).length := by
        rcases htook with htook | hnone
        · exact hsingle.left.length_le.trans_lt htook
        · -- the dual loop left the room as it was got
          rw [hnone] at htook'
          exact htook' (rooms.get_pos _) (List.cons_ne_nil a as)
      have hrest := ih single.left single.state (by omega) hsingle.good
        fun s x hs hx => hbody' s x hs (hsingle.left.mem hx)
      show (frameLoop body rooms fuel single.state single.left).map _ = _
      rw [hrest, Option.map_some, List.append_assoc, hsingle.results, hdual.results]

end Loops

end BatchedLoop
