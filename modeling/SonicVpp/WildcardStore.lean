/-
# One key-value store, two kinds of entry

Owners register in a shared map `m : κ → Option ν`.  Every owner has an exact
entry under its own key; some owners also stand behind a *wildcard* entry, which
several of them may share.  Both kinds live in the same map, so nothing in an
entry itself says which kind it is.

`Represents m live` states what the map must be for the population `live` of
owners, as far as entries that are present go; `CompleteAt m live k` adds that the
wildcard entry of `k` is not missing.  `Represents.register` and `Represents.unregister`
are the two maintenance rules: registering writes the exact and the wildcard
entry, unregistering removes the exact one and hands the wildcard entry to a
survivor, or removes it.

The side condition of both rules is separation: no wildcard key of a live owner
is the exact key of a live owner.
-/
import Mathlib

namespace WildcardStore

variable {ι κ ν : Type*}

/-- An owner of entries: its exact key, the wildcard key it stands behind, if
any, and the value its entries carry. -/
structure Owner (κ ν : Type*) where
  key : κ
  wild : Option κ
  val : ν

/-- Write the entries of a new owner. -/
def register [DecidableEq κ] (m : κ → Option ν) (o : Owner κ ν) : κ → Option ν :=
  match o.wild with
  | none => Function.update m o.key (some o.val)
  | some w => Function.update (Function.update m o.key (some o.val)) w (some o.val)

/-- Remove the exact entry of an owner and leave `next` under its wildcard key. -/
def unregister [DecidableEq κ] (m : κ → Option ν) (o : Owner κ ν) (next : Option ν) : κ → Option ν :=
  match o.wild with
  | none => Function.update m o.key none
  | some w => Function.update (Function.update m o.key none) w next

/-- The map holds the exact entries of the live owners and, besides them, only
wildcard entries that point at a live owner of that wildcard key. -/
structure Represents (m : κ → Option ν) (live : ι → Option (Owner κ ν)) : Prop where
  exact : ∀ i o, live i = some o → m o.key = some o.val
  inj : ∀ i j o o', live i = some o → live j = some o' → o.key = o'.key → i = j
  sound : ∀ k v, m k = some v →
    (∃ i o, live i = some o ∧ o.key = k ∧ o.val = v) ∨
      (∃ i o, live i = some o ∧ o.wild = some k ∧ o.val = v)
  separate : ∀ i j o o', live i = some o → live j = some o' → o'.wild ≠ some o.key

/-- If a live owner stands behind the wildcard key `k`, it has an entry. -/
def CompleteAt (m : κ → Option ν) (live : ι → Option (Owner κ ν)) (k : κ) : Prop :=
  ∀ i o, live i = some o → o.wild = some k → ∃ v, m k = some v

/-- The empty map represents the empty population. -/
theorem represents_empty :
    Represents (fun _ : κ => (none : Option ν)) (fun _ : ι => none) where
  exact := by intro i o h; cases h
  inj := by intro i j o o' h; cases h
  sound := by intro k v h; cases h
  separate := by intro i j o o' h; cases h

/-- An entry that is no live owner's exact entry is the wildcard entry of a live
owner. -/
theorem Represents.wild_of_not_exact {m : κ → Option ν} {live : ι → Option (Owner κ ν)}
    (h : Represents m live) {k : κ} {v : ν} (hv : m k = some v)
    (hk : ∀ i o, live i = some o → o.key ≠ k) :
    ∃ i o, live i = some o ∧ o.wild = some k ∧ o.val = v := by
  rcases h.sound k v hv with ⟨i, o, hi, hkey, -⟩ | hwild
  · exact absurd hkey (hk i o hi)
  · exact hwild

/-- **Wildcard entries are exactly those of live owners**, where none is missing. -/
theorem Represents.wild_iff {m : κ → Option ν} {live : ι → Option (Owner κ ν)}
    (h : Represents m live) {k : κ} (hc : CompleteAt m live k) :
    ((∃ v, m k = some v) ∧ ∀ i o, live i = some o → o.key ≠ k) ↔
      ∃ i o, live i = some o ∧ o.wild = some k := by
  constructor
  · rintro ⟨⟨v, hv⟩, hk⟩
    obtain ⟨i, o, hi, hw, -⟩ := h.wild_of_not_exact hv hk
    exact ⟨i, o, hi, hw⟩
  · rintro ⟨i, o, hi, hw⟩
    refine ⟨hc i o hi hw, ?_⟩
    rintro j o' hj rfl
    exact h.separate j i o' o hj hi hw

/-- The entry under a key that is no live owner's wildcard key is exact. -/
theorem Represents.exact_of_not_wild {m : κ → Option ν} {live : ι → Option (Owner κ ν)}
    (h : Represents m live) {k : κ} {v : ν} (hv : m k = some v)
    (hk : ∀ i o, live i = some o → o.wild ≠ some k) :
    ∃ i o, live i = some o ∧ o.key = k ∧ o.val = v := by
  rcases h.sound k v hv with hexact | ⟨i, o, hi, hw, -⟩
  · exact hexact
  · exact absurd hw (hk i o hi)

/-- What `register` leaves under each key. -/
theorem register_apply [DecidableEq κ] (m : κ → Option ν) (o : Owner κ ν) (k : κ) :
    register m o k = if o.key = k ∨ o.wild = some k then some o.val else m k := by
  unfold register
  cases o.wild with
  | none => simp only [Function.update_apply, eq_comm (a := k), reduceCtorEq, or_false]
  | some w =>
    simp only [Function.update_apply, eq_comm (a := k), Option.some.injEq]
    by_cases hw : w = k
    · simp [hw]
    · simp [hw]

/-- What `unregister` leaves under each key. -/
theorem unregister_apply [DecidableEq κ] (m : κ → Option ν) (o : Owner κ ν) (next : Option ν) (k : κ) :
    unregister m o next k =
      if o.wild = some k then next else if o.key = k then none else m k := by
  unfold unregister
  cases o.wild with
  | none => simp only [Function.update_apply, eq_comm (a := k), reduceCtorEq, if_false]
  | some w => simp only [Function.update_apply, eq_comm (a := k), Option.some.injEq]

section Operations

variable [DecidableEq ι] [DecidableEq κ] {m : κ → Option ν} {live : ι → Option (Owner κ ν)}
  {i : ι} {o : Owner κ ν}

/-- **Registration keeps the representation**, provided the new exact key is
unused and neither new key crosses over to the other kind. -/
theorem Represents.register (h : Represents m live) (hfree : live i = none)
    (hnew : m o.key = none) (hself : o.wild ≠ some o.key)
    (hexact : ∀ j o', live j = some o' → o.wild ≠ some o'.key)
    (hwild : ∀ j o', live j = some o' → o'.wild ≠ some o.key) :
    Represents (register m o) (Function.update live i (some o)) := by
  -- a live owner after the step is the new one, or an old one in another slot
  have hlive : ∀ j o', Function.update live i (some o) j = some o' →
      (j = i ∧ o' = o) ∨ (j ≠ i ∧ live j = some o') := by
    intro j o' hj
    by_cases hji : j = i
    · subst hji
      rw [Function.update_self] at hj
      cases hj
      exact Or.inl ⟨rfl, rfl⟩
    · rw [Function.update_of_ne hji] at hj
      exact Or.inr ⟨hji, hj⟩
  have hkey : ∀ j o', live j = some o' → o'.key ≠ o.key := by
    intro j o' hj heq
    have := h.exact j o' hj
    rw [heq, hnew] at this
    cases this
  have hold : ∀ j o', live j = some o' → Function.update live i (some o) j = some o' := by
    intro j o' hj
    rw [Function.update_of_ne (by rintro rfl; rw [hfree] at hj; cases hj)]
    exact hj
  refine ⟨?_, ?_, ?_, ?_⟩
  · intro j o' hj
    rw [register_apply]
    rcases hlive j o' hj with ⟨-, rfl⟩ | ⟨-, hj'⟩
    · rw [if_pos (Or.inl rfl)]
    · rw [if_neg ?_, h.exact j o' hj']
      rintro (heq | heq)
      · exact hkey j o' hj' heq.symm
      · exact hexact j o' hj' heq
  · intro j j' p p' hj hj' heq
    rcases hlive j p hj with ⟨rfl, rfl⟩ | ⟨-, hjl⟩
    · rcases hlive j' p' hj' with ⟨rfl, -⟩ | ⟨-, hjl'⟩
      · rfl
      · exact absurd heq.symm (hkey j' p' hjl')
    · rcases hlive j' p' hj' with ⟨rfl, rfl⟩ | ⟨-, hjl'⟩
      · exact absurd heq (hkey j p hjl)
      · exact h.inj j j' p p' hjl hjl' heq
  · intro k v hv
    rw [register_apply] at hv
    by_cases hk : o.key = k ∨ o.wild = some k
    · rw [if_pos hk] at hv
      cases hv
      rcases hk with hk | hk
      · exact Or.inl ⟨i, o, Function.update_self .., hk, rfl⟩
      · exact Or.inr ⟨i, o, Function.update_self .., hk, rfl⟩
    · rw [if_neg hk] at hv
      rcases h.sound k v hv with ⟨j, o', hj, hrest⟩ | ⟨j, o', hj, hrest⟩
      · exact Or.inl ⟨j, o', hold j o' hj, hrest⟩
      · exact Or.inr ⟨j, o', hold j o' hj, hrest⟩
  · intro j j' p p' hj hj'
    rcases hlive j p hj with ⟨rfl, rfl⟩ | ⟨-, hjl⟩
    · rcases hlive j' p' hj' with ⟨-, rfl⟩ | ⟨-, hjl'⟩
      · exact hself
      · exact hwild j' p' hjl'
    · rcases hlive j' p' hj' with ⟨-, rfl⟩ | ⟨-, hjl'⟩
      · exact hexact j p hjl
      · exact h.separate j j' p p' hjl hjl'

/-- Registration loses no wildcard entry. -/
theorem CompleteAt.register {k : κ} (h : CompleteAt m live k) :
    CompleteAt (register m o) (Function.update live i (some o)) k := by
  intro j o' hj hw
  rw [register_apply]
  by_cases hk : o.key = k ∨ o.wild = some k
  · exact ⟨o.val, if_pos hk⟩
  · rw [if_neg hk]
    by_cases hji : j = i
    · subst hji
      rw [Function.update_self] at hj
      cases hj
      exact absurd (Or.inr hw) hk
    · rw [Function.update_of_ne hji] at hj
      exact h j o' hj hw

/-- **Unregistration keeps the representation**, provided what is left under the
wildcard key is nothing or the value of another live owner of that key. -/
theorem Represents.unregister {next : Option ν} (h : Represents m live)
    (hi : live i = some o)
    (hnext : ∀ w v, o.wild = some w → next = some v →
      ∃ j o', j ≠ i ∧ live j = some o' ∧ o'.wild = some w ∧ o'.val = v) :
    Represents (unregister m o next) (Function.update live i none) := by
  have hlive : ∀ j o', Function.update live i none j = some o' → j ≠ i ∧ live j = some o' := by
    intro j o' hj
    have hji : j ≠ i := by
      rintro rfl
      rw [Function.update_self] at hj
      cases hj
    rw [Function.update_of_ne hji] at hj
    exact ⟨hji, hj⟩
  have hold : ∀ j o', j ≠ i → live j = some o' → Function.update live i none j = some o' := by
    intro j o' hji hj
    rw [Function.update_of_ne hji, hj]
  refine ⟨?_, ?_, ?_, ?_⟩
  · intro j o' hj
    obtain ⟨hji, hj⟩ := hlive j o' hj
    rw [unregister_apply, if_neg (h.separate j i o' o hj hi), if_neg ?_, h.exact j o' hj]
    intro heq
    exact hji (h.inj j i o' o hj hi heq.symm)
  · intro j j' p p' hj hj' heq
    exact h.inj j j' p p' (hlive j p hj).2 (hlive j' p' hj').2 heq
  · intro k v hv
    rw [unregister_apply] at hv
    by_cases hw : o.wild = some k
    · rw [if_pos hw] at hv
      obtain ⟨j, o', hji, hj, hwild, hval⟩ := hnext k v hw hv
      exact Or.inr ⟨j, o', hold j o' hji hj, hwild, hval⟩
    · rw [if_neg hw] at hv
      by_cases hk : o.key = k
      · rw [if_pos hk] at hv; cases hv
      · rw [if_neg hk] at hv
        -- the owner behind an untouched key is not the one that leaves
        rcases h.sound k v hv with ⟨j, o', hj, hkey, hval⟩ | ⟨j, o', hj, hwild, hval⟩
        · refine Or.inl ⟨j, o', hold j o' ?_ hj, hkey, hval⟩
          rintro rfl
          rw [hi] at hj
          cases hj
          exact hk hkey
        · refine Or.inr ⟨j, o', hold j o' ?_ hj, hwild, hval⟩
          rintro rfl
          rw [hi] at hj
          cases hj
          exact hw hwild
  · intro j j' p p' hj hj'
    exact h.separate j j' p p' (hlive j p hj).2 (hlive j' p' hj').2

/-- Unregistration loses no wildcard entry if it hands over a shared one. -/
theorem CompleteAt.unregister {next : Option ν} {k : κ} (hr : Represents m live)
    (h : CompleteAt m live k) (hi : live i = some o)
    (hnext : ∀ j o', j ≠ i → live j = some o' → o'.wild = some k → o.wild = some k →
      ∃ v, next = some v) :
    CompleteAt (unregister m o next) (Function.update live i none) k := by
  intro j o' hj hw
  have hji : j ≠ i := by
    rintro rfl
    rw [Function.update_self] at hj
    cases hj
  rw [Function.update_of_ne hji] at hj
  rw [unregister_apply]
  by_cases hwk : o.wild = some k
  · rw [if_pos hwk]
    exact hnext j o' hji hj hw hwk
  · have hkey : o.key ≠ k := by
      rintro rfl
      exact hr.separate i j o o' hi hj hw
    rw [if_neg hwk, if_neg hkey]
    exact h j o' hj hw

end Operations

end WildcardStore
