/-
# Dictionaries in a heap

A dictionary is kept at an address, and a value that is one is a reference to it.  `IsTree`
says what a reference stands for, and which addresses it takes: no dictionary comes twice in
it.  A function that writes elsewhere does not change what it stands for
(`IsTree.frame`).
-/
import SonicVpp.JsonOverlay

namespace PyDict

/-! ## The heap -/

/-- A value in a dictionary: another dictionary, or a value that is none. -/
inductive Ref
  | leaf (v : Json)
  | dict (addr : ℕ)

/-- The dictionaries by their addresses. -/
abbrev Heap := ℕ → List (String × Ref)

/-- `d[key] = val`. -/
def Heap.set (h : Heap) (d : ℕ) (key : String) (val : Ref) : Heap :=
  Function.update h d (setItem key val (h d))

theorem Heap.set_self (h : Heap) (d : ℕ) (key : String) (val : Ref) :
    h.set d key val d = setItem key val (h d) := Function.update_self ..

theorem Heap.set_of_ne (h : Heap) {d x : ℕ} (hx : x ≠ d) (key : String) (val : Ref) :
    h.set d key val x = h x := Function.update_of_ne hx ..

/-- Setting what is there changes nothing. -/
theorem Heap.set_of_lookup {h : Heap} {d : ℕ} {key : String} {val : Ref}
    (hval : (h d).lookup key = some val) : h.set d key val = h := by
  unfold Heap.set
  rw [setItem_of_lookup hval, Function.update_eq_self]

/-! ## Depth -/

mutual

/-- How deep dictionaries are nested in a value. -/
def Json.depth : Json → ℕ
  | .obj fields => fieldsDepth fields + 1
  | _ => 0

/-- How deep they are in the values of a dictionary. -/
def fieldsDepth : List (String × Json) → ℕ
  | [] => 0
  | (_, val) :: fields => max val.depth (fieldsDepth fields)

end

theorem depth_obj (fields : List (String × Json)) :
    (Json.obj fields).depth = fieldsDepth fields + 1 := by
  rw [Json.depth]

theorem fieldsDepth_le_iff {fields : List (String × Json)} {n : ℕ} :
    fieldsDepth fields ≤ n ↔ ∀ e ∈ fields, e.2.depth ≤ n := by
  induction fields with
  | nil => simp [fieldsDepth]
  | cons e fields ih => rw [fieldsDepth, max_le_iff, ih, List.forall_mem_cons]

/-- An overlay is not deeper than both. -/
theorem depth_over_le (v : Json) :
    ∀ {w : Json} {n : ℕ}, v.DistinctKeys → w.DistinctKeys → v.depth ≤ n → w.depth ≤ n →
      (v.over w).depth ≤ n := by
  induction v using Json.byFields with
  | leaf v hleaf =>
    intro w n _ _ hv _
    rw [over_of_not_obj hleaf]
    exact hv
  | obj f ih =>
    intro w n hf hg hv hw
    cases w with
    | obj g =>
      rw [depth_obj] at hv hw
      obtain ⟨n, rfl⟩ : ∃ m, n = m + 1 := ⟨n - 1, by omega⟩
      have hvals := fieldsDepth_le_iff.1 (Nat.le_of_succ_le_succ hv)
      have hvals' := fieldsDepth_le_iff.1 (Nat.le_of_succ_le_succ hw)
      rw [over_obj, depth_obj]
      apply Nat.succ_le_succ
      rw [fieldsDepth_le_iff]
      intro e he
      have hlook := lookup_of_mem (nodup_overlay hf.1 hg.1) he
      rw [lookup_overlay hf.1] at hlook
      -- the entry is from the one above, from the one below, or laid over an entry
      rcases overAt_eq_some hlook with ⟨v', hv', -, heq⟩ | ⟨-, hw'⟩ | ⟨v', w', hv', hw', heq⟩
      · rw [heq]
        exact hvals _ (mem_of_lookup hv')
      · exact hvals' _ (mem_of_lookup hw')
      · rw [heq]
        exact ih _ (mem_of_lookup hv') (hf.2.lookup hv') (hg.2.lookup hw')
          (hvals _ (mem_of_lookup hv')) (hvals' _ (mem_of_lookup hw'))
    | null | bool | num | str | arr =>
      rw [over_not_obj _ (by simp)]
      exact hv

/-! ## Trees -/

/-- Another key than the one that is set. -/
theorem mem_keys_of_mem_setItem {β : Type*} {k k' : String} {v : β} {d : List (String × β)}
    (hk' : k' ∈ (setItem k v d).map Prod.fst) (hne : k' ≠ k) : k' ∈ d.map Prod.fst := by
  rw [← lookup_isSome_iff, lookup_setItem_of_ne hne] at hk'
  exact lookup_isSome_iff.1 hk'

/-- The addresses of a dictionary with parts below its keys. -/
def foot (d : ℕ) (keys : List String) (part : String → Set ℕ) : Set ℕ :=
  {x | x = d ∨ ∃ k ∈ keys, x ∈ part k}

/-- The reference stands for the value, and takes the addresses. -/
inductive IsTree (h : Heap) : Json → Ref → Set ℕ → Prop
  | leaf {v : Json} (hv : ∀ f, v ≠ .obj f) : IsTree h v (.leaf v) ∅
  | dict {fields : List (String × Json)} {d : ℕ} {part : String → Set ℕ}
      (nodup : (fields.map Prod.fst).Nodup)
      (keys : (h d).map Prod.fst = fields.map Prod.fst)
      (vals : ∀ k v r, fields.lookup k = some v → (h d).lookup k = some r →
        IsTree h v r (part k))
      (apart : ∀ k ∈ fields.map Prod.fst, ∀ k' ∈ fields.map Prod.fst, k ≠ k' →
        Disjoint (part k) (part k'))
      (above : ∀ k ∈ fields.map Prod.fst, d ∉ part k) :
      IsTree h (.obj fields) (.dict d) (foot d (fields.map Prod.fst) part)

/-- What is kept at an address, with the parts below it. -/
structure DictAt (h : Heap) (d : ℕ) (fields : List (String × Json)) (part : String → Set ℕ) :
    Prop where
  nodup : (fields.map Prod.fst).Nodup
  keys : (h d).map Prod.fst = fields.map Prod.fst
  vals : ∀ k v r, fields.lookup k = some v → (h d).lookup k = some r → IsTree h v r (part k)
  apart : ∀ k ∈ fields.map Prod.fst, ∀ k' ∈ fields.map Prod.fst, k ≠ k' →
    Disjoint (part k) (part k')
  above : ∀ k ∈ fields.map Prod.fst, d ∉ part k

section Trees

variable {h h' : Heap} {d : ℕ} {fields : List (String × Json)} {part : String → Set ℕ}

theorem DictAt.isTree (hd : DictAt h d fields part) :
    IsTree h (.obj fields) (.dict d) (foot d (fields.map Prod.fst) part) :=
  .dict hd.nodup hd.keys hd.vals hd.apart hd.above

/-- A dictionary without dictionaries in it. -/
theorem IsTree.flat (hkeys : (fields.map Prod.fst).Nodup) (hleaf : ∀ e ∈ fields, ∀ f, e.2 ≠ .obj f)
    (hd : h d = fields.map fun e => (e.1, .leaf e.2)) :
    IsTree h (.obj fields) (.dict d) (foot d (fields.map Prod.fst) fun _ => ∅) := by
  have hkeys' : (h d).map Prod.fst = fields.map Prod.fst := by
    rw [hd, List.map_map]
    rfl
  refine .dict hkeys hkeys' ?_ (fun _ _ _ _ _ => disjoint_bot_left) fun _ _ => id
  intro k v r hv hr
  have hmem := mem_of_lookup hr
  rw [hd, List.mem_map] at hmem
  obtain ⟨e, he, heq⟩ := hmem
  obtain ⟨rfl, rfl⟩ := Prod.mk.inj heq
  rw [lookup_of_mem hkeys he] at hv
  obtain rfl := Option.some.inj hv
  exact .leaf (hleaf e he)

/-- A dictionary with one entry. -/
theorem IsTree.single {k : String} {v : Json} {r : Ref} {fp : Set ℕ} (hv : IsTree h v r fp)
    (hd : h d = [(k, r)]) (habove : d ∉ fp) :
    IsTree h (.obj [(k, v)]) (.dict d) (foot d [k] fun _ => fp) := by
  refine .dict (List.nodup_singleton k) (by rw [hd]; rfl) ?_ ?_ fun _ _ => habove
  · intro k' v' r' hv' hr'
    rw [hd] at hr'
    obtain ⟨rfl, rfl⟩ := Prod.mk.inj (List.mem_singleton.1 (mem_of_lookup hv'))
    obtain ⟨-, rfl⟩ := Prod.mk.inj (List.mem_singleton.1 (mem_of_lookup hr'))
    exact hv
  · intro k₁ h₁ k₂ h₂ hne
    exact absurd ((List.mem_singleton.1 h₁).trans (List.mem_singleton.1 h₂).symm) hne

/-- A reference to a dictionary. -/
theorem IsTree.dictAt {r : Ref} {fp : Set ℕ} (ht : IsTree h (.obj fields) r fp) :
    ∃ d part, r = .dict d ∧ fp = foot d (fields.map Prod.fst) part ∧ DictAt h d fields part := by
  cases ht with
  | leaf hv => exact absurd rfl (hv fields)
  | dict nodup keys vals apart above => exact ⟨_, _, rfl, rfl, nodup, keys, vals, apart, above⟩

/-- A reference to something else. -/
theorem IsTree.leaf_eq {v : Json} {r : Ref} {fp : Set ℕ} (ht : IsTree h v r fp)
    (hv : ∀ f, v ≠ .obj f) : r = .leaf v ∧ fp = ∅ := by
  cases ht with
  | leaf _ => exact ⟨rfl, rfl⟩
  | dict => exact absurd rfl (hv _)

/-- What a reference stands for is as `json.loads` returns it. -/
theorem IsTree.distinctKeys {v : Json} {r : Ref} {fp : Set ℕ} (ht : IsTree h v r fp) :
    v.DistinctKeys := by
  induction ht with
  | @leaf v hv =>
    cases v with
    | obj f => exact absurd rfl (hv f)
    | null | bool | num | str | arr => trivial
  | @dict fields d part nodup keys vals apart above ih =>
    refine ⟨nodup, ?_⟩
    rw [distinctFields_iff]
    intro e he
    have hlook := lookup_of_mem nodup he
    cases hr : (h d).lookup e.1 with
    | none =>
      rw [lookup_eq_none_iff_keys, keys] at hr
      exact absurd (List.mem_map_of_mem he) hr
    | some r => exact ih e.1 e.2 r hlook hr

/-- What is written elsewhere does not matter. -/
theorem IsTree.frame {v : Json} {r : Ref} {fp : Set ℕ} (ht : IsTree h v r fp)
    (hsame : ∀ x ∈ fp, h' x = h x) : IsTree h' v r fp := by
  induction ht with
  | leaf hv => exact .leaf hv
  | @dict fields d part nodup keys vals apart above ih =>
    have hd : h' d = h d := hsame d (Or.inl rfl)
    refine .dict nodup (hd ▸ keys) ?_ apart above
    intro k v r hv hr
    rw [hd] at hr
    refine ih k v r hv hr ?_
    intro x hx
    exact hsame x (Or.inr ⟨k, lookup_isSome_iff.1 (by rw [hv]; rfl), hx⟩)

/-- A key has a value in the tree if it has a reference in the heap. -/
theorem DictAt.lookup_none_iff (hd : DictAt h d fields part) {k : String} :
    (h d).lookup k = none ↔ fields.lookup k = none := by
  rw [lookup_eq_none_iff_keys, lookup_eq_none_iff_keys, hd.keys]

theorem DictAt.lookup (hd : DictAt h d fields part) {k : String} {v : Json}
    (hv : fields.lookup k = some v) :
    ∃ r, (h d).lookup k = some r ∧ IsTree h v r (part k) := by
  cases hr : (h d).lookup k with
  | none => exact absurd (hd.lookup_none_iff.1 hr) (by simp [hv])
  | some r => exact ⟨r, rfl, hd.vals k v r hv hr⟩

/-- **Setting a key.**  What is below the other keys must be as it was, and apart from what is
new. -/
theorem DictAt.setItem (hd : DictAt h d fields part) {k : String} {v : Json} {r : Ref}
    {fp : Set ℕ} (hset : h' d = PyDict.setItem k r (h d))
    (hsame : ∀ k' ∈ fields.map Prod.fst, k' ≠ k → ∀ x ∈ part k', h' x = h x)
    (hv : IsTree h' v r fp)
    (hapart : ∀ k' ∈ fields.map Prod.fst, k' ≠ k → Disjoint fp (part k')) (habove : d ∉ fp) :
    DictAt h' d (PyDict.setItem k v fields) (Function.update part k fp) := by
  have hmem : ∀ k' ∈ (PyDict.setItem k v fields).map Prod.fst,
      k' ≠ k → k' ∈ fields.map Prod.fst := fun k' hk' hne => mem_keys_of_mem_setItem hk' hne
  refine ⟨setItem_nodup k v hd.nodup, ?_, ?_, ?_, ?_⟩
  · rw [hset, setItem_keys, setItem_keys, hd.keys]
  · intro k' v' r' hv' hr'
    rw [hset] at hr'
    by_cases hk : k' = k
    · subst hk
      rw [lookup_setItem_self] at hv' hr'
      obtain rfl := Option.some.inj hv'
      obtain rfl := Option.some.inj hr'
      rwa [Function.update_self]
    · rw [lookup_setItem_of_ne hk] at hv' hr'
      rw [Function.update_of_ne hk]
      have hmem' : k' ∈ fields.map Prod.fst := lookup_isSome_iff.1 (by rw [hv']; rfl)
      exact (hd.vals k' v' r' hv' hr').frame (hsame k' hmem' hk)
  · -- two keys, of which at most one is the new one
    intro k₁ h₁ k₂ h₂ hne
    by_cases hk₁ : k₁ = k
    · subst hk₁
      rw [Function.update_self, Function.update_of_ne (Ne.symm hne)]
      exact hapart k₂ (hmem k₂ h₂ (Ne.symm hne)) (Ne.symm hne)
    · rw [Function.update_of_ne hk₁]
      by_cases hk₂ : k₂ = k
      · subst hk₂
        rw [Function.update_self]
        exact (hapart k₁ (hmem k₁ h₁ hk₁) hk₁).symm
      · rw [Function.update_of_ne hk₂]
        exact hd.apart k₁ (hmem k₁ h₁ hk₁) k₂ (hmem k₂ h₂ hk₂) hne
  · intro k' hk'
    by_cases hk : k' = k
    · subst hk
      rwa [Function.update_self]
    · rw [Function.update_of_ne hk]
      exact hd.above k' (hmem k' hk' hk)

end Trees

end PyDict
