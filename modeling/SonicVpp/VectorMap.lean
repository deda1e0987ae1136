/-
# Functions on vectors

A function of single items, run over a vector of `n` items: four at a time as long as there are
eight, with the next four prefetched, and then one at a time.  Each item is read from the one array
and its result written to the other, and `none` is an access behind the end of either.
-/
import Mathlib

namespace VectorMap

variable {α β : Type} (f : α → β) (p : List α)

/-- `out[i] = f (&p[i])`. -/
def store (i : ℕ) (out : List β) : Option (List β) := do
  let a ← p[i]?
  if i < out.length then some (out.set i (f a)) else none

/-- `while (n_left_from >= 8)`. -/
def quadLoop : ℕ → ℕ → List β → Option (ℕ × ℕ × List β)
  | left + 8, i, out => do
    let _ ← p[i + 4]?
    let _ ← p[i + 5]?
    let _ ← p[i + 6]?
    let _ ← p[i + 7]?
    let out ← store f p i out
    let out ← store f p (i + 1) out
    let out ← store f p (i + 2) out
    let out ← store f p (i + 3) out
    quadLoop (left + 4) (i + 4) out
  | left, i, out => some (left, i, out)

/-- `while (n_left_from > 0)`. -/
def singleLoop : ℕ → ℕ → List β → Option (List β)
  | 0, _, out => some out
  | left + 1, i, out => do
    let out ← store f p i out
    singleLoop left (i + 1) out

/-- The loops over `n` items. -/
def run (out : List β) (n : ℕ) : Option (List β) := do
  let (left, i, out) ← quadLoop f p n 0 out
  singleLoop f p left i out

/-- The array after `k` items. -/
def written (out : List β) (k : ℕ) : List β := (p.take k).map f ++ out.drop k

variable {f p} {out : List β}

theorem store_written {k : ℕ} (hp : k < p.length) (hout : k < out.length) :
    store f p k (written f p out k) = some (written f p out (k + 1)) := by
  have hlen : ((p.take k).map f).length = k := by
    rw [List.length_map, List.length_take, Nat.min_eq_left hp.le]
  have hroom : k < (written f p out k).length := by
    rw [written, List.length_append, hlen, List.length_drop]
    omega
  have hset : (written f p out k).set k (f p[k]) = written f p out (k + 1) := by
    unfold written
    rw [List.set_append_right _ _ hlen.le, hlen, Nat.sub_self, List.drop_eq_getElem_cons hout,
      List.set_cons_zero, List.take_succ_eq_append_getElem hp, List.map_append, List.append_assoc]
    rfl
  unfold store
  rw [List.getElem?_eq_getElem hp]
  show (if k < (written f p out k).length then some ((written f p out k).set k (f p[k]))
    else none) = _
  rw [if_pos hroom, hset]

/-- Four items at a time. -/
theorem quadLoop_written : ∀ left i : ℕ, i + left ≤ p.length → i + left ≤ out.length →
    ∃ left' i', i' + left' = i + left ∧
      quadLoop f p left i (written f p out i) = some (left', i', written f p out i')
  | left + 8, i, hp, hout => by
    obtain ⟨left', i', hsum, hloop⟩ := quadLoop_written (left + 4) (i + 4) (by omega) (by omega)
    refine ⟨left', i', by omega, ?_⟩
    rw [quadLoop, List.getElem?_eq_getElem (by omega : i + 4 < p.length),
      List.getElem?_eq_getElem (by omega : i + 5 < p.length),
      List.getElem?_eq_getElem (by omega : i + 6 < p.length),
      List.getElem?_eq_getElem (by omega : i + 7 < p.length)]
    show (store f p i _ >>= _) = _
    rw [store_written (by omega) (by omega)]
    show (store f p (i + 1) _ >>= _) = _
    rw [store_written (by omega) (by omega)]
    show (store f p (i + 2) _ >>= _) = _
    rw [store_written (by omega) (by omega)]
    show (store f p (i + 3) _ >>= _) = _
    rw [store_written (by omega) (by omega)]
    exact hloop
  | 0, i, _, _ => ⟨0, i, rfl, rfl⟩
  | 1, i, _, _ => ⟨1, i, rfl, rfl⟩
  | 2, i, _, _ => ⟨2, i, rfl, rfl⟩
  | 3, i, _, _ => ⟨3, i, rfl, rfl⟩
  | 4, i, _, _ => ⟨4, i, rfl, rfl⟩
  | 5, i, _, _ => ⟨5, i, rfl, rfl⟩
  | 6, i, _, _ => ⟨6, i, rfl, rfl⟩
  | 7, i, _, _ => ⟨7, i, rfl, rfl⟩

/-- One item at a time. -/
theorem singleLoop_written (left : ℕ) : ∀ i : ℕ, i + left ≤ p.length → i + left ≤ out.length →
    singleLoop f p left i (written f p out i) = some (written f p out (i + left)) := by
  induction left with
  | zero =>
    intro i _ _
    rfl
  | succ left ih =>
    intro i hp hout
    rw [singleLoop, store_written (by omega) (by omega)]
    show singleLoop f p left (i + 1) _ = _
    rw [ih (i + 1) (by omega) (by omega)]
    congr 2
    omega

/-- The loops do for each of the `n` items what the function does for it alone. -/
theorem run_inside {n : ℕ} (hp : n ≤ p.length) (hout : n ≤ out.length) :
    run f p out n = some ((p.take n).map f ++ out.drop n) := by
  obtain ⟨left, i, hsum, hloop⟩ :=
    @quadLoop_written _ _ f p out n 0 (by omega) (by omega)
  have hstart : written f p out 0 = out := rfl
  rw [hstart] at hloop
  unfold run
  rw [hloop]
  show singleLoop f p left i _ = _
  rw [singleLoop_written left i (by omega) (by omega), hsum, Nat.zero_add]
  rfl

/-! ## Accesses behind the end -/

variable {out' : List β} {i left left' i' : ℕ}

/-- What is read and written is there. -/
theorem store_some (h : store f p i out = some out') :
    i < p.length ∧ i < out.length ∧ out'.length = out.length := by
  unfold store at h
  obtain ⟨a, ha, h⟩ := Option.bind_eq_some_iff.1 h
  split at h
  · rename_i hi
    cases h
    exact ⟨(List.getElem?_eq_some_iff.1 ha).1, hi, List.length_set⟩
  · cases h

/-- The first loop leaves something to the second one, unless there was nothing. -/
theorem quadLoop_some : ∀ left i {out : List β},
    quadLoop f p left i out = some (left', i', out') →
      i' + left' = i + left ∧ out'.length = out.length ∧ (left' = 0 → left = 0)
  | left + 8, i, out, h => by
    rw [quadLoop] at h
    obtain ⟨_, _, h⟩ := Option.bind_eq_some_iff.1 h
    obtain ⟨_, _, h⟩ := Option.bind_eq_some_iff.1 h
    obtain ⟨_, _, h⟩ := Option.bind_eq_some_iff.1 h
    obtain ⟨_, _, h⟩ := Option.bind_eq_some_iff.1 h
    obtain ⟨out₁, h₁, h⟩ := Option.bind_eq_some_iff.1 h
    obtain ⟨out₂, h₂, h⟩ := Option.bind_eq_some_iff.1 h
    obtain ⟨out₃, h₃, h⟩ := Option.bind_eq_some_iff.1 h
    obtain ⟨out₄, h₄, h⟩ := Option.bind_eq_some_iff.1 h
    obtain ⟨hsum, hlength, hzero⟩ := quadLoop_some (left + 4) (i + 4) h
    have hlength' : out₄.length = out.length := (store_some h₄).2.2.trans
      ((store_some h₃).2.2.trans ((store_some h₂).2.2.trans (store_some h₁).2.2))
    exact ⟨by omega, hlength.trans hlength', fun h => absurd (hzero h) (by omega)⟩
  | 0, _, _, h | 1, _, _, h | 2, _, _, h | 3, _, _, h | 4, _, _, h | 5, _, _, h | 6, _, _, h
  | 7, _, _, h => by
    cases h
    exact ⟨rfl, rfl, id⟩

theorem singleLoop_some (left : ℕ) : ∀ (i : ℕ) {out out' : List β},
    singleLoop f p left i out = some out' →
      left = 0 ∨ (i + left ≤ p.length ∧ i + left ≤ out.length) := by
  induction left with
  | zero => exact fun _ _ _ _ => Or.inl rfl
  | succ left ih =>
    intro i out out' h
    rw [singleLoop] at h
    obtain ⟨out₁, h₁, h⟩ := Option.bind_eq_some_iff.1 h
    obtain ⟨hp, hout, hlength⟩ := store_some h₁
    rcases ih (i + 1) h with hzero | ⟨hp', hout'⟩
    · exact Or.inr ⟨by omega, by omega⟩
    · exact Or.inr ⟨by omega, by omega⟩

/-- **The loops do for each of the `n` items what the function does for it alone**, and leave the
rest of the array as it is; and they stay inside both arrays exactly if `n` items are there. -/
theorem run_eq (f : α → β) (p : List α) (out : List β) (n : ℕ) :
    run f p out n =
      if n ≤ p.length ∧ n ≤ out.length then some ((p.take n).map f ++ out.drop n) else none := by
  split_ifs with hn
  · exact run_inside hn.1 hn.2
  · rw [Option.eq_none_iff_forall_ne_some]
    intro out' h
    obtain ⟨⟨left, i, out₁⟩, hquad, hsingle⟩ := Option.bind_eq_some_iff.1 h
    obtain ⟨hsum, hlength, hzero⟩ := quadLoop_some n 0 hquad
    apply hn
    rcases singleLoop_some left i hsingle with hleft | ⟨hp, hout⟩
    · have hempty := hzero hleft
      omega
    · omega

end VectorMap
