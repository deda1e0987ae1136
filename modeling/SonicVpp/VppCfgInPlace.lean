/-
# `deep_update` in place

`deep_update` writes into the dictionaries of its output and stores subtrees of the input
there as they are.  Here the dictionaries are in a heap (`PyDict.Heap`), and the loop runs
over the live input: it looks at the size of the dictionary in every round, as an iterator of
Python does.

An input that shares no dictionary with the output is not written by its own merge, and the
merge is that of values (`merges_mergeAt`).  Afterwards the two share what was stored, and
merging the same dictionary again finds it in its place (`mergeAt_laid`).
-/
import SonicVpp.DictHeap
import SonicVpp.VppCfgMerge

open PyDict

namespace VppCfg

/-! ## The program -/

/-- How a merge ends early: in an exception of an operator, or in the one of an iterator whose
dictionary has another size than before.  `running` is a recursion deeper than the fuel. -/
inductive MergeFault
  | raised (e : PyError)
  | changedSize
  | running

/-- The body of the loop of `deep_update`.  `nested` is the recursive call. -/
def mergeEntry (nested : Heap → ℕ → Ref → Except MergeFault Heap) (output : Ref) (key : String)
    (val : Ref) (h : Heap) : Except MergeFault Heap :=
  match output with
  | .leaf _ => .error (.raised .typeError)
  | .dict o =>
    match (h o).lookup key with
    | some outVal =>
      match val with
      | .dict v => nested h v outVal
      | .leaf _ => .ok (h.set o key val)
    | none => .ok (h.set o key val)

/-- The loop, with the number of entries that the iterator has still to return. -/
def mergeLoop (nested : Heap → ℕ → Ref → Except MergeFault Heap) (input : ℕ) (output : Ref)
    (size : ℕ) : ℕ → Heap → Except MergeFault Heap
  | 0, h => if (h input).length ≠ size then .error .changedSize else .ok h
  | left + 1, h =>
    if (h input).length ≠ size then .error .changedSize
    else
      match (h input)[size - (left + 1)]? with
      | none => .ok h
      | some (key, val) => do
        let h ← mergeEntry nested output key val h
        mergeLoop nested input output size left h

/-- `deep_update`. -/
def mergeAt : ℕ → Heap → ℕ → Ref → Except MergeFault Heap
  | 0, _, _, _ => .error .running
  | fuel + 1, h, input, output =>
    mergeLoop (mergeAt fuel) input output (h input).length (h input).length h

/-! ## One turn of the loop -/

section Loop

variable {nested : Heap → ℕ → Ref → Except MergeFault Heap} {h : Heap} {i : ℕ} {output : Ref}
  {size : ℕ}

theorem mergeLoop_nil (hsize : (h i).length = size) :
    mergeLoop nested i output size 0 h = .ok h := by
  rw [mergeLoop, if_neg (not_not.2 hsize)]

theorem mergeLoop_cons {key : String} {val : Ref} {rest : List (String × Ref)}
    (hsize : (h i).length = size) (hrest : (key, val) :: rest <:+ h i) :
    mergeLoop nested i output size (rest.length + 1) h
      = (mergeEntry nested output key val h >>= mergeLoop nested i output size rest.length) := by
  obtain ⟨before, hi⟩ := hrest
  have hlen : before.length + (rest.length + 1) = size := by
    rw [← hsize, ← hi, List.length_append, List.length_cons]
  have hpos : size - (rest.length + 1) = before.length := by omega
  have hget : (h i)[size - (rest.length + 1)]? = some (key, val) := by
    rw [hpos, ← hi, List.getElem?_append_right (le_refl _), Nat.sub_self]
    rfl
  rw [mergeLoop, if_neg (not_not.2 hsize), hget]

/-- A loop in which no turn changes anything. -/
theorem mergeLoop_same
    (hsame : ∀ e ∈ h i, mergeEntry nested output e.1 e.2 h = .ok h) :
    ∀ rest : List (String × Ref), rest <:+ h i →
      mergeLoop nested i output (h i).length rest.length h = .ok h := by
  intro rest
  induction rest with
  | nil => exact fun _ => mergeLoop_nil rfl
  | cons e rest ih =>
    intro hrest
    rw [List.length_cons, mergeLoop_cons rfl hrest, hsame e (hrest.subset List.mem_cons_self)]
    exact ih ((List.suffix_cons e rest).trans hrest)

end Loop

/-- The keys that are still to come are others. -/
theorem ne_of_mem_rest {k k' : String} {v : Json} {d rest : Fields}
    (hd : (d.map Prod.fst).Nodup) (hrest : (k, v) :: rest <:+ d)
    (hk' : k' ∈ rest.map Prod.fst) : k' ≠ k := by
  have hnodup := hd.sublist (hrest.sublist.map _)
  rw [List.map_cons, List.nodup_cons] at hnodup
  rintro rfl
  exact hnodup.1 hk'

/-! ## The merge of values -/

/-- The heap after a merge into `o`: what stands there, of which dictionaries it is made, and
which were written. -/
structure Merged (h : Heap) (fpI fpO : Set ℕ) (o : Ref) (merged : Json) (h' : Heap) : Prop where
  tree : ∃ fp, fp ⊆ fpI ∪ fpO ∧ IsTree h' merged o fp
  frame : ∀ x ∉ fpO, h' x = h x

/-- A procedure that merges the value as `deepUpdate` does. -/
def Merges (nested : Heap → ℕ → Ref → Except MergeFault Heap) (v : Json) : Prop :=
  ∀ (h : Heap) (i : ℕ) (o : Ref) (fpI fpO : Set ℕ) (fields : Fields) (w merged : Json),
    v = .obj fields → IsTree h v (.dict i) fpI → IsTree h w o fpO → Disjoint fpI fpO →
    deepUpdate fields w = .ok merged →
    ∃ h', nested h i o = .ok h' ∧ Merged h fpI fpO o merged h'

/-- **One entry.** -/
theorem mergeEntry_merges {nested : Heap → ℕ → Ref → Except MergeFault Heap} {h : Heap} {o : ℕ}
    {cur : Fields} {part : String → Set ℕ} {k : String} {v val' : Json} {r : Ref} {fpv : Set ℕ}
    (hd : DictAt h o cur part) (hv : IsTree h v r fpv) (ho : o ∉ fpv)
    (hapart : ∀ k' ∈ cur.map Prod.fst, Disjoint fpv (part k')) (hnested : Merges nested v)
    (hset : SetsTo k v cur val') :
    ∃ h' fp, mergeEntry nested (.dict o) k r h = .ok h' ∧
      DictAt h' o (setItem k val' cur) (Function.update part k fp) ∧
      (∀ x ∈ fp, x ∈ fpv ∨ (k ∈ cur.map Prod.fst ∧ x ∈ part k)) ∧
      ∀ x, x ≠ o → (k ∈ cur.map Prod.fst → x ∉ part k) → h' x = h x := by
  -- an entry that is stored: only the output's own dictionary is written
  have hstore : v = val' → ∃ h' fp, .ok (h.set o k r) = (.ok h' : Except MergeFault Heap) ∧
      DictAt h' o (setItem k val' cur) (Function.update part k fp) ∧
      (∀ x ∈ fp, x ∈ fpv ∨ (k ∈ cur.map Prod.fst ∧ x ∈ part k)) ∧
      ∀ x, x ≠ o → (k ∈ cur.map Prod.fst → x ∉ part k) → h' x = h x := by
    rintro rfl
    refine ⟨h.set o k r, fpv, rfl, ?_, fun x hx => Or.inl hx,
      fun x hx _ => h.set_of_ne hx k r⟩
    apply hd.setItem (h.set_self o k r)
    · intro k' hk' _ x hx
      apply h.set_of_ne
      rintro rfl
      exact hd.above k' hk' hx
    · apply hv.frame
      intro x hx
      apply h.set_of_ne
      rintro rfl
      exact ho hx
    · exact fun k' hk' _ => hapart k' hk'
    · exact ho
  unfold SetsTo at hset
  rw [mergeEntry]
  cases hlook : cur.lookup k with
  | none =>
    rw [hlook] at hset
    rw [hd.lookup_none_iff.2 hlook]
    exact hstore hset.symm
  | some w =>
    rw [hlook] at hset
    obtain ⟨r', hr', hw⟩ := hd.lookup hlook
    have hk : k ∈ cur.map Prod.fst := lookup_isSome_iff.1 (by rw [hlook]; rfl)
    rw [hr']
    by_cases hobj : ∃ f, v = .obj f
    · -- the merge goes down into the dictionary that the output has there
      obtain ⟨f, rfl⟩ := hobj
      obtain ⟨a, inPart, rfl, rfl, -⟩ := hv.dictAt
      have hset' : deepUpdate f w = .ok val' := by
        rw [← newVal_obj]
        exact hset
      obtain ⟨h', hrun, ⟨fp, hfp, htree⟩, hframe⟩ :=
        hnested h a r' _ _ f w val' rfl hv hw (hapart k hk) hset'
      have hnot : ∀ x, x = o ∨ (∃ k' ∈ cur.map Prod.fst, k' ≠ k ∧ x ∈ part k') → x ∉ part k := by
        rintro x (rfl | ⟨k', hk', hne, hx⟩)
        · exact hd.above k hk
        · exact Set.disjoint_left.1 (hd.apart k' hk' k hk hne) hx
      refine ⟨h', fp, hrun, ?_, ?_, fun x _ hx => hframe x (hx hk)⟩
      · -- the reference in the output stays as it is
        apply hd.setItem (r := r')
        · rw [hframe o (hnot o (Or.inl rfl)), setItem_of_lookup hr']
        · intro k' hk' hne x hx
          exact hframe x (hnot x (Or.inr ⟨k', hk', hne, hx⟩))
        · exact htree
        · intro k' hk' hne
          apply Disjoint.mono_left hfp
          exact Set.disjoint_union_left.2 ⟨hapart k' hk', hd.apart k hk k' hk' (Ne.symm hne)⟩
        · intro hx
          rcases hfp hx with hx | hx
          · exact ho hx
          · exact hd.above k hk hx
      · intro x hx
        rcases hfp hx with hx | hx
        · exact Or.inl hx
        · exact Or.inr ⟨hk, hx⟩
    · have hleaf := not_exists.1 hobj
      obtain ⟨rfl, rfl⟩ := hv.leaf_eq hleaf
      have hset' : newVal v w = .ok val' := hset
      rw [newVal_of_not_obj hleaf] at hset'
      exact hstore (Except.ok.inj hset')

/-- The heap between two turns: what the output is by then, and that the entries which are
still to come share nothing with it.  What stands under their keys was in the output before. -/
structure LoopInv (h : Heap) (fpI fpO : Set ℕ) (inPart : String → Set ℕ) (o : ℕ) (h₁ : Heap)
    (cur : Fields) (part : String → Set ℕ) (rest : Fields) : Prop where
  dict : DictAt h₁ o cur part
  frame : ∀ x ∉ fpO, h₁ x = h x
  within : ∀ k ∈ cur.map Prod.fst, part k ⊆ fpI ∪ fpO
  waiting : ∀ k ∈ rest.map Prod.fst, ∀ k' ∈ cur.map Prod.fst, Disjoint (inPart k) (part k')
  own : ∀ k ∈ rest.map Prod.fst, k ∈ cur.map Prod.fst → part k ⊆ fpO

section Inv

variable {h h₁ : Heap} {fpI fpO : Set ℕ} {i o : ℕ} {inPart part : String → Set ℕ}
  {input output cur rest : Fields}

theorem LoopInv.start (hout : DictAt h o output part)
    (hin : ∀ k ∈ input.map Prod.fst, inPart k ⊆ fpI)
    (hdisj : Disjoint fpI (foot o (output.map Prod.fst) part)) :
    LoopInv h fpI (foot o (output.map Prod.fst) part) inPart o h output part input where
  dict := hout
  frame := fun _ _ => rfl
  within := fun k hk _ hx => Or.inr (Or.inr ⟨k, hk, hx⟩)
  waiting := fun k hk k' hk' =>
    Disjoint.mono (hin k hk) (fun _ hx => Or.inr ⟨k', hk', hx⟩) hdisj
  own := fun _ _ hk _ hx => Or.inr ⟨_, hk, hx⟩

/-- When no entry is left, the merge is done. -/
theorem LoopInv.merged (hinv : LoopInv h fpI fpO inPart o h₁ cur part []) (ho : o ∈ fpO) :
    Merged h fpI fpO (.dict o) (.obj cur) h₁ where
  tree := by
    refine ⟨_, ?_, hinv.dict.isTree⟩
    rintro x (rfl | ⟨k, hk, hx⟩)
    · exact Or.inr ho
    · exact hinv.within k hk hx
  frame := hinv.frame

/-- **One turn keeps the invariant.** -/
theorem LoopInv.step {nested : Heap → ℕ → Ref → Except MergeFault Heap} {k : String}
    {v val' : Json} {r : Ref} (hinv : LoopInv h fpI fpO inPart o h₁ cur part ((k, v) :: rest))
    (hin : DictAt h i input inPart) (hfpI : ∀ k ∈ input.map Prod.fst, inPart k ⊆ fpI)
    (ho : o ∈ fpO) (hdisj : Disjoint fpI fpO) (hrest : (k, v) :: rest <:+ input)
    (hr : (h i).lookup k = some r) (hnested : Merges nested v) (hset : SetsTo k v cur val') :
    ∃ h₂ part', mergeEntry nested (.dict o) k r h₁ = .ok h₂ ∧
      LoopInv h fpI fpO inPart o h₂ (setItem k val' cur) part' rest := by
  have hmem : (k, v) ∈ input := hrest.subset List.mem_cons_self
  have hkey : k ∈ input.map Prod.fst := List.mem_map_of_mem hmem
  have hk : k ∈ ((k, v) :: rest).map Prod.fst := List.mem_cons_self
  have hval : IsTree h₁ v r (inPart k) := by
    apply (hin.vals k v r (lookup_of_mem hin.nodup hmem) hr).frame
    intro x hx
    exact hinv.frame x (Set.disjoint_left.1 hdisj (hfpI k hkey hx))
  have hnot : o ∉ inPart k := fun hx => Set.disjoint_left.1 hdisj (hfpI k hkey hx) ho
  obtain ⟨h₂, fp, hrun, hdict, hfp, hframe⟩ :=
    mergeEntry_merges hinv.dict hval hnot (hinv.waiting k hk) hnested hset
  refine ⟨h₂, _, hrun, hdict, ?_, ?_, ?_, ?_⟩
  · intro x hx
    rw [hframe x (fun heq => hx (heq ▸ ho)) (fun hcur hpart => hx (hinv.own k hk hcur hpart)),
      hinv.frame x hx]
  · intro k' hk' x hx
    by_cases hkk : k' = k
    · subst hkk
      rw [Function.update_self] at hx
      rcases hfp x hx with hx | ⟨hcur, hx⟩
      · exact Or.inl (hfpI _ hkey hx)
      · exact hinv.within _ hcur hx
    · rw [Function.update_of_ne hkk] at hx
      exact hinv.within k' (mem_keys_of_mem_setItem hk' hkk) hx
  · intro k₂ hk₂ k' hk'
    have hne : k₂ ≠ k := ne_of_mem_rest hin.nodup hrest hk₂
    have hk₂' : k₂ ∈ input.map Prod.fst :=
      (List.map_subset _ hrest.subset) (List.mem_cons_of_mem _ hk₂)
    by_cases hkk : k' = k
    · subst hkk
      rw [Function.update_self, Set.disjoint_right]
      intro x hx
      rcases hfp x hx with hx | ⟨hcur, hx⟩
      · exact Set.disjoint_right.1 (hin.apart k₂ hk₂' _ hkey hne) hx
      · exact Set.disjoint_right.1 (hinv.waiting k₂ (List.mem_cons_of_mem _ hk₂) _ hcur) hx
    · rw [Function.update_of_ne hkk]
      exact hinv.waiting k₂ (List.mem_cons_of_mem _ hk₂) k' (mem_keys_of_mem_setItem hk' hkk)
  · intro k₂ hk₂ hcur
    have hne : k₂ ≠ k := ne_of_mem_rest hin.nodup hrest hk₂
    rw [Function.update_of_ne hne]
    exact hinv.own k₂ (List.mem_cons_of_mem _ hk₂) (mem_keys_of_mem_setItem hcur hne)

/-- **The loop.**  The input is not written, so its iterator goes on from entry to entry. -/
theorem mergeLoop_merges {nested : Heap → ℕ → Ref → Except MergeFault Heap}
    (hin : DictAt h i input inPart) (hfpI : ∀ k ∈ input.map Prod.fst, inPart k ⊆ fpI)
    (hi : i ∉ fpO) (ho : o ∈ fpO) (hdisj : Disjoint fpI fpO)
    (hnested : ∀ e ∈ input, Merges nested e.2) (merged : Json) :
    ∀ (rest : Fields) (refs : List (String × Ref)) (h₁ : Heap) (cur : Fields)
      (part : String → Set ℕ), rest <:+ input → refs <:+ h i →
      refs.map Prod.fst = rest.map Prod.fst → LoopInv h fpI fpO inPart o h₁ cur part rest →
      deepUpdate rest (.obj cur) = .ok merged →
      ∃ h', mergeLoop nested i (.dict o) (h i).length refs.length h₁ = .ok h' ∧
        Merged h fpI fpO (.dict o) merged h' := by
  intro rest
  induction rest with
  | nil =>
    intro refs h₁ cur part _ _ hkeys hinv hmerge
    rw [List.map_nil, List.map_eq_nil_iff] at hkeys
    rw [deepUpdate_nil] at hmerge
    obtain rfl := Except.ok.inj hmerge
    subst hkeys
    refine ⟨h₁, mergeLoop_nil ?_, hinv.merged ho⟩
    rw [hinv.frame i hi]
  | cons e rest ih =>
    intro refs h₁ cur part hrest hrefs hkeys hinv hmerge
    obtain ⟨k, v⟩ := e
    cases refs with
    | nil => exact absurd hkeys (by simp)
    | cons e' refs =>
      obtain ⟨k', r⟩ := e'
      rw [List.map_cons, List.map_cons, List.cons.injEq] at hkeys
      obtain ⟨rfl, hkeys⟩ := hkeys
      obtain ⟨fields, val', hfields, hset, hmerge⟩ := deepUpdate_cons.1 hmerge
      cases hfields
      have hnodup : ((h i).map Prod.fst).Nodup := hin.keys ▸ hin.nodup
      have hr : (h i).lookup k' = some r :=
        lookup_of_mem hnodup (hrefs.subset List.mem_cons_self)
      have hmem : (k', v) ∈ input := hrest.subset List.mem_cons_self
      obtain ⟨h₂, part', hrun, hinv'⟩ :=
        hinv.step hin hfpI ho hdisj hrest hr (hnested _ hmem) hset
      have hsame : h₁ i = h i := hinv.frame i hi
      obtain ⟨h', hloop, hmerged⟩ := ih refs h₂ _ part' ((List.suffix_cons _ rest).trans hrest)
        ((List.suffix_cons _ refs).trans hrefs) hkeys hinv' hmerge
      refine ⟨h', ?_, hmerged⟩
      rw [List.length_cons, mergeLoop_cons (by rw [hsame]) (by rw [hsame]; exact hrefs), hrun]
      exact hloop

end Inv

/-- **`deep_update` in place merges values.**  The fuel covers the nesting of the input. -/
theorem merges_mergeAt : ∀ (fuel : ℕ) (v : Json), v.depth ≤ fuel → Merges (mergeAt fuel) v := by
  intro fuel
  induction fuel with
  | zero =>
    rintro v hfuel h i o fpI fpO input w merged rfl
    rw [depth_obj] at hfuel
    exact absurd hfuel (Nat.not_succ_le_zero _)
  | succ fuel ih =>
    rintro v hfuel h i o fpI fpO input w merged rfl hin hout hdisj hmerge
    rw [depth_obj] at hfuel
    have hvals := fieldsDepth_le_iff.1 (Nat.le_of_succ_le_succ hfuel)
    obtain ⟨i, inPart, hi, rfl, hdict⟩ := hin.dictAt
    cases hi
    rw [mergeAt]
    by_cases hobj : ∃ g, w = .obj g
    · obtain ⟨output, rfl⟩ := hobj
      obtain ⟨o, part, rfl, rfl, hdict'⟩ := hout.dictAt
      have hin' : ∀ k ∈ input.map Prod.fst, inPart k ⊆ foot i (input.map Prod.fst) inPart :=
        fun k hk x hx => Or.inr ⟨k, hk, hx⟩
      exact mergeLoop_merges hdict hin' (Set.disjoint_left.1 hdisj (Or.inl rfl)) (Or.inl rfl) hdisj
        (fun e he => ih e.2 (hvals e he)) merged input (h i) h output part List.suffix_rfl
        List.suffix_rfl hdict.keys (LoopInv.start hdict' hin' hdisj) hmerge
    · -- only an empty input can be merged into what is no dictionary
      cases input with
      | nil =>
        rw [deepUpdate_nil] at hmerge
        obtain rfl := Except.ok.inj hmerge
        have hempty : h i = [] := List.map_eq_nil_iff.1 hdict.keys
        refine ⟨h, ?_, ⟨_, Set.subset_union_right, hout⟩, fun _ _ => rfl⟩
        rw [hempty]
        exact mergeLoop_nil (by rw [hempty])
      | cons e input =>
        obtain ⟨k, v⟩ := e
        obtain ⟨fields, -, rfl, -⟩ := deepUpdate_cons.1 hmerge
        exact absurd ⟨fields, rfl⟩ hobj

/-! ## The same dictionary again -/

/-- **An input that is in the output already.**  It may share dictionaries with the output, as
it does after a merge: nothing is written. -/
theorem mergeAt_laid : ∀ (fuel : ℕ) {h : Heap} {i : ℕ} {o : Ref} {fpI fpO : Set ℕ}
    {input : Fields} {w : Json}, (Json.obj input).depth ≤ fuel →
    IsTree h (.obj input) (.dict i) fpI → IsTree h w o fpO → Compatible (.obj input) w →
    (Json.obj input).over w = w → mergeAt fuel h i o = .ok h := by
  intro fuel
  induction fuel with
  | zero =>
    intro h i o fpI fpO input w hfuel
    rw [depth_obj] at hfuel
    exact absurd hfuel (Nat.not_succ_le_zero _)
  | succ fuel ih =>
    intro h i o fpI fpO input w hfuel hin hout hcompat hlaid
    rw [depth_obj] at hfuel
    have hvals := fieldsDepth_le_iff.1 (Nat.le_of_succ_le_succ hfuel)
    obtain ⟨output, rfl⟩ := hcompat.obj
    obtain ⟨i, inPart, hi, -, hdict⟩ := hin.dictAt
    cases hi
    obtain ⟨o, part, rfl, -, hdict'⟩ := hout.dictAt
    rw [over_obj, Json.obj.injEq] at hlaid
    rw [mergeAt]
    refine mergeLoop_same ?_ (h i) List.suffix_rfl
    rintro ⟨k, r⟩ he
    have hr : (h i).lookup k = some r := lookup_of_mem (hdict.keys ▸ hdict.nodup) he
    obtain ⟨v, hv⟩ : ∃ v, input.lookup k = some v := by
      apply Option.isSome_iff_exists.1
      rw [lookup_isSome_iff, ← hdict.keys]
      exact List.mem_map_of_mem he
    have hval := hdict.vals k v r hv hr
    -- the output has the key, and there the value over which this one was laid
    obtain ⟨w, hw, hover⟩ : ∃ w, output.lookup k = some w ∧ v.over w = w := by
      have hlook := lookup_overlay hdict.nodup (g := output) k
      rw [hlaid, hv] at hlook
      cases hw : output.lookup k with
      | none =>
        rw [hw] at hlook
        cases hlook
      | some w =>
        rw [hw] at hlook
        exact ⟨w, rfl, (Option.some.inj hlook).symm⟩
    obtain ⟨r', hr', hw'⟩ := hdict'.lookup hw
    rw [mergeEntry, hr']
    by_cases hobj : ∃ f, v = .obj f
    · obtain ⟨f, rfl⟩ := hobj
      obtain ⟨a, -, rfl, -⟩ := hval.dictAt
      exact ih (hvals _ (mem_of_lookup hv)) hval hw' (hcompat.lookup hv hw) hover
    · have hleaf := not_exists.1 hobj
      rw [over_of_not_obj hleaf] at hover
      subst hover
      obtain ⟨rfl, -⟩ := hval.leaf_eq hleaf
      obtain ⟨rfl, -⟩ := hw'.leaf_eq hleaf
      exact congrArg Except.ok (h.set_of_lookup hr')

/-! ## Several merges -/

/-- A dictionary that was parsed: its value, where it is kept, and the addresses it takes. -/
structure Placed where
  input : Fields
  addr : ℕ
  foot : Set ℕ

/-- `update`, once for each input, with the same output. -/
def mergeAll (fuel : ℕ) (o : Ref) (h : Heap) (inputs : List Placed) : Except MergeFault Heap :=
  inputs.foldlM (fun h x => mergeAt fuel h x.addr o) h

/-- The inputs are in the heap, share nothing with each other and with the output. -/
structure Apart (fuel : ℕ) (h : Heap) (fpO : Set ℕ) (inputs : List Placed) : Prop where
  tree : ∀ x ∈ inputs, IsTree h (.obj x.input) (.dict x.addr) x.foot
  disjoint : ∀ x ∈ inputs, Disjoint x.foot fpO
  pairwise : inputs.Pairwise fun x y => Disjoint x.foot y.foot
  depth : ∀ x ∈ inputs, (Json.obj x.input).depth ≤ fuel

/-- What is left is apart from what the first merge has made. -/
theorem Apart.tail {fuel : ℕ} {h h' : Heap} {fpO fp : Set ℕ} {x : Placed} {inputs : List Placed}
    (hapart : Apart fuel h fpO (x :: inputs)) (hfp : fp ⊆ x.foot ∪ fpO)
    (hframe : ∀ a ∉ fpO, h' a = h a) : Apart fuel h' fp inputs where
  tree := by
    intro y hy
    apply (hapart.tree y (List.mem_cons_of_mem _ hy)).frame
    intro a ha
    exact hframe a (Set.disjoint_left.1 (hapart.disjoint y (List.mem_cons_of_mem _ hy)) ha)
  disjoint := by
    intro y hy
    apply Disjoint.mono_right hfp
    exact Set.disjoint_union_right.2 ⟨((List.pairwise_cons.1 hapart.pairwise).1 y hy).symm,
      hapart.disjoint y (List.mem_cons_of_mem _ hy)⟩
  pairwise := (List.pairwise_cons.1 hapart.pairwise).2
  depth := fun y hy => hapart.depth y (List.mem_cons_of_mem _ hy)

/-- **A run of updates in place merges values.**  Later merges write into dictionaries of
earlier inputs, which are part of the output by then; what comes out is as if every merge had
made new dictionaries. -/
theorem mergeAll_merges {fuel : ℕ} {o : Ref} (inputs : List Placed) :
    ∀ {h : Heap} {w merged : Json} {fpO : Set ℕ}, IsTree h w o fpO → Apart fuel h fpO inputs →
      inputs.foldlM (fun w x => deepUpdate x.input w) w = .ok merged →
      ∃ h' fp, mergeAll fuel o h inputs = .ok h' ∧ IsTree h' merged o fp ∧
        (∀ a ∈ fp, a ∈ fpO ∨ ∃ x ∈ inputs, a ∈ x.foot) ∧
        ∀ a ∉ fpO, (∀ x ∈ inputs, a ∉ x.foot) → h' a = h a := by
  induction inputs with
  | nil =>
    intro h w merged fpO hout _ hmerge
    obtain rfl := Except.ok.inj hmerge
    exact ⟨h, fpO, rfl, hout, fun a ha => Or.inl ha, fun _ _ _ => rfl⟩
  | cons x inputs ih =>
    intro h w merged fpO hout hapart hmerge
    rw [List.foldlM_cons, bind_eq_ok] at hmerge
    obtain ⟨w', hfirst, hrest⟩ := hmerge
    obtain ⟨h₁, hrun, ⟨fp₁, hfp₁, htree⟩, hframe⟩ :=
      merges_mergeAt fuel _ (hapart.depth x List.mem_cons_self) h x.addr o x.foot fpO x.input w w'
        rfl (hapart.tree x List.mem_cons_self) hout (hapart.disjoint x List.mem_cons_self) hfirst
    obtain ⟨h', fp, hrun', htree', hfp, hframe'⟩ := ih htree (hapart.tail hfp₁ hframe) hrest
    refine ⟨h', fp, ?_, htree', ?_, ?_⟩
    · rw [mergeAll, List.foldlM_cons, hrun]
      exact hrun'
    · intro a ha
      rcases hfp a ha with ha | ⟨y, hy, ha⟩
      · rcases hfp₁ ha with ha | ha
        · exact Or.inr ⟨x, List.mem_cons_self, ha⟩
        · exact Or.inl ha
      · exact Or.inr ⟨y, List.mem_cons_of_mem _ hy, ha⟩
    · intro a haO ha
      have hne : a ∉ fp₁ := by
        intro hin
        rcases hfp₁ hin with hin | hin
        · exact ha x List.mem_cons_self hin
        · exact haO hin
      rw [hframe' a hne fun y hy => ha y (List.mem_cons_of_mem _ hy), hframe a haO]

/-- An output, and two inputs of which each has a dictionary in it. -/
def threeDicts : Heap
  | 0 => [("unix", .leaf (.str ""))]
  | 1 => [("dpdk", .dict 2)]
  | 2 => [("dev", .leaf (.str "default"))]
  | 3 => [("dpdk", .dict 4)]
  | 4 => [("no-pci", .leaf (.str ""))]
  | _ => []

theorem threeDicts_output : IsTree threeDicts (.obj [("unix", .str "")]) (.dict 0)
    (foot 0 ["unix"] fun _ => ∅) :=
  .flat (by simp) (by simp) rfl

theorem threeDicts_first : IsTree threeDicts (.obj [("dpdk", .obj [("dev", .str "default")])])
    (.dict 1) (foot 1 ["dpdk"] fun _ => foot 2 ["dev"] fun _ => ∅) :=
  .single (.flat (by simp) (by simp) rfl) rfl (by simp [foot])

theorem threeDicts_second : IsTree threeDicts (.obj [("dpdk", .obj [("no-pci", .str "")])])
    (.dict 3) (foot 3 ["dpdk"] fun _ => foot 4 ["no-pci"] fun _ => ∅) :=
  .single (.flat (by simp) (by simp) rfl) rfl (by simp [foot])

/-- The two inputs. -/
def twoInputs : List Placed :=
  [⟨[("dpdk", .obj [("dev", .str "default")])], 1,
      foot 1 ["dpdk"] fun _ => foot 2 ["dev"] fun _ => ∅⟩,
    ⟨[("dpdk", .obj [("no-pci", .str "")])], 3,
      foot 3 ["dpdk"] fun _ => foot 4 ["no-pci"] fun _ => ∅⟩]

theorem twoInputs_apart : Apart 2 threeDicts (foot 0 ["unix"] fun _ => ∅) twoInputs where
  tree := by simp [twoInputs, threeDicts_first, threeDicts_second]
  disjoint := by simp [twoInputs, foot]
  pairwise := by
    simp only [twoInputs, List.pairwise_cons, List.mem_singleton, forall_eq, Set.disjoint_left]
    simp [foot]
  depth := by simp [twoInputs, Json.depth, fieldsDepth]

/-- The second merge writes into the dictionary that was in the first input. -/
theorem mergeAll_merges_two : ∃ h' fp, mergeAll 2 (.dict 0) threeDicts twoInputs = .ok h' ∧
    IsTree h' (.obj [("unix", .str ""), ("dpdk", .obj [("dev", .str "default"),
      ("no-pci", .str "")])]) (.dict 0) fp := by
  obtain ⟨h', fp, hrun, htree, -⟩ :=
    mergeAll_merges twoInputs threeDicts_output twoInputs_apart rfl
  exact ⟨h', fp, hrun, htree⟩

/-! ## The laws, in place -/

/-- The merge of compatible dictionaries, in place. -/
theorem mergeAt_overlay {fuel : ℕ} {h : Heap} {i : ℕ} {o : Ref} {fpI fpO : Set ℕ}
    {input output : Fields} (hfuel : (Json.obj input).depth ≤ fuel)
    (hin : IsTree h (.obj input) (.dict i) fpI) (hout : IsTree h (.obj output) o fpO)
    (hdisj : Disjoint fpI fpO) (hcompat : Compatible (.obj input) (.obj output)) :
    ∃ h', mergeAt fuel h i o = .ok h' ∧ Merged h fpI fpO o (.obj (overlay input output)) h' :=
  merges_mergeAt fuel _ hfuel h i o fpI fpO input _ _ rfl hin hout hdisj
    (deepUpdate_eq_overlay hin.distinctKeys hcompat)

/-- **The merge in place is an overlay.**  It returns, and the output stands for the overlay.
Merging the same dictionary again, which is a part of the output now, writes nothing; and with a
third dictionary, merging `a` and then `b` into the output makes of it what merging `b` into `a`
and that into the output does. -/
theorem mergeAt_overlays {fuel : ℕ} {h : Heap} {a o : ℕ} {fpA fpO : Set ℕ}
    {input output : Fields} (hfuel : (Json.obj input).depth ≤ fuel)
    (hin : IsTree h (.obj input) (.dict a) fpA) (hout : IsTree h (.obj output) (.dict o) fpO)
    (hdisj : Disjoint fpA fpO) (hcompat : Compatible (.obj input) (.obj output)) :
    ∃ h' fp, mergeAt fuel h a (.dict o) = .ok h' ∧
      IsTree h' (.obj (overlay input output)) (.dict o) fp ∧ (∀ x ∉ fpO, h' x = h x) ∧
      mergeAt fuel h' a (.dict o) = .ok h' ∧
      ∀ (third : Fields) (b : ℕ) (fpB : Set ℕ), IsTree h (.obj third) (.dict b) fpB →
        Disjoint fpB fpA → Disjoint fpB fpO → Compatible (.obj third) (.obj input) →
        Compatible (.obj third) (.obj output) → (Json.obj third).depth ≤ fuel →
        ∃ result h₁ h₂ h₃ fp₁ fp₃, mergeAt fuel h' b (.dict o) = .ok h₁ ∧
          IsTree h₁ (.obj result) (.dict o) fp₁ ∧ mergeAt fuel h b (.dict a) = .ok h₂ ∧
          mergeAt fuel h₂ a (.dict o) = .ok h₃ ∧ IsTree h₃ (.obj result) (.dict o) fp₃ := by
  obtain ⟨h', hrun, ⟨fp, hfp, htree⟩, hframe⟩ := mergeAt_overlay hfuel hin hout hdisj hcompat
  have hinD := hin.distinctKeys
  have houtD := hout.distinctKeys
  -- the input has not been written
  have hin' : IsTree h' (.obj input) (.dict a) fpA :=
    hin.frame fun x hx => hframe x (Set.disjoint_left.1 hdisj hx)
  refine ⟨h', fp, hrun, htree, hframe, ?_, ?_⟩
  · have hagain := Compatible.over_right hinD hcompat (Compatible.refl _) hcompat
    have hidem := over_idem (.obj input) hinD houtD
    rw [over_obj] at hagain hidem
    exact mergeAt_laid fuel hfuel hin' htree hagain hidem
  · intro third b fpB hb hBA hBO hbin hbout hfuelB
    have hbD := hb.distinctKeys
    have hb' : IsTree h' (.obj third) (.dict b) fpB :=
      hb.frame fun x hx => hframe x (Set.disjoint_left.1 hBO hx)
    have hafter := Compatible.over_right hinD hcompat hbin hbout
    have hboth := Compatible.over_left hbD hcompat hbin hbout
    have hassoc := over_over (.obj third) hbD hinD houtD hcompat hbin hbout
    have hdepth := depth_over_le (.obj third) hbD hinD hfuelB hfuel
    simp only [over_obj] at hafter hboth hassoc hdepth
    have hBfp : Disjoint fpB fp := Disjoint.mono_right hfp (Set.disjoint_union_right.2 ⟨hBA, hBO⟩)
    obtain ⟨h₁, hrun₁, ⟨fp₁, -, htree₁⟩, -⟩ := mergeAt_overlay hfuelB hb' htree hBfp hafter
    obtain ⟨h₂, hrun₂, ⟨fp₂, hfp₂, htree₂⟩, hframe₂⟩ := mergeAt_overlay hfuelB hb hin hBA hbin
    have hout₂ : IsTree h₂ (.obj output) (.dict o) fpO :=
      hout.frame fun x hx => hframe₂ x (Set.disjoint_right.1 hdisj hx)
    have hdisj₂ : Disjoint fp₂ fpO :=
      Disjoint.mono_left hfp₂ (Set.disjoint_union_left.2 ⟨hBO, hdisj⟩)
    obtain ⟨h₃, hrun₃, ⟨fp₃, -, htree₃⟩, -⟩ := mergeAt_overlay hdepth htree₂ hout₂ hdisj₂ hboth
    have hsame : overlay (overlay third input) output = overlay third (overlay input output) :=
      (Json.obj.inj hassoc).symm
    rw [hsame] at htree₃
    exact ⟨overlay third (overlay input output), h₁, h₂, h₃, fp₁, fp₃, hrun₁, htree₁, hrun₂,
      hrun₃, htree₃⟩

/-- What has only the key `dpdk` fits what has only the key `unix`. -/
theorem compatible_dpdk_unix (v w : Json) :
    Compatible (.obj [("dpdk", v)]) (.obj [("unix", w)]) := by
  apply compatible_obj
  intro k v' w' hv hw
  obtain ⟨rfl, rfl⟩ := Prod.mk.inj (List.mem_singleton.1 (mem_of_lookup hv))
  cases hw

/-- The two inputs fit: both have a dictionary under `dpdk`, with different keys. -/
theorem compatible_second_first : Compatible (.obj [("dpdk", .obj [("no-pci", .str "")])])
    (.obj [("dpdk", .obj [("dev", .str "default")])]) := by
  apply compatible_obj
  intro k v w hv hw
  obtain ⟨rfl, rfl⟩ := Prod.mk.inj (List.mem_singleton.1 (mem_of_lookup hv))
  obtain ⟨-, rfl⟩ := Prod.mk.inj (List.mem_singleton.1 (mem_of_lookup hw))
  apply compatible_obj
  intro k v w hv hw
  obtain ⟨rfl, rfl⟩ := Prod.mk.inj (List.mem_singleton.1 (mem_of_lookup hv))
  cases hw

/-- The first input into the output, and again; and the second on top of that, or into the first
before. -/
theorem mergeAt_overlays_three : ∃ h' result h₁ h₂ h₃ fp₁ fp₃,
    mergeAt 2 threeDicts 1 (.dict 0) = .ok h' ∧ mergeAt 2 h' 1 (.dict 0) = .ok h' ∧
    mergeAt 2 h' 3 (.dict 0) = .ok h₁ ∧ IsTree h₁ (.obj result) (.dict 0) fp₁ ∧
    mergeAt 2 threeDicts 3 (.dict 1) = .ok h₂ ∧ mergeAt 2 h₂ 1 (.dict 0) = .ok h₃ ∧
    IsTree h₃ (.obj result) (.dict 0) fp₃ := by
  have hdepth : (Json.obj [("dpdk", .obj [("dev", .str "default")])]).depth ≤ 2 := by
    simp [Json.depth, fieldsDepth]
  have hdepth' : (Json.obj [("dpdk", .obj [("no-pci", .str "")])]).depth ≤ 2 := by
    simp [Json.depth, fieldsDepth]
  obtain ⟨h', -, hrun, -, -, hagain, hthird⟩ := mergeAt_overlays hdepth threeDicts_first
    threeDicts_output (by simp [foot]) (compatible_dpdk_unix _ _)
  obtain ⟨result, h₁, h₂, h₃, fp₁, fp₃, hrun₁, htree₁, hrun₂, hrun₃, htree₃⟩ :=
    hthird _ 3 _ threeDicts_second (by simp [foot, Set.disjoint_left]) (by simp [foot])
      compatible_second_first (compatible_dpdk_unix _ _) hdepth'
  exact ⟨h', result, h₁, h₂, h₃, fp₁, fp₃, hrun, hagain, hrun₁, htree₁, hrun₂, hrun₃, htree₃⟩

end VppCfg
