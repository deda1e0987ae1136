/-
# `deep_update` is an overlay

`ConfigMgr.deep_update` walks through the entries of one dictionary and sets them in
another one, in place, and goes down where both have a dictionary.  As long as it does not
meet something else there, it lays the one over the other (`PyDict.overlay`), and the laws
of overlays are those of the merge.

A subtree of the input becomes part of the output as it is, so the next merge may write into
an earlier input.  No caller reads an input again, and an entry that was set is not visited
in the same merge; so values do here.
-/
import SonicVpp.VppCfg
import SonicVpp.JsonOverlay

open PyDict

namespace VppCfg

/-! ## The merge is an overlay -/

/-- The loop over the entries, where each value is merged as it should be. -/
theorem deepUpdate_eq_overlay_of {input : Fields} (hnodup : (input.map Prod.fst).Nodup)
    (hval : ∀ e ∈ input, ∀ w, Compatible e.2 w → newVal e.2 w = .ok (e.2.over w)) :
    ∀ output : Fields,
      (∀ e ∈ input, ∀ w, output.lookup e.1 = some w → Compatible e.2 w) →
      deepUpdate input (.obj output) = .ok (.obj (overlay input output)) := by
  induction input with
  | nil =>
    intro output _
    rw [deepUpdate_nil, overlay]
  | cons e input ih =>
    intro output hcompat
    rw [List.map_cons, List.nodup_cons] at hnodup
    have hset : SetsTo e.1 e.2 output ((overAt (some e.2) (output.lookup e.1)).getD e.2) := by
      unfold SetsTo
      cases hlook : output.lookup e.1 with
      | none => rfl
      | some w => exact hval e List.mem_cons_self w (hcompat e List.mem_cons_self w hlook)
    rw [overlay_cons]
    refine deepUpdate_cons.2 ⟨output, _, rfl, hset, ?_⟩
    apply ih hnodup.2 fun e' he' => hval e' (List.mem_cons_of_mem _ he')
    intro e' he' w hw
    -- another key: what stands there has not been touched
    have hne : e'.1 ≠ e.1 := by
      intro heq
      exact hnodup.1 (heq ▸ List.mem_map_of_mem he')
    rw [lookup_setItem_of_ne hne] at hw
    exact hcompat e' (List.mem_cons_of_mem _ he') w hw

/-- **A value that is merged is laid over the old one.** -/
theorem newVal_eq_over (val : Json) :
    ∀ outVal : Json, val.DistinctKeys → Compatible val outVal →
      newVal val outVal = .ok (val.over outVal) := by
  induction val using Json.byFields with
  | leaf val hleaf =>
    intro outVal _ _
    rw [newVal_of_not_obj hleaf, over_of_not_obj hleaf]
  | obj input ih =>
    intro outVal hval hcompat
    obtain ⟨output, rfl⟩ := hcompat.obj
    have hfields := (distinctFields_iff input).1 hval.2
    rw [newVal_obj, over_obj]
    refine deepUpdate_eq_overlay_of hval.1 (fun e he w => ih e he w (hfields e he)) output ?_
    intro e he w hw
    exact hcompat.lookup (lookup_of_mem hval.1 he) hw

/-- **The merge is an overlay.** -/
theorem deepUpdate_eq_overlay {input output : Fields} (hin : (Json.obj input).DistinctKeys)
    (hcompat : Compatible (.obj input) (.obj output)) :
    deepUpdate input (.obj output) = .ok (.obj (overlay input output)) := by
  rw [← newVal_obj, newVal_eq_over _ _ hin hcompat, over_obj]

/-! ## The laws of the merge -/

/-- What the merge of `input` into `output` has at each path. -/
structure RightBiased (input output merged : Json) : Prop where
  taken : ∀ p v, input.valueAt p = some v → ((∀ f, v ≠ .obj f) ∨ output.valueAt p = none) →
    merged.valueAt p = some v
  union : ∀ p f g, input.valueAt p = some (.obj f) → output.valueAt p = some (.obj g) →
    ∃ m, merged.valueAt p = some (.obj m) ∧
      ∀ k, k ∈ m.map Prod.fst ↔ k ∈ f.map Prod.fst ∨ k ∈ g.map Prod.fst
  kept : ∀ p, input.valueAt p = none →
    (∀ q, q <+: p → ∀ v, input.valueAt q = some v → ∃ f, v = .obj f) →
    merged.valueAt p = output.valueAt p

/-- Values at paths have distinct keys too. -/
theorem distinctKeys_valueAt {p : List String} :
    ∀ {v u : Json}, v.DistinctKeys → v.valueAt p = some u → u.DistinctKeys := by
  induction p with
  | nil =>
    intro v u hv hu
    rw [valueAt_nil] at hu
    exact Option.some.inj hu ▸ hv
  | cons k p ih =>
    intro v u hv hu
    obtain ⟨f, v', rfl, hlook, hval⟩ := valueAt_cons_eq_some.1 hu
    exact ih (hv.2.lookup hlook) hval

/-- An overlay takes, unites and keeps. -/
theorem rightBiased_over {v w : Json} (hv : v.DistinctKeys) (hcompat : Compatible v w) :
    RightBiased v w (v.over w) where
  taken := by
    intro p u hu hother
    rw [valueAt_over hv hcompat hu]
    rcases hother with hleaf | hnone
    · cases w.valueAt p with
      | none => rfl
      | some x =>
        show some (u.over x) = some u
        rw [over_of_not_obj hleaf]
    · rw [hnone]
      rfl
  union := by
    intro p f g hf hg
    refine ⟨overlay f g, ?_, mem_keys_overlay (distinctKeys_valueAt hv hf).1 g⟩
    rw [valueAt_over hv hcompat hf, hg]
    show some ((Json.obj f).over (.obj g)) = _
    rw [over_obj]
  kept := fun p hnone hpath => valueAt_over_of_none hv hcompat hnone hpath

/-- **Merging is a right-biased recursive overlay.**  A merge of compatible dictionaries does
not fail; it takes what the input has, unites dictionaries and keeps the rest, no key at the
top is lost, and doing it again changes nothing.  And merging a second input `b` into the
result is merging `b` into the first one, and that into the output. -/
theorem deep_update_overlays {input output : Fields} (hin : (Json.obj input).DistinctKeys)
    (hout : (Json.obj output).DistinctKeys) (hcompat : Compatible (.obj input) (.obj output)) :
    ∃ merged, deepUpdate input (.obj output) = .ok (.obj merged) ∧
      RightBiased (.obj input) (.obj output) (.obj merged) ∧
      (∀ k ∈ output.map Prod.fst, k ∈ merged.map Prod.fst) ∧
      deepUpdate input (.obj merged) = .ok (.obj merged) ∧
      ∀ b : Fields, (Json.obj b).DistinctKeys → Compatible (.obj b) (.obj input) →
        Compatible (.obj b) (.obj output) →
        ∃ both result, deepUpdate b (.obj input) = .ok (.obj both) ∧
          deepUpdate b (.obj merged) = .ok (.obj result) ∧
          deepUpdate both (.obj output) = .ok (.obj result) := by
  have hmerged := distinctKeys_over (.obj input) hin hout
  have hagain := Compatible.over_right hin hcompat (Compatible.refl _) hcompat
  have hbiased := rightBiased_over hin hcompat
  rw [over_obj] at hmerged hagain hbiased
  refine ⟨overlay input output, deepUpdate_eq_overlay hin hcompat, hbiased, ?_, ?_, ?_⟩
  · intro k hk
    exact (mem_keys_overlay hin.1 output k).2 (Or.inr hk)
  · have hidem := over_idem (.obj input) hin hout
    rw [over_obj, over_obj] at hidem
    rw [deepUpdate_eq_overlay hin hagain, hidem]
  · intro b hb hbin hbout
    have hboth := Compatible.over_left hb hcompat hbin hbout
    have hresult := Compatible.over_right hin hcompat hbin hbout
    have hdistinct := distinctKeys_over (.obj b) hb hin
    have hassoc := over_over (.obj b) hb hin hout hcompat hbin hbout
    simp only [over_obj] at hboth hresult hdistinct hassoc
    refine ⟨overlay b input, overlay b (overlay input output), deepUpdate_eq_overlay hb hbin,
      deepUpdate_eq_overlay hb hresult, ?_⟩
    rw [deepUpdate_eq_overlay hdistinct hboth, hassoc]

/-- A device is merged into a section that has an option. -/
theorem deep_update_overlays_device :
    ∃ merged, deepUpdate [("dpdk", .obj [("dev", .str "default")])]
        (.obj [("unix", .str ""), ("dpdk", .obj [("no-pci", .str "")])]) = .ok (.obj merged) ∧
      RightBiased (.obj [("dpdk", .obj [("dev", .str "default")])])
        (.obj [("unix", .str ""), ("dpdk", .obj [("no-pci", .str "")])]) (.obj merged) := by
  have hcompat : Compatible (.obj [("dpdk", .obj [("dev", .str "default")])])
      (.obj [("unix", .str ""), ("dpdk", .obj [("no-pci", .str "")])]) := by
    apply compatible_obj
    intro k v w hv hw
    obtain ⟨rfl, rfl⟩ := Prod.mk.injEq .. ▸ List.mem_singleton.1 (mem_of_lookup hv)
    cases hw
    apply compatible_obj
    intro k v w hv hw
    obtain ⟨rfl, rfl⟩ := Prod.mk.injEq .. ▸ List.mem_singleton.1 (mem_of_lookup hv)
    cases hw
  obtain ⟨merged, hmerged, hbiased, -⟩ := deep_update_overlays
    (by simp [Json.DistinctKeys, DistinctFields]) (by simp [Json.DistinctKeys, DistinctFields])
    hcompat
  exact ⟨merged, hmerged, hbiased⟩

end VppCfg
