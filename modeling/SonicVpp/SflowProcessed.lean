/-
# The processed counter

`read_node_counters` adds up the pools of all samplers to say how many packets the node
has processed.  But a pool counts since its sampler was last reset, and the control plane
resets samplers that have counted.  `processed_counts_iff` says that the counter is right
all along a history exactly if this does not happen.
-/
import SonicVpp.SflowControl

open RunInvariant

namespace Sflow

section Processed

variable {α : Type} {n : ℕ} (up : SflowUpstream α)

/-! ## The counter -/

/-- The pool of a sampler, 0 if it is filled with zeros. -/
def PerThreadData.pool (sfwk : PerThreadData) (hw : ℕ) : ℕ :=
  match sfwk.perInterface hw with
  | none => 0
  | some smpif => smpif.pool.toNat

/-- `SFLOW_ERROR_PROCESSED` in `read_node_counters`. -/
def sflowErrorProcessed (s : SflowState n) : ℕ :=
  ∑ t : Fin n, ∑ i ∈ Finset.range (s.perThreadData t).vecLen, (s.perThreadData t).pool i

/-- Only samplers that have counted nothing are reset. -/
def ResetsUncounted (s : SflowState n) (e : SflowEvent α n) : Prop :=
  ∀ hw, Resets up s e hw → ∀ t, (s.perThreadData t).pool hw = 0

/-- The vectors may be read further than they go. -/
theorem sflowErrorProcessed_eq {s : SflowState n} (hs : ControlOk s) {bound : ℕ}
    (hbound : ∀ t, (s.perThreadData t).vecLen ≤ bound) :
    sflowErrorProcessed s
      = ∑ t : Fin n, ∑ i ∈ Finset.range bound, (s.perThreadData t).pool i := by
  unfold sflowErrorProcessed
  apply Finset.sum_congr rfl
  intro t _
  apply Finset.sum_subset (Finset.range_subset_range.2 (hbound t))
  intro i _ hi
  have hnone := hs.covered t i (not_lt.1 fun h => hi (Finset.mem_range.2 h))
  simp only [PerThreadData.pool, hnone]

/-- Both vectors of two states end somewhere. -/
theorem exists_bound (s s' : SflowState n) : ∃ bound, (∀ t, (s.perThreadData t).vecLen ≤ bound) ∧
    ∀ t, (s'.perThreadData t).vecLen ≤ bound := by
  refine ⟨Finset.univ.sup fun t =>
    max (s.perThreadData t).vecLen (s'.perThreadData t).vecLen, fun t => ?_, fun t => ?_⟩
  · exact (le_max_left _ _).trans (Finset.le_sup (f := fun t =>
      max (s.perThreadData t).vecLen (s'.perThreadData t).vecLen) (Finset.mem_univ t))
  · exact (le_max_right _ _).trans (Finset.le_sup (f := fun t =>
      max (s.perThreadData t).vecLen (s'.perThreadData t).vecLen) (Finset.mem_univ t))

/-- A pool is part of the counter. -/
theorem pool_le {s : SflowState n} (hs : ControlOk s) (t : Fin n) (hw : ℕ) :
    (s.perThreadData t).pool hw ≤ sflowErrorProcessed s := by
  obtain ⟨bound, hbound, -⟩ := exists_bound s s
  rw [sflowErrorProcessed_eq hs (fun t => (hbound t).trans (le_max_left bound (hw + 1)))]
  calc (s.perThreadData t).pool hw
      ≤ ∑ i ∈ Finset.range (max bound (hw + 1)), (s.perThreadData t).pool i :=
        Finset.single_le_sum (f := fun i => (s.perThreadData t).pool i) (fun _ _ => Nat.zero_le _)
          (Finset.mem_range.2 (by omega))
    _ ≤ _ := Finset.single_le_sum
        (f := fun t => ∑ i ∈ Finset.range (max bound (hw + 1)), (s.perThreadData t).pool i)
        (fun _ _ => Nat.zero_le _) (Finset.mem_univ t)

/-! ## Resets -/

/-- The pool of a sampler after an event other than a frame. -/
theorem Reseeded.pool {smp : SflowMain} {R : ℕ → Prop} {d d' : Fin n → PerThreadData}
    (h : Reseeded smp R d d') (t : Fin n) (hw : ℕ) :
    (R hw → (d' t).pool hw = 0) ∧ (¬ R hw → (d' t).pool hw = (d t).pool hw) := by
  constructor
  · intro hR
    simp only [PerThreadData.pool, h.reset t hw hR]
    rfl
  · intro hR
    simp only [PerThreadData.pool, h.keep t hw hR]

/-- **The counter survives an event other than a frame exactly if what is reset has counted
nothing.** -/
theorem sflowErrorProcessed_reset_iff {s : SflowState n} (hs : ControlOk s) {e : SflowEvent α n}
    (he : ∀ t packets, e ≠ .frame t packets) :
    sflowErrorProcessed (sflowStep up s e) = sflowErrorProcessed s ↔ ResetsUncounted up s e := by
  have hre := sflowStep_reseeded up hs he
  obtain ⟨bound, hbound, hbound'⟩ := exists_bound s (sflowStep up s e)
  have hle : ∀ t hw, ((sflowStep up s e).perThreadData t).pool hw ≤ (s.perThreadData t).pool hw := by
    intro t hw
    by_cases hR : Resets up s e hw
    · rw [(hre.pool t hw).1 hR]
      exact Nat.zero_le _
    · exact ((hre.pool t hw).2 hR).le
  rw [sflowErrorProcessed_eq hs hbound, sflowErrorProcessed_eq (controlOk_step up hs e) hbound',
    Finset.sum_eq_sum_iff_of_le fun t _ => Finset.sum_le_sum fun i _ => hle t i]
  constructor
  · intro hall hw hR t
    rcases lt_or_ge hw bound with hlt | hge
    · have hpools := (Finset.sum_eq_sum_iff_of_le fun i _ => hle t i).1 (hall t (Finset.mem_univ t))
      rw [← hpools hw (Finset.mem_range.2 hlt)]
      exact (hre.pool t hw).1 hR
    · -- there is no sampler that far out
      simp only [PerThreadData.pool, hs.covered t hw ((hbound t).trans hge)]
  · intro hzero t _
    apply Finset.sum_congr rfl
    intro hw _
    by_cases hR : Resets up s e hw
    · rw [(hre.pool t hw).1 hR, hzero hw hR t]
    · exact (hre.pool t hw).2 hR

/-! ## Packets -/

/-- The pool of a sampler after a frame that does not wrap it. -/
theorem sflowFrame_pool {s : SflowState n} (hs : ControlOk s) (thread : Fin n) {packets : List α}
    (hsize : sflowErrorProcessed s + (s.given up packets).length < 2 ^ 32) (t : Fin n) (hw : ℕ) :
    ((sflowFrame up s thread packets).perThreadData t).pool hw
      = (s.perThreadData t).pool hw +
        if t = thread ∧ (s.given up packets).head?.map up.hwIf = some hw then
          (s.given up packets).length
        else 0 := by
  have hle := pool_le hs t hw
  unfold PerThreadData.pool at hle ⊢
  rw [sflowFrame_perInterface]
  by_cases hfirst : t = thread ∧ (s.given up packets).head?.map up.hwIf = some hw
  · rw [if_pos hfirst, if_pos hfirst]
    -- the first packet is one of an interface that is sampled, so it has a sampler
    obtain ⟨first, hmem, hhw⟩ := Option.map_eq_some_iff.1 hfirst.2
    have hon : s.enabled hw = true := by
      rw [← hhw]
      exact (List.mem_filter.1 (List.mem_of_mem_head? hmem)).2
    obtain ⟨smpif, hsmp⟩ := hs.sampler hw hon t
    rw [hsmp] at hle ⊢
    simp only [Option.map_some] at hle ⊢
    rw [pool_iterate, BitVec.toNat_add, BitVec.toNat_ofNat, Nat.add_mod_mod]
    exact Nat.mod_eq_of_lt (by omega)
  · rw [if_neg hfirst, if_neg hfirst, Nat.add_zero]

/-- **A frame adds its packets to the counter.** -/
theorem sflowErrorProcessed_frame {s : SflowState n} (hs : ControlOk s) {thread : Fin n}
    {packets : List α} (hsize : sflowErrorProcessed s + (s.given up packets).length < 2 ^ 32) :
    sflowErrorProcessed (sflowFrame up s thread packets)
      = sflowErrorProcessed s + (s.given up packets).length := by
  have hs' : ControlOk (sflowFrame up s thread packets) :=
    controlOk_step up hs (.frame thread packets)
  have hpool := sflowFrame_pool up hs thread hsize
  cases hgiven : s.given up packets with
  | nil =>
    obtain ⟨bound, hbound, hbound'⟩ := exists_bound s (sflowFrame up s thread packets)
    rw [sflowErrorProcessed_eq hs hbound, sflowErrorProcessed_eq hs' hbound', List.length_nil,
      Nat.add_zero]
    apply Finset.sum_congr rfl
    intro t _
    apply Finset.sum_congr rfl
    intro i _
    rw [hpool, hgiven, List.length_nil, ite_self, Nat.add_zero]
  | cons first rest =>
    obtain ⟨b, hb, hb'⟩ := exists_bound s (sflowFrame up s thread packets)
    have hmem : up.hwIf first ∈ Finset.range (max b (up.hwIf first + 1)) :=
      Finset.mem_range.2 (by omega)
    rw [sflowErrorProcessed_eq hs (fun t => (hb t).trans (le_max_left b (up.hwIf first + 1))),
      sflowErrorProcessed_eq hs' (fun t => (hb' t).trans (le_max_left b (up.hwIf first + 1)))]
    -- one thread and one interface get all packets
    have hadded : ∀ t : Fin n, ∑ i ∈ Finset.range (max b (up.hwIf first + 1)),
        (if t = thread ∧ up.hwIf first = i then (first :: rest).length else 0)
        = if t = thread then (first :: rest).length else 0 := by
      intro t
      by_cases ht : t = thread
      · simp only [ht, true_and, if_true]
        rw [Finset.sum_ite_eq, if_pos hmem]
      · simp only [ht, false_and, if_false, Finset.sum_const_zero]
    simp only [hpool, hgiven, List.head?_cons, Option.map_some, Option.some.injEq,
      Finset.sum_add_distrib, hadded, Finset.sum_ite_eq', Finset.mem_univ, if_true]

/-! ## Histories -/

/-- Only frames bring packets. -/
theorem processed_step (s : SflowState n) {e : SflowEvent α n}
    (he : ∀ t packets, e ≠ .frame t packets) : (sflowStep up s e).processed = s.processed := by
  have hbranch := sflowStep_branch up s e
  generalize sflowStep up s e = s' at hbranch
  cases hbranch with
  | @switched i hw enable hi hother =>
    cases enable with
    | true => rfl
    | false => rfl
  | @globalRate samplingN hdyn =>
    obtain ⟨data, heq, -⟩ := setInterfaceSamplingRate_eq up
      (s := { s with samplingN := samplingN, totalThreads := n }) rfl
    rw [heq]
  | globalDirection => rw [sflowDirection_eq]
  | frame => exact absurd rfl (he _ _)
  | _ => rfl

/-- Packets are not taken back. -/
theorem processed_le_step (s : SflowState n) (e : SflowEvent α n) :
    s.processed ≤ (sflowStep up s e).processed := by
  by_cases he : ∃ thread packets, e = .frame thread packets
  · obtain ⟨thread, packets, rfl⟩ := he
    exact Nat.le_add_right _ _
  · exact (processed_step up s fun t p h => he ⟨t, p, h⟩).ge

/-- If there are few packets at the end, there are few all along. -/
theorem processed_lt_of_run {bound : ℕ} :
    ∀ {es : List (SflowEvent α n)} {s : SflowState n},
      (run (sflowStep up) s es).processed < bound →
      s.processed < bound ∧
        Allowed (sflowStep up) (fun s e => (sflowStep up s e).processed < bound) s es := by
  intro es
  induction es with
  | nil => intro s h; exact ⟨h, trivial⟩
  | cons e es ih =>
    intro s h
    obtain ⟨hstep, hrest⟩ := ih (s := sflowStep up s e) h
    exact ⟨(processed_le_step up s e).trans_lt hstep, hstep, hrest⟩

/-- The counter is right after an event exactly if the event resets nothing that has counted. -/
theorem processed_step_iff {s : SflowState n} (hs : ControlOk s)
    (hright : sflowErrorProcessed s = s.processed) {e : SflowEvent α n}
    (hfew : (sflowStep up s e).processed < 2 ^ 32) :
    sflowErrorProcessed (sflowStep up s e) = (sflowStep up s e).processed ↔
      ResetsUncounted up s e := by
  by_cases he : ∃ thread packets, e = .frame thread packets
  · obtain ⟨thread, packets, rfl⟩ := he
    refine iff_of_true ?_ fun hw hR => absurd hR id
    have hprocessed : (sflowStep up s (.frame thread packets)).processed
        = s.processed + (s.given up packets).length := rfl
    rw [hprocessed] at hfew ⊢
    rw [← hright] at hfew ⊢
    exact sflowErrorProcessed_frame up hs hfew
  · rw [processed_step up s fun t p h => he ⟨t, p, h⟩, ← hright]
    exact sflowErrorProcessed_reset_iff up hs fun t p h => he ⟨t, p, h⟩

/-- **The processed counter counts the packets all along a history exactly if no sampler that
has counted is reset.**  It then never decreases. -/
theorem processed_counts_iff (samplingN samplingD dropM : BitVec 32) {es : List (SflowEvent α n)}
    (hfew : (run (sflowStep up) (SflowState.init n samplingN samplingD dropM) es).processed
      < 2 ^ 32) :
    Allowed (sflowStep up) (fun s e =>
        sflowErrorProcessed (sflowStep up s e) = (sflowStep up s e).processed ∧
          sflowErrorProcessed s ≤ sflowErrorProcessed (sflowStep up s e))
        (SflowState.init n samplingN samplingD dropM) es ↔
      Allowed (sflowStep up) (ResetsUncounted up) (SflowState.init n samplingN samplingD dropM) es := by
  have hinit : sflowErrorProcessed (SflowState.init n samplingN samplingD dropM) = 0 := by
    simp [sflowErrorProcessed, SflowState.init]
  refine allowed_iff_of_invariant (sflowStep up)
    (fun s e => (sflowStep up s e).processed < 2 ^ 32)
    (fun s => ControlOk s ∧ sflowErrorProcessed s = s.processed) ?_ ?_
    ⟨controlOk_init samplingN samplingD dropM, hinit⟩ (processed_lt_of_run up hfew).2
  · rintro s e ⟨hs, hright⟩ hlt
    constructor
    · rintro ⟨hcount, -⟩
      exact (processed_step_iff up hs hright hlt).1 hcount
    · intro hreset
      have hcount := (processed_step_iff up hs hright hlt).2 hreset
      refine ⟨hcount, ?_⟩
      rw [hcount, hright]
      exact processed_le_step up s e
  · rintro s e ⟨hs, hright⟩ hlt hreset
    exact ⟨controlOk_step up hs e, (processed_step_iff up hs hright hlt).2 hreset⟩

end Processed

/-- A packet of interface 2, and then a change of its rate. -/
def rateAfterPacketRun : List (SflowEvent ℕ 1) :=
  [.enableDisable 2 true, .frame 0 [20], .samplingRateSet 2 10]

/-- The counter goes back from 1 to 0. -/
theorem rate_change_uncounts :
    sflowErrorProcessed (run (sflowStep allHardware) (SflowState.init 1 1000 1 0)
        [.enableDisable 2 true, .frame 0 [20]]) = 1 ∧
      (run (sflowStep allHardware) (SflowState.init 1 1000 1 0) rateAfterPacketRun).processed = 1 ∧
      sflowErrorProcessed (run (sflowStep allHardware) (SflowState.init 1 1000 1 0)
        rateAfterPacketRun) = 0 := by
  decide

/-- If the rate is set before the packets come, the counter is right. -/
theorem processed_counts_rate_first :
    Allowed (sflowStep allHardware) (fun s e =>
        sflowErrorProcessed (sflowStep allHardware s e) = (sflowStep allHardware s e).processed ∧
          sflowErrorProcessed s ≤ sflowErrorProcessed (sflowStep allHardware s e))
      (SflowState.init 1 1000 1 0)
      [.enableDisable 2 true, .samplingRateSet 2 10, .frame 0 [20, 21]] := by
  have hfew : (run (sflowStep allHardware) (SflowState.init 1 1000 1 0)
      [.enableDisable 2 true, .samplingRateSet 2 10, .frame 0 [20, 21]]).processed < 2 ^ 32 := by
    decide
  refine (processed_counts_iff allHardware 1000 1 0 hfew).2 ⟨?_, ?_, ?_, trivial⟩
  · rintro hw - t
    rfl
  · rintro hw ⟨hhw, -⟩ t
    obtain rfl : 2 = hw := Option.some.inj hhw
    obtain rfl : t = 0 := Subsingleton.elim t 0
    decide
  · exact fun hw hR => absurd hR id

end Sflow
