/-
# Rates and skips

A change of rate has to reseed the samplers, for a skip drawn at a high rate is long at a
low one.  `sflow_enable_disable`, `sflow_set_sampling_rate_set` and the dynamic branch of
`sflow_sampling_rate` do.  The other branch of `sflow_sampling_rate`, which starts and stops
sampling, does not: over a global rate of 0 the old skips are kept.

`skips_fit_run_iff` says that this is the only way in which a skip can exceed its rate, as
long as the rates are below `2 ^ 31`.  Above that the limit of the skips wraps, and
`skips_grow_iff` says that this is where a larger rate no longer means longer skips.
-/
import SonicVpp.SflowControl

open RunInvariant

namespace Sflow

section Rates

variable {α : Type} {n : ℕ} (up : SflowUpstream α)

/-! ## Skips and rates -/

/-- On every thread the skip of each sampled interface with a rate `N` is in `1, …, 2N - 1`. -/
def SkipsFit (s : SflowState n) : Prop :=
  ∀ hw, s.enabled hw = true → (s.rates up).effectiveN hw ≠ 0 → ∀ t, ∃ smpif,
    (s.perThreadData t).perInterface hw = some smpif ∧ 1 ≤ smpif.skip ∧
      smpif.skip ≤ 2 * ((s.rates up).effectiveN hw).toNat - 1

/-- The rates are below `2 ^ 31`, so that `lim` does not wrap. -/
structure SmallRates (s : SflowState n) : Prop where
  samplingN : s.samplingN.toNat < 2 ^ 31
  perInterface : ∀ hw, (s.perInterfaceData hw).samplingN.toNat < 2 ^ 31

/-- The rate that an event sets is below `2 ^ 31`. -/
def SflowEvent.SmallRate : SflowEvent α n → Prop
  | .samplingRateSet _ samplingN => samplingN.toNat < 2 ^ 31
  | .samplingRate samplingN => samplingN.toNat < 2 ^ 31
  | _ => True

/-- A global rate that is set while sampling is off, or was at 0, is not below the skips
that are left over on the interfaces that follow it. -/
def LeftoverFits (s : SflowState n) (e : SflowEvent α n) : Prop :=
  match e with
  | .samplingRate samplingN => s.dynamic samplingN = false → samplingN ≠ 0 →
      ∀ hw, s.FollowsGlobal hw → ∀ t smpif, (s.perThreadData t).perInterface hw = some smpif →
        smpif.skip ≤ 2 * samplingN.toNat - 1
  | _ => True

/-! ## Drawing -/

/-- An effective rate is one of the two. -/
theorem SmallRates.effectiveN {s : SflowState n} (h : SmallRates s) (hw : ℕ) :
    ((s.rates up).effectiveN hw).toNat < 2 ^ 31 := by
  unfold SflowMain.effectiveN
  split
  · exact h.perInterface hw
  · exact h.samplingN

/-- As long as it fits, `lim` is what it says. -/
theorem lim_toNat {N : BitVec 32} (hpos : 1 ≤ N.toNat) (hN : N.toNat ≤ 2 ^ 31) :
    (2 * N - 1).toNat = 2 * N.toNat - 1 := by
  have h1 : (1 : BitVec 32).toNat = 1 := rfl
  have h2 : (2 : BitVec 32).toNat = 2 := rfl
  rw [BitVec.toNat_sub, BitVec.toNat_mul, h1, h2]
  omega

/-- **A drawn skip fits the rate.** -/
theorem sflowNextRandomSkipIf_le {smp : SflowMain} {hw : ℕ} (hN : smp.effectiveN hw ≠ 0)
    (hsmall : (smp.effectiveN hw).toNat < 2 ^ 31) (seed : BitVec 32) :
    (sflowNextRandomSkipIf smp hw seed).1.toNat ≤ 2 * (smp.effectiveN hw).toNat - 1 := by
  have hpos : 0 < (smp.effectiveN hw).toNat := by
    rcases Nat.eq_zero_or_pos (smp.effectiveN hw).toNat with h | h
    · exact absurd (BitVec.eq_of_toNat_eq h) hN
    · exact h
  unfold sflowNextRandomSkipIf
  by_cases hone : smp.effectiveN hw ≤ 1
  · rw [if_pos hone]
    show 1 ≤ _
    omega
  · rw [if_neg hone]
    have hmod := Nat.mod_lt (smp.randomU32 seed).1.toNat (lim_pos (smp.effectiveN hw))
    show ((smp.randomU32 seed).1 % (2 * smp.effectiveN hw - 1) + 1).toNat ≤ _
    rw [draw_toNat]
    rw [lim_toNat hpos hsmall.le] at hmod ⊢
    omega

/-- A packet leaves the skip within the rate. -/
theorem tick_skip_le {smp : SflowMain} {hw : ℕ} (hN : smp.effectiveN hw ≠ 0)
    (hsmall : (smp.effectiveN hw).toNat < 2 ^ 31) {smpif : PerIfSampler}
    (h : smpif.skip ≤ 2 * (smp.effectiveN hw).toNat - 1) :
    (smpif.tick smp hw).skip ≤ 2 * (smp.effectiveN hw).toNat - 1 := by
  unfold PerIfSampler.tick
  by_cases hone : 1 < smpif.skip
  · rw [dif_pos hone]
    show smpif.skip - 1 ≤ _
    omega
  · rw [dif_neg hone]
    exact sflowNextRandomSkipIf_le hN hsmall smpif.seed

/-- And so do any number of packets. -/
theorem tick_iterate_skip_le {smp : SflowMain} {hw : ℕ} (hN : smp.effectiveN hw ≠ 0)
    (hsmall : (smp.effectiveN hw).toNat < 2 ^ 31) {smpif : PerIfSampler}
    (h : smpif.skip ≤ 2 * (smp.effectiveN hw).toNat - 1) (pkts : ℕ) :
    ((PerIfSampler.tick smp hw)^[pkts] smpif).skip ≤ 2 * (smp.effectiveN hw).toNat - 1 := by
  induction pkts with
  | zero => exact h
  | succ pkts ih =>
    rw [Function.iterate_succ_apply']
    exact tick_skip_le hN hsmall ih

/-! ## Events -/

/-- A record that keeps its rate. -/
theorem setRecord_rates (s : SflowState n) (hw : ℕ) (sfif : PerInterfaceData)
    (hrate : sfif.samplingN = (s.perInterfaceData hw).samplingN) :
    (s.setRecord hw sfif).rates up = s.rates up := by
  have hrates : (fun h => ((s.setRecord hw sfif).perInterfaceData h).samplingN)
      = fun h => (s.perInterfaceData h).samplingN := by
    funext h
    show (Function.update s.perInterfaceData hw sfif h).samplingN = _
    rw [Function.update_apply]
    split
    · rename_i hh
      rw [hh, hrate]
    · rfl
  show SflowMain.mk s.samplingN _ up.randomU32 = _
  rw [hrates]
  rfl

/-- **What an event does to the rate of a sampled interface whose samplers it does not
reset**: nothing, but for a global rate that is set in the branch that starts and stops. -/
theorem effectiveN_step {s : SflowState n} (hs : ControlOk s) {e : SflowEvent α n} {hw : ℕ}
    (hon : s.enabled hw = true) (hn : 0 < n) (hR : ¬ Resets up s e hw) :
    ((sflowStep up s e).rates up).effectiveN hw = (s.rates up).effectiveN hw ∨
      ∃ samplingN, e = .samplingRate samplingN ∧ s.dynamic samplingN = false ∧
        s.FollowsGlobal hw ∧ ((sflowStep up s e).rates up).effectiveN hw = samplingN := by
  have hbranch := sflowStep_branch up s e
  generalize sflowStep up s e = s' at hbranch
  cases hbranch with
  | unknownEnable hi => exact Or.inl rfl
  | unknownRate hi => exact Or.inl rfl
  | unknownDirection hi => exact Or.inl rfl
  | wrongDirection hd => exact Or.inl rfl
  | asWanted hi hsame =>
    rw [setRecord_rates up _ _ _ rfl]
    exact Or.inl rfl
  | @switched i h enable hi hother =>
    have hrates := setRecord_rates up s h
      { s.perInterfaceData h with swIfIndex := i, sflowEnabled := enable } rfl
    left
    cases enable with
    | false => exact congrArg (fun smp => SflowMain.effectiveN smp hw) hrates
    | true => exact congrArg (fun smp => SflowMain.effectiveN smp hw) hrates
  | @ownRate i h samplingN hi =>
    -- the samplers of the named interface are reset, for it is sampled
    have hne : hw ≠ h := by
      rintro rfl
      exact hR ⟨hi, by rw [(hs.known hw hon).1]; exact hn.ne'⟩
    left
    show (if (Function.update s.perInterfaceData h _ hw).samplingN ≠ 0 then
      (Function.update s.perInterfaceData h _ hw).samplingN else s.samplingN) = _
    rw [Function.update_of_ne hne]
    rfl
  | @globalRate samplingN hdyn =>
    obtain ⟨data, heq, -⟩ := setInterfaceSamplingRate_eq up
      (s := { s with samplingN := samplingN, totalThreads := n }) rfl
    rw [heq]
    -- an interface with the global rate is reset, so this one has a rate of its own
    have hown : (s.perInterfaceData hw).samplingN ≠ 0 := by
      intro hzero
      exact hR ⟨hdyn, (hs.known hw hon).2, hon, hzero⟩
    left
    show (if (s.perInterfaceData hw).samplingN ≠ 0 then (s.perInterfaceData hw).samplingN
      else samplingN) = if (s.perInterfaceData hw).samplingN ≠ 0 then _ else _
    rw [if_pos hown, if_pos hown]
    rfl
  | @startStop samplingN hdyn =>
    -- starting and stopping sets the global rate and resets nothing
    by_cases hown : (s.perInterfaceData hw).samplingN = 0
    · right
      refine ⟨samplingN, rfl, hdyn, ⟨hon, hown⟩, ?_⟩
      show (if (s.perInterfaceData hw).samplingN ≠ 0 then _ else samplingN) = samplingN
      rw [if_neg (not_not.2 hown)]
    · left
      show (if (s.perInterfaceData hw).samplingN ≠ 0 then (s.perInterfaceData hw).samplingN
        else samplingN) = if (s.perInterfaceData hw).samplingN ≠ 0 then _ else _
      rw [if_pos hown, if_pos hown]
      rfl
  | @ownDirection i h direction hi hd =>
    have hrates := setRecord_rates up s h
      { s.perInterfaceData h with direction := direction } rfl
    exact Or.inl (congrArg (fun smp => SflowMain.effectiveN smp hw) hrates)
  | globalDirection =>
    rw [sflowDirection_eq]
    exact Or.inl rfl
  | frame => exact Or.inl rfl

/-- A record with a small rate. -/
theorem SmallRates.setRecord {s : SflowState n} (h : SmallRates s) (hw : ℕ)
    (sfif : PerInterfaceData) (hsmall : sfif.samplingN.toNat < 2 ^ 31) :
    SmallRates (s.setRecord hw sfif) where
  samplingN := h.samplingN
  perInterface := by
    intro h'
    show (Function.update s.perInterfaceData hw sfif h').samplingN.toNat < 2 ^ 31
    rw [Function.update_apply]
    split
    · exact hsmall
    · exact h.perInterface h'

/-- Small rates stay small. -/
theorem SmallRates.step {s : SflowState n} (h : SmallRates s) {e : SflowEvent α n}
    (he : e.SmallRate) : SmallRates (sflowStep up s e) := by
  have hbranch := sflowStep_branch up s e
  generalize sflowStep up s e = s' at hbranch
  cases hbranch with
  | unknownEnable hi => exact h
  | unknownRate hi => exact h
  | unknownDirection hi => exact h
  | wrongDirection hd => exact h
  | asWanted hi hsame => exact h.setRecord _ _ (h.perInterface _)
  | @switched i hw enable hi hother =>
    -- a record is written with the rate that it had, and then the arcs
    have hrecord := h.setRecord hw
      { s.perInterfaceData hw with swIfIndex := i, sflowEnabled := enable } (h.perInterface hw)
    cases enable with
    | false => exact ⟨hrecord.samplingN, hrecord.perInterface⟩
    | true => exact ⟨hrecord.samplingN, hrecord.perInterface⟩
  | @ownRate i hw samplingN hi =>
    have hrecord := h.setRecord hw { s.perInterfaceData hw with samplingN := samplingN } he
    exact ⟨hrecord.samplingN, hrecord.perInterface⟩
  | @globalRate samplingN hdyn =>
    obtain ⟨data, heq, -⟩ := setInterfaceSamplingRate_eq up
      (s := { s with samplingN := samplingN, totalThreads := n }) rfl
    rw [heq]
    exact ⟨he, h.perInterface⟩
  | startStop hdyn => exact ⟨he, h.perInterface⟩
  | @ownDirection i hw direction hi hd =>
    have hrecord := h.setRecord hw { s.perInterfaceData hw with direction := direction }
      (h.perInterface hw)
    exact ⟨hrecord.samplingN, hrecord.perInterface⟩
  | globalDirection =>
    rw [sflowDirection_eq]
    exact ⟨h.samplingN, h.perInterface⟩
  | frame => exact ⟨h.samplingN, h.perInterface⟩

/-! ## One event -/

/-- The samplers after a frame still fit. -/
theorem SkipsFit.frame {s : SflowState n} (hfit : SkipsFit up s) (hsmall : SmallRates s)
    (thread : Fin n) (packets : List α) : SkipsFit up (sflowFrame up s thread packets) := by
  intro hw hon hN t
  obtain ⟨smpif, hsmp, hpos, hle⟩ := hfit hw hon hN t
  rw [sflowFrame_perInterface, hsmp]
  split
  · refine ⟨_, rfl, PerIfSampler.skip_pos _, ?_⟩
    exact tick_iterate_skip_le hN (hsmall.effectiveN up hw) hle _
  · exact ⟨smpif, rfl, hpos, hle⟩

/-- An event that meets the condition keeps the skips within the rates. -/
theorem SkipsFit.step {s : SflowState n} (hfit : SkipsFit up s) (hs : ControlOk s)
    (hsmall : SmallRates s) {e : SflowEvent α n} (he : e.SmallRate) (hleft : LeftoverFits s e) :
    SkipsFit up (sflowStep up s e) := by
  by_cases hframe : ∃ thread packets, e = .frame thread packets
  · obtain ⟨thread, packets, rfl⟩ := hframe
    exact hfit.frame up hsmall thread packets
  · have hre := sflowStep_reseeded up hs (e := e) fun t p h => hframe ⟨t, p, h⟩
    intro hw hon hN t
    by_cases hR : Resets up s e hw
    · -- drawn at the new rate
      refine ⟨_, hre.reset t hw hR, PerIfSampler.skip_pos _, ?_⟩
      exact sflowNextRandomSkipIf_le hN ((hsmall.step up he).effectiveN up hw) _
    · have hold : s.enabled hw = true :=
        ((sflowStep_enablesWith up s e).enabled hw hon).resolve_right fun h => hR h.1
      rw [hre.keep t hw hR]
      rcases effectiveN_step up hs hold (Nat.zero_lt_of_lt t.isLt) hR with
        hsame | ⟨samplingN, rfl, hdyn, hfollows, hnew⟩
      · rw [hsame] at hN ⊢
        exact hfit hw hold hN t
      · -- kept from before the change of the global rate
        rw [hnew] at hN ⊢
        obtain ⟨smpif, hsmp⟩ := hs.sampler hw hold t
        exact ⟨smpif, hsmp, smpif.skip_pos, hleft hdyn hN hw hfollows t smpif hsmp⟩

/-- And it is met if they are within the rates afterwards. -/
theorem leftoverFits_of_step {s : SflowState n} {e : SflowEvent α n}
    (hfit : SkipsFit up (sflowStep up s e)) : LeftoverFits s e := by
  cases e with
  | samplingRate samplingN =>
    intro hdyn hN hw hfollows t smpif hsmp
    have hstep : sflowStep up s (.samplingRate samplingN)
        = sflowSamplingStartStop up { s with samplingN := samplingN } := by
      show (if s.dynamic samplingN then _ else _) = _
      rw [hdyn, if_neg Bool.false_ne_true]
    have hrate : ((sflowStep up s (.samplingRate samplingN)).rates up).effectiveN hw
        = samplingN := by
      rw [hstep]
      show (if (s.perInterfaceData hw).samplingN ≠ 0 then _ else samplingN) = samplingN
      rw [if_neg (not_not.2 hfollows.2)]
    rw [← hrate] at hN ⊢
    rw [hstep] at hfit hN ⊢
    obtain ⟨smpif', hsmp', -, hle⟩ := hfit hw hfollows.1 hN t
    obtain rfl := Option.some.inj (hsmp.symm.trans hsmp')
    exact hle
  | _ => trivial

/-! ## Runs -/

/-- **Every skip fits its rate all along a history exactly if no change of the global rate
that starts sampling finds a skip that is too long.** -/
theorem skips_fit_run_iff {samplingN : BitVec 32} (hN : samplingN.toNat < 2 ^ 31)
    (samplingD dropM : BitVec 32) {es : List (SflowEvent α n)}
    (hsmall : Allowed (sflowStep up) (fun _ e => e.SmallRate)
      (SflowState.init n samplingN samplingD dropM) es) :
    Allowed (sflowStep up) (fun s e => SkipsFit up (sflowStep up s e))
        (SflowState.init n samplingN samplingD dropM) es ↔
      Allowed (sflowStep up) LeftoverFits (SflowState.init n samplingN samplingD dropM) es := by
  refine allowed_iff_of_invariant (sflowStep up) (fun _ e => e.SmallRate)
    (fun s => ControlOk s ∧ SmallRates s ∧ SkipsFit up s) ?_ ?_ ?_ hsmall
  · rintro s e ⟨hs, hsm, hfit⟩ he
    exact ⟨leftoverFits_of_step up, hfit.step up hs hsm he⟩
  · rintro s e ⟨hs, hsm, hfit⟩ he hleft
    exact ⟨controlOk_step up hs e, hsm.step up he, hfit.step up hs hsm he hleft⟩
  · refine ⟨controlOk_init samplingN samplingD dropM, ⟨hN, fun _ => Nat.two_pow_pos 31⟩, ?_⟩
    intro hw hon
    exact absurd hon Bool.false_ne_true

end Rates

/-- Interface 2 is enabled at the rate 1000, and the global rate goes to 0 and on to 10. -/
def overZeroRun : List (SflowEvent ℕ 1) :=
  [.enableDisable 2 true, .samplingRate 0, .samplingRate 10]

/-- The skip is still that of the rate 1000. -/
theorem skip_kept_over_zero :
    let s := run (sflowStep allHardware) (SflowState.init 1 1000 1 0) overZeroRun
    (s.enabled 2 = true ∧ (s.rates allHardware).effectiveN 2 = 10 ∧
      ((s.perThreadData 0).perInterface 2).map PerIfSampler.skip = some 1502) ∧
    ¬ SkipsFit allHardware s := by
  refine ⟨⟨by decide, by decide, by decide⟩, ?_⟩
  intro hfit
  obtain ⟨smpif, hsmp, -, hle⟩ := hfit 2 (by decide) (by decide) 0
  have hskip := congrArg (Option.map PerIfSampler.skip) hsmp
  have hskip' : some 1502 = some smpif.skip := hskip
  have hlim : smpif.skip ≤ 19 := hle
  have := Option.some.inj hskip'
  omega

/-- Without the 0 in between the samplers are reset, and packets keep the skip in range. -/
theorem skips_fit_run_dynamic :
    Allowed (sflowStep allHardware)
      (fun s e => SkipsFit allHardware (sflowStep allHardware s e))
      (SflowState.init 1 1000 1 0)
      [.enableDisable 2 true, .samplingRate 10, .frame 0 [20, 21]] := by
  have hsmall : Allowed (sflowStep allHardware) (fun _ e => e.SmallRate)
      (SflowState.init 1 1000 1 0)
      [.enableDisable 2 true, .samplingRate 10, .frame 0 [20, 21]] :=
    ⟨trivial, (by decide : (10 : BitVec 32).toNat < 2 ^ 31), trivial, trivial⟩
  refine (skips_fit_run_iff allHardware (by decide) 1 0 hsmall).2 ⟨trivial, ?_, trivial, trivial⟩
  intro hdyn
  exact absurd hdyn (by decide)

/-! ## The limit

`lim` is computed in 32 bits from a rate that no setter bounds. -/

section Limit

variable {α : Type} {n : ℕ} (up : SflowUpstream α)

/-- The rate `N` has just been set for the interface `hw`: its own one, or the global one,
which the interface follows. -/
inductive RateSet (hw : ℕ) (N : BitVec 32) : SflowState n → Prop
  | own {s s' : SflowState n} {i : ℕ} (hi : up.hwIfIndex i = some hw)
      (hset : sflowSetSamplingRateSet up s i N = .ok s') : RateSet hw N s'
  | global {s : SflowState n} (hfollows : (s.perInterfaceData hw).samplingN = 0) :
      RateSet hw N (sflowSamplingRate up s N)

/-- The skips that `sflow_next_random_skip_if` can return. -/
def skips (smp : SflowMain) (hw : ℕ) : Set ℕ :=
  Set.range fun seed => (sflowNextRandomSkipIf smp hw seed).1.toNat

/-- The skips of a rate `N` go up to `2N - 1`, or to the largest number there is, and `lim`
is computed so. -/
structure LimitOk (smp : SflowMain) (hw : ℕ) (N : BitVec 32) : Prop where
  greatest : IsGreatest (skips smp hw) (min (2 * N.toNat - 1) (2 ^ 32 - 1))
  limit : (2 * smp.effectiveN hw - 1).toNat = min (2 * N.toNat - 1) (2 ^ 32 - 1)

/-- What can be drawn at the rate `N` can be drawn at the rate `M`. -/
structure SkipsGrow (smp smp' : SflowMain) (hw hw' : ℕ) (N M : BitVec 32) : Prop where
  subset : skips smp hw ⊆ skips smp' hw'
  low : LimitOk smp hw N
  high : LimitOk smp' hw' M

/-- The setters accept every rate. -/
theorem RateSet.effectiveN {hw : ℕ} {N : BitVec 32} {s : SflowState n} (h : RateSet up hw N s)
    (hN : N ≠ 0) : (s.rates up).effectiveN hw = N := by
  cases h with
  | @own s₀ _ i hi hset =>
    have hstep : sflowStep up s₀ (.samplingRateSet i N) = s := by
      show s₀.after (sflowSetSamplingRateSet up s₀ i N) = s
      rw [hset]
      rfl
    have hbranch := sflowStep_branch up s₀ (.samplingRateSet i N)
    rw [hstep] at hbranch
    cases hbranch with
    | unknownRate hnone => exact absurd (hnone.symm.trans hi) (Option.some_ne_none hw).symm
    | @ownRate _ h _ hi' =>
      obtain rfl := Option.some.inj (hi'.symm.trans hi)
      show (if (Function.update s₀.perInterfaceData h _ h).samplingN ≠ 0 then
        (Function.update s₀.perInterfaceData h _ h).samplingN else s₀.samplingN) = N
      rw [Function.update_self, if_pos hN]
  | @global s₀ hfollows =>
    -- an interface without a rate of its own has the global one, in both branches
    have hrate : (if (s₀.perInterfaceData hw).samplingN ≠ 0 then
        (s₀.perInterfaceData hw).samplingN else N) = N := if_neg (not_not.2 hfollows)
    have hbranch := sflowStep_branch up s₀ (.samplingRate N)
    have hstep : sflowStep up s₀ (.samplingRate N) = sflowSamplingRate up s₀ N := rfl
    rw [hstep] at hbranch
    generalize sflowSamplingRate up s₀ N = s' at hbranch
    cases hbranch with
    | globalRate hdyn =>
      obtain ⟨data, heq, -⟩ := setInterfaceSamplingRate_eq up
        (s := { s₀ with samplingN := N, totalThreads := n }) rfl
      rw [heq]
      exact hrate
    | startStop hdyn => exact hrate

/-- Above `2 ^ 31` it wraps. -/
theorem lim_toNat_wraps {N : BitVec 32} (hN : 2 ^ 31 < N.toNat) :
    (2 * N - 1).toNat = 2 * N.toNat - 1 - 2 ^ 32 := by
  have h1 : (1 : BitVec 32).toNat = 1 := rfl
  have h2 : (2 : BitVec 32).toNat = 2 := rfl
  have hlt := N.isLt
  rw [BitVec.toNat_sub, BitVec.toNat_mul, h1, h2]
  omega

/-- **The skips that can be drawn are those from 1 to `lim`.** -/
theorem mem_skips_iff (smp : SflowMain) (hw : ℕ)
    (hrandom : Function.Surjective fun seed => (smp.randomU32 seed).1)
    (hN : 1 ≤ (smp.effectiveN hw).toNat) (k : ℕ) :
    k ∈ skips smp hw ↔ 1 ≤ k ∧ k ≤ (2 * smp.effectiveN hw - 1).toNat := by
  have hpos := lim_pos (smp.effectiveN hw)
  unfold skips sflowNextRandomSkipIf
  by_cases hone : smp.effectiveN hw ≤ 1
  · have hle : (smp.effectiveN hw).toNat ≤ 1 := hone
    have hlim := lim_toNat hN (by omega)
    simp only [if_pos hone, Set.mem_range, exists_const]
    rw [hlim]
    show 1 = k ↔ _
    omega
  · simp only [if_neg hone, Set.mem_range, draw_toNat]
    constructor
    · rintro ⟨seed, rfl⟩
      have hmod := Nat.mod_lt (smp.randomU32 seed).1.toNat hpos
      omega
    · rintro ⟨hk, hle⟩
      have hlt := (2 * smp.effectiveN hw - 1).isLt
      obtain ⟨seed, hseed⟩ := hrandom (BitVec.ofNat 32 (k - 1))
      have hr : (smp.randomU32 seed).1.toNat = k - 1 := by
        rw [show (smp.randomU32 seed).1 = BitVec.ofNat 32 (k - 1) from hseed,
          BitVec.toNat_ofNat, Nat.mod_eq_of_lt (by omega)]
      refine ⟨seed, ?_⟩
      rw [hr, Nat.mod_eq_of_lt (by omega)]
      omega

/-- `lim` is as it should be for the rates up to `2 ^ 31`. -/
theorem limitOk_iff (smp : SflowMain) (hw : ℕ) {N : BitVec 32}
    (hrandom : Function.Surjective fun seed => (smp.randomU32 seed).1)
    (hrate : smp.effectiveN hw = N) (hN : 1 ≤ N.toNat) :
    LimitOk smp hw N ↔ N.toNat ≤ 2 ^ 31 := by
  subst hrate
  constructor
  · intro hok
    by_contra hwraps
    have hlim := hok.limit
    rw [lim_toNat_wraps (by omega)] at hlim
    omega
  · intro hle
    have hmin : (2 * smp.effectiveN hw - 1).toNat
        = min (2 * (smp.effectiveN hw).toNat - 1) (2 ^ 32 - 1) := by
      rw [lim_toNat hN hle]
      omega
    refine ⟨⟨?_, ?_⟩, hmin⟩
    · rw [mem_skips_iff smp hw hrandom hN, hmin]
      omega
    · intro k hk
      rw [← hmin]
      exact ((mem_skips_iff smp hw hrandom hN k).1 hk).2

/-- **A larger rate draws longer skips exactly if it is at most `2 ^ 31`.** -/
theorem skips_grow_iff (hrandom : Function.Surjective fun seed => (up.randomU32 seed).1)
    {hw hw' : ℕ} {N M : BitVec 32} {s s' : SflowState n} (hset : RateSet up hw N s)
    (hset' : RateSet up hw' M s') (hN : 1 ≤ N) (hNM : N ≤ M) :
    SkipsGrow (s.rates up) (s'.rates up) hw hw' N M ↔ M.toNat ≤ 2 ^ 31 := by
  have hpos : 1 ≤ N.toNat := hN
  have hle : N.toNat ≤ M.toNat := hNM
  have hne : ∀ {R : BitVec 32}, 1 ≤ R.toNat → R ≠ 0 := by
    rintro R hR rfl
    exact absurd hR (by decide)
  have hrate := hset.effectiveN up (hne hpos)
  have hrate' := hset'.effectiveN up (hne (hpos.trans hle))
  have hlow := limitOk_iff (s.rates up) hw hrandom hrate hpos
  have hhigh := limitOk_iff (s'.rates up) hw' hrandom hrate' (hpos.trans hle)
  constructor
  · intro hgrow
    exact hhigh.1 hgrow.high
  · intro hM
    refine ⟨?_, hlow.2 (hle.trans hM), hhigh.2 hM⟩
    intro k hk
    rw [mem_skips_iff (s.rates up) hw hrandom (by rw [hrate]; exact hpos), hrate,
      lim_toNat hpos (hle.trans hM)] at hk
    rw [mem_skips_iff (s'.rates up) hw' hrandom (by rw [hrate']; exact hpos.trans hle), hrate',
      lim_toNat (hpos.trans hle) hM]
    omega

end Limit

/-- The generator returns every number. -/
theorem allHardware_random : Function.Surjective fun seed => (allHardware.randomU32 seed).1 := by
  have hinv : (1664525 * 4276115653 : BitVec 32) = 1 := by decide
  intro r
  refine ⟨4276115653 * (r - 1013904223), ?_⟩
  show (1664525 * (4276115653 * (r - 1013904223)) + 1013904223 : BitVec 32) = r
  rw [← BitVec.mul_assoc, hinv, one_mul, BitVec.sub_add_cancel]

/-- Interface 2 gets a rate of its own. -/
def withRate (N : BitVec 32) : SflowState 1 :=
  (SflowState.init 1 1000 1 0).after
    (sflowSetSamplingRateSet allHardware (SflowState.init 1 1000 1 0) 2 N)

/-- Which is accepted, whatever it is. -/
theorem rateSet_withRate (N : BitVec 32) : RateSet allHardware 2 N (withRate N) :=
  .own rfl (rfl : sflowSetSamplingRateSet allHardware (SflowState.init 1 1000 1 0) 2 N = _)

/-- At the rate 2 a skip can be 3, but at the rate `2 ^ 31 + 1` every packet is sampled. -/
theorem skips_shrink :
    RateSet allHardware 2 2 (withRate 2) ∧ RateSet allHardware 2 0x80000001 (withRate 0x80000001) ∧
      3 ∈ skips ((withRate 2).rates allHardware) 2 ∧
      skips ((withRate 0x80000001).rates allHardware) 2 = {1} ∧
      ¬ SkipsGrow ((withRate 2).rates allHardware) ((withRate 0x80000001).rates allHardware) 2 2
        2 0x80000001 := by
  have hskips : ∀ {N : BitVec 32}, N ≠ 0 → 1 ≤ N.toNat → ∀ k,
      k ∈ skips ((withRate N).rates allHardware) 2 ↔ 1 ≤ k ∧ k ≤ (2 * N - 1).toNat := by
    intro N hne hN k
    have hrate := (rateSet_withRate N).effectiveN allHardware hne
    rw [mem_skips_iff ((withRate N).rates allHardware) 2 allHardware_random
      (by rw [hrate]; exact hN), hrate]
  have hlow : 3 ∈ skips ((withRate 2).rates allHardware) 2 :=
    (hskips (by decide) (by decide) 3).2 (by decide)
  have hhigh : skips ((withRate 0x80000001).rates allHardware) 2 = {1} := by
    have hlim : (2 * 0x80000001 - 1 : BitVec 32).toNat = 1 := rfl
    ext k
    rw [hskips (by decide) (by decide), hlim, Set.mem_singleton_iff]
    omega
  refine ⟨rateSet_withRate 2, rateSet_withRate 0x80000001, hlow, hhigh, ?_⟩
  intro hgrow
  have hmem := hgrow.subset hlow
  rw [hhigh, Set.mem_singleton_iff] at hmem
  exact absurd hmem (by decide)

/-- From 2 to 10 the skips grow. -/
theorem skips_grow_ten :
    SkipsGrow ((withRate 2).rates allHardware) ((withRate 10).rates allHardware) 2 2 2 10 :=
  (skips_grow_iff allHardware allHardware_random (rateSet_withRate 2) (rateSet_withRate 10)
    (by decide) (by decide)).2 (by decide)

end Sflow
