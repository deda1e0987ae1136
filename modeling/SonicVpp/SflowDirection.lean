/-
# Directions

`sflow_enable_disable_interface` switches the features of the interface whose `sw_if_index`
stands in the record.  In a record that was never filled in there stands 0, so that a call
for such a record works on interface 0: it is not enabled, and the features of interface 0
are switched off.

`directions_follow_iff` says that the features follow the settings of their own interface
all along a history exactly if no such call finds interface 0 sampled.
-/
import SonicVpp.SflowControl

open RunInvariant LastWrite

namespace Sflow

section Direction

variable {α : Type} {n : ℕ} (up : SflowUpstream α)

/-! ## Settings and features -/

/-- The interface is sampled, and its direction includes `d`. -/
def SampledIn (s : SflowState n) (i : ℕ) (d : BitVec 32) : Prop :=
  ∃ hw, up.hwIfIndex i = some hw ∧ s.enabled hw = true ∧
    (sflowDirectionResolve s (s.perInterfaceData hw) = d ∨
      sflowDirectionResolve s (s.perInterfaceData hw) = sflowDirnBoth)

/-- The ingress and egress features are those of the settings. -/
def DirectionsFollow (s : SflowState n) : Prop :=
  ∀ i, ((s.features i).ingress = true ↔ SampledIn up s i sflowDirnIngress) ∧
    ((s.features i).egress = true ↔ SampledIn up s i sflowDirnEgress)

/-- The interface that an event names. -/
def SflowEvent.named : SflowEvent α n → Option ℕ
  | .enableDisable i _ => some i
  | .samplingRateSet i _ => some i
  | .directionSet i _ => some i
  | _ => none

/-- An event that names an interface leaves the features of the others alone. -/
def ChangesOnlyNamed (s : SflowState n) (e : SflowEvent α n) : Prop :=
  ∀ i, e.named = some i → ∀ j, j ≠ i →
    ((sflowStep up s e).features j).ingress = (s.features j).ingress ∧
      ((sflowStep up s e).features j).egress = (s.features j).egress

/-- Interface 0 is sampled in some direction. -/
def ZeroSampled (s : SflowState n) : Prop :=
  SampledIn up s 0 sflowDirnIngress ∨ SampledIn up s 0 sflowDirnEgress

/-- While interface 0 is sampled, the direction of an interface is set only if its record has
been filled in (that of interface 0 is as good as filled in); and the global direction is not
set so that interface 0 is sampled, if behind its record there is one never filled in. -/
def FilledIn (s : SflowState n) (e : SflowEvent α n) : Prop :=
  match e with
  | .directionSet i direction => ∀ hw, up.hwIfIndex i = some hw → ¬ sflowDirnBoth < direction →
      (s.perInterfaceData hw).swIfIndex = i ∨ ¬ ZeroSampled up s
  | .direction samplingD => ZeroSampled up { s with samplingD := samplingD } →
      ∀ hw, up.hwIfIndex 0 = some hw → ∀ k, hw < k → k < s.vecLen →
        (s.perInterfaceData k).swIfIndex ≠ 0
  | _ => True

/-! ## The features that are wanted -/

/-- The two features the directions are about. -/
def SflowFeatures.dirs (f : SflowFeatures) : Bool × Bool := (f.ingress, f.egress)

/-- The features of an interface by its own record. -/
def ownFeatures (s : SflowState n) (i : ℕ) : SflowFeatures :=
  match up.hwIfIndex i with
  | none => {}
  | some hw => wantedFeatures s (s.perInterfaceData hw)

theorem ownFeatures_ingress (s : SflowState n) (i : ℕ) :
    (ownFeatures up s i).ingress = true ↔ SampledIn up s i sflowDirnIngress := by
  unfold ownFeatures SampledIn
  cases up.hwIfIndex i with
  | none => simp
  | some hw => simp [wantedFeatures, SflowState.enabled]

theorem ownFeatures_egress (s : SflowState n) (i : ℕ) :
    (ownFeatures up s i).egress = true ↔ SampledIn up s i sflowDirnEgress := by
  unfold ownFeatures SampledIn
  cases up.hwIfIndex i with
  | none => simp
  | some hw => simp [wantedFeatures, SflowState.enabled]

theorem zeroSampled_iff (s : SflowState n) :
    ZeroSampled up s ↔ (ownFeatures up s 0).dirs ≠ (false, false) := by
  unfold ZeroSampled
  rw [← ownFeatures_ingress, ← ownFeatures_egress]
  unfold SflowFeatures.dirs
  cases (ownFeatures up s 0).ingress with
  | true => simp
  | false => simp

theorem directionsFollow_iff (s : SflowState n) :
    DirectionsFollow up s ↔ ∀ i, (s.features i).dirs = (ownFeatures up s i).dirs := by
  unfold DirectionsFollow
  apply forall_congr'
  intro i
  rw [← ownFeatures_ingress, ← ownFeatures_egress]
  unfold SflowFeatures.dirs
  rw [Prod.mk.injEq, Bool.coe_iff_coe, Bool.coe_iff_coe]

/-- A record that is not enabled wants nothing. -/
theorem wantedFeatures_off (s : SflowState n) {sfif : PerInterfaceData}
    (h : sfif.sflowEnabled = false) : (wantedFeatures s sfif).dirs = (false, false) := by
  simp [wantedFeatures, SflowFeatures.dirs, h]

/-- The features that a record wants depend on its flag and its direction. -/
theorem wantedFeatures_congr {s s' : SflowState n} {sfif sfif' : PerInterfaceData}
    (hon : sfif'.sflowEnabled = sfif.sflowEnabled) (hd : sfif'.direction = sfif.direction)
    (hD : s'.samplingD = s.samplingD) :
    (wantedFeatures s' sfif').dirs = (wantedFeatures s sfif).dirs := by
  simp only [wantedFeatures, sflowDirectionResolve, SflowFeatures.dirs, hon, hd, hD]

/-! ## Records -/

/-- A record holds the interface it is for, or 0; the former if it is enabled. -/
structure RecordsOk (s : SflowState n) : Prop where
  filled : ∀ hw, (s.perInterfaceData hw).swIfIndex = 0 ∨
    up.hwIfIndex (s.perInterfaceData hw).swIfIndex = some hw
  enabled : ∀ hw, s.enabled hw = true →
    up.hwIfIndex (s.perInterfaceData hw).swIfIndex = some hw

/-- A new record that is filled in, or keeps its interface and its flag. -/
theorem RecordsOk.setRecord {s s' : SflowState n} (h : RecordsOk up s) {hw : ℕ}
    {sfif : PerInterfaceData} (hs' : s'.perInterfaceData = Function.update s.perInterfaceData hw sfif)
    (hrecord : up.hwIfIndex sfif.swIfIndex = some hw ∨
      sfif.swIfIndex = (s.perInterfaceData hw).swIfIndex ∧ sfif.sflowEnabled = s.enabled hw) :
    RecordsOk up s' := by
  refine ⟨fun h' => ?_, fun h' hon => ?_⟩
  · rw [hs']
    by_cases hh : h' = hw
    · subst hh
      rw [Function.update_self]
      rcases hrecord with hf | ⟨hsw, -⟩
      · exact Or.inr hf
      · rw [hsw]
        exact h.filled h'
    · rw [Function.update_of_ne hh]
      exact h.filled h'
  · unfold SflowState.enabled at hon
    rw [hs'] at hon ⊢
    by_cases hh : h' = hw
    · subst hh
      rw [Function.update_self] at hon ⊢
      rcases hrecord with hf | ⟨hsw, hflag⟩
      · exact hf
      · rw [hsw]
        exact h.enabled h' (hflag.symm.trans hon)
    · rw [Function.update_of_ne hh] at hon ⊢
      exact h.enabled h' hon

/-- **Records stay in order.** -/
theorem recordsOk_step {s : SflowState n} (h : RecordsOk up s) (e : SflowEvent α n) :
    RecordsOk up (sflowStep up s e) := by
  have hbranch := sflowStep_branch up s e
  generalize sflowStep up s e = s' at hbranch
  cases hbranch with
  | unknownEnable hi => exact h
  | unknownRate hi => exact h
  | unknownDirection hi => exact h
  | wrongDirection hd => exact h
  | asWanted hi hsame => exact h.setRecord up rfl (Or.inr ⟨rfl, rfl⟩)
  | @switched i hw enable hi hother =>
    exact h.setRecord up (sflowSwitch_records up s i hw enable) (Or.inl hi)
  | ownRate hi => exact h.setRecord up rfl (Or.inr ⟨rfl, rfl⟩)
  | @globalRate samplingN hdyn =>
    obtain ⟨data, heq, -⟩ := setInterfaceSamplingRate_eq up
      (s := { s with samplingN := samplingN, totalThreads := n }) rfl
    rw [heq]
    exact ⟨h.filled, h.enabled⟩
  | startStop hdyn => exact ⟨h.filled, h.enabled⟩
  | ownDirection hi hd => exact h.setRecord up rfl (Or.inr ⟨rfl, rfl⟩)
  | globalDirection =>
    rw [sflowDirection_eq]
    exact ⟨h.filled, h.enabled⟩
  | frame => exact ⟨h.filled, h.enabled⟩

/-! ## One record changes -/

variable {up}

/-- The wanted features after a change of one record. -/
theorem ownFeatures_setRecord {s s' : SflowState n} {i hw : ℕ} {sfif : PerInterfaceData}
    (hi : up.hwIfIndex i = some hw)
    (hs' : s'.perInterfaceData = Function.update s.perInterfaceData hw sfif)
    (hD : s'.samplingD = s.samplingD) (j : ℕ) :
    (ownFeatures up s' j).dirs
      = if j = i then (wantedFeatures s' sfif).dirs else (ownFeatures up s j).dirs := by
  unfold ownFeatures
  by_cases hj : j = i
  · subst hj
    simp only [hi, if_true, hs', Function.update_self]
  · rw [if_neg hj]
    cases hjw : up.hwIfIndex j with
    | none => rfl
    | some hw' =>
      have hne : hw' ≠ hw := by
        rintro rfl
        exact hj (up.hwIfIndex_inj hjw hi)
      simp only [hs', Function.update_of_ne hne]
      exact wantedFeatures_congr rfl rfl hD

/-- The other interfaces want what they wanted. -/
theorem ownFeatures_setRecord_of_ne {s s' : SflowState n} {i hw : ℕ} {sfif : PerInterfaceData}
    (hi : up.hwIfIndex i = some hw)
    (hs' : s'.perInterfaceData = Function.update s.perInterfaceData hw sfif)
    (hD : s'.samplingD = s.samplingD) {j : ℕ} (hj : j ≠ i) :
    (ownFeatures up s' j).dirs = (ownFeatures up s j).dirs := by
  rw [ownFeatures_setRecord hi hs' hD, if_neg hj]

/-- A record that keeps its flag and its direction changes nothing. -/
theorem DirectionsFollow.setRecord {s s' : SflowState n} (h : DirectionsFollow up s) {i hw : ℕ}
    {sfif : PerInterfaceData} (hi : up.hwIfIndex i = some hw)
    (hs' : s'.perInterfaceData = Function.update s.perInterfaceData hw sfif)
    (hD : s'.samplingD = s.samplingD) (hfeatures : s'.features = s.features)
    (hon : sfif.sflowEnabled = s.enabled hw)
    (hd : sfif.direction = (s.perInterfaceData hw).direction) : DirectionsFollow up s' := by
  rw [directionsFollow_iff] at h ⊢
  intro j
  rw [hfeatures, h j, ownFeatures_setRecord hi hs' hD]
  by_cases hj : j = i
  · rw [if_pos hj, wantedFeatures_congr hon hd hD, hj]
    simp only [ownFeatures, hi]
  · rw [if_neg hj]

/-- A record whose own interface gets the features that it wants. -/
theorem DirectionsFollow.switch {s s' : SflowState n} (h : DirectionsFollow up s) {i hw : ℕ}
    {sfif : PerInterfaceData} (hi : up.hwIfIndex i = some hw)
    (hs' : s'.perInterfaceData = Function.update s.perInterfaceData hw sfif)
    (hD : s'.samplingD = s.samplingD)
    (hfeatures : s'.features = Function.update s.features i (wantedFeatures s' sfif)) :
    DirectionsFollow up s' := by
  rw [directionsFollow_iff] at h ⊢
  intro j
  rw [ownFeatures_setRecord hi hs' hD, hfeatures]
  by_cases hj : j = i
  · rw [if_pos hj, hj, Function.update_self]
  · rw [if_neg hj, Function.update_of_ne hj]
    exact h j

/-- **The direction of an interface whose record was never filled in**: interface 0 loses its
features. -/
theorem DirectionsFollow.unfilled_iff {s s' : SflowState n} (h : DirectionsFollow up s) {i hw : ℕ}
    (sfif : PerInterfaceData) (hi : up.hwIfIndex i = some hw) (hi0 : i ≠ 0)
    (hoff : s.enabled hw = false) (hflag : sfif.sflowEnabled = false)
    (hs' : s'.perInterfaceData = Function.update s.perInterfaceData hw sfif)
    (hD : s'.samplingD = s.samplingD)
    (hfeatures : s'.features = Function.update s.features 0 (wantedFeatures s' sfif)) :
    DirectionsFollow up s' ↔ ¬ ZeroSampled up s := by
  rw [zeroSampled_iff, not_not]
  rw [directionsFollow_iff] at h ⊢
  constructor
  · intro hall
    have hzero := hall 0
    rw [ownFeatures_setRecord hi hs' hD, if_neg (Ne.symm hi0), hfeatures, Function.update_self,
      wantedFeatures_off s' hflag] at hzero
    exact hzero.symm
  · intro hzero j
    rw [ownFeatures_setRecord hi hs' hD, hfeatures]
    by_cases hj0 : j = 0
    · rw [hj0, if_neg (Ne.symm hi0), Function.update_self, wantedFeatures_off s' hflag, hzero]
    · rw [Function.update_of_ne hj0, h j]
      by_cases hj : j = i
      · -- neither was it sampled before
        rw [if_pos hj, hj, wantedFeatures_off s' hflag]
        simp only [ownFeatures, hi]
        exact wantedFeatures_off s hoff
      · rw [if_neg hj]

/-! ## The global direction -/

/-- The features after a change of the global direction: the last record decides. -/
theorem sflowDirection_features (s : SflowState n) (samplingD : BitVec 32) (j : ℕ) :
    (sflowDirection s samplingD).features j
      = (lastFor (fun k => (s.perInterfaceData k).swIfIndex) j (List.range s.vecLen)).elim
        (s.features j)
        fun k => wantedFeatures { s with samplingD := samplingD } (s.perInterfaceData k) := by
  rw [sflowDirection_eq]
  exact writeAll_apply _ _ j _ _

/-- An interface that is not enabled wants nothing, whatever the global direction is. -/
theorem ownFeatures_off {s : SflowState n} {j : ℕ}
    (hoff : ∀ hw, up.hwIfIndex j = some hw → s.enabled hw = false) :
    (ownFeatures up s j).dirs = (false, false) := by
  unfold ownFeatures
  cases hjw : up.hwIfIndex j with
  | none => rfl
  | some hw => exact wantedFeatures_off s (hoff hw hjw)

/-- **What a change of the global direction leaves on an interface**: the features of its
record, unless a record that is not its own comes last. -/
theorem sflowDirection_dirs {s : SflowState n} (hs : ControlOk s) (hr : RecordsOk up s)
    (h : DirectionsFollow up s) (samplingD : BitVec 32) (j : ℕ) :
    ((sflowDirection s samplingD).features j).dirs
        = (ownFeatures up { s with samplingD := samplingD } j).dirs ∨
      (j = 0 ∧ ((sflowDirection s samplingD).features 0).dirs = (false, false) ∧
        ∃ hw k, up.hwIfIndex 0 = some hw ∧ hw < k ∧ k < s.vecLen ∧
          (s.perInterfaceData k).swIfIndex = 0) := by
  rw [sflowDirection_features]
  cases hlast : lastFor (fun k => (s.perInterfaceData k).swIfIndex) j (List.range s.vecLen) with
  | none =>
    -- no record stands for the interface, so it is not enabled
    have hnone := lastFor_eq_none _ hlast
    have hoff : ∀ hw, up.hwIfIndex j = some hw → s.enabled hw = false := by
      intro hw hj
      by_contra hon
      have hon' : s.enabled hw = true := by simpa using hon
      have hown := up.hwIfIndex_inj (hr.enabled hw hon') hj
      exact hnone hw (List.mem_range.2 (hs.known hw hon').2) hown
    left
    rw [ownFeatures_off (s := { s with samplingD := samplingD }) hoff]
    exact ((directionsFollow_iff up s).1 h j).trans (ownFeatures_off hoff)
  | some k =>
    obtain ⟨hk, hkey, hbehind⟩ := lastFor_range hlast
    show (wantedFeatures _ (s.perInterfaceData k)).dirs = _ ∨ _
    by_cases hown : up.hwIfIndex j = some k
    · left
      simp only [ownFeatures, hown]
    · -- the last record is not that of the interface: it was never filled in
      have hzero : j = 0 := by
        rcases hr.filled k with hz | hf
        · exact hkey.symm.trans hz
        · rw [hkey] at hf
          exact absurd hf hown
      have hkoff : (s.perInterfaceData k).sflowEnabled = false := by
        by_contra hon
        have hf := hr.enabled k (by simpa [SflowState.enabled] using hon)
        rw [hkey] at hf
        exact hown hf
      rw [wantedFeatures_off _ hkoff]
      by_cases hoff : ∀ hw, up.hwIfIndex j = some hw → s.enabled hw = false
      · left
        exact (ownFeatures_off (s := { s with samplingD := samplingD }) hoff).symm
      · right
        push Not at hoff
        obtain ⟨hw, hj, hon⟩ := hoff
        have hon' : s.enabled hw = true := by simpa using hon
        have hsw : (s.perInterfaceData hw).swIfIndex = j := up.hwIfIndex_inj (hr.enabled hw hon') hj
        have hlt : hw < k := by
          rcases lt_trichotomy hw k with hlt | heq | hgt
          · exact hlt
          · rw [heq] at hj
            exact absurd hj hown
          · exact absurd hsw (hbehind hw hgt (hs.known hw hon').2)
        refine ⟨hzero, ?_, hw, k, ?_, hlt, hk, hkey.trans hzero⟩
        · rw [sflowDirection_features, ← hzero, hlast]
          exact wantedFeatures_off _ hkoff
        · rw [← hzero]
          exact hj

/-- After a change of the global direction the features follow it exactly if interface 0 is
not sampled or its record is the last that stands for it. -/
theorem directionsFollow_direction_iff {s : SflowState n} (hs : ControlOk s) (hr : RecordsOk up s)
    (h : DirectionsFollow up s) (samplingD : BitVec 32) :
    DirectionsFollow up (sflowDirection s samplingD) ↔
      FilledIn up s (.direction samplingD : SflowEvent α n) := by
  have hown : ∀ j, ownFeatures up (sflowDirection s samplingD) j
      = ownFeatures up { s with samplingD := samplingD } j := by
    intro j
    rw [sflowDirection_eq]
    rfl
  rw [directionsFollow_iff]
  simp only [hown]
  constructor
  · intro hall hsampled hw hzero k hlt hk hunfilled
    -- the record `k` comes after that of interface 0 and is not enabled
    have hoff : ((sflowDirection s samplingD).features 0).dirs = (false, false) := by
      rw [sflowDirection_features]
      cases hlast : lastFor (fun k => (s.perInterfaceData k).swIfIndex) 0
          (List.range s.vecLen) with
      | none =>
        exact absurd hunfilled (lastFor_eq_none _ hlast k (List.mem_range.2 hk))
      | some k' =>
        obtain ⟨-, hkey, hbehind⟩ := lastFor_range hlast
        have hne : hw ≠ k' := by
          rintro rfl
          exact hbehind k hlt hk hunfilled
        refine wantedFeatures_off _ ?_
        by_contra hon
        have hf := hr.enabled k' (by simpa [SflowState.enabled] using hon)
        have hkey' : (s.perInterfaceData k').swIfIndex = 0 := hkey
        rw [hkey', hzero] at hf
        exact hne (Option.some.inj hf)
    exact (zeroSampled_iff up _).1 hsampled ((hall 0).symm.trans hoff)
  · intro hfilled j
    rcases sflowDirection_dirs hs hr h samplingD j with
      hj | ⟨rfl, hoff, hw, k, hzero, hlt, hk, hunfilled⟩
    · exact hj
    · by_contra hne
      refine hfilled ((zeroSampled_iff up _).2 fun hown0 => ?_) hw hzero k hlt hk hunfilled
      exact hne (hoff.trans hown0.symm)

/-! ## One event -/

/-- **The features follow the settings after an event exactly if it finds the record that it
works on filled in.** -/
theorem directionsFollow_step_iff {s : SflowState n} (hs : ControlOk s) (hr : RecordsOk up s)
    (h : DirectionsFollow up s) (e : SflowEvent α n) :
    DirectionsFollow up (sflowStep up s e) ↔ FilledIn up s e := by
  have hbranch := sflowStep_branch up s e
  generalize sflowStep up s e = s' at hbranch
  cases hbranch with
  | unknownEnable hi => exact iff_of_true h trivial
  | unknownRate hi => exact iff_of_true h trivial
  | unknownDirection hi =>
    refine iff_of_true h fun hw hhw => ?_
    rw [hi] at hhw
    cases hhw
  | wrongDirection hd => exact iff_of_true h fun hw _ hle => absurd hd hle
  | asWanted hi hsame => exact iff_of_true (h.setRecord hi rfl rfl rfl rfl rfl) trivial
  | @switched i hw enable hi hother =>
    -- a switch wires the arcs by the direction that the record has then
    refine iff_of_true (h.switch hi (sflowSwitch_records up s i hw enable) ?_ ?_) trivial
    · cases enable with
      | true => rfl
      | false => rfl
    · cases enable with
      | true => rfl
      | false => rfl
  | ownRate hi => exact iff_of_true (h.setRecord hi rfl rfl rfl rfl rfl) trivial
  | @globalRate samplingN hdyn =>
    obtain ⟨data, heq, -⟩ := setInterfaceSamplingRate_eq up
      (s := { s with samplingN := samplingN, totalThreads := n }) rfl
    rw [heq]
    exact iff_of_true h trivial
  | startStop hdyn => exact iff_of_true h trivial
  | @ownDirection i hw direction hi hd =>
    -- the arcs that are wired are those of the interface that the record names
    by_cases hfilled : (s.perInterfaceData hw).swIfIndex = i
    · refine iff_of_true (h.switch hi rfl rfl ?_) ?_
      · show Function.update s.features (s.perInterfaceData hw).swIfIndex _ = _
        rw [hfilled]
        rfl
      · intro hw' hi' _
        obtain rfl := Option.some.inj (hi.symm.trans hi')
        exact Or.inl hfilled
    · -- a record never filled in holds 0, and is not enabled
      have hne : up.hwIfIndex (s.perInterfaceData hw).swIfIndex ≠ some hw :=
        fun hf => hfilled (up.hwIfIndex_inj hf hi)
      have hzero := (hr.filled hw).resolve_right hne
      have hoff : s.enabled hw = false := by
        by_contra hon
        exact hne (hr.enabled hw (by simpa using hon))
      have hi0 : i ≠ 0 := by
        rintro rfl
        exact hfilled hzero
      have hiff : DirectionsFollow up (sflowEnableDisableInterface
          (s.setRecord hw { s.perInterfaceData hw with direction := direction })
          { s.perInterfaceData hw with direction := direction }) ↔ ¬ ZeroSampled up s := by
        refine h.unfilled_iff { s.perInterfaceData hw with direction := direction } hi hi0 hoff hoff rfl
          rfl ?_
        show Function.update s.features (s.perInterfaceData hw).swIfIndex _ = _
        rw [hzero]
        rfl
      rw [hiff]
      constructor
      · intro hsafe hw' hi' _
        exact Or.inr hsafe
      · intro hsafe
        exact (hsafe hw hi hd).resolve_left hfilled
  | globalDirection => exact directionsFollow_direction_iff hs hr h _
  | frame => exact iff_of_true h trivial

/-- The settings of the other interfaces do not change if one is named. -/
theorem ownFeatures_of_named {s : SflowState n} {e : SflowEvent α n} {i j : ℕ}
    (he : e.named = some i) (hj : j ≠ i) :
    (ownFeatures up (sflowStep up s e) j).dirs = (ownFeatures up s j).dirs := by
  have hbranch := sflowStep_branch up s e
  generalize sflowStep up s e = s' at hbranch
  cases hbranch with
  | unknownEnable hi => rfl
  | unknownRate hi => rfl
  | unknownDirection hi => rfl
  | wrongDirection hd => rfl
  | asWanted hi hsame =>
    obtain rfl := Option.some.inj he
    exact ownFeatures_setRecord_of_ne hi (setRecord_records s _ _) rfl hj
  | @switched i' hw enable hi hother =>
    obtain rfl := Option.some.inj he
    have hD : (sflowSamplingStartStop up (sflowSwitch up s i' hw enable)).samplingD
        = s.samplingD := by
      cases enable with
      | true => rfl
      | false => rfl
    exact ownFeatures_setRecord_of_ne hi (sflowSwitch_records up s i' hw enable) hD hj
  | ownRate hi =>
    obtain rfl := Option.some.inj he
    exact ownFeatures_setRecord_of_ne hi (setRecord_records s _ _) rfl hj
  | globalRate hdyn => cases he
  | startStop hdyn => cases he
  | ownDirection hi hd =>
    obtain rfl := Option.some.inj he
    exact ownFeatures_setRecord_of_ne hi (setRecord_records s _ _) rfl hj
  | globalDirection => cases he
  | frame => cases he

/-- While the features follow the settings, a call for one interface leaves the others alone. -/
theorem changesOnlyNamed_of_follow {s : SflowState n} {e : SflowEvent α n}
    (h : DirectionsFollow up s) (h' : DirectionsFollow up (sflowStep up s e)) :
    ChangesOnlyNamed up s e := by
  intro i he j hj
  have hsame := ((directionsFollow_iff up _).1 h' j).trans
    ((ownFeatures_of_named he hj).trans ((directionsFollow_iff up s).1 h j).symm)
  exact Prod.mk.inj hsame

/-! ## Runs -/

variable (up)

/-- **The features follow the settings of their own interface all along a history exactly if
no call works on a record never filled in while interface 0 is sampled.** -/
theorem directions_follow_iff (samplingN samplingD dropM : BitVec 32)
    (es : List (SflowEvent α n)) :
    Allowed (sflowStep up) (fun s e =>
        DirectionsFollow up (sflowStep up s e) ∧ ChangesOnlyNamed up s e)
        (SflowState.init n samplingN samplingD dropM) es ↔
      Allowed (sflowStep up) (FilledIn up) (SflowState.init n samplingN samplingD dropM) es := by
  have hinit : DirectionsFollow up (SflowState.init n samplingN samplingD dropM) := by
    rw [directionsFollow_iff]
    intro i
    exact (ownFeatures_off fun hw _ => rfl).symm
  refine allowed_iff_of_invariant (sflowStep up) (fun _ _ => True)
    (fun s => ControlOk s ∧ RecordsOk up s ∧ DirectionsFollow up s) ?_ ?_
    ⟨controlOk_init samplingN samplingD dropM, ⟨fun _ => Or.inl rfl, ?_⟩, hinit⟩
    (allowed_of_forall (sflowStep up) fun _ _ => trivial)
  · rintro s e ⟨hs, hr, h⟩ -
    rw [← directionsFollow_step_iff hs hr h e]
    exact ⟨fun hP => hP.1, fun h' => ⟨h', changesOnlyNamed_of_follow h h'⟩⟩
  · rintro s e ⟨hs, hr, h⟩ - hfilled
    exact ⟨controlOk_step up hs e, recordsOk_step up hr e,
      (directionsFollow_step_iff hs hr h e).2 hfilled⟩
  · intro hw hon
    exact absurd hon Bool.false_ne_true

end Direction

/-- Interface 0 is enabled, and the direction of interface 3 is set, which never was. -/
def neverEnabledRun : List (SflowEvent ℕ 1) := [.enableDisable 0 true, .directionSet 3 1]

/-- Interface 0 is enabled and is to be sampled on ingress, but its feature is off. -/
theorem unfilled_record_switches_zero :
    let s := run (sflowStep allHardware) (SflowState.init 1 1000 1 0) neverEnabledRun
    (s.enabled 0 = true ∧ sflowDirectionResolve s (s.perInterfaceData 0) = sflowDirnIngress ∧
      (s.features 0).ingress = false) ∧
    ¬ DirectionsFollow allHardware s := by
  refine ⟨by decide, fun hfollow => ?_⟩
  have hon := (hfollow 0).1.2 ⟨0, rfl, by decide, Or.inl (by decide)⟩
  exact absurd hon (by decide)

end Sflow
