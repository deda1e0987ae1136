/-
# The sFlow control plane (`0012-sflow-per-port-sample-rate.patch`, `0013-…-direction.patch`)

Every hardware interface has a record with its own rate and direction, where 0 says that
the global one is followed, and a sampler on each thread.  Records and samplers are made
as interfaces are named, filled with zeros; a sampler is seeded by
`sflow_reset_interface_samplers`, and a record is filled in by `sflow_enable_disable`.

The interfaces, the threads, `random_u32`, and when sampling starts and stops are not in
the patches: parameters.  `processed` is not in the source: it counts the packets which
the node is given, for what the counters should say.
-/
import SonicVpp.SflowSampler
import SonicVpp.RunInvariant
import SonicVpp.LastWrite

open RunInvariant LastWrite

namespace Sflow

/-! ## State -/

/-- `sflow_per_interface_data_t`. -/
structure PerInterfaceData where
  swIfIndex : ℕ := 0
  sflowEnabled : Bool := false
  samplingN : BitVec 32 := 0
  direction : BitVec 32 := 0
  deriving DecidableEq, Repr

/-- The part of `sflow_per_thread_data_t` that is kept per interface.  `none` is a sampler
filled with zeros, or one that is not there. -/
structure PerThreadData where
  perInterface : ℕ → Option PerIfSampler := fun _ => none
  vecLen : ℕ := 0

/-- The sFlow features of an interface. -/
structure SflowFeatures where
  ingress : Bool := false
  egress : Bool := false
  drop : Bool := false
  deriving DecidableEq, Repr

/-- `sflow_main_t`, with the features of the interfaces by `sw_if_index`, on `n` threads. -/
structure SflowState (n : ℕ) where
  samplingN : BitVec 32
  samplingD : BitVec 32
  dropM : BitVec 32
  running : Bool := false
  totalThreads : ℕ := 0
  interfacesEnabled : ℕ := 0
  perInterfaceData : ℕ → PerInterfaceData := fun _ => {}
  vecLen : ℕ := 0
  perThreadData : Fin n → PerThreadData := fun _ => {}
  features : ℕ → SflowFeatures := fun _ => {}
  processed : ℕ := 0

/-- What the patches do not show: which `sw_if_index` is that of a hardware interface, and
of which; the generator; whether sampling runs after `sflow_sampling_start_stop`; and the
hardware interface of a packet in the sampled direction. -/
structure SflowUpstream (α : Type) where
  hwIfIndex : ℕ → Option ℕ
  hwIfIndex_inj : ∀ {i j h}, hwIfIndex i = some h → hwIfIndex j = some h → i = j
  randomU32 : BitVec 32 → BitVec 32 × BitVec 32
  samplingStartStop : Bool → BitVec 32 → ℕ → Bool
  hwIf : α → ℕ

section Control

variable {α : Type} {n : ℕ} (up : SflowUpstream α)

/-- The rates, as the samplers read them. -/
def SflowState.rates (s : SflowState n) : SflowMain where
  samplingN := s.samplingN
  perInterfaceData := fun hw => (s.perInterfaceData hw).samplingN
  randomU32 := up.randomU32

/-- Is the interface with this hardware index sampled? -/
def SflowState.enabled (s : SflowState n) (hw : ℕ) : Bool := (s.perInterfaceData hw).sflowEnabled

/-- `vec_validate (smp->per_interface_data, hw)`, and a new record there. -/
def SflowState.setRecord (s : SflowState n) (hw : ℕ) (sfif : PerInterfaceData) : SflowState n :=
  { s with
    perInterfaceData := Function.update s.perInterfaceData hw sfif
    vecLen := max s.vecLen (hw + 1) }

/-- The records after that. -/
theorem setRecord_records (s : SflowState n) (hw : ℕ) (sfif : PerInterfaceData) :
    (s.setRecord hw sfif).perInterfaceData = Function.update s.perInterfaceData hw sfif := rfl

/-! ## Rates -/

/-- A sampler as `sflow_reset_interface_samplers` leaves it. -/
def PerIfSampler.reset (smp : SflowMain) (hw thread : ℕ) : PerIfSampler where
  skip := (sflowNextRandomSkipIf smp hw
    (BitVec.ofNat 32 hw ^^^ BitVec.ofNat 32 (thread + 1))).1.toNat
  pool := 0
  seed := (sflowNextRandomSkipIf smp hw (BitVec.ofNat 32 hw ^^^ BitVec.ofNat 32 (thread + 1))).2
  skip_pos := sflowNextRandomSkipIf_pos smp hw _

/-- `vec_validate (sfwk->per_interface, hw)`, and a new sampler there. -/
def PerThreadData.setSampler (sfwk : PerThreadData) (hw : ℕ) (smpif : PerIfSampler) :
    PerThreadData where
  perInterface := Function.update sfwk.perInterface hw (some smpif)
  vecLen := max sfwk.vecLen (hw + 1)

/-- `sflow_reset_interface_samplers`. -/
def sflowResetInterfaceSamplers (s : SflowState n) (hw : ℕ) : SflowState n :=
  { s with
    perThreadData := fun t =>
      if t.val < s.totalThreads then
        (s.perThreadData t).setSampler hw (.reset (s.rates up) hw t)
      else s.perThreadData t }

/-- `sflow_set_interface_sampling_rate`. -/
def sflowSetInterfaceSamplingRate (s : SflowState n) : SflowState n :=
  (List.range s.vecLen).foldl (fun s i =>
    if s.enabled i && (s.perInterfaceData i).samplingN == 0 then sflowResetInterfaceSamplers up s i
    else s) s

/-- `sflow_set_worker_sampling_state`: from now on the threads are known. -/
def sflowSetWorkerSamplingState (s : SflowState n) : SflowState n := { s with totalThreads := n }

/-- `sflow_sampling_start_stop`. -/
def sflowSamplingStartStop (s : SflowState n) : SflowState n :=
  { s with running := up.samplingStartStop s.running s.samplingN s.interfacesEnabled }

/-- The branch of `sflow_sampling_rate` for a dynamic change of the rate. -/
def SflowState.dynamic (s : SflowState n) (samplingN : BitVec 32) : Bool :=
  s.running && s.samplingN != 0 && samplingN != 0

/-- `sflow_sampling_rate`. -/
def sflowSamplingRate (s : SflowState n) (samplingN : BitVec 32) : SflowState n :=
  let s' := { s with samplingN := samplingN }
  if s.dynamic samplingN then
    sflowSetInterfaceSamplingRate up (sflowSetWorkerSamplingState s')
  else sflowSamplingStartStop up s'

/-- `VNET_API_ERROR_INVALID_SW_IF_INDEX` and `VNET_API_ERROR_INVALID_VALUE`. -/
inductive SflowError
  | invalidSwIfIndex
  | invalidValue
  deriving DecidableEq, Repr

/-- "Utterly wrong?" and "Not a physical port?" -/
def hardwareInterface (swIfIndex : ℕ) : Except SflowError ℕ :=
  match up.hwIfIndex swIfIndex with
  | none => .error .invalidSwIfIndex
  | some hw => .ok hw

/-- `sflow_set_sampling_rate_set`. -/
def sflowSetSamplingRateSet (s : SflowState n) (swIfIndex : ℕ) (samplingN : BitVec 32) :
    Except SflowError (SflowState n) := do
  let hw ← hardwareInterface up swIfIndex
  let s := s.setRecord hw { s.perInterfaceData hw with samplingN := samplingN }
  if s.totalThreads ≠ 0 then
    return sflowResetInterfaceSamplers up s hw
  else
    return s

/-! ## Directions -/

/-- `SFLOW_DIRN_INGRESS`. -/
def sflowDirnIngress : BitVec 32 := 1

/-- `SFLOW_DIRN_EGRESS`. -/
def sflowDirnEgress : BitVec 32 := 2

/-- `SFLOW_DIRN_BOTH`. -/
def sflowDirnBoth : BitVec 32 := 3

/-- `sflow_direction_resolve`. -/
def sflowDirectionResolve (s : SflowState n) (sfif : PerInterfaceData) : BitVec 32 :=
  if sfif.direction ≠ 0 then sfif.direction else s.samplingD

/-- The features that `sflow_enable_disable_interface` wants for a record. -/
def wantedFeatures (s : SflowState n) (sfif : PerInterfaceData) : SflowFeatures :=
  let direction := sflowDirectionResolve s sfif
  { ingress := sfif.sflowEnabled &&
      (direction == sflowDirnIngress || direction == sflowDirnBoth)
    egress := sfif.sflowEnabled && (direction == sflowDirnEgress || direction == sflowDirnBoth)
    drop := sfif.sflowEnabled && s.dropM != 0 }

/-- `sflow_enable_disable_interface`: a feature is switched where it is not as wanted. -/
def sflowEnableDisableInterface (s : SflowState n) (sfif : PerInterfaceData) : SflowState n :=
  { s with features := Function.update s.features sfif.swIfIndex (wantedFeatures s sfif) }

/-- `sflow_set_direction_set`. -/
def sflowSetDirectionSet (s : SflowState n) (swIfIndex : ℕ) (direction : BitVec 32) :
    Except SflowError (SflowState n) := do
  let hw ← hardwareInterface up swIfIndex
  if sflowDirnBoth < direction then
    throw .invalidValue
  let sfif := { s.perInterfaceData hw with direction := direction }
  return sflowEnableDisableInterface (s.setRecord hw sfif) sfif

/-- The change of the global direction: all records, those never filled in too. -/
def sflowDirection (s : SflowState n) (samplingD : BitVec 32) : SflowState n :=
  let s := { s with samplingD := samplingD }
  (List.range s.vecLen).foldl
    (fun s i => sflowEnableDisableInterface s (s.perInterfaceData i)) s

/-! ## Enabling -/

/-- The change of an interface that is not yet as wanted, up to `sflow_sampling_start_stop`. -/
def sflowSwitch (s : SflowState n) (swIfIndex hw : ℕ) (enable : Bool) : SflowState n :=
  let sfif : PerInterfaceData :=
    { s.perInterfaceData hw with swIfIndex := swIfIndex, sflowEnabled := enable }
  let s := s.setRecord hw sfif
  let s :=
    if enable then sflowResetInterfaceSamplers up (sflowSetWorkerSamplingState s) hw else s
  let s := sflowEnableDisableInterface s sfif
  { s with
    interfacesEnabled := if enable then s.interfacesEnabled + 1 else s.interfacesEnabled - 1 }

/-- `sflow_enable_disable`, for a hardware interface. -/
def sflowEnableDisable (s : SflowState n) (swIfIndex : ℕ) (enable : Bool) :
    Except SflowError (SflowState n) := do
  let hw ← hardwareInterface up swIfIndex
  let s := s.setRecord hw (s.perInterfaceData hw)
  if s.enabled hw == enable then
    return s
  else
    return sflowSamplingStartStop up (sflowSwitch up s swIfIndex hw enable)

/-! ## Packets -/

/-- The packets of a frame that pass the node: those of interfaces on which sFlow is on. -/
def SflowState.given (s : SflowState n) (packets : List α) : List α :=
  packets.filter fun a => s.enabled (up.hwIf a)

/-- `sflow_node_ingress_egress` on one thread. -/
def sflowFrame (s : SflowState n) (thread : Fin n) (packets : List α) : SflowState n :=
  let packets := s.given up packets
  let sfwk := s.perThreadData thread
  let samplers := (sflowNodeIngressEgress (s.rates up) up.hwIf
    (fun hw => (sfwk.perInterface hw).getD default) packets).2
  { s with
    perThreadData := Function.update s.perThreadData thread
      { sfwk with perInterface := fun hw => (sfwk.perInterface hw).map fun _ => samplers hw }
    processed := s.processed + packets.length }

/-! ## Histories -/

/-- What can happen. -/
inductive SflowEvent (α : Type) (n : ℕ)
  | enableDisable (swIfIndex : ℕ) (enable : Bool)
  | samplingRateSet (swIfIndex : ℕ) (samplingN : BitVec 32)
  | samplingRate (samplingN : BitVec 32)
  | directionSet (swIfIndex : ℕ) (direction : BitVec 32)
  | direction (samplingD : BitVec 32)
  | frame (thread : Fin n) (packets : List α)

/-- The state after a call, which a refused one leaves as it was. -/
def SflowState.after (s : SflowState n) : Except SflowError (SflowState n) → SflowState n
  | .ok s' => s'
  | .error _ => s

/-- One event. -/
def sflowStep (s : SflowState n) : SflowEvent α n → SflowState n
  | .enableDisable swIfIndex enable => s.after (sflowEnableDisable up s swIfIndex enable)
  | .samplingRateSet swIfIndex samplingN => s.after (sflowSetSamplingRateSet up s swIfIndex samplingN)
  | .samplingRate samplingN => sflowSamplingRate up s samplingN
  | .directionSet swIfIndex direction => s.after (sflowSetDirectionSet up s swIfIndex direction)
  | .direction samplingD => sflowDirection s samplingD
  | .frame thread packets => sflowFrame up s thread packets

/-- Nothing is enabled, and no record and no sampler has been made. -/
def SflowState.init (n : ℕ) (samplingN samplingD dropM : BitVec 32) : SflowState n :=
  { samplingN, samplingD, dropM }

/-! ## What an event does -/

/-- What the events come to.  A call is refused, or it takes one of the branches. -/
inductive SflowBranch (s : SflowState n) : SflowEvent α n → SflowState n → Prop
  | unknownEnable {i : ℕ} {enable : Bool} (hi : up.hwIfIndex i = none) :
      SflowBranch s (.enableDisable i enable) s
  | unknownRate {i : ℕ} {samplingN : BitVec 32} (hi : up.hwIfIndex i = none) :
      SflowBranch s (.samplingRateSet i samplingN) s
  | unknownDirection {i : ℕ} {direction : BitVec 32} (hi : up.hwIfIndex i = none) :
      SflowBranch s (.directionSet i direction) s
  | wrongDirection {i : ℕ} {direction : BitVec 32} (hd : sflowDirnBoth < direction) :
      SflowBranch s (.directionSet i direction) s
  | asWanted {i hw : ℕ} {enable : Bool} (hi : up.hwIfIndex i = some hw)
      (hsame : s.enabled hw = enable) :
      SflowBranch s (.enableDisable i enable) (s.setRecord hw (s.perInterfaceData hw))
  | switched {i hw : ℕ} {enable : Bool} (hi : up.hwIfIndex i = some hw)
      (hother : s.enabled hw ≠ enable) :
      SflowBranch s (.enableDisable i enable)
        (sflowSamplingStartStop up (sflowSwitch up s i hw enable))
  | ownRate {i hw : ℕ} {samplingN : BitVec 32} (hi : up.hwIfIndex i = some hw) :
      SflowBranch s (.samplingRateSet i samplingN)
        (sflowResetInterfaceSamplers up
          (s.setRecord hw { s.perInterfaceData hw with samplingN := samplingN }) hw)
  | globalRate {samplingN : BitVec 32} (hdyn : s.dynamic samplingN = true) :
      SflowBranch s (.samplingRate samplingN) (sflowSetInterfaceSamplingRate up
        { s with samplingN := samplingN, totalThreads := n })
  | startStop {samplingN : BitVec 32} (hdyn : s.dynamic samplingN = false) :
      SflowBranch s (.samplingRate samplingN)
        (sflowSamplingStartStop up { s with samplingN := samplingN })
  | ownDirection {i hw : ℕ} {direction : BitVec 32} (hi : up.hwIfIndex i = some hw)
      (hd : ¬ sflowDirnBoth < direction) :
      SflowBranch s (.directionSet i direction)
        (sflowEnableDisableInterface
          (s.setRecord hw { s.perInterfaceData hw with direction := direction })
          { s.perInterfaceData hw with direction := direction })
  | globalDirection {samplingD : BitVec 32} :
      SflowBranch s (.direction samplingD) (sflowDirection s samplingD)
  | frame {thread : Fin n} {packets : List α} :
      SflowBranch s (.frame thread packets) (sflowFrame up s thread packets)

/-- The loop over the threads is empty before there are any. -/
theorem reset_of_no_threads {s : SflowState n} (h : s.totalThreads = 0) (hw : ℕ) :
    sflowResetInterfaceSamplers up s hw = s := by
  have hempty : (fun t : Fin n => if t.val < s.totalThreads then
      (s.perThreadData t).setSampler hw (.reset (s.rates up) hw t) else s.perThreadData t)
      = s.perThreadData := by
    funext t
    rw [h, if_neg (Nat.not_lt_zero _)]
  unfold sflowResetInterfaceSamplers
  rw [hempty]

/-- A record that is made, looked at and then filled in is made once. -/
theorem sflowSwitch_setRecord (s : SflowState n) (i hw : ℕ) (enable : Bool) :
    sflowSwitch up (s.setRecord hw (s.perInterfaceData hw)) i hw enable
      = sflowSwitch up s i hw enable := by
  have hrecord : (s.setRecord hw (s.perInterfaceData hw)).perInterfaceData hw
      = s.perInterfaceData hw := by
    simp [SflowState.setRecord]
  have htwice : ∀ sfif, (s.setRecord hw (s.perInterfaceData hw)).setRecord hw sfif
      = s.setRecord hw sfif := by
    intro sfif
    simp [SflowState.setRecord]
  simp only [sflowSwitch, hrecord, htwice]

/-- A change of the global direction writes features only, record after record. -/
theorem sflowDirection_eq (s : SflowState n) (samplingD : BitVec 32) :
    sflowDirection s samplingD =
      { s with
        samplingD := samplingD
        features := writeAll (fun i => (s.perInterfaceData i).swIfIndex)
          (fun i => wantedFeatures { s with samplingD := samplingD } (s.perInterfaceData i))
          s.features (List.range s.vecLen) } := by
  have hloop : ∀ (is : List ℕ) (features : ℕ → SflowFeatures),
      is.foldl (fun s i => sflowEnableDisableInterface s (s.perInterfaceData i))
          { s with samplingD := samplingD, features := features } =
        { s with
          samplingD := samplingD
          features := writeAll (fun i => (s.perInterfaceData i).swIfIndex)
            (fun i => wantedFeatures { s with samplingD := samplingD } (s.perInterfaceData i))
            features is } := by
    intro is
    induction is with
    | nil => intro features; rfl
    | cons i is ih => intro features; exact ih _
  exact hloop (List.range s.vecLen) s.features

/-- **Every event takes one of the branches.** -/
theorem sflowStep_branch (s : SflowState n) (e : SflowEvent α n) :
    SflowBranch up s e (sflowStep up s e) := by
  cases e with
  | enableDisable i enable =>
    show SflowBranch up s _ (s.after (sflowEnableDisable up s i enable))
    unfold sflowEnableDisable hardwareInterface
    cases hi : up.hwIfIndex i with
    | none => exact .unknownEnable hi
    | some hw =>
      -- `vec_validate` of the records does not change what is enabled
      have henabled : (s.setRecord hw (s.perInterfaceData hw)).enabled hw = s.enabled hw := by
        simp [SflowState.enabled, SflowState.setRecord]
      by_cases hsame : s.enabled hw = enable
      · simp only [bind, Except.bind, henabled, hsame, beq_self_eq_true, if_true]
        exact .asWanted hi hsame
      · have hne : (s.enabled hw == enable) = false := by simpa using hsame
        simp only [bind, Except.bind, henabled, hne, Bool.false_eq_true, if_false,
          sflowSwitch_setRecord]
        exact .switched hi hsame
  | samplingRateSet i samplingN =>
    show SflowBranch up s _ (s.after (sflowSetSamplingRateSet up s i samplingN))
    unfold sflowSetSamplingRateSet hardwareInterface
    cases hi : up.hwIfIndex i with
    | none => exact .unknownRate hi
    | some hw =>
      simp only [bind, Except.bind]
      split
      · exact .ownRate hi
      · -- without threads there is nothing to reset
        rename_i hth
        have hrate : SflowBranch up s (.samplingRateSet i samplingN) _ := .ownRate hi
        rw [reset_of_no_threads up (not_not.1 hth)] at hrate
        exact hrate
  | samplingRate samplingN =>
    show SflowBranch up s _ (sflowSamplingRate up s samplingN)
    unfold sflowSamplingRate
    cases hdyn : s.dynamic samplingN with
    | true => exact .globalRate hdyn
    | false => exact .startStop hdyn
  | directionSet i direction =>
    show SflowBranch up s _ (s.after (sflowSetDirectionSet up s i direction))
    unfold sflowSetDirectionSet hardwareInterface
    cases hi : up.hwIfIndex i with
    | none => exact .unknownDirection hi
    | some hw =>
      simp only [bind, Except.bind]
      by_cases hd : sflowDirnBoth < direction
      · simp only [if_pos hd]
        exact .wrongDirection hd
      · simp only [if_neg hd]
        exact .ownDirection hi hd
  | direction samplingD => exact .globalDirection
  | frame thread packets => exact .frame

/-! ## What an event does to the samplers -/

/-- There is no sampler beyond the end of the vector. -/
def PerThreadData.Covered (sfwk : PerThreadData) : Prop :=
  ∀ hw, sfwk.vecLen ≤ hw → sfwk.perInterface hw = none

/-- The samplers of the interfaces `R` are reset, the others stay. -/
structure Reseeded (smp : SflowMain) (R : ℕ → Prop) (d d' : Fin n → PerThreadData) : Prop where
  reset : ∀ t hw, R hw → (d' t).perInterface hw = some (.reset smp hw t)
  keep : ∀ t hw, ¬ R hw → (d' t).perInterface hw = (d t).perInterface hw
  covered : ∀ t, (d t).Covered → (d' t).Covered

/-- Nothing is reset. -/
theorem Reseeded.refl (smp : SflowMain) {R : ℕ → Prop} (hR : ∀ hw, ¬ R hw)
    (d : Fin n → PerThreadData) : Reseeded smp R d d where
  reset := fun _ hw h => absurd h (hR hw)
  keep := fun _ _ _ => rfl
  covered := fun _ h => h

/-- The samplers of one interface. -/
theorem reset_reseeded {s : SflowState n} (hth : s.totalThreads = n) (hw : ℕ) :
    Reseeded (s.rates up) (fun h => h = hw) s.perThreadData
      (sflowResetInterfaceSamplers up s hw).perThreadData := by
  have hdata : (sflowResetInterfaceSamplers up s hw).perThreadData
      = fun t => (s.perThreadData t).setSampler hw (.reset (s.rates up) hw t) := by
    funext t
    show (if t.val < s.totalThreads then _ else _) = _
    rw [if_pos (by rw [hth]; exact t.isLt)]
  rw [hdata]
  refine ⟨?_, ?_, ?_⟩
  · rintro t h rfl
    exact Function.update_self h _ _
  · intro t h hne
    exact Function.update_of_ne hne _ _
  · intro t hcov h hle
    have hlt : (s.perThreadData t).vecLen ≤ h ∧ hw + 1 ≤ h := max_le_iff.1 hle
    show Function.update (s.perThreadData t).perInterface hw _ h = none
    rw [Function.update_of_ne (by omega)]
    exact hcov h hlt.1

/-- One reset after another. -/
theorem Reseeded.trans {smp : SflowMain} {R R' : ℕ → Prop} {d d' d'' : Fin n → PerThreadData}
    (h : Reseeded smp R d d') (h' : Reseeded smp R' d' d'') :
    Reseeded smp (fun hw => R hw ∨ R' hw) d d'' where
  reset := by
    intro t hw hR
    by_cases hR' : R' hw
    · exact h'.reset t hw hR'
    · rw [h'.keep t hw hR']
      exact h.reset t hw (hR.resolve_right hR')
  keep := by
    intro t hw hR
    rw [h'.keep t hw fun hR' => hR (Or.inr hR'), h.keep t hw fun hR' => hR (Or.inl hR')]
  covered := fun t hcov => h'.covered t (h.covered t hcov)

/-- The interfaces can be named in another way. -/
theorem Reseeded.congr {smp : SflowMain} {R R' : ℕ → Prop} {d d' : Fin n → PerThreadData}
    (h : Reseeded smp R d d') (hR : ∀ hw, R' hw ↔ R hw) : Reseeded smp R' d d' where
  reset := fun t hw hw' => h.reset t hw ((hR hw).1 hw')
  keep := fun t hw hw' => h.keep t hw fun h' => hw' ((hR hw).2 h')
  covered := h.covered

/-- A sampled interface that follows the global rate. -/
def SflowState.FollowsGlobal (s : SflowState n) (hw : ℕ) : Prop :=
  s.enabled hw = true ∧ (s.perInterfaceData hw).samplingN = 0

/-- The loop of `sflow_set_interface_sampling_rate` writes samplers only: those of the
interfaces that follow the global rate. -/
theorem setInterfaceSamplingRate_loop (is : List ℕ) :
    ∀ {s : SflowState n}, s.totalThreads = n →
      ∃ data, is.foldl (fun s i =>
          if s.enabled i && (s.perInterfaceData i).samplingN == 0 then
            sflowResetInterfaceSamplers up s i
          else s) s = { s with perThreadData := data } ∧
        Reseeded (s.rates up) (fun hw => hw ∈ is ∧ s.FollowsGlobal hw) s.perThreadData data := by
  induction is with
  | nil =>
    intro s _
    exact ⟨s.perThreadData, rfl, .refl _ (fun hw h => List.not_mem_nil h.1) _⟩
  | cons i is ih =>
    intro s hth
    rw [List.foldl_cons]
    by_cases hi : s.FollowsGlobal i
    · rw [if_pos (by simp [hi.1, hi.2])]
      -- a reset changes neither the rates nor who follows the global one
      obtain ⟨data, heq, hrest⟩ := ih (s := sflowResetInterfaceSamplers up s i) hth
      refine ⟨data, heq, ((reset_reseeded up hth i).trans hrest).congr fun hw => ?_⟩
      have hfollows : (sflowResetInterfaceSamplers up s i).FollowsGlobal hw
          ↔ s.FollowsGlobal hw := Iff.rfl
      rw [List.mem_cons, hfollows]
      constructor
      · rintro ⟨rfl | hmem, hf⟩
        · exact Or.inl rfl
        · exact Or.inr ⟨hmem, hf⟩
      · rintro (rfl | ⟨hmem, hf⟩)
        · exact ⟨Or.inl rfl, hi⟩
        · exact ⟨Or.inr hmem, hf⟩
    · have hcond : (s.enabled i && (s.perInterfaceData i).samplingN == 0) = false := by
        simpa [SflowState.FollowsGlobal] using hi
      rw [hcond, if_neg Bool.false_ne_true]
      obtain ⟨data, heq, hrest⟩ := ih hth
      refine ⟨data, heq, hrest.congr fun hw => ?_⟩
      rw [List.mem_cons]
      constructor
      · rintro ⟨rfl | hmem, hf⟩
        · exact absurd hf hi
        · exact ⟨hmem, hf⟩
      · rintro ⟨hmem, hf⟩
        exact ⟨Or.inr hmem, hf⟩

/-- `sflow_set_interface_sampling_rate` resets the samplers of the interfaces that follow the
global rate, and changes nothing else. -/
theorem setInterfaceSamplingRate_eq {s : SflowState n} (hth : s.totalThreads = n) :
    ∃ data, sflowSetInterfaceSamplingRate up s = { s with perThreadData := data } ∧
      Reseeded (s.rates up) (fun hw => hw < s.vecLen ∧ s.FollowsGlobal hw) s.perThreadData data := by
  obtain ⟨data, heq, hreseeded⟩ := setInterfaceSamplingRate_loop up (List.range s.vecLen) hth
  refine ⟨data, heq, hreseeded.congr fun hw => ?_⟩
  rw [List.mem_range]

/-- The interfaces whose samplers an event resets. -/
def Resets (s : SflowState n) (e : SflowEvent α n) (hw : ℕ) : Prop :=
  match e with
  | .enableDisable i enable => up.hwIfIndex i = some hw ∧ enable = true ∧ s.enabled hw = false
  | .samplingRateSet i _ => up.hwIfIndex i = some hw ∧ s.totalThreads ≠ 0
  | .samplingRate samplingN => s.dynamic samplingN = true ∧ hw < s.vecLen ∧ s.FollowsGlobal hw
  | _ => False

/-- The threads are known once an interface has been enabled, and then every sampled
interface has its record and, on each thread, a sampler. -/
structure ControlOk (s : SflowState n) : Prop where
  threads : s.totalThreads = 0 ∨ s.totalThreads = n
  known : ∀ hw, s.enabled hw = true → s.totalThreads = n ∧ hw < s.vecLen
  sampler : ∀ hw, s.enabled hw = true → ∀ t, ∃ smpif, (s.perThreadData t).perInterface hw = some smpif
  covered : ∀ t, (s.perThreadData t).Covered

/-- **What an event other than a frame does to the samplers.** -/
theorem sflowStep_reseeded {s : SflowState n} (hs : ControlOk s) {e : SflowEvent α n}
    (he : ∀ t packets, e ≠ .frame t packets) :
    Reseeded ((sflowStep up s e).rates up) (Resets up s e) s.perThreadData
      (sflowStep up s e).perThreadData := by
  have hbranch := sflowStep_branch up s e
  generalize sflowStep up s e = s' at hbranch
  cases hbranch with
  | unknownEnable hi => exact .refl _ (fun hw h => by simp [Resets, hi] at h) _
  | unknownRate hi => exact .refl _ (fun hw h => by simp [Resets, hi] at h) _
  | unknownDirection hi => exact .refl _ (fun hw h => h) _
  | wrongDirection hd => exact .refl _ (fun hw h => h) _
  | @asWanted i hw enable hi hsame =>
    refine .refl _ (fun h hr => ?_) _
    -- it would have to be off, and is as wanted
    obtain ⟨hih, rfl, hoff⟩ := hr
    obtain rfl := Option.some.inj (hi.symm.trans hih)
    rw [hsame] at hoff
    cases hoff
  | @switched i hw enable hi hother =>
    cases enable with
    | false => exact .refl _ (fun h hr => Bool.false_ne_true hr.2.1) _
    | true =>
      have hoff : s.enabled hw = false := by simpa using hother
      refine (reset_reseeded up (s := sflowSetWorkerSamplingState (s.setRecord hw
        { s.perInterfaceData hw with swIfIndex := i, sflowEnabled := true })) rfl hw).congr ?_
      intro h
      constructor
      · rintro ⟨hih, -, -⟩
        exact (Option.some.inj (hi.symm.trans hih)).symm
      · rintro rfl
        exact ⟨hi, rfl, hoff⟩
  | @ownRate i hw samplingN hi =>
    -- before anything was enabled there are no threads to reset
    rcases Nat.eq_zero_or_pos s.totalThreads with hzero | hpos
    · rw [reset_of_no_threads up (by exact hzero)]
      exact .refl _ (fun h hr => hr.2 hzero) _
    · have hth : s.totalThreads = n := hs.threads.resolve_left hpos.ne'
      refine (reset_reseeded up (s := s.setRecord hw
        { s.perInterfaceData hw with samplingN := samplingN }) hth hw).congr ?_
      intro h
      constructor
      · rintro ⟨hih, -⟩
        exact (Option.some.inj (hi.symm.trans hih)).symm
      · rintro rfl
        exact ⟨hi, hpos.ne'⟩
  | @globalRate samplingN hdyn =>
    obtain ⟨data, heq, hreseeded⟩ := setInterfaceSamplingRate_eq up
      (s := { s with samplingN := samplingN, totalThreads := n }) rfl
    rw [heq]
    exact hreseeded.congr fun h => ⟨fun hr => hr.2, fun hr => ⟨hdyn, hr⟩⟩
  | @startStop samplingN hdyn =>
    refine .refl _ (fun h hr => ?_) _
    exact Bool.false_ne_true (hdyn.symm.trans hr.1)
  | ownDirection hi hd => exact .refl _ (fun hw h => h) _
  | @globalDirection samplingD =>
    rw [sflowDirection_eq]
    exact .refl _ (fun hw h => h) _
  | frame => exact absurd rfl (he _ _)

/-- **What a frame does to the samplers.** -/
theorem sflowFrame_perInterface (s : SflowState n) (thread t : Fin n) (packets : List α) (hw : ℕ) :
    ((sflowFrame up s thread packets).perThreadData t).perInterface hw
      = if t = thread ∧ (s.given up packets).head?.map up.hwIf = some hw then
          ((s.perThreadData t).perInterface hw).map
            (PerIfSampler.tick (s.rates up) hw)^[(s.given up packets).length]
        else (s.perThreadData t).perInterface hw := by
  unfold sflowFrame
  by_cases ht : t = thread
  · subst ht
    simp only [Function.update_self, node_samplers, true_and]
    by_cases hfirst : (s.given up packets).head?.map up.hwIf = some hw
    · cases (s.perThreadData t).perInterface hw with
      | none => simp
      | some smpif => simp only [if_pos hfirst, Option.map_some, Option.getD_some]
    · cases (s.perThreadData t).perInterface hw with
      | none => simp
      | some smpif => simp only [if_neg hfirst, Option.map_some, Option.getD_some]
  · rw [if_neg fun h => ht h.1]
    simp only [Function.update_of_ne ht]

/-! ## Records and threads in every run -/

/-- The record of an interface that is switched is filled in. -/
theorem sflowSwitch_records (s : SflowState n) (i hw : ℕ) (enable : Bool) :
    (sflowSwitch up s i hw enable).perInterfaceData
      = Function.update s.perInterfaceData hw
        { s.perInterfaceData hw with swIfIndex := i, sflowEnabled := enable } := by
  cases enable with
  | true => rfl
  | false => rfl

/-- The flag of an interface that is switched. -/
theorem sflowSwitch_enabled (s : SflowState n) (i hw h : ℕ) (enable : Bool) :
    (sflowSwitch up s i hw enable).enabled h = if h = hw then enable else s.enabled h := by
  unfold SflowState.enabled
  rw [sflowSwitch_records, Function.update_apply]
  split
  · rfl
  · rfl

/-- A new record with the flag of the old one changes nothing in who is sampled. -/
theorem setRecord_enabled {s : SflowState n} {hw : ℕ} {sfif : PerInterfaceData}
    (hflag : sfif.sflowEnabled = s.enabled hw) (h : ℕ) :
    (s.setRecord hw sfif).enabled h = s.enabled h := by
  show (Function.update s.perInterfaceData hw sfif h).sflowEnabled = _
  rw [Function.update_apply]
  split
  · rename_i hh
    rw [hh, hflag]
  · rfl

/-- What an event does to who is sampled, to the vector of records and to the threads: an
interface is enabled with its samplers, and nothing is forgotten. -/
structure EnablesWith (R : ℕ → Prop) (s s' : SflowState n) : Prop where
  enabled : ∀ hw, s'.enabled hw = true → s.enabled hw = true ∨
    (R hw ∧ s'.totalThreads = n ∧ hw < s'.vecLen)
  vecLen : s.vecLen ≤ s'.vecLen
  threads : s'.totalThreads = s.totalThreads ∨ s'.totalThreads = n

/-- Records, flags and threads after an event. -/
theorem sflowStep_enablesWith (s : SflowState n) (e : SflowEvent α n) :
    EnablesWith (Resets up s e) s (sflowStep up s e) := by
  have hbranch := sflowStep_branch up s e
  generalize sflowStep up s e = s' at hbranch
  cases hbranch with
  | unknownEnable hi => exact ⟨fun _ => Or.inl, le_rfl, Or.inl rfl⟩
  | unknownRate hi => exact ⟨fun _ => Or.inl, le_rfl, Or.inl rfl⟩
  | unknownDirection hi => exact ⟨fun _ => Or.inl, le_rfl, Or.inl rfl⟩
  | wrongDirection hd => exact ⟨fun _ => Or.inl, le_rfl, Or.inl rfl⟩
  | asWanted hi hsame =>
    refine ⟨fun h hon => Or.inl ?_, le_max_left _ _, Or.inl rfl⟩
    rwa [setRecord_enabled rfl] at hon
  | @switched i hw enable hi hother =>
    cases enable with
    | false =>
      refine ⟨fun h hon => Or.inl ?_, le_max_left _ _, Or.inl rfl⟩
      replace hon := (sflowSwitch_enabled up s i hw h false).symm.trans hon
      by_cases hh : h = hw
      · rw [if_pos hh] at hon
        cases hon
      · rwa [if_neg hh] at hon
    | true =>
      refine ⟨fun h hon => ?_, le_max_left _ _, Or.inr rfl⟩
      -- either the interface was on before, or it is the one that is switched
      replace hon := (sflowSwitch_enabled up s i hw h true).symm.trans hon
      by_cases hh : h = hw
      · subst hh
        have hoff : s.enabled h = false := by simpa using hother
        have hlt : h < max s.vecLen (h + 1) := by omega
        exact Or.inr ⟨⟨hi, rfl, hoff⟩, rfl, hlt⟩
      · rw [if_neg hh] at hon
        exact Or.inl hon
  | ownRate hi =>
    refine ⟨fun h hon => Or.inl ?_, le_max_left _ _, Or.inl rfl⟩
    exact (setRecord_enabled (by rfl) h).symm.trans hon
  | @globalRate samplingN hdyn =>
    obtain ⟨data, heq, -⟩ := setInterfaceSamplingRate_eq up
      (s := { s with samplingN := samplingN, totalThreads := n }) rfl
    rw [heq]
    exact ⟨fun _ => Or.inl, le_rfl, Or.inr rfl⟩
  | startStop hdyn => exact ⟨fun _ => Or.inl, le_rfl, Or.inl rfl⟩
  | ownDirection hi hd =>
    refine ⟨fun h hon => Or.inl ?_, le_max_left _ _, Or.inl rfl⟩
    exact (setRecord_enabled (by rfl) h).symm.trans hon
  | globalDirection =>
    rw [sflowDirection_eq]
    exact ⟨fun _ => Or.inl, le_rfl, Or.inl rfl⟩
  | frame => exact ⟨fun _ => Or.inl, le_rfl, Or.inl rfl⟩

/-- **Every event keeps records, samplers and threads in order.** -/
theorem controlOk_step {s : SflowState n} (hs : ControlOk s) (e : SflowEvent α n) :
    ControlOk (sflowStep up s e) := by
  obtain ⟨henabled, hlen, hthreads⟩ := sflowStep_enablesWith up s e
  refine ⟨?_, ?_, ?_, ?_⟩
  · rcases hthreads with hth | hth
    · rw [hth]
      exact hs.threads
    · exact Or.inr hth
  · intro hw hon
    -- an interface that was on before, or one that this event switched on
    rcases henabled hw hon with hold | ⟨-, hth, hlt⟩
    · obtain ⟨hth, hlt⟩ := hs.known hw hold
      refine ⟨?_, hlt.trans_le hlen⟩
      rcases hthreads with hth' | hth'
      · exact hth'.trans hth
      · exact hth'
    · exact ⟨hth, hlt⟩
  · intro hw hon t
    -- a frame moves samplers on, and any other event resets them or leaves them
    by_cases he : ∃ thread packets, e = .frame thread packets
    · obtain ⟨thread, packets, rfl⟩ := he
      obtain ⟨smpif, hsmp⟩ := hs.sampler hw hon t
      show ∃ smpif', ((sflowFrame up s thread packets).perThreadData t).perInterface hw = some smpif'
      rw [sflowFrame_perInterface, hsmp]
      split
      · exact ⟨_, rfl⟩
      · exact ⟨_, rfl⟩
    · have hre := sflowStep_reseeded up hs (e := e) fun t p h => he ⟨t, p, h⟩
      by_cases hR : Resets up s e hw
      · exact ⟨_, hre.reset t hw hR⟩
      · rw [hre.keep t hw hR]
        exact hs.sampler hw ((henabled hw hon).resolve_right fun h => hR h.1) t
  · intro t
    by_cases he : ∃ thread packets, e = .frame thread packets
    · obtain ⟨thread, packets, rfl⟩ := he
      intro hw hle
      have hle' : (s.perThreadData t).vecLen ≤ hw := by
        refine le_trans (le_of_eq ?_) hle
        show _ = (Function.update s.perThreadData thread _ t).vecLen
        by_cases ht : t = thread
        · subst ht
          rw [Function.update_self]
        · rw [Function.update_of_ne ht]
      have hnone := hs.covered t hw hle'
      show ((sflowFrame up s thread packets).perThreadData t).perInterface hw = none
      rw [sflowFrame_perInterface, hnone]
      split
      · rfl
      · rfl
    · exact (sflowStep_reseeded up hs fun t p h => he ⟨t, p, h⟩).covered t (hs.covered t)

/-- It is so at the start. -/
theorem controlOk_init (samplingN samplingD dropM : BitVec 32) :
    ControlOk (SflowState.init n samplingN samplingD dropM) where
  threads := Or.inl rfl
  known := fun _ h => absurd h Bool.false_ne_true
  sampler := fun _ h => absurd h Bool.false_ne_true
  covered := fun _ _ _ => rfl

end Control

/-- All interfaces are hardware interfaces, with the same index; sampling runs while there is
a rate and an interface.  The packets 10 to 19 are of the interface 1, and so on. -/
def allHardware : SflowUpstream ℕ where
  hwIfIndex := some
  hwIfIndex_inj := fun h h' => Option.some.inj (h.trans h'.symm)
  randomU32 := everyPacket.randomU32
  samplingStartStop := fun _ samplingN interfacesEnabled => samplingN != 0 && interfacesEnabled != 0
  hwIf := fun packet => packet / 10

end Sflow
