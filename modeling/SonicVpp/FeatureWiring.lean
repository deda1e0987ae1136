/-
# Wiring the sonic-ext features to LCP pairs

The plugin enables its features interface by interface: `sonic-ext-capture` on the phy of
an LCP pair, `sonic-ext-host-xc` and `sonic-ext-aggr-tap-redirect` on its host tap.  The
calls come from the callbacks of the LCP pairs and from walks over the existing pairs
when a toggle is first turned on (`sonic_ext.c`).

The callbacks and toggles are given by the calls they issue.  A history is a list of
events; the state carries, beside what the plugin and VPP know, the enables issued for
each live pair and the roles its phy had.
-/
import Mathlib
import SonicVpp.RunInvariant
import SonicVpp.RefCount

namespace SonicExt

open RunInvariant

/-! ## Interfaces -/

/-- `vnet_sw_interface_type_t`. -/
inductive SwInterfaceType
  | hardware
  | sub
  | p2p
  | pipe
  deriving DecidableEq, Repr

/-- `l2_input_config_t`, as far as the BVI flag. -/
structure L2InputConfig where
  bvi : Bool
  deriving DecidableEq, Repr

/-- `vnet_hw_interface_t`, as far as the name of its device class. -/
structure HwInterface where
  deviceClassName : Option String
  deriving DecidableEq, Repr

/-- What VPP knows of the interfaces. -/
structure VnetMain where
  swInterfaceType : BitVec 32 → Option SwInterfaceType
  supHwInterface : BitVec 32 → Option HwInterface
  l2InputConfigs : List L2InputConfig

/-- `sonic_ext_sw_is_sub`. -/
def sonicExtSwIsSub (vnet : VnetMain) (swIfIndex : BitVec 32) : Bool :=
  vnet.swInterfaceType swIfIndex = some .sub

/-- `sonic_ext_phy_is_bvi`. -/
def sonicExtPhyIsBvi (vnet : VnetMain) (phySwIfIndex : BitVec 32) : Bool :=
  if phySwIfIndex = BitVec.allOnes 32 then false
  else
    match vnet.swInterfaceType phySwIfIndex with
    | none => false
    | some .sub => false
    | some _ =>
      match vnet.l2InputConfigs[phySwIfIndex.toNat]? with
      | some cfg => cfg.bvi
      | none => false

/-- `sonic_ext_phy_is_bond`. -/
def sonicExtPhyIsBond (vnet : VnetMain) (phySwIfIndex : BitVec 32) : Bool :=
  if phySwIfIndex = BitVec.allOnes 32 then false
  else
    match vnet.swInterfaceType phySwIfIndex with
    | none => false
    | some _ =>
      match vnet.supHwInterface phySwIfIndex with
      | none => false
      | some hw => hw.deviceClassName = some "bond"

/-- `sonic_ext_phy_is_aggregate`. -/
def sonicExtPhyIsAggregate (vnet : VnetMain) (phySwIfIndex : BitVec 32) : Bool :=
  sonicExtPhyIsBvi vnet phySwIfIndex || sonicExtPhyIsBond vnet phySwIfIndex

/-! ## Feature calls -/

/-- A feature arc. -/
inductive Arc
  | deviceInput
  | interfaceOutput
  | ip4Drop
  | ip6Drop
  deriving DecidableEq, Repr

/-- A sonic-ext feature on its arc. -/
inductive Feature
  | capture
  | hostXc
  | aggrTapRedirect
  | gleanRedirectIp4
  | gleanRedirectIp6
  deriving DecidableEq, Repr

/-- The arc of a feature. -/
def Feature.arc : Feature → Arc
  | .capture => .deviceInput
  | .hostXc => .deviceInput
  | .aggrTapRedirect => .interfaceOutput
  | .gleanRedirectIp4 => .ip4Drop
  | .gleanRedirectIp6 => .ip6Drop

/-- The features that are wired interface by interface; glean-redirect is one global
toggle on index 0. -/
def Feature.perInterface : Feature → Bool
  | .capture => true
  | .hostXc => true
  | .aggrTapRedirect => true
  | .gleanRedirectIp4 => false
  | .gleanRedirectIp6 => false

/-- One call of `vnet_feature_enable_disable`: its key is feature and interface. -/
@[reducible] def FeatureCall := RefCount.Call (Feature × BitVec 32)

/-- Enable helper of a device-input feature: nothing is done on a sub-interface. -/
def deviceInputEnableDisable (feature : Feature) (vnet : VnetMain) (swIfIndex : BitVec 32)
    (enable : Bool) : List FeatureCall :=
  if sonicExtSwIsSub vnet swIfIndex then [] else [⟨(feature, swIfIndex), enable⟩]

/-- `sonic_ext_capture_enable_disable`. -/
def sonicExtCaptureEnableDisable : VnetMain → BitVec 32 → Bool → List FeatureCall :=
  deviceInputEnableDisable .capture

/-- `sonic_ext_host_xc_enable_disable`. -/
def sonicExtHostXcEnableDisable : VnetMain → BitVec 32 → Bool → List FeatureCall :=
  deviceInputEnableDisable .hostXc

/-- `sonic_ext_aggr_tap_redirect_enable_disable`. -/
def sonicExtAggrTapRedirectEnableDisable (swIfIndex : BitVec 32) (enable : Bool) :
    List FeatureCall :=
  [⟨(.aggrTapRedirect, swIfIndex), enable⟩]

/-- `sonic_ext_glean_redirect_enable_disable`. -/
def sonicExtGleanRedirectEnableDisable (enable : Bool) : List FeatureCall :=
  [⟨(.gleanRedirectIp4, 0), enable⟩, ⟨(.gleanRedirectIp6, 0), enable⟩]

/-! ## Pairs and toggles -/

/-- The toggles of `sonic_ext_main_t`. -/
structure SonicExtMain where
  puntViaMember : Bool
  hostXc : Bool
  captureEnabled : Bool
  hostXcEnabled : Bool
  gleanRedirectEnabled : Bool
  deriving DecidableEq, Repr

/-- `lcp_itf_pair_t`. -/
structure LcpItfPair where
  lipHostSwIfIndex : BitVec 32
  lipPhySwIfIndex : BitVec 32
  deriving DecidableEq, Repr

/-- The body of the pair callbacks, which differ in `enable` only. -/
def lcpPairCb (sem : SonicExtMain) (vnet : VnetMain) (lip : LcpItfPair) (enable : Bool) :
    List FeatureCall :=
  (if sem.captureEnabled && !sonicExtPhyIsAggregate vnet lip.lipPhySwIfIndex
    then sonicExtCaptureEnableDisable vnet lip.lipPhySwIfIndex enable else []) ++
  (if sem.hostXcEnabled
    then sonicExtHostXcEnableDisable vnet lip.lipHostSwIfIndex enable else []) ++
  (if sonicExtPhyIsAggregate vnet lip.lipPhySwIfIndex
    then sonicExtAggrTapRedirectEnableDisable lip.lipHostSwIfIndex enable else [])

/-- `sonic_ext_lcp_pair_add_cb`. -/
def sonicExtLcpPairAddCb (sem : SonicExtMain) (vnet : VnetMain) (lip : LcpItfPair) :
    List FeatureCall :=
  lcpPairCb sem vnet lip true

/-- `sonic_ext_lcp_pair_del_cb`. -/
def sonicExtLcpPairDelCb (sem : SonicExtMain) (vnet : VnetMain) (lip : LcpItfPair) :
    List FeatureCall :=
  lcpPairCb sem vnet lip false

/-- `sonic_ext_host_xc_walk_enable_cb`. -/
def sonicExtHostXcWalkEnableCb (vnet : VnetMain) (lip : LcpItfPair) : List FeatureCall :=
  sonicExtHostXcEnableDisable vnet lip.lipHostSwIfIndex true

/-- `sonic_ext_capture_walk_enable_cb`. -/
def sonicExtCaptureWalkEnableCb (vnet : VnetMain) (lip : LcpItfPair) : List FeatureCall :=
  if !sonicExtPhyIsAggregate vnet lip.lipPhySwIfIndex
    then sonicExtCaptureEnableDisable vnet lip.lipPhySwIfIndex true else []

/-- Turning punt-via-member on walks the pairs: it does so the first time. -/
def capturesNow (sem : SonicExtMain) (isEnable : BitVec 8) : Bool :=
  isEnable ≠ 0 && !sem.captureEnabled

/-- Turning host-xc on walks the pairs: it does so the first time. -/
def hostXcsNow (sem : SonicExtMain) (isEnable : BitVec 8) : Bool :=
  isEnable ≠ 0 && !sem.hostXcEnabled

/-- `sonic_ext_set_punt_via_member`. -/
def sonicExtSetPuntViaMember (sem : SonicExtMain) (vnet : VnetMain) (pairs : List LcpItfPair)
    (isEnable : BitVec 8) : SonicExtMain × List FeatureCall :=
  let gleansNow := isEnable ≠ 0 && !sem.gleanRedirectEnabled
  ({ sem with
      puntViaMember := isEnable ≠ 0
      captureEnabled := sem.captureEnabled || capturesNow sem isEnable
      gleanRedirectEnabled := sem.gleanRedirectEnabled || gleansNow },
    (if capturesNow sem isEnable then pairs.flatMap (sonicExtCaptureWalkEnableCb vnet) else []) ++
    (if gleansNow then sonicExtGleanRedirectEnableDisable true else []))

/-- `sonic_ext_set_host_xc`. -/
def sonicExtSetHostXc (sem : SonicExtMain) (vnet : VnetMain) (pairs : List LcpItfPair)
    (isEnable : BitVec 8) : SonicExtMain × List FeatureCall :=
  ({ sem with
      hostXc := isEnable ≠ 0
      hostXcEnabled := sem.hostXcEnabled || hostXcsNow sem isEnable },
    if hostXcsNow sem isEnable then pairs.flatMap (sonicExtHostXcWalkEnableCb vnet) else [])

/-! ## Histories -/

/-- A pair between its add and its delete callback, with the enables issued for it, the
role of its phy when it was added and when capture was last wired (the add callback or
the capture walk), and whether the phy was an aggregate at any time since. -/
structure LivePair where
  lip : LcpItfPair
  issued : List (Feature × BitVec 32)
  addedAggregate : Bool
  captureAggregate : Bool
  everAggregate : Bool
  deriving DecidableEq, Repr

/-- The state of a history. -/
structure Wiring where
  vnet : VnetMain
  sem : SonicExtMain
  pairs : List LivePair
  counts : Feature × BitVec 32 → ℕ

/-- What happens to the plugin.  `lcp_itf_pair_add` refuses a phy that has a pair and
`lcp_itf_pair_del` finds the pair by its phy; between the callbacks VPP changes. -/
inductive Event
  | pairAdd (lip : LcpItfPair)
  | pairDel (phySwIfIndex : BitVec 32)
  | setPuntViaMember (isEnable : BitVec 8)
  | setHostXc (isEnable : BitVec 8)
  | vnetChange (vnet : VnetMain)

/-- `lcp_itf_pair_find_by_phy`. -/
def lcpItfPairFindByPhy (pairs : List LivePair) (phySwIfIndex : BitVec 32) : Option LivePair :=
  pairs.find? (·.lip.lipPhySwIfIndex = phySwIfIndex)

/-- The calls an event issues. -/
def eventCalls (s : Wiring) : Event → List FeatureCall
  | .pairAdd lip =>
    match lcpItfPairFindByPhy s.pairs lip.lipPhySwIfIndex with
    | some _ => []
    | none => sonicExtLcpPairAddCb s.sem s.vnet lip
  | .pairDel phySwIfIndex =>
    match lcpItfPairFindByPhy s.pairs phySwIfIndex with
    | some p => sonicExtLcpPairDelCb s.sem s.vnet p.lip
    | none => []
  | .setPuntViaMember isEnable =>
    (sonicExtSetPuntViaMember s.sem s.vnet (s.pairs.map LivePair.lip) isEnable).2
  | .setHostXc isEnable =>
    (sonicExtSetHostXc s.sem s.vnet (s.pairs.map LivePair.lip) isEnable).2
  | .vnetChange _ => []

/-- A pair as its add callback leaves it. -/
def addedPair (s : Wiring) (lip : LcpItfPair) : LivePair where
  lip := lip
  issued := (sonicExtLcpPairAddCb s.sem s.vnet lip).map RefCount.Call.key
  addedAggregate := sonicExtPhyIsAggregate s.vnet lip.lipPhySwIfIndex
  captureAggregate := sonicExtPhyIsAggregate s.vnet lip.lipPhySwIfIndex
  everAggregate := sonicExtPhyIsAggregate s.vnet lip.lipPhySwIfIndex

/-- A pair as the capture walk leaves it. -/
def captureWalked (s : Wiring) (p : LivePair) : LivePair :=
  { p with
    issued := p.issued ++ (sonicExtCaptureWalkEnableCb s.vnet p.lip).map RefCount.Call.key
    captureAggregate := sonicExtPhyIsAggregate s.vnet p.lip.lipPhySwIfIndex }

/-- A pair as the host-xc walk leaves it. -/
def hostXcWalked (s : Wiring) (p : LivePair) : LivePair :=
  { p with
    issued := p.issued ++ (sonicExtHostXcWalkEnableCb s.vnet p.lip).map RefCount.Call.key }

/-- A pair after a change of VPP. -/
def roleSeen (vnet : VnetMain) (p : LivePair) : LivePair :=
  { p with
    everAggregate := p.everAggregate || sonicExtPhyIsAggregate vnet p.lip.lipPhySwIfIndex }

/-- The pairs after an event. -/
def eventPairs (s : Wiring) : Event → List LivePair
  | .pairAdd lip =>
    match lcpItfPairFindByPhy s.pairs lip.lipPhySwIfIndex with
    | some _ => s.pairs
    | none => s.pairs ++ [addedPair s lip]
  | .pairDel phySwIfIndex => s.pairs.eraseP (·.lip.lipPhySwIfIndex = phySwIfIndex)
  | .setPuntViaMember isEnable =>
    if capturesNow s.sem isEnable then s.pairs.map (captureWalked s) else s.pairs
  | .setHostXc isEnable =>
    if hostXcsNow s.sem isEnable then s.pairs.map (hostXcWalked s) else s.pairs
  | .vnetChange vnet => s.pairs.map (roleSeen vnet)

/-- The toggles after an event. -/
def eventSem (s : Wiring) : Event → SonicExtMain
  | .setPuntViaMember isEnable =>
    (sonicExtSetPuntViaMember s.sem s.vnet (s.pairs.map LivePair.lip) isEnable).1
  | .setHostXc isEnable =>
    (sonicExtSetHostXc s.sem s.vnet (s.pairs.map LivePair.lip) isEnable).1
  | _ => s.sem

/-- VPP after an event. -/
def eventVnet (s : Wiring) : Event → VnetMain
  | .vnetChange vnet => vnet
  | _ => s.vnet

section Step

variable (strip : (Feature × BitVec 32 → ℕ) → FeatureCall → (Feature × BitVec 32 → ℕ))

/-- `vnet_feature_enable_disable` as a reference count for each feature and interface.  A
device-input disable on a sub-interface reaches into configurations that other interfaces
share: what it does is the parameter `strip`. -/
def vnetFeatureEnableDisable (vnet : VnetMain) (c : Feature × BitVec 32 → ℕ)
    (call : FeatureCall) : Feature × BitVec 32 → ℕ :=
  if call.key.1.arc = .deviceInput ∧ sonicExtSwIsSub vnet call.key.2 ∧ !call.take
    then strip c call else RefCount.apply c call

/-- One event. -/
def step (s : Wiring) (e : Event) : Wiring where
  vnet := eventVnet s e
  sem := eventSem s e
  pairs := eventPairs s e
  counts := (eventCalls s e).foldl (vnetFeatureEnableDisable strip s.vnet) s.counts

end Step

/-- `sonic_ext_main` zeroed, no pairs and nothing enabled. -/
def initial (vnet : VnetMain) : Wiring where
  vnet := vnet
  sem := ⟨false, false, false, false, false⟩
  pairs := []
  counts := fun _ => 0

/-- The toggles of `sonic_ext_init`. -/
def sonicExtInit : List Event := [.setPuntViaMember 1, .setHostXc 1]

/-- The interfaces of live pairs stay sub-interfaces or stay none. -/
def SubKept (s : Wiring) : Event → Prop
  | .vnetChange vnet => ∀ p ∈ s.pairs,
    sonicExtSwIsSub vnet p.lip.lipPhySwIfIndex = sonicExtSwIsSub s.vnet p.lip.lipPhySwIfIndex ∧
    sonicExtSwIsSub vnet p.lip.lipHostSwIfIndex = sonicExtSwIsSub s.vnet p.lip.lipHostSwIfIndex
  | _ => True

/-! ## What the calls of an event are -/

theorem mem_deviceInputEnableDisable {feature : Feature} {vnet : VnetMain} {i : BitVec 32}
    {enable : Bool} {call : FeatureCall} :
    call ∈ deviceInputEnableDisable feature vnet i enable ↔
      sonicExtSwIsSub vnet i = false ∧ call = ⟨(feature, i), enable⟩ := by
  unfold deviceInputEnableDisable
  cases hsub : sonicExtSwIsSub vnet i <;> simp

theorem mem_lcpPairCb {sem : SonicExtMain} {vnet : VnetMain} {lip : LcpItfPair} {enable : Bool}
    {call : FeatureCall} (h : call ∈ lcpPairCb sem vnet lip enable) :
    (sonicExtSwIsSub vnet lip.lipPhySwIfIndex = false ∧
      call = ⟨(.capture, lip.lipPhySwIfIndex), enable⟩) ∨
    (sonicExtSwIsSub vnet lip.lipHostSwIfIndex = false ∧
      call = ⟨(.hostXc, lip.lipHostSwIfIndex), enable⟩) ∨
    call = ⟨(.aggrTapRedirect, lip.lipHostSwIfIndex), enable⟩ := by
  simp only [lcpPairCb, List.mem_append, List.mem_ite_nil_right] at h
  rcases h with (⟨-, h⟩ | ⟨-, h⟩) | ⟨-, h⟩
  · exact Or.inl (mem_deviceInputEnableDisable.1 h)
  · exact Or.inr (Or.inl (mem_deviceInputEnableDisable.1 h))
  · exact Or.inr (Or.inr (List.mem_singleton.1 h))

theorem mem_sonicExtCaptureWalkEnableCb {vnet : VnetMain} {lip : LcpItfPair} {call : FeatureCall}
    (h : call ∈ sonicExtCaptureWalkEnableCb vnet lip) :
    sonicExtSwIsSub vnet lip.lipPhySwIfIndex = false ∧
      call = ⟨(.capture, lip.lipPhySwIfIndex), true⟩ := by
  rw [sonicExtCaptureWalkEnableCb, List.mem_ite_nil_right] at h
  exact mem_deviceInputEnableDisable.1 h.2

/-- **What an event can call**: the callback of the pair it names, the walk callback of a
live pair when a toggle is first turned on, or the global glean-redirect. -/
theorem eventCalls_cases {s : Wiring} {e : Event} {call : FeatureCall}
    (h : call ∈ eventCalls s e) :
    (∃ lip, e = .pairAdd lip ∧ lcpItfPairFindByPhy s.pairs lip.lipPhySwIfIndex = none ∧
      call ∈ lcpPairCb s.sem s.vnet lip true) ∨
    (∃ i p, e = .pairDel i ∧ lcpItfPairFindByPhy s.pairs i = some p ∧
      call ∈ lcpPairCb s.sem s.vnet p.lip false) ∨
    (∃ x, e = .setPuntViaMember x ∧ capturesNow s.sem x = true ∧
      ∃ p ∈ s.pairs, call ∈ sonicExtCaptureWalkEnableCb s.vnet p.lip) ∨
    (∃ x, e = .setPuntViaMember x ∧ call ∈ sonicExtGleanRedirectEnableDisable true) ∨
    (∃ x, e = .setHostXc x ∧ hostXcsNow s.sem x = true ∧
      ∃ p ∈ s.pairs, call ∈ sonicExtHostXcWalkEnableCb s.vnet p.lip) := by
  cases e with
  | pairAdd lip =>
    simp only [eventCalls] at h
    cases hfind : lcpItfPairFindByPhy s.pairs lip.lipPhySwIfIndex with
    | some p => rw [hfind] at h; cases h
    | none => rw [hfind] at h; exact Or.inl ⟨lip, rfl, hfind, h⟩
  | pairDel i =>
    simp only [eventCalls] at h
    cases hfind : lcpItfPairFindByPhy s.pairs i with
    | some p => rw [hfind] at h; exact Or.inr (Or.inl ⟨i, p, rfl, hfind, h⟩)
    | none => rw [hfind] at h; cases h
  | setPuntViaMember x =>
    simp only [eventCalls, sonicExtSetPuntViaMember, List.mem_append, List.mem_ite_nil_right,
      List.mem_flatMap, List.mem_map] at h
    rcases h with ⟨hnow, _, ⟨p, hp, rfl⟩, hcall⟩ | ⟨-, hcall⟩
    · exact Or.inr (Or.inr (Or.inl ⟨x, rfl, hnow, p, hp, hcall⟩))
    · exact Or.inr (Or.inr (Or.inr (Or.inl ⟨x, rfl, hcall⟩)))
  | setHostXc x =>
    simp only [eventCalls, sonicExtSetHostXc, List.mem_ite_nil_right, List.mem_flatMap,
      List.mem_map] at h
    obtain ⟨hnow, _, ⟨p, hp, rfl⟩, hcall⟩ := h
    exact Or.inr (Or.inr (Or.inr (Or.inr ⟨x, rfl, hnow, p, hp, hcall⟩)))
  | vnetChange vnet => cases h

/-- No device-input call is issued on a sub-interface. -/
theorem eventCalls_notSub {s : Wiring} {e : Event} {call : FeatureCall}
    (h : call ∈ eventCalls s e) (harc : call.key.1.arc = .deviceInput) :
    sonicExtSwIsSub s.vnet call.key.2 = false := by
  have hpair : ∀ {lip enable}, call ∈ lcpPairCb s.sem s.vnet lip enable →
      sonicExtSwIsSub s.vnet call.key.2 = false := by
    intro lip enable hcall
    rcases mem_lcpPairCb hcall with ⟨hsub, rfl⟩ | ⟨hsub, rfl⟩ | rfl
    · exact hsub
    · exact hsub
    · cases harc
  obtain ⟨_, _, _, hcall⟩ | ⟨_, _, _, _, hcall⟩ | ⟨_, _, _, _, _, hcall⟩ | ⟨_, _, hcall⟩ |
    ⟨_, _, _, _, _, hcall⟩ := eventCalls_cases h
  · exact hpair hcall
  · exact hpair hcall
  · obtain ⟨hsub, rfl⟩ := mem_sonicExtCaptureWalkEnableCb hcall
    exact hsub
  · simp only [sonicExtGleanRedirectEnableDisable, List.mem_cons, List.not_mem_nil, or_false]
      at hcall
    rcases hcall with rfl | rfl <;> cases harc
  · obtain ⟨hsub, rfl⟩ := mem_deviceInputEnableDisable.1 hcall
    exact hsub

/-- The calls of an event act as on plain reference counts. -/
theorem step_counts
    (strip : (Feature × BitVec 32 → ℕ) → FeatureCall → (Feature × BitVec 32 → ℕ))
    (s : Wiring) (e : Event) :
    (step strip s e).counts = RefCount.applyAll s.counts (eventCalls s e) := by
  have hplain : ∀ calls : List FeatureCall, (∀ call ∈ calls, call ∈ eventCalls s e) →
      ∀ c, calls.foldl (vnetFeatureEnableDisable strip s.vnet) c = RefCount.applyAll c calls := by
    intro calls
    induction calls with
    | nil => intro _ c; rfl
    | cons call calls ih =>
      intro hmem c
      have hone : vnetFeatureEnableDisable strip s.vnet c call = RefCount.apply c call := by
        unfold vnetFeatureEnableDisable
        rw [if_neg]
        rintro ⟨harc, hsub, -⟩
        rw [eventCalls_notSub (hmem call List.mem_cons_self) harc] at hsub
        cases hsub
      rw [List.foldl_cons, hone, ih (fun b hb => hmem b (List.mem_cons_of_mem _ hb)),
        RefCount.applyAll_cons]
  exact hplain _ (fun _ h => h) _

/-- Only a delete callback disables anything. -/
theorem eventCalls_take {s : Wiring} {e : Event} (hdel : ∀ i, e ≠ .pairDel i) {call : FeatureCall}
    (h : call ∈ eventCalls s e) : call.take = true := by
  obtain ⟨_, _, _, hcall⟩ | ⟨i, _, he, _, _⟩ | ⟨_, _, _, _, _, hcall⟩ | ⟨_, _, hcall⟩ |
    ⟨_, _, _, _, _, hcall⟩ := eventCalls_cases h
  · rcases mem_lcpPairCb hcall with ⟨-, rfl⟩ | ⟨-, rfl⟩ | rfl <;> rfl
  · exact absurd he (hdel i)
  · rw [(mem_sonicExtCaptureWalkEnableCb hcall).2]
  · simp only [sonicExtGleanRedirectEnableDisable, List.mem_cons, List.not_mem_nil, or_false]
      at hcall
    rcases hcall with rfl | rfl <;> rfl
  · rw [(mem_deviceInputEnableDisable.1 hcall).2]

/-- A delete callback only disables. -/
theorem delCb_drop {sem : SonicExtMain} {vnet : VnetMain} {lip : LcpItfPair} {call : FeatureCall}
    (h : call ∈ sonicExtLcpPairDelCb sem vnet lip) : call.take = false := by
  rcases mem_lcpPairCb h with ⟨-, rfl⟩ | ⟨-, rfl⟩ | rfl <;> rfl

/-! ## The enables behind a live pair -/

/-- What is wired for a pair whose phy had the role `captureRole` when capture was wired
and `addRole` when it was added. -/
def wiredKeys (sem : SonicExtMain) (vnet : VnetMain) (lip : LcpItfPair)
    (captureRole addRole : Bool) : List (Feature × BitVec 32) :=
  (if sem.captureEnabled && !captureRole && !sonicExtSwIsSub vnet lip.lipPhySwIfIndex
    then [(.capture, lip.lipPhySwIfIndex)] else []) ++
  (if sem.hostXcEnabled && !sonicExtSwIsSub vnet lip.lipHostSwIfIndex
    then [(.hostXc, lip.lipHostSwIfIndex)] else []) ++
  (if addRole then [(.aggrTapRedirect, lip.lipHostSwIfIndex)] else [])

/-- The keys of a device-input helper's calls. -/
theorem deviceInputEnableDisable_keys (feature : Feature) (vnet : VnetMain) (i : BitVec 32)
    (enable : Bool) :
    (deviceInputEnableDisable feature vnet i enable).map RefCount.Call.key =
      if !sonicExtSwIsSub vnet i then [(feature, i)] else [] := by
  unfold deviceInputEnableDisable
  cases sonicExtSwIsSub vnet i <;> rfl

/-- A callback names what is wired for the role of the moment. -/
theorem lcpPairCb_keys (sem : SonicExtMain) (vnet : VnetMain) (lip : LcpItfPair) (enable : Bool) :
    (lcpPairCb sem vnet lip enable).map RefCount.Call.key =
      wiredKeys sem vnet lip (sonicExtPhyIsAggregate vnet lip.lipPhySwIfIndex)
        (sonicExtPhyIsAggregate vnet lip.lipPhySwIfIndex) := by
  have hcap := deviceInputEnableDisable_keys .capture vnet lip.lipPhySwIfIndex enable
  have hxc := deviceInputEnableDisable_keys .hostXc vnet lip.lipHostSwIfIndex enable
  unfold lcpPairCb wiredKeys
  cases sem.captureEnabled <;> cases sem.hostXcEnabled <;>
    cases sonicExtPhyIsAggregate vnet lip.lipPhySwIfIndex <;>
    simp [sonicExtCaptureEnableDisable, sonicExtHostXcEnableDisable,
      sonicExtAggrTapRedirectEnableDisable, hcap, hxc]

/-- What is wired is told apart by the two roles, where capture is wired at all. -/
theorem wiredKeys_perm_iff (sem : SonicExtMain) (vnet : VnetMain) (lip : LcpItfPair)
    (r captureRole addRole : Bool) :
    (wiredKeys sem vnet lip r r).Perm (wiredKeys sem vnet lip captureRole addRole) ↔
      r = addRole ∧ (sem.captureEnabled = true →
        sonicExtSwIsSub vnet lip.lipPhySwIfIndex = false → r = captureRole) := by
  constructor
  · intro hperm
    have haggr := hperm.mem_iff (a := (.aggrTapRedirect, lip.lipHostSwIfIndex))
    have hcap := hperm.mem_iff (a := (.capture, lip.lipPhySwIfIndex))
    simp only [wiredKeys, List.mem_append, List.mem_ite_nil_right, List.mem_singleton,
      Prod.mk.injEq, reduceCtorEq, false_and, and_false, or_false, false_or, and_true,
      Bool.and_eq_true, Bool.not_eq_true'] at haggr hcap
    refine ⟨Bool.eq_iff_iff.2 haggr, fun hen hsub => ?_⟩
    simp only [hen, hsub, true_and, and_true] at hcap
    exact Bool.not_inj (Bool.eq_iff_iff.2 (by simpa using hcap))
  · rintro ⟨rfl, hcap⟩
    unfold wiredKeys
    cases hen : sem.captureEnabled with
    | false => simp
    | true =>
      cases hsub : sonicExtSwIsSub vnet lip.lipPhySwIfIndex with
      | true => simp
      | false => rw [hcap hen hsub]

/-- The enables issued for a live pair are those wired for its roles. -/
def Wired (s : Wiring) (p : LivePair) : Prop :=
  p.issued.Perm (wiredKeys s.sem s.vnet p.lip p.captureAggregate p.addedAggregate)

/-- Nothing else of the state matters to the ledger of a pair. -/
theorem Wired.congr {s s' : Wiring} {p : LivePair} (h : Wired s p)
    (hcap : s'.sem.captureEnabled = s.sem.captureEnabled)
    (hxc : s'.sem.hostXcEnabled = s.sem.hostXcEnabled)
    (hphy : sonicExtSwIsSub s'.vnet p.lip.lipPhySwIfIndex
      = sonicExtSwIsSub s.vnet p.lip.lipPhySwIfIndex)
    (hhost : sonicExtSwIsSub s'.vnet p.lip.lipHostSwIfIndex
      = sonicExtSwIsSub s.vnet p.lip.lipHostSwIfIndex) : Wired s' p := by
  unfold Wired wiredKeys at h ⊢
  rw [hcap, hxc, hphy, hhost]
  exact h

/-- The capture walk adds what is now wired. -/
theorem captureWalked_wired {s : Wiring} {p : LivePair} (h : Wired s p) {x : BitVec 8}
    (hnow : capturesNow s.sem x = true) :
    (captureWalked s p).issued.Perm
      (wiredKeys (eventSem s (.setPuntViaMember x)) s.vnet p.lip
        (captureWalked s p).captureAggregate p.addedAggregate) := by
  have hoff : s.sem.captureEnabled = false := by
    simp only [capturesNow, Bool.and_eq_true, Bool.not_eq_true'] at hnow
    exact hnow.2
  have hwalk := deviceInputEnableDisable_keys .capture s.vnet p.lip.lipPhySwIfIndex true
  refine (List.Perm.append_right _ h).trans ?_
  simp only [wiredKeys, eventSem, sonicExtSetPuntViaMember, captureWalked,
    sonicExtCaptureWalkEnableCb, sonicExtCaptureEnableDisable, hoff, hnow, Bool.false_or,
    Bool.false_and, Bool.true_and, Bool.false_eq_true, if_false, List.nil_append]
  -- the walk comes last in the ledger and first in the callback
  refine List.perm_append_comm.trans ?_
  rw [List.append_assoc]
  refine List.Perm.append_right _ ?_
  cases sonicExtPhyIsAggregate s.vnet p.lip.lipPhySwIfIndex <;> simp [hwalk]

/-- The host-xc walk adds what is now wired. -/
theorem hostXcWalked_wired {s : Wiring} {p : LivePair} (h : Wired s p) {x : BitVec 8}
    (hnow : hostXcsNow s.sem x = true) :
    (hostXcWalked s p).issued.Perm
      (wiredKeys (eventSem s (.setHostXc x)) s.vnet p.lip p.captureAggregate
        p.addedAggregate) := by
  have hoff : s.sem.hostXcEnabled = false := by
    simp only [hostXcsNow, Bool.and_eq_true, Bool.not_eq_true'] at hnow
    exact hnow.2
  have hwalk := deviceInputEnableDisable_keys .hostXc s.vnet p.lip.lipHostSwIfIndex true
  refine (List.Perm.append_right _ h).trans ?_
  simp only [wiredKeys, eventSem, sonicExtSetHostXc, sonicExtHostXcWalkEnableCb,
    sonicExtHostXcEnableDisable, hoff, hnow, hwalk, Bool.false_or, Bool.false_and, Bool.true_and,
    Bool.false_eq_true, if_false, List.append_nil, List.append_assoc]
  exact List.Perm.append_left _ List.perm_append_comm

/-- Every event keeps the ledger of the live pairs true to their roles. -/
theorem wired_step
    (strip : (Feature × BitVec 32 → ℕ) → FeatureCall → (Feature × BitVec 32 → ℕ))
    {s : Wiring} {e : Event} (hw : ∀ p ∈ s.pairs, Wired s p) (hok : SubKept s e) :
    ∀ p ∈ (step strip s e).pairs, Wired (step strip s e) p := by
  cases e with
  | pairAdd lip =>
    intro p hp
    simp only [step, eventPairs] at hp
    cases hfind : lcpItfPairFindByPhy s.pairs lip.lipPhySwIfIndex with
    | some q => rw [hfind] at hp; exact hw p hp
    | none =>
      rw [hfind] at hp
      rcases List.mem_append.1 hp with hp | hp
      · exact hw p hp
      · rw [List.mem_singleton.1 hp]
        exact List.Perm.of_eq (lcpPairCb_keys s.sem s.vnet lip true)
  | pairDel i => exact fun p hp => hw p (List.mem_of_mem_eraseP hp)
  | setPuntViaMember x =>
    intro p hp
    simp only [step, eventPairs] at hp
    cases hnow : capturesNow s.sem x with
    | true =>
      rw [hnow, if_pos rfl] at hp
      obtain ⟨q, hq, rfl⟩ := List.mem_map.1 hp
      exact captureWalked_wired (hw q hq) hnow
    | false =>
      rw [hnow, if_neg Bool.false_ne_true] at hp
      refine (hw p hp).congr ?_ rfl rfl rfl
      simp [step, eventSem, sonicExtSetPuntViaMember, hnow]
  | setHostXc x =>
    intro p hp
    simp only [step, eventPairs] at hp
    cases hnow : hostXcsNow s.sem x with
    | true =>
      rw [hnow, if_pos rfl] at hp
      obtain ⟨q, hq, rfl⟩ := List.mem_map.1 hp
      exact hostXcWalked_wired (hw q hq) hnow
    | false =>
      rw [hnow, if_neg Bool.false_ne_true] at hp
      refine (hw p hp).congr rfl ?_ rfl rfl
      simp [step, eventSem, sonicExtSetHostXc, hnow]
  -- no call is made; the roles are those that `hok` keeps
  | vnetChange vnet =>
    intro p hp
    obtain ⟨q, hq, rfl⟩ := List.mem_map.1 hp
    have hkept := hok q hq
    exact (hw q hq).congr rfl rfl hkept.1 hkept.2

end SonicExt
