/-
# Sub-interface churn and the device-input features

A device-input disable on a sub-interface would rewrite a configuration that its parent
and others share, whatever that does to them.  No callback issues one, so the features of
a hardware interface depend on the pairs that name it and on the first walks only, and a
live pair keeps what was wired for it.
-/
import Mathlib
import SonicVpp.FeatureBalance

namespace SonicExt

open RunInvariant

variable (strip : (Feature × BitVec 32 → ℕ) → FeatureCall → (Feature × BitVec 32 → ℕ))

/-! ## One event -/

/-- The pair has the interface on the side the feature is wired to. -/
def LcpItfPair.Names (lip : LcpItfPair) (f : Feature) (i : BitVec 32) : Prop :=
  (f = .capture ∧ lip.lipPhySwIfIndex = i) ∨ (f = .hostXc ∧ lip.lipHostSwIfIndex = i)

/-- The event is the callback of a pair that names the interface, or the first walk. -/
def Touches (s : Wiring) (e : Event) (f : Feature) (i : BitVec 32) : Prop :=
  match e with
  | .pairAdd lip => lip.Names f i
  | .pairDel phy => ∃ p ∈ s.pairs, p.lip.lipPhySwIfIndex = phy ∧ p.lip.Names f i
  | .setPuntViaMember x =>
    capturesNow s.sem x = true ∧ f = .capture ∧ ∃ p ∈ s.pairs, p.lip.Names f i
  | .setHostXc x => hostXcsNow s.sem x = true ∧ f = .hostXc ∧ ∃ p ∈ s.pairs, p.lip.Names f i
  | .vnetChange _ => False

/-- An event issues no device-input call on a sub-interface, and changes the device-input
features of an interface only if it touches them. -/
def DeviceInputSafe (s : Wiring) (e : Event) : Prop :=
  (∀ call ∈ eventCalls s e, call.key.1.arc = .deviceInput →
    sonicExtSwIsSub s.vnet call.key.2 = false) ∧
  ∀ f i, Feature.arc f = .deviceInput →
    (step strip s e).counts (f, i) ≠ s.counts (f, i) → Touches s e f i

/-- A device-input call of a pair callback names the pair's interface. -/
theorem names_of_mem_lcpPairCb {sem : SonicExtMain} {vnet : VnetMain} {lip : LcpItfPair}
    {enable : Bool} {call : FeatureCall} (h : call ∈ lcpPairCb sem vnet lip enable)
    (harc : call.key.1.arc = .deviceInput) : lip.Names call.key.1 call.key.2 := by
  rcases mem_lcpPairCb h with ⟨-, rfl⟩ | ⟨-, rfl⟩ | rfl
  · exact Or.inl ⟨rfl, rfl⟩
  · exact Or.inr ⟨rfl, rfl⟩
  · cases harc

/-- A device-input call is issued by an event that touches its interface. -/
theorem touches_of_mem_eventCalls {s : Wiring} {e : Event} {call : FeatureCall}
    (h : call ∈ eventCalls s e) (harc : call.key.1.arc = .deviceInput) :
    Touches s e call.key.1 call.key.2 := by
  obtain ⟨lip, rfl, -, hcall⟩ | ⟨i, p, rfl, hfind, hcall⟩ | ⟨x, rfl, hnow, p, hp, hcall⟩ |
    ⟨x, rfl, hcall⟩ | ⟨x, rfl, hnow, p, hp, hcall⟩ := eventCalls_cases h
  · exact names_of_mem_lcpPairCb hcall harc
  · obtain ⟨hphy, l₁, l₂, hpairs, -⟩ := findByPhy_split hfind
    exact ⟨p, by rw [hpairs]; simp, hphy, names_of_mem_lcpPairCb hcall harc⟩
  · obtain ⟨-, rfl⟩ := mem_sonicExtCaptureWalkEnableCb hcall
    exact ⟨hnow, rfl, p, hp, Or.inl ⟨rfl, rfl⟩⟩
  · simp only [sonicExtGleanRedirectEnableDisable, List.mem_cons, List.not_mem_nil, or_false]
      at hcall
    rcases hcall with rfl | rfl <;> cases harc
  · obtain ⟨-, rfl⟩ := mem_deviceInputEnableDisable.1 hcall
    exact ⟨hnow, rfl, p, hp, Or.inr ⟨rfl, rfl⟩⟩

/-- Every event is safe, whatever a stray disable would do. -/
theorem deviceInputSafe (s : Wiring) (e : Event) : DeviceInputSafe strip s e := by
  refine ⟨fun call hcall => eventCalls_notSub hcall, fun f i harc hne => ?_⟩
  rw [step_counts] at hne
  by_contra htouch
  refine hne (RefCount.applyAll_of_notMem _ _ _ fun call hcall hkey => htouch ?_)
  have h := touches_of_mem_eventCalls hcall (by rw [hkey]; exact harc)
  rw [hkey] at h
  exact h

/-! ## Host-xc -/

/-- Host-xc does not depend on the roles. -/
theorem wiredKeys_count_hostXc (sem : SonicExtMain) (vnet : VnetMain) (lip : LcpItfPair)
    (c a c' a' : Bool) (i : BitVec 32) :
    (wiredKeys sem vnet lip c a).count (.hostXc, i)
      = (wiredKeys sem vnet lip c' a').count (.hostXc, i) := by
  have hother : ∀ (b : Bool) (f : Feature) (j : BitVec 32), f ≠ .hostXc →
      (if b then [(f, j)] else []).count (Feature.hostXc, i) = 0 := by
    intro b f j hf
    cases b <;> simp [hf]
  simp only [wiredKeys, List.count_append, hother _ .capture _ (by decide),
    hother _ .aggrTapRedirect _ (by decide)]

/-- The ledgers are true and back the host-xc counts. -/
def HostXcBacked (s : Wiring) : Prop :=
  (∀ p ∈ s.pairs, Wired s p) ∧
    ∀ i, RefCount.Backed LivePair.issued s.counts s.pairs (.hostXc, i)

theorem hostXcBacked_step {s : Wiring} {e : Event} (h : HostXcBacked s) (hok : SubKept s e) :
    HostXcBacked (step strip s e) := by
  refine ⟨wired_step strip h.1 hok, fun i => backed_step strip rfl (h.2 i) ?_⟩
  rintro j p rfl hfind
  obtain ⟨-, l₁, l₂, hpairs, -⟩ := findByPhy_split hfind
  have hwired : Wired s p := h.1 p (by rw [hpairs]; simp)
  rw [hwired.count_eq, sonicExtLcpPairDelCb, lcpPairCb_keys]
  exact wiredKeys_count_hostXc ..

/-- Once host-xc is wired, every live pair with a hardware host side has it. -/
theorem HostXcBacked.enabled {s : Wiring} (h : HostXcBacked s) (hon : s.sem.hostXcEnabled = true)
    {p : LivePair} (hp : p ∈ s.pairs)
    (hhost : sonicExtSwIsSub s.vnet p.lip.lipHostSwIfIndex = false) :
    1 ≤ s.counts (.hostXc, p.lip.lipHostSwIfIndex) := by
  have hissued : (.hostXc, p.lip.lipHostSwIfIndex) ∈ p.issued := by
    rw [(h.1 p hp).mem_iff]
    simp [wiredKeys, hon, hhost]
  have hmem : (Feature.hostXc, p.lip.lipHostSwIfIndex) ∈ s.pairs.flatMap LivePair.issued :=
    List.mem_flatMap.2 ⟨p, hp, hissued⟩
  rw [h.2 p.lip.lipHostSwIfIndex]
  exact List.count_pos_iff.2 hmem

/-! ## Capture -/

/-- One pair for each phy, the roles the ghosts tell, and capture on every hardware phy
that was no aggregate when it was wired. -/
structure CaptureKept (s : Wiring) : Prop where
  phys : (s.pairs.map (·.lip.lipPhySwIfIndex)).Nodup
  roles : ∀ p ∈ s.pairs, p.everAggregate = false →
    p.captureAggregate = false ∧ sonicExtPhyIsAggregate s.vnet p.lip.lipPhySwIfIndex = false
  capture : s.sem.captureEnabled = true → ∀ p ∈ s.pairs,
    sonicExtSwIsSub s.vnet p.lip.lipPhySwIfIndex = false → p.captureAggregate = false →
    1 ≤ s.counts (.capture, p.lip.lipPhySwIfIndex)

/-- Without a delete no count goes down. -/
theorem le_step_counts {s : Wiring} {e : Event} (hdel : ∀ i, e ≠ .pairDel i)
    (k : Feature × BitVec 32) : s.counts k ≤ (step strip s e).counts k := by
  rw [step_counts, RefCount.applyAll_takes _ _ _ fun call hcall => eventCalls_take hdel hcall]
  omega

/-- What an event other than a delete enables is enabled after it. -/
theorem one_le_step_counts {s : Wiring} {e : Event} (hdel : ∀ i, e ≠ .pairDel i)
    {k : Feature × BitVec 32} (h : ⟨k, true⟩ ∈ eventCalls s e) :
    1 ≤ (step strip s e).counts k := by
  rw [step_counts, RefCount.applyAll_takes _ _ _ fun call hcall => eventCalls_take hdel hcall]
  have hmem : k ∈ (eventCalls s e).map RefCount.Call.key := List.mem_map.2 ⟨_, h, rfl⟩
  have := List.count_pos_iff.2 hmem
  omega

theorem captureKept_pairAdd {s : Wiring} (h : CaptureKept s) (lip : LcpItfPair) :
    CaptureKept (step strip s (.pairAdd lip)) := by
  have hdel : ∀ i, Event.pairAdd lip ≠ .pairDel i := fun i hi => by cases hi
  have hle := le_step_counts strip (s := s) hdel
  cases hfind : lcpItfPairFindByPhy s.pairs lip.lipPhySwIfIndex with
  | some q =>
    -- the interface has a pair already: nothing is added
    have hpairs : (step strip s (.pairAdd lip)).pairs = s.pairs := by
      simp [step, eventPairs, hfind]
    refine ⟨by rw [hpairs]; exact h.phys, by rw [hpairs]; exact h.roles, fun hon p hp hs hc => ?_⟩
    rw [hpairs] at hp
    exact (h.capture hon p hp hs hc).trans (hle _)
  | none =>
    have hpairs : (step strip s (.pairAdd lip)).pairs = s.pairs ++ [addedPair s lip] := by
      simp [step, eventPairs, hfind]
    have hnew : ∀ p ∈ s.pairs, p.lip.lipPhySwIfIndex ≠ lip.lipPhySwIfIndex := fun p hp => by
      simpa using List.find?_eq_none.1 hfind p hp
    refine ⟨?_, fun p hp hever => ?_, fun hon p hp hs hc => ?_⟩
    · rw [hpairs, List.map_append, List.nodup_append]
      refine ⟨h.phys, List.nodup_singleton _, ?_⟩
      rintro i hi j hj rfl
      obtain ⟨p, hp, rfl⟩ := List.mem_map.1 hi
      exact hnew p hp (List.mem_singleton.1 hj)
    · rw [hpairs] at hp
      rcases List.mem_append.1 hp with hp | hp
      · exact h.roles p hp hever
      · rw [List.mem_singleton.1 hp] at hever ⊢
        exact ⟨hever, hever⟩
    · rw [hpairs] at hp
      rcases List.mem_append.1 hp with hp | hp
      · exact (h.capture hon p hp hs hc).trans (hle _)
      · -- the add callback enables capture itself
        rw [List.mem_singleton.1 hp] at hs hc ⊢
        refine one_le_step_counts strip hdel ?_
        have hcall : (⟨(.capture, lip.lipPhySwIfIndex), true⟩ : FeatureCall)
            ∈ sonicExtCaptureEnableDisable s.vnet lip.lipPhySwIfIndex true :=
          mem_deviceInputEnableDisable.2 ⟨hs, rfl⟩
        have hon' : s.sem.captureEnabled = true := hon
        have hc' : sonicExtPhyIsAggregate s.vnet lip.lipPhySwIfIndex = false := hc
        simp [eventCalls, hfind, sonicExtLcpPairAddCb, lcpPairCb, hon', hc', hcall, addedPair]

theorem captureKept_pairDel {s : Wiring} (h : CaptureKept s) (i : BitVec 32) :
    CaptureKept (step strip s (.pairDel i)) := by
  have hsubset : ∀ p ∈ (step strip s (.pairDel i)).pairs, p ∈ s.pairs := fun p hp =>
    List.mem_of_mem_eraseP hp
  refine ⟨?_, fun p hp hever => h.roles p (hsubset p hp) hever, fun hon p hp hs hc => ?_⟩
  · exact h.phys.sublist (List.Sublist.map _ List.eraseP_sublist)
  · have hold := h.capture hon p (hsubset p hp) hs hc
    rw [step_counts]
    cases hfind : lcpItfPairFindByPhy s.pairs i with
    | none => simpa [eventCalls, hfind] using hold
    | some q =>
      -- the deleted pair has another phy
      obtain ⟨-, l₁, l₂, hpairs, herase⟩ := findByPhy_split hfind
      have hp' : p ∈ l₁ ++ l₂ := herase ▸ hp
      have hphys := h.phys
      rw [hpairs, (List.perm_middle.map _).nodup_iff, List.map_cons, List.nodup_cons] at hphys
      have hne : q.lip.lipPhySwIfIndex ≠ p.lip.lipPhySwIfIndex := fun heq =>
        hphys.1 (List.mem_map.2 ⟨p, hp', heq.symm⟩)
      rw [RefCount.applyAll_of_notMem]
      · exact hold
      · intro call hcall hkey
        simp only [eventCalls, hfind] at hcall
        rcases mem_lcpPairCb hcall with ⟨-, rfl⟩ | ⟨-, rfl⟩ | rfl
        · exact hne (congrArg Prod.snd hkey)
        · cases congrArg Prod.fst hkey
        · cases congrArg Prod.fst hkey

theorem captureKept_setPuntViaMember {s : Wiring} (h : CaptureKept s) (x : BitVec 8) :
    CaptureKept (step strip s (.setPuntViaMember x)) := by
  have hdel : ∀ i, Event.setPuntViaMember x ≠ .pairDel i := fun i hi => by cases hi
  cases hnow : capturesNow s.sem x with
  | false =>
    -- no walk: the counts do not fall, for nothing is deleted
    have hpairs : (step strip s (.setPuntViaMember x)).pairs = s.pairs := by
      simp [step, eventPairs, hnow]
    have hsem : (step strip s (.setPuntViaMember x)).sem.captureEnabled = s.sem.captureEnabled := by
      simp [step, eventSem, sonicExtSetPuntViaMember, hnow]
    refine ⟨by rw [hpairs]; exact h.phys, by rw [hpairs]; exact h.roles, fun hon p hp hs hc => ?_⟩
    rw [hpairs] at hp
    rw [hsem] at hon
    exact (h.capture hon p hp hs hc).trans (le_step_counts strip hdel _)
  | true =>
    have hpairs : (step strip s (.setPuntViaMember x)).pairs = s.pairs.map (captureWalked s) := by
      simp [step, eventPairs, hnow]
    refine ⟨?_, fun p hp hever => ?_, fun hon p hp hs hc => ?_⟩
    · rw [hpairs, List.map_map]
      exact h.phys
    · rw [hpairs] at hp
      obtain ⟨q, hq, rfl⟩ := List.mem_map.1 hp
      have hrole := (h.roles q hq hever).2
      exact ⟨hrole, hrole⟩
    · -- the walk visits the pair
      rw [hpairs] at hp
      obtain ⟨q, hq, rfl⟩ := List.mem_map.1 hp
      refine one_le_step_counts strip hdel ?_
      have hcall : (⟨(.capture, q.lip.lipPhySwIfIndex), true⟩ : FeatureCall)
          ∈ sonicExtCaptureEnableDisable s.vnet q.lip.lipPhySwIfIndex true :=
        mem_deviceInputEnableDisable.2 ⟨hs, rfl⟩
      have hc' : sonicExtPhyIsAggregate s.vnet q.lip.lipPhySwIfIndex = false := hc
      simp only [eventCalls, sonicExtSetPuntViaMember, hnow, if_true, List.mem_append,
        List.mem_flatMap, List.mem_map]
      refine Or.inl ⟨q.lip, ⟨q, hq, rfl⟩, ?_⟩
      simp [sonicExtCaptureWalkEnableCb, hc', hcall, captureWalked]

theorem captureKept_setHostXc {s : Wiring} (h : CaptureKept s) (x : BitVec 8) :
    CaptureKept (step strip s (.setHostXc x)) := by
  have hdel : ∀ i, Event.setHostXc x ≠ .pairDel i := fun i hi => by cases hi
  have hpairs : ∃ grow : LivePair → LivePair, (∀ p, (grow p).lip = p.lip ∧
      (grow p).everAggregate = p.everAggregate ∧ (grow p).captureAggregate = p.captureAggregate) ∧
      (step strip s (.setHostXc x)).pairs = s.pairs.map grow := by
    cases hnow : hostXcsNow s.sem x with
    | true => exact ⟨hostXcWalked s, fun _ => ⟨rfl, rfl, rfl⟩, by simp [step, eventPairs, hnow]⟩
    | false => exact ⟨id, fun _ => ⟨rfl, rfl, rfl⟩, by simp [step, eventPairs, hnow]⟩
  obtain ⟨grow, hgrow, hpairs⟩ := hpairs
  refine ⟨?_, fun p hp hever => ?_, fun hon p hp hs hc => ?_⟩
  · rw [hpairs, List.map_map]
    simpa [Function.comp_def, hgrow] using h.phys
  · rw [hpairs] at hp
    obtain ⟨q, hq, rfl⟩ := List.mem_map.1 hp
    obtain ⟨hlip, hev, hcap⟩ := hgrow q
    rw [hlip, hcap]
    exact h.roles q hq (hev ▸ hever)
  · rw [hpairs] at hp
    obtain ⟨q, hq, rfl⟩ := List.mem_map.1 hp
    obtain ⟨hlip, hev, hcap⟩ := hgrow q
    rw [hlip] at hs ⊢
    exact (h.capture hon q hq hs (hcap ▸ hc)).trans (le_step_counts strip hdel _)

theorem captureKept_vnetChange {s : Wiring} (h : CaptureKept s) {v : VnetMain}
    (hok : SubKept s (.vnetChange v)) : CaptureKept (step strip s (.vnetChange v)) := by
  have hdel : ∀ i, Event.vnetChange v ≠ .pairDel i := fun i hi => by cases hi
  refine ⟨?_, fun p hp hever => ?_, fun hon p hp hs hc => ?_⟩
  · simp only [step, eventPairs, List.map_map]
    exact h.phys
  · obtain ⟨q, hq, rfl⟩ := List.mem_map.1 hp
    simp only [roleSeen, Bool.or_eq_false_iff] at hever
    exact ⟨(h.roles q hq hever.1).1, hever.2⟩
  · obtain ⟨q, hq, rfl⟩ := List.mem_map.1 hp
    have hsq : sonicExtSwIsSub s.vnet q.lip.lipPhySwIfIndex = false := by
      rw [← (hok q hq).1]
      exact hs
    exact (h.capture hon q hq hsq hc).trans (le_step_counts strip hdel _)

/-- Every event keeps capture on the phys that are no aggregates. -/
theorem captureKept_step {s : Wiring} {e : Event} (h : CaptureKept s) (hok : SubKept s e) :
    CaptureKept (step strip s e) := by
  cases e with
  | pairAdd lip => exact captureKept_pairAdd strip h lip
  | pairDel i => exact captureKept_pairDel strip h i
  | setPuntViaMember x => exact captureKept_setPuntViaMember strip h x
  | setHostXc x => exact captureKept_setHostXc strip h x
  | vnetChange v => exact captureKept_vnetChange strip h hok

/-! ## Whole histories -/

/-- A toggle that was turned on stays wired. -/
theorem enabled_run (flag : SonicExtMain → Bool) (on : Event)
    (hon : ∀ s, flag (step strip s on).sem = true)
    (hstay : ∀ s e, flag s.sem = true → flag (step strip s e).sem = true) (s : Wiring)
    {as : List Event} (has : on ∈ as) : flag (run (step strip) s as).sem = true := by
  induction as generalizing s with
  | nil => cases has
  | cons e as ih =>
    rw [run_cons]
    rcases List.mem_cons.1 has with rfl | has
    · exact run_invariant (step strip) (fun _ _ => True) (fun s => flag s.sem = true)
        (fun s e h _ => hstay s e h) (hon s) (allowed_of_forall (step strip) (fun _ _ => trivial))
    · exact ih _ has

theorem hostXcEnabled_run (s : Wiring) {as : List Event} {x : BitVec 8} (hx : x ≠ 0)
    (has : .setHostXc x ∈ as) : (run (step strip) s as).sem.hostXcEnabled = true := by
  refine enabled_run strip SonicExtMain.hostXcEnabled (.setHostXc x) (fun s => ?_)
    (fun s e h => ?_) s has
  · cases hen : s.sem.hostXcEnabled with
    | true => simp [step, eventSem, sonicExtSetHostXc, hen]
    | false => simpa [step, eventSem, sonicExtSetHostXc, hostXcsNow, hen] using hx
  · cases e <;> simp [step, eventSem, sonicExtSetHostXc, sonicExtSetPuntViaMember, h]

theorem captureEnabled_run (s : Wiring) {as : List Event} {x : BitVec 8} (hx : x ≠ 0)
    (has : .setPuntViaMember x ∈ as) : (run (step strip) s as).sem.captureEnabled = true := by
  refine enabled_run strip SonicExtMain.captureEnabled (.setPuntViaMember x) (fun s => ?_)
    (fun s e h => ?_) s has
  · cases hen : s.sem.captureEnabled with
    | true => simp [step, eventSem, sonicExtSetPuntViaMember, hen]
    | false => simpa [step, eventSem, sonicExtSetPuntViaMember, capturesNow, hen] using hx
  · cases e <;> simp [step, eventSem, sonicExtSetHostXc, sonicExtSetPuntViaMember, h]

/-- **Sub-interface churn is harmless.**  Whatever a device-input disable on a
sub-interface would do: no event of a history issues one or changes the device-input
features of an interface it does not touch, and at its end every live pair on hardware
interfaces has host-xc and, unless its phy was an aggregate meanwhile, capture, if those
toggles were ever turned on. -/
theorem subInterface_churn (v : VnetMain) (as : List Event)
    (hsub : Allowed (step strip) SubKept (initial v) as) :
    Allowed (step strip) (DeviceInputSafe strip) (initial v) as ∧
    ∀ p ∈ (run (step strip) (initial v) as).pairs,
      ((∃ x, x ≠ 0 ∧ .setHostXc x ∈ as) →
        sonicExtSwIsSub (run (step strip) (initial v) as).vnet p.lip.lipHostSwIfIndex = false →
        1 ≤ (run (step strip) (initial v) as).counts (.hostXc, p.lip.lipHostSwIfIndex)) ∧
      ((∃ x, x ≠ 0 ∧ .setPuntViaMember x ∈ as) →
        sonicExtSwIsSub (run (step strip) (initial v) as).vnet p.lip.lipPhySwIfIndex = false →
        p.everAggregate = false →
        1 ≤ (run (step strip) (initial v) as).counts (.capture, p.lip.lipPhySwIfIndex)) := by
  have hxc : HostXcBacked (run (step strip) (initial v) as) :=
    run_invariant (step strip) SubKept HostXcBacked (fun s e h => hostXcBacked_step strip h)
      ⟨fun _ hp => absurd hp List.not_mem_nil, fun i => rfl⟩ hsub
  have hcap : CaptureKept (run (step strip) (initial v) as) :=
    run_invariant (step strip) SubKept CaptureKept (fun s e h => captureKept_step strip h)
      ⟨List.nodup_nil, fun _ hp => absurd hp List.not_mem_nil,
        fun _ _ hp => absurd hp List.not_mem_nil⟩ hsub
  refine ⟨allowed_of_forall (step strip) (deviceInputSafe strip), fun p hp => ⟨?_, ?_⟩⟩
  · rintro ⟨x, hx, hon⟩ hhost
    exact hxc.enabled (hostXcEnabled_run strip _ hx hon) hp hhost
  · rintro ⟨x, hx, hon⟩ hphy hever
    exact hcap.capture (captureEnabled_run strip _ hx hon) p hp hphy (hcap.roles p hp hever).1

/-- Port 64 with tap 164 and its sub-port 65 with the tap's sub-interface 165. -/
def subPortVnet : VnetMain where
  swInterfaceType := fun i =>
    if i = 65 ∨ i = 165 then some .sub else if i = 64 ∨ i = 164 then some .hardware else none
  supHwInterface := fun i => if i = 64 ∨ i = 65 then some ⟨some "dpdk"⟩ else some ⟨some "tap"⟩
  l2InputConfigs := []

/-- The sub-port is created and removed while the port is paired. -/
def subPortHistory : List Event :=
  sonicExtInit ++ [.pairAdd ⟨164, 64⟩, .pairAdd ⟨165, 65⟩, .pairDel 65]

/-- The port keeps both features, even if a stray disable would clear every count. -/
theorem subInterface_churn_subPort :
    1 ≤ (run (step fun _ _ _ => 0) (initial subPortVnet) subPortHistory).counts (.hostXc, 164) ∧
    1 ≤ (run (step fun _ _ _ => 0) (initial subPortVnet) subPortHistory).counts (.capture, 64) := by
  have h := (subInterface_churn (fun _ _ _ => 0) subPortVnet subPortHistory
    ⟨trivial, trivial, trivial, trivial, trivial, trivial⟩).2
    ⟨⟨164, 64⟩, [(.capture, 64), (.hostXc, 164)], false, false, false⟩ (by decide)
  exact ⟨h.1 ⟨1, by decide, by simp [subPortHistory, sonicExtInit]⟩ (by decide),
    h.2 ⟨1, by decide, by simp [subPortHistory, sonicExtInit]⟩ (by decide) rfl⟩

end SonicExt
