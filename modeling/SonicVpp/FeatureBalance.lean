/-
# Balance of the feature wiring

Deleting an LCP pair should withdraw the enables that were issued for it and no others.
The delete callback asks for the role of the phy anew, so this is a matter of the roles:
`wiring_balanced_iff` says for which histories it holds, and that those leave nothing
enabled once the last pair is gone.
-/
import Mathlib
import SonicVpp.FeatureWiring

namespace SonicExt

open RunInvariant

variable (strip : (Feature × BitVec 32 → ℕ) → FeatureCall → (Feature × BitVec 32 → ℕ))

/-! ## The counts are backed by the ledgers -/

/-- The pair found by its phy is the one a delete removes. -/
theorem findByPhy_split {pairs : List LivePair} {i : BitVec 32} {p : LivePair}
    (h : lcpItfPairFindByPhy pairs i = some p) :
    p.lip.lipPhySwIfIndex = i ∧ ∃ l₁ l₂, pairs = l₁ ++ p :: l₂ ∧
      pairs.eraseP (·.lip.lipPhySwIfIndex = i) = l₁ ++ l₂ := by
  obtain ⟨hphy, l₁, l₂, rfl, hfirst⟩ := List.find?_eq_some_iff_append.1 h
  have hhead : (p :: l₂).eraseP (·.lip.lipPhySwIfIndex = i) = l₂ := List.eraseP_cons_of_pos hphy
  refine ⟨of_decide_eq_true hphy, l₁, l₂, rfl, ?_⟩
  rw [List.eraseP_append_right _ (fun q hq => by simpa using hfirst q hq), hhead]

theorem eraseP_of_findByPhy_none {pairs : List LivePair} {i : BitVec 32}
    (h : lcpItfPairFindByPhy pairs i = none) :
    pairs.eraseP (·.lip.lipPhySwIfIndex = i) = pairs :=
  List.eraseP_of_forall_not (fun q hq => List.find?_eq_none.1 h q hq)

/-- The global toggle is on no feature that is wired interface by interface. -/
theorem gleanRedirect_key_ne {k : Feature × BitVec 32} (hk : k.1.perInterface = true) {b : Bool}
    {call : FeatureCall} (h : call ∈ if b then sonicExtGleanRedirectEnableDisable true else []) :
    call.key ≠ k := by
  rintro rfl
  rw [List.mem_ite_nil_right] at h
  simp only [sonicExtGleanRedirectEnableDisable, List.mem_cons, List.not_mem_nil, or_false] at h
  rcases h.2 with rfl | rfl <;> cases hk

/-- The counts of a feature stay backed as long as deletes withdraw, of this key, what
was issued. -/
theorem backed_step {s : Wiring} {e : Event} {k : Feature × BitVec 32}
    (hk : k.1.perInterface = true)
    (hb : RefCount.Backed LivePair.issued s.counts s.pairs k)
    (hdel : ∀ i p, e = .pairDel i → lcpItfPairFindByPhy s.pairs i = some p →
      ((sonicExtLcpPairDelCb s.sem s.vnet p.lip).map RefCount.Call.key).count k
        = p.issued.count k) :
    RefCount.Backed LivePair.issued (step strip s e).counts (step strip s e).pairs k := by
  rw [step_counts]
  cases e with
  | pairAdd lip =>
    -- a pair is added with all its calls, and each of them takes
    cases hfind : lcpItfPairFindByPhy s.pairs lip.lipPhySwIfIndex with
    | some q => simpa [step, eventPairs, eventCalls, hfind] using hb
    | none =>
      have htake : ∀ call ∈ sonicExtLcpPairAddCb s.sem s.vnet lip, call.take = true := by
        intro call hcall
        refine eventCalls_take (e := .pairAdd lip) (fun i h => by cases h) (s := s) ?_
        simpa [eventCalls, hfind] using hcall
      simpa [step, eventPairs, eventCalls, hfind] using
        hb.join LivePair.issued htake (o := addedPair s lip) rfl
  | pairDel i =>
    cases hfind : lcpItfPairFindByPhy s.pairs i with
    | none => simpa [step, eventPairs, eventCalls, hfind, eraseP_of_findByPhy_none hfind] using hb
    -- what the pair has issued is given back: that is `hdel`
    | some p =>
      obtain ⟨-, l₁, l₂, hpairs, herase⟩ := findByPhy_split hfind
      rw [hpairs] at hb
      simp only [step, eventPairs, eventCalls, hfind, herase]
      exact hb.leave LivePair.issued (fun _ h => delCb_drop h) (hdel i p rfl hfind)
  | setPuntViaMember x =>
    have htake : ∀ call ∈ eventCalls s (.setPuntViaMember x), call.take = true := fun _ h =>
      eventCalls_take (fun i hi => by cases hi) h
    cases hnow : capturesNow s.sem x with
    | true =>
      simp only [step, eventPairs, hnow, if_true]
      refine hb.extend LivePair.issued htake
        (fun p => (sonicExtCaptureWalkEnableCb s.vnet p.lip).map RefCount.Call.key) _
        (fun _ => rfl) ?_
      -- the calls of the glean redirect have another key
      have hglean : ∀ b : Bool, ((if b then sonicExtGleanRedirectEnableDisable true
          else []).map RefCount.Call.key).count k = 0 := by
        intro b
        rw [List.count_eq_zero, List.mem_map]
        rintro ⟨call, hcall, heq⟩
        exact gleanRedirect_key_ne hk hcall heq
      simp only [eventCalls, sonicExtSetPuntViaMember, hnow, if_true, List.map_append,
        List.count_append, hglean, add_zero, List.map_flatMap, List.flatMap_map]
    | false =>
      have hother : ∀ call ∈ eventCalls s (.setPuntViaMember x), call.key ≠ k := by
        intro call hcall
        simp only [eventCalls, sonicExtSetPuntViaMember, hnow, Bool.false_eq_true, if_false,
          List.nil_append] at hcall
        exact gleanRedirect_key_ne hk hcall
      simpa [step, eventPairs, hnow] using hb.keep LivePair.issued hother id fun _ => rfl
  | setHostXc x =>
    have htake : ∀ call ∈ eventCalls s (.setHostXc x), call.take = true := fun _ h =>
      eventCalls_take (fun i hi => by cases hi) h
    cases hnow : hostXcsNow s.sem x with
    | true =>
      simp only [step, eventPairs, hnow, if_true]
      refine hb.extend LivePair.issued htake
        (fun p => (sonicExtHostXcWalkEnableCb s.vnet p.lip).map RefCount.Call.key) _
        (fun _ => rfl) ?_
      simp only [eventCalls, sonicExtSetHostXc, hnow, if_true, List.map_flatMap, List.flatMap_map]
    | false => simpa [step, eventPairs, eventCalls, sonicExtSetHostXc, hnow] using hb
  | vnetChange vnet =>
    have hnone : ∀ call ∈ eventCalls s (.vnetChange vnet), call.key ≠ k := fun _ h => by cases h
    exact hb.keep LivePair.issued hnone (roleSeen vnet) fun _ => rfl

/-! ## Balanced histories -/

/-- A delete withdraws exactly the enables issued for its pair. -/
def Withdraws (s : Wiring) : Event → Prop
  | .pairDel i => ∀ p, lcpItfPairFindByPhy s.pairs i = some p →
    ((sonicExtLcpPairDelCb s.sem s.vnet p.lip).map RefCount.Call.key).Perm p.issued
  | _ => True

/-- At a delete the phy has the role it had when the pair was added and, where capture is
wired on it, the role it had then. -/
def RoleKept (s : Wiring) : Event → Prop
  | .pairDel i => ∀ p, lcpItfPairFindByPhy s.pairs i = some p →
    sonicExtPhyIsAggregate s.vnet i = p.addedAggregate ∧
      (s.sem.captureEnabled = true → sonicExtSwIsSub s.vnet i = false →
        sonicExtPhyIsAggregate s.vnet i = p.captureAggregate)
  | _ => True

/-- On a true ledger the two are the same. -/
theorem withdraws_iff_roleKept {s : Wiring} (hw : ∀ p ∈ s.pairs, Wired s p) (e : Event) :
    Withdraws s e ↔ RoleKept s e := by
  cases e with
  | pairDel i =>
    refine forall_congr' fun p => imp_congr_right fun hfind => ?_
    obtain ⟨hphy, l₁, l₂, hpairs, -⟩ := findByPhy_split hfind
    have hled : Wired s p := hw p (by rw [hpairs]; simp)
    have hroles := wiredKeys_perm_iff s.sem s.vnet p.lip
      (sonicExtPhyIsAggregate s.vnet p.lip.lipPhySwIfIndex) p.captureAggregate p.addedAggregate
    rw [← lcpPairCb_keys s.sem s.vnet p.lip false, hphy] at hroles
    exact ⟨fun h => hroles.1 (h.trans hled), fun h => (hroles.2 h).trans hled.symm⟩
  | _ => exact Iff.rfl

/-- In a history of withdrawing deletes the counts are what the live pairs hold. -/
theorem backed_run {v : VnetMain} {as : List Event}
    (h : Allowed (step strip) Withdraws (initial v) as) {k : Feature × BitVec 32}
    (hk : k.1.perInterface = true) :
    RefCount.Backed LivePair.issued (run (step strip) (initial v) as).counts
      (run (step strip) (initial v) as).pairs k := by
  refine run_invariant (step strip) Withdraws
    (fun s => RefCount.Backed LivePair.issued s.counts s.pairs k) ?_ rfl h
  intro s e hb hok
  refine backed_step strip hk hb ?_
  rintro i p rfl hfind
  exact (hok p hfind).count_eq k

/-- **Balance, exactly.**  In a history every delete withdraws just what was issued for
its pair, and nothing is left enabled without a pair, iff at every delete the phy has the
role it had when the enables were issued. -/
theorem wiring_balanced_iff (v : VnetMain) (as : List Event)
    (hsub : Allowed (step strip) SubKept (initial v) as) :
    (Allowed (step strip) Withdraws (initial v) as ∧
      ((run (step strip) (initial v) as).pairs = [] → ∀ f i, Feature.perInterface f = true →
        (run (step strip) (initial v) as).counts (f, i) = 0)) ↔
    Allowed (step strip) RoleKept (initial v) as := by
  have hiff : Allowed (step strip) Withdraws (initial v) as ↔
      Allowed (step strip) RoleKept (initial v) as :=
    allowed_iff_of_invariant (step strip) SubKept (fun s => ∀ p ∈ s.pairs, Wired s p)
      (fun s e hw _ => withdraws_iff_roleKept hw e) (fun s e hw hok _ => wired_step strip hw hok)
      (by intro p hp; cases hp) hsub
  constructor
  · rintro ⟨h, -⟩
    exact hiff.1 h
  · intro h
    refine ⟨hiff.2 h, fun hnone f i hf => ?_⟩
    have hb := backed_run strip (hiff.2 h) (k := (f, i)) hf
    rw [hnone] at hb
    exact hb

/-- Interface 5 is a loopback, with `bvi` in its L2 configuration, and 105 its tap. -/
def loopbackVnet (bvi : Bool) : VnetMain where
  swInterfaceType := fun i => if i = 5 ∨ i = 105 then some .hardware else none
  supHwInterface := fun i => if i = 5 then some ⟨some "Loopback"⟩ else some ⟨some "tap"⟩
  l2InputConfigs := [⟨false⟩, ⟨false⟩, ⟨false⟩, ⟨false⟩, ⟨false⟩, ⟨bvi⟩]

/-- A BVI is paired and unpaired again. -/
def bviHistory : List Event := sonicExtInit ++ [.pairAdd ⟨105, 5⟩, .pairDel 5]

theorem wiring_balanced_bvi :
    (run (step RefCount.apply) (initial (loopbackVnet true)) bviHistory).counts
      (.aggrTapRedirect, 105) = 0 :=
  ((wiring_balanced_iff RefCount.apply (loopbackVnet true) bviHistory
    ⟨trivial, trivial, trivial, trivial, trivial⟩).2
    ⟨trivial, trivial, trivial, fun p hp => by
      obtain rfl := Option.some.inj hp
      decide, trivial⟩).2 (by decide) .aggrTapRedirect 105 rfl

/-- A loopback is a BVI when it is paired and none when the pair is deleted. -/
def bviCeasedHistory : List Event :=
  sonicExtInit ++ [.pairAdd ⟨105, 5⟩, .vnetChange (loopbackVnet false), .pairDel 5]

/-- aggr-tap-redirect stays on a tap that is in no pair any more. -/
theorem bviCeased_leaks :
    Allowed (step RefCount.apply) SubKept (initial (loopbackVnet true)) bviCeasedHistory ∧
    (run (step RefCount.apply) (initial (loopbackVnet true)) bviCeasedHistory).pairs = [] ∧
    (run (step RefCount.apply) (initial (loopbackVnet true)) bviCeasedHistory).counts
      (.aggrTapRedirect, 105) = 1 :=
  ⟨⟨trivial, trivial, trivial, fun p _ => ⟨rfl, rfl⟩, trivial, trivial⟩, by decide, by decide⟩

end SonicExt
