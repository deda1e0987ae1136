/-
# Who may pass the MAC check of a BVI

A frame that is flooded to a BVI has to be addressed to it, but for frames from a decap-any
tunnel: `vnet_vxlan_add_del_tunnel` marks the interface of such a tunnel in a bitmap of
`l2_bvi`, and `l2_to_bvi` lets its frames pass.  The mark is under the `sw_if_index`, which
the next tunnel can have; and what says that a tunnel is a decap-any one is bit 31 of the
`decap_next_index` of the request, unless it is `~0`.

The requests are not kept.  `wire` is not in the source: it holds, for each slot of the
pool, the `decap_next_index` with which the tunnel there was made.

An entry of a decap map can outlive its tunnel, and a delete that finds such an entry works
on what is left in the freed slot: it clears the mark of an interface that by then may be
another tunnel's.
-/
import SonicVpp.VxlanDecapMap

open RunInvariant

namespace Vxlan

/-! ## The check -/

/-- `l2_bvi_l3_promiscuous`. -/
def l2BviL3Promiscuous (bitmap : BitVec 32 → Bool) (rxSwIfIndex : BitVec 32) : Bool :=
  if rxSwIfIndex = BitVec.allOnes 32 then false else bitmap rxSwIfIndex

/-- `TO_BVI_ERR_OK`, `TO_BVI_ERR_BAD_MAC` and `TO_BVI_ERR_ETHERTYPE`. -/
inductive ToBviErr
  | ok
  | badMac
  | ethertype
  deriving DecidableEq, Repr

/-- The MAC check of `l2_to_bvi`, where `rv` is what `l2_to_bvi_dmac_check` returns: what the
function returns, or `none` where it goes on. -/
def l2ToBviMacCheck (bitmap : BitVec 32 → Bool) (rxSwIfIndex : BitVec 32) (rv : ToBviErr) :
    Option ToBviErr :=
  if rv ≠ .ok then
    if !l2BviL3Promiscuous bitmap rxSwIfIndex then some rv else none
  else none

/-! ## The flag -/

/-- The `decap_next_index` of a request for a decap-any tunnel. -/
def DecapAnyWire (wire : BitVec 32) : Prop :=
  wire ≠ BitVec.allOnes 32 ∧ wire.getLsbD 31 = true

/-- The flag is tested as bit 31. -/
theorem and_decapAnyFlag_ne_zero (wire : BitVec 32) :
    wire &&& vxlanDecapAnyFlag ≠ 0 ↔ wire.getLsbD 31 = true := by
  have hflag : vxlanDecapAnyFlag = BitVec.twoPow 32 31 := rfl
  rw [hflag, BitVec.and_twoPow]
  cases wire.getLsbD 31 with
  | true => exact iff_of_true (by decide) rfl
  | false => exact iff_of_false (by decide) (by decide)

/-- Without bit 31 there is nothing to strip. -/
theorem strip_of_clear {wire : BitVec 32} (h : wire.getLsbD 31 = false) :
    wire &&& ~~~vxlanDecapAnyFlag = wire := by
  have hflag : vxlanDecapAnyFlag = BitVec.twoPow 32 31 := rfl
  apply BitVec.eq_of_getLsbD_eq
  intro i hi
  rw [hflag, BitVec.getLsbD_and, BitVec.getLsbD_not, BitVec.getLsbD_twoPow]
  by_cases h31 : i = 31
  · rw [h31, h]
    rfl
  · simp [hi, Ne.symm h31]

/-- What is stripped has no bit 31. -/
theorem strip_getLsbD (wire : BitVec 32) :
    (wire &&& ~~~vxlanDecapAnyFlag).getLsbD 31 = false := by
  have hflag : vxlanDecapAnyFlag.getLsbD 31 = true := by decide
  rw [BitVec.getLsbD_and, BitVec.getLsbD_not, hflag, Bool.not_true, Bool.and_false, Bool.and_false]

/-- So it is not `~0`. -/
theorem strip_ne_allOnes (wire : BitVec 32) :
    wire &&& ~~~vxlanDecapAnyFlag ≠ BitVec.allOnes 32 := by
  intro heq
  have hbit := strip_getLsbD wire
  rw [heq] at hbit
  exact absurd hbit (by decide)

/-- **What is decoded**: the flag says decap-any, and is stripped. -/
theorem decodeDecapNext_spec (wire : BitVec 32) :
    ((decodeDecapNext wire).1 = true ↔ DecapAnyWire wire) ∧
      (decodeDecapNext wire).2
        = if wire = BitVec.allOnes 32 then vxlanInputNextL2Input
            else wire &&& ~~~vxlanDecapAnyFlag := by
  unfold decodeDecapNext DecapAnyWire
  simp only [decide_eq_true_eq, and_decapAnyFlag_ne_zero, true_and]
  by_cases hall : wire = BitVec.allOnes 32
  · have hany : ¬ (wire ≠ BitVec.allOnes 32 ∧ wire.getLsbD 31 = true) := fun h => h.1 hall
    rw [if_neg hany, if_pos hall, if_pos hall]
  · by_cases hbit : wire.getLsbD 31 = true
    · have hany : wire ≠ BitVec.allOnes 32 ∧ wire.getLsbD 31 = true := ⟨hall, hbit⟩
      rw [if_pos hany, if_neg (strip_ne_allOnes wire), if_neg hall]
    · have hany : ¬ (wire ≠ BitVec.allOnes 32 ∧ wire.getLsbD 31 = true) := fun h => hbit h.2
      rw [if_neg hany, if_neg hall, if_neg hall, strip_of_clear (by simpa using hbit)]

/-- No stored next index has bit 31. -/
theorem decodeDecapNext_getLsbD (wire : BitVec 32) :
    (decodeDecapNext wire).2.getLsbD 31 = false := by
  rw [(decodeDecapNext_spec wire).2]
  split
  · decide
  · exact strip_getLsbD wire

/-! ## Requests -/

section Requests

variable (up : VppIp)

/-- One request, and the `decap_next_index` of the tunnel that it makes. -/
def wiredStep (s : VxlanMain × (ℕ → BitVec 32)) (r : VxlanRequest) :
    VxlanMain × (ℕ → BitVec 32) :=
  (vxlanStep up s.1 r,
    if r.1.isAdd = true ∧ (vnetVxlanAddDelTunnel up s.1 r.1 r.2).2 = .ok then
      Function.update s.2 r.2.devInstance r.1.decapNextIndex
    else s.2)

/-- A tunnel with the interface `i` is live, and a request for a decap-any one made it. -/
def DecapAnyTunnelAt (s : VxlanMain) (wire : ℕ → BitVec 32) (i : BitVec 32) : Prop :=
  ∃ slot t, s.tunnels.elt slot = some t ∧ t.swIfIndex = i ∧ DecapAnyWire (wire slot)

/-- The request deletes by an entry that leads to a freed slot, where a decap-any tunnel is
left whose interface is by now that of a live decap-any tunnel. -/
def ClearsLiveMark (s : VxlanMain) (r : VxlanRequest) : Prop :=
  r.1.isAdd = false ∧ ∃ i t, deleteIndex up s r.1 = some (some i) ∧
    s.tunnels.elt i = none ∧ s.freed i = some t ∧ t.decapAny = true ∧
      ∃ j u, s.tunnels.elt j = some u ∧ u.decapAny = true ∧ u.swIfIndex = t.swIfIndex

/-- No two tunnels share an interface, and each is as it was decoded. -/
structure Recorded (s : VxlanMain) (wire : ℕ → BitVec 32) : Prop where
  distinct : ∀ {i j t u}, s.tunnels.elt i = some t → s.tunnels.elt j = some u →
    t.swIfIndex = u.swIfIndex → i = j
  valid : ∀ {i t}, s.tunnels.elt i = some t → t.swIfIndex ≠ BitVec.allOnes 32
  decoded : ∀ {i t}, s.tunnels.elt i = some t →
    (t.decapAny, t.decapNextIndex) = decodeDecapNext (wire i)

/-- The marks are those of the decap-any tunnels. -/
structure Marked (s : VxlanMain) (wire : ℕ → BitVec 32) : Prop extends Recorded s wire where
  marks : ∀ i, s.l3Promiscuous i = true ↔ DecapAnyTunnelAt s wire i

/-- A mark on an interface, after it is set or cleared there. -/
theorem setL3Promiscuous_apply {bitmap : BitVec 32 → Bool} {i : BitVec 32}
    (hi : i ≠ BitVec.allOnes 32) (enable : Bool) (j : BitVec 32) :
    l2BviSetL3Promiscuous bitmap i enable j = if j = i then enable else bitmap j := by
  unfold l2BviSetL3Promiscuous
  rw [if_neg hi, Function.update_apply]

/-- The marks after a removal. -/
theorem removeTunnel_l3Promiscuous (s : VxlanMain) (a : VxlanArgs) (e : VxlanEnv) (i : ℕ)
    (t : VxlanTunnel) :
    (vxlanRemoveTunnel up s a e i t).l3Promiscuous
      = if t.decapAny then l2BviSetL3Promiscuous s.l3Promiscuous t.swIfIndex false
        else s.l3Promiscuous := by
  unfold vxlanRemoveTunnel
  cases a.addrs.isIp6 with
  | true => rfl
  | false => rfl

variable {up}

/-- A tunnel is a decap-any one if its request said so. -/
theorem Recorded.decapAny_iff {s : VxlanMain} {wire : ℕ → BitVec 32} (h : Recorded s wire)
    {slot : ℕ} {t : VxlanTunnel} (ht : s.tunnels.elt slot = some t) :
    t.decapAny = true ↔ DecapAnyWire (wire slot) := by
  rw [← (decodeDecapNext_spec (wire slot)).1, ← h.decoded ht]

/-- The new tunnel, after an add. -/
theorem addTunnel_new {s : VxlanMain} {t : VxlanTunnel} (hv : s.tunnels.Vacant t.devInstance) :
    (s.addTunnel up t).tunnels.elt t.devInstance = some t := by
  simp only [VxlanMain.addTunnel, SlotPool.elt_fill hv, if_true]

/-- The others are in other slots, -/
theorem slot_ne_of_vacant {s : VxlanMain} {d j : ℕ} (hv : s.tunnels.Vacant d) {u : VxlanTunnel}
    (hj : s.tunnels.elt j = some u) : j ≠ d := by
  rintro rfl
  exact Option.some_ne_none u (hj.symm.trans hv.1)

/-- and stay there. -/
theorem addTunnel_old {s : VxlanMain} {t : VxlanTunnel} (hv : s.tunnels.Vacant t.devInstance)
    {j : ℕ} {u : VxlanTunnel} (hj : s.tunnels.elt j = some u) :
    (s.addTunnel up t).tunnels.elt j = some u := by
  simp only [VxlanMain.addTunnel, SlotPool.elt_fill hv, if_neg (slot_ne_of_vacant hv hj), hj]

/-- The decap-any tunnels after an add. -/
theorem decapAnyTunnelAt_add {s : VxlanMain} (wire : ℕ → BitVec 32) {t : VxlanTunnel}
    (hv : s.tunnels.Vacant t.devInstance) (next i : BitVec 32) :
    DecapAnyTunnelAt (s.addTunnel up t) (Function.update wire t.devInstance next) i ↔
      (t.swIfIndex = i ∧ DecapAnyWire next) ∨ DecapAnyTunnelAt s wire i := by
  constructor
  · rintro ⟨slot, u, hu, rfl, hwire⟩
    rcases elt_addTunnel up hv hu with ⟨rfl, rfl⟩ | hold
    · rw [Function.update_self] at hwire
      exact Or.inl ⟨rfl, hwire⟩
    · rw [Function.update_of_ne (slot_ne_of_vacant hv hold)] at hwire
      exact Or.inr ⟨slot, u, hold, rfl, hwire⟩
  · rintro (⟨rfl, hwire⟩ | ⟨slot, u, hu, rfl, hwire⟩)
    · refine ⟨_, _, addTunnel_new hv, rfl, ?_⟩
      rw [Function.update_self]
      exact hwire
    · refine ⟨slot, u, addTunnel_old hv hu, rfl, ?_⟩
      rw [Function.update_of_ne (slot_ne_of_vacant hv hu)]
      exact hwire

theorem Recorded.add {s : VxlanMain} {wire : ℕ → BitVec 32} (h : Recorded s wire)
    {r : VxlanRequest} (hvacant : s.tunnels.Vacant r.2.devInstance)
    (hvalid : r.2.swIfIndex ≠ BitVec.allOnes 32)
    (hsw : ∀ i t, s.tunnels.elt i = some t → t.swIfIndex ≠ r.2.swIfIndex) :
    Recorded (s.addTunnel up (r.1.tunnel r.2))
      (Function.update wire r.2.devInstance r.1.decapNextIndex) := by
  refine ⟨?_, ?_, ?_⟩
  · intro i j t u hi hj heq
    rcases elt_addTunnel up hvacant hi with ⟨rfl, rfl⟩ | hi'
    · rcases elt_addTunnel up hvacant hj with ⟨rfl, rfl⟩ | hj'
      · rfl
      · exact absurd heq.symm (hsw j u hj')
    · rcases elt_addTunnel up hvacant hj with ⟨rfl, rfl⟩ | hj'
      · exact absurd heq (hsw i t hi')
      · exact h.distinct hi' hj' heq
  · intro i t hi
    rcases elt_addTunnel up hvacant hi with ⟨rfl, rfl⟩ | hi'
    · exact hvalid
    · exact h.valid hi'
  · intro i t hi
    rcases elt_addTunnel up hvacant hi with ⟨rfl, rfl⟩ | hi'
    · exact congrArg decodeDecapNext (Function.update_self _ _ wire).symm
    · rw [Function.update_of_ne (slot_ne_of_vacant hvacant hi')]
      exact h.decoded hi'

/-- **A tunnel is added.** -/
theorem Marked.add {s : VxlanMain} {wire : ℕ → BitVec 32} (h : Marked s wire)
    {r : VxlanRequest} (hvacant : s.tunnels.Vacant r.2.devInstance)
    (hvalid : r.2.swIfIndex ≠ BitVec.allOnes 32)
    (hsw : ∀ i t, s.tunnels.elt i = some t → t.swIfIndex ≠ r.2.swIfIndex) :
    Marked (s.addTunnel up (r.1.tunnel r.2))
      (Function.update wire r.2.devInstance r.1.decapNextIndex) := by
  refine ⟨h.toRecorded.add hvacant hvalid hsw, ?_⟩
  -- the new tunnel has the interface for itself, so its mark is about no other
  intro i
  have hflag : (r.1.tunnel r.2).decapAny = true ↔ DecapAnyWire r.1.decapNextIndex :=
    (decodeDecapNext_spec r.1.decapNextIndex).1
  have hlive : DecapAnyTunnelAt (s.addTunnel up (r.1.tunnel r.2)) _ i ↔ _ :=
    decapAnyTunnelAt_add wire hvacant r.1.decapNextIndex i
  refine Iff.trans ?_ hlive.symm
  rw [← hflag, ← h.marks i]
  show (if (r.1.tunnel r.2).decapAny then
    l2BviSetL3Promiscuous s.l3Promiscuous r.2.swIfIndex true else s.l3Promiscuous) i = true ↔ _
  cases (r.1.tunnel r.2).decapAny with
  | false => simp
  | true =>
    rw [if_pos rfl, setL3Promiscuous_apply hvalid]
    by_cases hi : i = r.2.swIfIndex
    · simp [hi, VxlanArgs.tunnel]
    · simp [hi, Ne.symm hi, VxlanArgs.tunnel]

/-- The tunnels after a removal. -/
theorem elt_removeTunnel {s : VxlanMain} {a : VxlanArgs} {e : VxlanEnv} {i j : ℕ}
    {t u : VxlanTunnel} :
    (vxlanRemoveTunnel up s a e i t).tunnels.elt j = some u ↔
      j ≠ i ∧ s.tunnels.elt j = some u := by
  rw [(removeTunnel_tunnels up s a e i t).1, SlotPool.elt_clear]
  by_cases hj : j = i
  · simp [hj]
  · simp [hj]

theorem Recorded.remove {s : VxlanMain} {wire : ℕ → BitVec 32} (h : Recorded s wire)
    {a : VxlanArgs} {e : VxlanEnv} {i : ℕ} {t : VxlanTunnel} :
    Recorded (vxlanRemoveTunnel up s a e i t) wire := by
  refine ⟨?_, ?_, ?_⟩
  · intro j k u v hj hk heq
    exact h.distinct (elt_removeTunnel.1 hj).2 (elt_removeTunnel.1 hk).2 heq
  · intro j u hj
    exact h.valid (elt_removeTunnel.1 hj).2
  · intro j u hj
    exact h.decoded (elt_removeTunnel.1 hj).2

/-- The decap-any tunnels after a removal: those on other interfaces. -/
theorem Recorded.decapAnyTunnelAt_remove {s : VxlanMain} {wire : ℕ → BitVec 32}
    (h : Recorded s wire) {a : VxlanArgs} {e : VxlanEnv} {i : ℕ} {t : VxlanTunnel}
    (ht : s.tunnels.elt i = some t) (sw : BitVec 32) :
    DecapAnyTunnelAt (vxlanRemoveTunnel up s a e i t) wire sw ↔
      t.swIfIndex ≠ sw ∧ DecapAnyTunnelAt s wire sw := by
  constructor
  · rintro ⟨slot, u, hu, rfl, hwire⟩
    obtain ⟨hne, hu'⟩ := elt_removeTunnel.1 hu
    exact ⟨fun heq => hne (h.distinct ht hu' heq).symm, slot, u, hu', rfl, hwire⟩
  · rintro ⟨hne, slot, u, hu, rfl, hwire⟩
    refine ⟨slot, u, elt_removeTunnel.2 ⟨?_, hu⟩, rfl, hwire⟩
    rintro rfl
    exact hne (congrArg VxlanTunnel.swIfIndex (Option.some.inj (ht.symm.trans hu)))

/-- **A tunnel is removed.** -/
theorem Marked.remove {s : VxlanMain} {wire : ℕ → BitVec 32} (h : Marked s wire)
    {a : VxlanArgs} {e : VxlanEnv} {i : ℕ} {t : VxlanTunnel} (ht : s.tunnels.elt i = some t) :
    Marked (vxlanRemoveTunnel up s a e i t) wire := by
  refine ⟨h.toRecorded.remove, ?_⟩
  intro sw
  rw [h.decapAnyTunnelAt_remove ht, ← h.marks sw, removeTunnel_l3Promiscuous]
  cases hany : t.decapAny with
  | true =>
    rw [if_pos rfl, setL3Promiscuous_apply (h.valid ht)]
    by_cases hsw : sw = t.swIfIndex
    · simp [hsw]
    · simp [hsw, Ne.symm hsw]
  | false =>
    -- its interface has no mark: the only tunnel there is not a decap-any one
    rw [if_neg Bool.false_ne_true]
    constructor
    · intro hmark
      refine ⟨?_, hmark⟩
      rintro rfl
      obtain ⟨slot, u, hu, heq, hwire⟩ := (h.marks _).1 hmark
      obtain rfl := h.distinct hu ht heq
      have htrue := (h.decapAny_iff ht).2 hwire
      exact Bool.false_ne_true (hany.symm.trans htrue)
    · exact fun hmark => hmark.2

/-! ## Deletes that reach a freed slot -/

/-- No tunnel goes when the slot is free, -/
theorem decapAnyTunnelAt_stale {s : VxlanMain} (wire : ℕ → BitVec 32) {a : VxlanArgs}
    {e : VxlanEnv} {i : ℕ} {t : VxlanTunnel} (hfree : s.tunnels.elt i = none) (sw : BitVec 32) :
    DecapAnyTunnelAt (vxlanRemoveTunnel up s a e i t) wire sw ↔ DecapAnyTunnelAt s wire sw := by
  constructor
  · rintro ⟨slot, u, hu, rfl, hwire⟩
    exact ⟨slot, u, (elt_removeTunnel.1 hu).2, rfl, hwire⟩
  · rintro ⟨slot, u, hu, rfl, hwire⟩
    refine ⟨slot, u, elt_removeTunnel.2 ⟨?_, hu⟩, rfl, hwire⟩
    rintro rfl
    exact Option.some_ne_none u (hu.symm.trans hfree)

/-- so the marks stay in order as long as none of a live tunnel is cleared. -/
theorem Marked.stale {s : VxlanMain} {wire : ℕ → BitVec 32} (h : Marked s wire) {a : VxlanArgs}
    {e : VxlanEnv} {i : ℕ} {t : VxlanTunnel} (hfree : s.tunnels.elt i = none)
    (hnone : t.decapAny = true → ∀ j u, s.tunnels.elt j = some u → u.decapAny = true →
      u.swIfIndex ≠ t.swIfIndex) :
    Marked (vxlanRemoveTunnel up s a e i t) wire := by
  refine ⟨h.toRecorded.remove, ?_⟩
  intro sw
  rw [decapAnyTunnelAt_stale wire hfree, ← h.marks sw, removeTunnel_l3Promiscuous]
  cases hany : t.decapAny with
  | false => rw [if_neg Bool.false_ne_true]
  | true =>
    rw [if_pos rfl]
    by_cases hall : t.swIfIndex = BitVec.allOnes 32
    · rw [l2BviSetL3Promiscuous, if_pos hall]
    · rw [setL3Promiscuous_apply hall]
      by_cases hsw : sw = t.swIfIndex
      · -- there was no mark to clear
        rw [if_pos hsw]
        refine iff_of_false Bool.false_ne_true ?_
        rw [h.marks sw]
        rintro ⟨j, u, hu, heq, hwire⟩
        exact hnone hany j u hu ((h.decapAny_iff hu).2 hwire) (heq.trans hsw)
      · rw [if_neg hsw]

/-- A live tunnel whose mark is cleared has none any more. -/
theorem Marked.clearsLiveMark {s : VxlanMain} {wire : ℕ → BitVec 32} (h : Marked s wire)
    {r : VxlanRequest} (hclears : ClearsLiveMark up s r) :
    ∃ i, (vxlanStep up s r).l3Promiscuous i = false ∧
      DecapAnyTunnelAt (vxlanStep up s r) wire i := by
  obtain ⟨hdel, i, t, hidx, hfree, hleft, hany, j, u, hu, huany, hsw⟩ := hclears
  have hslot : s.poolEltAtIndex i = some t := by
    rw [VxlanMain.poolEltAtIndex, hfree, hleft, Option.none_or]
  have hstep : vxlanStep up s r = vxlanRemoveTunnel up s r.1 r.2 i t := by
    unfold vxlanStep vnetVxlanAddDelTunnel vxlanDelTunnel
    simp only [hdel, Bool.false_eq_true, if_false, hidx, hslot]
  refine ⟨t.swIfIndex, ?_, ?_⟩
  · have hvalid : t.swIfIndex ≠ BitVec.allOnes 32 := hsw ▸ h.valid hu
    rw [hstep, removeTunnel_l3Promiscuous, hany, if_pos rfl, setL3Promiscuous_apply hvalid,
      if_pos rfl]
  · rw [hstep, decapAnyTunnelAt_stale wire hfree]
    exact ⟨j, u, hu, hsw, (h.decapAny_iff hu).1 huany⟩

/-! ## Runs -/

/-- What a request does with the record of the `decap_next_index`es. -/
theorem Recorded.step {s : VxlanMain × (ℕ → BitVec 32)} (h : Recorded s.1 s.2)
    {r : VxlanRequest} (hadm : Admissible s.1 r) :
    Recorded (wiredStep up s r).1 (wiredStep up s r).2 := by
  unfold wiredStep vxlanStep vnetVxlanAddDelTunnel
  cases hadd : r.1.isAdd with
  | true =>
    simp only [if_true, true_and]
    by_cases hok : AddSucceeds up s.1 r.1 r.2
    · obtain ⟨hvacant, hvalid, hsw⟩ := hadm hadd
      rw [vxlanAddTunnel_ok up hok, if_pos rfl]
      exact h.add hvacant hvalid hsw
    · obtain ⟨⟨freed, -, hsame⟩, hrv⟩ := vxlanAddTunnel_failed up hadd hok
      rw [hsame, if_neg hrv]
      exact ⟨h.distinct, h.valid, h.decoded⟩
  | false =>
    simp only [Bool.false_eq_true, if_false, false_and]
    unfold vxlanDelTunnel
    rcases deleteIndex up s.1 r.1 with _ | _ | i
    · exact h
    · exact h
    · cases helt : s.1.poolEltAtIndex i with
      | none => simpa only [helt] using h
      | some t => simpa only [helt] using h.remove

/-- **Every other request keeps the marks in order.** -/
theorem Marked.step {s : VxlanMain × (ℕ → BitVec 32)} (h : Marked s.1 s.2)
    {r : VxlanRequest} (hadm : Admissible s.1 r) (hclears : ¬ ClearsLiveMark up s.1 r) :
    Marked (wiredStep up s r).1 (wiredStep up s r).2 := by
  unfold wiredStep vxlanStep vnetVxlanAddDelTunnel
  cases hadd : r.1.isAdd with
  | true =>
    simp only [if_true, true_and]
    by_cases hok : AddSucceeds up s.1 r.1 r.2
    · obtain ⟨hvacant, hvalid, hsw⟩ := hadm hadd
      rw [vxlanAddTunnel_ok up hok, if_pos rfl]
      exact h.add hvacant hvalid hsw
    · obtain ⟨⟨freed, -, hsame⟩, hrv⟩ := vxlanAddTunnel_failed up hadd hok
      rw [hsame, if_neg hrv]
      exact ⟨⟨h.distinct, h.valid, h.decoded⟩, h.marks⟩
  | false =>
    simp only [Bool.false_eq_true, if_false, false_and]
    unfold vxlanDelTunnel
    rcases hidx : deleteIndex up s.1 r.1 with _ | _ | i
    · exact h
    · exact h
    · -- a live tunnel, or what is left of one
      cases helt : s.1.tunnels.elt i with
      | some t => simpa only [poolEltAtIndex_live helt] using h.remove helt
      | none =>
        cases hleft : s.1.freed i with
        | none => simpa only [VxlanMain.poolEltAtIndex, helt, hleft, Option.none_or] using h
        | some t =>
          simp only [VxlanMain.poolEltAtIndex, helt, hleft, Option.none_or]
          refine h.stale helt ?_
          intro hany j u hu huany heq
          exact hclears ⟨hadd, i, t, hidx, helt, hleft, hany, j, u, hu, huany, heq⟩

/-- No tunnels, no marks. -/
theorem marked_init (wire : ℕ → BitVec 32) : Marked VxlanMain.init wire where
  distinct := fun h => absurd h (Option.some_ne_none _).symm
  valid := fun h => absurd h (Option.some_ne_none _).symm
  decoded := fun h => absurd h (Option.some_ne_none _).symm
  marks := by
    intro i
    refine iff_of_false Bool.false_ne_true ?_
    rintro ⟨slot, t, ht, -⟩
    exact absurd ht (Option.some_ne_none _).symm

/-- An interface relaxes the MAC check exactly if it is that of a live tunnel whose request
had bit 31 set in a `decap_next_index` other than `~0`. -/
def OnlyDecapAnyRelaxes (s : VxlanMain) (wire : ℕ → BitVec 32) : Prop :=
  ∀ i, (l2BviL3Promiscuous s.l3Promiscuous i = true ↔ DecapAnyTunnelAt s wire i) ∧
    ∀ rv, rv ≠ .ok → (l2ToBviMacCheck s.l3Promiscuous i rv = none ↔ DecapAnyTunnelAt s wire i)

/-- Who is marked passes the check. -/
theorem onlyDecapAnyRelaxes_iff (s : VxlanMain) (wire : ℕ → BitVec 32) :
    OnlyDecapAnyRelaxes s wire ↔
      ∀ i, l2BviL3Promiscuous s.l3Promiscuous i = true ↔ DecapAnyTunnelAt s wire i := by
  refine ⟨fun hall i => (hall i).1, fun hall i => ⟨hall i, ?_⟩⟩
  intro rv hrv
  rw [← hall i]
  unfold l2ToBviMacCheck
  rw [if_pos hrv]
  cases l2BviL3Promiscuous s.l3Promiscuous i with
  | true => simp
  | false => simp

theorem Marked.onlyDecapAnyRelaxes {s : VxlanMain} {wire : ℕ → BitVec 32} (h : Marked s wire) :
    OnlyDecapAnyRelaxes s wire := by
  rw [onlyDecapAnyRelaxes_iff]
  intro i
  unfold l2BviL3Promiscuous
  by_cases hi : i = BitVec.allOnes 32
  · rw [if_pos hi]
    refine iff_of_false Bool.false_ne_true ?_
    rintro ⟨slot, t, ht, heq, -⟩
    exact h.valid ht (heq.trans hi)
  · rw [if_neg hi]
    exact h.marks i

/-- The record follows every run. -/
theorem recorded_run {rs : List VxlanRequest}
    (hrun : Allowed (vxlanStep up) Admissible VxlanMain.init rs) (wire : ℕ → BitVec 32) :
    Recorded (run (wiredStep up) (VxlanMain.init, wire) rs).1
      (run (wiredStep up) (VxlanMain.init, wire) rs).2 := by
  refine run_invariant (wiredStep up) (fun s r => Admissible s.1 r)
    (fun s => Recorded s.1 s.2) ?_ (marked_init wire).toRecorded
    ((allowed_image (vxlanStep up) (wiredStep up) Prod.fst Admissible (fun _ _ => rfl)).2 hrun)
  intro s r h hadm
  exact h.step hadm

/-- **Only decap-any tunnels relax the MAC check of a BVI**, in all the states that a run of
requests passes through, exactly if none of its deletes clears the mark of a live tunnel.
No live tunnel keeps the bit, in any run. -/
theorem promiscuous_iff_decap_any {rs : List VxlanRequest}
    (hrun : Allowed (vxlanStep up) Admissible VxlanMain.init rs) (wire : ℕ → BitVec 32) :
    ((∀ n, OnlyDecapAnyRelaxes (run (wiredStep up) (VxlanMain.init, wire) (rs.take n)).1
        (run (wiredStep up) (VxlanMain.init, wire) (rs.take n)).2) ↔
      Allowed (vxlanStep up) (fun s r => ¬ ClearsLiveMark up s r) VxlanMain.init rs) ∧
    (run (wiredStep up) (VxlanMain.init, wire) rs).1 = run (vxlanStep up) VxlanMain.init rs ∧
    ∀ slot t, (run (wiredStep up) (VxlanMain.init, wire) rs).1.tunnels.elt slot = some t →
      t.decapNextIndex.getLsbD 31 = false ∧
      t.decapNextIndex =
        if (run (wiredStep up) (VxlanMain.init, wire) rs).2 slot = BitVec.allOnes 32 then
          vxlanInputNextL2Input
        else (run (wiredStep up) (VxlanMain.init, wire) rs).2 slot &&& ~~~vxlanDecapAnyFlag := by
  have hwired : Allowed (wiredStep up) (fun s r => Admissible s.1 r) (VxlanMain.init, wire) rs :=
    (allowed_image (vxlanStep up) (wiredStep up) Prod.fst Admissible (fun _ _ => rfl)).2 hrun
  refine ⟨?_, ?_, ?_⟩
  · -- the first step that clears a live mark ends it
    rw [forall_take_iff (wiredStep up) (fun s r => Admissible s.1 r)
      (fun s r => ¬ ClearsLiveMark up s.1 r) (fun s => Marked s.1 s.2)
      (fun s => OnlyDecapAnyRelaxes s.1 s.2) (fun s h => h.onlyDecapAnyRelaxes)
      (fun s r h hadm hclears => h.step hadm hclears) ?_ (marked_init wire) hwired]
    · exact allowed_image (vxlanStep up) (wiredStep up) Prod.fst
        (fun s r => ¬ ClearsLiveMark up s r) fun _ _ => rfl
    · intro s r h hadm hnot hall
      have hclears : ClearsLiveMark up s.1 r := not_not.1 hnot
      obtain ⟨i, hcleared, hlive⟩ := h.clearsLiveMark hclears
      have hwire : (wiredStep up s r).2 = s.2 := by
        unfold wiredStep
        rw [hclears.1]
        simp
      rw [← hwire] at hlive
      have hmark := (hall i).1.2 hlive
      unfold l2BviL3Promiscuous at hmark
      split at hmark
      · cases hmark
      · exact Bool.false_ne_true (hcleared.symm.trans hmark)
  · refine (run_simulation (vxlanStep up) (wiredStep up) (fun _ _ => True) (fun s w => w.1 = s)
      ?_ rfl (allowed_of_forall _ fun _ _ => trivial))
    rintro s w r rfl -
    rfl
  · intro slot t ht
    have hnext : t.decapNextIndex = (decodeDecapNext _).2 :=
      congrArg Prod.snd ((recorded_run hrun wire).decoded ht)
    rw [hnext]
    exact ⟨decodeDecapNext_getLsbD _, (decodeDecapNext_spec _).2⟩

end Requests

/-- A decap-any tunnel is made and deleted, and an ordinary one gets its slot and its
interface. -/
def recycledRequests : List VxlanRequest :=
  [decapAnyRequest true 0x0a000001 0x0a000002 0 false,
    decapAnyRequest false 0x0a000001 0x0a000002 0 false,
    ({ (decapAnyRequest true 0x0a000001 0x0a000003 0 false).1 with
        decapNextIndex := BitVec.allOnes 32 },
      (decapAnyRequest true 0x0a000001 0x0a000003 0 false).2)]

/-- The ordinary tunnel has no mark, nor has any state on the way one too many. -/
theorem promiscuous_recycled :
    (∀ n, OnlyDecapAnyRelaxes
      (run (wiredStep .vpp) (VxlanMain.init, fun _ => 0) (recycledRequests.take n)).1
      (run (wiredStep .vpp) (VxlanMain.init, fun _ => 0) (recycledRequests.take n)).2) ∧
    l2BviL3Promiscuous
      (run (wiredStep .vpp) (VxlanMain.init, fun _ => 0) recycledRequests).1.l3Promiscuous 1
        = false := by
  have hadmissible : Allowed (vxlanStep .vpp) Admissible VxlanMain.init recycledRequests := by
    refine ⟨?_, ?_, ?_, trivial⟩
    · intro _
      refine ⟨⟨by decide, by decide⟩, by decide, fun i t h => ?_⟩
      simp [VxlanMain.init] at h
    · intro h
      cases h
    · intro _
      refine ⟨⟨by decide, by decide⟩, by decide, fun i t h => ?_⟩
      refine SlotPool.forall_elt (P := fun t : VxlanTunnel => t.swIfIndex ≠ 1#32) ?_ h
      decide
  refine ⟨?_, by decide⟩
  refine (promiscuous_iff_decap_any hadmissible fun _ => 0).1.2 ⟨?_, ?_, ?_, trivial⟩
  · intro h
    exact Bool.noConfusion h.1
  · -- the delete finds the live tunnel in slot 0
    rintro ⟨-, i, t, hidx, hfree, -⟩
    obtain rfl : 0 = i := Option.some.inj (Option.some.inj hidx)
    cases hfree
  · intro h
    exact Bool.noConfusion h.1

/-- An IPv6 request on UDP port 4789, fib 0 and VNI 100, from and to addresses of
2001:db8::/64. -/
def ip6Request (isAdd decapAny : Bool) (src dst : BitVec 64) (slot : ℕ) (sw : BitVec 32) :
    VxlanRequest :=
  (⟨⟨.ip6 (0x20010db800000000#64 ++ src) (0x20010db800000000#64 ++ dst), 0, 4789, 100⟩, isAdd,
      if decapAny then vxlanDecapAnyFlag ||| 1 else 1⟩,
    ⟨true, slot, sw, false, false, false⟩)

/-- The decap-any tunnel of ::1 takes the entry of the tunnel to ::1, so the delete of that
one deletes the decap-any tunnel and leaves its exact entry, under ::2.  Slot 2 and interface
2 are then given to the decap-any tunnel of ::7. -/
def staleRequests : List VxlanRequest :=
  [ip6Request true false 9 1 0 1, ip6Request true true 1 2 1 2, ip6Request true false 9 5 2 3,
    ip6Request false false 9 1 0 0, ip6Request false false 9 5 0 0, ip6Request true true 7 6 2 2,
    ip6Request false true 1 2 0 0]

theorem staleRequests_admissible :
    Allowed (vxlanStep .vpp) Admissible VxlanMain.init staleRequests := by
  refine ⟨?_, ?_, ?_, ?_, ?_, ?_, ?_, trivial⟩
  · intro _
    refine ⟨⟨by decide, by decide⟩, by decide, fun i t h => ?_⟩
    simp [VxlanMain.init] at h
  · intro _
    refine ⟨⟨by decide, by decide⟩, by decide, fun i t h => ?_⟩
    refine SlotPool.forall_elt (P := fun t : VxlanTunnel => t.swIfIndex ≠ 2#32) ?_ h
    decide
  · intro _
    refine ⟨⟨by decide, by decide⟩, by decide, fun i t h => ?_⟩
    refine SlotPool.forall_elt (P := fun t : VxlanTunnel => t.swIfIndex ≠ 3#32) ?_ h
    decide
  · intro h
    cases h
  · intro h
    cases h
  · intro _
    refine ⟨⟨by decide, by decide⟩, by decide, fun i t h => ?_⟩
    refine SlotPool.forall_elt (P := fun t : VxlanTunnel => t.swIfIndex ≠ 2#32) ?_ h
    decide
  · intro h
    cases h

/-- The last delete finds the freed slot 1, where the deleted tunnel is left, and clears the
mark of interface 2: the live decap-any tunnel of ::7 has none. -/
theorem staleDelete_clears_live_mark :
    Allowed (vxlanStep .vpp) Admissible VxlanMain.init staleRequests ∧
    DecapAnyTunnelAt (run (wiredStep .vpp) (VxlanMain.init, fun _ => 0) staleRequests).1
      (run (wiredStep .vpp) (VxlanMain.init, fun _ => 0) staleRequests).2 2 ∧
    l2BviL3Promiscuous
      (run (wiredStep .vpp) (VxlanMain.init, fun _ => 0) staleRequests).1.l3Promiscuous 2 = false ∧
    ¬ ∀ n, OnlyDecapAnyRelaxes
      (run (wiredStep .vpp) (VxlanMain.init, fun _ => 0) (staleRequests.take n)).1
      (run (wiredStep .vpp) (VxlanMain.init, fun _ => 0) (staleRequests.take n)).2 := by
  have hlive : DecapAnyTunnelAt (run (wiredStep .vpp) (VxlanMain.init, fun _ => 0) staleRequests).1
      (run (wiredStep .vpp) (VxlanMain.init, fun _ => 0) staleRequests).2 2 :=
    ⟨2, _, rfl, by decide, by decide, by decide⟩
  have hmark : l2BviL3Promiscuous
      (run (wiredStep .vpp) (VxlanMain.init, fun _ => 0) staleRequests).1.l3Promiscuous 2
        = false := by decide
  refine ⟨staleRequests_admissible, hlive, hmark, ?_⟩
  intro hall
  have hset := (hall 7 2).1.2 hlive
  exact Bool.false_ne_true (hmark.symm.trans hset)

end Vxlan
