/-
# What every reachable tunnel table satisfies

`Consistent` is for histories without slips.  Less holds after every history: what is in the
slots of the pool, live or left there, has a valid interface, and so has every entry of the
IPv4 map; every entry of the IPv6 map leads to a slot that has been used; and no entry is
under the key tail of an empty cache.
-/
import SonicVpp.VxlanDecapAny

open WildcardStore RunInvariant

namespace Vxlan

/-! ## The memory of the pool -/

section Slots

variable {up : VppIp} {s : VxlanMain}

/-- What is left by a request that fails is in a free slot, so live tunnels stay. -/
theorem poolEltAtIndex_left {r : VxlanRequest} {freed : ℕ → Option VxlanTunnel}
    (h : LeftInMemory s r freed) {i : ℕ} {t : VxlanTunnel}
    (ht : ({ s with freed := freed } : VxlanMain).poolEltAtIndex i = some t) :
    s.poolEltAtIndex i = some t ∨ (r.1.isAdd = true ∧ t = r.1.tunnel r.2) := by
  rcases h with rfl | ⟨hadd, rfl⟩
  · exact Or.inl ht
  · unfold VxlanMain.poolEltAtIndex at ht ⊢
    cases helt : s.tunnels.elt i with
    | some u =>
      simp only [helt, Option.some_or] at ht
      exact Or.inl ht
    | none =>
      simp only [helt, Option.none_or, Function.update_apply] at ht
      by_cases hi : i = r.2.devInstance
      · rw [if_pos hi] at ht
        exact Or.inr ⟨hadd, (Option.some.inj ht).symm⟩
      · rw [if_neg hi] at ht
        exact Or.inl ht

/-- A slot that has been used stays one. -/
theorem poolEltAtIndex_used {r : VxlanRequest} {freed : ℕ → Option VxlanTunnel}
    (h : LeftInMemory s r freed) {i : ℕ} (hi : ∃ t, s.poolEltAtIndex i = some t) :
    ∃ t, ({ s with freed := freed } : VxlanMain).poolEltAtIndex i = some t := by
  obtain ⟨t, ht⟩ := hi
  rcases h with rfl | ⟨-, rfl⟩
  · exact ⟨t, ht⟩
  · unfold VxlanMain.poolEltAtIndex at ht ⊢
    cases helt : s.tunnels.elt i with
    | some u => exact ⟨u, rfl⟩
    | none =>
      simp only [helt, Option.none_or] at ht
      simp only [Option.none_or, Function.update_apply]
      by_cases hd : i = r.2.devInstance
      · exact ⟨_, if_pos hd⟩
      · exact ⟨t, by rw [if_neg hd, ht]⟩

/-- The slots after an add. -/
theorem poolEltAtIndex_addTunnel {t : VxlanTunnel} (hv : s.tunnels.Vacant t.devInstance) (i : ℕ) :
    (s.addTunnel up t).poolEltAtIndex i
      = if i = t.devInstance then some t else s.poolEltAtIndex i := by
  simp only [VxlanMain.poolEltAtIndex, VxlanMain.addTunnel, SlotPool.elt_fill hv]
  by_cases hi : i = t.devInstance
  · rw [if_pos hi, if_pos hi, Option.some_or]
  · rw [if_neg hi, if_neg hi]

theorem removeTunnel_freed (s : VxlanMain) (a : VxlanArgs) (e : VxlanEnv) (i : ℕ)
    (t : VxlanTunnel) :
    (vxlanRemoveTunnel up s a e i t).freed = Function.update s.freed i (some t) := by
  unfold vxlanRemoveTunnel
  cases a.addrs.isIp6 <;> rfl

/-- A delete leaves in its slot what it found there. -/
theorem poolEltAtIndex_removeTunnel {i : ℕ} {t : VxlanTunnel} (ht : s.poolEltAtIndex i = some t)
    (a : VxlanArgs) (e : VxlanEnv) (j : ℕ) :
    (vxlanRemoveTunnel up s a e i t).poolEltAtIndex j = s.poolEltAtIndex j := by
  rw [VxlanMain.poolEltAtIndex, (removeTunnel_tunnels up s a e i t).1, removeTunnel_freed,
    SlotPool.elt_clear, Function.update_apply]
  by_cases hj : j = i
  · rw [if_pos hj, if_pos hj, Option.none_or, hj, ht]
  · rw [if_neg hj, if_neg hj]
    rfl

end Slots

/-! ## The entries -/

/-- Tunnels and entries carry valid interfaces, entries lead to slots that have been used,
and none has the key tail of an empty cache.  Unlike `Consistent` this holds of every
history. -/
structure EntriesValid (s : VxlanMain) : Prop where
  slot : ∀ i t, s.poolEltAtIndex i = some t → t.swIfIndex ≠ BitVec.allOnes 32
  dev : ∀ i t, s.tunnels.elt i = some t → t.devInstance = i
  entry : ∀ k v, s.vxlan4TunnelByKey k = some v →
    k.key1 ≠ emptyTail ∧ v.swIfIndex ≠ BitVec.allOnes 32
  entry6 : ∀ k i, s.vxlan6TunnelByKey k = some i →
    k.key2 ≠ emptyTail ∧ ∃ t, s.poolEltAtIndex i = some t

/-- An entry after a delete is an old one, or the re-pointed one. -/
theorem delEntries_some {κ ν : Type} [DecidableEq κ] {m : κ → Option ν} {key : κ}
    {keyw : Option κ} {survivor : Option ν} {fails : Bool} {k : κ} {v : ν}
    (h : delEntries m key keyw survivor fails k = some v) :
    m k = some v ∨ (keyw = some k ∧ survivor = some v) := by
  rw [show delEntries m key keyw survivor fails
    = unregister m ⟨key, keyw, v⟩ (if fails then none else survivor) from
      delEntries_eq m ⟨key, keyw, v⟩ survivor fails, unregister_apply] at h
  by_cases hw : keyw = some k
  · rw [if_pos hw] at h
    cases fails with
    | true => cases h
    | false => exact Or.inr ⟨hw, h⟩
  · rw [if_neg hw] at h
    by_cases hk : key = k
    · rw [if_pos hk] at h; cases h
    · rw [if_neg hk] at h
      exact Or.inl h

section Reachable

variable {up : VppIp} {s : VxlanMain}

/-- A live tunnel has a valid interface. -/
theorem EntriesValid.tunnel (h : EntriesValid s) {i : ℕ} {t : VxlanTunnel}
    (ht : s.tunnels.elt i = some t) : t.swIfIndex ≠ BitVec.allOnes 32 :=
  h.slot i t (poolEltAtIndex_live ht)

/-- A request that fails keeps the entries valid. -/
theorem EntriesValid.left (h : EntriesValid s) {r : VxlanRequest} (hadm : Admissible s r)
    {freed : ℕ → Option VxlanTunnel} (hleft : LeftInMemory s r freed) :
    EntriesValid { s with freed := freed } := by
  refine ⟨?_, h.dev, h.entry, ?_⟩
  · intro i t ht
    rcases poolEltAtIndex_left hleft ht with ht | ⟨hadd, rfl⟩
    · exact h.slot i t ht
    · exact (hadm hadd).2.1
  · intro k i hk
    obtain ⟨htail, hi⟩ := h.entry6 k i hk
    exact ⟨htail, poolEltAtIndex_used hleft hi⟩

theorem EntriesValid.addTunnel (h : EntriesValid s) {t : VxlanTunnel}
    (hv : s.tunnels.Vacant t.devInstance) (hsw : t.swIfIndex ≠ BitVec.allOnes 32) :
    EntriesValid (s.addTunnel up t) := by
  refine ⟨?_, ?_, ?_, ?_⟩
  · intro j u hj
    rw [poolEltAtIndex_addTunnel hv] at hj
    by_cases hjd : j = t.devInstance
    · rw [if_pos hjd] at hj
      rw [← Option.some.inj hj]
      exact hsw
    · rw [if_neg hjd] at hj
      exact h.slot j u hj
  · intro j u hj
    rcases elt_addTunnel up hv hj with ⟨rfl, rfl⟩ | hj
    · rfl
    · exact h.dev j u hj
  · intro k v hk
    simp only [VxlanMain.addTunnel] at hk
    cases h6 : t.addrs.isIp6 with
    | true =>
      rw [h6, if_pos rfl] at hk
      exact h.entry k v hk
    | false =>
      rw [h6, if_neg Bool.false_ne_true, register_apply] at hk
      -- the new tunnel's own keys, or an old entry
      by_cases hown : (t.owner4 up).key = k ∨ (t.owner4 up).wild = some k
      · rw [if_pos hown] at hk
        obtain rfl : t.decapInfo up = v := Option.some.inj hk
        refine ⟨?_, by rwa [decapInfo_swIfIndex]⟩
        rcases hown with rfl | hw
        · exact tail_ne_emptyTail t.toVxlanParams
        · obtain ⟨-, rfl⟩ := (wild4_eq_some up).1 hw
          exact tail_ne_emptyTail t.toVxlanParams
      · rw [if_neg hown] at hk
        exact h.entry k v hk
  · intro k i hk
    -- slots that have been used stay so
    have hused : (∃ u, s.poolEltAtIndex i = some u) →
        ∃ u, (s.addTunnel up t).poolEltAtIndex i = some u := by
      rintro ⟨u, hu⟩
      rw [poolEltAtIndex_addTunnel hv]
      by_cases hi : i = t.devInstance
      · exact ⟨t, if_pos hi⟩
      · exact ⟨u, by rw [if_neg hi, hu]⟩
    simp only [VxlanMain.addTunnel] at hk
    cases h6 : t.addrs.isIp6 with
    | false =>
      rw [h6, if_neg Bool.false_ne_true] at hk
      exact ⟨(h.entry6 k i hk).1, hused (h.entry6 k i hk).2⟩
    | true =>
      rw [h6, if_pos rfl, register_apply] at hk
      by_cases hown : (t.owner6 up).key = k ∨ (t.owner6 up).wild = some k
      · rw [if_pos hown] at hk
        obtain rfl : t.devInstance = i := Option.some.inj hk
        refine ⟨?_, t, by rw [poolEltAtIndex_addTunnel hv, if_pos rfl]⟩
        rcases hown with rfl | hw
        · exact tail_ne_emptyTail t.toVxlanParams
        · obtain ⟨-, rfl⟩ := (wild6_eq_some up).1 hw
          exact tail_ne_emptyTail t.toVxlanParams
      · rw [if_neg hown] at hk
        exact ⟨(h.entry6 k i hk).1, hused (h.entry6 k i hk).2⟩

/-- The delete half keeps the entries valid, whether its slot is live or not. -/
theorem EntriesValid.removeTunnel (h : EntriesValid s) (a : VxlanArgs) (e : VxlanEnv) {i : ℕ}
    {t : VxlanTunnel} (ht : s.poolEltAtIndex i = some t) :
    EntriesValid (vxlanRemoveTunnel up s a e i t) := by
  refine ⟨?_, ?_, ?_, ?_⟩
  · intro j u hj
    rw [poolEltAtIndex_removeTunnel ht] at hj
    exact h.slot j u hj
  · intro j u hj
    rw [(removeTunnel_tunnels up s a e i t).1, SlotPool.elt_clear] at hj
    by_cases hji : j = i
    · rw [if_pos hji] at hj; cases hj
    · rw [if_neg hji] at hj
      exact h.dev j u hj
  · intro k v hk
    cases hfa : a.addrs.isIp6 with
    | true =>
      rw [(removeTunnel_other up).1 hfa] at hk
      exact h.entry k v hk
    | false =>
      simp only [vxlanRemoveTunnel, hfa, Bool.false_eq_true, if_false] at hk
      rcases delEntries_some hk with hk | ⟨hw, hsur⟩
      · exact h.entry k v hk
      · rw [Option.map_eq_some_iff] at hsur
        obtain ⟨⟨j, st⟩, hfirst, rfl⟩ := hsur
        obtain ⟨hj, -, -⟩ := SlotPool.first_eq_some hfirst
        refine ⟨?_, h.tunnel hj⟩
        by_cases how : t.ownsWildcard up = true
        · rw [if_pos how] at hw
          obtain rfl := Option.some.inj hw
          exact tail_ne_emptyTail a.toVxlanParams
        · rw [if_neg how] at hw; cases hw
  · intro k j hk
    rw [poolEltAtIndex_removeTunnel ht]
    cases hfa : a.addrs.isIp6 with
    | false =>
      rw [(removeTunnel_other up).2 hfa] at hk
      exact h.entry6 k j hk
    | true =>
      simp only [vxlanRemoveTunnel, hfa, if_true] at hk
      rcases delEntries_some hk with hk | ⟨hw, hsur⟩
      · exact h.entry6 k j hk
      · rw [Option.map_eq_some_iff] at hsur
        obtain ⟨⟨j', st⟩, hfirst, rfl⟩ := hsur
        obtain ⟨hj, -, -⟩ := SlotPool.first_eq_some hfirst
        refine ⟨?_, st, poolEltAtIndex_live hj⟩
        by_cases how : t.ownsWildcard up = true
        · rw [if_pos how] at hw
          obtain rfl := Option.some.inj hw
          exact tail_ne_emptyTail a.toVxlanParams
        · rw [if_neg how] at hw; cases hw

/-- Every request keeps the entries valid, slips included. -/
theorem entriesValid_step (h : EntriesValid s) {r : VxlanRequest} (hadm : Admissible s r) :
    EntriesValid (vxlanStep up s r) := by
  rcases vxlanStep_cases up s r with ⟨freed, hleft, hs⟩ | ⟨hadd, -, hs⟩ | ⟨-, i, t, -, ht, hs⟩
  · rw [hs]
    exact h.left hadm hleft
  · rw [hs]
    exact h.addTunnel (hadm hadd).1 (hadm hadd).2.1
  · rw [hs]
    exact h.removeTunnel r.1 r.2 ht

variable (up)

theorem entriesValid_run {rs : List VxlanRequest}
    (hrun : Allowed (vxlanStep up) Admissible VxlanMain.init rs) :
    EntriesValid (run (vxlanStep up) VxlanMain.init rs) := by
  refine run_invariant (vxlanStep up) Admissible EntriesValid ?_ ?_ hrun
  · intro s r h hadm
    exact entriesValid_step h hadm
  · refine ⟨?_, ?_, ?_, ?_⟩
    · intro i t h
      simp [VxlanMain.init, VxlanMain.poolEltAtIndex] at h
    · intro i t h
      simp [VxlanMain.init] at h
    · intro k v h
      cases h
    · intro k i h
      cases h

end Reachable

/-! ## The multicast part -/

section Multicast

variable {up : VppIp} {s : VxlanMain}

/-- The multicast part passes the cache through. -/
theorem vxlan4TryMulticast_fst (up : VppIp) (cache cache' : LastTunnelCache4) (p : Vxlan4Packet)
    (stats : BitVec 32) :
    (vxlan4TryMulticast up s cache p stats).1 = (vxlan4TryMulticast up s cache' p stats).1 := by
  unfold vxlan4TryMulticast
  cases up.ip4AddressIsMulticast p.dstAddress with
  | false => rfl
  | true =>
    cases s.vxlan4TunnelByKey ⟨p.dstAddress.setWidth 64, p.tail⟩ with
    | none => rfl
    | some mdi =>
      cases hdi : s.vxlan4TunnelByKey ⟨addrPair mdi.localIp p.srcAddress, p.tail⟩ with
      | none => simp [hdi]
      | some di => simp [hdi]

/-- The multicast part finds a given entry. -/
theorem vxlan4TryMulticast_eq_iff {p : Vxlan4Packet} {v : VxlanDecapInfo}
    (hv : v.swIfIndex ≠ BitVec.allOnes 32) (cache : LastTunnelCache4) (stats : BitVec 32) :
    (vxlan4TryMulticast up s cache p stats).1 = v ↔
      up.ip4AddressIsMulticast p.dstAddress = true ∧
        ∃ mdi, s.vxlan4TunnelByKey ⟨p.dstAddress.setWidth 64, p.tail⟩ = some mdi ∧
          s.vxlan4TunnelByKey ⟨addrPair mdi.localIp p.srcAddress, p.tail⟩ = some v := by
  have hne : decapNotFound ≠ v := by
    rintro rfl
    exact hv rfl
  unfold vxlan4TryMulticast
  cases up.ip4AddressIsMulticast p.dstAddress with
  | false => simp [hne]
  | true =>
    cases s.vxlan4TunnelByKey ⟨p.dstAddress.setWidth 64, p.tail⟩ with
    | none => simp [hne]
    | some mdi =>
      cases hdi : s.vxlan4TunnelByKey ⟨addrPair mdi.localIp p.srcAddress, p.tail⟩ with
      | none => simp [hdi, hne]
      | some di => simp [hdi]

end Multicast

end Vxlan
