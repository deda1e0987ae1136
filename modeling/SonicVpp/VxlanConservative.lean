/-
# The patched lookups against the ones before the patch

The patched lookups search one more key, built from the destination of the packet,
in the map that also holds the exact entries, so they can hit an exact entry that was
never meant as a wildcard: an IPv4 tunnel with an unspecified remote, or an IPv6 tunnel
(or group) whose remote is the packet's destination.  `Diverges4` and `Diverges6` name
those packets; where there have been no slips there are no others
(`lookup_conservative_iff`).
-/
import SonicVpp.VxlanSearch

open WildcardStore RunInvariant

namespace Vxlan

variable {up : VppIp} {s : VxlanMain}

/-! ## The exact entries -/

/-- No key is both the exact key of a live tunnel and the source-independent key of
one. -/
theorem Consistent.not_wild4 (h : Consistent up s) {k : Vxlan4TunnelKey} {i j : ℕ}
    {t u : VxlanTunnel} (ht : ExactAt4 up s k i t) (hu : WildAt4 up s k j u) : False := by
  obtain ⟨hi, h6, rfl⟩ := ht
  obtain ⟨hj, h6', how, hkey⟩ := hu
  exact h.map4.separate i j _ _ ((live4_eq_some up).2 ⟨t, hi, h6, rfl⟩)
    ((live4_eq_some up).2 ⟨u, hj, h6', rfl⟩) ((wild4_eq_some up).2 ⟨how, hkey⟩)

/-- An entry of the IPv4 map is exact, or belongs to a live wildcard owner. -/
theorem Consistent.map4_split (h : Consistent up s) (k : Vxlan4TunnelKey) :
    s.vxlan4TunnelByKey k = exactEntries4 up s k ∨
      (exactEntries4 up s k = none ∧ ∃ i t, WildAt4 up s k i t ∧
        s.vxlan4TunnelByKey k = some (t.decapInfo up)) := by
  cases hE : exactEntries4 up s k with
  | some v =>
    obtain ⟨i, t, ht, rfl⟩ := exactEntries4_some hE
    exact Or.inl (h.exact4 ht)
  | none =>
    cases hm : s.vxlan4TunnelByKey k with
    | none => exact Or.inl rfl
    | some v =>
      obtain ⟨i, t, ht | ht, rfl⟩ := h.map4_cases hm
      · exact absurd ht (exactEntries4_eq_none.1 hE i t)
      · exact Or.inr ⟨rfl, i, t, ht, rfl⟩

/-- An entry of the IPv6 map is exact, or belongs to a live wildcard owner. -/
theorem Consistent.map6_split (h : Consistent up s) (k : Vxlan6TunnelKey) :
    s.vxlan6TunnelByKey k = exactEntries6 s k ∨
      (exactEntries6 s k = none ∧ ∃ i t, WildAt6 up s k i t ∧
        s.vxlan6TunnelByKey k = some i) := by
  cases hE : exactEntries6 s k with
  | some i =>
    obtain ⟨t, ht⟩ := exactEntries6_some h.dev hE
    exact Or.inl (h.exact6 ht)
  | none =>
    cases hm : s.vxlan6TunnelByKey k with
    | none => exact Or.inl rfl
    | some i =>
      obtain ⟨t, ht | ht⟩ := h.map6_cases hm
      · exact absurd ht (exactEntries6_eq_none.1 hE i t)
      · exact Or.inr ⟨rfl, i, t, ht, rfl⟩

/-- Without wildcard owners the maps hold the exact entries alone. -/
theorem Consistent.exactOnly_eq (h : Consistent up s)
    (hnone : ∀ i t, s.tunnels.elt i = some t → t.decapAny = false) : s.exactOnly up = s := by
  have how : ∀ i t, s.tunnels.elt i = some t → t.ownsWildcard up ≠ true := by
    intro i t ht
    simp [VxlanTunnel.ownsWildcard, hnone i t ht]
  have h4 : exactEntries4 up s = s.vxlan4TunnelByKey := by
    funext k
    rcases h.map4_split k with hk | ⟨-, i, t, ht, -⟩
    · exact hk.symm
    · exact absurd ht.2.2.1 (how i t ht.1)
  have h6 : exactEntries6 s = s.vxlan6TunnelByKey := by
    funext k
    rcases h.map6_split k with hk | ⟨-, i, t, ht, -⟩
    · exact hk.symm
    · exact absurd ht.2.2.1 (how i t ht.1)
  simp only [VxlanMain.exactOnly, h4, h6]

/-! ## IPv4 -/

variable (up s)

/-- The packets on which the patched IPv4 lookup departs: for no decap-any tunnel,
without an exact entry, and either the destination key is the exact key of a tunnel
(its remote is unspecified), or the source is unspecified and the local address of
the destination's group has a source-independent entry. -/
def Diverges4 (p : Vxlan4Packet) : Prop :=
  p.flags = vxlanFlagsI ∧ ¬ DecapAnyFor4 s p ∧ (∀ i t, ¬ ExactAt4 up s p.key4 i t) ∧
    ((∃ i t, ExactAt4 up s (key4w (ip46OfIp4 p.dstAddress) p.tail) i t) ∨
      (up.ip4AddressIsMulticast p.dstAddress = true ∧ p.srcAddress = 0#32 ∧
        ∃ i g, ExactAt4 up s ⟨p.dstAddress.setWidth 64, p.tail⟩ i g ∧
          (∃ j u, WildAt4 up s (key4w (ip46OfIp4 (g.decapInfo up).localIp) p.tail) j u) ∧
          s.vxlan4TunnelByKey (key4w (ip46OfIp4 (g.decapInfo up).localIp) p.tail) ≠ none))

variable {up s}

/-- A wildcard owner under a key whose first half is the packet's destination is a
decap-any tunnel the packet is for. -/
theorem decapAnyFor4_of_wild (hfits : FibsFit s) {p : Vxlan4Packet}
    (hfit : p.fibIndex.toNat < 2 ^ 16) {b : BitVec 32} {i : ℕ} {t : VxlanTunnel}
    (ht : WildAt4 up s ⟨addrPair p.dstAddress b, p.tail⟩ i t) : DecapAnyFor4 s p := by
  obtain ⟨hi, h6, how, hkey⟩ := ht
  obtain ⟨hsrc, -, htail⟩ := key4w_eq_pair.1 hkey
  refine ⟨i, t, hi, ?_, Vxlan4Packet.isFor_of_tail (hfits i t hi) hfit h6
    (src_of_ip46Ip4 h6 hsrc) htail⟩
  simp only [VxlanTunnel.ownsWildcard, Bool.and_eq_true] at how
  exact how.1

theorem key4w_ip46OfIp4 (a : BitVec 32) (tail : VxlanKeyTail) :
    key4w (ip46OfIp4 a) tail = ⟨addrPair a 0#32, tail⟩ :=
  key4w_eq_pair.2 ⟨ip46Ip4_ip46OfIp4 a, rfl, rfl⟩

/-- For a packet for no decap-any tunnel, the entries under its own key, its
destination key and its group key are exact or absent. -/
theorem Consistent.map4_eq_exact (h : Consistent up s) (hfits : FibsFit s) {p : Vxlan4Packet}
    (hfit : p.fibIndex.toNat < 2 ^ 16) (hfor : ¬ DecapAnyFor4 s p) :
    s.vxlan4TunnelByKey p.key4 = exactEntries4 up s p.key4 ∧
    s.vxlan4TunnelByKey (key4w (ip46OfIp4 p.dstAddress) p.tail)
      = exactEntries4 up s (key4w (ip46OfIp4 p.dstAddress) p.tail) ∧
    s.vxlan4TunnelByKey ⟨p.dstAddress.setWidth 64, p.tail⟩
      = exactEntries4 up s ⟨p.dstAddress.setWidth 64, p.tail⟩ := by
  refine ⟨?_, ?_, ?_⟩
  · rcases h.map4_split p.key4 with hk | ⟨-, i, t, ht, -⟩
    · exact hk
    · exact absurd (decapAnyFor4_of_wild hfits hfit ht) hfor
  · rcases h.map4_split (key4w (ip46OfIp4 p.dstAddress) p.tail) with hk | ⟨-, i, t, ht, -⟩
    · exact hk
    · rw [key4w_ip46OfIp4] at ht
      exact absurd (decapAnyFor4_of_wild hfits hfit ht) hfor
  · rcases h.map4_split ⟨p.dstAddress.setWidth 64, p.tail⟩ with hk | ⟨-, i, t, ht, -⟩
    · exact hk
    · -- a source-independent key ends in zero, so the group would be 0.0.0.0
      rw [setWidth_eq_addrPair] at ht
      have hzero : p.dstAddress = 0#32 := (key4w_eq_pair.1 ht.2.2.2).2.1
      have ht' : WildAt4 up s ⟨addrPair p.dstAddress 0#32, p.tail⟩ i t := by
        rw [hzero] at ht ⊢
        exact ht
      exact absurd (decapAnyFor4_of_wild hfits hfit ht') hfor

/-- A packet that diverges has the key tail of a live tunnel. -/
theorem Diverges4.tail_ne {p : Vxlan4Packet} (hd : Diverges4 up s p) : p.tail ≠ emptyTail := by
  obtain ⟨-, -, -, ⟨i, t, ht⟩ | ⟨-, -, i, t, ht, -⟩⟩ := hd
  · have htail : t.tail = p.tail := congrArg Vxlan4TunnelKey.key1 ht.2.2
    exact htail ▸ tail_ne_emptyTail t.toVxlanParams
  · have htail : t.tail = p.tail := congrArg Vxlan4TunnelKey.key1 ht.2.2
    exact htail ▸ tail_ne_emptyTail t.toVxlanParams

/-- The multicast part differs from its run over the exact entries only through a
source-independent entry under an unspecified source. -/
theorem Consistent.multicast4_eq_iff (h : Consistent up s) (hfits : FibsFit s) {p : Vxlan4Packet}
    (hfit : p.fibIndex.toNat < 2 ^ 16) (hfor : ¬ DecapAnyFor4 s p) (cache : LastTunnelCache4)
    (stats : BitVec 32) :
    (vxlan4TryMulticast up s cache p stats).1
        = (vxlan4TryMulticast up (s.exactOnly up) cache p stats).1 ↔
      ¬ (up.ip4AddressIsMulticast p.dstAddress = true ∧ p.srcAddress = 0#32 ∧
        ∃ i g, ExactAt4 up s ⟨p.dstAddress.setWidth 64, p.tail⟩ i g ∧
          (∃ j u, WildAt4 up s (key4w (ip46OfIp4 (g.decapInfo up).localIp) p.tail) j u) ∧
          s.vxlan4TunnelByKey (key4w (ip46OfIp4 (g.decapInfo up).localIp) p.tail) ≠ none) := by
  have hg := (h.map4_eq_exact hfits hfit hfor).2.2
  have hex : (s.exactOnly up).vxlan4TunnelByKey = exactEntries4 up s := rfl
  unfold vxlan4TryMulticast
  rw [hg, hex]
  cases hm : up.ip4AddressIsMulticast p.dstAddress with
  | false => simp
  | true =>
    cases hE : exactEntries4 up s ⟨p.dstAddress.setWidth 64, p.tail⟩ with
    | none =>
      have hnone := exactEntries4_eq_none.1 hE
      simp only [Bool.not_true, Bool.false_eq_true, if_false, true_iff]
      rintro ⟨-, -, i, g, hig, -⟩
      exact hnone i g hig
    | some mdi =>
      obtain ⟨i, g, hig, rfl⟩ := exactEntries4_some hE
      simp only [Bool.not_true, Bool.false_eq_true, if_false, true_and]
      rcases h.map4_split ⟨addrPair (g.decapInfo up).localIp p.srcAddress, p.tail⟩ with
        hsame | ⟨hnone, j, u, hju, hv⟩
      · rw [hsame]
        refine ⟨?_, ?_⟩
        · -- a group has one tunnel, and its local address has no exact entry
          rintro - ⟨hsrc, i', g', hig', ⟨j, u, hju⟩, hne⟩
          obtain rfl := h.exact4_unique hig hig'
          obtain rfl : g = g' := Option.some.inj (hig.1.symm.trans hig'.1)
          rw [key4w_ip46OfIp4] at hju hne
          rw [hsrc] at hsame
          cases hE' : exactEntries4 up s ⟨addrPair (g.decapInfo up).localIp 0#32, p.tail⟩ with
          | none => exact hne (hsame.trans hE')
          | some v =>
            obtain ⟨k, w, hkw, -⟩ := exactEntries4_some hE'
            exact h.not_wild4 hkw hju
        · intro _
          cases exactEntries4 up s ⟨addrPair (g.decapInfo up).localIp p.srcAddress, p.tail⟩ <;> rfl
      · rw [hnone, hv]
        have hne : u.decapInfo up ≠ decapNotFound := h.decapInfo_ne_notFound hju.1
        have hsrc : p.srcAddress = 0#32 := (key4w_eq_pair.1 hju.2.2.2).2.1
        refine ⟨fun heq => absurd heq hne, fun hno => absurd ⟨hsrc, i, g, hig, ?_⟩ hno⟩
        rw [hsrc, ← key4w_ip46OfIp4] at hju hv
        exact ⟨⟨j, u, hju⟩, by rw [hv]; simp⟩

/-- The exact entry a destination key hits is not what the multicast part finds. -/
theorem Consistent.exact4_ne_multicast (h : Consistent up s) {p : Vxlan4Packet}
    (hmiss : exactEntries4 up s p.key4 = none) {i : ℕ} {t : VxlanTunnel}
    (ht : ExactAt4 up s (key4w (ip46OfIp4 p.dstAddress) p.tail) i t)
    (cache : LastTunnelCache4) (stats : BitVec 32) :
    t.decapInfo up ≠ (vxlan4TryMulticast up (s.exactOnly up) cache p stats).1 := by
  have hne := h.decapInfo_ne_notFound ht.1
  have hex : (s.exactOnly up).vxlan4TunnelByKey = exactEntries4 up s := rfl
  unfold vxlan4TryMulticast
  rw [hex]
  cases hm : up.ip4AddressIsMulticast p.dstAddress with
  | false => exact hne
  | true =>
    cases exactEntries4 up s ⟨p.dstAddress.setWidth 64, p.tail⟩ with
    | none => exact hne
    | some mdi =>
      cases hdi : exactEntries4 up s ⟨addrPair mdi.localIp p.srcAddress, p.tail⟩ with
      | none => simpa [hdi] using hne
      | some di =>
        obtain ⟨j, u, hju, rfl⟩ := exactEntries4_some hdi
        simp only [Bool.not_true, Bool.false_eq_true, if_false, hdi]
        intro heq
        -- the same interface is the same tunnel, so the packet's source is unspecified
        have hsw : t.swIfIndex = u.swIfIndex := by
          have hself : (t.decapInfo up).swIfIndex = t.swIfIndex := decapInfo_swIfIndex t
          rw [← hself, heq, decapInfo_swIfIndex]
        have hij : i = j := by
          have := h.swIf i t ht.1
          rw [hsw, h.swIf j u hju.1] at this
          exact (Option.some.inj this).symm
        subst hij
        obtain rfl : t = u := Option.some.inj (ht.1.symm.trans hju.1)
        have hkey := ht.2.2.symm.trans hju.2.2
        have hsrc : p.srcAddress = 0#32 := (key4w_eq_pair.1 hkey).2.1
        rw [key4w_ip46OfIp4, ← hsrc] at ht
        exact exactEntries4_eq_none.1 hmiss i t ht

/-- **Where the two IPv4 lookups differ**, on packets for no decap-any tunnel. -/
theorem Consistent.lookup4_eq_iff (h : Consistent up s) (hfits : FibsFit s)
    {cache : LastTunnelCache4} {p : Vxlan4Packet} (stats : BitVec 32)
    (hfit : p.fibIndex.toNat < 2 ^ 16) (hfor : ¬ DecapAnyFor4 s p)
    (hcache : Coherent4 (exactEntries4 up s) cache) :
    (vxlan4FindTunnel up s cache p stats).1
        = (tuntermAclVxlan4FindTunnel up (s.exactOnly up) cache p stats).1 ↔
      ¬ Diverges4 up s p := by
  -- with no decap-any tunnel for the packet both maps have the exact entries alone
  obtain ⟨hk, hd, -⟩ := h.map4_eq_exact hfits hfit hfor
  have hex : (s.exactOnly up).vxlan4TunnelByKey = exactEntries4 up s := rfl
  unfold vxlan4FindTunnel tuntermAclVxlan4FindTunnel vxlan4TryExact
  rw [hex, hk, dstKey4_eq_key4w, hd]
  by_cases hf : p.flags = vxlanFlagsI
  · simp only [hf, ne_eq, not_true_eq_false, if_false]
    by_cases hkey : p.key4 = cache.key
    · rw [if_pos hkey, if_pos hkey]
      simp only [true_iff]
      intro hdiv
      rcases hcache with rfl | hc
      · exact hdiv.tail_ne (congrArg Vxlan4TunnelKey.key1 hkey)
      · rw [← hkey] at hc
        obtain ⟨i, t, ht, -⟩ := exactEntries4_some hc
        exact hdiv.2.2.1 i t ht
    · rw [if_neg hkey, if_neg hkey]
      cases hE : exactEntries4 up s p.key4 with
      | some v =>
        simp only [true_iff]
        intro hdiv
        obtain ⟨i, t, ht, -⟩ := exactEntries4_some hE
        exact hdiv.2.2.1 i t ht
      | none =>
        have hmiss := exactEntries4_eq_none.1 hE
        cases hEd : exactEntries4 up s (key4w (ip46OfIp4 p.dstAddress) p.tail) with
        | some v =>
          obtain ⟨i, t, ht, rfl⟩ := exactEntries4_some hEd
          refine ⟨fun heq => absurd heq (h.exact4_ne_multicast hE ht cache stats), fun hno => ?_⟩
          exact absurd ⟨hf, hfor, hmiss, Or.inl ⟨i, t, ht⟩⟩ hno
        | none =>
          have hdst := exactEntries4_eq_none.1 hEd
          rw [h.multicast4_eq_iff hfits hfit hfor]
          constructor
          · rintro hno ⟨-, -, -, ⟨i, t, ht⟩ | hmc⟩
            · exact hdst i t ht
            · exact hno hmc
          · intro hno hmc
            exact hno ⟨hf, hfor, hmiss, Or.inr hmc⟩
  · simp only [hf, ne_eq, not_false_eq_true, if_true, true_iff]
    intro hdiv
    exact hf hdiv.1

/-! ## IPv6 -/

variable (up s)

/-- The packets on which the patched IPv6 lookup departs: for no decap-any tunnel,
the source is no tunnel's remote but the destination is one (or a group), and there
is no entry under the source at all, or the destination is multicast. -/
def Diverges6 (p : Vxlan6Packet) : Prop :=
  p.flags = vxlanFlagsI ∧ ¬ DecapAnyFor6 s p ∧ (∀ i t, ¬ ExactAt6 s p.key6 i t) ∧
    (∃ i t, ExactAt6 s p.dstKey6 i t) ∧
    (s.vxlan6TunnelByKey p.key6 = none ∨ up.ip6AddressIsMulticast p.dstAddress = true)

variable {up s}

/-- A wildcard owner under the packet's destination key is a decap-any tunnel the
packet is for. -/
theorem decapAnyFor6_of_wild (hfits : FibsFit s) {p : Vxlan6Packet}
    (hfit : p.fibIndex.toNat < 2 ^ 16) {i : ℕ} {t : VxlanTunnel}
    (ht : WildAt6 up s p.dstKey6 i t) : DecapAnyFor6 s p := by
  obtain ⟨hi, h6, how, hkey⟩ := ht
  obtain ⟨hsrc, htail⟩ := key6w_inj.1 (hkey.trans (dstKey6_eq_key6w p))
  refine ⟨i, t, hi, ?_, Vxlan6Packet.isFor_of_tail (hfits i t hi) hfit h6 hsrc htail⟩
  simp only [VxlanTunnel.ownsWildcard, Bool.and_eq_true] at how
  exact how.1

/-- For a packet for no decap-any tunnel the entry under its destination key is
exact or absent, so the validation of a hit does not change. -/
theorem Consistent.validate6_eq (h : Consistent up s) (hfits : FibsFit s) {p : Vxlan6Packet}
    (hfit : p.fibIndex.toNat < 2 ^ 16) (hfor : ¬ DecapAnyFor6 s p) (cache : LastTunnelCache6)
    (stats : BitVec 32) :
    s.vxlan6TunnelByKey p.dstKey6 = exactEntries6 s p.dstKey6 ∧
    vxlan6Validate up s cache p stats = vxlan6Validate up (s.exactOnly up) cache p stats := by
  have hd : s.vxlan6TunnelByKey p.dstKey6 = exactEntries6 s p.dstKey6 := by
    rcases h.map6_split p.dstKey6 with hk | ⟨-, i, t, ht, -⟩
    · exact hk
    · exact absurd (decapAnyFor6_of_wild hfits hfit ht) hfor
  refine ⟨hd, ?_⟩
  unfold vxlan6Validate
  rw [hd]
  rfl

/-- What the validation makes of a source-independent hit on the packet's source. -/
theorem Consistent.validate6_wild (h : Consistent up s) (hfits : FibsFit s) {p : Vxlan6Packet}
    (hfit : p.fibIndex.toNat < 2 ^ 16) (hfor : ¬ DecapAnyFor6 s p) {i : ℕ} {t : VxlanTunnel}
    (ht : WildAt6 up s p.key6 i t)
    (stats : BitVec 32) :
    (vxlan6Validate up s ⟨p.key6, i⟩ p stats).map Prod.fst = some decapNotFound ↔
      ¬ (up.ip6AddressIsMulticast p.dstAddress = true ∧ ∃ j u, ExactAt6 s p.dstKey6 j u) := by
  have hdst : p.dstAddress ≠ t.addrs.src := by
    intro hdst
    obtain ⟨hi, h6, how, hkey⟩ := ht
    refine hfor ⟨i, t, hi, ?_, Vxlan6Packet.isFor_of_tail (hfits i t hi) hfit h6 hdst.symm
      (congrArg Vxlan6TunnelKey.key2 hkey)⟩
    simp only [VxlanTunnel.ownsWildcard, Bool.and_eq_true] at how
    exact how.1
  simp only [vxlan6Validate, poolEltAtIndex_live ht.1, hdst, if_false]
  rw [(h.validate6_eq hfits hfit hfor ⟨p.key6, i⟩ stats).1]
  cases up.ip6AddressIsMulticast p.dstAddress with
  | false => simp
  | true =>
    cases hE : exactEntries6 s p.dstKey6 with
    | none =>
      have hnone := exactEntries6_eq_none.1 hE
      simp only [Bool.not_true, Bool.false_eq_true, if_false, Option.map_some, true_and, true_iff]
      rintro ⟨j, u, hju⟩
      exact hnone j u hju
    | some j =>
      obtain ⟨u, hju⟩ := exactEntries6_some h.dev hE
      simp only [Bool.not_true, Bool.false_eq_true, if_false, poolEltAtIndex_live hju.1,
        Option.map_some, true_and]
      constructor
      · intro heq
        exact absurd (Option.some.inj heq) (h.info_ne_notFound ht.1)
      · intro hno
        exact absurd ⟨j, u, hju⟩ hno

/-- **Where the two IPv6 lookups differ**, on packets for no decap-any tunnel. -/
theorem Consistent.lookup6_eq_iff (h : Consistent up s) (hfits : FibsFit s)
    {cache : LastTunnelCache6} {p : Vxlan6Packet} (stats : BitVec 32)
    (hfit : p.fibIndex.toNat < 2 ^ 16) (hfor : ¬ DecapAnyFor6 s p)
    (hcache : Coherent6 (exactEntries6 s) cache) :
    (vxlan6FindTunnel up s cache p stats).map Prod.fst
        = (tuntermAclVxlan6FindTunnel up (s.exactOnly up) cache p stats).map Prod.fst ↔
      ¬ Diverges6 up s p := by
  have hex : (s.exactOnly up).vxlan6TunnelByKey = exactEntries6 s := rfl
  have hd := (h.validate6_eq hfits hfit hfor cache stats).1
  unfold vxlan6FindTunnel tuntermAclVxlan6FindTunnel vxlan6TryExact
  rw [hex, hd]
  by_cases hf : p.flags = vxlanFlagsI
  · simp only [hf, ne_eq, not_true_eq_false, if_false]
    by_cases hkey : p.key6 = cache.key
    · rw [if_pos hkey, if_pos hkey, (h.validate6_eq hfits hfit hfor cache stats).2]
      simp only [true_iff]
      rintro ⟨-, -, hmiss, ⟨i, t, ht⟩, -⟩
      -- a hit: in the empty cache no tunnel has the key, in a filled one it has
      rcases hcache with rfl | hc
      · have htail : t.tail = emptyTail :=
          (congrArg Vxlan6TunnelKey.key2 ht.2.2).trans (congrArg Vxlan6TunnelKey.key2 hkey)
        exact tail_ne_emptyTail t.toVxlanParams htail
      · rw [← hkey] at hc
        obtain ⟨u, hu⟩ := exactEntries6_some h.dev hc
        exact hmiss _ u hu
    · rw [if_neg hkey, if_neg hkey]
      -- the exact key, or a wildcard that the exact map does not have
      rcases h.map6_split p.key6 with hsame | ⟨hnone, i, t, ht, hv⟩
      · rw [hsame]
        cases hE : exactEntries6 s p.key6 with
        | some i =>
          obtain ⟨u, hu⟩ := exactEntries6_some h.dev hE
          simp only [(h.validate6_eq hfits hfit hfor ⟨p.key6, i⟩ stats).2, true_iff]
          intro hdiv
          exact hdiv.2.2.1 i u hu
        | none =>
          have hmiss := exactEntries6_eq_none.1 hE
          cases hEd : exactEntries6 s p.dstKey6 with
          | none =>
            have hdst := exactEntries6_eq_none.1 hEd
            simp only [true_iff]
            rintro ⟨-, -, -, ⟨i, t, ht⟩, -⟩
            exact hdst i t ht
          | some j =>
            obtain ⟨u, hu⟩ := exactEntries6_some h.dev hEd
            simp only [poolEltAtIndex_live hu.1, Option.map_some]
            constructor
            · intro heq
              exact absurd (Option.some.inj heq) (h.info_ne_notFound hu.1)
            · intro hno
              exact absurd ⟨hf, hfor, hmiss, ⟨j, u, hu⟩, Or.inl (hsame.trans hE)⟩ hno
      · rw [hv, hnone]
        have hmiss := exactEntries6_eq_none.1 hnone
        simp only [Option.map_some]
        rw [h.validate6_wild hfits hfit hfor ht]
        constructor
        · rintro hno ⟨-, -, -, hdst, hnone' | hm⟩
          · rw [hv] at hnone'
            cases hnone'
          · exact hno ⟨hm, hdst⟩
        · rintro hno ⟨hm, hdst⟩
          exact hno ⟨hf, hfor, hmiss, hdst, Or.inr hm⟩
  · simp only [hf, ne_eq, not_false_eq_true, if_true, Option.map_some, true_iff]
    intro hdiv
    exact hf hdiv.1

/-! ## Whole histories -/

theorem Consistent.conservative4_iff (h : Consistent up s) (hfits : FibsFit s)
    {cache : LastTunnelCache4} {p : Vxlan4Packet} (stats : BitVec 32)
    (hfit : p.fibIndex.toNat < 2 ^ 16) (hcache : Coherent4 (exactEntries4 up s) cache) :
    Conservative4 up s cache p stats ↔ ¬ Diverges4 up s p := by
  by_cases hfor : DecapAnyFor4 s p
  · constructor
    · rintro - hdiv
      exact hdiv.2.1 hfor
    · intro _
      refine ⟨?_, fun _ => hfor⟩
      obtain ⟨i, t, ht, hany, -⟩ := hfor
      intro hnone
      rw [hnone i t ht] at hany
      cases hany
  · rw [← h.lookup4_eq_iff hfits stats hfit hfor hcache]
    constructor
    · intro hcons
      by_contra hne
      exact hfor (hcons.2 hne)
    · intro heq
      refine ⟨fun hnone => ?_, fun hne => absurd heq hne⟩
      rw [h.exactOnly_eq hnone] at heq
      exact heq

theorem Consistent.conservative6_iff (h : Consistent up s) (hfits : FibsFit s)
    {cache : LastTunnelCache6} {p : Vxlan6Packet} (stats : BitVec 32)
    (hfit : p.fibIndex.toNat < 2 ^ 16) (hcache : Coherent6 (exactEntries6 s) cache) :
    Conservative6 up s cache p stats ↔ ¬ Diverges6 up s p := by
  by_cases hfor : DecapAnyFor6 s p
  · constructor
    · rintro - hdiv
      exact hdiv.2.1 hfor
    · intro _
      refine ⟨?_, fun _ => hfor⟩
      obtain ⟨i, t, ht, hany, -⟩ := hfor
      intro hnone
      rw [hnone i t ht] at hany
      cases hany
  · rw [← h.lookup6_eq_iff hfits stats hfit hfor hcache]
    constructor
    · intro hcons
      by_contra hne
      exact hfor (hcons.2 hne)
    · intro heq
      refine ⟨fun hnone => ?_, fun hne => absurd heq hne⟩
      rw [h.exactOnly_eq hnone] at heq
      exact heq

variable (up)

/-- **The conservative extension, exactly.**  After every history the patched lookups extend
the ones before the patch at the packets whose searches end at the same entries; where the
history has no slips, these are all but those that diverge. -/
theorem lookup_conservative_iff {rs : List VxlanRequest}
    (hrun : Allowed (vxlanStep up) Admissible VxlanMain.init rs) :
    (∀ cache p stats,
      Coherent4 (run (vxlanStep up) VxlanMain.init rs).vxlan4TunnelByKey cache →
      Coherent4 (exactEntries4 up (run (vxlanStep up) VxlanMain.init rs)) cache →
      (Conservative4 up (run (vxlanStep up) VxlanMain.init rs) cache p stats ↔
        p.flags ≠ vxlanFlagsI ∨ DecapAnyFor4 (run (vxlanStep up) VxlanMain.init rs) p ∨
          EntriesAgree4 up (run (vxlanStep up) VxlanMain.init rs) p)) ∧
    (∀ cache p stats,
      Coherent6 (run (vxlanStep up) VxlanMain.init rs).vxlan6TunnelByKey cache →
      Coherent6 (exactEntries6 (run (vxlanStep up) VxlanMain.init rs)) cache →
      (Conservative6 up (run (vxlanStep up) VxlanMain.init rs) cache p stats ↔
        p.flags ≠ vxlanFlagsI ∨ DecapAnyFor6 (run (vxlanStep up) VxlanMain.init rs) p ∨
          EntriesAgree6 up (run (vxlanStep up) VxlanMain.init rs) p)) ∧
    (Allowed (vxlanStep up) (CleanStep up) VxlanMain.init rs →
      (∀ p : Vxlan4Packet, p.fibIndex.toNat < 2 ^ 16 →
        ((p.flags ≠ vxlanFlagsI ∨ DecapAnyFor4 (run (vxlanStep up) VxlanMain.init rs) p ∨
            EntriesAgree4 up (run (vxlanStep up) VxlanMain.init rs) p) ↔
          ¬ Diverges4 up (run (vxlanStep up) VxlanMain.init rs) p)) ∧
      (∀ p : Vxlan6Packet, p.fibIndex.toNat < 2 ^ 16 →
        ((p.flags ≠ vxlanFlagsI ∨ DecapAnyFor6 (run (vxlanStep up) VxlanMain.init rs) p ∨
            EntriesAgree6 up (run (vxlanStep up) VxlanMain.init rs) p) ↔
          ¬ Diverges6 up (run (vxlanStep up) VxlanMain.init rs) p))) := by
  have hvalid := entriesValid_run up hrun
  refine ⟨fun cache p stats hc hc' => hvalid.conservative4_iff stats hc hc',
    fun cache p stats hc hc' => hvalid.conservative6_iff stats hc hc', ?_⟩
  intro hclean
  obtain ⟨h, hfits⟩ := clean_run up hclean
  constructor
  · intro p hfit
    rw [← hvalid.conservative4_iff 0 (Or.inl rfl) (Or.inl rfl)]
    exact h.conservative4_iff hfits 0 hfit (Or.inl rfl)
  · intro p hfit
    rw [← hvalid.conservative6_iff 0 (Or.inl rfl) (Or.inl rfl)]
    exact h.conservative6_iff hfits 0 hfit (Or.inl rfl)

/-- An ordinary IPv6 add on UDP port 4789, fib 0 and VNI 100, for tunnel slot 0. -/
def ordinary6Request (src dst : BitVec 128) : VxlanRequest :=
  (⟨⟨.ip6 src dst, 0, 4789, 100⟩, true, 1⟩, ⟨true, 0, 1, false, false, false⟩)

/-- A decap-any IPv6 add that a check refuses. -/
def refused6Request (src dst : BitVec 128) : VxlanRequest :=
  (⟨⟨.ip6 src dst, 0, 4789, 100⟩, true, vxlanDecapAnyFlag ||| 1⟩,
    ⟨false, 1, 2, false, false, false⟩)

/-- An ordinary tunnel from 2001:db8::1 to 2001:db8::2; a decap-any tunnel of 2001:db8::2 is
refused. -/
def refusedRequests : List VxlanRequest :=
  [ordinary6Request 0x20010db8000000000000000000000001 0x20010db8000000000000000000000002,
    refused6Request 0x20010db8000000000000000000000002 0x20010db8000000000000000000000003]

/-- A packet between two other addresses is treated as before the patch. -/
theorem lookup_conservative_refused :
    Conservative6 .vpp (run (vxlanStep .vpp) VxlanMain.init refusedRequests)
      emptyCache6 ⟨0x20010db8000000000000000000000007, 0x20010db8000000000000000000000001, 4789,
        0, vxlanFlagsI, vniWord 100⟩ 0 := by
  have hclean : Allowed (vxlanStep .vpp) (CleanStep .vpp) VxlanMain.init refusedRequests := by
    refine ⟨cleanStep_init .vpp rfl rfl (by decide) (by decide) ?_, ⟨?_, ?_, ?_⟩, trivial⟩
    · rintro ⟨-, h⟩
      revert h
      decide
    · intro _
      refine ⟨⟨by decide, by decide⟩, by decide, fun i t h => ?_⟩
      refine SlotPool.forall_elt (P := fun t : VxlanTunnel => t.swIfIndex ≠ 2#32) ?_ h
      decide
    · exact slipFree_of_refused .vpp rfl fun h => Bool.noConfusion h.2.1
    · exact fun _ _ => by decide
  have hadm := hclean.mono _ fun _ _ h => h.1
  obtain ⟨-, h6, hdiv⟩ := lookup_conservative_iff .vpp hadm
  refine (h6 _ _ _ (Or.inl rfl) (Or.inl rfl)).2 (((hdiv hclean).2 _ (by decide)).2 ?_)
  -- the only tunnel's remote is not the destination of the packet
  rintro ⟨-, -, -, ⟨i, t, ht, -, hkey⟩, -⟩
  revert hkey
  refine SlotPool.forall_elt (P := fun t : VxlanTunnel => ¬ t.key6 = _) ?_ ht
  decide

/-- An ordinary tunnel from 2001:db8::1 to the group ff0e::1: a packet to the group
from 2001:db8::7, which is no tunnel's remote, was not found and now is. -/
theorem groupEntry_diverges :
    Allowed (vxlanStep .vpp) Admissible VxlanMain.init
      [ordinary6Request 0x20010db8000000000000000000000001 0xff0e0000000000000000000000000001] ∧
    ¬ Conservative6 .vpp
      (run (vxlanStep .vpp) VxlanMain.init
        [ordinary6Request 0x20010db8000000000000000000000001 0xff0e0000000000000000000000000001])
      emptyCache6 ⟨0x20010db8000000000000000000000007, 0xff0e0000000000000000000000000001, 4789,
        0, vxlanFlagsI, vniWord 100⟩ 0 := by
  constructor
  · refine ⟨?_, trivial⟩
    intro _
    refine ⟨⟨by decide, by decide⟩, by decide, fun i t h => ?_⟩
    simp [VxlanMain.init] at h
  · intro hcons
    have heq := hcons.1 (by
      intro i t ht
      refine SlotPool.forall_elt (P := fun t : VxlanTunnel => t.decapAny = false) ?_ ht
      decide)
    revert heq
    decide

end Vxlan
