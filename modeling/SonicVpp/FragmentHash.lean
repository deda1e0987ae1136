/-
# The hashes of fragments

The fragments of one datagram have its addresses and its protocol in common, and nothing else: the
ports, or the header of a tunneled packet, are in the first of them.  So the hashes must not look
behind the IP header of a fragment, and they do not: with a Fragment header, or in an IPv4
fragment, what is mixed are the addresses, the protocol and the flow label
(`fragments_hash_alike`).
-/
import SonicVpp.HashBounds

open PacketBytes Ip

namespace InnerHash

/-! ## IPv6 -/

/-- The flow label, in the word that the host loads. -/
def flowLabelBits (word : BitVec 32) : BitVec 32 := word &&& 0xffff0f00

/-- The unshown lines of `ip6_compute_flow_hash` take the flow label from its word, not the version
and the traffic class. -/
def FlowHashTail.ReadsFlowLabel (tail : FlowHashTail) : Prop :=
  ∀ (cfg : FlowHashConfig) (f : HashFields 64) (w w' : BitVec 32),
    flowLabelBits w = flowLabelBits w' →
    tail.ip6 cfg { f with flowLabel := some w } = tail.ip6 cfg { f with flowLabel := some w' }

/-- The IPv6 packet has a Fragment header at `q`, behind the IPv6 header or behind one hop-by-hop
header, and its payload length covers both. -/
def FragmentAt (m : Mem) (ip q : ℕ) : Prop :=
  (ip6Protocol m ip = protocolIpv6Fragmentation ∧ q = ip + 40 ∧ 8 ≤ ip6PayloadLength m ip) ∨
  (ip6Protocol m ip = protocolIp6HopByHopOptions ∧
    extProtocol m (ip + 40) = protocolIpv6Fragmentation ∧ q = ip + 40 + extBytes m (ip + 40) ∧
    extBytes m (ip + 40) + 8 ≤ ip6PayloadLength m ip)

section Ip6

variable {m m' : Mem} {ip ip' q q' : ℕ}

/-- The walk comes to the Fragment header. -/
theorem FragmentAt.walk (h : FragmentAt m ip q) :
    isTcpUdp (ip6Protocol m ip) = false ∧ ∃ walked,
      ip6WalkHopByHop m ip = (protocolIpv6Fragmentation, q, walked) ∧
      walked + 8 ≤ ip6PayloadLength m ip := by
  rcases h with ⟨hproto, rfl, hlen⟩ | ⟨hproto, hnext, rfl, hlen⟩
  · refine ⟨by rw [hproto]; decide, 0, ?_, by omega⟩
    have hne : ¬ (protocolIpv6Fragmentation = protocolIp6HopByHopOptions) := by decide
    simp [ip6WalkHopByHop, hproto, hne, ip6HeaderSize]
  · refine ⟨by rw [hproto]; decide, extBytes m (ip + 40), ?_, hlen⟩
    have h8 : 8 ≤ extBytes m (ip + 40) := by simp only [extBytes]; omega
    have h2 : 2 ≤ ip6PayloadLength m ip := by omega
    have hcover : extBytes m (ip + 40) ≤ ip6PayloadLength m ip := by omega
    simp [ip6WalkHopByHop, hproto, ip6HeaderSize, h2, hcover, hnext]

/-- A fragment is not looked into. -/
theorem FragmentAt.inner (h : FragmentAt m ip q) (cfg : FlowHashConfig) : ip6Inner m ip cfg = none := by
  obtain ⟨htu, walked, hwalk, -⟩ := h.walk
  unfold ip6Inner ip6Peek
  rw [hwalk]
  simp [htu]

/-- Its header without ports is hashed, with the protocol of the datagram. -/
theorem FragmentAt.outer (h : FragmentAt m ip q) :
    ip6OuterHeader m ip = ip6NoPorts m ip (extProtocol m q) := by
  obtain ⟨htu, walked, hwalk, hlen⟩ := h.walk
  unfold ip6OuterHeader
  rw [hwalk, htu]
  simp [ip6FragmentHeaderSize, hlen]

/-- The four words of two equal address pairs. -/
theorem addressWords_congr {a a' : ℕ} (h : bytesAt m a 32 = bytesAt m' a' 32) :
    loadU64 m a = loadU64 m' a' ∧ loadU64 m (a + 8) = loadU64 m' (a' + 8) ∧
      loadU64 m (a + 16) = loadU64 m' (a' + 16) ∧ loadU64 m (a + 24) = loadU64 m' (a' + 24) := by
  have hbyte := bytesAt_eq_iff.1 h
  have hword : ∀ k, k + 8 ≤ 32 → loadU64 m (a + k) = loadU64 m' (a' + k) := by
    intro k hk
    apply loadU64_congr
    intro l hl
    have := hbyte (k + l) (by omega)
    rwa [← Nat.add_assoc, ← Nat.add_assoc] at this
  exact ⟨hword 0 (by omega), hword 8 (by omega), hword 16 (by omega), hword 24 (by omega)⟩

/-- The folded addresses of two packets with the same addresses. -/
theorem ip6AddrFoldU64_congr (h : bytesAt m (ip + 8) 32 = bytesAt m' (ip' + 8) 32) :
    ip6AddrFoldU64 m (ip + 8) = ip6AddrFoldU64 m' (ip' + 8) ∧
      ip6AddrFoldU64 m (ip + 24) = ip6AddrFoldU64 m' (ip' + 24) := by
  obtain ⟨h0, h8, h16, h24⟩ := addressWords_congr h
  constructor
  · show loadU64 m (ip + 8) ^^^ loadU64 m (ip + 8 + 8) = _
    rw [h0, h8]
    rfl
  · show loadU64 m (ip + 8 + 16) ^^^ loadU64 m (ip + 8 + 24) = _
    rw [h16, h24]
    rfl

theorem hashFields_flowLabel {w : ℕ} (m : Mem) (cfg : FlowHashConfig) (x : HashedHeader w)
    (fl : Option (BitVec 32)) :
    hashFields m cfg fl x = { hashFields m cfg none x with flowLabel := fl } := rfl

/-- **Two IPv6 fragments.** -/
theorem ip6ComputeFlowHash_fragment {tail : FlowHashTail} (htail : tail.ReadsFlowLabel)
    (h : FragmentAt m ip q) (h' : FragmentAt m' ip' q')
    (haddr : bytesAt m (ip + 8) 32 = bytesAt m' (ip' + 8) 32)
    (hlabel : flowLabelBits (loadU32 m ip) = flowLabelBits (loadU32 m' ip'))
    (hproto : extProtocol m q = extProtocol m' q') (cfg : FlowHashConfig) :
    ip6ComputeFlowHash tail m ip cfg = ip6ComputeFlowHash tail m' ip' cfg := by
  obtain ⟨hsrc, hdst⟩ := ip6AddrFoldU64_congr haddr
  have hfields : ∀ fl, hashFields m cfg fl (ip6NoPorts m ip (extProtocol m q))
      = hashFields m' cfg fl (ip6NoPorts m' ip' (extProtocol m' q')) := by
    intro fl
    simp only [hashFields, ip6NoPorts, hashPort, hashTeid, hsrc, hdst, hproto, Bool.false_and,
      Bool.false_eq_true, if_false]
  unfold ip6ComputeFlowHash ip6HashFields
  rw [h.inner cfg, h'.inner cfg]
  show tail.ip6 cfg (hashFields m cfg _ (ip6OuterHeader m ip))
    = tail.ip6 cfg (hashFields m' cfg _ (ip6OuterHeader m' ip'))
  rw [h.outer, h'.outer, hfields, hashFields_flowLabel, hashFields_flowLabel m' cfg _
    (ip6FlowLabel m' ip' cfg)]
  generalize hashFields m' cfg none (ip6NoPorts m' ip' (extProtocol m' q')) = fields
  unfold ip6FlowLabel
  by_cases hfl : cfg.fl = true
  · rw [if_pos hfl, if_pos hfl]
    exact htail cfg fields (loadU32 m ip) (loadU32 m' ip') hlabel
  · rw [if_neg hfl, if_neg hfl]

end Ip6

/-! ## IPv4 -/

/-- Two IPv4 fragments of one tunnel: the same addresses, and the same protocol that an inner header
could be looked for behind. -/
structure TunnelFragments (m : Mem) (ip : ℕ) (m' : Mem) (ip' : ℕ) : Prop where
  fragment : ip4IsFragment m ip = true
  fragment' : ip4IsFragment m' ip' = true
  addresses : bytesAt m (ip + 12) 8 = bytesAt m' (ip' + 12) 8
  protocol : ip4Protocol m ip = ip4Protocol m' ip'
  tunnel : ip4Protocol m ip = 4 ∨ ip4Protocol m ip = 41 ∨ ip4Protocol m ip = 47

section Ip4

variable {m m' : Mem} {ip ip' : ℕ}

theorem TunnelFragments.not_tcpUdp (h : TunnelFragments m ip m' ip') :
    isTcpUdp (ip4Protocol m ip) = false ∧ ip4Protocol m ip ≠ protocolUdp := by
  rcases h.tunnel with hp | hp | hp
  · rw [hp]
    decide
  · rw [hp]
    decide
  · rw [hp]
    decide

/-- **Two IPv4 fragments**, on the IP surface. -/
theorem ip4ComputeFlowHash_fragment (tail : FlowHashTail) (h : TunnelFragments m ip m' ip')
    (cfg : FlowHashConfig) : ip4ComputeFlowHash tail m ip cfg = ip4ComputeFlowHash tail m' ip' cfg := by
  obtain ⟨htu, hudp⟩ := h.not_tcpUdp
  have hinner : ∀ {m : Mem} {ip : ℕ}, ip4IsFragment m ip = true → ip4Inner m ip cfg = none := by
    intro m ip hfrag
    simp [ip4Inner, ip4Peek, hfrag]
  have haddr := bytesAt_eq_iff.1 h.addresses
  have hsrc : loadU32 m (ip + 12) = loadU32 m' (ip' + 12) :=
    loadU32_congr fun k hk => haddr k (by omega)
  have hdst : loadU32 m (ip + 16) = loadU32 m' (ip' + 16) := by
    apply loadU32_congr
    intro k hk
    have := haddr (4 + k) (by omega)
    rwa [← Nat.add_assoc, ← Nat.add_assoc] at this
  unfold ip4ComputeFlowHash ip4HashFields
  rw [hinner h.fragment, hinner h.fragment']
  simp only [hashFields, ip4OuterHeader, hashPort, hashTeid, ← h.protocol, htu, hudp, hsrc, hdst,
    decide_false, Bool.false_and, Bool.false_eq_true, if_false]

/-- The LAG hash of an IPv4 fragment of a tunnel mixes its addresses alone. -/
theorem hashEth_tunnelFragment (up : HashEthUpstream) {eth : ℕ}
    (htype : netU16 m (up.locateEthertype m eth) = ethernetTypeIp4)
    (hver : version m (up.locateEthertype m eth + 2) = 4)
    (hfrag : ip4IsFragment m (up.locateEthertype m eth + 2) = true)
    (htu : isTcpUdp (ip4Protocol m (up.locateEthertype m eth + 2)) = false) :
    hashEthL34InnerInline up m eth = hashEthIp4 up m (up.locateEthertype m eth + 2) 0 := by
  simp [hashEthL34InnerInline, hashEthInner, hashEthOuter, htype, hver, hfrag, hashEthPorts, htu]

/-- **Two IPv4 fragments**, on the LAG surface. -/
theorem hashEth_fragment4 (up : HashEthUpstream) {eth eth' : ℕ}
    (htype : netU16 m (up.locateEthertype m eth) = ethernetTypeIp4)
    (htype' : netU16 m' (up.locateEthertype m' eth') = ethernetTypeIp4)
    (hver : version m (up.locateEthertype m eth + 2) = 4)
    (hver' : version m' (up.locateEthertype m' eth' + 2) = 4)
    (h : TunnelFragments m (up.locateEthertype m eth + 2) m' (up.locateEthertype m' eth' + 2)) :
    hashEthL34InnerInline up m eth = hashEthL34InnerInline up m' eth' := by
  have htu := h.not_tcpUdp.1
  rw [hashEth_tunnelFragment up htype hver h.fragment htu,
    hashEth_tunnelFragment up htype' hver' h.fragment' (h.protocol ▸ htu)]
  unfold hashEthIp4
  rw [loadU64_congr (bytesAt_eq_iff.1 h.addresses)]

/-- The LAG hash of an untagged IPv6 frame with a Fragment header mixes its addresses alone. -/
theorem hashEth_ip6Fragment (up : HashEthUpstream) (hup : up.SkipsVlanTags) {eth : ℕ}
    (htags : VlanTags m eth 0) (htype : netU16 m (eth + 12) = ethernetTypeIp6)
    (hver : version m (eth + 14) = 6)
    (hnext : ip6Protocol m (eth + 14) = protocolIpv6Fragmentation) :
    hashEthL34InnerInline up m eth = hashEthIp6 up m (eth + 14) 0 := by
  have h64 : (6 : BitVec 4) ≠ 4 := by decide
  have hres : ∀ a r, ipInnerResolve m protocolIpv6Fragmentation a r = none := by
    intro a r
    rfl
  have htu : isTcpUdp protocolIpv6Fragmentation = false := by decide
  have hhop : protocolIpv6Fragmentation ≠ protocolIp6HopByHopOptions := by decide
  have hp : up.locateEthertype m eth = eth + 12 := hup m eth 0 htags
  simp only [hashEthL34InnerInline, hp, hashEthInner, hashEthOuter, htype, hver,
    hashEthOuterPorts6, ethernetHeaderSize, hnext, hres, htu, hhop, h64, if_false, if_true,
    ne_eq, not_true_eq_false, and_false, Bool.false_eq_true]

/-- **Two IPv6 fragments**, on the LAG surface. -/
theorem hashEth_fragment6 (up : HashEthUpstream) (hup : up.SkipsVlanTags) {eth eth' : ℕ}
    (htags : VlanTags m eth 0) (htags' : VlanTags m' eth' 0)
    (htype : netU16 m (eth + 12) = ethernetTypeIp6)
    (htype' : netU16 m' (eth' + 12) = ethernetTypeIp6)
    (hver : version m (eth + 14) = 6) (hver' : version m' (eth' + 14) = 6)
    (hnext : ip6Protocol m (eth + 14) = protocolIpv6Fragmentation)
    (hnext' : ip6Protocol m' (eth' + 14) = protocolIpv6Fragmentation)
    (haddr : bytesAt m (eth + 22) 32 = bytesAt m' (eth' + 22) 32) :
    hashEthL34InnerInline up m eth = hashEthL34InnerInline up m' eth' := by
  rw [hashEth_ip6Fragment up hup htags htype hver hnext,
    hashEth_ip6Fragment up hup htags' htype' hver' hnext']
  obtain ⟨h0, h8, h16, h24⟩ := addressWords_congr haddr
  show up.lbHash (loadU64 m (eth + 22)) (loadU64 m (eth + 22 + 8)) (loadU64 m (eth + 22 + 16))
    (loadU64 m (eth + 22 + 24)) _ = _
  rw [h0, h8, h16, h24]
  rfl

end Ip4

/-! ## All surfaces -/

/-- **Fragments of one datagram hash alike**: on the IP surface with a Fragment header, directly
behind the IPv6 header or behind a hop-by-hop header, on both surfaces as IPv4 fragments of a
tunnel, and on the LAG surface as untagged IPv6 fragments. -/
theorem fragments_hash_alike (tail : FlowHashTail) (htail : tail.ReadsFlowLabel)
    (up : HashEthUpstream) (hup : up.SkipsVlanTags) :
    (∀ (m m' : Mem) (ip ip' q q' : ℕ) (cfg : FlowHashConfig), FragmentAt m ip q →
      FragmentAt m' ip' q' → bytesAt m (ip + 8) 32 = bytesAt m' (ip' + 8) 32 →
      flowLabelBits (loadU32 m ip) = flowLabelBits (loadU32 m' ip') →
      extProtocol m q = extProtocol m' q' →
      ip6ComputeFlowHash tail m ip cfg = ip6ComputeFlowHash tail m' ip' cfg) ∧
    (∀ (m m' : Mem) (ip ip' : ℕ) (cfg : FlowHashConfig), TunnelFragments m ip m' ip' →
      ip4ComputeFlowHash tail m ip cfg = ip4ComputeFlowHash tail m' ip' cfg) ∧
    (∀ (m m' : Mem) (eth eth' : ℕ), netU16 m (up.locateEthertype m eth) = ethernetTypeIp4 →
      netU16 m' (up.locateEthertype m' eth') = ethernetTypeIp4 →
      version m (up.locateEthertype m eth + 2) = 4 →
      version m' (up.locateEthertype m' eth' + 2) = 4 →
      TunnelFragments m (up.locateEthertype m eth + 2) m' (up.locateEthertype m' eth' + 2) →
      hashEthL34InnerInline up m eth = hashEthL34InnerInline up m' eth') ∧
    (∀ (m m' : Mem) (eth eth' : ℕ), VlanTags m eth 0 → VlanTags m' eth' 0 →
      netU16 m (eth + 12) = ethernetTypeIp6 → netU16 m' (eth' + 12) = ethernetTypeIp6 →
      version m (eth + 14) = 6 → version m' (eth' + 14) = 6 →
      ip6Protocol m (eth + 14) = protocolIpv6Fragmentation →
      ip6Protocol m' (eth' + 14) = protocolIpv6Fragmentation →
      bytesAt m (eth + 22) 32 = bytesAt m' (eth' + 22) 32 →
      hashEthL34InnerInline up m eth = hashEthL34InnerInline up m' eth') :=
  ⟨fun _ _ _ _ _ _ cfg h h' haddr hlabel hproto =>
      ip6ComputeFlowHash_fragment htail h h' haddr hlabel hproto cfg,
    fun _ _ _ _ cfg h => ip4ComputeFlowHash_fragment tail h cfg,
    fun _ _ _ _ htype htype' hver hver' h => hashEth_fragment4 up htype htype' hver hver' h,
    fun _ _ _ _ htags htags' htype htype' hver hver' hnext hnext' haddr =>
      hashEth_fragment6 up hup htags htags' htype htype' hver hver' hnext hnext' haddr⟩

/-- An untagged frame with an IPv6 fragment of eight equal bytes. -/
def fragmentFrame6 (b : BitVec 8) : Mem :=
  ofList (List.replicate 12 2 ++ [0x86, 0xdd, 0x60, 0, 0, 0, 0, 16, 44, 64] ++ List.replicate 32 1
    ++ [17, 0, 0, 1, 0, 0, 0, 7] ++ List.replicate 8 b)

/-- An untagged frame with an IPv4 fragment of sixteen equal bytes, of a packet in a tunnel. -/
def fragmentFrame4 (b : BitVec 8) : Mem :=
  ofList (List.replicate 12 2 ++ [0x08, 0x00, 0x45, 0, 0, 36, 0, 7, 0x20, 0, 64, 4, 0, 0]
    ++ [10, 0, 0, 1, 10, 0, 0, 2] ++ List.replicate 16 b)

/-- Lines that mix the protocol, the addresses and the flow label. -/
def labelTail : FlowHashTail where
  ip4 _ f := f.a ^^^ f.b ^^^ f.protocol.setWidth 32
  ip6 _ f := (f.a ^^^ f.b).setWidth 32 ^^^ f.protocol.setWidth 32
    ^^^ (f.flowLabel.map flowLabelBits).getD 0

theorem labelTail_readsFlowLabel : labelTail.ReadsFlowLabel := by
  intro cfg f w w' hw
  simp only [labelTail, Option.map_some, Option.getD_some, hw]

/-- Two fragments with other bytes behind the headers, on each surface. -/
theorem fragments_hash_alike_bytes :
    ip6ComputeFlowHash labelTail (fragmentFrame6 1) 14 0x3ff
        = ip6ComputeFlowHash labelTail (fragmentFrame6 2) 14 0x3ff ∧
      ip4ComputeFlowHash labelTail (fragmentFrame4 1) 14 0x3ff
        = ip4ComputeFlowHash labelTail (fragmentFrame4 2) 14 0x3ff ∧
      hashEthL34InnerInline .showPorts (fragmentFrame4 1) 0
        = hashEthL34InnerInline .showPorts (fragmentFrame4 2) 0 ∧
      hashEthL34InnerInline .showPorts (fragmentFrame6 1) 0
        = hashEthL34InnerInline .showPorts (fragmentFrame6 2) 0 := by
  obtain ⟨h6, h4, heth4, heth6⟩ := fragments_hash_alike labelTail labelTail_readsFlowLabel
    .showPorts showPorts_skips
  have hfrag : ∀ b, b = 1 ∨ b = 2 → FragmentAt (fragmentFrame6 b) 14 54 := by
    rintro b (rfl | rfl)
    · exact Or.inl ⟨by decide, rfl, by decide⟩
    · exact Or.inl ⟨by decide, rfl, by decide⟩
  have htunnel : TunnelFragments (fragmentFrame4 1) 14 (fragmentFrame4 2) 14 :=
    ⟨by decide, by decide, by decide, by decide, Or.inl (by decide)⟩
  refine ⟨?_, ?_, ?_, ?_⟩
  · exact h6 _ _ 14 14 54 54 0x3ff (hfrag 1 (Or.inl rfl)) (hfrag 2 (Or.inr rfl)) (by decide)
      (by decide) (by decide)
  · exact h4 _ _ 14 14 0x3ff htunnel
  · exact heth4 _ _ 0 0 (by decide) (by decide) (by decide) (by decide) htunnel
  · have htags : ∀ b, b = 1 ∨ b = 2 → VlanTags (fragmentFrame6 b) 0 0 := by
      rintro b (rfl | rfl)
      · show isVlanType _ = false
        decide
      · show isVlanType _ = false
        decide
    exact heth6 _ _ 0 0 (htags 1 (Or.inl rfl)) (htags 2 (Or.inr rfl)) (by decide) (by decide)
      (by decide) (by decide) (by decide) (by decide) (by decide)

end InnerHash
