/-
# The hashes of a packet at another place

What is hashed of a packet does not depend on where the packet lies in memory: from the bytes at
`ip` on, the resolver finds the same inner header, and the IP surface and the LAG surface mix the
same words.  For the LAG surface, what is mixed is a value of its own, the `Flow`.
-/
import SonicVpp.InnerGrammar
import SonicVpp.FlowHash
import SonicVpp.HashEth

open PacketBytes Ip

namespace InnerHash

/-! ## The resolver -/

section Resolve

variable {m m' : Mem} {a a' : ℕ}

/-- The resolver finds nothing in both, or the same header in both. -/
theorem ipInnerResolve_sameFrom (h : SameFrom m a m' a') (p : BitVec 8) (r : ℕ) :
    ∃ o : Option IpInnerHdr, ipInnerResolve m p a r = o.map (·.at a) ∧
      ipInnerResolve m' p a' r = o.map (·.at a') := by
  have hbytes : bytesAt m a r = bytesAt m' a' r := h.bytesAt r
  by_cases hg : ∃ g, Encapsulated p (bytesAt m a r) g
  · obtain ⟨g, hg⟩ := hg
    refine ⟨some g, ipInnerResolve_eq_some_iff.2 ⟨g, hg, rfl⟩, ?_⟩
    rw [hbytes] at hg
    exact ipInnerResolve_eq_some_iff.2 ⟨g, hg, rfl⟩
  · have hnone : ∀ {n : Mem} {b : ℕ}, bytesAt n b r = bytesAt m a r →
        ipInnerResolve n p b r = none := by
      intro n b hn
      apply Option.eq_none_iff_forall_ne_some.2
      intro x hx
      obtain ⟨g, hderiv, -⟩ := ipInnerResolve_eq_some_iff.1 hx
      rw [hn] at hderiv
      exact hg ⟨g, hderiv⟩
    exact ⟨none, hnone rfl, hnone hbytes.symm⟩

end Resolve

/-! ## The IP surface -/

/-- Two headers that are hashed alike: the same words, and the same bytes where the ports are. -/
structure SameHeader {w : ℕ} (m : Mem) (x : HashedHeader w) (m' : Mem) (x' : HashedHeader w) :
    Prop where
  src : x.src = x'.src
  dst : x.dst = x'.dst
  protocol : x.protocol = x'.protocol
  isTcpUdp : x.isTcpUdp = x'.isTcpUdp
  isUdp : x.isUdp = x'.isUdp
  tcp : SameFrom m x.tcp m' x'.tcp
  udp : SameFrom m x.udp m' x'.udp

section Surface

variable {m m' : Mem} {ip ip' : ℕ}

theorem SameHeader.hashFields {w : ℕ} {x x' : HashedHeader w} (h : SameHeader m x m' x')
    (cfg : FlowHashConfig) (fl : Option (BitVec 32)) :
    hashFields m cfg fl x = hashFields m' cfg fl x' := by
  have hteid : loadU32 m (x.udp + 8 + 4) = loadU32 m' (x'.udp + 8 + 4) :=
    ((h.udp.add 8).add 4).loadU32
  simp only [InnerHash.hashFields, hashPort, hashTeid, h.src, h.dst, h.protocol, h.isTcpUdp,
    h.isUdp, h.tcp.loadU16, (h.tcp.add 2).loadU16, (h.udp.add 2).netU16, hteid]

theorem ip6AddrFoldU32_sameFrom (h : SameFrom m ip m' ip') :
    ip6AddrFoldU32 m ip = ip6AddrFoldU32 m' ip' := by
  simp only [ip6AddrFoldU32, h.loadU32, (h.add 4).loadU32, (h.add 8).loadU32, (h.add 12).loadU32]

theorem ip6AddrFoldU64_sameFrom (h : SameFrom m ip m' ip') :
    ip6AddrFoldU64 m ip = ip6AddrFoldU64 m' ip' := by
  simp only [ip6AddrFoldU64, h.loadU64, (h.add 8).loadU64]

/-- The bytes `n` behind the start of a part of the packet. -/
theorem sameFrom_at (h : SameFrom m ip m' ip') (n k : ℕ) :
    SameFrom m (ip + n + k) m' (ip' + n + k) := (h.add n).add k

/-- An IPv4 hash takes the same inner header. -/
theorem ip4InnerHeader_sameFrom (h : SameFrom m ip m' ip') (g : IpInnerHdr) :
    SameHeader m (ip4InnerHeader m (g.at ip)) m' (ip4InnerHeader m' (g.at ip')) := by
  refine ⟨?_, ?_, rfl, rfl, rfl, h.add g.l4, h.add g.l4⟩
  · simp only [ip4InnerHeader, IpInnerHdr.at, ip6AddrFoldU32_sameFrom (sameFrom_at h g.ip 8),
      (sameFrom_at h g.ip 12).loadU32]
    rfl
  · simp only [ip4InnerHeader, IpInnerHdr.at, ip6AddrFoldU32_sameFrom (sameFrom_at h g.ip 24),
      (sameFrom_at h g.ip 16).loadU32]
    rfl

/-- An IPv6 hash takes the same inner header. -/
theorem ip6InnerHeader_sameFrom (h : SameFrom m ip m' ip') (g : IpInnerHdr) :
    SameHeader m (ip6InnerHeader m (g.at ip)) m' (ip6InnerHeader m' (g.at ip')) := by
  refine ⟨?_, ?_, rfl, rfl, rfl, h.add g.l4, h.add g.l4⟩
  · simp only [ip6InnerHeader, IpInnerHdr.at, ip6AddrFoldU64_sameFrom (sameFrom_at h g.ip 8),
      (sameFrom_at h g.ip 12).loadU32]
    rfl
  · simp only [ip6InnerHeader, IpInnerHdr.at, ip6AddrFoldU64_sameFrom (sameFrom_at h g.ip 24),
      (sameFrom_at h g.ip 16).loadU32]
    rfl

/-- The peek of an IPv4 packet finds the same inner header, counted from where its payload is. -/
theorem ip4Peek_sameFrom (h : SameFrom m ip m' ip') :
    ∃ (o : Option IpInnerHdr) (n : ℕ), ip4Peek m ip = o.map (·.at (ip + n)) ∧
      ip4Peek m' ip' = o.map (·.at (ip' + n)) := by
  obtain ⟨-, hbytes, hlen, hfrag, hproto⟩ := ip4_sameFrom h
  obtain ⟨o, ho, ho'⟩ := ipInnerResolve_sameFrom (h.add (ip4HeaderBytes m' ip'))
    (ip4Protocol m' ip') (ip4Length m' ip' - ip4HeaderBytes m' ip')
  unfold ip4Peek
  rw [hbytes, hlen, hfrag, hproto, ho, ho']
  split_ifs
  · exact ⟨none, 0, rfl, rfl⟩
  · exact ⟨o, ip4HeaderBytes m' ip', rfl, rfl⟩
  · exact ⟨none, 0, rfl, rfl⟩

/-- **`ip4_compute_flow_hash` does not depend on where the packet lies.** -/
theorem ip4ComputeFlowHash_sameFrom (h : SameFrom m ip m' ip') (tail : FlowHashTail)
    (cfg : FlowHashConfig) : ip4ComputeFlowHash tail m ip cfg = ip4ComputeFlowHash tail m' ip' cfg := by
  have houter : SameHeader m (ip4OuterHeader m ip) m' (ip4OuterHeader m' ip') := by
    have hproto : ip4Protocol m ip = ip4Protocol m' ip' := h 9
    refine ⟨(h.add 12).loadU32, (h.add 16).loadU32, hproto, ?_, ?_, h.add 20, h.add 20⟩
    · simp only [ip4OuterHeader, hproto]
    · simp only [ip4OuterHeader, hproto]
  obtain ⟨o, n, ho, ho'⟩ := ip4Peek_sameFrom h
  unfold ip4ComputeFlowHash ip4HashFields ip4Inner
  rw [ho, ho']
  congr 1
  by_cases hpeek : cfg.peekInner = true
  · rw [if_pos hpeek, if_pos hpeek]
    cases o with
    | none => exact houter.hashFields cfg none
    | some g => exact (ip4InnerHeader_sameFrom (h.add n) g).hashFields cfg none
  · rw [if_neg hpeek, if_neg hpeek]
    exact houter.hashFields cfg none

/-- The walk of an IPv6 packet comes to the same header. -/
theorem ip6WalkHopByHop_sameFrom (h : SameFrom m ip m' ip') :
    ∃ protocol n walked, ip6WalkHopByHop m ip = (protocol, ip + n, walked) ∧
      ip6WalkHopByHop m' ip' = (protocol, ip' + n, walked) := by
  obtain ⟨hlen, hproto⟩ := ip6_sameFrom h
  obtain ⟨hnext, hbytes⟩ := ext_sameFrom (h.add ip6HeaderSize)
  simp only [ip6WalkHopByHop, hlen, hproto, hnext, hbytes]
  split_ifs
  · refine ⟨extProtocol m' (ip' + ip6HeaderSize),
      ip6HeaderSize + extBytes m' (ip' + ip6HeaderSize), extBytes m' (ip' + ip6HeaderSize), ?_, ?_⟩
    · rw [← Nat.add_assoc]
    · rw [← Nat.add_assoc]
  · exact ⟨_, _, _, rfl, rfl⟩
  · exact ⟨_, _, _, rfl, rfl⟩

/-- An IPv6 hash takes the same outer header. -/
theorem ip6OuterHeader_sameFrom (h : SameFrom m ip m' ip') :
    SameHeader m (ip6OuterHeader m ip) m' (ip6OuterHeader m' ip') := by
  obtain ⟨hlen, hproto⟩ := ip6_sameFrom h
  have hsrc : ip6AddrFoldU64 m (ip + 8) = ip6AddrFoldU64 m' (ip' + 8) :=
    ip6AddrFoldU64_sameFrom (h.add 8)
  have hdst : ip6AddrFoldU64 m (ip + 24) = ip6AddrFoldU64 m' (ip' + 24) :=
    ip6AddrFoldU64_sameFrom (h.add 24)
  have hports : ∀ p u n, SameHeader m (ip6Ports m ip p u (ip + n)) m' (ip6Ports m' ip' p u (ip' + n)) :=
    fun p u n => ⟨hsrc, hdst, rfl, rfl, rfl, h.add n, h.add 40⟩
  have hnoPorts : ∀ p, SameHeader m (ip6NoPorts m ip p) m' (ip6NoPorts m' ip' p) :=
    fun p => ⟨hsrc, hdst, rfl, rfl, rfl, h.add 40, h.add 40⟩
  obtain ⟨protocol, n, walked, hwalk, hwalk'⟩ := ip6WalkHopByHop_sameFrom h
  obtain ⟨hnext, -⟩ := ext_sameFrom (h.add n)
  simp only [ip6OuterHeader, ip6Direct, hwalk, hwalk', hlen, hproto, hnext]
  split_ifs
  · exact hports _ _ _
  · exact hnoPorts _
  · exact hnoPorts _
  · exact hports _ _ _
  · exact hnoPorts _

/-- The peek of an IPv6 packet finds the same inner header. -/
theorem ip6Peek_sameFrom (h : SameFrom m ip m' ip') :
    ∃ (o : Option IpInnerHdr) (n : ℕ), ip6Peek m ip = o.map (·.at (ip + n)) ∧
      ip6Peek m' ip' = o.map (·.at (ip' + n)) := by
  obtain ⟨hlen, hproto⟩ := ip6_sameFrom h
  obtain ⟨protocol, n, walked, hwalk, hwalk'⟩ := ip6WalkHopByHop_sameFrom h
  obtain ⟨o, ho, ho'⟩ := ipInnerResolve_sameFrom (h.add n) protocol
    (ip6PayloadLength m' ip' - walked)
  simp only [ip6Peek, hwalk, hwalk', hlen, hproto, ho, ho']
  split_ifs
  · exact ⟨none, 0, rfl, rfl⟩
  · exact ⟨o, n, rfl, rfl⟩
  · exact ⟨none, 0, rfl, rfl⟩

/-- **`ip6_compute_flow_hash` does not depend on where the packet lies.** -/
theorem ip6ComputeFlowHash_sameFrom (h : SameFrom m ip m' ip') (tail : FlowHashTail)
    (cfg : FlowHashConfig) : ip6ComputeFlowHash tail m ip cfg = ip6ComputeFlowHash tail m' ip' cfg := by
  have houter := ip6OuterHeader_sameFrom h
  have hlabel : ip6FlowLabel m ip cfg = ip6FlowLabel m' ip' cfg := by
    simp only [ip6FlowLabel, h.loadU32]
  obtain ⟨o, n, ho, ho'⟩ := ip6Peek_sameFrom h
  unfold ip6ComputeFlowHash ip6HashFields ip6Inner
  rw [ho, ho', hlabel]
  congr 1
  by_cases hpeek : cfg.peekInner = true
  · rw [if_pos hpeek, if_pos hpeek]
    cases o with
    | none => exact houter.hashFields cfg _
    | some g => exact (ip6InnerHeader_sameFrom (h.add n) g).hashFields cfg _
  · rw [if_neg hpeek, if_neg hpeek]
    exact houter.hashFields cfg _

end Surface

/-! ## The LAG surface -/

/-- What the LAG hash mixes of an IPv4 or an IPv6 packet: the address words and the ports. -/
inductive Flow
  | ip4 (addresses : BitVec 64) (ports : BitVec 32)
  | ip6 (a b c d : BitVec 64) (ports : BitVec 32)
  deriving DecidableEq

/-- The LAG hash of a flow. -/
def Flow.hash (up : HashEthUpstream) : Flow → BitVec 32
  | .ip4 addresses ports => up.lbHash2Tuples addresses ports
  | .ip6 a b c d ports => up.lbHash a b c d (ports.setWidth 64)

/-- The flow of a packet of either family, with the ports given. -/
def flowOf (v : Bool) (m : Mem) (ip : ℕ) (ports : BitVec 32) : Flow :=
  if v then .ip6 (loadU64 m (ip + 8)) (loadU64 m (ip + 16)) (loadU64 m (ip + 24))
    (loadU64 m (ip + 32)) ports
  else .ip4 (loadU64 m (ip + 12)) ports

/-- The flow of a tunneled packet. -/
def innerFlow (m : Mem) (h : IpInnerHdr) : Flow :=
  flowOf h.isV6 m h.ip (hashEthPorts m h.protocol h.l4)

/-- The flow of the IPv4 packet at `ip`, or of the packet that it tunnels. -/
def ip4Flow (m : Mem) (ip : ℕ) : Flow :=
  ((ip4Peek m ip).map (innerFlow m)).getD
    (flowOf false m ip (hashEthPorts m (ip4Protocol m ip) (ip + ip4HeaderSize)))

/-- The flow of the IPv6 packet at `ip`, or of the packet that it tunnels. -/
def ip6Flow (m : Mem) (ip : ℕ) : Flow :=
  ((ipInnerResolve m (ip6Protocol m ip) (ip + ip6HeaderSize) (ip6PayloadLength m ip)).map
    (innerFlow m)).getD (flowOf true m ip (hashEthOuterPorts6 m ip))

section Flow

variable {m m' : Mem} {ip ip' : ℕ}

theorem hashEthPorts_sameFrom (h : SameFrom m ip m' ip') (protocol : BitVec 8) :
    hashEthPorts m protocol ip = hashEthPorts m' protocol ip' := by
  simp only [hashEthPorts, h.loadU16, (h.add 2).loadU16]

theorem flowOf_sameFrom (h : SameFrom m ip m' ip') (v : Bool) (ports : BitVec 32) :
    flowOf v m ip ports = flowOf v m' ip' ports := by
  simp only [flowOf, (h.add 8).loadU64, (h.add 12).loadU64, (h.add 16).loadU64,
    (h.add 24).loadU64, (h.add 32).loadU64]

theorem innerFlow_sameFrom (h : SameFrom m ip m' ip') (g : IpInnerHdr) :
    innerFlow m (g.at ip) = innerFlow m' (g.at ip') := by
  simp only [innerFlow, IpInnerHdr.at, hashEthPorts_sameFrom (h.add g.l4)]
  exact flowOf_sameFrom (h.add g.ip) ..

/-- The flow of an IPv4 packet does not depend on where it lies. -/
theorem ip4Flow_sameFrom (h : SameFrom m ip m' ip') : ip4Flow m ip = ip4Flow m' ip' := by
  obtain ⟨o, n, ho, ho'⟩ := ip4Peek_sameFrom h
  unfold ip4Flow
  rw [ho, ho']
  cases o with
  | none =>
    have hproto : ip4Protocol m ip = ip4Protocol m' ip' := h 9
    show flowOf false m ip _ = flowOf false m' ip' _
    rw [hproto, hashEthPorts_sameFrom (h.add ip4HeaderSize), flowOf_sameFrom h]
  | some g => exact innerFlow_sameFrom (h.add n) g

theorem hashEthOuterPorts6_sameFrom (h : SameFrom m ip m' ip') :
    hashEthOuterPorts6 m ip = hashEthOuterPorts6 m' ip' := by
  obtain ⟨-, hproto⟩ := ip6_sameFrom h
  obtain ⟨hnext, hbytes⟩ := ext_sameFrom (h.add ip6HeaderSize)
  simp only [hashEthOuterPorts6, hproto, hnext, hbytes,
    hashEthPorts_sameFrom (h.add ip6HeaderSize),
    hashEthPorts_sameFrom (sameFrom_at h ip6HeaderSize (extBytes m' (ip' + ip6HeaderSize)))]

/-- The flow of an IPv6 packet does not depend on where it lies. -/
theorem ip6Flow_sameFrom (h : SameFrom m ip m' ip') : ip6Flow m ip = ip6Flow m' ip' := by
  obtain ⟨hlen, hproto⟩ := ip6_sameFrom h
  obtain ⟨o, ho, ho'⟩ := ipInnerResolve_sameFrom (h.add ip6HeaderSize) (ip6Protocol m' ip')
    (ip6PayloadLength m' ip')
  unfold ip6Flow
  rw [hlen, hproto, ho, ho']
  cases o with
  | none =>
    show flowOf true m ip _ = flowOf true m' ip' _
    rw [hashEthOuterPorts6_sameFrom h, flowOf_sameFrom h]
  | some g => exact innerFlow_sameFrom (h.add ip6HeaderSize) g

end Flow

/-! ### The LAG hash is the hash of a flow -/

section Hash

variable (up : HashEthUpstream) {m : Mem} {eth : ℕ}

theorem hash_innerFlow (h : IpInnerHdr) : (innerFlow m h).hash up = hashEthInnerLbHash up m h := by
  unfold innerFlow flowOf hashEthInnerLbHash
  cases h.isV6 with
  | false => rfl
  | true => rfl

theorem ethertype_ip {t : BitVec 16} {v : Bool} (ht : t = etherType v) :
    ¬ (t ≠ ethernetTypeIp4 ∧ t ≠ ethernetTypeIp6) := by
  subst ht
  cases v <;> decide

/-- The hash of an IPv4 packet. -/
theorem hashEth_ip4Flow {v : Bool} (htype : netU16 m (up.locateEthertype m eth) = etherType v)
    (hver : version m (up.locateEthertype m eth + 2) = 4) :
    hashEthL34InnerInline up m eth = (ip4Flow m (up.locateEthertype m eth + 2)).hash up := by
  have hinner : hashEthInner m eth (up.locateEthertype m eth)
      = ip4Peek m (up.locateEthertype m eth + 2) := by
    simp only [hashEthInner, if_neg (ethertype_ip htype), hver, if_true]
    rfl
  unfold hashEthL34InnerInline ip4Flow
  simp only [hinner]
  cases ip4Peek m (up.locateEthertype m eth + 2) with
  | none =>
    simp only [hashEthOuter, if_neg (ethertype_ip htype), hver, if_true]
    rfl
  | some h => exact (hash_innerFlow up h).symm

/-- The hash of an IPv6 packet, whose header is taken behind 14 bytes. -/
theorem hashEth_ip6Flow {v : Bool} (htype : netU16 m (up.locateEthertype m eth) = etherType v)
    (hver : version m (up.locateEthertype m eth + 2) = 6) :
    hashEthL34InnerInline up m eth = (ip6Flow m (eth + ethernetHeaderSize)).hash up := by
  have h64 : (6 : BitVec 4) ≠ 4 := by decide
  have hinner : hashEthInner m eth (up.locateEthertype m eth)
      = ipInnerResolve m (ip6Protocol m (eth + ethernetHeaderSize))
        (eth + ethernetHeaderSize + ip6HeaderSize)
        (ip6PayloadLength m (eth + ethernetHeaderSize)) := by
    simp only [hashEthInner, if_neg (ethertype_ip htype), hver, if_neg h64, if_true]
  unfold hashEthL34InnerInline ip6Flow
  simp only [hinner]
  cases ipInnerResolve m (ip6Protocol m (eth + ethernetHeaderSize))
    (eth + ethernetHeaderSize + ip6HeaderSize) (ip6PayloadLength m (eth + ethernetHeaderSize)) with
  | none =>
    simp only [hashEthOuter, if_neg (ethertype_ip htype), hver, if_neg h64, if_true]
    rfl
  | some h => exact (hash_innerFlow up h).symm

end Hash

end InnerHash
