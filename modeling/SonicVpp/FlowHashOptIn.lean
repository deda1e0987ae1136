/-
# Without the peek

With `IP_FLOW_HASH_PEEK_INNER` clear the IPv4 flow hash is the one before the patch.
The IPv6 one is not: the patch also bounded the walk over the outer extension headers
by the payload length and recomputes `is_udp` behind a hop-by-hop header.
`flowHash_unpeeked_iff` says on which packets that shows.
-/
import SonicVpp.FlowHash

open PacketBytes Ip

namespace InnerHash

/-! ## Where the IPv6 walks part -/

/-- A hop-by-hop header longer than the payload.  The walk before the patch passed
it; what it found behind it shows if the protocol is selected and not zero, or if it
is TCP or UDP with a selected port that is not zero. -/
def HopByHopOverrun (m : Mem) (ip : ℕ) (cfg : FlowHashConfig) : Prop :=
  ip6Protocol m ip = protocolIp6HopByHopOptions ∧ ip6PayloadLength m ip < extBytes m (ip + 40) ∧
    ((cfg.proto = true ∧
        (if extProtocol m (ip + 40) = protocolIpv6Fragmentation
          then extProtocol m (ip + 40 + extBytes m (ip + 40))
          else extProtocol m (ip + 40)) ≠ 0) ∨
      (isTcpUdp (extProtocol m (ip + 40)) = true ∧
        ((cfg.srcPort = true ∧ loadU16 m (ip + 40 + extBytes m (ip + 40)) ≠ 0) ∨
          (cfg.dstPort = true ∧ loadU16 m (ip + 40 + extBytes m (ip + 40) + 2) ≠ 0))))

/-- A Fragment header, first or behind a hop-by-hop header, that the payload length
does not cover, with the protocol selected and a next header that is not Fragment
again. -/
def FragmentOverrun (m : Mem) (ip : ℕ) (cfg : FlowHashConfig) : Prop :=
  cfg.proto = true ∧
    ((ip6Protocol m ip = protocolIpv6Fragmentation ∧ ip6PayloadLength m ip < 8 ∧
        extProtocol m (ip + 40) ≠ protocolIpv6Fragmentation) ∨
      (ip6Protocol m ip = protocolIp6HopByHopOptions ∧
        extBytes m (ip + 40) ≤ ip6PayloadLength m ip ∧
        extProtocol m (ip + 40) = protocolIpv6Fragmentation ∧
        ip6PayloadLength m ip < extBytes m (ip + 40) + 8 ∧
        extProtocol m (ip + 40 + extBytes m (ip + 40)) ≠ protocolIpv6Fragmentation))

/-- UDP behind a hop-by-hop header, with the TEID selected and the port 2152 at the
place where a UDP header without it would have its destination port. -/
def HopByHopTeid (m : Mem) (ip : ℕ) (cfg : FlowHashConfig) : Prop :=
  ip6Protocol m ip = protocolIp6HopByHopOptions ∧ extBytes m (ip + 40) ≤ ip6PayloadLength m ip ∧
    extProtocol m (ip + 40) = protocolUdp ∧ cfg.gtpv1Teid = true ∧ netU16 m (ip + 40 + 2) = 2152

/-- A packet on which the IPv6 hash without the peek is not that before the patch. -/
def Ip6WalkDiffers (m : Mem) (ip : ℕ) (cfg : FlowHashConfig) : Prop :=
  HopByHopOverrun m ip cfg ∨ FragmentOverrun m ip cfg ∨ HopByHopTeid m ip cfg

/-- The IPv4 hash is the one before the patch, whatever the unshown lines do. -/
def Ip4Unchanged (m : Mem) (ip : ℕ) (cfg : FlowHashConfig) : Prop :=
  ∀ tail, ip4ComputeFlowHash tail m ip cfg = ip4ComputeFlowHashUpstream tail m ip cfg

/-- The IPv6 hash is the one before the patch, whatever the unshown lines do. -/
def Ip6Unchanged (m : Mem) (ip : ℕ) (cfg : FlowHashConfig) : Prop :=
  ∀ tail, ip6ComputeFlowHash tail m ip cfg = ip6ComputeFlowHashUpstream tail m ip cfg

/-! ## Comparing what is mixed -/

/-- Two inputs hash alike whatever the unshown lines do iff they are equal. -/
theorem tail_ip6_eq_iff {cfg : FlowHashConfig} {f f' : HashFields 64} :
    (∀ tail : FlowHashTail, tail.ip6 cfg f = tail.ip6 cfg f') ↔ f = f' := by
  constructor
  · intro h
    by_contra hne
    have := h ⟨fun _ _ => 0, fun _ g => if g = f then 1 else 0⟩
    simp [Ne.symm hne] at this
  · rintro rfl tail
    rfl

theorem tail_ip4_eq_iff {cfg : FlowHashConfig} {f f' : HashFields 32} :
    (∀ tail : FlowHashTail, tail.ip4 cfg f = tail.ip4 cfg f') ↔ f = f' := by
  constructor
  · intro h
    by_contra hne
    have := h ⟨fun _ g => if g = f then 1 else 0, fun _ _ => 0⟩
    simp [Ne.symm hne] at this
  · rintro rfl tail
    rfl

variable {m : Mem} {ip : ℕ} {cfg : FlowHashConfig} {fl : Option (BitVec 32)}

/-- Headers with the same addresses mix alike iff ports, protocol and TEID do. -/
theorem hashFields_eq_iff {w : ℕ} {x y : HashedHeader w} (hsrc : x.src = y.src)
    (hdst : x.dst = y.dst) :
    hashFields m cfg fl x = hashFields m cfg fl y ↔
      hashPort m x.isTcpUdp cfg.srcPort x.tcp = hashPort m y.isTcpUdp cfg.srcPort y.tcp ∧
      hashPort m x.isTcpUdp cfg.dstPort (x.tcp + 2)
        = hashPort m y.isTcpUdp cfg.dstPort (y.tcp + 2) ∧
      (cfg.proto = true → x.protocol = y.protocol) ∧
      hashTeid m cfg x.isUdp x.udp = hashTeid m cfg y.isUdp y.udp := by
  simp only [hashFields, hsrc, hdst, HashFields.mk.injEq, true_and, and_true]
  cases cfg.proto <;> simp

/-- Two headers without ports mix alike iff a selected protocol is the same. -/
theorem ip6NoPorts_eq_iff {p q : BitVec 8} :
    hashFields m cfg fl (ip6NoPorts m ip p) = hashFields m cfg fl (ip6NoPorts m ip q) ↔
      (cfg.proto = true → p = q) := by
  rw [hashFields_eq_iff (by rfl) (by rfl)]
  simp [ip6NoPorts]

/-- A header without ports against one with ports, neither UDP. -/
theorem ip6NoPorts_eq_ports_iff {p q : BitVec 8} {cur : ℕ} :
    hashFields m cfg fl (ip6NoPorts m ip q) = hashFields m cfg fl (ip6Ports m ip p false cur) ↔
      (cfg.proto = true → q = p) ∧ (cfg.srcPort = true → loadU16 m cur = 0) ∧
        (cfg.dstPort = true → loadU16 m (cur + 2) = 0) := by
  rw [hashFields_eq_iff (by rfl) (by rfl)]
  have hport : ∀ sel i, hashPort m false sel (ip + ip6HeaderSize + i) = hashPort m true sel (cur + i)
      ↔ (sel = true → loadU16 m (cur + i) = 0) := by
    intro sel i
    cases sel <;> simp [hashPort, eq_comm]
  have hsrc := hport cfg.srcPort 0
  have hdst := hport cfg.dstPort 2
  simp only [Nat.add_zero] at hsrc
  simp only [ip6NoPorts, ip6Ports, hsrc, hdst, and_true]
  tauto

/-- Recomputing `is_udp` shows through the TEID alone. -/
theorem ip6Ports_udp_iff {p : BitVec 8} {cur : ℕ} :
    hashFields m cfg fl (ip6Ports m ip p (p = protocolUdp) cur)
        = hashFields m cfg fl (ip6Ports m ip p false cur) ↔
      ¬ (p = protocolUdp ∧ cfg.gtpv1Teid = true ∧ netU16 m (ip + 40 + 2) = 2152) := by
  rw [hashFields_eq_iff (by rfl) (by rfl)]
  by_cases hp : p = protocolUdp
  · cases hg : cfg.gtpv1Teid with
    | false => simp [ip6Ports, hashTeid, hg]
    | true => simp [ip6Ports, hashTeid, hp, hg, ip6HeaderSize]
  · simp [ip6Ports, hp]

/-! ## The two walks -/

/-- A hop-by-hop header the payload covers is passed. -/
theorem ip6WalkHopByHop_covered (hp : ip6Protocol m ip = protocolIp6HopByHopOptions)
    (hlen : extBytes m (ip + 40) ≤ ip6PayloadLength m ip) :
    ip6WalkHopByHop m ip
      = (extProtocol m (ip + 40), ip + 40 + extBytes m (ip + 40), extBytes m (ip + 40)) := by
  have h2 : 2 ≤ ip6PayloadLength m ip := by
    have : 8 ≤ extBytes m (ip + 40) := by simp only [extBytes]; omega
    omega
  simp [ip6WalkHopByHop, hp, h2, hlen, ip6HeaderSize]

/-- Without a hop-by-hop header, or with one that the payload does not cover, the
walk stays behind the IPv6 header. -/
theorem ip6WalkHopByHop_stays (hstay : ip6Protocol m ip = protocolIp6HopByHopOptions →
    ip6PayloadLength m ip < extBytes m (ip + 40)) :
    ip6WalkHopByHop m ip = (ip6Protocol m ip, ip + 40, 0) := by
  by_cases hp : ip6Protocol m ip = protocolIp6HopByHopOptions
  · simp [ip6WalkHopByHop, hp, Nat.not_le.2 (hstay hp), ip6HeaderSize]
  · simp [ip6WalkHopByHop, hp, ip6HeaderSize]

theorem udp_of_not_isTcpUdp {p : BitVec 8} (h : isTcpUdp p = false) : p ≠ protocolUdp := by
  rintro rfl
  revert h
  decide

/-- The headers taken before and after the patch, behind a covered hop-by-hop header. -/
theorem ip6Header_covered (hp : ip6Protocol m ip = protocolIp6HopByHopOptions)
    (hlen : extBytes m (ip + 40) ≤ ip6PayloadLength m ip) :
    hashFields m cfg fl (ip6OuterHeader m ip) = hashFields m cfg fl (ip6UpstreamHeader m ip) ↔
      ¬ (FragmentOverrun m ip cfg ∨ HopByHopTeid m ip cfg) := by
  have hdir : isTcpUdp (ip6Protocol m ip) = false := by rw [hp]; decide
  have hne : ip6Protocol m ip ≠ protocolIpv6Fragmentation := by rw [hp]; decide
  have hudp : decide (ip6Protocol m ip = protocolUdp) = false := by rw [hp]; decide
  simp only [ip6OuterHeader, ip6UpstreamHeader, hdir, hudp, ip6WalkHopByHop_covered hp hlen,
    if_pos hp, Bool.false_eq_true, if_false, ip6HeaderSize, ip6FragmentHeaderSize]
  unfold FragmentOverrun HopByHopTeid
  by_cases hfrag : extProtocol m (ip + 40) = protocolIpv6Fragmentation
  · have hnu : extProtocol m (ip + 40) ≠ protocolUdp := by rw [hfrag]; decide
    rw [if_pos hfrag, if_pos hfrag]
    by_cases hcov : extBytes m (ip + 40) + 8 ≤ ip6PayloadLength m ip
    · rw [if_pos hcov]
      simp [hne, hnu, Nat.not_lt.2 hcov]
    · rw [if_neg hcov, ip6NoPorts_eq_iff, hfrag]
      have hcov' := Nat.lt_of_not_le hcov
      tauto
  · rw [if_neg hfrag, if_neg hfrag]
    cases htu : isTcpUdp (extProtocol m (ip + 40)) with
    | true =>
      rw [if_pos rfl, if_pos rfl, ip6Ports_udp_iff]
      tauto
    | false =>
      have hnu := udp_of_not_isTcpUdp htu
      simp [hne, hfrag, hnu]

/-- Behind a hop-by-hop header that the payload does not cover. -/
theorem ip6Header_overrun (hp : ip6Protocol m ip = protocolIp6HopByHopOptions)
    (hlen : ip6PayloadLength m ip < extBytes m (ip + 40)) :
    hashFields m cfg fl (ip6OuterHeader m ip) = hashFields m cfg fl (ip6UpstreamHeader m ip) ↔
      ¬ HopByHopOverrun m ip cfg := by
  have hdir : isTcpUdp (ip6Protocol m ip) = false := by rw [hp]; decide
  have hne : ip6Protocol m ip ≠ protocolIpv6Fragmentation := by rw [hp]; decide
  have hudp : decide (ip6Protocol m ip = protocolUdp) = false := by rw [hp]; decide
  have hzero : ip6Protocol m ip = 0 := hp
  simp only [ip6OuterHeader, ip6UpstreamHeader, hdir, hudp, ip6WalkHopByHop_stays (fun _ => hlen),
    if_pos hp, Bool.false_eq_true, if_false, ip6HeaderSize, hne]
  unfold HopByHopOverrun
  by_cases hfrag : extProtocol m (ip + 40) = protocolIpv6Fragmentation
  · have htu : isTcpUdp (extProtocol m (ip + 40)) = false := by rw [hfrag]; decide
    rw [if_pos hfrag, ip6NoPorts_eq_iff, if_pos hfrag, hzero]
    simp only [htu, Bool.false_eq_true, false_and, or_false, hlen, true_and]
    tauto
  · rw [if_neg hfrag, if_neg hfrag]
    cases htu : isTcpUdp (extProtocol m (ip + 40)) with
    | true =>
      rw [if_pos rfl, ip6NoPorts_eq_ports_iff, hzero]
      simp only [hlen, true_and]
      tauto
    | false =>
      rw [if_neg Bool.false_ne_true, ip6NoPorts_eq_iff, hzero]
      simp only [Bool.false_eq_true, false_and, or_false, hlen, true_and]
      tauto

/-- Without a hop-by-hop header. -/
theorem ip6Header_plain (hp : ip6Protocol m ip ≠ protocolIp6HopByHopOptions) :
    hashFields m cfg fl (ip6OuterHeader m ip) = hashFields m cfg fl (ip6UpstreamHeader m ip) ↔
      ¬ FragmentOverrun m ip cfg := by
  unfold FragmentOverrun
  cases hdir : isTcpUdp (ip6Protocol m ip) with
  | true =>
    have hne : ip6Protocol m ip ≠ protocolIpv6Fragmentation := by
      intro h
      rw [h] at hdir
      revert hdir
      decide
    simp [ip6OuterHeader, ip6UpstreamHeader, hdir, hne, hp]
  | false =>
    simp only [ip6OuterHeader, ip6UpstreamHeader, hdir, Bool.false_eq_true, if_false,
      ip6WalkHopByHop_stays (fun h => absurd h hp), if_neg hp, ip6HeaderSize,
      ip6FragmentHeaderSize, Nat.zero_add]
    by_cases hfrag : ip6Protocol m ip = protocolIpv6Fragmentation
    · rw [if_pos hfrag, if_pos hfrag]
      by_cases hcov : 8 ≤ ip6PayloadLength m ip
      · rw [if_pos hcov]
        simp [hp, Nat.not_lt.2 hcov]
      · rw [if_neg hcov, ip6NoPorts_eq_iff, hfrag]
        have hcov' := Nat.lt_of_not_le hcov
        tauto
    · simp [hfrag, hp]

/-- The two IPv6 headers mix alike exactly off the differing packets. -/
theorem ip6Header_eq_iff :
    hashFields m cfg fl (ip6OuterHeader m ip) = hashFields m cfg fl (ip6UpstreamHeader m ip) ↔
      ¬ Ip6WalkDiffers m ip cfg := by
  unfold Ip6WalkDiffers
  by_cases hp : ip6Protocol m ip = protocolIp6HopByHopOptions
  · by_cases hlen : extBytes m (ip + 40) ≤ ip6PayloadLength m ip
    · rw [ip6Header_covered hp hlen]
      have : ¬ HopByHopOverrun m ip cfg := fun h => absurd h.2.1 (Nat.not_lt.2 hlen)
      tauto
    · rw [ip6Header_overrun hp (Nat.lt_of_not_le hlen)]
      have hf : ¬ FragmentOverrun m ip cfg := by
        rintro ⟨-, ⟨h, -⟩ | ⟨-, h, -⟩⟩
        · rw [hp] at h
          revert h
          decide
        · exact hlen h
      have ht : ¬ HopByHopTeid m ip cfg := fun h => hlen h.2.1
      tauto
  · rw [ip6Header_plain hp]
    have ho : ¬ HopByHopOverrun m ip cfg := fun h => hp h.1
    have ht : ¬ HopByHopTeid m ip cfg := fun h => hp h.1
    tauto

/-- **Without the peek.**  The IPv4 hash is the one before the patch; the IPv6 hash
is exactly off the packets of `Ip6WalkDiffers`. -/
theorem flowHash_unpeeked_iff (m : Mem) (ip : ℕ) (cfg : FlowHashConfig)
    (hpeek : cfg.peekInner = false) :
    Ip4Unchanged m ip cfg ∧ (Ip6Unchanged m ip cfg ↔ ¬ Ip6WalkDiffers m ip cfg) := by
  have h4 : ip4Inner m ip cfg = none := by simp [ip4Inner, hpeek]
  have h6 : ip6Inner m ip cfg = none := by simp [ip6Inner, hpeek]
  constructor
  · intro tail
    simp only [ip4ComputeFlowHash, ip4ComputeFlowHashUpstream, ip4HashFields, h4]
  · simp only [Ip6Unchanged, ip6ComputeFlowHash, ip6ComputeFlowHashUpstream, ip6HashFields, h6]
    rw [tail_ip6_eq_iff, ip6Header_eq_iff]

/-- An IPv6 packet from 2001:db8::1 to 2001:db8::2 with the given payload length, next
header and payload. -/
def ip6Packet (payloadLength : BitVec 8) (nextHeader : BitVec 8) (payload : List (BitVec 8)) : Mem :=
  ofList ([0x60, 0, 0, 0, 0, payloadLength, nextHeader, 64,
    0x20, 0x01, 0x0d, 0xb8, 0, 0, 0, 0, 0, 0, 0, 0, 0, 0, 0, 1,
    0x20, 0x01, 0x0d, 0xb8, 0, 0, 0, 0, 0, 0, 0, 0, 0, 0, 0, 2] ++ payload)

/-- A TCP segment behind a hop-by-hop header. -/
def optionsPacket : Mem :=
  ip6Packet 28 protocolIp6HopByHopOptions
    [protocolTcp, 0, 1, 4, 0, 0, 0, 0, 0x03, 0xe8, 0x07, 0xd0]

/-- A fragment, the first one, of such a segment. -/
def fragmentPacket : Mem :=
  ip6Packet 28 protocolIpv6Fragmentation
    [protocolTcp, 0, 0, 1, 0, 0, 0, 1, 0x03, 0xe8, 0x07, 0xd0]

/-- With the default configuration `0x9f` both hash as before the patch. -/
theorem flowHash_unpeeked_extension :
    Ip6Unchanged optionsPacket 0 0x9f ∧ Ip6Unchanged fragmentPacket 0 0x9f := by
  refine ⟨(flowHash_unpeeked_iff optionsPacket 0 0x9f (by decide)).2.2 ?_,
    (flowHash_unpeeked_iff fragmentPacket 0 0x9f (by decide)).2.2 ?_⟩
  · rintro (h | ⟨-, h | h⟩ | h)
    · exact absurd h.2.1 (by decide)
    · exact absurd h.1 (by decide)
    · exact absurd h.2.2.1 (by decide)
    · exact absurd h.2.2.1 (by decide)
  · rintro (h | ⟨-, h | h⟩ | h)
    · exact absurd h.1 (by decide)
    · exact absurd h.2.1 (by decide)
    · exact absurd h.1 (by decide)
    · exact absurd h.1 (by decide)

/-- A jumbogram (payload length 0, hop-by-hop header with the jumbo option) with a TCP
segment: before the patch its ports were hashed, now they are not. -/
theorem jumbogram_differs :
    FlowHashConfig.peekInner 0x9f = false ∧
    ¬ Ip6Unchanged (ip6Packet 0 protocolIp6HopByHopOptions
      [protocolTcp, 0, 0xc2, 4, 0, 1, 0, 0, 0x03, 0xe8, 0x07, 0xd0]) 0 0x9f := by
  refine ⟨by decide, fun h => ?_⟩
  have := h ⟨fun _ _ => 0, fun _ f => f.srcPort.setWidth 32⟩
  revert this
  decide

end InnerHash
