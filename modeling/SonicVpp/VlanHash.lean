/-
# The hashes of tagged frames

VLAN tags do not change the flow of a packet, so a hash that locates the packet behind them is the
hash of the frame without them.  `vxlan_encap_inner_flow_hash` of
`0015-vxlan-encap-inner-aware-flow-hash.patch` looks for the packet behind at most two tags, the
second with TPID 0x8100 only; `hash_eth_l34_inner_inline` finds the ethertype behind the tags, and
takes an IPv6 header 4 bytes too early for each of them.  `vlanInvariant_iff` says for which
frames both hashes are those of the untagged frame all the same: for a tagged IPv6 packet, on the
bytes that are taken for its header (`StaysInFlow`).
-/
import SonicVpp.HashMoves

open PacketBytes Ip

namespace InnerHash

/-! ## The flow hash of the VXLAN encapsulation -/

/-- `ETHERNET_TYPE_VLAN`. -/
def ethernetTypeVlan : BitVec 16 := 0x8100

/-- `ETHERNET_TYPE_DOT1AD`. -/
def ethernetTypeDot1ad : BitVec 16 := 0x88a8

/-- `sizeof (ethernet_vlan_header_t)`: the tag control information, then the next type. -/
def ethernetVlanHeaderSize : ℕ := 4

/-- `IP_FLOW_HASH_DEFAULT`. -/
def ipFlowHashDefault : FlowHashConfig := 0x9f

/-- The type and the place of the L3 header in `vxlan_encap_inner_flow_hash`. -/
def vxlanEncapL3 (m : Mem) (eh : ℕ) : BitVec 16 × ℕ :=
  let ethertype := netU16 m (eh + 12)
  let l3h := eh + ethernetHeaderSize
  if ethertype = ethernetTypeVlan ∨ ethertype = ethernetTypeDot1ad then
    let ethertype := netU16 m (l3h + 2)
    let l3h := l3h + ethernetVlanHeaderSize
    if ethertype = ethernetTypeVlan then (netU16 m (l3h + 2), l3h + ethernetVlanHeaderSize)
    else (ethertype, l3h)
  else (ethertype, l3h)

/-- `vxlan_encap_inner_flow_hash`.  `l2` is `vnet_l2_compute_flow_hash`, which is outside the
patch. -/
def vxlanEncapInnerFlowHash (tail : FlowHashTail) (l2 : Mem → ℕ → BitVec 32) (m : Mem) (eh : ℕ) :
    BitVec 32 :=
  let (ethertype, l3h) := vxlanEncapL3 m eh
  if ethertype = ethernetTypeIp4 then ip4ComputeFlowHash tail m l3h ipFlowHashDefault
  else if ethertype = ethernetTypeIp6 then ip6ComputeFlowHash tail m l3h ipFlowHashDefault
  else l2 m eh

/-! ## Tagged frames -/

/-- A VLAN tag of 802.1Q or 802.1ad. -/
structure VlanTag where
  tpid : BitVec 16
  tci : BitVec 16
  valid : tpid = ethernetTypeVlan ∨ tpid = ethernetTypeDot1ad

/-- An IPv4 or IPv6 packet, and what follows it. -/
structure IpPacket where
  isV6 : Bool
  bytes : Mem
  version_eq : version bytes 0 = if isV6 then 6 else 4

/-- The first byte of a 16-bit field in network order. -/
def hiByte (x : BitVec 16) : BitVec 8 := x.extractLsb' 8 8

/-- The second byte of a 16-bit field in network order. -/
def loByte (x : BitVec 16) : BitVec 8 := x.extractLsb' 0 8

theorem tags_cases {tags : List VlanTag} (hlen : tags.length ≤ 2) :
    tags = [] ∨ (∃ t, tags = [t]) ∨ ∃ t t', tags = [t, t'] := by
  cases tags with
  | nil => exact Or.inl rfl
  | cons t ts =>
    cases ts with
    | nil => exact Or.inr (Or.inl ⟨t, rfl⟩)
    | cons t' ts =>
      simp only [List.length_cons] at hlen
      have hnil : ts = [] := List.length_eq_zero_iff.1 (by omega)
      exact Or.inr (Or.inr ⟨t, t', by rw [hnil]⟩)

/-- What follows the MAC addresses: the tags, the ethertype and the packet. -/
def tagged (pkt : IpPacket) : List VlanTag → Mem
  | [], 0 => hiByte (etherType pkt.isV6)
  | [], 1 => loByte (etherType pkt.isV6)
  | [], i + 2 => pkt.bytes i
  | t :: _, 0 => hiByte t.tpid
  | t :: _, 1 => loByte t.tpid
  | t :: _, 2 => hiByte t.tci
  | t :: _, 3 => loByte t.tci
  | _ :: ts, i + 4 => tagged pkt ts i

/-- The frame with the MAC addresses `mac` and the tags. -/
def frame (mac : Fin 12 → BitVec 8) (tags : List VlanTag) (pkt : IpPacket) : Mem :=
  fun i => if h : i < 12 then mac ⟨i, h⟩ else tagged pkt tags (i - 12)

/-- The bytes from `eth` on are those of the frame. -/
def FrameAt (m : Mem) (eth : ℕ) (mac : Fin 12 → BitVec 8) (tags : List VlanTag) (pkt : IpPacket) :
    Prop :=
  SameFrom m eth (frame mac tags pkt) 0

/-- `locate_ethertype` returns the position of the ethertype that follows up to two tags. -/
def HashEthUpstream.SkipsTags (up : HashEthUpstream) : Prop :=
  ∀ m eth mac (tags : List VlanTag) pkt, tags.length ≤ 2 → FrameAt m eth mac tags pkt →
    up.locateEthertype m eth = eth + 12 + 4 * tags.length

/-- The tags do not change the LAG hash. -/
def EthInvariant (mac : Fin 12 → BitVec 8) (tags : List VlanTag) (pkt : IpPacket) : Prop :=
  ∀ (up : HashEthUpstream) (m m' : Mem) (eth eth' : ℕ), up.SkipsTags →
    FrameAt m eth mac tags pkt → FrameAt m' eth' mac [] pkt →
    hashEthL34InnerInline up m eth = hashEthL34InnerInline up m' eth'

/-- The tags do not change the flow hash of the VXLAN encapsulation. -/
def VxlanInvariant (mac : Fin 12 → BitVec 8) (tags : List VlanTag) (pkt : IpPacket) : Prop :=
  ∀ (tail : FlowHashTail) (l2 : Mem → ℕ → BitVec 32) (m m' : Mem) (eth eth' : ℕ),
    FrameAt m eth mac tags pkt → FrameAt m' eth' mac [] pkt →
    vxlanEncapInnerFlowHash tail l2 m eth = vxlanEncapInnerFlowHash tail l2 m' eth'

/-- The tags change neither hash. -/
def VlanInvariant (mac : Fin 12 → BitVec 8) (tags : List VlanTag) (pkt : IpPacket) : Prop :=
  EthInvariant mac tags pkt ∧ VxlanInvariant mac tags pkt

/-! ### The fields of a frame -/

theorem hiByte_append_loByte (x : BitVec 16) : hiByte x ++ loByte x = x := by
  apply BitVec.eq_of_getLsbD_eq
  intro i hi
  simp only [hiByte, loByte, BitVec.getLsbD_append, BitVec.getLsbD_extractLsb']
  by_cases h8 : i < 8
  · simp [h8]
  · simp [h8, show i - 8 < 8 by omega, show 8 + (i - 8) = i by omega]

theorem tagged_nil_type (pkt : IpPacket) : netU16 (tagged pkt []) 0 = etherType pkt.isV6 := by
  simp only [netU16, tagged]
  exact hiByte_append_loByte _

theorem tagged_cons_type (pkt : IpPacket) (t : VlanTag) (ts : List VlanTag) :
    netU16 (tagged pkt (t :: ts)) 0 = t.tpid := by
  simp only [netU16, tagged]
  exact hiByte_append_loByte _

/-- Behind the first tag. -/
theorem tagged_tail (pkt : IpPacket) (t : VlanTag) (ts : List VlanTag) :
    SameFrom (tagged pkt (t :: ts)) 4 (tagged pkt ts) 0 := by
  intro k
  rw [Nat.add_comm 4 k, Nat.zero_add]
  simp only [tagged]

/-- Behind all tags. -/
theorem tagged_drop (pkt : IpPacket) (tags : List VlanTag) :
    SameFrom (tagged pkt tags) (4 * tags.length) (tagged pkt []) 0 := by
  induction tags with
  | nil => exact fun k => rfl
  | cons t ts ih =>
    rw [List.length_cons, Nat.mul_succ, Nat.add_comm]
    have htail := (tagged_tail pkt t ts).add (4 * ts.length)
    rw [Nat.zero_add] at htail
    exact htail.trans ih

theorem tagged_nil_packet (pkt : IpPacket) : SameFrom (tagged pkt []) 2 pkt.bytes 0 := by
  intro k
  rw [Nat.add_comm 2 k, Nat.zero_add]
  simp only [tagged]

section Frame

variable {m : Mem} {eth : ℕ} {mac : Fin 12 → BitVec 8} {tags : List VlanTag} {pkt : IpPacket}

theorem frame_tagged (mac : Fin 12 → BitVec 8) (tags : List VlanTag) (pkt : IpPacket) :
    SameFrom (frame mac tags pkt) 12 (tagged pkt tags) 0 := by
  intro k
  show (if h : 12 + k < 12 then mac ⟨12 + k, h⟩ else tagged pkt tags (12 + k - 12)) = _
  rw [dif_neg (by omega), Nat.add_sub_cancel_left, Nat.zero_add]

/-- What follows the MAC addresses in memory. -/
theorem FrameAt.tagged (h : FrameAt m eth mac tags pkt) :
    SameFrom m (eth + 12) (tagged pkt tags) 0 := by
  have h12 := h.add 12
  rw [Nat.zero_add] at h12
  exact h12.trans (frame_tagged mac tags pkt)

/-- The ethertype follows the tags. -/
theorem FrameAt.ethertype (h : FrameAt m eth mac tags pkt) :
    netU16 m (eth + 12 + 4 * tags.length) = etherType pkt.isV6 := by
  have htype := h.tagged.add (4 * tags.length)
  rw [Nat.zero_add] at htype
  rw [(htype.trans (tagged_drop pkt tags)).netU16]
  exact tagged_nil_type pkt

/-- The packet follows the ethertype. -/
theorem FrameAt.packet (h : FrameAt m eth mac tags pkt) :
    SameFrom m (eth + 12 + 4 * tags.length + 2) pkt.bytes 0 := by
  have htype := h.tagged.add (4 * tags.length)
  rw [Nat.zero_add] at htype
  have hbytes := (htype.trans (tagged_drop pkt tags)).add 2
  rw [Nat.zero_add] at hbytes
  exact hbytes.trans (tagged_nil_packet pkt)

theorem FrameAt.version (h : FrameAt m eth mac tags pkt) :
    version m (eth + 12 + 4 * tags.length + 2) = if pkt.isV6 then 6 else 4 := by
  rw [← pkt.version_eq]
  simp only [Ip.version, h.packet.byte]

/-- The type in front of the first tag. -/
theorem FrameAt.firstType {t : VlanTag} {ts : List VlanTag}
    (h : FrameAt m eth mac (t :: ts) pkt) : netU16 m (eth + 12) = t.tpid := by
  rw [h.tagged.netU16]
  exact tagged_cons_type pkt t ts

/-- The type in front of the second tag. -/
theorem FrameAt.secondType {t t' : VlanTag} {ts : List VlanTag}
    (h : FrameAt m eth mac (t :: t' :: ts) pkt) : netU16 m (eth + 16) = t'.tpid := by
  have htail := h.tagged.add 4
  rw [Nat.zero_add] at htail
  rw [(htail.trans (tagged_tail pkt t (t' :: ts))).netU16]
  exact tagged_cons_type pkt t' ts

end Frame

/-! ## The VXLAN encapsulation -/

/-- A second tag of 802.1ad, which is not skipped. -/
def InnerDot1ad (tags : List VlanTag) : Prop :=
  ∃ t t', tags = [t, t'] ∧ t'.tpid = ethernetTypeDot1ad

/-- The flow hash of the packet itself. -/
def IpPacket.flowHash (pkt : IpPacket) (tail : FlowHashTail) : BitVec 32 :=
  if pkt.isV6 then ip6ComputeFlowHash tail pkt.bytes 0 ipFlowHashDefault
  else ip4ComputeFlowHash tail pkt.bytes 0 ipFlowHashDefault

theorem etherType_not_tag (v : Bool) :
    etherType v ≠ ethernetTypeVlan ∧ etherType v ≠ ethernetTypeDot1ad := by
  cases v <;> decide

section Vxlan

variable {m : Mem} {eth : ℕ} {mac : Fin 12 → BitVec 8} {tags : List VlanTag} {pkt : IpPacket}

/-- The packet is found behind at most two tags. -/
theorem vxlanEncapL3_frame (h : FrameAt m eth mac tags pkt) (hlen : tags.length ≤ 2)
    (hinner : ¬ InnerDot1ad tags) :
    vxlanEncapL3 m eth = (etherType pkt.isV6, eth + 12 + 4 * tags.length + 2) := by
  obtain ⟨hvlan, hdot1ad⟩ := etherType_not_tag pkt.isV6
  have htype := h.ethertype
  match tags, hlen with
  | [], _ =>
    have h12 : netU16 m (eth + 12) = etherType pkt.isV6 := htype
    simp only [vxlanEncapL3, h12, hvlan, hdot1ad, or_self, if_false]
    rfl
  | [t], _ =>
    have h16 : netU16 m (eth + ethernetHeaderSize + 2) = etherType pkt.isV6 := htype
    simp only [vxlanEncapL3, h.firstType, t.valid, if_true, h16, hvlan, if_false]
    rfl
  | [t, t'], _ =>
    have ht' : t'.tpid = ethernetTypeVlan := by
      rcases t'.valid with hv | had
      · exact hv
      · exact absurd ⟨t, t', rfl, had⟩ hinner
    have h16 : netU16 m (eth + ethernetHeaderSize + 2) = ethernetTypeVlan := h.secondType.trans ht'
    have h20 : netU16 m (eth + ethernetHeaderSize + ethernetVlanHeaderSize + 2)
        = etherType pkt.isV6 := htype
    simp only [vxlanEncapL3, h.firstType, t.valid, if_true, h16, h20]
    rfl

/-- The hash is then the flow hash of the packet. -/
theorem vxlanEncap_frame (h : FrameAt m eth mac tags pkt) (hlen : tags.length ≤ 2)
    (hinner : ¬ InnerDot1ad tags) (tail : FlowHashTail) (l2 : Mem → ℕ → BitVec 32) :
    vxlanEncapInnerFlowHash tail l2 m eth = pkt.flowHash tail := by
  have h64 : ethernetTypeIp6 ≠ ethernetTypeIp4 := by decide
  unfold vxlanEncapInnerFlowHash IpPacket.flowHash
  rw [vxlanEncapL3_frame h hlen hinner]
  cases h6 : pkt.isV6 with
  | false => exact ip4ComputeFlowHash_sameFrom h.packet tail ipFlowHashDefault
  | true =>
    show (if ethernetTypeIp6 = ethernetTypeIp4 then _ else _) = _
    rw [if_neg h64]
    exact ip6ComputeFlowHash_sameFrom h.packet tail ipFlowHashDefault

/-- Behind a second tag of 802.1ad the L2 hash is taken. -/
theorem vxlanEncap_dot1ad {t t' : VlanTag} (h : FrameAt m eth mac [t, t'] pkt)
    (ht' : t'.tpid = ethernetTypeDot1ad) (tail : FlowHashTail) (l2 : Mem → ℕ → BitVec 32) :
    vxlanEncapInnerFlowHash tail l2 m eth = l2 m eth := by
  have hne : ethernetTypeDot1ad ≠ ethernetTypeVlan ∧ ethernetTypeDot1ad ≠ ethernetTypeIp4 ∧
      ethernetTypeDot1ad ≠ ethernetTypeIp6 := by decide
  have h16 : netU16 m (eth + ethernetHeaderSize + 2) = ethernetTypeDot1ad := h.secondType.trans ht'
  simp only [vxlanEncapInnerFlowHash, vxlanEncapL3, h.firstType, t.valid, if_true, h16, hne.1,
    hne.2.1, hne.2.2, if_false]

theorem frameAt_self (mac : Fin 12 → BitVec 8) (tags : List VlanTag) (pkt : IpPacket) :
    FrameAt (frame mac tags pkt) 0 mac tags pkt := fun _ => rfl

theorem not_innerDot1ad_nil : ¬ InnerDot1ad [] := by
  rintro ⟨t, t', h, -⟩
  cases h

/-- **The tags change the flow hash of the encapsulation exactly if the second is of 802.1ad.** -/
theorem vxlanInvariant_iff (hlen : tags.length ≤ 2) :
    VxlanInvariant mac tags pkt ↔ ¬ InnerDot1ad tags := by
  constructor
  · rintro hinv ⟨t, t', rfl, ht'⟩
    -- hashes that tell the L2 hash from the flow hashes
    have heq := hinv ⟨fun _ _ => 0, fun _ _ => 0⟩ (fun _ _ => 1) _ _ 0 0
      (frameAt_self mac [t, t'] pkt) (frameAt_self mac [] pkt)
    rw [vxlanEncap_dot1ad (frameAt_self mac [t, t'] pkt) ht',
      vxlanEncap_frame (frameAt_self mac [] pkt) (Nat.zero_le 2) not_innerDot1ad_nil] at heq
    have hzero : pkt.flowHash ⟨fun _ _ => 0, fun _ _ => 0⟩ = 0 := by
      unfold IpPacket.flowHash
      cases pkt.isV6 <;> rfl
    rw [hzero] at heq
    exact absurd heq (by decide)
  · intro hinner tail l2 m m' eth eth' h h'
    rw [vxlanEncap_frame h hlen hinner, vxlanEncap_frame h' (Nat.zero_le 2) not_innerDot1ad_nil]

end Vxlan

/-! ## The bytes that name a flow -/

/-- Where the bytes stand that name a flow, counted from the addresses of an IPv6 header: its
addresses, or those of a packet behind it, and both ports, if there are any. -/
structure FlowBytes where
  isV6 : Bool
  addresses : ℕ
  ports : Option ℕ

/-- A segment of TCP or UDP begins with its ports. -/
def portsOf (protocol : BitVec 8) (l4 : ℕ) : Option ℕ :=
  if isTcpUdp protocol then some l4 else none

/-- The ports of an IPv6 packet with the next header `p`, behind a hop-by-hop header or none. -/
def outerPorts (m : Mem) (a : ℕ) (p : BitVec 8) : Option ℕ :=
  if p = 0 then portsOf (m (a + 32)) (32 + ((m (a + 33)).toNat + 1) * 8) else portsOf p 32

/-- `NamesFlow m a p len f`: an IPv6 header with its addresses at `a`, the next header `p` and the
payload length `len` is of the flow that the bytes at `f` name.  They are those of the packet that
the payload encapsulates, and else the header's own. -/
inductive NamesFlow (m : Mem) (a : ℕ) (p : BitVec 8) (len : ℕ) : FlowBytes → Prop
  | inner {g : IpInnerHdr} (h : Encapsulated p (bytesAt m (a + 32) len) g) :
      NamesFlow m a p len
        ⟨g.isV6, 32 + g.ip + (if g.isV6 then 8 else 12), portsOf g.protocol (32 + g.l4)⟩
  | outer (h : ∀ g, ¬ Encapsulated p (bytesAt m (a + 32) len) g) :
      NamesFlow m a p len ⟨true, 0, outerPorts m a p⟩

/-- How many bytes the addresses take. -/
def FlowBytes.size (f : FlowBytes) : ℕ := if f.isV6 then 32 else 8

/-- Both ports combined, where there are any. -/
def FlowBytes.portXor (m : Mem) (a : ℕ) (f : FlowBytes) : BitVec 16 :=
  match f.ports with
  | none => 0
  | some l4 => loadU16 m (a + l4) ^^^ loadU16 m (a + l4 + 2)

/-- The same addresses, byte by byte, and ports that combine to the same. -/
structure SameFlow (m : Mem) (a : ℕ) (f : FlowBytes) (a' : ℕ) (f' : FlowBytes) : Prop where
  family : f.isV6 = f'.isV6
  addresses : bytesAt m (a + f.addresses) f.size = bytesAt m (a' + f'.addresses) f.size
  ports : f.portXor m a = f'.portXor m a'

/-- The bytes of the IPv6 packet name its flow. -/
def IpPacket.NamesFlow (pkt : IpPacket) (f : FlowBytes) : Prop :=
  InnerHash.NamesFlow pkt.bytes 8 (pkt.bytes 6) (netU16 pkt.bytes 4).toNat f

/-- What a tagged IPv6 packet must be for its flow to be found in the wrong place.  Each tag moves
the place by 4 bytes.  Behind one tag the first bytes of the packet are taken for the payload
length and the next header, and the addresses are read from byte 4 on.  Behind two the next header
is a byte of the ethertype, which is of no protocol with ports or a packet in it, and the addresses
are read from byte 0 on. -/
def StaysInFlow (pkt : IpPacket) : List VlanTag → Prop
  | [] => True
  | [_] => ∃ f g, pkt.NamesFlow f ∧
      NamesFlow pkt.bytes 4 (pkt.bytes 2) (netU16 pkt.bytes 0).toNat g ∧
      SameFlow pkt.bytes 8 f 4 g
  | _ :: _ :: _ => ∃ f, pkt.NamesFlow f ∧ SameFlow pkt.bytes 8 f 0 ⟨true, 0, none⟩

/-- What the hash mixes of the bytes that name a flow. -/
def FlowBytes.flow (m : Mem) (a : ℕ) (f : FlowBytes) : Flow :=
  let ports := (f.portXor m a).setWidth 32
  let src := a + f.addresses
  if f.isV6 then
    .ip6 (loadU64 m src) (loadU64 m (src + 8)) (loadU64 m (src + 16)) (loadU64 m (src + 24)) ports
  else .ip4 (loadU64 m src) ports

section NamesFlow

variable {m m' : Mem} {a a' ip len : ℕ} {p : BitVec 8} {f f' : FlowBytes}

theorem exists_namesFlow (m : Mem) (a : ℕ) (p : BitVec 8) (len : ℕ) :
    ∃ f, NamesFlow m a p len f := by
  by_cases hg : ∃ g, Encapsulated p (bytesAt m (a + 32) len) g
  · obtain ⟨g, hg⟩ := hg
    exact ⟨_, .inner hg⟩
  · exact ⟨_, .outer fun g h => hg ⟨g, h⟩⟩

/-- Only three protocols hold a packet. -/
theorem not_encapsulated (hp : p ≠ 4 ∧ p ≠ 41 ∧ p ≠ 47) {bs : Bytes} (g : IpInnerHdr) :
    ¬ Encapsulated p bs g := by
  intro h
  cases h with
  | ipInIp => exact hp.1 rfl
  | ipv6 => exact hp.2.1 rfl
  | gre => exact hp.2.2 rfl
  | teb => exact hp.2.2 rfl

theorem portsOf_xor (protocol : BitVec 8) (l4 addresses : ℕ) (v : Bool) :
    ((FlowBytes.mk v addresses (portsOf protocol l4)).portXor m a).setWidth 32
      = hashEthPorts m protocol (a + l4) := by
  unfold portsOf hashEthPorts
  cases isTcpUdp protocol with
  | true => exact BitVec.setWidth_xor
  | false => rfl

theorem outerPorts_xor (m : Mem) (ip : ℕ) :
    ((FlowBytes.mk true 0 (outerPorts m (ip + 8) (ip6Protocol m ip))).portXor m (ip + 8)).setWidth 32
      = hashEthOuterPorts6 m ip := by
  have hpayload : ip + 8 + 32 = ip + ip6HeaderSize := rfl
  unfold outerPorts hashEthOuterPorts6
  by_cases h0 : ip6Protocol m ip = 0
  · -- behind a hop-by-hop header
    have hhop : (0 : BitVec 8) = protocolIp6HopByHopOptions := rfl
    rw [h0, if_pos rfl, if_neg (by decide), if_pos hhop, portsOf_xor, ← Nat.add_assoc, hpayload]
    rfl
  · rw [if_neg h0, portsOf_xor, hpayload]
    have hhop : ip6Protocol m ip ≠ protocolIp6HopByHopOptions := h0
    rw [if_neg hhop]
    unfold hashEthPorts
    split_ifs <;> rfl

/-- The flow of an IPv6 packet is what the hash mixes of the bytes that name it. -/
theorem ip6Flow_eq (h : NamesFlow m (ip + 8) (ip6Protocol m ip) (ip6PayloadLength m ip) f) :
    ip6Flow m ip = f.flow m (ip + 8) := by
  have hpayload : ip + 8 + 32 = ip + ip6HeaderSize := rfl
  unfold ip6Flow
  cases h with
  | @inner g h =>
    rw [hpayload] at h
    rw [ipInnerResolve_eq_some_iff.2 ⟨g, h, rfl⟩]
    show flowOf g.isV6 m (ip + ip6HeaderSize + g.ip)
      (hashEthPorts m g.protocol (ip + ip6HeaderSize + g.l4)) = _
    have hl4 : ip + ip6HeaderSize + g.l4 = ip + 8 + (32 + g.l4) := by
      rw [← hpayload, Nat.add_assoc]
    simp only [FlowBytes.flow, portsOf_xor, ← hl4]
    cases g.isV6 with
    | true => simp only [flowOf, if_true, ip6HeaderSize, Nat.add_assoc, Nat.reduceAdd,
        Nat.add_left_comm]
    | false => simp only [flowOf, Bool.false_eq_true, if_false, ip6HeaderSize, Nat.add_assoc,
        Nat.reduceAdd, Nat.add_left_comm]
  | outer h =>
    have hnone : ipInnerResolve m (ip6Protocol m ip) (ip + ip6HeaderSize) (ip6PayloadLength m ip)
        = none := by
      apply Option.eq_none_iff_forall_ne_some.2
      intro x hx
      obtain ⟨g, hg, -⟩ := ipInnerResolve_eq_some_iff.1 hx
      exact h g hg
    rw [hnone]
    simp only [FlowBytes.flow, outerPorts_xor, Option.map_none, Option.getD_none, flowOf, if_true,
      Nat.add_zero, Nat.add_assoc, Nat.reduceAdd]

theorem NamesFlow.sameFrom (h : SameFrom m a m' a') (hf : NamesFlow m a p len f) :
    NamesFlow m' a' p len f := by
  have hbytes : bytesAt m (a + 32) len = bytesAt m' (a' + 32) len := (h.add 32).bytesAt len
  cases hf with
  | inner hg =>
    rw [hbytes] at hg
    exact .inner hg
  | outer hg =>
    have hports : outerPorts m a p = outerPorts m' a' p := by
      unfold outerPorts
      rw [show m (a + 32) = m' (a' + 32) from h 32, show m (a + 33) = m' (a' + 33) from h 33]
    rw [hports]
    rw [hbytes] at hg
    exact .outer hg

theorem FlowBytes.flow_sameFrom (h : SameFrom m a m' a') (f : FlowBytes) :
    f.flow m a = f.flow m' a' := by
  have hports : f.portXor m a = f.portXor m' a' := by
    unfold FlowBytes.portXor
    cases f.ports with
    | none => rfl
    | some l4 =>
      show loadU16 m _ ^^^ loadU16 m _ = loadU16 m' _ ^^^ loadU16 m' _
      rw [(h.add l4).loadU16, (sameFrom_at h l4 2).loadU16]
  have haddr := h.add f.addresses
  simp only [FlowBytes.flow, hports, haddr.loadU64, (haddr.add 8).loadU64, (haddr.add 16).loadU64,
    (haddr.add 24).loadU64]

/-- The addresses of two IPv6 packets as the hash loads them. -/
theorem bytesAt_32_iff (m : Mem) (i j : ℕ) : bytesAt m i 32 = bytesAt m j 32 ↔
    loadU64 m i = loadU64 m j ∧ loadU64 m (i + 8) = loadU64 m (j + 8) ∧
      loadU64 m (i + 16) = loadU64 m (j + 16) ∧ loadU64 m (i + 24) = loadU64 m (j + 24) := by
  have hsplit : ∀ k, bytesAt m k 32 = bytesAt m k 8 ++ (bytesAt m (k + 8) 8 ++
      (bytesAt m (k + 16) 8 ++ bytesAt m (k + 24) 8)) := by
    intro k
    rw [← bytesAt_add, ← bytesAt_add, ← bytesAt_add]
  have happend : ∀ k l (xs ys : List (BitVec 8)), bytesAt m k 8 ++ xs = bytesAt m l 8 ++ ys ↔
      bytesAt m k 8 = bytesAt m l 8 ∧ xs = ys := by
    intro k l xs ys
    refine ⟨fun h => List.append_inj h (by rw [bytesAt_length, bytesAt_length]), ?_⟩
    rintro ⟨h8, rfl⟩
    rw [h8]
  simp only [hsplit, happend, loadU64_eq_iff]

theorem portXor_eq_iff : (f.portXor m a).setWidth 32 = (f'.portXor m a').setWidth 32 ↔
    f.portXor m a = f'.portXor m a' := by
  constructor
  · intro h
    have h16 := congrArg (fun x : BitVec 32 => x.setWidth 16) h
    simpa using h16
  · intro h
    rw [h]

/-- **The same flow**: what is mixed is the same exactly if the bytes that are mixed are. -/
theorem FlowBytes.flow_eq_iff : f.flow m a = f'.flow m a' ↔ SameFlow m a f a' f' := by
  constructor
  · intro h
    unfold FlowBytes.flow at h
    cases hf : f.isV6 with
    | true =>
      cases hf' : f'.isV6 with
      | true =>
        simp only [hf, hf', if_true, Flow.ip6.injEq] at h
        obtain ⟨h0, h8, h16, h24, hp⟩ := h
        refine ⟨hf.trans hf'.symm, ?_, portXor_eq_iff.1 hp⟩
        rw [FlowBytes.size, hf, if_pos rfl]
        exact (bytesAt_32_iff ..).2 ⟨h0, h8, h16, h24⟩
      | false => simp [hf, hf'] at h
    | false =>
      cases hf' : f'.isV6 with
      | true => simp [hf, hf'] at h
      | false =>
        simp only [hf, hf', Bool.false_eq_true, if_false, Flow.ip4.injEq] at h
        refine ⟨hf.trans hf'.symm, ?_, portXor_eq_iff.1 h.2⟩
        rw [FlowBytes.size, hf, if_neg Bool.false_ne_true]
        exact loadU64_eq_iff.1 h.1
  · rintro ⟨hfamily, haddr, hp⟩
    unfold FlowBytes.flow
    rw [← hfamily, hp]
    unfold FlowBytes.size at haddr
    cases hf : f.isV6 with
    | true =>
      rw [hf, if_pos rfl] at haddr
      obtain ⟨h0, h8, h16, h24⟩ := (bytesAt_32_iff ..).1 haddr
      rw [if_pos rfl, if_pos rfl, h0, h8, h16, h24]
    | false =>
      rw [hf, if_neg Bool.false_ne_true] at haddr
      rw [if_neg Bool.false_ne_true, if_neg Bool.false_ne_true, loadU64_eq_iff.2 haddr]

end NamesFlow

/-! ## The LAG hash -/

/-- A search for the ethertype that skips up to two tags. -/
def skipTwoTags (m : Mem) (eth : ℕ) : ℕ :=
  let isTag := fun t : BitVec 16 => t = ethernetTypeVlan ∨ t = ethernetTypeDot1ad
  if isTag (netU16 m (eth + 12)) then
    if isTag (netU16 m (eth + 16)) then eth + 20 else eth + 16
  else eth + 12

/-- An upstream whose hashes tell one flow from all others. -/
def HashEthUpstream.tellsFlow (f : Flow) : HashEthUpstream where
  lbHash2Tuples := fun addresses ports => if Flow.ip4 addresses ports = f then 0 else 1
  lbHash := fun a b c d ports => if Flow.ip6 a b c d (ports.setWidth 32) = f then 0 else 1
  hashEthL2 := fun _ _ => 0
  locateEthertype := skipTwoTags

theorem tellsFlow_hash (f g : Flow) : g.hash (.tellsFlow f) = if g = f then 0 else 1 := by
  cases g with
  | ip4 addresses ports => rfl
  | ip6 a b c d ports =>
    simp only [Flow.hash, HashEthUpstream.tellsFlow,
      BitVec.setWidth_setWidth_of_le _ (show 32 ≤ 64 by omega), BitVec.setWidth_eq]

theorem tellsFlow_skips (f : Flow) : (HashEthUpstream.tellsFlow f).SkipsTags := by
  intro m eth mac tags pkt hlen h
  obtain ⟨hvlan, hdot1ad⟩ := etherType_not_tag pkt.isV6
  have htype := h.ethertype
  show skipTwoTags m eth = _
  match tags, hlen with
  | [], _ =>
    have h12 : netU16 m (eth + 12) = etherType pkt.isV6 := htype
    simp only [skipTwoTags, h12, hvlan, hdot1ad, or_self, if_false]
    rfl
  | [t], _ =>
    have h16 : netU16 m (eth + 16) = etherType pkt.isV6 := htype
    simp only [skipTwoTags, h.firstType, t.valid, if_true, h16, hvlan, hdot1ad, or_self, if_false]
    rfl
  | [t, t'], _ =>
    simp only [skipTwoTags, h.firstType, h.secondType, t.valid, t'.valid, if_true]
    rfl

section Eth

variable {m : Mem} {eth : ℕ} {mac : Fin 12 → BitVec 8} {tags : List VlanTag} {pkt : IpPacket}
  {up : HashEthUpstream}

/-- An IPv4 packet is found behind the tags. -/
theorem hashEth_frame4 (hup : up.SkipsTags) (h : FrameAt m eth mac tags pkt)
    (hlen : tags.length ≤ 2) (h4 : pkt.isV6 = false) :
    hashEthL34InnerInline up m eth = (ip4Flow pkt.bytes 0).hash up := by
  have hloc := hup m eth mac tags pkt hlen h
  have hver := h.version
  have htype := h.ethertype
  rw [h4] at hver
  rw [← hloc] at htype hver
  rw [hashEth_ip4Flow up htype hver, hloc, ip4Flow_sameFrom h.packet]

/-- An IPv6 packet is taken to be behind the first 14 bytes of the frame. -/
theorem hashEth_frame6 (hup : up.SkipsTags) (h : FrameAt m eth mac tags pkt)
    (hlen : tags.length ≤ 2) (h6 : pkt.isV6 = true) :
    hashEthL34InnerInline up m eth = (ip6Flow (frame mac tags pkt) 14).hash up := by
  have hloc := hup m eth mac tags pkt hlen h
  have hver := h.version
  have htype := h.ethertype
  rw [h6] at hver
  rw [← hloc] at htype hver
  have h14 := h.add 14
  rw [Nat.zero_add] at h14
  rw [hashEth_ip6Flow up htype hver]
  exact congrArg (·.hash up) (ip6Flow_sameFrom h14)

/-- Without tags it is there. -/
theorem ip6Flow_untagged (mac : Fin 12 → BitVec 8) (pkt : IpPacket) :
    ip6Flow (frame mac [] pkt) 14 = ip6Flow pkt.bytes 0 :=
  ip6Flow_sameFrom (frameAt_self mac [] pkt).packet

/-- The tags change the LAG hash exactly if the packet is an IPv6 packet, and what is read in its
place is of another flow. -/
theorem ethInvariant_iff_flow (hlen : tags.length ≤ 2) :
    EthInvariant mac tags pkt ↔
      (pkt.isV6 = true → ip6Flow (frame mac tags pkt) 14 = ip6Flow pkt.bytes 0) := by
  constructor
  · intro hinv h6
    have heq := hinv _ _ _ 0 0 (tellsFlow_skips (ip6Flow pkt.bytes 0))
      (frameAt_self mac tags pkt) (frameAt_self mac [] pkt)
    rw [hashEth_frame6 (tellsFlow_skips _) (frameAt_self mac tags pkt) hlen h6,
      hashEth_frame6 (tellsFlow_skips _) (frameAt_self mac [] pkt) (Nat.zero_le 2) h6,
      ip6Flow_untagged, tellsFlow_hash, tellsFlow_hash, if_pos rfl] at heq
    by_contra hne
    rw [if_neg hne] at heq
    exact absurd heq (by decide)
  · intro hflow up m m' eth eth' hup h h'
    cases h6 : pkt.isV6 with
    | false => rw [hashEth_frame4 hup h hlen h6, hashEth_frame4 hup h' (Nat.zero_le 2) h6]
    | true =>
      rw [hashEth_frame6 hup h hlen h6, hashEth_frame6 hup h' (Nat.zero_le 2) h6, hflow h6,
        ip6Flow_untagged]

/-! ### What is read in the place of the packet -/

/-- The flow of the packet itself. -/
theorem IpPacket.NamesFlow.eq {f : FlowBytes} (h : pkt.NamesFlow f) :
    ip6Flow pkt.bytes 0 = f.flow pkt.bytes 8 := ip6Flow_eq h

/-- Behind one tag the header is read 4 bytes too early. -/
theorem ip6Flow_oneTag (mac : Fin 12 → BitVec 8) (t : VlanTag) {g : FlowBytes}
    (h : NamesFlow pkt.bytes 4 (pkt.bytes 2) (netU16 pkt.bytes 0).toNat g) :
    ip6Flow (frame mac [t] pkt) 14 = g.flow pkt.bytes 4 := by
  have hpacket : SameFrom (frame mac [t] pkt) 18 pkt.bytes 0 := (frameAt_self mac [t] pkt).packet
  have haddr : SameFrom pkt.bytes 4 (frame mac [t] pkt) 22 := fun k => (hpacket.add 4 k).symm
  have hproto : ip6Protocol (frame mac [t] pkt) 14 = pkt.bytes 2 := hpacket 2
  have hlength : ip6PayloadLength (frame mac [t] pkt) 14 = (netU16 pkt.bytes 0).toNat :=
    congrArg BitVec.toNat hpacket.netU16
  rw [← hproto, ← hlength] at h
  rw [ip6Flow_eq (h.sameFrom haddr)]
  exact (g.flow_sameFrom haddr).symm

/-- Behind two it is read 8 bytes too early, and the next header is a byte of the ethertype. -/
theorem ip6Flow_twoTags (mac : Fin 12 → BitVec 8) (t t' : VlanTag) (h6 : pkt.isV6 = true) :
    ip6Flow (frame mac [t, t'] pkt) 14 = FlowBytes.flow pkt.bytes 0 ⟨true, 0, none⟩ := by
  have hpacket : SameFrom (frame mac [t, t'] pkt) 22 pkt.bytes 0 :=
    (frameAt_self mac [t, t'] pkt).packet
  have hproto : ip6Protocol (frame mac [t, t'] pkt) 14 = 0x86 := by
    show hiByte (etherType pkt.isV6) = 0x86
    rw [h6]
    rfl
  have hnames : NamesFlow (frame mac [t, t'] pkt) 22 (ip6Protocol (frame mac [t, t'] pkt) 14)
      (ip6PayloadLength (frame mac [t, t'] pkt) 14) ⟨true, 0, none⟩ := by
    rw [hproto]
    exact .outer (not_encapsulated (by decide))
  rw [ip6Flow_eq hnames]
  exact FlowBytes.flow_sameFrom hpacket _

/-- The flow that is found stays that of the packet exactly if the bytes say so. -/
theorem staysInFlow_iff (hlen : tags.length ≤ 2) (h6 : pkt.isV6 = true) :
    ip6Flow (frame mac tags pkt) 14 = ip6Flow pkt.bytes 0 ↔ StaysInFlow pkt tags := by
  obtain ⟨f, hf⟩ : ∃ f, pkt.NamesFlow f := exists_namesFlow ..
  rcases tags_cases hlen with rfl | ⟨t, rfl⟩ | ⟨t, t', rfl⟩
  · exact iff_of_true (ip6Flow_untagged mac pkt) trivial
  · constructor
    · intro h
      obtain ⟨g, hg⟩ := exists_namesFlow pkt.bytes 4 (pkt.bytes 2) (netU16 pkt.bytes 0).toNat
      refine ⟨f, g, hf, hg, FlowBytes.flow_eq_iff.1 ?_⟩
      rw [← hf.eq, ← h, ip6Flow_oneTag mac t hg]
    · rintro ⟨f, g, hf, hg, hsame⟩
      rw [ip6Flow_oneTag mac t hg, hf.eq, FlowBytes.flow_eq_iff.2 hsame]
  · rw [ip6Flow_twoTags mac t t' h6]
    constructor
    · intro h
      refine ⟨f, hf, FlowBytes.flow_eq_iff.1 ?_⟩
      rw [← hf.eq, h]
    · rintro ⟨f, hf, hsame⟩
      rw [hf.eq, FlowBytes.flow_eq_iff.2 hsame]

/-- **The tags change the LAG hash exactly if the packet is an IPv6 packet, and the bytes that are
taken for its header name another flow.** -/
theorem ethInvariant_iff (hlen : tags.length ≤ 2) :
    EthInvariant mac tags pkt ↔ (pkt.isV6 = true → StaysInFlow pkt tags) := by
  rw [ethInvariant_iff_flow hlen]
  exact forall_congr' fun h6 => staysInFlow_iff hlen h6

end Eth

/-! ## Both hashes -/

/-- **When VLAN tags do not change the hashes**: exactly if the packet is an IPv4 packet or has no
tag, or else the bytes some way in front of its addresses name the flow that the packet is of; and
no second tag is of 802.1ad. -/
theorem vlanInvariant_iff (mac : Fin 12 → BitVec 8) (tags : List VlanTag) (pkt : IpPacket)
    (hlen : tags.length ≤ 2) :
    VlanInvariant mac tags pkt ↔
      (pkt.isV6 = true → StaysInFlow pkt tags) ∧ ¬ InnerDot1ad tags :=
  and_congr (ethInvariant_iff hlen) (vxlanInvariant_iff hlen)

/-- The tag of VLAN 1. -/
def vlanOne : VlanTag := ⟨0x8100, 1, Or.inl rfl⟩

/-- A service tag. -/
def serviceTag : VlanTag := ⟨0x88a8, 2, Or.inr rfl⟩

/-- An IPv4 packet with UDP ports 1 and 2. -/
def udpPacket4 : IpPacket where
  isV6 := false
  bytes := ofList [0x45, 0, 0, 28, 0, 0, 0, 0, 64, 17, 0, 0, 10, 0, 0, 1, 10, 0, 0, 2,
    0, 1, 0, 2, 0, 8, 0, 0]
  version_eq := by decide

/-- An IPv6 packet with UDP ports 1 and 2. -/
def udpPacket6 : IpPacket where
  isV6 := true
  bytes := ofList [0x60, 0, 0, 0, 0, 8, 17, 64,
    0xfd, 0, 0, 0, 0, 0, 0, 0, 0, 0, 0, 0, 0, 0, 0, 1,
    0xfd, 0, 0, 0, 0, 0, 0, 0, 0, 0, 0, 0, 0, 0, 0, 2,
    0, 1, 0, 2, 0, 8, 0, 0]
  version_eq := by decide

/-- An IPv6 packet without an upper layer, whose addresses repeat the first word of the header. -/
def repeatedPacket6 : IpPacket where
  isV6 := true
  bytes := ofList (List.replicate 10 [0x60, 0, 59, 64]).flatten
  version_eq := by decide

theorem repeatedPacket6_names {a len : ℕ} :
    NamesFlow repeatedPacket6.bytes a 59 len ⟨true, 0, none⟩ :=
  .outer (not_encapsulated (by decide))

/-- It is of the same flow wherever its header is taken. -/
theorem repeatedPacket6_stays {tags : List VlanTag} (hlen : tags.length ≤ 2) :
    StaysInFlow repeatedPacket6 tags := by
  rcases tags_cases hlen with rfl | ⟨t, rfl⟩ | ⟨t, t', rfl⟩
  · trivial
  · exact ⟨_, _, repeatedPacket6_names, repeatedPacket6_names, ⟨rfl, by decide, rfl⟩⟩
  · exact ⟨_, repeatedPacket6_names, ⟨rfl, by decide, rfl⟩⟩

/-- An IPv4 packet with two tags, and the IPv6 packet with one and with two. -/
theorem vlanInvariant_tagged :
    VlanInvariant (fun _ => 0) [serviceTag, vlanOne] udpPacket4 ∧
    VlanInvariant (fun _ => 0) [serviceTag] repeatedPacket6 ∧
    VlanInvariant (fun _ => 0) [serviceTag, vlanOne] repeatedPacket6 := by
  have htwo : ¬ InnerDot1ad [serviceTag, vlanOne] := by
    rintro ⟨t, t', htags, ht'⟩
    obtain ⟨-, rfl, -⟩ := List.cons.inj htags
    exact absurd ht' (by decide)
  have hone : ¬ InnerDot1ad [serviceTag] := by
    rintro ⟨t, t', htags, -⟩
    cases htags
  refine ⟨?_, ?_, ?_⟩
  · rw [vlanInvariant_iff _ _ _ (by decide)]
    exact ⟨fun h6 => absurd h6 (by decide), htwo⟩
  · rw [vlanInvariant_iff _ _ _ (by decide)]
    exact ⟨fun _ => repeatedPacket6_stays (by decide), hone⟩
  · rw [vlanInvariant_iff _ _ _ (by decide)]
    exact ⟨fun _ => repeatedPacket6_stays (by decide), htwo⟩

/-- One tag changes the LAG hash of an IPv6 packet, and a second service tag the flow hash of the
encapsulation. -/
theorem tags_change_hashes :
    ¬ VlanInvariant (fun _ => 0) [vlanOne] udpPacket6 ∧
    ¬ VlanInvariant (fun _ => 0) [serviceTag, serviceTag] udpPacket4 := by
  constructor
  · rintro ⟨heth, -⟩
    have hflow := (ethInvariant_iff_flow (by decide)).1 heth rfl
    exact absurd hflow (by decide)
  · rintro ⟨-, hvxlan⟩
    have hinner := (vxlanInvariant_iff (by decide)).1 hvxlan
    exact hinner ⟨serviceTag, serviceTag, rfl, rfl⟩

end InnerHash
