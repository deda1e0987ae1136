/-
# IP headers in a packet buffer

The fields of IPv4, IPv6 and Ethernet headers that the SONiC patches read, as bytes
at fixed offsets, and the protocol numbers they are compared with.
-/
import SonicVpp.PacketBytes

open PacketBytes

namespace Ip

/-! ## Protocol numbers -/

/-- `IP_PROTOCOL_IP6_HOP_BY_HOP_OPTIONS`. -/
def protocolIp6HopByHopOptions : BitVec 8 := 0

/-- `IP_PROTOCOL_IP_IN_IP`. -/
def protocolIpInIp : BitVec 8 := 4

/-- `IP_PROTOCOL_TCP`. -/
def protocolTcp : BitVec 8 := 6

/-- `IP_PROTOCOL_UDP`. -/
def protocolUdp : BitVec 8 := 17

/-- `IP_PROTOCOL_IPV6`. -/
def protocolIpv6 : BitVec 8 := 41

/-- `IP_PROTOCOL_IPV6_ROUTE`. -/
def protocolIpv6Route : BitVec 8 := 43

/-- `IP_PROTOCOL_IPV6_FRAGMENTATION`. -/
def protocolIpv6Fragmentation : BitVec 8 := 44

/-- `IP_PROTOCOL_GRE`. -/
def protocolGre : BitVec 8 := 47

/-- `IP_PROTOCOL_IPSEC_ESP`. -/
def protocolIpsecEsp : BitVec 8 := 50

/-- `IP_PROTOCOL_IPSEC_AH`. -/
def protocolIpsecAh : BitVec 8 := 51

/-- `IP_PROTOCOL_IP6_DESTINATION_OPTIONS`. -/
def protocolIp6DestinationOptions : BitVec 8 := 60

/-- TCP or UDP. -/
def isTcpUdp (protocol : BitVec 8) : Bool := protocol = protocolTcp || protocol = protocolUdp

/-! ## Header fields -/

/-- The version nibble, which IPv4 and IPv6 share. -/
def version (m : Mem) (ip : ℕ) : BitVec 4 := (m ip).extractLsb' 4 4

/-- `sizeof (ip4_header_t)`, the header without options. -/
def ip4HeaderSize : ℕ := 20

/-- `sizeof (ip6_header_t)`. -/
def ip6HeaderSize : ℕ := 40

/-- `ip4_header_bytes`: the header with its options. -/
def ip4HeaderBytes (m : Mem) (ip : ℕ) : ℕ := 4 * ((m ip).extractLsb' 0 4).toNat

/-- The IPv4 total length. -/
def ip4Length (m : Mem) (ip : ℕ) : ℕ := (netU16 m (ip + 2)).toNat

/-- `ip4_is_fragment`: a fragment offset, or more fragments to come. -/
def ip4IsFragment (m : Mem) (ip : ℕ) : Bool := netU16 m (ip + 6) &&& 0x3fff ≠ 0

/-- The IPv4 protocol field. -/
def ip4Protocol (m : Mem) (ip : ℕ) : BitVec 8 := m (ip + 9)

/-- The IPv6 payload length. -/
def ip6PayloadLength (m : Mem) (ip : ℕ) : ℕ := (netU16 m (ip + 4)).toNat

/-- The IPv6 next-header field. -/
def ip6Protocol (m : Mem) (ip : ℕ) : BitVec 8 := m (ip + 6)

/-- The next header of an extension header. -/
def extProtocol (m : Mem) (eh : ℕ) : BitVec 8 := m eh

/-- The length in bytes of an extension header: `(length + 1) * 8`. -/
def extBytes (m : Mem) (eh : ℕ) : ℕ := ((m (eh + 1)).toNat + 1) * 8

section Agree

variable {n : ℕ} {m m' : Mem} {i : ℕ}

/-- The IPv4 fields are the same where the 20 header bytes are. -/
theorem ip4_congr (h : AgreeBelow n m m') (hi : i + 20 ≤ n) :
    version m i = version m' i ∧ ip4HeaderBytes m i = ip4HeaderBytes m' i ∧
      ip4Length m i = ip4Length m' i ∧ ip4IsFragment m i = ip4IsFragment m' i ∧
      ip4Protocol m i = ip4Protocol m' i := by
  have h0 : m i = m' i := h i (by omega)
  refine ⟨?_, ?_, ?_, ?_, h (i + 9) (by omega)⟩
  · simp only [version, h0]
  · simp only [ip4HeaderBytes, h0]
  · simp only [ip4Length, h.netU16 (i := i + 2) (by omega)]
  · simp only [ip4IsFragment, h.netU16 (i := i + 6) (by omega)]

/-- The IPv6 fields are the same where the 40 header bytes are. -/
theorem ip6_congr (h : AgreeBelow n m m') (hi : i + 40 ≤ n) :
    version m i = version m' i ∧ ip6PayloadLength m i = ip6PayloadLength m' i ∧
      ip6Protocol m i = ip6Protocol m' i := by
  have h0 : m i = m' i := h i (by omega)
  refine ⟨?_, ?_, h (i + 6) (by omega)⟩
  · simp only [version, h0]
  · simp only [ip6PayloadLength, h.netU16 (i := i + 4) (by omega)]

/-- The fields of an extension header are the same where its first two bytes are. -/
theorem ext_congr (h : AgreeBelow n m m') (hi : i + 2 ≤ n) :
    extProtocol m i = extProtocol m' i ∧ extBytes m i = extBytes m' i := by
  have h1 : m (i + 1) = m' (i + 1) := h (i + 1) (by omega)
  exact ⟨h i (by omega), by simp only [extBytes, h1]⟩

end Agree

section SameFrom

variable {m m' : Mem} {ip ip' : ℕ}

/-- The fields of two IPv4 headers with the same bytes. -/
theorem ip4_sameFrom (h : SameFrom m ip m' ip') :
    version m ip = version m' ip' ∧ ip4HeaderBytes m ip = ip4HeaderBytes m' ip' ∧
      ip4Length m ip = ip4Length m' ip' ∧ ip4IsFragment m ip = ip4IsFragment m' ip' ∧
      ip4Protocol m ip = ip4Protocol m' ip' := by
  refine ⟨?_, ?_, ?_, ?_, h 9⟩
  · simp only [version, h.byte]
  · simp only [ip4HeaderBytes, h.byte]
  · simp only [ip4Length, (h.add 2).netU16]
  · simp only [ip4IsFragment, (h.add 6).netU16]

/-- The fields of two IPv6 headers with the same bytes. -/
theorem ip6_sameFrom (h : SameFrom m ip m' ip') :
    ip6PayloadLength m ip = ip6PayloadLength m' ip' ∧ ip6Protocol m ip = ip6Protocol m' ip' := by
  refine ⟨?_, h 6⟩
  simp only [ip6PayloadLength, (h.add 4).netU16]

/-- The fields of two extension headers with the same bytes. -/
theorem ext_sameFrom (h : SameFrom m ip m' ip') :
    extProtocol m ip = extProtocol m' ip' ∧ extBytes m ip = extBytes m' ip' := by
  refine ⟨h.byte, ?_⟩
  simp only [extBytes, h 1]

end SameFrom

end Ip
