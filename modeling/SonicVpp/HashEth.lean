/-
# The LAG hash `hash-eth-l34-inner`

`hash_eth_l34_inner_inline` of `0011-sonic-inner-aware-flow-hash.patch`.  The hash
primitives, the L2 hash and `locate_ethertype` are code outside the patch and enter
as parameters.

The IPv6 branch takes the IPv6 header at `eth + 1`, not behind the VLAN tags where
the IPv4 branch takes the IPv4 header.
-/
import SonicVpp.InnerResolve
import SonicVpp.VectorMap

open PacketBytes Ip

namespace InnerHash

/-- What `hash_eth.c` calls: the load-balance hashes, the L2 hash, and the search for
the ethertype field. -/
structure HashEthUpstream where
  lbHash2Tuples : BitVec 64 → BitVec 32 → BitVec 32
  lbHash : BitVec 64 → BitVec 64 → BitVec 64 → BitVec 64 → BitVec 64 → BitVec 32
  hashEthL2 : Mem → ℕ → BitVec 32
  locateEthertype : Mem → ℕ → ℕ

/-- The ethertypes that announce a VLAN tag. -/
def isVlanType (t : BitVec 16) : Bool := t = 0x8100 || t = 0x88a8 || t = 0x9100 || t = 0x9200

/-- The frame has `n` VLAN tags, at most two. -/
def VlanTags (m : Mem) (eth : ℕ) : ℕ → Prop
  | 0 => isVlanType (netU16 m (eth + 12)) = false
  | 1 => isVlanType (netU16 m (eth + 12)) = true ∧ netU16 m (eth + 16) ≠ 0x8100
  | 2 => isVlanType (netU16 m (eth + 12)) = true ∧ netU16 m (eth + 16) = 0x8100
  | _ => False

/-- `locate_ethertype` skips the VLAN tags. -/
def HashEthUpstream.SkipsVlanTags (up : HashEthUpstream) : Prop :=
  ∀ m eth n, VlanTags m eth n → up.locateEthertype m eth = eth + 12 + 4 * n

/-- Both ports of a TCP or UDP header, combined. -/
def hashEthPorts (m : Mem) (protocol : BitVec 8) (tcp : ℕ) : BitVec 32 :=
  if isTcpUdp protocol then (loadU16 m tcp).setWidth 32 ^^^ (loadU16 m (tcp + 2)).setWidth 32
  else 0

/-- The inner header that `hash_eth_l34_inner_inline` uses, from the position of the
ethertype field. -/
def hashEthInner (m : Mem) (eth ethertypeP : ℕ) : Option IpInnerHdr :=
  if netU16 m ethertypeP ≠ ethernetTypeIp4 ∧ netU16 m ethertypeP ≠ ethernetTypeIp6 then none
  else
    let ip4 := ethertypeP + 2
    if version m ip4 = 4 then
      if ip4IsFragment m ip4 then none
      else if ip4HeaderBytes m ip4 ≤ ip4Length m ip4 then
        ipInnerResolve m (ip4Protocol m ip4) (ip4 + ip4HeaderBytes m ip4)
          (ip4Length m ip4 - ip4HeaderBytes m ip4)
      else none
    else if version m ip4 = 6 then
      let ip6 := eth + ethernetHeaderSize
      ipInnerResolve m (ip6Protocol m ip6) (ip6 + ip6HeaderSize) (ip6PayloadLength m ip6)
    else none

section Hash

variable (up : HashEthUpstream)

/-- The hash of an IPv4 address pair and ports. -/
def hashEthIp4 (m : Mem) (ip : ℕ) (ports : BitVec 32) : BitVec 32 :=
  up.lbHash2Tuples (loadU64 m (ip + 12)) ports

/-- The hash of an IPv6 address pair and ports. -/
def hashEthIp6 (m : Mem) (ip : ℕ) (ports : BitVec 32) : BitVec 32 :=
  up.lbHash (loadU64 m (ip + 8)) (loadU64 m (ip + 16)) (loadU64 m (ip + 24)) (loadU64 m (ip + 32))
    (ports.setWidth 64)

/-- `hash_eth_inner_lb_hash`. -/
def hashEthInnerLbHash (m : Mem) (h : IpInnerHdr) : BitVec 32 :=
  if h.isV6 then hashEthIp6 up m h.ip (hashEthPorts m h.protocol h.l4)
  else hashEthIp4 up m h.ip (hashEthPorts m h.protocol h.l4)

/-- The ports of an outer IPv6 packet, behind a hop-by-hop header or none. -/
def hashEthOuterPorts6 (m : Mem) (ip6 : ℕ) : BitVec 32 :=
  if isTcpUdp (ip6Protocol m ip6) then
    hashEthPorts m (ip6Protocol m ip6) (ip6 + ip6HeaderSize)
  else if ip6Protocol m ip6 = protocolIp6HopByHopOptions then
    hashEthPorts m (extProtocol m (ip6 + ip6HeaderSize))
      (ip6 + ip6HeaderSize + extBytes m (ip6 + ip6HeaderSize))
  else 0

/-- The hash without an inner header, as `hash_eth_l34_inline` has it. -/
def hashEthOuter (m : Mem) (eth ethertypeP : ℕ) : BitVec 32 :=
  if netU16 m ethertypeP ≠ ethernetTypeIp4 ∧ netU16 m ethertypeP ≠ ethernetTypeIp6 then
    up.hashEthL2 m eth
  else
    let ip4 := ethertypeP + 2
    if version m ip4 = 4 then
      hashEthIp4 up m ip4 (hashEthPorts m (ip4Protocol m ip4) (ip4 + ip4HeaderSize))
    else if version m ip4 = 6 then
      let ip6 := eth + ethernetHeaderSize
      hashEthIp6 up m ip6 (hashEthOuterPorts6 m ip6)
    else up.hashEthL2 m eth

/-- `hash_eth_l34_inner_inline`. -/
def hashEthL34InnerInline (m : Mem) (eth : ℕ) : BitVec 32 :=
  let ethertypeP := up.locateEthertype m eth
  match hashEthInner m eth ethertypeP with
  | some h => hashEthInnerLbHash up m h
  | none => hashEthOuter up m eth ethertypeP

/-- `hash_eth_l34_inner`, over a vector of pointers to packets. -/
def hashEthL34Inner (m : Mem) (p : List ℕ) (hash : List (BitVec 32)) (nPackets : ℕ) :
    Option (List (BitVec 32)) :=
  VectorMap.run (hashEthL34InnerInline up m) p hash nPackets

/-- **The hashes of a vector.**  Each packet gets the hash that it has alone, wherever it stands and
whatever stands beside it, and no other hash is written; no access, the prefetches included, is
behind the end of a vector exactly if both have as many entries as there are packets. -/
theorem hashEthL34Inner_eq (m : Mem) (p : List ℕ) (hash : List (BitVec 32)) (nPackets : ℕ) :
    hashEthL34Inner up m p hash nPackets =
      if nPackets ≤ p.length ∧ nPackets ≤ hash.length then
        some ((p.take nPackets).map (hashEthL34InnerInline up m) ++ hash.drop nPackets)
      else none :=
  VectorMap.run_eq _ p hash nPackets

end Hash

end InnerHash
