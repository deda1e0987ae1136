/-
# The tunnel lookups

`vxlan4_find_tunnel` / `vxlan6_find_tunnel` as the patch leaves them, and the
copies `tunterm_acl_vxlan4_find_tunnel` / `tunterm_acl_vxlan6_find_tunnel` of the
lookups before the patch (`tunterm_acl_decap.c`).  Where the patch shows only the
lines it adds, the rest is that of the copies.

A lookup returns the decap info, the cache and the statistics interface.  The
IPv6 lookups read the pool through an index found in the map; `none` is a read
outside the pool, which C leaves undefined.
-/
import SonicVpp.VxlanTunnel

namespace Vxlan

/-! ## Packets and caches -/

/-- `VXLAN_FLAGS_I`. -/
def vxlanFlagsI : BitVec 8 := 0x08

/-- `decap_not_found`. -/
def decapNotFound : VxlanDecapInfo :=
  VxlanDecapInfo.ofAction (BitVec.allOnes 32) vxlanInputNextDrop 1

/-- `decap_bad_flags`. -/
def decapBadFlags : VxlanDecapInfo :=
  VxlanDecapInfo.ofAction (BitVec.allOnes 32) vxlanInputNextDrop 2

/-- The fields of an IPv4 VXLAN packet the lookup reads, with its fib index. -/
structure Vxlan4Packet where
  srcAddress : BitVec 32
  dstAddress : BitVec 32
  udpDstPort : BitVec 16
  fibIndex : BitVec 32
  flags : BitVec 8
  vniReserved : BitVec 32
  deriving DecidableEq, Repr

/-- The fields of an IPv6 VXLAN packet the lookup reads, with its fib index. -/
structure Vxlan6Packet where
  srcAddress : BitVec 128
  dstAddress : BitVec 128
  udpDstPort : BitVec 16
  fibIndex : BitVec 32
  flags : BitVec 8
  vniReserved : BitVec 32
  deriving DecidableEq, Repr

/-- The last key word of an IPv4 packet. -/
def Vxlan4Packet.tail (p : Vxlan4Packet) : VxlanKeyTail :=
  vxlanKeyTail p.udpDstPort p.fibIndex p.vniReserved

/-- The last key word of an IPv6 packet. -/
def Vxlan6Packet.tail (p : Vxlan6Packet) : VxlanKeyTail :=
  vxlanKeyTail p.udpDstPort p.fibIndex p.vniReserved

/-- The key of an IPv4 packet: destination and source. -/
def Vxlan4Packet.key4 (p : Vxlan4Packet) : Vxlan4TunnelKey :=
  ⟨addrPair p.dstAddress p.srcAddress, p.tail⟩

/-- The key of an IPv6 packet: the source alone. -/
def Vxlan6Packet.key6 (p : Vxlan6Packet) : Vxlan6TunnelKey :=
  ⟨asU64 p.srcAddress 0, asU64 p.srcAddress 1, p.tail⟩

/-- The key the IPv6 lookups build from the destination. -/
def Vxlan6Packet.dstKey6 (p : Vxlan6Packet) : Vxlan6TunnelKey :=
  ⟨asU64 p.dstAddress 0, asU64 p.dstAddress 1, p.tail⟩

/-- `last_tunnel_cache4`. -/
structure LastTunnelCache4 where
  key : Vxlan4TunnelKey
  value : VxlanDecapInfo
  deriving DecidableEq, Repr

/-- `last_tunnel_cache6`. -/
structure LastTunnelCache6 where
  key : Vxlan6TunnelKey
  value : ℕ
  deriving DecidableEq, Repr

/-- The all-ones key tail of a freshly initialised cache. -/
def emptyTail : VxlanKeyTail := BitVec.allOnes 64

/-- `clib_memset (&last4, 0xff, sizeof last4)`. -/
def emptyCache4 : LastTunnelCache4 :=
  ⟨⟨BitVec.allOnes 64, emptyTail⟩, ⟨BitVec.allOnes 32, BitVec.allOnes 32⟩⟩

/-- `clib_memset (&last6, 0xff, sizeof last6)`. -/
def emptyCache6 : LastTunnelCache6 :=
  ⟨⟨BitVec.allOnes 64, BitVec.allOnes 64, emptyTail⟩, 2 ^ 64 - 1⟩

/-- The decap info the IPv6 lookups build from a tunnel. -/
def VxlanTunnel.info (t : VxlanTunnel) : VxlanDecapInfo :=
  VxlanDecapInfo.ofAction t.swIfIndex (t.decapNextIndex.setWidth 16) 0

section Lookup

variable (up : VppIp) (vxm : VxlanMain)

/-! ## IPv4 -/

/-- The multicast part of the IPv4 lookup: the group entry, then the unicast
tunnel of the group's local address. -/
def vxlan4TryMulticast (cache : LastTunnelCache4) (p : Vxlan4Packet) (stats : BitVec 32) :
    VxlanDecapInfo × LastTunnelCache4 × BitVec 32 :=
  if !up.ip4AddressIsMulticast p.dstAddress then (decapNotFound, cache, stats)
  else
    match vxm.vxlan4TunnelByKey ⟨p.dstAddress.setWidth 64, p.tail⟩ with
    | none => (decapNotFound, cache, stats)
    | some mdi =>
      match vxm.vxlan4TunnelByKey ⟨addrPair mdi.localIp p.srcAddress, p.tail⟩ with
      | none => (decapNotFound, cache, stats)
      | some di => (di, cache, mdi.swIfIndex)

/-- The cache and exact-key part of the IPv4 lookup; `miss` is what follows an
exact miss. -/
def vxlan4TryExact (cache : LastTunnelCache4) (p : Vxlan4Packet) (stats : BitVec 32)
    (miss : VxlanDecapInfo × LastTunnelCache4 × BitVec 32) :
    VxlanDecapInfo × LastTunnelCache4 × BitVec 32 :=
  if p.flags ≠ vxlanFlagsI then (decapBadFlags, cache, stats)
  else if p.key4 = cache.key then (cache.value, cache, cache.value.swIfIndex)
  else
    match vxm.vxlan4TunnelByKey p.key4 with
    | some di => (di, ⟨p.key4, di⟩, di.swIfIndex)
    | none => miss

/-- `tunterm_acl_vxlan4_find_tunnel`, the lookup before the patch. -/
def tuntermAclVxlan4FindTunnel (cache : LastTunnelCache4) (p : Vxlan4Packet)
    (stats : BitVec 32) : VxlanDecapInfo × LastTunnelCache4 × BitVec 32 :=
  vxlan4TryExact vxm cache p stats (vxlan4TryMulticast up vxm cache p stats)

/-- `vxlan4_find_tunnel` with the patch: after an exact miss the
source-independent key of the destination is tried. -/
def vxlan4FindTunnel (cache : LastTunnelCache4) (p : Vxlan4Packet) (stats : BitVec 32) :
    VxlanDecapInfo × LastTunnelCache4 × BitVec 32 :=
  vxlan4TryExact vxm cache p stats <|
    match vxm.vxlan4TunnelByKey ⟨p.dstAddress.setWidth 64 <<< 32, p.tail⟩ with
    | some diw => (diw, cache, diw.swIfIndex)
    | none => vxlan4TryMulticast up vxm cache p stats

/-! ## IPv6 -/

/-- The validation of an IPv6 hit: the tunnel's local address must be the
destination, or the destination a known multicast group. -/
def vxlan6Validate (cache : LastTunnelCache6) (p : Vxlan6Packet) (stats : BitVec 32) :
    Option (VxlanDecapInfo × LastTunnelCache6 × BitVec 32) :=
  match vxm.poolEltAtIndex cache.value with
  | none => none
  | some t0 =>
    if p.dstAddress = t0.addrs.src then some (t0.info, cache, t0.swIfIndex)
    else if !up.ip6AddressIsMulticast p.dstAddress then some (decapNotFound, cache, stats)
    else
      match vxm.vxlan6TunnelByKey p.dstKey6 with
      | none => some (decapNotFound, cache, stats)
      | some j =>
        match vxm.poolEltAtIndex j with
        | none => none
        | some mcastT0 => some (t0.info, cache, mcastT0.swIfIndex)

/-- The cache and source-key part of the IPv6 lookup; `miss` is what follows a
miss. -/
def vxlan6TryExact (cache : LastTunnelCache6) (p : Vxlan6Packet) (stats : BitVec 32)
    (miss : Option (VxlanDecapInfo × LastTunnelCache6 × BitVec 32)) :
    Option (VxlanDecapInfo × LastTunnelCache6 × BitVec 32) :=
  if p.flags ≠ vxlanFlagsI then some (decapBadFlags, cache, stats)
  else if p.key6 = cache.key then vxlan6Validate up vxm cache p stats
  else
    match vxm.vxlan6TunnelByKey p.key6 with
    | some i => vxlan6Validate up vxm ⟨p.key6, i⟩ p stats
    | none => miss

/-- `tunterm_acl_vxlan6_find_tunnel`, the lookup before the patch. -/
def tuntermAclVxlan6FindTunnel (cache : LastTunnelCache6) (p : Vxlan6Packet)
    (stats : BitVec 32) : Option (VxlanDecapInfo × LastTunnelCache6 × BitVec 32) :=
  vxlan6TryExact up vxm cache p stats (some (decapNotFound, cache, stats))

/-- `vxlan6_find_tunnel` with the patch: after a source-key miss the
source-independent key of the destination is tried. -/
def vxlan6FindTunnel (cache : LastTunnelCache6) (p : Vxlan6Packet) (stats : BitVec 32) :
    Option (VxlanDecapInfo × LastTunnelCache6 × BitVec 32) :=
  vxlan6TryExact up vxm cache p stats <|
    match vxm.vxlan6TunnelByKey p.dstKey6 with
    | none => some (decapNotFound, cache, stats)
    | some j =>
      match vxm.poolEltAtIndex j with
      | none => none
      | some tw => some (tw.info, cache, tw.swIfIndex)

end Lookup

/-! ## Keys of packets -/

/-- The destination key the patch tries is the source-independent key. -/
theorem dstKey4_eq_key4w (p : Vxlan4Packet) :
    (⟨p.dstAddress.setWidth 64 <<< 32, p.tail⟩ : Vxlan4TunnelKey)
      = key4w (ip46OfIp4 p.dstAddress) p.tail := by
  simp [key4w]

theorem dstKey6_eq_key6w (p : Vxlan6Packet) : p.dstKey6 = key6w p.dstAddress p.tail := rfl

/-- The key of a unicast IPv4 tunnel. -/
theorem key4_unicast {up : VppIp} {q : VxlanParams}
    (h : up.ip46AddressIsMulticast q.addrs.dst = false) :
    q.key4 up = ⟨addrPair (ip46Ip4 q.addrs.src) (ip46Ip4 q.addrs.dst), q.tail⟩ := by
  simp only [VxlanParams.key4, h, Bool.false_eq_true, if_false]

/-- The tail of a tunnel is not that of an empty cache: its reserved byte is zero. -/
theorem tail_ne_emptyTail (q : VxlanParams) : q.tail ≠ emptyTail := by
  intro h
  have hbit : q.tail.getLsbD 0 = emptyTail.getLsbD 0 := by rw [h]
  rw [VxlanParams.tail, getLsbD_vxlanKeyTail_low _ _ _ (by omega)] at hbit
  simp [vniWord, emptyTail] at hbit

end Vxlan
