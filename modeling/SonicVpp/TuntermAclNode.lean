/-
# The `tunterm-acl` node (`tunterm_acl_node.c`)

The node finds the inner destination address behind the VXLAN header at which the bypass
node leaves the packet, looks it up in the table attached to the receiving interface for
the family of the inner packet, and on a hit moves the packet to its inner IP header.

Positions are offsets into the data area of the buffer, where the packets of an interface
start.  `data` goes on behind the end of the packet: the node does not look at the length.
-/
import SonicVpp.TuntermAcl
import SonicVpp.IpHeader

open PacketBytes

namespace TuntermAcl

/-! ## The node -/

/-- What the node reads and writes of a buffer. -/
structure AclBuffer where
  data : Mem
  currentData : ℕ
  currentLength : BitVec 16
  swIfIndexRx : ℕ
  adjIndexTx : ℕ

/-- `vlib_buffer_advance`. -/
def AclBuffer.advance (b : AclBuffer) (l : ℕ) : AclBuffer :=
  { b with currentData := b.currentData + l, currentLength := b.currentLength - BitVec.ofNat 16 l }

/-- The counters of the node. -/
inductive AclNodeError
  | redirected
  | noClassifyTable
  | actionNotSupported
  | unsupportedEthertype
  | noMatch
  deriving DecidableEq, Repr

/-- `TUNTERM_ACL_NEXT_VXLAN4_INPUT`. -/
def nextVxlan4Input : ℕ := 1

/-- `sizeof (vxlan_header_t)`. -/
def vxlanHeaderSize : ℕ := 8

/-- `sizeof (ethernet_header_t)`. -/
def ethernetHeaderSize : ℕ := 14

/-- `sizeof (ethernet_vlan_header_t)`. -/
def ethernetVlanHeaderSize : ℕ := 4

section Node

variable {FibPath : Type} (s : TuntermAclMain FibPath) (nNextNodes : ℕ)

/-- The table attached to an interface for a family.  A read outside the array, which C
leaves undefined, finds none. -/
def TuntermAclMain.slot (isIpv6 : Bool) (swIfIndex : ℕ) : ℕ :=
  (if isIpv6 then s.classifyTableIndexBySwIfIndexV6
    else s.classifyTableIndexBySwIfIndexV4).getD swIfIndex invalidIndex

/-- A hit: the packet is moved to its inner IP header. -/
def redirectBuffer (b : AclBuffer) (tagged : Bool) (e : ClassifyEntry) : AclBuffer :=
  let b := (b.advance vxlanHeaderSize).advance ethernetHeaderSize
  let b := if tagged then b.advance ethernetVlanHeaderSize else b
  { b with adjIndexTx := e.metadata }

/-- The part of the node behind the choice of the table.  A free table index, which C
leaves undefined, has no match. -/
def tuntermAclLookup (b : AclBuffer) (tagged : Bool) (tableIndex innerDipOffset : ℕ) :
    AclBuffer × ℕ × AclNodeError :=
  if tableIndex = invalidIndex then (b, nextVxlan4Input, .noClassifyTable)
  else
    match (s.redirect.tables tableIndex).bind (·.findEntry (bytesAt b.data innerDipOffset 16)) with
    | none => (b, nextVxlan4Input, .noMatch)
    | some e =>
      if e.action = .setMetadata then
        (redirectBuffer b tagged e,
          if e.nextIndex < nNextNodes then e.nextIndex else nextVxlan4Input, .redirected)
      else (b, nextVxlan4Input, .actionNotSupported)

/-- The `tunterm-acl` node, for one buffer. -/
def tuntermAclNode (b : AclBuffer) : AclBuffer × ℕ × AclNodeError :=
  let innerEtherOffset := b.currentData + vxlanHeaderSize
  let innerIpOffset := innerEtherOffset + ethernetHeaderSize
  let etype := innerEtherOffset + 12
  let tagged : Bool := netU16 b.data etype = 0x8100
  let ethertype :=
    netU16 b.data (if tagged then etype + ethernetVlanHeaderSize else etype)
  let innerIpOffset := if tagged then innerIpOffset + ethernetVlanHeaderSize else innerIpOffset
  if ethertype = 0x86dd then
    tuntermAclLookup s nNextNodes b tagged (s.slot true b.swIfIndexRx)
      (innerIpOffset + Ip.ip6HeaderSize - 16)
  else if ethertype = 0x0800 then
    tuntermAclLookup s nNextNodes b tagged (s.slot false b.swIfIndexRx)
      (innerIpOffset + Ip.ip4HeaderSize - 4)
  else (b, nextVxlan4Input, .unsupportedEthertype)

end Node

/-! ## The inner packet -/

/-- The offset of the inner IP header behind a VXLAN header at `vxlan`. -/
def innerIpAt (vxlan : ℕ) (tagged : Bool) : ℕ :=
  vxlan + vxlanHeaderSize + ethernetHeaderSize + if tagged then ethernetVlanHeaderSize else 0

/-- The offset of the destination address in an IP header. -/
def dipOffset (isIpv6 : Bool) : ℕ := if isIpv6 then 24 else 16

/-- The ethertype of a family. -/
def ethertypeOf (isIpv6 : Bool) : BitVec 16 := if isIpv6 then 0x86dd else 0x0800

/-- Behind the VXLAN header at `vxlan` there is a frame of the family, with at most one
802.1Q tag, and its destination address is `d`. -/
structure InnerPacket (data : Mem) (vxlan : ℕ) (tagged isIpv6 : Bool) (d : List (BitVec 8)) :
    Prop where
  tag : netU16 data (vxlan + vxlanHeaderSize + 12) = 0x8100 ↔ tagged = true
  ethertype : netU16 data (innerIpAt vxlan tagged - 2) = ethertypeOf isIpv6
  dst : bytesAt data (innerIpAt vxlan tagged + dipOffset isIpv6) (bytesMatched isIpv6) = d

/-! ## Lookups -/

/-- The mask of a family leaves the address and zeros. -/
theorem mask_bytesAt (isIpv6 : Bool) (data : Mem) (i : ℕ) :
    List.zipWith (· &&& ·) (bytesAt data i 16) (tableMask isIpv6)
      = matchOf isIpv6 (bytesAt data i (bytesMatched isIpv6)) := by
  have hones : ∀ x : BitVec 8, x &&& 0xff = x := by decide
  have hzero : ∀ x : BitVec 8, x &&& 0 = 0 := by decide
  unfold bytesAt tableMask matchOf
  rw [List.zipWith_map, List.zipWith_self]
  apply List.map_congr_left
  intro k _
  by_cases hk : k < bytesMatched isIpv6
  · rw [if_pos hk, if_pos hk, hones]
    simp [hk]
  · rw [if_neg hk, if_neg hk, hzero]

/-- A lookup in a table of a family finds the session of the address. -/
theorem findEntry_bytesAt {T : ClassifyTable} {isIpv6 : Bool} (h : T.mask = tableMask isIpv6)
    (data : Mem) (i : ℕ) :
    T.findEntry (bytesAt data i 16)
      = T.sessions (matchOf isIpv6 (bytesAt data i (bytesMatched isIpv6))) := by
  rw [ClassifyTable.findEntry, ClassifyTable.masked, h, mask_bytesAt]

/-- Where a redirected packet stands. -/
theorem redirectBuffer_currentData (b : AclBuffer) (tagged : Bool) (e : ClassifyEntry) :
    (redirectBuffer b tagged e).currentData = innerIpAt b.currentData tagged := by
  cases tagged <;> rfl

/-- What is left of it. -/
theorem redirectBuffer_currentLength (b : AclBuffer) (tagged : Bool) (e : ClassifyEntry) :
    (redirectBuffer b tagged e).currentLength
      = b.currentLength - BitVec.ofNat 16 (innerIpAt 0 tagged) := by
  cases tagged <;>
  · simp only [redirectBuffer, AclBuffer.advance, innerIpAt, vxlanHeaderSize, ethernetHeaderSize,
      ethernetVlanHeaderSize, Bool.false_eq_true, if_false, if_true]
    bv_omega

theorem redirectBuffer_data (b : AclBuffer) (tagged : Bool) (e : ClassifyEntry) :
    (redirectBuffer b tagged e).data = b.data := by
  cases tagged <;> rfl

section Node

variable {FibPath : Type} (s : TuntermAclMain FibPath) (nNextNodes : ℕ)

/-- The node looks up the destination of the inner packet. -/
theorem tuntermAclNode_inner {b : AclBuffer} {tagged isIpv6 : Bool} {d : List (BitVec 8)}
    (h : InnerPacket b.data b.currentData tagged isIpv6 d) :
    tuntermAclNode s nNextNodes b
      = tuntermAclLookup s nNextNodes b tagged (s.slot isIpv6 b.swIfIndexRx)
          (innerIpAt b.currentData tagged + dipOffset isIpv6) := by
  obtain ⟨htag, hety, -⟩ := h
  have htag' : decide (netU16 b.data (b.currentData + vxlanHeaderSize + 12) = 0x8100) = tagged := by
    cases tagged with
    | true => exact decide_eq_true (htag.2 rfl)
    | false => exact decide_eq_false fun h => Bool.false_ne_true (htag.1 h)
  unfold tuntermAclNode
  simp only [htag']
  cases tagged <;> cases isIpv6 <;>
    simp_all [innerIpAt, dipOffset, ethertypeOf, vxlanHeaderSize, ethernetHeaderSize,
      ethernetVlanHeaderSize, Ip.ip6HeaderSize, Ip.ip4HeaderSize, add_assoc]

/-- Other ethertypes are not looked up. -/
theorem tuntermAclNode_other {b : AclBuffer} {tagged : Bool}
    (htag : netU16 b.data (b.currentData + vxlanHeaderSize + 12) = 0x8100 ↔ tagged = true)
    (hety : ∀ f, netU16 b.data (innerIpAt b.currentData tagged - 2) ≠ ethertypeOf f) :
    (tuntermAclNode s nNextNodes b).2.2 = .unsupportedEthertype := by
  have htag' : decide (netU16 b.data (b.currentData + vxlanHeaderSize + 12) = 0x8100) = tagged := by
    cases tagged with
    | true => exact decide_eq_true (htag.2 rfl)
    | false => exact decide_eq_false fun h => Bool.false_ne_true (htag.1 h)
  have h6 := hety true
  have h4 := hety false
  unfold tuntermAclNode
  simp only [htag']
  cases tagged <;>
    simp_all [innerIpAt, ethertypeOf, vxlanHeaderSize, ethernetHeaderSize,
      ethernetVlanHeaderSize, add_assoc]

end Node

end TuntermAcl
