/-
# The `tunterm-ip4-vxlan-bypass` node

`tunterm_acl_ip_vxlan_bypass_inline` (`tunterm_acl_decap.c`, IPv4 side) sends the
VXLAN packets it takes for local to `tunterm-acl`.  It decides with its own copy of
the tunnel lookup, which reads the map that the patched plugin writes but does not
know the source-independent entries.

`bypass_agrees_iff` says, for every state the tunnel table can reach, for which
packets the copy and the patched lookup agree.
-/
import SonicVpp.VxlanReachable

open WildcardStore RunInvariant

namespace Vxlan

/-! ## The node -/

/-- `tunterm_acl_ip_vxlan_bypass_next_t`, or the next feature of the packet's arc. -/
inductive IpVxlanBypassNext
  | drop
  | vxlan
  | tunterm
  | feature (next : BitVec 32)
  deriving DecidableEq, Repr

/-- The error of `b0->error`. -/
inductive Ip4Error
  | none
  | udpChecksum
  | udpLength
  deriving DecidableEq, Repr

/-- What the node reads of a buffer: the fields of the lookup, the next feature, and
the fields of the UDP checks. -/
structure BypassBuffer extends Vxlan4Packet where
  featureNext : BitVec 32
  isFragment : Bool
  protocol : BitVec 8
  l4ChecksumCorrect : Bool
  ipLength : BitVec 16
  udpLength : BitVec 16
  udpChecksum : BitVec 16
  deriving DecidableEq, Repr

/-- What the node leaves behind: the next node, the error, and by how much the
buffer was advanced. -/
structure BypassResult where
  next : IpVxlanBypassNext
  error : Ip4Error
  advance : ℕ
  deriving DecidableEq, Repr

/-- The checks of VPP that the node calls. -/
structure BypassUpstream extends VppIp where
  vtep4Check : BypassBuffer → Bool
  ip4TcpUdpValidateChecksum : BypassBuffer → Bool

/-- `IP_PROTOCOL_UDP`. -/
def ipProtocolUdp : BitVec 8 := 17

/-- The protocol the node looks at: a fragment counts as "experimental". -/
def BypassBuffer.proto (b : BypassBuffer) : BitVec 8 := if b.isFragment then 0xfe else b.protocol

section Node

variable (up : BypassUpstream) (vxm : VxlanMain)

/-- `good_udp0`. -/
def BypassBuffer.goodUdp (b : BypassBuffer) : Bool :=
  if b.l4ChecksumCorrect || b.udpChecksum = 0 then true else up.ip4TcpUdpValidateChecksum b

/-- `error0`: the length check overrides the checksum check. -/
def BypassBuffer.error (b : BypassBuffer) : Ip4Error :=
  let error := if b.goodUdp up then Ip4Error.none else .udpChecksum
  if 0 ≤ (b.ipLength.toNat : ℤ) - b.udpLength.toNat then error else .udpLength

/-- One packet of the IPv4 loop, with the lookup cache. -/
def bypassPacket (cache : LastTunnelCache4) (b : BypassBuffer) : BypassResult × LastTunnelCache4 :=
  let keep : BypassResult := ⟨.feature b.featureNext, .none, 0⟩
  if b.proto ≠ ipProtocolUdp then (keep, cache)
  else
    let (di, cache, _) := tuntermAclVxlan4FindTunnel up.toVppIp vxm cache b.toVxlan4Packet
      (BitVec.allOnes 32)
    if di.swIfIndex = BitVec.allOnes 32 then (keep, cache)
    else if !up.vtep4Check b then (keep, cache)
    else
      let error := b.error up
      (⟨if error ≠ .none then .drop else .tunterm, error, 20 + 8⟩, cache)

/-- The packets of a frame in order, from the given cache. -/
def bypassFrame : LastTunnelCache4 → List BypassBuffer → List BypassResult
  | _, [] => []
  | cache, b :: bs =>
    let (r, cache) := bypassPacket up vxm cache b
    r :: bypassFrame cache bs

/-- `tunterm_acl_ip_vxlan_bypass_inline` for IPv4: every frame starts with an empty
cache. -/
def tuntermAclIpVxlanBypassInline (frame : List BypassBuffer) : List BypassResult :=
  bypassFrame up vxm emptyCache4 frame

end Node

/-! ## The cache does not matter -/

section Cache

variable {up : BypassUpstream} {s : VxlanMain}

/-- A packet with the key tail of an empty cache finds no tunnel. -/
theorem EntriesValid.lookup_emptyTail (h : EntriesValid s) {cache : LastTunnelCache4}
    {p : Vxlan4Packet} (stats : BitVec 32) (htail : p.tail = emptyTail)
    (hcache : Coherent4 s.vxlan4TunnelByKey cache) :
    (tuntermAclVxlan4FindTunnel up.toVppIp s cache p stats).1.swIfIndex = BitVec.allOnes 32 := by
  have hnone : ∀ a, s.vxlan4TunnelByKey ⟨a, p.tail⟩ = none := by
    intro a
    cases hv : s.vxlan4TunnelByKey ⟨a, p.tail⟩ with
    | none => rfl
    | some v => exact absurd htail (h.entry _ v hv).1
  unfold tuntermAclVxlan4FindTunnel vxlan4TryExact
  by_cases hf : p.flags = vxlanFlagsI
  · simp only [hf, ne_eq, not_true_eq_false, if_false, Vxlan4Packet.key4, hnone]
    by_cases hk : (⟨addrPair p.dstAddress p.srcAddress, p.tail⟩ : Vxlan4TunnelKey) = cache.key
    · rw [if_pos hk]
      rcases hcache with rfl | hc
      · rfl
      · rw [← hk, hnone] at hc
        cases hc
    · rw [if_neg hk]
      unfold vxlan4TryMulticast
      rw [hnone]
      cases up.ip4AddressIsMulticast p.dstAddress <;> rfl
  · simp only [hf, ne_eq, not_false_eq_true, if_true]
    rfl

/-- Whether a tunnel is found does not depend on what a coherent cache holds. -/
theorem EntriesValid.found_eq (h : EntriesValid s) {cache : LastTunnelCache4}
    (p : Vxlan4Packet) (stats : BitVec 32) (hcache : Coherent4 s.vxlan4TunnelByKey cache) :
    (tuntermAclVxlan4FindTunnel up.toVppIp s cache p stats).1.swIfIndex
      = (tuntermAclVxlan4FindTunnel up.toVppIp s emptyCache4 p stats).1.swIfIndex := by
  by_cases htail : p.tail = emptyTail
  · rw [h.lookup_emptyTail stats htail hcache, h.lookup_emptyTail stats htail (Or.inl rfl)]
  · by_cases hf : p.flags = vxlanFlagsI
    · unfold tuntermAclVxlan4FindTunnel
      rw [vxlan4TryExact_fst hcache hf htail, vxlan4TryExact_fst (Or.inl rfl) hf htail,
        vxlan4TryMulticast_fst up.toVppIp cache emptyCache4]
    · simp only [tuntermAclVxlan4FindTunnel, vxlan4TryExact, ne_eq, hf, not_false_eq_true, if_true]

variable (up) in
/-- The lookup leaves a coherent cache coherent. -/
theorem coherent4_tuntermAcl {cache : LastTunnelCache4} (p : Vxlan4Packet) (stats : BitVec 32)
    (hcache : Coherent4 s.vxlan4TunnelByKey cache) :
    Coherent4 s.vxlan4TunnelByKey
      (tuntermAclVxlan4FindTunnel up.toVppIp s cache p stats).2.1 := by
  -- the multicast lookup does not write the cache
  have hmc : (vxlan4TryMulticast up.toVppIp s cache p stats).2.1 = cache := by
    unfold vxlan4TryMulticast
    cases up.ip4AddressIsMulticast p.dstAddress with
    | false => rfl
    | true =>
      cases s.vxlan4TunnelByKey ⟨p.dstAddress.setWidth 64, p.tail⟩ with
      | none => rfl
      | some mdi =>
        cases hdi : s.vxlan4TunnelByKey ⟨addrPair mdi.localIp p.srcAddress, p.tail⟩ with
        | none => simp [hdi]
        | some di => simp [hdi]
  unfold tuntermAclVxlan4FindTunnel vxlan4TryExact
  by_cases hf : p.flags = vxlanFlagsI
  · simp only [hf, ne_eq, not_true_eq_false, if_false]
    by_cases hk : p.key4 = cache.key
    · rw [if_pos hk]
      exact hcache
    · rw [if_neg hk]
      cases hv : s.vxlan4TunnelByKey p.key4 with
      | none => rw [hmc]; exact hcache
      | some di => exact Or.inr hv
  · simp only [hf, ne_eq, not_false_eq_true, if_true]
    exact hcache

variable (up) in
/-- One packet: the outcome is that from an empty cache, and the cache stays coherent. -/
theorem EntriesValid.bypassPacket_eq (h : EntriesValid s) {cache : LastTunnelCache4}
    (b : BypassBuffer) (hcache : Coherent4 s.vxlan4TunnelByKey cache) :
    (bypassPacket up s cache b).1 = (bypassPacket up s emptyCache4 b).1 ∧
      Coherent4 s.vxlan4TunnelByKey (bypassPacket up s cache b).2 := by
  unfold bypassPacket
  by_cases hp : b.proto = ipProtocolUdp
  · simp only [hp, ne_eq, not_true_eq_false, if_false]
    rw [h.found_eq b.toVxlan4Packet (BitVec.allOnes 32) hcache]
    have hco := coherent4_tuntermAcl up b.toVxlan4Packet (BitVec.allOnes 32) hcache
    split
    · exact ⟨rfl, hco⟩
    · cases up.vtep4Check b with
      | false => exact ⟨rfl, hco⟩
      | true => exact ⟨rfl, hco⟩
  · simp only [hp, ne_eq, not_false_eq_true, if_true]
    exact ⟨trivial, hcache⟩

variable (up) in
/-- **A frame is treated packet by packet**, each as with an empty cache. -/
theorem EntriesValid.bypassFrame_eq (h : EntriesValid s) (bs : List BypassBuffer) :
    ∀ {cache : LastTunnelCache4}, Coherent4 s.vxlan4TunnelByKey cache →
      bypassFrame up s cache bs = bs.map fun b => (bypassPacket up s emptyCache4 b).1 := by
  induction bs with
  | nil => intro cache _; rfl
  | cons b bs ih =>
    intro cache hcache
    obtain ⟨hres, hco⟩ := h.bypassPacket_eq up b hcache
    simp only [bypassFrame, List.map_cons]
    rw [hres, ih hco]

end Cache

/-! ## Agreement with the patched lookup -/

section Agreement

variable (up : BypassUpstream) (s : VxlanMain)

/-- `vxlan4-input` decapsulates the packet: the patched lookup finds a tunnel. -/
def Vxlan4Decapsulates (p : Vxlan4Packet) : Prop :=
  (vxlan4FindTunnel up.toVppIp s emptyCache4 p (BitVec.allOnes 32)).1.swIfIndex
    ≠ BitVec.allOnes 32

/-- An unfragmented UDP packet to a local VTEP that passes the UDP checks. -/
def ToLocalVtep (b : BypassBuffer) : Prop :=
  b.isFragment = false ∧ b.protocol = ipProtocolUdp ∧ up.vtep4Check b = true ∧
    b.error up = .none

/-- The copy of the lookup agrees with the patched one, and wherever the packet
stands in a frame, the node diverts it exactly if it would be decapsulated. -/
def BypassAgrees (b : BypassBuffer) : Prop :=
  (∀ stats, (tuntermAclVxlan4FindTunnel up.toVppIp s emptyCache4 b.toVxlan4Packet stats).1
      = (vxlan4FindTunnel up.toVppIp s emptyCache4 b.toVxlan4Packet stats).1) ∧
  (ToLocalVtep up b → ∀ (frame : List BypassBuffer) (i : ℕ), frame[i]? = some b →
    (((tuntermAclIpVxlanBypassInline up s frame)[i]?.map BypassResult.next = some .tunterm) ↔
      Vxlan4Decapsulates up s b.toVxlan4Packet))

/-- What the multicast part finds is the entry under the destination key. -/
def GroupFindsSame (p : Vxlan4Packet) : Prop :=
  up.ip4AddressIsMulticast p.dstAddress = true ∧
    ∃ mdi, s.vxlan4TunnelByKey ⟨p.dstAddress.setWidth 64, p.tail⟩ = some mdi ∧
      s.vxlan4TunnelByKey ⟨addrPair mdi.localIp p.srcAddress, p.tail⟩
        = s.vxlan4TunnelByKey (key4w (ip46OfIp4 p.dstAddress) p.tail)

variable {up s}

/-- **When the two lookups agree**, in every reachable state. -/
theorem EntriesValid.lookups_eq_iff (h : EntriesValid s) (p : Vxlan4Packet) (stats : BitVec 32) :
    (tuntermAclVxlan4FindTunnel up.toVppIp s emptyCache4 p stats).1
        = (vxlan4FindTunnel up.toVppIp s emptyCache4 p stats).1 ↔
      p.flags ≠ vxlanFlagsI ∨ s.vxlan4TunnelByKey p.key4 ≠ none ∨
        s.vxlan4TunnelByKey (key4w (ip46OfIp4 p.dstAddress) p.tail) = none ∨
        GroupFindsSame up s p := by
  unfold tuntermAclVxlan4FindTunnel vxlan4FindTunnel vxlan4TryExact GroupFindsSame
  rw [dstKey4_eq_key4w]
  by_cases hf : p.flags = vxlanFlagsI
  · simp only [hf, ne_eq, not_true_eq_false, if_false, false_or]
    cases hw : s.vxlan4TunnelByKey (key4w (ip46OfIp4 p.dstAddress) p.tail) with
    | none => simp
    | some v =>
      obtain ⟨htail, hv⟩ := h.entry _ v hw
      have hkey : p.key4 ≠ emptyCache4.key := fun hk =>
        htail (congrArg Vxlan4TunnelKey.key1 hk)
      rw [if_neg hkey, if_neg hkey]
      cases s.vxlan4TunnelByKey p.key4 with
      | some di => simp
      | none => simp [vxlan4TryMulticast_eq_iff hv emptyCache4 stats]
  · simp [hf]

/-- The node diverts a packet to a local VTEP exactly if its own lookup finds a
tunnel. -/
theorem bypassPacket_tunterm {b : BypassBuffer} (hb : ToLocalVtep up b) :
    (bypassPacket up s emptyCache4 b).1.next = .tunterm ↔
      (tuntermAclVxlan4FindTunnel up.toVppIp s emptyCache4 b.toVxlan4Packet
        (BitVec.allOnes 32)).1.swIfIndex ≠ BitVec.allOnes 32 := by
  obtain ⟨hfrag, hproto, hvtep, herr⟩ := hb
  have hp : b.proto = ipProtocolUdp := by simp [BypassBuffer.proto, hfrag, hproto]
  unfold bypassPacket
  simp only [hp, ne_eq, not_true_eq_false, if_false, hvtep, Bool.not_true, Bool.false_eq_true,
    herr]
  generalize tuntermAclVxlan4FindTunnel up.toVppIp s emptyCache4 b.toVxlan4Packet
    (BitVec.allOnes 32) = out
  by_cases hsw : out.1.swIfIndex = BitVec.allOnes 32
  · rw [if_pos hsw]
    exact ⟨fun h => IpVxlanBypassNext.noConfusion h, fun h => absurd hsw h⟩
  · rw [if_neg hsw]
    exact ⟨fun _ => hsw, fun _ => rfl⟩

variable (up)

/-- **Agreement, exactly.**  In every reachable state the copy of the lookup agrees
with the patched one, and the node diverts exactly what would be decapsulated, iff
the packet has bad flags, an exact entry, no entry under its destination key, or the
group search happens to find that entry. -/
theorem bypass_agrees_iff {rs : List VxlanRequest}
    (hrun : Allowed (vxlanStep up.toVppIp) Admissible VxlanMain.init rs) (b : BypassBuffer) :
    BypassAgrees up (run (vxlanStep up.toVppIp) VxlanMain.init rs) b ↔
      b.flags ≠ vxlanFlagsI ∨
      (run (vxlanStep up.toVppIp) VxlanMain.init rs).vxlan4TunnelByKey b.key4 ≠ none ∨
      (run (vxlanStep up.toVppIp) VxlanMain.init rs).vxlan4TunnelByKey
        (key4w (ip46OfIp4 b.dstAddress) b.tail) = none ∨
      GroupFindsSame up (run (vxlanStep up.toVppIp) VxlanMain.init rs) b.toVxlan4Packet := by
  have h := entriesValid_run up.toVppIp hrun
  rw [← h.lookups_eq_iff b.toVxlan4Packet (BitVec.allOnes 32)]
  constructor
  · intro hagree
    exact hagree.1 _
  · intro heq
    refine ⟨?_, ?_⟩
    · intro stats
      rw [h.lookups_eq_iff, ← h.lookups_eq_iff b.toVxlan4Packet (BitVec.allOnes 32)]
      exact heq
    · intro hb frame i hi
      have hframe := h.bypassFrame_eq up frame (Or.inl rfl : Coherent4 _ emptyCache4)
      unfold tuntermAclIpVxlanBypassInline Vxlan4Decapsulates
      rw [hframe, List.getElem?_map, hi, ← heq]
      simpa using bypassPacket_tunterm hb

/-- VPP's tests with a VTEP check that accepts 10.0.0.1 and correct checksums. -/
def BypassUpstream.oneVtep : BypassUpstream where
  toVppIp := .vpp
  vtep4Check b := b.dstAddress = 0x0a000001
  ip4TcpUdpValidateChecksum _ := true

/-- A VXLAN packet to 10.0.0.1 on VNI 100. -/
def bypassBuffer (src : BitVec 32) : BypassBuffer where
  toVxlan4Packet := ⟨src, 0x0a000001, 4789, 0, vxlanFlagsI, vniWord 100⟩
  featureNext := 7
  isFragment := false
  protocol := ipProtocolUdp
  l4ChecksumCorrect := true
  ipLength := 100
  udpLength := 80
  udpChecksum := 0

/-- The one-tunnel history of the examples below is admissible. -/
theorem admissible_single :
    Allowed (vxlanStep .vpp) Admissible VxlanMain.init
      [decapAnyRequest true 0x0a000001 0x0a000002 0 false] := by
  refine ⟨?_, trivial⟩
  intro _
  refine ⟨⟨by decide, by decide⟩, by decide, fun i t h => ?_⟩
  simp [VxlanMain.init] at h

/-- From the tunnel's own remote 10.0.0.2 the lookups agree. -/
theorem bypass_agrees_remote :
    BypassAgrees .oneVtep
      (run (vxlanStep .vpp) VxlanMain.init [decapAnyRequest true 0x0a000001 0x0a000002 0 false])
      (bypassBuffer 0x0a000002) :=
  (bypass_agrees_iff .oneVtep admissible_single _).2 (Or.inr (Or.inl (by decide)))

/-- A packet from 192.0.2.7 to the decap-any tunnel of 10.0.0.1 is decapsulated by
the patched plugin but not diverted to `tunterm-acl`. -/
theorem otherSource_not_diverted :
    Allowed (vxlanStep .vpp) Admissible VxlanMain.init
      [decapAnyRequest true 0x0a000001 0x0a000002 0 false] ∧
    ToLocalVtep .oneVtep (bypassBuffer 0xc0000207) ∧
    Vxlan4Decapsulates .oneVtep
      (run (vxlanStep .vpp) VxlanMain.init [decapAnyRequest true 0x0a000001 0x0a000002 0 false])
      (bypassBuffer 0xc0000207).toVxlan4Packet ∧
    tuntermAclIpVxlanBypassInline .oneVtep
      (run (vxlanStep .vpp) VxlanMain.init [decapAnyRequest true 0x0a000001 0x0a000002 0 false])
      [bypassBuffer 0xc0000207] = [⟨.feature 7, .none, 0⟩] ∧
    ¬ BypassAgrees .oneVtep
      (run (vxlanStep .vpp) VxlanMain.init [decapAnyRequest true 0x0a000001 0x0a000002 0 false])
      (bypassBuffer 0xc0000207) := by
  refine ⟨admissible_single, ?_, ?_, by decide, ?_⟩
  · exact ⟨rfl, rfl, rfl, by decide⟩
  · unfold Vxlan4Decapsulates
    decide
  · rintro ⟨hlookup, -⟩
    have := hlookup 0
    revert this
    decide

end Agreement

end Vxlan
