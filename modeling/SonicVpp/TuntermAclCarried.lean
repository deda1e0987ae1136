/-
# What a redirected packet carries

A packet is redirected after two nodes: `tunterm-ip4-vxlan-bypass` takes it for VXLAN, and
`tunterm-acl` finds a rule for its inner destination.  The first finds the UDP header by
the IHL but the VXLAN header 28 bytes into the packet, and neither looks at the length.
So what they take for the inner frame need not be one: with IP options it starts elsewhere,
and in a short packet it is what an earlier packet has left in the buffer.

`redirect_sound_iff` says for which packets a redirect is right.
-/
import SonicVpp.TuntermAclSlots
import SonicVpp.TuntermBypass

open RunInvariant PacketBytes

namespace TuntermAcl

/-! ## The two nodes -/

/-- A packet as the bypass node gets it, with what VPP keeps beside its bytes. -/
structure Received extends AclBuffer where
  fibIndex : BitVec 32
  featureNext : BitVec 32
  l4ChecksumCorrect : Bool

/-- `ip4_next_header`: where the bypass node looks for the UDP header. -/
def Received.udpAt (p : Received) : ℕ := p.currentData + Ip.ip4HeaderBytes p.data p.currentData

/-- Where it looks for the VXLAN header. -/
def Received.vxlanAt (p : Received) : ℕ := p.currentData + 28

/-- The fields that the bypass node reads, as numbers in network order. -/
def Received.bypassBuffer (p : Received) : Vxlan.BypassBuffer where
  srcAddress := netU32 p.data (p.currentData + 12)
  dstAddress := netU32 p.data (p.currentData + 16)
  udpDstPort := netU16 p.data (p.udpAt + 2)
  fibIndex := p.fibIndex
  flags := p.data p.vxlanAt
  vniReserved := netU32 p.data (p.vxlanAt + 4)
  featureNext := p.featureNext
  isFragment := Ip.ip4IsFragment p.data p.currentData
  protocol := Ip.ip4Protocol p.data p.currentData
  l4ChecksumCorrect := p.l4ChecksumCorrect
  ipLength := netU16 p.data (p.currentData + 2)
  udpLength := netU16 p.data (p.udpAt + 4)
  udpChecksum := netU16 p.data (p.udpAt + 6)

/-- The length of the packet itself: the IPv4 total length, and not more than the buffer. -/
def Received.ownLength (p : Received) : ℕ :=
  min (Ip.ip4Length p.data p.currentData) p.currentLength.toNat

/-- The same packet, in a buffer that may hold other bytes behind its end. -/
structure SameOwn (p p' : Received) : Prop where
  currentData : p'.currentData = p.currentData
  currentLength : p'.currentLength = p.currentLength
  swIfIndexRx : p'.swIfIndexRx = p.swIfIndexRx
  fibIndex : p'.fibIndex = p.fibIndex
  featureNext : p'.featureNext = p.featureNext
  l4ChecksumCorrect : p'.l4ChecksumCorrect = p.l4ChecksumCorrect
  ownLength : p'.ownLength = p.ownLength
  bytes : ∀ i < p.ownLength, p'.data (p.currentData + i) = p.data (p.currentData + i)

/-- The packet holds its IPv4 header and a UDP header. -/
structure HasUdpHeader (p : Received) : Prop where
  ipHeader : 20 ≤ Ip.ip4HeaderBytes p.data p.currentData
  udpHeader : p.udpAt + 8 ≤ p.currentData + p.ownLength

/-- The checks of VPP.  That of the UDP checksum sums up the bytes of the packet itself, where
the packet holds the headers that it reads. -/
structure BypassChecks extends Vxlan.VppIp where
  vtep4Check : Vxlan.BypassBuffer → Bool
  ip4TcpUdpValidateChecksum : Received → Bool
  checksum_own : ∀ p p', HasUdpHeader p → SameOwn p p' →
    ip4TcpUdpValidateChecksum p' = ip4TcpUdpValidateChecksum p

/-- The checks as the bypass node makes them on one packet. -/
def BypassChecks.upstream (ck : BypassChecks) (p : Received) : Vxlan.BypassUpstream where
  toVppIp := ck.toVppIp
  vtep4Check := ck.vtep4Check
  ip4TcpUdpValidateChecksum := fun _ => ck.ip4TcpUdpValidateChecksum p

/-- A redirected packet: its position, its length, and where it goes. -/
structure RedirectedTo where
  currentData : ℕ
  currentLength : BitVec 16
  adjIndexTx : ℕ
  next : ℕ
  deriving DecidableEq, Repr

section Nodes

variable {FibPath : Type} (ck : BypassChecks) (vxm : Vxlan.VxlanMain)
  (cache : Vxlan.LastTunnelCache4) (s : TuntermAclMain FibPath) (nNextNodes : ℕ)

/-- The way of a packet through the bypass node and `tunterm-acl`, if it ends in a
redirect. -/
def tuntermRedirect (p : Received) : Option RedirectedTo :=
  let r := (Vxlan.bypassPacket (ck.upstream p) vxm cache p.bypassBuffer).1
  if r.next = .tunterm then
    let out := tuntermAclNode s nNextNodes (p.toAclBuffer.advance r.advance)
    if out.2.2 = .redirected then
      some ⟨out.1.currentData, out.1.currentLength, out.1.adjIndexTx, out.2.1⟩
    else none
  else none

/-- The packet passes the checks of the bypass node. -/
structure TakenForVxlan (p : Received) : Prop where
  udp : p.bypassBuffer.proto = Vxlan.ipProtocolUdp
  tunnel : (Vxlan.tuntermAclVxlan4FindTunnel ck.toVppIp vxm cache p.bypassBuffer.toVxlan4Packet
    (BitVec.allOnes 32)).1.swIfIndex ≠ BitVec.allOnes 32
  vtep : ck.vtep4Check p.bypassBuffer = true
  error : p.bypassBuffer.error (ck.upstream p) = .none

/-- The bypass node passes on the packets it takes for VXLAN, at a fixed offset. -/
theorem bypass_tunterm_iff (p : Received) :
    ((Vxlan.bypassPacket (ck.upstream p) vxm cache p.bypassBuffer).1.next = .tunterm ↔
      TakenForVxlan ck vxm cache p) ∧
    (TakenForVxlan ck vxm cache p →
      (Vxlan.bypassPacket (ck.upstream p) vxm cache p.bypassBuffer).1.advance = 28) := by
  unfold Vxlan.bypassPacket
  by_cases hudp : p.bypassBuffer.proto = Vxlan.ipProtocolUdp
  · simp only [hudp, ne_eq, not_true_eq_false, if_false,
      show (ck.upstream p).toVppIp = ck.toVppIp from rfl,
      show (ck.upstream p).vtep4Check = ck.vtep4Check from rfl]
    by_cases htun : (Vxlan.tuntermAclVxlan4FindTunnel ck.toVppIp vxm cache
        p.bypassBuffer.toVxlan4Packet (BitVec.allOnes 32)).1.swIfIndex = BitVec.allOnes 32
    · simp only [if_pos htun]
      exact ⟨iff_of_false (by simp) fun h => h.tunnel htun, fun h => absurd htun h.tunnel⟩
    · simp only [if_neg htun]
      cases hvtep : ck.vtep4Check p.bypassBuffer with
      | false =>
        simp only [Bool.not_false, if_true]
        refine ⟨iff_of_false (by simp) fun h => ?_, fun h => ?_⟩ <;>
        · have hv := h.vtep
          rw [hvtep] at hv
          cases hv
      | true =>
        simp only [Bool.not_true, Bool.false_eq_true, if_false]
        by_cases herr : p.bypassBuffer.error (ck.upstream p) = .none
        · exact ⟨iff_of_true (by simp [herr]) ⟨hudp, htun, hvtep, herr⟩, fun _ => trivial⟩
        · exact ⟨iff_of_false (by simp [herr]) fun h => herr h.error, fun _ => trivial⟩
  · simp only [hudp, ne_eq, not_false_eq_true, if_true]
    exact ⟨iff_of_false (by simp) fun h => hudp h.udp, fun h => absurd h.udp hudp⟩

/-- A tunnel is found only where the VXLAN header is looked for. -/
theorem TakenForVxlan.flags {p : Received} (h : TakenForVxlan ck vxm cache p) :
    p.data p.vxlanAt = Vxlan.vxlanFlagsI := by
  by_contra hne
  refine h.tunnel ?_
  have hflags : p.bypassBuffer.flags ≠ Vxlan.vxlanFlagsI := hne
  rw [Vxlan.tuntermAclVxlan4FindTunnel, Vxlan.vxlan4TryExact, if_pos hflags]
  rfl

/-! ## Rules of attached ACLs -/

/-- What is attached to the interfaces are ACLs of the right family. -/
def AclsAttached (s : TuntermAclMain FibPath) : Prop :=
  ∀ f i, s.slot f i = invalidIndex ∨ ∃ T, TableOk s.redirect (s.slot f i) f T

theorem SlotsLive.aclsAttached {w : AclWorld FibPath} (h : SlotsLive w) :
    AclsAttached w.main := by
  intro f i
  exact (h.slot f i).imp_right fun hlive => h.inv.table _ f hlive

/-- The ACL attached to an interface for a family has a rule for `d`, with session `e`. -/
def RuleFor (isIpv6 : Bool) (swIfIndex : ℕ) (d : List (BitVec 8)) (e : ClassifyEntry) : Prop :=
  s.slot isIpv6 swIfIndex ≠ invalidIndex ∧
    (s.redirect.tables (s.slot isIpv6 swIfIndex)).bind (·.sessions (matchOf isIpv6 d)) = some e

variable {s}

/-- A lookup with a rule. -/
theorem lookup_of_rule (hs : AclsAttached s) {b : AclBuffer} {tagged f : Bool} {o i : ℕ}
    {e : ClassifyEntry} (hrule : RuleFor s f i (bytesAt b.data o (bytesMatched f)) e) :
    tuntermAclLookup s nNextNodes b tagged (s.slot f i) o
      = (redirectBuffer b tagged e,
          if e.nextIndex < nNextNodes then e.nextIndex else nextVxlan4Input, .redirected) := by
  obtain ⟨hidx, he⟩ := hrule
  obtain ⟨T, hT⟩ := (hs f i).resolve_left hidx
  rw [hT.table, Option.bind_some] at he
  unfold tuntermAclLookup
  rw [if_neg hidx, hT.table, Option.bind_some, findEntry_bytesAt hT.mask, he]
  simp only [(hT.plain _ e he).1, if_true]

/-- A lookup that ends in a redirect has found a rule. -/
theorem rule_of_lookup (hs : AclsAttached s) {b : AclBuffer} {tagged f : Bool} {o i : ℕ}
    (h : (tuntermAclLookup s nNextNodes b tagged (s.slot f i) o).2.2 = .redirected) :
    ∃ e, RuleFor s f i (bytesAt b.data o (bytesMatched f)) e := by
  unfold tuntermAclLookup at h
  by_cases hidx : s.slot f i = invalidIndex
  · rw [if_pos hidx] at h
    cases h
  · obtain ⟨T, hT⟩ := (hs f i).resolve_left hidx
    rw [if_neg hidx, hT.table, Option.bind_some, findEntry_bytesAt hT.mask] at h
    cases he : T.sessions (matchOf f (bytesAt b.data o (bytesMatched f))) with
    | none => rw [he] at h; cases h
    | some e => exact ⟨e, hidx, by rw [hT.table, Option.bind_some, he]⟩

/-- A redirect needs an inner frame at the offsets of the node. -/
theorem inner_of_redirected {b : AclBuffer}
    (h : (tuntermAclNode s nNextNodes b).2.2 = .redirected) :
    ∃ tagged f, InnerPacket b.data b.currentData tagged f
      (bytesAt b.data (innerIpAt b.currentData tagged + dipOffset f) (bytesMatched f)) := by
  have htag : netU16 b.data (b.currentData + vxlanHeaderSize + 12) = 0x8100 ↔
      decide (netU16 b.data (b.currentData + vxlanHeaderSize + 12) = 0x8100) = true := by simp
  generalize decide (netU16 b.data (b.currentData + vxlanHeaderSize + 12) = 0x8100) = tagged at htag
  by_contra hno
  have hother := tuntermAclNode_other s nNextNodes htag fun f hety =>
    hno ⟨tagged, f, htag, hety, rfl⟩
  rw [hother] at h
  cases h

/-- Where a redirected packet goes. -/
def redirectedTo (p : Received) (tagged : Bool) (e : ClassifyEntry) : RedirectedTo where
  currentData := innerIpAt p.vxlanAt tagged
  currentLength := p.currentLength - BitVec.ofNat 16 (innerIpAt 28 tagged)
  adjIndexTx := e.metadata
  next := if e.nextIndex < nNextNodes then e.nextIndex else nextVxlan4Input

/-- **When the two nodes redirect a packet, and where to.** -/
theorem tuntermRedirect_eq_some_iff (hs : AclsAttached s) (p : Received) (r : RedirectedTo) :
    tuntermRedirect ck vxm cache s nNextNodes p = some r ↔
      TakenForVxlan ck vxm cache p ∧ ∃ tagged f d e, InnerPacket p.data p.vxlanAt tagged f d ∧
        RuleFor s f p.swIfIndexRx d e ∧ r = redirectedTo nNextNodes p tagged e := by
  obtain ⟨htaken, hadv⟩ := bypass_tunterm_iff ck vxm cache p
  unfold tuntermRedirect
  by_cases hp : TakenForVxlan ck vxm cache p
  · simp only [if_pos (htaken.2 hp), hadv hp, hp, true_and]
    -- the buffer that the second node gets
    have hdata : (p.toAclBuffer.advance 28).data = p.data := rfl
    have hcur : (p.toAclBuffer.advance 28).currentData = p.vxlanAt := rfl
    have hout : ∀ {tagged f d e}, InnerPacket p.data p.vxlanAt tagged f d →
        RuleFor s f p.swIfIndexRx d e →
        tuntermAclNode s nNextNodes (p.toAclBuffer.advance 28)
          = (redirectBuffer (p.toAclBuffer.advance 28) tagged e,
              if e.nextIndex < nNextNodes then e.nextIndex else nextVxlan4Input,
              .redirected) := by
      intro tagged f d e hin hrule
      rw [tuntermAclNode_inner s nNextNodes (b := p.toAclBuffer.advance 28) hin]
      exact lookup_of_rule nNextNodes hs (hin.dst.symm ▸ hrule)
    have hto : ∀ tagged e, (⟨(redirectBuffer (p.toAclBuffer.advance 28) tagged e).currentData,
        (redirectBuffer (p.toAclBuffer.advance 28) tagged e).currentLength,
        (redirectBuffer (p.toAclBuffer.advance 28) tagged e).adjIndexTx,
        if e.nextIndex < nNextNodes then e.nextIndex else nextVxlan4Input⟩ : RedirectedTo)
          = redirectedTo nNextNodes p tagged e := by
      intro tagged e
      rw [redirectBuffer_currentData, redirectBuffer_currentLength]
      unfold redirectedTo
      rw [RedirectedTo.mk.injEq]
      refine ⟨rfl, ?_, by cases tagged <;> rfl, rfl⟩
      cases tagged <;>
      · simp only [AclBuffer.advance, innerIpAt, vxlanHeaderSize, ethernetHeaderSize,
          ethernetVlanHeaderSize, Bool.false_eq_true, if_false, if_true]
        bv_omega
    constructor
    · intro h
      by_cases hred : (tuntermAclNode s nNextNodes (p.toAclBuffer.advance 28)).2.2 = .redirected
      · rw [if_pos hred] at h
        obtain ⟨tagged, f, hin⟩ := inner_of_redirected nNextNodes hred
        rw [tuntermAclNode_inner s nNextNodes hin] at hred
        obtain ⟨e, hrule⟩ := rule_of_lookup nNextNodes hs hred
        refine ⟨tagged, f, _, e, hin, hrule, ?_⟩
        rw [hout hin hrule] at h
        exact (Option.some.inj h).symm.trans (hto tagged e)
      · rw [if_neg hred] at h
        cases h
    · rintro ⟨tagged, f, d, e, hin, hrule, rfl⟩
      rw [hout hin hrule, if_pos rfl]
      exact congrArg some (hto tagged e)
  · simp only [if_neg fun h => hp (htaken.1 h), hp, false_and, reduceCtorEq]

end Nodes

/-! ## Right redirects -/

/-- The size of an IP header without options or extension headers. -/
def ipHeaderSize (isIpv6 : Bool) : ℕ := if isIpv6 then Ip.ip6HeaderSize else Ip.ip4HeaderSize

/-- Within its own bytes the packet is an IPv4 header with its options, UDP, VXLAN,
Ethernet with at most one tag, and an IP header of the family with destination `d`. -/
structure Parses (p : Received) (tagged isIpv6 : Bool) (d : List (BitVec 8)) : Prop where
  header : Ip.ip4HeaderSize ≤ Ip.ip4HeaderBytes p.data p.currentData
  udp : p.bypassBuffer.proto = Vxlan.ipProtocolUdp
  vxlan : p.data (p.udpAt + 8) = Vxlan.vxlanFlagsI
  inner : InnerPacket p.data (p.udpAt + 8) tagged isIpv6 d
  fits : innerIpAt (p.udpAt + 8) tagged + ipHeaderSize isIpv6 ≤ p.currentData + p.ownLength

section Sound

variable {FibPath : Type} (ck : BypassChecks) (vxm : Vxlan.VxlanMain)
  (cache : Vxlan.LastTunnelCache4) (s : TuntermAclMain FibPath) (nNextNodes : ℕ)

/-- If the packet is redirected, then for the inner destination it carries, to the inner
header it carries, and with the length that is left from there. -/
def RedirectSound (p : Received) : Prop :=
  ∀ r, tuntermRedirect ck vxm cache s nNextNodes p = some r →
    ∃ tagged f d e, Parses p tagged f d ∧ RuleFor s f p.swIfIndexRx d e ∧
      r.currentData = innerIpAt (p.udpAt + 8) tagged ∧
      r.currentLength.toNat + (innerIpAt (p.udpAt + 8) tagged - p.currentData)
        = p.currentLength.toNat

/-- What the nodes take for an inner frame with a rule is one: the IPv4 header has no
options, or one word of them and the source address of the inner frame looks like a tag;
and the inner header ends within the packet. -/
def WellPlaced (p : Received) : Prop :=
  ∀ tagged f d e, TakenForVxlan ck vxm cache p → InnerPacket p.data p.vxlanAt tagged f d →
    RuleFor s f p.swIfIndexRx d e →
    (Ip.ip4HeaderBytes p.data p.currentData = 20 ∨
      Ip.ip4HeaderBytes p.data p.currentData = 24 ∧ tagged = true ∧
        p.data (p.currentData + 32) = Vxlan.vxlanFlagsI) ∧
    innerIpAt 28 tagged + ipHeaderSize f ≤ p.ownLength

variable {ck vxm cache s nNextNodes}

/-- The two ethertypes are not tags, and not the same. -/
theorem ethertypeOf_ne (f : Bool) : ethertypeOf f ≠ 0x8100 := by
  cases f <;> decide

theorem ethertypeOf_inj {f f' : Bool} (h : ethertypeOf f = ethertypeOf f') : f = f' := by
  cases f <;> cases f' <;> first | rfl | exact absurd h (by decide)

/-- The inner frame at the fixed offset, with the tag that one word of options leaves. -/
theorem innerPacket_options {data : Mem} {ip : ℕ} {f : Bool} {d : List (BitVec 8)}
    (h : InnerPacket data (ip + 28) true f d) : InnerPacket data (ip + 32) false f d := by
  obtain ⟨-, hety, hdst⟩ := h
  refine ⟨?_, hety, hdst⟩
  have hsame : netU16 data (ip + 32 + vxlanHeaderSize + 12) = ethertypeOf f := hety
  rw [hsame]
  exact iff_of_false (ethertypeOf_ne f) (by simp)

/-- The length that is left. -/
theorem toNat_sub_ofNat {x : BitVec 16} {n : ℕ} (h : n ≤ x.toNat) :
    (x - BitVec.ofNat 16 n).toNat + n = x.toNat := by
  have hx := x.isLt
  rw [BitVec.toNat_sub, BitVec.toNat_ofNat]
  omega

/-- A well placed packet is redirected for what it carries. -/
theorem WellPlaced.sound (hs : AclsAttached s) {p : Received} (h : WellPlaced ck vxm cache s p) :
    RedirectSound ck vxm cache s nNextNodes p := by
  intro r hr
  obtain ⟨htaken, tagged, f, d, e, hin, hrule, rfl⟩ :=
    (tuntermRedirect_eq_some_iff ck vxm cache nNextNodes hs p r).1 hr
  obtain ⟨hplace, hfits⟩ := h tagged f d e htaken hin hrule
  have hown : p.ownLength ≤ p.currentLength.toNat := min_le_right _ _
  have hlen := toNat_sub_ofNat (x := p.currentLength) (n := innerIpAt 28 tagged)
    (by unfold innerIpAt at hfits ⊢; omega)
  rcases hplace with h20 | ⟨h24, rfl, hflags⟩
  · -- without options both nodes look at the same place
    have hvx : p.udpAt + 8 = p.vxlanAt := by
      rw [Received.udpAt, h20, Received.vxlanAt]
    have hip : innerIpAt p.vxlanAt tagged = p.currentData + innerIpAt 28 tagged := by
      simp only [innerIpAt, Received.vxlanAt]
      omega
    refine ⟨tagged, f, d, e, ⟨h20.ge, htaken.udp, ?_, ?_, ?_⟩, hrule, ?_, ?_⟩
    · rw [hvx]
      exact htaken.flags ck vxm cache
    · rw [hvx]
      exact hin
    · rw [hvx, hip]
      omega
    · rw [hvx]
      rfl
    · rw [hvx, hip, Nat.add_sub_cancel_left]
      exact hlen
  · -- with four bytes of options the plugin reads as if there were a tag
    have hvx : p.udpAt + 8 = p.currentData + 32 := by
      rw [Received.udpAt, h24]
    have hip : innerIpAt (p.currentData + 32) false = p.currentData + innerIpAt 28 true := by
      simp only [innerIpAt, ethernetVlanHeaderSize, Bool.false_eq_true, if_false, if_true]
      omega
    refine ⟨false, f, d, e, ⟨by rw [h24]; decide, htaken.udp, ?_, ?_, ?_⟩, hrule, ?_, ?_⟩
    · rw [hvx]
      exact hflags
    · rw [hvx]
      exact innerPacket_options hin
    · rw [hvx, hip]
      omega
    · rw [hvx, hip]
      simp only [redirectedTo, innerIpAt, Received.vxlanAt]
      omega
    · rw [hvx, hip, Nat.add_sub_cancel_left]
      exact hlen

/-- A packet that is only redirected for what it carries is well placed. -/
theorem RedirectSound.wellPlaced (hs : AclsAttached s) {p : Received}
    (h : RedirectSound ck vxm cache s nNextNodes p) : WellPlaced ck vxm cache s p := by
  intro tagged f d e htaken hin hrule
  obtain ⟨tagged', f', d', e', hparse, -, hpos, hlen⟩ :=
    h _ ((tuntermRedirect_eq_some_iff ck vxm cache nNextNodes hs p _).2
      ⟨htaken, tagged, f, d, e, hin, hrule, rfl⟩)
  -- the two parses end at the same inner header, so its ethertype is the same
  have hpos' : innerIpAt (p.udpAt + 8) tagged' = innerIpAt p.vxlanAt tagged := hpos.symm
  have hf : f' = f := by
    have hety := hparse.inner.ethertype
    rw [hpos', hin.ethertype] at hety
    exact (ethertypeOf_inj hety).symm
  subst hf
  have hhead := hparse.header
  have hvx := hparse.vxlan
  have hfits := hparse.fits
  rw [hpos'] at hfits
  refine ⟨?_, ?_⟩
  · simp only [innerIpAt, Received.udpAt, Received.vxlanAt, ethernetVlanHeaderSize,
      Ip.ip4HeaderSize] at hpos' hhead
    cases tagged with
    | false =>
      refine Or.inl ?_
      simp only [Bool.false_eq_true, if_false] at hpos'
      omega
    | true =>
      cases tagged' with
      | true =>
        refine Or.inl ?_
        omega
      | false =>
        simp only [Bool.false_eq_true, if_false, if_true] at hpos'
        have h24 : Ip.ip4HeaderBytes p.data p.currentData = 24 := by omega
        refine Or.inr ⟨h24, rfl, ?_⟩
        rwa [Received.udpAt, h24] at hvx
  · simp only [innerIpAt, Received.vxlanAt] at hfits ⊢
    omega

/-! ## Bytes behind the end -/

theorem SameOwn.symm {p p' : Received} (h : SameOwn p p') : SameOwn p' p where
  currentData := h.currentData.symm
  currentLength := h.currentLength.symm
  swIfIndexRx := h.swIfIndexRx.symm
  fibIndex := h.fibIndex.symm
  featureNext := h.featureNext.symm
  l4ChecksumCorrect := h.l4ChecksumCorrect.symm
  ownLength := h.ownLength.symm
  bytes := by
    rw [h.currentData, h.ownLength]
    exact fun i hi => (h.bytes i hi).symm

section Own

variable {p p' : Received} (h : SameOwn p p') {i : ℕ}
include h

theorem SameOwn.byte (hi : p.currentData ≤ i) (hi' : i < p.currentData + p.ownLength) :
    p'.data i = p.data i := by
  have hb := h.bytes (i - p.currentData) (by omega)
  rwa [Nat.add_sub_cancel' hi] at hb

theorem SameOwn.netU16 (hi : p.currentData ≤ i) (hi' : i + 2 ≤ p.currentData + p.ownLength) :
    netU16 p'.data i = netU16 p.data i :=
  netU16_congr fun k hk => h.byte (by omega) (by omega)

theorem SameOwn.netU32 (hi : p.currentData ≤ i) (hi' : i + 4 ≤ p.currentData + p.ownLength) :
    netU32 p'.data i = netU32 p.data i :=
  netU32_congr fun k hk => h.byte (by omega) (by omega)

/-- The bypass node reads the same fields if they are all within the packet. -/
theorem SameOwn.bypassBuffer (hhead : Ip.ip4HeaderBytes p.data p.currentData ≤ 24)
    (hown : 36 ≤ p.ownLength) : p'.bypassBuffer = p.bypassBuffer := by
  have hcur := h.currentData
  have h0 : p'.data p.currentData = p.data p.currentData := h.byte le_rfl (by omega)
  have hudp : p'.udpAt = p.udpAt := by
    simp only [Received.udpAt, Ip.ip4HeaderBytes, hcur, h0]
  have hudp' : p.currentData ≤ p.udpAt ∧ p.udpAt + 8 ≤ p.currentData + p.ownLength := by
    unfold Received.udpAt
    omega
  unfold Received.bypassBuffer Received.vxlanAt Ip.ip4IsFragment Ip.ip4Protocol
  simp only [hudp, hcur, h.fibIndex, h.featureNext, h.l4ChecksumCorrect]
  rw [h.netU32 (i := p.currentData + 12) (by omega) (by omega),
    h.netU32 (i := p.currentData + 16) (by omega) (by omega),
    h.netU32 (i := p.currentData + 28 + 4) (by omega) (by omega),
    h.netU16 (i := p.currentData + 2) (by omega) (by omega),
    h.netU16 (i := p.currentData + 6) (by omega) (by omega),
    h.netU16 (i := p.udpAt + 2) (by omega) (by omega),
    h.netU16 (i := p.udpAt + 4) (by omega) (by omega),
    h.netU16 (i := p.udpAt + 6) (by omega) (by omega),
    h.byte (i := p.currentData + 28) (by omega) (by omega),
    h.byte (i := p.currentData + 9) (by omega) (by omega)]

/-- The second node reads the same inner frame if its fixed header is within the packet. -/
theorem SameOwn.innerPacket {tagged f : Bool} {d : List (BitVec 8)}
    (hin : InnerPacket p.data p.vxlanAt tagged f d)
    (hfits : innerIpAt 28 tagged + ipHeaderSize f ≤ p.ownLength) :
    InnerPacket p'.data p'.vxlanAt tagged f d := by
  have hvx : p'.vxlanAt = p.currentData + 28 := by rw [Received.vxlanAt, h.currentData]
  have hip : innerIpAt (p.currentData + 28) tagged = p.currentData + innerIpAt 28 tagged := by
    simp only [innerIpAt]
    omega
  have h50 : 50 ≤ innerIpAt 28 tagged := by
    simp only [innerIpAt, vxlanHeaderSize, ethernetHeaderSize]
    omega
  have hdip : dipOffset f + bytesMatched f = ipHeaderSize f := by cases f <;> rfl
  obtain ⟨htag, hety, hdst⟩ := hin
  rw [hvx]
  refine ⟨?_, ?_, ?_⟩
  · rw [h.netU16 (by omega) (by simp only [vxlanHeaderSize]; omega)]
    exact htag
  · rw [h.netU16 (by omega) (by omega)]
    exact hety
  · rw [← hdst]
    refine bytesAt_eq_iff.2 fun k hk => h.byte ?_ ?_
    · rw [hip]
      omega
    · rw [hip]
      omega

/-- A well placed packet that is redirected is redirected whatever is behind its end. -/
theorem SameOwn.redirect (hs : AclsAttached s) (hw : WellPlaced ck vxm cache s p)
    {r : RedirectedTo} (hr : tuntermRedirect ck vxm cache s nNextNodes p = some r) :
    tuntermRedirect ck vxm cache s nNextNodes p' = some r := by
  obtain ⟨htaken, tagged, f, d, e, hin, hrule, rfl⟩ :=
    (tuntermRedirect_eq_some_iff ck vxm cache nNextNodes hs p r).1 hr
  obtain ⟨hplace, hfits⟩ := hw tagged f d e htaken hin hrule
  -- all that the first node reads lies in the packet's own bytes
  have hb : p'.bypassBuffer = p.bypassBuffer := by
    refine h.bypassBuffer ?_ ?_
    · rcases hplace with h20 | ⟨h24, -⟩ <;> omega
    · simp only [innerIpAt, vxlanHeaderSize, ethernetHeaderSize] at hfits
      omega
  have hheader : HasUdpHeader p := by
    have hudp : p.udpAt = p.currentData + Ip.ip4HeaderBytes p.data p.currentData := rfl
    simp only [innerIpAt, vxlanHeaderSize, ethernetHeaderSize] at hfits
    rcases hplace with h20 | ⟨h24, -⟩
    · exact ⟨by omega, by omega⟩
    · exact ⟨by omega, by omega⟩
  have hup : ck.upstream p' = ck.upstream p := by
    unfold BypassChecks.upstream
    rw [ck.checksum_own p p' hheader h]
  have htaken' : TakenForVxlan ck vxm cache p' := by
    obtain ⟨hudp, htun, hvtep, herr⟩ := htaken
    constructor
    · rw [hb]
      exact hudp
    · rw [hb]
      exact htun
    · rw [hb]
      exact hvtep
    · rw [hb, hup]
      exact herr
  refine (tuntermRedirect_eq_some_iff ck vxm cache nNextNodes hs p' _).2
    ⟨htaken', tagged, f, d, e, h.innerPacket hin hfits, ?_, ?_⟩
  · rw [h.swIfIndexRx]
    exact hrule
  · unfold redirectedTo Received.vxlanAt
    rw [h.currentData, h.currentLength]

end Own

/-! ## Every run, every packet -/

/-- **When a redirect is right.**  With the ACLs of any run of requests on live ACLs and
any tunnels, a packet is redirected only for what it carries exactly if it is well placed.
For well placed packets the bytes behind the end make no difference. -/
theorem redirect_sound_iff {ApiPath : Type} (up : Upstream ApiPath FibPath)
    (tables : ℕ → Option ClassifyTable) {es : List (AclEvent ApiPath)}
    (hrun : Allowed (aclStep up) (fun w e => Admissible w e ∧ NamesLive w e)
      (AclWorld.init tables) es)
    (ck : BypassChecks) (vxm : Vxlan.VxlanMain) (cache : Vxlan.LastTunnelCache4)
    (nNextNodes : ℕ) :
    let s := (run (aclStep up) (AclWorld.init tables) es).main
    (∀ p, RedirectSound ck vxm cache s nNextNodes p ↔ WellPlaced ck vxm cache s p) ∧
    ∀ p p', SameOwn p p' → WellPlaced ck vxm cache s p → WellPlaced ck vxm cache s p' →
      tuntermRedirect ck vxm cache s nNextNodes p'
        = tuntermRedirect ck vxm cache s nNextNodes p := by
  have hlive : SlotsLive (run (aclStep up) (AclWorld.init tables) es) := by
    refine run_invariant (aclStep up) _ SlotsLive ?_ (slotsLive_init tables) hrun
    intro w e h he
    exact slotsLive_step up h he.1 he.2
  have hs := hlive.aclsAttached
  refine ⟨fun p => ⟨fun h => h.wellPlaced hs, fun h => h.sound hs⟩, fun p p' hsame hw hw' => ?_⟩
  cases hr : tuntermRedirect ck vxm cache _ nNextNodes p with
  | some r => exact hsame.redirect hs hw hr
  | none =>
    cases hr' : tuntermRedirect ck vxm cache _ nNextNodes p' with
    | none => rfl
    | some r =>
      rw [hsame.symm.redirect hs hw' hr'] at hr
      cases hr

end Sound

/-- An ACL with a rule for 10.0.0.1 on interface 1. -/
def oneAttachedRun : List (AclEvent (Option ℕ)) :=
  [.createInterface 1,
    .addReplace ⟨invalidIndex, false, 1, [⟨⟨0, [10, 0, 0, 1]⟩, some 7⟩]⟩ ⟨.ok 5, fun _ => none⟩,
    .interfaceAddDel true 1 5 none]

theorem allowed_oneAttachedRun :
    Allowed (aclStep plainFib) (fun w e => Admissible w e ∧ NamesLive w e)
      (AclWorld.init fun _ => none) oneAttachedRun := by
  refine ⟨⟨rfl, trivial⟩, ⟨?_, fun h => absurd rfl h⟩, ⟨trivial, nofun⟩, trivial⟩
  intro i hi
  obtain rfl : 5 = i := Option.some.inj hi
  exact ⟨rfl, by decide⟩

/-- The VTEP 10.0.0.1 and correct checksums. -/
def oneVtepChecks : BypassChecks where
  toVppIp := .vpp
  vtep4Check b := b.dstAddress = 0x0a000001
  ip4TcpUdpValidateChecksum _ := true
  checksum_own _ _ _ _ := rfl

/-- The tunnel from 10.0.0.2 to 10.0.0.1 on VNI 100. -/
def oneTunnel : Vxlan.VxlanMain :=
  run (Vxlan.vxlanStep .vpp) Vxlan.VxlanMain.init
    [Vxlan.decapAnyRequest true 0x0a000001 0x0a000002 0 false]

/-- A packet through the tunnel, with an inner frame to 10.0.0.1; its length is that of
the header field and of the buffer, whatever bytes follow. -/
def tunnelPacket (length : BitVec 8) : Received where
  data := ofList ([0x45, 0, 0, length, 0, 0, 0, 0, 64, 17, 0, 0, 10, 0, 0, 2, 10, 0, 0, 1] ++
    [0x30, 0x39, 0x12, 0xb5, 0, 16, 0, 0] ++ [8, 0, 0, 0, 0, 0, 100, 0] ++
    [0, 0, 0, 0, 0, 0, 0, 0, 0, 0, 0, 0, 8, 0] ++
    [0x45, 0, 0, 20, 0, 0, 0, 0, 64, 17, 0, 0, 10, 0, 0, 9, 10, 0, 0, 1])
  currentData := 0
  currentLength := length.setWidth 16
  swIfIndexRx := 1
  adjIndexTx := 0
  fibIndex := 0
  featureNext := 0
  l4ChecksumCorrect := true

/-- A packet of 36 bytes that ends with its VXLAN header is redirected for the frame that
happens to be behind it. -/
theorem short_packet_redirected :
    tuntermRedirect oneVtepChecks oneTunnel Vxlan.emptyCache4
        (run (aclStep plainFib) (AclWorld.init fun _ => none) oneAttachedRun).main 4
        (tunnelPacket 36) = some ⟨50, 65522, 7, 2⟩ ∧
      ¬ RedirectSound oneVtepChecks oneTunnel Vxlan.emptyCache4
        (run (aclStep plainFib) (AclWorld.init fun _ => none) oneAttachedRun).main 4
        (tunnelPacket 36) := by
  have hr : tuntermRedirect oneVtepChecks oneTunnel Vxlan.emptyCache4
      (run (aclStep plainFib) (AclWorld.init fun _ => none) oneAttachedRun).main 4
      (tunnelPacket 36) = some ⟨50, 65522, 7, 2⟩ := by decide
  refine ⟨hr, fun hsound => ?_⟩
  obtain ⟨tagged, f, d, e, hparse, -⟩ := hsound _ hr
  have hfits := hparse.fits
  have hudp : (tunnelPacket 36).udpAt = 20 := by decide
  have hown : (tunnelPacket 36).ownLength = 36 := by decide
  rw [hudp, hown] at hfits
  simp only [innerIpAt, vxlanHeaderSize, ethernetHeaderSize, tunnelPacket] at hfits
  omega

/-- The whole packet of 70 bytes is redirected for what it carries. -/
theorem redirect_sound_whole :
    RedirectSound oneVtepChecks oneTunnel Vxlan.emptyCache4
      (run (aclStep plainFib) (AclWorld.init fun _ => none) oneAttachedRun).main 4
      (tunnelPacket 70) := by
  refine ((redirect_sound_iff plainFib (fun _ => none) allowed_oneAttachedRun oneVtepChecks
    oneTunnel Vxlan.emptyCache4 4).1 (tunnelPacket 70)).2 ?_
  intro tagged f d e _ hin _
  have htag : tagged = false := by
    cases tagged with
    | false => rfl
    | true => exact absurd (hin.tag.2 rfl) (by decide)
  subst htag
  have hf : f = false := by
    cases f with
    | false => rfl
    | true => exact absurd hin.ethertype (by decide)
  subst hf
  exact ⟨Or.inl (by decide), by decide⟩

end TuntermAcl
