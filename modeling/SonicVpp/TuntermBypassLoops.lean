/-
# The loops of the `tunterm-ip4-vxlan-bypass` node

`tunterm_acl_ip_vxlan_bypass_inline` has the body for a packet three times, twice in the
dual loop and once in the single loop, word for word.  Two caches go from packet to packet:
`last4` with the last tunnel that was found, and `last_vtep4` for `vtep4_check`.  Both start
as all ones, which is also a key.

`vtep4_check` and its table are not in the repository, nor are the macros that get room in
the next frame and enqueue packets: parameters.
-/
import SonicVpp.TuntermBypass
import SonicVpp.BatchedLoop

open BatchedLoop RunInvariant

namespace Vxlan

/-! ## The body -/

/-- `vtep4_check` with its cache, and `vtep4_key_init`. -/
structure VtepCheck (κ : Type) where
  init : κ
  check : κ → BypassBuffer → Bool × κ

/-- The check is a membership test for the packets of a frame, and its cache only short-cuts
it: there are caches, the first one among them, with which it always says the same. -/
def VtepCheck.ShortCuts {κ : Type} (vtep : VtepCheck κ) (member : BypassBuffer → Bool)
    (frame : List BypassBuffer) : Prop :=
  ∃ Holds : κ → Prop, Holds vtep.init ∧ ∀ last, Holds last → ∀ b ∈ frame,
    (vtep.check last b).1 = member b ∧ Holds (vtep.check last b).2

section Node

variable {κ : Type} (up : BypassUpstream) (vxm : VxlanMain) (vtep : VtepCheck κ)

/-- One packet, with `last4` and `last_vtep4`. -/
def bypassBody (last : LastTunnelCache4 × κ) (b : BypassBuffer) :
    BypassResult × LastTunnelCache4 × κ :=
  let keep : BypassResult := ⟨.feature b.featureNext, .none, 0⟩
  if b.proto ≠ ipProtocolUdp then (keep, last)
  else
    let (di, last4, _) := tuntermAclVxlan4FindTunnel up.toVppIp vxm last.1 b.toVxlan4Packet
      (BitVec.allOnes 32)
    if di.swIfIndex = BitVec.allOnes 32 then (keep, last4, last.2)
    else
      let (pass, lastVtep4) := vtep.check last.2 b
      if !pass then (keep, last4, lastVtep4)
      else
        let error := b.error up
        (⟨if error ≠ .none then .drop else .tunterm, error, 20 + 8⟩, last4, lastVtep4)

/-- The caches at the start of a frame. -/
def freshCaches : LastTunnelCache4 × κ := (emptyCache4, vtep.init)

/-- `tunterm_acl_ip_vxlan_bypass_inline` for IPv4: what becomes of each packet. -/
def bypassLoops (rooms : Rooms) (fuel : ℕ) (frame : List BypassBuffer) :
    Option (List BypassResult) :=
  frameLoop (bypassBody up vxm vtep) rooms fuel (freshCaches vtep) frame

/-! ## The caches do not matter -/

variable {up vxm}

/-- The broadcast address and the other fields all ones: the key of an empty cache. -/
theorem dstAddress_of_emptyKey {p : Vxlan4Packet} (h : p.key4 = emptyCache4.key) :
    p.dstAddress = BitVec.allOnes 32 := by
  have hpair : addrPair p.dstAddress p.srcAddress
      = addrPair (BitVec.allOnes 32) (BitVec.allOnes 32) :=
    (congrArg Vxlan4TunnelKey.key0 h).trans (by decide)
  exact (addrPair_inj hpair).1

/-- Whether a tunnel is found does not depend on what the cache holds. -/
theorem found_eq_fresh (hbroadcast : up.ip4AddressIsMulticast (BitVec.allOnes 32) = false)
    (hones : vxm.vxlan4TunnelByKey emptyCache4.key = none) {cache : LastTunnelCache4}
    (hcache : Coherent4 vxm.vxlan4TunnelByKey cache) (p : Vxlan4Packet) (stats : BitVec 32) :
    (tuntermAclVxlan4FindTunnel up.toVppIp vxm cache p stats).1.swIfIndex
      = (tuntermAclVxlan4FindTunnel up.toVppIp vxm emptyCache4 p stats).1.swIfIndex := by
  -- the cache is the empty one, or holds an entry of the map
  rcases hcache with rfl | hentry
  · rfl
  · unfold tuntermAclVxlan4FindTunnel vxlan4TryExact
    by_cases hflags : p.flags ≠ vxlanFlagsI
    · rw [if_pos hflags, if_pos hflags]
    · rw [if_neg hflags, if_neg hflags]
      by_cases hempty : p.key4 = emptyCache4.key
      · -- a hit in the empty cache, and a miss in the map: no tunnel either way
        have hmiss : p.key4 ≠ cache.key := by
          intro heq
          rw [← heq, hempty, hones] at hentry
          cases hentry
        rw [if_pos hempty, if_neg hmiss, hempty, hones]
        unfold vxlan4TryMulticast
        rw [dstAddress_of_emptyKey hempty, hbroadcast]
        rfl
      · rw [if_neg hempty]
        by_cases hhit : p.key4 = cache.key
        · rw [if_pos hhit, hhit, hentry]
        · rw [if_neg hhit]
          cases vxm.vxlan4TunnelByKey p.key4 with
          | some di => rfl
          | none => rw [vxlan4TryMulticast_fst up.toVppIp cache emptyCache4]

/-- **A packet is treated as with fresh caches**, and leaves caches that hold what they may. -/
theorem bypassBody_eq_fresh
    (hbroadcast : up.ip4AddressIsMulticast (BitVec.allOnes 32) = false)
    (hones : vxm.vxlan4TunnelByKey emptyCache4.key = none) {Holds : κ → Prop}
    {member : BypassBuffer → Bool} {b : BypassBuffer}
    (hcheck : ∀ last, Holds last →
      (vtep.check last b).1 = member b ∧ Holds (vtep.check last b).2)
    (hinit : Holds vtep.init) {last : LastTunnelCache4 × κ}
    (hlast : Coherent4 vxm.vxlan4TunnelByKey last.1 ∧ Holds last.2) :
    (bypassBody up vxm vtep last b).1 = (bypassBody up vxm vtep (freshCaches vtep) b).1 ∧
      Coherent4 vxm.vxlan4TunnelByKey (bypassBody up vxm vtep last b).2.1 ∧
      Holds (bypassBody up vxm vtep last b).2.2 := by
  -- a tunnel is found with the one cache if and only if it is with the other
  have hfound := found_eq_fresh hbroadcast hones hlast.1 b.toVxlan4Packet (BitVec.allOnes 32)
  have hcoherent := coherent4_tuntermAcl up b.toVxlan4Packet (BitVec.allOnes 32) hlast.1
  obtain ⟨hpass, hholds⟩ := hcheck last.2 hlast.2
  obtain ⟨hpass₀, -⟩ := hcheck vtep.init hinit
  unfold bypassBody freshCaches
  by_cases hproto : b.proto ≠ ipProtocolUdp
  · simp only [if_pos hproto]
    exact ⟨trivial, hlast⟩
  · simp only [if_neg hproto, hfound]
    split
    · exact ⟨rfl, hcoherent, hlast.2⟩
    · -- both ask the same of the VTEP table
      simp only [hpass, hpass₀]
      cases member b with
      | false => exact ⟨rfl, hcoherent, hholds⟩
      | true => exact ⟨rfl, hcoherent, hholds⟩

variable (up vxm)

/-- The loops do for each packet what is done with fresh caches, in whatever words. -/
theorem bypassLoops_eq_map (rooms : Rooms)
    (hbroadcast : up.ip4AddressIsMulticast (BitVec.allOnes 32) = false)
    (hones : vxm.vxlan4TunnelByKey emptyCache4.key = none) {frame : List BypassBuffer}
    (hvtep : vtep.ShortCuts up.vtep4Check frame) {fuel : ℕ} (hfuel : frame.length ≤ fuel)
    {alone : BypassBuffer → BypassResult}
    (halone : ∀ b ∈ frame, (vtep.check vtep.init b).1 = up.vtep4Check b →
      (bypassBody up vxm vtep (freshCaches vtep) b).1 = alone b) :
    bypassLoops up vxm vtep rooms fuel frame = some (frame.map alone) := by
  obtain ⟨Holds, hinit, hcheck⟩ := hvtep
  refine frameLoop_eq (bypassBody up vxm vtep) rooms
    (fun last => Coherent4 vxm.vxlan4TunnelByKey last.1 ∧ Holds last.2) alone fuel frame
    (freshCaches vtep) hfuel ⟨Or.inl rfl, hinit⟩ ?_
  intro last b hlast hb
  rw [← halone b hb (hcheck _ hinit b hb).1]
  exact bypassBody_eq_fresh vtep hbroadcast hones (fun c hc => hcheck c hc b hb) hinit hlast

/-- **Batching is invisible.**  Whatever room there is, the loops give every packet of a frame
the next node, the error and the advance that it gets alone, with fresh caches.  No tunnel
has the key of an empty cache. -/
theorem bypass_loops_eq_alone (rooms : Rooms)
    (hbroadcast : up.ip4AddressIsMulticast (BitVec.allOnes 32) = false)
    (hones : vxm.vxlan4TunnelByKey emptyCache4.key = none) {frame : List BypassBuffer}
    (hvtep : vtep.ShortCuts up.vtep4Check frame) {fuel : ℕ} (hfuel : frame.length ≤ fuel) :
    bypassLoops up vxm vtep rooms fuel frame
      = some (frame.map fun b => (bypassBody up vxm vtep (freshCaches vtep) b).1) := by
  apply bypassLoops_eq_map up vxm vtep rooms hbroadcast hones hvtep hfuel
  intro b _ _
  rfl

/-- Alone, with fresh caches, a packet is treated as in the model without `last_vtep4`. -/
theorem bypassBody_fresh {b : BypassBuffer} (hpass : (vtep.check vtep.init b).1 = up.vtep4Check b) :
    (bypassBody up vxm vtep (freshCaches vtep) b).1 = (bypassPacket up vxm emptyCache4 b).1 := by
  unfold bypassBody bypassPacket freshCaches
  by_cases hproto : b.proto ≠ ipProtocolUdp
  · simp only [if_pos hproto]
  · simp only [if_neg hproto, hpass]
    split
    · rfl
    · cases up.vtep4Check b with
      | false => rfl
      | true => rfl

/-- **The loops are the walk through the frame** that `bypass_agrees_iff` is about, wherever the
tunnel table is as a run of requests leaves it. -/
theorem bypassLoops_eq_inline (rooms : Rooms)
    (hbroadcast : up.ip4AddressIsMulticast (BitVec.allOnes 32) = false) (h : EntriesValid vxm)
    {frame : List BypassBuffer} (hvtep : vtep.ShortCuts up.vtep4Check frame) {fuel : ℕ}
    (hfuel : frame.length ≤ fuel) :
    bypassLoops up vxm vtep rooms fuel frame
      = some (tuntermAclIpVxlanBypassInline up vxm frame) := by
  have hones : vxm.vxlan4TunnelByKey emptyCache4.key = none := by
    cases hv : vxm.vxlan4TunnelByKey emptyCache4.key with
    | none => rfl
    | some v => exact absurd rfl (h.entry _ v hv).1
  unfold tuntermAclIpVxlanBypassInline
  rw [h.bypassFrame_eq up frame (Or.inl rfl)]
  apply bypassLoops_eq_map up vxm vtep rooms hbroadcast hones hvtep hfuel
  intro b _ hpass
  exact bypassBody_fresh up vxm vtep hpass

end Node

/-! ## The check of VPP -/

/-- `vtep4_check` as VPP has it: the key is the destination and the fib, and the cache is the
last key that was in the table. -/
def vtep4CheckVpp (table : BitVec 32 × BitVec 32 → Bool) : VtepCheck (BitVec 32 × BitVec 32) where
  init := (BitVec.allOnes 32, BitVec.allOnes 32)
  check last b :=
    if (b.dstAddress, b.fibIndex) = last then (true, last)
    else if table (b.dstAddress, b.fibIndex) then (true, (b.dstAddress, b.fibIndex))
    else (false, last)

/-- Its cache short-cuts it, unless a packet has the key that it starts with. -/
theorem vtep4CheckVpp_shortCuts (table : BitVec 32 × BitVec 32 → Bool)
    {frame : List BypassBuffer}
    (hones : ∀ b ∈ frame, (b.dstAddress, b.fibIndex) ≠ (vtep4CheckVpp table).init) :
    (vtep4CheckVpp table).ShortCuts (fun b => table (b.dstAddress, b.fibIndex)) frame := by
  refine ⟨fun last => last = (vtep4CheckVpp table).init ∨ table last = true, Or.inl rfl, ?_⟩
  intro last hlast b hb
  simp only [vtep4CheckVpp]
  by_cases hhit : (b.dstAddress, b.fibIndex) = last
  · rw [if_pos hhit]
    rcases hlast with hinit | hin
    · exact absurd (hhit.trans hinit) (hones b hb)
    · rw [hhit]
      exact ⟨hin.symm, Or.inr hin⟩
  · rw [if_neg hhit]
    cases hin : table (b.dstAddress, b.fibIndex) with
    | true => exact ⟨rfl, Or.inr hin⟩
    | false => exact ⟨rfl, hlast⟩

/-- Six packets, of the tunnel's remote and of others, with room for all: four of them go in
pairs. -/
theorem bypass_loops_eq_alone_mixed :
    let vxm := run (vxlanStep .vpp) VxlanMain.init
      [decapAnyRequest true 0x0a000001 0x0a000002 0 false]
    let vtep := vtep4CheckVpp fun k => k.1 = 0x0a000001
    let frame := [bypassBuffer 0x0a000002, bypassBuffer 0xc0000207, bypassBuffer 0x0a000002,
      { bypassBuffer 0x0a000002 with isFragment := true }, bypassBuffer 0xc0000207,
      bypassBuffer 0x0a000002]
    bypassLoops .oneVtep vxm vtep ⟨fun _ => 256, fun _ => by decide, fun _ room => room⟩ 6 frame
      = some (frame.map fun b => (bypassBody .oneVtep vxm vtep (freshCaches vtep) b).1) := by
  intro vxm vtep frame
  exact bypass_loops_eq_alone .oneVtep vxm vtep _ (by decide) (by decide)
    (vtep4CheckVpp_shortCuts _ (by decide)) (by decide)

end Vxlan
