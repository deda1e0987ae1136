/-
# The LAG hash of a tagged IPv6 frame

Behind one VLAN tag, `hash_eth_l34_inner_inline` takes the IPv6 header 4 bytes too early:
the payload length is read from the version word and the next header from the flow label.
What it resolves as an inner header may lie anywhere in the bytes behind, and
`ethBounded_tagged_iff` says when the hash still keeps to the datagram.  With the results
on the other surfaces, `innerHash_bounded_iff` says so for all of them.
-/
import SonicVpp.InnerReads
import SonicVpp.HashBounds

open PacketBytes Ip

namespace InnerHash

/-! ## Frames with one VLAN tag -/

/-- Where the code takes the end of the payload of an IPv6 packet to be. -/
def viewEnd (m : Mem) (eth : ℕ) : ℕ := eth + 54 + ip6PayloadLength m (eth + 14)

section Tagged

variable {m m' : Mem} {eth : ℕ} {h : IpInnerHdr}

/-- The inner header of a tagged IPv6 frame. -/
theorem tagged_resolve (hv : version m (eth + 18) = 6)
    (hres : hashEthInner m eth (eth + 16) = some h) :
    (netU16 m (eth + 16) = ethernetTypeIp4 ∨ netU16 m (eth + 16) = ethernetTypeIp6) ∧
      ipInnerResolve m (ip6Protocol m (eth + 14)) (eth + 54) (ip6PayloadLength m (eth + 14))
        = some h := by
  have h64 : (6 : BitVec 4) ≠ 4 := by decide
  simp only [hashEthInner, hv, if_neg h64, if_true, ethernetHeaderSize, ip6HeaderSize] at hres
  split_ifs at hres with hty
  refine ⟨?_, hres⟩
  by_contra hno
  exact hty (not_or.1 hno)

/-- Only a tunnel protocol announces an inner header. -/
theorem tunnel_of_resolve {p : BitVec 8} {a r : ℕ} (hres : ipInnerResolve m p a r = some h) :
    isTcpUdp p = false ∧ p ≠ protocolIp6HopByHopOptions := by
  unfold ipInnerResolve at hres
  split_ifs at hres with h4 h6 hgre
  · rw [h4]; decide
  · rw [h6]; decide
  · rw [hgre]; decide

/-- The hash of a memory with the same bytes before the inner header. -/
theorem tagged_hash (up : HashEthUpstream) (hup : up.SkipsVlanTags) (htags : VlanTags m eth 1)
    (hv : version m (eth + 18) = 6) (hres : hashEthInner m eth (eth + 16) = some h)
    (hag : AgreeBelow h.ip m m') :
    hashEthL34InnerInline up m' eth =
      (resolveAt h.isV6 m' h.ip (viewEnd m eth - h.ip)).elim (hashEthIp6 up m (eth + 14) 0)
        (hashEthInnerLbHash up m') := by
  obtain ⟨hty, hres'⟩ := tagged_resolve hv hres
  have hstart : eth + 54 ≤ h.ip := (ipInnerResolve_inside hres').start
  have h64 : (6 : BitVec 4) ≠ 4 := by decide
  -- the fields in front of the inner header
  have htags' : VlanTags m' eth 1 := vlanTags_agree hag (by omega) htags
  have h18 : m (eth + 18) = m' (eth + 18) := hag _ (by omega)
  have hv' : version m' (eth + 18) = 6 := by rw [← hv]; simp only [version, h18]
  have hty' := hag.netU16 (i := eth + 16) (by omega)
  have hproto : ip6Protocol m' (eth + 14) = ip6Protocol m (eth + 14) :=
    (hag (eth + 14 + 6) (by omega)).symm
  have hlen : ip6PayloadLength m' (eth + 14) = ip6PayloadLength m (eth + 14) := by
    simp only [ip6PayloadLength, hag.netU16 (i := eth + 14 + 4) (by omega)]
  have hnot : ¬ (netU16 m' (eth + 16) ≠ ethernetTypeIp4 ∧ netU16 m' (eth + 16) ≠ ethernetTypeIp6) := by
    rw [← hty']
    rintro ⟨h4, h6⟩
    exact hty.elim h4 h6
  have hinner : hashEthInner m' eth (eth + 16) = resolveAt h.isV6 m' h.ip (viewEnd m eth - h.ip) := by
    simp only [hashEthInner, if_neg hnot, hv', if_neg h64, if_true, ethernetHeaderSize,
      ip6HeaderSize, hproto, hlen]
    exact ipInnerResolve_at hres' hag
  have houter : hashEthOuter up m' eth (eth + 16) = hashEthIp6 up m (eth + 14) 0 := by
    obtain ⟨htu, hhop⟩ := tunnel_of_resolve hres'
    simp only [hashEthOuter, if_neg hnot, hv', if_neg h64, if_true, ethernetHeaderSize,
      hashEthOuterPorts6, hproto, htu, hhop, Bool.false_eq_true, if_false, hashEthIp6,
      hag.loadU64 (i := eth + 14 + 8) (by omega), hag.loadU64 (i := eth + 14 + 16) (by omega),
      hag.loadU64 (i := eth + 14 + 24) (by omega), hag.loadU64 (i := eth + 14 + 32) (by omega)]
  unfold hashEthL34InnerInline
  rw [hup m' eth 1 htags']
  simp only [show eth + 12 + 4 * 1 = eth + 16 from rfl, hinner, houter]
  cases resolveAt h.isV6 m' h.ip (viewEnd m eth - h.ip) <;> rfl

/-- The resolver at the inner header itself. -/
theorem tagged_resolveAt (hv : version m (eth + 18) = 6)
    (hres : hashEthInner m eth (eth + 16) = some h) :
    resolveAt h.isV6 m h.ip (viewEnd m eth - h.ip) = some h := by
  obtain ⟨-, hres'⟩ := tagged_resolve hv hres
  rw [← hres']
  exact (ipInnerResolve_at hres' fun _ _ => rfl).symm

end Tagged

/-- The four words of an IPv6 address pair. -/
def ip6AddressWords (m : Mem) (ip : ℕ) : BitVec 64 × BitVec 64 × BitVec 64 × BitVec 64 :=
  (loadU64 m (ip + 8), loadU64 m (ip + 16), loadU64 m (ip + 24), loadU64 m (ip + 32))

/-- The addresses of the inner header leave the datagram. -/
def AddressOverrun (m : Mem) (eth : ℕ) (h : IpInnerHdr) : Prop :=
  datagramEnd m (eth + 18) < h.ip + (if h.isV6 then ip6HeaderSize else ip4HeaderSize)

/-- The ports behind the inner header leave the datagram. -/
def PortOverrun (m : Mem) (eth : ℕ) (h : IpInnerHdr) : Prop :=
  isTcpUdp h.protocol = true ∧ datagramEnd m (eth + 18) < h.l4 + 4

/-- The next header of the last extension header is outside the datagram; or its length
only, and a longer one would leave the view, when the outer addresses, which differ, are
hashed. -/
def ExtOverrun (m : Mem) (eth : ℕ) (h : IpInnerHdr) : Prop :=
  h.isV6 = true ∧ ∃ q,
    lastExt m (h.ip + 40) (viewEnd m eth - h.ip - 40) (ip6Protocol m h.ip) = some q ∧
    (datagramEnd m (eth + 18) ≤ q ∨
      (datagramEnd m (eth + 18) = q + 1 ∧ viewEnd m eth < q + 2056 ∧
        ip6AddressWords m h.ip ≠ ip6AddressWords m (eth + 14)))

section Unbounded

variable {m m' : Mem} {eth : ℕ} {h : IpInnerHdr}

/-- An upstream whose hashes show the end of the destination address. -/
def HashEthUpstream.showAddresses : HashEthUpstream :=
  { HashEthUpstream.showPorts with
    lbHash2Tuples := fun addresses _ => addresses.extractLsb' 32 32
    lbHash := fun _ _ _ w _ => w.extractLsb' 32 32 }

/-- An upstream whose IPv6 hash tells one address pair from all others. -/
def HashEthUpstream.tells (words : BitVec 64 × BitVec 64 × BitVec 64 × BitVec 64) :
    HashEthUpstream :=
  { HashEthUpstream.showPorts with
    lbHash := fun a b c d _ => if (a, b, c, d) = words then 0 else 1 }

theorem tells_hash (words : BitVec 64 × BitVec 64 × BitVec 64 × BitVec 64) (m : Mem) (ip : ℕ)
    (ports : BitVec 32) :
    hashEthIp6 (.tells words) m ip ports = if ip6AddressWords m ip = words then 0 else 1 := rfl

theorem showPorts_hash (m : Mem) (h : IpInnerHdr) :
    hashEthInnerLbHash .showPorts m h = hashEthPorts m h.protocol h.l4 := by
  unfold hashEthInnerLbHash
  cases h.isV6 <;> simp [hashEthIp4, hashEthIp6, HashEthUpstream.showPorts]

theorem setWidth_inj {x y : BitVec 16} (hxy : x.setWidth 32 = y.setWidth 32) : x = y := by
  have h16 := congrArg (fun z : BitVec 32 => z.setWidth 16) hxy
  simpa only [BitVec.setWidth_setWidth_of_le _ (show 16 ≤ 32 from by omega),
    BitVec.setWidth_eq] using h16

/-- Two port pairs with one byte changed. -/
theorem hashEthPorts_ne {p : BitVec 8} (hp : isTcpUdp p = true) {i : ℕ}
    (hag : AgreeBelow (i + 3) m m') (hne : m (i + 3) ≠ m' (i + 3)) :
    hashEthPorts m p i ≠ hashEthPorts m' p i := by
  intro heq
  simp only [hashEthPorts, hp, if_true, hag.loadU16 (i := i) (by omega)] at heq
  exact hne (loadU16_inj (setWidth_inj ((BitVec.xor_right_inj _).1 heq))).2

variable (htags : VlanTags m eth 1) (hv : version m (eth + 18) = 6)
  (hres : hashEthInner m eth (eth + 16) = some h)

include htags hv hres

/-- A change outside the datagram that shows. -/
theorem tagged_unbounded (up : HashEthUpstream) (hup : up.SkipsVlanTags)
    (hout : AgreeBelow (datagramEnd m (eth + 18)) m m') (hag : AgreeBelow h.ip m m')
    {h' : IpInnerHdr} (hres' : resolveAt h.isV6 m' h.ip (viewEnd m eth - h.ip) = some h')
    (hne : hashEthInnerLbHash up m h ≠ hashEthInnerLbHash up m' h') : ¬ EthBounded m eth 1 := by
  intro hbound
  have heq := hbound up hup m' hout
  rw [hashEth_inner up hup htags hres, tagged_hash up hup htags hv hres hag, hres'] at heq
  exact hne heq

/-- The last byte of the destination address shows. -/
theorem addressOverrun_unbounded (hover : AddressOverrun m eth h) : ¬ EthBounded m eth 1 := by
  have hat := tagged_resolveAt hv hres
  -- the last byte of the address pair
  have hchange : ∀ i, datagramEnd m (eth + 18) ≤ i → h.ip + 19 ≤ i → i < h.ip + 40 →
      resolveAt h.isV6 (Function.update m i (m i + 1)) h.ip (viewEnd m eth - h.ip) = some h := by
    intro i _ hlo hhi
    refine resolveAt_stable hat (fun k hk => ?_) (fun _ q _ j hj _ => ?_)
    · rw [Function.update_of_ne (by omega)]
    · rw [Function.update_of_ne (by omega)]
  have hne : ∀ i, m i ≠ Function.update m i (m i + 1) i := by
    intro i
    rw [Function.update_self]
    simp
  unfold AddressOverrun at hover
  cases h6 : h.isV6 with
  | false =>
    simp only [h6, Bool.false_eq_true, if_false, ip4HeaderSize] at hover
    refine tagged_unbounded htags hv hres .showAddresses showPorts_skips
      (agreeBelow_update m (i := h.ip + 19) (by omega) _) (agreeBelow_update m (by omega) _)
      (hchange _ (by omega) le_rfl (by omega)) fun heq => ?_
    simp only [hashEthInnerLbHash, h6, Bool.false_eq_true, if_false, hashEthIp4,
      HashEthUpstream.showAddresses, loadU64_high] at heq
    exact hne _ (loadU32_top heq)
  | true =>
    simp only [h6, if_true, ip6HeaderSize] at hover
    refine tagged_unbounded htags hv hres .showAddresses showPorts_skips
      (agreeBelow_update m (i := h.ip + 39) (by omega) _) (agreeBelow_update m (by omega) _)
      (hchange _ (by omega) (by omega) (by omega)) fun heq => ?_
    simp only [hashEthInnerLbHash, h6, if_true, hashEthIp6, HashEthUpstream.showAddresses,
      loadU64_high] at heq
    exact hne _ (loadU32_top heq)

omit htags in
/-- Where the upper-layer header is: behind the fields that are read. -/
theorem tagged_l4 : h.ip + 20 ≤ h.l4 ∧ (h.isV6 = true →
    ∀ q, lastExt m (h.ip + 40) (viewEnd m eth - h.ip - 40) (ip6Protocol m h.ip) = some q →
      h.ip + 40 ≤ q ∧ q + 8 ≤ h.l4 ∧ h.l4 = q + extBytes m q ∧ h.protocol = extProtocol m q ∧
        WalkDone h.protocol) := by
  have hin := ipInnerResolve_inside (tagged_resolve hv hres).2
  have hat := tagged_resolveAt hv hres
  refine ⟨?_, fun h6 q hq => ?_⟩
  · have hhdr := hin.header
    cases h6 : h.isV6 with
    | false => rwa [h6] at hhdr
    | true =>
      simp only [h6, if_true, ip6HeaderSize] at hhdr
      omega
  · rw [h6] at hat
    obtain ⟨hstart, hl4, hproto, hdone⟩ := resolveV6_lastExt hat hq
    have h8 : 8 ≤ extBytes m q := by simp only [extBytes]; omega
    exact ⟨hstart, by omega, hl4, hproto, hdone⟩

/-- The last byte of the ports shows. -/
theorem portOverrun_unbounded (hover : PortOverrun m eth h) : ¬ EthBounded m eth 1 := by
  obtain ⟨htu, hend⟩ := hover
  obtain ⟨hl4, hlast⟩ := tagged_l4 hv hres
  refine tagged_unbounded htags hv hres .showPorts showPorts_skips
    (agreeBelow_update m (i := h.l4 + 3) (by omega) (m (h.l4 + 3) + 1))
    (agreeBelow_update m (by omega) _)
    (resolveAt_stable (tagged_resolveAt hv hres) (fun k hk => ?_) fun h6 q hq j _ hj => ?_) ?_
  · rw [Function.update_of_ne (by omega)]
  · have := hlast h6 q hq
    rw [Function.update_of_ne (by omega)]
  · rw [showPorts_hash, showPorts_hash]
    refine hashEthPorts_ne htu (agreeBelow_update m le_rfl _) ?_
    rw [Function.update_self]
    simp

/-- A next header outside the datagram can be made TCP, with ports that show. -/
theorem nextHeaderOverrun_unbounded (h6 : h.isV6 = true) (htu : isTcpUdp h.protocol = false) {q : ℕ}
    (hq : lastExt m (h.ip + 40) (viewEnd m eth - h.ip - 40) (ip6Protocol m h.ip) = some q)
    (hend : datagramEnd m (eth + 18) ≤ q) : ¬ EthBounded m eth 1 := by
  obtain ⟨hstart, hl4, hl4eq, -, -⟩ := (tagged_l4 hv hres).2 h6 q hq
  have hat := tagged_resolveAt hv hres
  rw [h6] at hat
  obtain ⟨-, -, hin, -⟩ := resolveV6_walk hat
  let m₁ := Function.update m q protocolTcp
  let m₂ := Function.update m₁ h.l4 (m (h.l4 + 2) + 1)
  have hsame : ∀ i, i ≠ q → i ≠ h.l4 → m i = m₂ i := fun i hi hi' => by
    simp only [m₂, m₁, Function.update_of_ne hi', Function.update_of_ne hi]
  have hproto : extProtocol m₂ q = protocolTcp := by
    simp only [extProtocol, m₂, m₁, Function.update_of_ne (show q ≠ h.l4 from by omega),
      Function.update_self]
  have hbytes : extBytes m₂ q = extBytes m q := by
    simp only [extBytes, ← hsame (q + 1) (by omega) (by omega)]
  have hnew : resolveAt h.isV6 m₂ h.ip (viewEnd m eth - h.ip)
      = some ⟨h.ip, true, h.l4, protocolTcp⟩ := by
    rw [h6]
    refine (resolveV6_atLast hat hq (fun i hi hlt => hsame i (by omega) (by omega))
      (by rw [hproto]; exact ⟨by decide, by decide⟩) (by rw [hproto]; decide)).trans ?_
    rw [hproto, hbytes, ← hl4eq, if_neg (by omega)]
  refine tagged_unbounded htags hv hres .showPorts showPorts_skips
    (fun i hi => hsame i (by omega) (by omega)) (fun i hi => hsame i (by omega) (by omega)) hnew ?_
  rw [showPorts_hash, showPorts_hash]
  -- no ports before, and now two words that differ
  simp only [hashEthPorts, htu, Bool.false_eq_true, if_false,
    show isTcpUdp protocolTcp = true from by decide, if_true]
  intro hzero
  have hload := (loadU16_inj (setWidth_inj (BitVec.xor_eq_zero_iff.1 hzero.symm))).1
  rw [← hsame (h.l4 + 2) (by omega) (by omega)] at hload
  simp only [m₂, Function.update_self] at hload
  simp at hload

/-- A length outside the datagram can be made so large that the outer addresses are
hashed. -/
theorem lengthOverrun_unbounded (h6 : h.isV6 = true) {q : ℕ}
    (hq : lastExt m (h.ip + 40) (viewEnd m eth - h.ip - 40) (ip6Protocol m h.ip) = some q)
    (hend : datagramEnd m (eth + 18) = q + 1) (hview : viewEnd m eth < q + 2056)
    (hwords : ip6AddressWords m h.ip ≠ ip6AddressWords m (eth + 14)) : ¬ EthBounded m eth 1 := by
  obtain ⟨hstart, hl4, hl4eq, hproto, hdone⟩ := (tagged_l4 hv hres).2 h6 q hq
  have hat := tagged_resolveAt hv hres
  rw [h6] at hat
  obtain ⟨hr, hne, hin, -⟩ := resolveV6_walk hat
  intro hbound
  -- the two memories differ in the length of the last extension header alone
  let m' := Function.update m (q + 1) 255
  have hsame : ∀ i, i ≠ q + 1 → m i = m' i := fun i hi => by
    simp only [m', Function.update_of_ne hi]
  have hproto' : extProtocol m' q = h.protocol := by
    rw [hproto]
    exact (hsame q (by omega)).symm
  have hbytes : extBytes m' q = 2048 := by
    simp only [extBytes, m', Function.update_self]
    rfl
  -- with the largest length the view is too short for what comes behind it
  have hnone : resolveAt h.isV6 m' h.ip (viewEnd m eth - h.ip) = none := by
    rw [h6]
    refine (resolveV6_atLast hat hq (fun i hi hlt => hsame i (by omega))
      (by rw [hproto']; exact hdone) (by rw [hproto']; exact hne)).trans ?_
    rw [hbytes, if_pos (by omega)]
  have hout : AgreeBelow (datagramEnd m (eth + 18)) m m' := fun i hi => hsame i (by omega)
  have hskips : (HashEthUpstream.tells (ip6AddressWords m h.ip)).SkipsVlanTags := showPorts_skips
  have heq := hbound _ hskips m' hout
  rw [hashEth_inner _ hskips htags hres,
    tagged_hash _ hskips htags hv hres (fun i hi => hsame i (by omega)), hnone] at heq
  simp only [hashEthInnerLbHash, h6, if_true, Option.elim_none, tells_hash,
    if_neg (Ne.symm hwords)] at heq
  exact absurd heq (by decide)

end Unbounded

section Bounded

variable {m m' : Mem} {eth : ℕ} {h : IpInnerHdr}

variable (hv : version m (eth + 18) = 6) (hres : hashEthInner m eth (eth + 16) = some h)

include hv hres

/-- What a memory with the same datagram resolves: the same inner header but for where its
payload starts, or none when the outer addresses are the inner ones anyway. -/
theorem tagged_resolves (haddr : ¬ AddressOverrun m eth h) (hport : ¬ PortOverrun m eth h)
    (hext : ¬ ExtOverrun m eth h) (hag : AgreeBelow (datagramEnd m (eth + 18)) m m') :
    (∃ l4, (isTcpUdp h.protocol = true → l4 = h.l4) ∧
      resolveAt h.isV6 m' h.ip (viewEnd m eth - h.ip) = some { h with l4 := l4 }) ∨
    (resolveAt h.isV6 m' h.ip (viewEnd m eth - h.ip) = none ∧ h.isV6 = true ∧
      isTcpUdp h.protocol = false ∧ ip6AddressWords m h.ip = ip6AddressWords m (eth + 14)) := by
  have hat := tagged_resolveAt hv hres
  have hlast := (tagged_l4 hv hres).2
  unfold AddressOverrun at haddr
  -- the fixed part of the inner header lies inside the datagram
  have hag10 : ∀ k < 10, m (h.ip + k) = m' (h.ip + k) := by
    intro k hk
    refine hag _ ?_
    cases h6 : h.isV6 <;> simp only [h6, if_true, Bool.false_eq_true, if_false, ip4HeaderSize,
      ip6HeaderSize] at haddr <;> omega
  by_cases hread : h.isV6 = true → ∀ q,
      lastExt m (h.ip + 40) (viewEnd m eth - h.ip - 40) (ip6Protocol m h.ip) = some q →
      q + 2 ≤ datagramEnd m (eth + 18)
  · refine Or.inl ⟨h.l4, fun _ => rfl, resolveAt_stable hat hag10 fun h6 q hq i _ hi => ?_⟩
    have := hread h6 q hq
    exact hag i (by omega)
  · -- the length of the last extension header is the first byte outside
    push Not at hread
    obtain ⟨h6, q, hq, hout⟩ := hread
    obtain ⟨hstart, hl4, hl4eq, hproto, hdone⟩ := hlast h6 q hq
    rw [h6] at hat
    obtain ⟨-, hne, hin, -⟩ := resolveV6_walk hat
    obtain ⟨hip, -⟩ := resolveV6_at hat
    have hend : datagramEnd m (eth + 18) = q + 1 := by
      by_contra hend
      exact hext ⟨h6, q, hq, Or.inl (by omega)⟩
    have htu : isTcpUdp h.protocol = false := by
      by_contra htu
      exact hport ⟨by simpa using htu, by omega⟩
    have hproto' : extProtocol m' q = h.protocol := by
      rw [hproto]
      exact (hag q (by omega)).symm
    have hres' := resolveV6_atLast hat hq (fun i _ hi => hag i (by omega))
      (by rw [hproto']; exact hdone) (by rw [hproto']; exact hne)
    rw [hproto'] at hres'
    by_cases hview : h.ip + (viewEnd m eth - h.ip) < q + extBytes m' q + 8
    · rw [if_pos hview] at hres'
      refine Or.inr ⟨by rw [h6]; exact hres', h6, htu, ?_⟩
      by_contra hwords
      have hmax : extBytes m' q ≤ 2048 := by
        have := (m' (q + 1)).isLt
        simp only [extBytes]
        omega
      exact hext ⟨h6, q, hq, Or.inr ⟨hend, by omega, hwords⟩⟩
    · rw [if_neg hview] at hres'
      refine Or.inl ⟨q + extBytes m' q, fun h => absurd h (by simp [htu]), ?_⟩
      rw [h6]
      exact hres'

/-- **The LAG hash of a tagged IPv6 frame**, exactly. -/
theorem ethBounded_tagged_iff (htags : VlanTags m eth 1) :
    EthBounded m eth 1 ↔
      ¬ (AddressOverrun m eth h ∨ PortOverrun m eth h ∨ ExtOverrun m eth h) := by
  constructor
  · rintro hbound (haddr | hport | ⟨h6, q, hq, hext⟩)
    · exact addressOverrun_unbounded htags hv hres haddr hbound
    · exact portOverrun_unbounded htags hv hres hport hbound
    · have hl4 := ((tagged_l4 hv hres).2 h6 q hq).2.1
      rcases hext with hend | ⟨hend, hview, hwords⟩
      · cases htu : isTcpUdp h.protocol with
        | true => exact portOverrun_unbounded htags hv hres ⟨htu, by omega⟩ hbound
        | false => exact nextHeaderOverrun_unbounded htags hv hres h6 htu hq hend hbound
      · exact lengthOverrun_unbounded htags hv hres h6 hq hend hview hwords hbound
  · intro hno up hup m' hag
    have hag' : AgreeBelow (datagramEnd m (eth + 18)) m m' := hag
    simp only [not_or] at hno
    obtain ⟨haddr, hport, hext⟩ := hno
    have haddr' := Nat.le_of_not_lt haddr
    rw [hashEth_inner up hup htags hres, tagged_hash up hup htags hv hres (hag'.mono (by omega))]
    obtain ⟨l4, hl4, hres'⟩ | ⟨hres', h6, htu, hwords⟩ :=
      tagged_resolves hv hres haddr hport hext hag'
    · rw [hres']
      refine hashEthInnerLbHash_congr up hag' haddr' fun htu => ⟨hl4 htu, ?_⟩
      by_contra hend
      exact hport ⟨htu, by omega⟩
    · rw [hres']
      simp only [ip6AddressWords, Prod.mk.injEq] at hwords
      simp only [hashEthInnerLbHash, h6, if_true, Option.elim_none, hashEthIp6, hashEthPorts, htu,
        Bool.false_eq_true, if_false, hwords.1, hwords.2.1, hwords.2.2.1, hwords.2.2.2]

end Bounded

/-- An IPv6 frame with one VLAN tag and an empty outer payload.  The code takes the
version word for the payload length and a flow label byte for the next header 4, and
resolves an inner IPv4 header behind the end of the datagram. -/
def taggedIp6Frame : Mem := fun i =>
  if i = 12 then 0x81 else if i = 16 then 0x86 else if i = 17 then 0xdd
  else if i = 18 then 0x60 else if i = 20 then protocolIpInIp else if i = 54 then 0x45 else 0

example : ¬ EthBounded taggedIp6Frame 0 1 := fun hbound =>
  (ethBounded_tagged_iff (h := ⟨54, false, 74, 0⟩) (by decide) (by decide)
    ⟨by decide, by decide⟩).1 hbound (Or.inl (by unfold AddressOverrun; decide))

/-! ## All surfaces -/

/-- Only IPv4 and IPv6 frames have an inner header. -/
theorem version_of_hashEthInner {m : Mem} {eth ethertypeP : ℕ} {h : IpInnerHdr}
    (hres : hashEthInner m eth ethertypeP = some h) :
    version m (ethertypeP + 2) = 4 ∨ version m (ethertypeP + 2) = 6 := by
  simp only [hashEthInner] at hres
  split_ifs at hres with hty h4 hfrag hlen h6
  · exact Or.inl h4
  · exact Or.inr h6

/-- **Bytes outside the packet, exactly.**  A hash that uses an inner header depends
on bytes beyond the outer datagram only through a TEID read that leaves it (IP
surfaces), and for IPv6 behind one VLAN tag (LAG surface) through the addresses, the
ports or the last extension header of the header it takes for the inner one. -/
theorem innerHash_bounded_iff (m : Mem) (a : ℕ) (h : IpInnerHdr) :
    (∀ cfg : FlowHashConfig, cfg.peekInner = true → ip4Peek m a = some h →
      (Ip4Bounded m a cfg ↔ ¬ TeidOverrun m cfg h (a + ip4Length m a))) ∧
    (∀ cfg : FlowHashConfig, cfg.peekInner = true → ip6Peek m a = some h →
      (Ip6Bounded m a cfg ↔ ¬ TeidOverrun m cfg h (a + 40 + ip6PayloadLength m a))) ∧
    (∀ n, VlanTags m a n → hashEthInner m a (a + 12 + 4 * n) = some h →
      (EthBounded m a n ↔ ¬ (n = 1 ∧ version m (a + 18) = 6 ∧
        (AddressOverrun m a h ∨ PortOverrun m a h ∨ ExtOverrun m a h)))) := by
  refine ⟨fun cfg hpeek hres => ip4Bounded_iff hpeek hres,
    fun cfg hpeek hres => ip6Bounded_iff hpeek hres, fun n htags hres => ?_⟩
  have h46 : (4 : BitVec 4) ≠ 6 := by decide
  have hver := version_of_hashEthInner hres
  rw [show a + 12 + 4 * n + 2 = a + 14 + 4 * n from by omega] at hver
  rcases hver with h4 | h6
  · refine iff_of_true (ethBounded_ip4 htags h4 hres) ?_
    rintro ⟨rfl, h6, -⟩
    exact h46 (h4.symm.trans h6)
  · match n with
    | 0 => exact iff_of_true (ethBounded_ip6 htags h6 hres) fun h => absurd h.1 (by decide)
    | 1 =>
      have h6' : version m (a + 18) = 6 := h6
      rw [ethBounded_tagged_iff h6' hres htags]
      simp [h6']
    | 2 =>
      rw [hashEthInner_two_tags h6] at hres
      cases hres
    | _ + 3 => exact htags.elim

/-- With TEID and peek selected, the hash of an inner TCP packet keeps to the datagram. -/
theorem innerHash_bounded_tcp : Ip4Bounded (ipInIpPacket 48 7 (innerTcp [])) 0 0x300 := by
  refine ((innerHash_bounded_iff _ 0 ⟨20, false, 40, protocolTcp⟩).1 0x300 (by decide)
    (by decide)).2 ?_
  rintro ⟨-, hudp, -⟩
  exact absurd hudp (by decide)

/-- An inner UDP packet to port 2152 that ends with its UDP header. -/
def innerGtp : List (BitVec 8) :=
  [0x45, 0, 0, 28, 0, 0, 0, 0, 64, protocolUdp, 0, 0, 10, 1, 1, 1, 10, 2, 2, 2,
    0x08, 0x68, 0x08, 0x68, 0, 8, 0, 0]

/-- With TEID and peek selected, the hash of that packet depends on a byte behind the
datagram of 48 bytes. -/
theorem innerGtp_unbounded :
    ip4Peek (ipInIpPacket 48 7 innerGtp) 0 = some ⟨20, false, 40, protocolUdp⟩ ∧
    ¬ Ip4Bounded (ipInIpPacket 48 7 innerGtp) 0 0x300 := by
  refine ⟨by decide, fun hbound => ?_⟩
  have heq := hbound ⟨fun _ f => f.teid.getD 0, fun _ _ => 0⟩
    (Function.update (ipInIpPacket 48 7 innerGtp) 55 1) (agreeBelow_update _ (by decide) 1)
  revert heq
  decide

end InnerHash
