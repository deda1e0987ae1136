/-
# Inner flows

Two packets carry the same inner flow if the inner IP version, addresses, upper-layer
protocol and, for TCP and UDP, the ports of the real upper-layer header coincide.
The hashes with the peek see an inner IPv4 header without its options: they read the
ports at the fixed offset 20.  `innerFlow_kept_iff` says when two packets of one flow
hash alike on each of the three surfaces.
-/
import SonicVpp.FlowHashOptIn
import SonicVpp.HashEth

open PacketBytes Ip

namespace InnerHash

/-! ## The inner five-tuple -/

/-- An inner five-tuple, addresses as bytes, ports for TCP and UDP only. -/
structure InnerTuple where
  isV6 : Bool
  src : List (BitVec 8)
  dst : List (BitVec 8)
  protocol : BitVec 8
  ports : Option (BitVec 16 × BitVec 16)
  deriving DecidableEq

/-- The real upper-layer header: behind the IPv4 options, or behind the IPv6 extension
headers that the walk passed. -/
def realL4 (m : Mem) (h : IpInnerHdr) : ℕ :=
  if h.isV6 then h.l4 else h.ip + ip4HeaderBytes m h.ip

/-- The five-tuple of a resolved inner packet. -/
def innerTuple (m : Mem) (h : IpInnerHdr) : InnerTuple where
  isV6 := h.isV6
  src := if h.isV6 then bytesAt m (h.ip + 8) 16 else bytesAt m (h.ip + 12) 4
  dst := if h.isV6 then bytesAt m (h.ip + 24) 16 else bytesAt m (h.ip + 16) 4
  protocol := h.protocol
  ports := if isTcpUdp h.protocol
    then some (loadU16 m (realL4 m h), loadU16 m (realL4 m h + 2)) else none

/-- The two packets hash alike for every configuration with the peek and without flow
label and TEID, whatever the unshown lines do. -/
def Ip4FlowKept (m : Mem) (ip : ℕ) (m' : Mem) (ip' : ℕ) : Prop :=
  ∀ tail (cfg : FlowHashConfig), cfg.peekInner = true → cfg.fl = false → cfg.gtpv1Teid = false →
    ip4ComputeFlowHash tail m ip cfg = ip4ComputeFlowHash tail m' ip' cfg

@[inherit_doc Ip4FlowKept]
def Ip6FlowKept (m : Mem) (ip : ℕ) (m' : Mem) (ip' : ℕ) : Prop :=
  ∀ tail (cfg : FlowHashConfig), cfg.peekInner = true → cfg.fl = false → cfg.gtpv1Teid = false →
    ip6ComputeFlowHash tail m ip cfg = ip6ComputeFlowHash tail m' ip' cfg

/-- The two frames hash alike, whatever the hash primitives are. -/
def EthFlowKept (m : Mem) (eth : ℕ) (m' : Mem) (eth' : ℕ) : Prop :=
  ∀ up : HashEthUpstream, up.SkipsVlanTags →
    hashEthL34InnerInline up m eth = hashEthL34InnerInline up m' eth'

/-- The four bytes at offset 20 of both inner IPv4 headers coincide, where they are
taken for ports. -/
def PortBytesCoincide (m : Mem) (h : IpInnerHdr) (m' : Mem) (h' : IpInnerHdr) : Prop :=
  h.isV6 = true ∨ isTcpUdp h.protocol = false ∨
    (loadU16 m (h.ip + 20) = loadU16 m' (h'.ip + 20) ∧
      loadU16 m (h.ip + 22) = loadU16 m' (h'.ip + 22))

/-- The exclusive or of the two words at offset 20 of both inner IPv4 headers
coincides, where they are taken for ports. -/
def PortXorCoincides (m : Mem) (h : IpInnerHdr) (m' : Mem) (h' : IpInnerHdr) : Prop :=
  h.isV6 = true ∨ isTcpUdp h.protocol = false ∨
    loadU16 m (h.ip + 20) ^^^ loadU16 m (h.ip + 22)
      = loadU16 m' (h'.ip + 20) ^^^ loadU16 m' (h'.ip + 22)

/-! ## Equal tuples -/

section Tuple

variable {m m' : Mem} {h h' : IpInnerHdr}

/-- The addresses the hashes read are those of the tuple. -/
theorem innerTuple_words (ht : innerTuple m h = innerTuple m' h') :
    h.isV6 = h'.isV6 ∧ h.protocol = h'.protocol ∧
      (h.isV6 = false → loadU32 m (h.ip + 12) = loadU32 m' (h'.ip + 12) ∧
        loadU32 m (h.ip + 16) = loadU32 m' (h'.ip + 16)) ∧
      (h.isV6 = true → ∀ k < 32, m (h.ip + 8 + k) = m' (h'.ip + 8 + k)) := by
  simp only [innerTuple, InnerTuple.mk.injEq] at ht
  obtain ⟨h6, hsrc, hdst, hproto, -⟩ := ht
  refine ⟨h6, hproto, ?_, ?_⟩
  · intro hf
    rw [← h6, hf, if_neg Bool.false_ne_true, if_neg Bool.false_ne_true, bytesAt_eq_iff] at hsrc hdst
    exact ⟨loadU32_congr hsrc, loadU32_congr hdst⟩
  · intro ht k hk
    rw [← h6, ht, if_pos rfl, if_pos rfl, bytesAt_eq_iff] at hsrc hdst
    by_cases hk16 : k < 16
    · exact hsrc k hk16
    · have := hdst (k - 16) (by omega)
      rwa [show h.ip + 24 + (k - 16) = h.ip + 8 + k from by omega,
        show h'.ip + 24 + (k - 16) = h'.ip + 8 + k from by omega] at this

/-- For an inner IPv6 packet the ports the hashes read are those of the tuple. -/
theorem innerTuple_ports6 (ht : innerTuple m h = innerTuple m' h') (h6 : h.isV6 = true)
    (htu : isTcpUdp h.protocol = true) :
    loadU16 m h.l4 = loadU16 m' h'.l4 ∧ loadU16 m (h.l4 + 2) = loadU16 m' (h'.l4 + 2) := by
  obtain ⟨h6', hproto, -⟩ := innerTuple_words ht
  have hports := congrArg InnerTuple.ports ht
  simp only [innerTuple, ← hproto, htu, if_true, realL4, ← h6', h6, Option.some.injEq,
    Prod.mk.injEq] at hports
  exact hports

/-- The ports that the hashes read coincide iff the port bytes do. -/
theorem ports_eq_iff {lo hi lo' hi' : ℕ} (hin : Inside lo hi h) (hin' : Inside lo' hi' h')
    (ht : innerTuple m h = innerTuple m' h') :
    (isTcpUdp h.protocol = true →
        loadU16 m h.l4 = loadU16 m' h'.l4 ∧ loadU16 m (h.l4 + 2) = loadU16 m' (h'.l4 + 2)) ↔
      PortBytesCoincide m h m' h' := by
  obtain ⟨h6', -⟩ := innerTuple_words ht
  unfold PortBytesCoincide
  cases h6 : h.isV6 with
  | true => simp only [true_or, iff_true]; exact innerTuple_ports6 ht h6
  | false =>
    have hl4 : h.l4 = h.ip + 20 := hin.noOptions h6
    have hl4' : h'.l4 = h'.ip + 20 := hin'.noOptions (h6' ▸ h6)
    rw [hl4, hl4']
    cases isTcpUdp h.protocol <;> simp

end Tuple

/-! ## The IP surfaces -/

section Surfaces

variable {m m' : Mem} {ip ip' : ℕ} {h h' : IpInnerHdr}

/-- Without TEID, what is mixed depends on addresses, protocol and ports alone. -/
theorem hashFields_congr {w : ℕ} {cfg : FlowHashConfig} {x y : HashedHeader w}
    (hgtp : cfg.gtpv1Teid = false) (hsrc : x.src = y.src) (hdst : x.dst = y.dst)
    (hproto : x.protocol = y.protocol) (htu : x.isTcpUdp = y.isTcpUdp)
    (hports : y.isTcpUdp = true →
      loadU16 m x.tcp = loadU16 m' y.tcp ∧ loadU16 m (x.tcp + 2) = loadU16 m' (y.tcp + 2)) :
    hashFields m cfg none x = hashFields m' cfg none y := by
  have hteid : ∀ (m : Mem) isUdp udp, hashTeid m cfg isUdp udp = none := by
    intro m isUdp udp
    simp [hashTeid, hgtp]
  simp only [hashFields, hsrc, hdst, hproto, htu, hteid, hashPort]
  cases hy : y.isTcpUdp with
  | false => simp
  | true => rw [(hports hy).1, (hports hy).2]

/-- The configuration that selects both ports and the peek. -/
def portsCfg : FlowHashConfig := 0x20c

/-- With both ports selected, equal fields mean equal ports. -/
theorem ports_of_hashFields {w : ℕ} {x y : HashedHeader w} (hx : x.isTcpUdp = true)
    (hy : y.isTcpUdp = true)
    (heq : hashFields m portsCfg none x = hashFields m' portsCfg none y) :
    loadU16 m x.tcp = loadU16 m' y.tcp ∧ loadU16 m (x.tcp + 2) = loadU16 m' (y.tcp + 2) := by
  have hs : FlowHashConfig.srcPort portsCfg = true := by decide
  have hd : FlowHashConfig.dstPort portsCfg = true := by decide
  have h1 := congrArg HashFields.srcPort heq
  have h2 := congrArg HashFields.dstPort heq
  simp only [hashFields, hashPort, hx, hy, hs, hd, Bool.and_self, if_true] at h1 h2
  exact ⟨h1, h2⟩

theorem ip4Peek_inside (hres : ip4Peek m ip = some h) :
    Inside ip (ip + ip4Length m ip) h := by
  unfold ip4Peek at hres
  split_ifs at hres with hfrag hlen
  exact (ipInnerResolve_inside hres).mono (by omega) (by omega)

theorem ip4Words_eq (ht : innerTuple m h = innerTuple m' h') :
    (ip4InnerHeader m h).src = (ip4InnerHeader m' h').src ∧
      (ip4InnerHeader m h).dst = (ip4InnerHeader m' h').dst := by
  obtain ⟨h6, -, h4w, h6w⟩ := innerTuple_words ht
  simp only [ip4InnerHeader, ← h6]
  cases hv : h.isV6 with
  | false =>
    simp only [Bool.false_eq_true, if_false]
    exact h4w hv
  | true =>
    have hw : ∀ i, i + 4 ≤ 32 → loadU32 m (h.ip + 8 + i) = loadU32 m' (h'.ip + 8 + i) := by
      intro i hi
      refine loadU32_congr fun k hk => ?_
      rw [Nat.add_assoc, Nat.add_assoc _ i]
      exact h6w hv (i + k) (by omega)
    have h0 := hw 0 (by omega)
    have h16 := hw 16 (by omega)
    simp only [if_true, ip6AddrFoldU32]
    constructor
    · rw [hw 4 (by omega), hw 8 (by omega), hw 12 (by omega), show h.ip + 8 = h.ip + 8 + 0 from rfl,
        h0]
    · rw [show h.ip + 24 + 4 = h.ip + 8 + 20 from rfl, show h.ip + 24 + 8 = h.ip + 8 + 24 from rfl,
        show h.ip + 24 + 12 = h.ip + 8 + 28 from rfl, show h.ip + 24 = h.ip + 8 + 16 from rfl,
        hw 20 (by omega), hw 24 (by omega), hw 28 (by omega), h16]

theorem ip6Words_eq (ht : innerTuple m h = innerTuple m' h') :
    (ip6InnerHeader m h).src = (ip6InnerHeader m' h').src ∧
      (ip6InnerHeader m h).dst = (ip6InnerHeader m' h').dst := by
  obtain ⟨h6, -, h4w, h6w⟩ := innerTuple_words ht
  simp only [ip6InnerHeader, ← h6]
  cases hv : h.isV6 with
  | false =>
    simp only [Bool.false_eq_true, if_false]
    rw [(h4w hv).1, (h4w hv).2]
    exact ⟨rfl, rfl⟩
  | true =>
    have hw : ∀ i, i + 8 ≤ 32 → loadU64 m (h.ip + 8 + i) = loadU64 m' (h'.ip + 8 + i) := by
      intro i hi
      refine loadU64_congr fun k hk => ?_
      rw [Nat.add_assoc, Nat.add_assoc _ i]
      exact h6w hv (i + k) (by omega)
    have h0 := hw 0 (by omega)
    have h16 := hw 16 (by omega)
    simp only [if_true, ip6AddrFoldU64]
    constructor
    · rw [hw 8 (by omega), show h.ip + 8 = h.ip + 8 + 0 from rfl, h0]
    · rw [show h.ip + 24 + 8 = h.ip + 8 + 24 from rfl, show h.ip + 24 = h.ip + 8 + 16 from rfl,
        hw 24 (by omega), h16]

/-- **The IPv4 flow hash** of two packets with one inner flow. -/
theorem ip4FlowKept_iff (hres : ip4Peek m ip = some h) (hres' : ip4Peek m' ip' = some h')
    (ht : innerTuple m h = innerTuple m' h') :
    Ip4FlowKept m ip m' ip' ↔ PortBytesCoincide m h m' h' := by
  rw [← ports_eq_iff (ip4Peek_inside hres) (ip4Peek_inside hres') ht]
  obtain ⟨-, hproto, -⟩ := innerTuple_words ht
  have hfields : ∀ cfg : FlowHashConfig, cfg.peekInner = true →
      ip4HashFields m ip cfg = hashFields m cfg none (ip4InnerHeader m h) ∧
      ip4HashFields m' ip' cfg = hashFields m' cfg none (ip4InnerHeader m' h') := by
    intro cfg hpeek
    simp only [ip4HashFields, ip4Inner, hpeek, if_true, hres, hres', and_self]
  constructor
  · intro hkept htu
    have heq := tail_ip4_eq_iff.1 fun tail =>
      hkept tail portsCfg (by decide) (by decide) (by decide)
    rw [(hfields portsCfg (by decide)).1, (hfields portsCfg (by decide)).2] at heq
    have htu' : isTcpUdp h'.protocol = true := hproto ▸ htu
    exact ports_of_hashFields (x := ip4InnerHeader m h) (y := ip4InnerHeader m' h') htu htu' heq
  · intro hports tail cfg hpeek _ hgtp
    unfold ip4ComputeFlowHash
    rw [(hfields cfg hpeek).1, (hfields cfg hpeek).2]
    refine congrArg _ (hashFields_congr hgtp (ip4Words_eq ht).1 (ip4Words_eq ht).2 hproto ?_ ?_)
    · simp only [ip4InnerHeader, hproto]
    · intro htu
      exact hports (hproto ▸ htu)

theorem ip6WalkHopByHop_bounds (m : Mem) (ip : ℕ) :
    (ip6WalkHopByHop m ip).2.1 = ip + 40 + (ip6WalkHopByHop m ip).2.2 := by
  by_cases hp : ip6Protocol m ip = protocolIp6HopByHopOptions
  · by_cases hlen : extBytes m (ip + 40) ≤ ip6PayloadLength m ip
    · rw [ip6WalkHopByHop_covered hp hlen]
    · rw [ip6WalkHopByHop_stays fun _ => Nat.lt_of_not_le hlen, Nat.add_zero]
  · rw [ip6WalkHopByHop_stays fun h => absurd h hp, Nat.add_zero]

theorem ip6Peek_inside (hres : ip6Peek m ip = some h) :
    Inside ip (ip + 40 + ip6PayloadLength m ip) h := by
  have hb := ip6WalkHopByHop_bounds m ip
  unfold ip6Peek at hres
  revert hb hres
  generalize ip6WalkHopByHop m ip = walk
  obtain ⟨protocol, cur, walked⟩ := walk
  intro hres hb
  simp only at hres hb
  split_ifs at hres with hstop hlen
  exact (ipInnerResolve_inside hres).mono (by omega) (by omega)

/-- **The IPv6 flow hash** of two packets with one inner flow. -/
theorem ip6FlowKept_iff (hres : ip6Peek m ip = some h) (hres' : ip6Peek m' ip' = some h')
    (ht : innerTuple m h = innerTuple m' h') :
    Ip6FlowKept m ip m' ip' ↔ PortBytesCoincide m h m' h' := by
  rw [← ports_eq_iff (ip6Peek_inside hres) (ip6Peek_inside hres') ht]
  obtain ⟨-, hproto, -⟩ := innerTuple_words ht
  have hfields : ∀ cfg : FlowHashConfig, cfg.peekInner = true → cfg.fl = false →
      ip6HashFields m ip cfg = hashFields m cfg none (ip6InnerHeader m h) ∧
      ip6HashFields m' ip' cfg = hashFields m' cfg none (ip6InnerHeader m' h') := by
    intro cfg hpeek hfl
    simp only [ip6HashFields, ip6Inner, ip6FlowLabel, hpeek, hfl, if_true, hres, hres',
      Bool.false_eq_true, if_false, and_self]
  constructor
  · intro hkept htu
    have heq := tail_ip6_eq_iff.1 fun tail =>
      hkept tail portsCfg (by decide) (by decide) (by decide)
    obtain ⟨hf, hf'⟩ := hfields portsCfg (by decide) (by decide)
    rw [hf, hf'] at heq
    have htu' : isTcpUdp h'.protocol = true := hproto ▸ htu
    exact ports_of_hashFields (x := ip6InnerHeader m h) (y := ip6InnerHeader m' h') htu htu' heq
  · intro hports tail cfg hpeek hfl hgtp
    unfold ip6ComputeFlowHash
    rw [(hfields cfg hpeek hfl).1, (hfields cfg hpeek hfl).2]
    refine congrArg _ (hashFields_congr hgtp (ip6Words_eq ht).1 (ip6Words_eq ht).2 hproto ?_ ?_)
    · simp only [ip6InnerHeader, hproto]
    · intro htu
      exact hports (hproto ▸ htu)

/-! ## The LAG surface -/

/-- The peek of an untagged frame is bounded by its outer datagram, so its inner IPv4
header has its ports behind 20 bytes. -/
theorem hashEthInner_noOptions {eth ethertypeP : ℕ} (hres : hashEthInner m eth ethertypeP = some h)
    (h6 : h.isV6 = false) : h.l4 = h.ip + 20 := by
  simp only [hashEthInner] at hres
  split_ifs at hres
  · exact (ipInnerResolve_inside hres).noOptions h6
  · exact (ipInnerResolve_inside hres).noOptions h6

/-- The hash of a frame whose inner header is resolved. -/
theorem hashEth_inner (up : HashEthUpstream) (hup : up.SkipsVlanTags) {eth n : ℕ}
    (htags : VlanTags m eth n) (hres : hashEthInner m eth (eth + 12 + 4 * n) = some h) :
    hashEthL34InnerInline up m eth = hashEthInnerLbHash up m h := by
  simp only [hashEthL34InnerInline, hup m eth n htags, hres]

/-- An upstream whose hashes show the ports. -/
def HashEthUpstream.showPorts : HashEthUpstream where
  lbHash2Tuples _ ports := ports
  lbHash _ _ _ _ ports := ports.setWidth 32
  hashEthL2 _ _ := 0
  locateEthertype m eth :=
    if isVlanType (netU16 m (eth + 12)) then
      if netU16 m (eth + 16) = 0x8100 then eth + 20 else eth + 16
    else eth + 12

theorem showPorts_skips : HashEthUpstream.showPorts.SkipsVlanTags := by
  intro m eth n htags
  match n with
  | 0 => simp [HashEthUpstream.showPorts, show isVlanType _ = false from htags]
  | 1 =>
    obtain ⟨htag, hne⟩ := htags
    simp only [HashEthUpstream.showPorts, htag, if_true, if_neg hne]
  | 2 => simp [HashEthUpstream.showPorts, htags.1, htags.2]
  | _ + 3 => exact htags.elim

/-- **The LAG hash** of two untagged frames with one inner flow. -/
theorem ethFlowKept_iff {eth eth' : ℕ} (htags : VlanTags m eth 0) (htags' : VlanTags m' eth' 0)
    (hres : hashEthInner m eth (eth + 12) = some h)
    (hres' : hashEthInner m' eth' (eth' + 12) = some h')
    (ht : innerTuple m h = innerTuple m' h') :
    EthFlowKept m eth m' eth' ↔ PortXorCoincides m h m' h' := by
  obtain ⟨h6', hproto, h4w, h6w⟩ := innerTuple_words ht
  have hhash : ∀ up : HashEthUpstream, up.SkipsVlanTags →
      hashEthL34InnerInline up m eth = hashEthInnerLbHash up m h ∧
      hashEthL34InnerInline up m' eth' = hashEthInnerLbHash up m' h' := fun up hup =>
    ⟨hashEth_inner up hup htags hres, hashEth_inner up hup htags' hres'⟩
  -- of the ports the hash has one word; for IPv4 it is their exclusive or
  have hports : hashEthPorts m h.protocol h.l4 = hashEthPorts m' h'.protocol h'.l4 ↔
      PortXorCoincides m h m' h' := by
    unfold PortXorCoincides hashEthPorts
    rw [← hproto]
    cases htu : isTcpUdp h.protocol with
    | false => simp
    | true =>
      cases h6 : h.isV6 with
      | true =>
        obtain ⟨h1, h2⟩ := innerTuple_ports6 ht h6 htu
        simp [h1, h2]
      | false =>
        rw [hashEthInner_noOptions hres h6, hashEthInner_noOptions hres' (h6' ▸ h6)]
        simp only [if_true, Bool.false_eq_true, Bool.true_eq_false, false_or,
          ← BitVec.setWidth_xor]
        constructor
        · intro heq
          have := congrArg (fun x : BitVec 32 => x.setWidth 16) heq
          simpa using this
        · intro heq
          rw [heq]
  rw [← hports]
  constructor
  · intro hkept
    -- a hash that shows this word tells the two apart
    have := hkept _ showPorts_skips
    rw [(hhash _ showPorts_skips).1, (hhash _ showPorts_skips).2] at this
    simp only [hashEthInnerLbHash, hashEthIp4, hashEthIp6, HashEthUpstream.showPorts, ← h6'] at this
    simpa using this
  · intro heq up hup
    rw [(hhash up hup).1, (hhash up hup).2]
    unfold hashEthInnerLbHash
    rw [heq, ← h6']
    cases h6 : h.isV6 with
    | false =>
      simp only [Bool.false_eq_true, if_false, hashEthIp4]
      obtain ⟨hs, hd⟩ := h4w h6
      have hpair : loadU64 m (h.ip + 12) = loadU64 m' (h'.ip + 12) := by
        simp only [loadU64, hs, hd]
      rw [hpair]
    | true =>
      have hw : ∀ i, i + 8 ≤ 32 → loadU64 m (h.ip + 8 + i) = loadU64 m' (h'.ip + 8 + i) := by
        intro i hi
        refine loadU64_congr fun k hk => ?_
        rw [Nat.add_assoc, Nat.add_assoc _ i]
        exact h6w h6 (i + k) (by omega)
      simp only [if_true, hashEthIp6]
      rw [show h.ip + 16 = h.ip + 8 + 8 from rfl, show h.ip + 24 = h.ip + 8 + 16 from rfl,
        show h.ip + 32 = h.ip + 8 + 24 from rfl, hw 8 (by omega), hw 16 (by omega),
        hw 24 (by omega), show h.ip + 8 = h.ip + 8 + 0 from rfl, hw 0 (by omega)]

end Surfaces

/-- **Inner flows, exactly.**  Two packets with the same inner five-tuple hash alike
on the IP surfaces iff the bytes taken for ports coincide, and on the LAG surface iff
their exclusive or does; this holds for inner IPv6, for protocols without ports, and
for inner IPv4 headers without options. -/
theorem innerFlow_kept_iff (m m' : Mem) (a a' : ℕ) (h h' : IpInnerHdr)
    (ht : innerTuple m h = innerTuple m' h') :
    (ip4Peek m a = some h → ip4Peek m' a' = some h' →
      (Ip4FlowKept m a m' a' ↔ PortBytesCoincide m h m' h')) ∧
    (ip6Peek m a = some h → ip6Peek m' a' = some h' →
      (Ip6FlowKept m a m' a' ↔ PortBytesCoincide m h m' h')) ∧
    (VlanTags m a 0 → VlanTags m' a' 0 →
      hashEthInner m a (a + 12) = some h → hashEthInner m' a' (a' + 12) = some h' →
      (EthFlowKept m a m' a' ↔ PortXorCoincides m h m' h')) :=
  ⟨fun hres hres' => ip4FlowKept_iff hres hres' ht, fun hres hres' => ip6FlowKept_iff hres hres' ht,
    fun htags htags' hres hres' => ethFlowKept_iff htags htags' hres hres' ht⟩

/-- An IPv4-in-IPv4 packet to 192.0.2.1 with the given total length, last byte of the
outer source, and inner packet. -/
def ipInIpPacket (length src : BitVec 8) (inner : List (BitVec 8)) : Mem :=
  ofList ([0x45, 0, 0, length, 0, 0, 0, 0, 64, protocolIpInIp, 0, 0, 192, 0, 2, src, 192, 0, 2, 1]
    ++ inner)

/-- An inner IPv4 TCP packet from 10.1.1.1:1000 to 10.2.2.2:2000 with the given options. -/
def innerTcp (options : List (BitVec 8)) : List (BitVec 8) :=
  [0x45 + BitVec.ofNat 8 (options.length / 4), 0, 0, 28, 0, 0, 0, 0, 64, protocolTcp, 0, 0,
    10, 1, 1, 1, 10, 2, 2, 2] ++ options ++ [0x03, 0xe8, 0x07, 0xd0, 0, 0, 0, 0]

/-- The flow of `innerTcp`. -/
def tcpFlow : InnerTuple :=
  ⟨false, [10, 1, 1, 1], [10, 2, 2, 2], protocolTcp, some (0xe803, 0xd007)⟩

/-- Two tunnel packets with different outer sources and one inner flow without options
hash alike. -/
theorem innerFlow_kept_plain :
    Ip4FlowKept (ipInIpPacket 48 7 (innerTcp [])) 0 (ipInIpPacket 48 9 (innerTcp [])) 0 := by
  have ht : innerTuple (ipInIpPacket 48 7 (innerTcp [])) ⟨20, false, 40, protocolTcp⟩
      = tcpFlow := by decide
  have ht' : innerTuple (ipInIpPacket 48 9 (innerTcp [])) ⟨20, false, 40, protocolTcp⟩
      = tcpFlow := by decide
  refine ((innerFlow_kept_iff _ _ 0 0 _ _ (ht.trans ht'.symm)).1 (by decide) (by decide)).2
    (Or.inr (Or.inr ⟨?_, ?_⟩))
  · decide
  · decide

/-- The same inner flow with and without four bytes of IPv4 options: both inner headers
are resolved, the five-tuples coincide, and the hashes do not. -/
theorem innerOptions_split :
    ip4Peek (ipInIpPacket 48 7 (innerTcp [])) 0 = some ⟨20, false, 40, protocolTcp⟩ ∧
    ip4Peek (ipInIpPacket 52 7 (innerTcp [1, 1, 1, 1])) 0 = some ⟨20, false, 40, protocolTcp⟩ ∧
    innerTuple (ipInIpPacket 48 7 (innerTcp [])) ⟨20, false, 40, protocolTcp⟩ = tcpFlow ∧
    innerTuple (ipInIpPacket 52 7 (innerTcp [1, 1, 1, 1])) ⟨20, false, 40, protocolTcp⟩
      = tcpFlow ∧
    ¬ Ip4FlowKept (ipInIpPacket 48 7 (innerTcp [])) 0
      (ipInIpPacket 52 7 (innerTcp [1, 1, 1, 1])) 0 := by
  refine ⟨by decide, by decide, by decide, by decide, fun hkept => ?_⟩
  have := hkept ⟨fun _ f => f.srcPort.setWidth 32, fun _ _ => 0⟩ portsCfg (by decide) (by decide)
    (by decide)
  revert this
  decide

end InnerHash
