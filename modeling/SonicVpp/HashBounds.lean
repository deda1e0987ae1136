/-
# Bytes outside the packet

A hash that uses an inner header should not depend on bytes at or beyond the end of
the outer IP datagram.  The resolver keeps to the bounded view, and 8 bytes of the
inner payload are inside it; what leaves the datagram is the TEID read of the IP
hashes, 16 bytes into the inner payload, and the LAG hash of an IPv6 frame with one
VLAN tag, which takes the IPv6 header 4 bytes too early (`HashTagged`).
-/
import SonicVpp.InnerFlow

open PacketBytes Ip

namespace InnerHash

/-! ## Independence of outside bytes -/

/-- The IPv4 flow hash is the same for every memory that holds the same bytes below
the end of the datagram. -/
def Ip4Bounded (m : Mem) (ip : ℕ) (cfg : FlowHashConfig) : Prop :=
  ∀ tail m', AgreeBelow (ip + ip4Length m ip) m m' →
    ip4ComputeFlowHash tail m ip cfg = ip4ComputeFlowHash tail m' ip cfg

/-- The IPv6 flow hash is the same for every memory that holds the same bytes below
the end of the datagram. -/
def Ip6Bounded (m : Mem) (ip : ℕ) (cfg : FlowHashConfig) : Prop :=
  ∀ tail m', AgreeBelow (ip + 40 + ip6PayloadLength m ip) m m' →
    ip6ComputeFlowHash tail m ip cfg = ip6ComputeFlowHash tail m' ip cfg

/-- The end of the IP datagram that starts at `l3`. -/
def datagramEnd (m : Mem) (l3 : ℕ) : ℕ :=
  if version m l3 = 4 then l3 + ip4Length m l3 else l3 + 40 + ip6PayloadLength m l3

/-- The LAG hash of a frame with `n` VLAN tags is the same for every memory that holds
the same bytes below the end of the outer datagram. -/
def EthBounded (m : Mem) (eth n : ℕ) : Prop :=
  ∀ up : HashEthUpstream, up.SkipsVlanTags → ∀ m',
    AgreeBelow (datagramEnd m (eth + 14 + 4 * n)) m m' →
      hashEthL34InnerInline up m eth = hashEthL34InnerInline up m' eth

/-- The TEID is selected and read, and its four bytes leave the datagram. -/
def TeidOverrun (m : Mem) (cfg : FlowHashConfig) (h : IpInnerHdr) (datagramEnd : ℕ) : Prop :=
  cfg.gtpv1Teid = true ∧ h.protocol = protocolUdp ∧ netU16 m (h.l4 + 2) = 2152 ∧
    datagramEnd < h.l4 + 16

/-! ## The IP surfaces -/

section Ip

variable {n : ℕ} {m m' : Mem} {ip : ℕ} {cfg : FlowHashConfig} {h : IpInnerHdr}

/-- What is mixed of a header stays the same if the TEID is inside. -/
theorem hashFields_agree {w : ℕ} (hag : AgreeBelow n m m') {x : HashedHeader w}
    {fl : Option (BitVec 32)} (htcp : x.tcp + 4 ≤ n) (hudp : x.udp + 4 ≤ n)
    (hteid : x.isUdp = true → cfg.gtpv1Teid = true → netU16 m (x.udp + 2) = 2152 →
      x.udp + 16 ≤ n) :
    hashFields m cfg fl x = hashFields m' cfg fl x := by
  have hteid' : hashTeid m cfg x.isUdp x.udp = hashTeid m' cfg x.isUdp x.udp := by
    unfold hashTeid
    rw [← hag.netU16 (i := x.udp + 2) (by omega)]
    by_cases hsel : (x.isUdp && cfg.gtpv1Teid && decide (netU16 m (x.udp + 2) = 2152)) = true
    · rw [if_pos hsel, if_pos hsel]
      simp only [Bool.and_eq_true, decide_eq_true_eq] at hsel
      have := hteid hsel.1.1 hsel.1.2 hsel.2
      rw [hag.loadU32 (i := x.udp + 8 + 4) (by omega)]
    · rw [if_neg hsel, if_neg hsel]
  simp only [hashFields, hteid', hashPort, hag.loadU16 (i := x.tcp) (by omega),
    hag.loadU16 (i := x.tcp + 2) (by omega)]

/-- A TEID that leaves the datagram shows a changed byte. -/
theorem hashFields_teid_ne {w : ℕ} {x : HashedHeader w} {fl fl' : Option (BitVec 32)}
    (hudp : x.isUdp = true) (hsel : cfg.gtpv1Teid = true) (hport : netU16 m (x.udp + 2) = 2152)
    (hport' : netU16 m' (x.udp + 2) = 2152) (hne : m (x.udp + 15) ≠ m' (x.udp + 15)) :
    hashFields m cfg fl x ≠ hashFields m' cfg fl' x := by
  intro heq
  have hteid := congrArg HashFields.teid heq
  simp only [hashFields, hashTeid, hudp, hsel, hport, hport', Bool.and_self, decide_true, if_true,
    Option.some.injEq] at hteid
  exact hne (loadU32_top hteid)

/-- The inner header that the hashes use is inside, so it is the same in both
memories. -/
theorem ip4InnerHeader_agree (hag : AgreeBelow n m m') {lo : ℕ} (hin : Inside lo n h) :
    ip4InnerHeader m h = ip4InnerHeader m' h := by
  have hl4 := hin.l4
  have hhdr := hin.header
  simp only [ipInnerL4MinBytes] at hl4
  cases h6 : h.isV6 with
  | false =>
    simp only [h6, Bool.false_eq_true, if_false, ip4HeaderSize] at hhdr
    simp only [ip4InnerHeader, h6, Bool.false_eq_true, if_false,
      hag.loadU32 (i := h.ip + 12) (by omega), hag.loadU32 (i := h.ip + 16) (by omega)]
  | true =>
    simp only [h6, if_true, ip6HeaderSize] at hhdr
    have hfold : ∀ a, a + 16 ≤ h.ip + 40 → ip6AddrFoldU32 m a = ip6AddrFoldU32 m' a := by
      intro a ha
      simp only [ip6AddrFoldU32, hag.loadU32 (i := a) (by omega),
        hag.loadU32 (i := a + 4) (by omega), hag.loadU32 (i := a + 8) (by omega),
        hag.loadU32 (i := a + 12) (by omega)]
    simp only [ip4InnerHeader, h6, if_true, hfold (h.ip + 8) (by omega),
      hfold (h.ip + 24) (by omega)]

theorem ip6InnerHeader_agree (hag : AgreeBelow n m m') {lo : ℕ} (hin : Inside lo n h) :
    ip6InnerHeader m h = ip6InnerHeader m' h := by
  have hl4 := hin.l4
  have hhdr := hin.header
  simp only [ipInnerL4MinBytes] at hl4
  cases h6 : h.isV6 with
  | false =>
    simp only [h6, Bool.false_eq_true, if_false, ip4HeaderSize] at hhdr
    simp only [ip6InnerHeader, h6, Bool.false_eq_true, if_false,
      hag.loadU32 (i := h.ip + 12) (by omega), hag.loadU32 (i := h.ip + 16) (by omega)]
  | true =>
    simp only [h6, if_true, ip6HeaderSize] at hhdr
    have hfold : ∀ a, a + 16 ≤ h.ip + 40 → ip6AddrFoldU64 m a = ip6AddrFoldU64 m' a := by
      intro a ha
      simp only [ip6AddrFoldU64, hag.loadU64 (i := a) (by omega),
        hag.loadU64 (i := a + 8) (by omega)]
    simp only [ip6InnerHeader, h6, if_true, hfold (h.ip + 8) (by omega),
      hfold (h.ip + 24) (by omega)]

theorem ip4Peek_agree (hag : AgreeBelow n m m') (hip : ip + 20 ≤ n)
    (hn : ip + ip4Length m ip ≤ n) : ip4Peek m ip = ip4Peek m' ip := by
  obtain ⟨-, hihl, hlen, hfrag, hproto⟩ := ip4_congr hag hip
  unfold ip4Peek
  rw [← hfrag, ← hihl, ← hlen, ← hproto]
  by_cases hle : ip4HeaderBytes m ip ≤ ip4Length m ip
  · rw [ipInnerResolve_congr hag (by omega)]
  · rw [if_neg hle, if_neg hle]

theorem ip6WalkHopByHop_agree (hag : AgreeBelow n m m') (hn : ip + 40 + ip6PayloadLength m ip ≤ n) :
    ip6WalkHopByHop m ip = ip6WalkHopByHop m' ip := by
  obtain ⟨-, hlen, hproto⟩ := ip6_congr hag (i := ip) (by omega)
  unfold ip6WalkHopByHop
  rw [← hproto, ← hlen]
  by_cases h2 : 2 ≤ ip6PayloadLength m ip
  · obtain ⟨hext, hbytes⟩ := ext_congr hag (i := ip + ip6HeaderSize)
      (by simp only [ip6HeaderSize]; omega)
    simp only [hext, hbytes]
  · simp [h2]

theorem ip6Peek_agree (hag : AgreeBelow n m m') (hn : ip + 40 + ip6PayloadLength m ip ≤ n) :
    ip6Peek m ip = ip6Peek m' ip := by
  obtain ⟨-, hlen, hproto⟩ := ip6_congr hag (i := ip) (by omega)
  have hb := ip6WalkHopByHop_bounds m ip
  unfold ip6Peek
  rw [← ip6WalkHopByHop_agree hag hn, ← hlen, ← hproto]
  revert hb
  generalize ip6WalkHopByHop m ip = walk
  obtain ⟨protocol, cur, walked⟩ := walk
  intro hb
  simp only at hb ⊢
  by_cases hle : walked ≤ ip6PayloadLength m ip
  · rw [ipInnerResolve_congr hag (by omega)]
  · rw [if_neg hle, if_neg hle]

/-- **The IPv4 flow hash** depends on outside bytes exactly through the TEID. -/
theorem ip4Bounded_iff (hpeek : cfg.peekInner = true) (hres : ip4Peek m ip = some h) :
    Ip4Bounded m ip cfg ↔ ¬ TeidOverrun m cfg h (ip + ip4Length m ip) := by
  have hin := ip4Peek_inside hres
  have hstart := hin.start
  have hhdr : h.ip + 20 ≤ h.l4 := by
    have := hin.header
    cases h6 : h.isV6 with
    | false => rwa [h6] at this
    | true =>
      rw [h6] at this
      simp only [if_true, ip6HeaderSize] at this
      omega
  have hl4 : h.l4 + 8 ≤ ip + ip4Length m ip := hin.l4
  have hfields : ∀ m', AgreeBelow (ip + ip4Length m ip) m m' →
      ip4HashFields m ip cfg = hashFields m cfg none (ip4InnerHeader m h) ∧
      ip4HashFields m' ip cfg = hashFields m' cfg none (ip4InnerHeader m h) := by
    intro m' hag
    have hres' : ip4Peek m' ip = some h := by
      rw [← ip4Peek_agree hag (by omega) le_rfl, hres]
    simp only [ip4HashFields, ip4Inner, hpeek, if_true, hres, hres', true_and,
      ip4InnerHeader_agree hag hin]
  constructor
  · rintro hbound ⟨hsel, hudp, hport, hend⟩
    -- change the last byte of the TEID
    have hag := agreeBelow_update (n := ip + ip4Length m ip) m (i := h.l4 + 15) (by omega)
      (m (h.l4 + 15) + 1)
    have hport' := hag.netU16 (i := h.l4 + 2) (by omega)
    have heq := tail_ip4_eq_iff.1 fun tail => hbound tail _ hag
    rw [(hfields _ hag).1, (hfields _ hag).2] at heq
    refine hashFields_teid_ne (x := ip4InnerHeader m h) (decide_eq_true hudp) hsel hport
      (hport'.symm.trans hport) ?_ heq
    simp [ip4InnerHeader]
  · intro hno tail m' hag
    unfold ip4ComputeFlowHash
    rw [(hfields m' hag).1, (hfields m' hag).2]
    refine congrArg _ (hashFields_agree hag ?_ ?_ ?_)
    · simp only [ip4InnerHeader]; omega
    · simp only [ip4InnerHeader]; omega
    · intro hudp hsel hport
      by_contra hend
      simp only [ip4InnerHeader, decide_eq_true_eq] at hudp hport hend
      exact hno ⟨hsel, hudp, hport, by omega⟩

/-- **The IPv6 flow hash** depends on outside bytes exactly through the TEID. -/
theorem ip6Bounded_iff (hpeek : cfg.peekInner = true) (hres : ip6Peek m ip = some h) :
    Ip6Bounded m ip cfg ↔ ¬ TeidOverrun m cfg h (ip + 40 + ip6PayloadLength m ip) := by
  have hin := ip6Peek_inside hres
  have hl4 : h.l4 + 8 ≤ ip + 40 + ip6PayloadLength m ip := hin.l4
  have hfields : ∀ m', AgreeBelow (ip + 40 + ip6PayloadLength m ip) m m' →
      ip6HashFields m ip cfg
        = hashFields m cfg (ip6FlowLabel m ip cfg) (ip6InnerHeader m h) ∧
      ip6HashFields m' ip cfg
        = hashFields m' cfg (ip6FlowLabel m ip cfg) (ip6InnerHeader m h) := by
    intro m' hag
    have hres' : ip6Peek m' ip = some h := by
      rw [← ip6Peek_agree hag le_rfl, hres]
    simp only [ip6HashFields, ip6Inner, ip6FlowLabel, hpeek, if_true, hres, hres', true_and,
      ip6InnerHeader_agree hag hin, hag.loadU32 (i := ip) (by omega)]
  constructor
  · rintro hbound ⟨hsel, hudp, hport, hend⟩
    have hag := agreeBelow_update (n := ip + 40 + ip6PayloadLength m ip) m (i := h.l4 + 15)
      (by omega) (m (h.l4 + 15) + 1)
    have hport' := hag.netU16 (i := h.l4 + 2) (by omega)
    have heq := tail_ip6_eq_iff.1 fun tail => hbound tail _ hag
    rw [(hfields _ hag).1, (hfields _ hag).2] at heq
    refine hashFields_teid_ne (x := ip6InnerHeader m h) (decide_eq_true hudp) hsel hport
      (hport'.symm.trans hport) ?_ heq
    simp [ip6InnerHeader]
  · intro hno tail m' hag
    unfold ip6ComputeFlowHash
    rw [(hfields m' hag).1, (hfields m' hag).2]
    refine congrArg _ (hashFields_agree hag ?_ ?_ ?_)
    · simp only [ip6InnerHeader]; omega
    · simp only [ip6InnerHeader]; omega
    · intro hudp hsel hport
      by_contra hend
      simp only [ip6InnerHeader, decide_eq_true_eq] at hudp hport hend
      exact hno ⟨hsel, hudp, hport, by omega⟩

end Ip

/-! ## The LAG surface -/

section Eth

variable {N : ℕ} {m m' : Mem} {eth n : ℕ} {h : IpInnerHdr}

/-- The hash of an inner header whose addresses, and ports if it has any, are the same. -/
theorem hashEthInnerLbHash_congr (up : HashEthUpstream) {l4 : ℕ} (hag : AgreeBelow N m m')
    (haddr : h.ip + (if h.isV6 then ip6HeaderSize else ip4HeaderSize) ≤ N)
    (hports : isTcpUdp h.protocol = true → l4 = h.l4 ∧ h.l4 + 4 ≤ N) :
    hashEthInnerLbHash up m h = hashEthInnerLbHash up m' { h with l4 := l4 } := by
  have hp : hashEthPorts m h.protocol h.l4 = hashEthPorts m' h.protocol l4 := by
    cases htu : isTcpUdp h.protocol with
    | false => simp [hashEthPorts, htu]
    | true =>
      obtain ⟨rfl, hin⟩ := hports htu
      simp only [hashEthPorts, hag.loadU16 (i := h.l4) (by omega),
        hag.loadU16 (i := h.l4 + 2) (by omega)]
  unfold hashEthInnerLbHash
  rw [hp]
  cases h6 : h.isV6 with
  | false =>
    simp only [h6, Bool.false_eq_true, if_false, ip4HeaderSize] at haddr
    simp only [Bool.false_eq_true, if_false, hashEthIp4, hag.loadU64 (i := h.ip + 12) (by omega)]
  | true =>
    simp only [h6, if_true, ip6HeaderSize] at haddr
    simp only [if_true, hashEthIp6, hag.loadU64 (i := h.ip + 8) (by omega),
      hag.loadU64 (i := h.ip + 16) (by omega), hag.loadU64 (i := h.ip + 24) (by omega),
      hag.loadU64 (i := h.ip + 32) (by omega)]

/-- The VLAN tags are in front of the IP header. -/
theorem vlanTags_agree (hag : AgreeBelow N m m') (hn : eth + 14 + 4 * n ≤ N)
    (htags : VlanTags m eth n) : VlanTags m' eth n := by
  match n with
  | 0 =>
    simp only [VlanTags, ← hag.netU16 (i := eth + 12) (by omega)]
    exact htags
  | 1 =>
    simp only [VlanTags, ← hag.netU16 (i := eth + 12) (by omega),
      ← hag.netU16 (i := eth + 16) (by omega)]
    exact htags
  | 2 =>
    simp only [VlanTags, ← hag.netU16 (i := eth + 12) (by omega),
      ← hag.netU16 (i := eth + 16) (by omega)]
    exact htags
  | _ + 3 => exact htags.elim

/-- A resolved inner header that is inside, and is resolved alike in every memory with
the same bytes below `N`, makes the hash independent of the bytes from `N` on. -/
theorem hashEth_agree (up : HashEthUpstream) (hup : up.SkipsVlanTags) (hag : AgreeBelow N m m')
    (hn : eth + 14 + 4 * n ≤ N) (htags : VlanTags m eth n)
    (hres : hashEthInner m eth (eth + 12 + 4 * n) = some h)
    (hres' : hashEthInner m' eth (eth + 12 + 4 * n) = some h) {lo : ℕ} (hin : Inside lo N h) :
    hashEthL34InnerInline up m eth = hashEthL34InnerInline up m' eth := by
  have hl4 : h.l4 + 8 ≤ N := hin.l4
  rw [hashEth_inner up hup htags hres, hashEth_inner up hup (vlanTags_agree hag hn htags) hres']
  exact hashEthInnerLbHash_congr up hag (hin.header.trans (by omega)) fun _ => ⟨rfl, by omega⟩

/-- Outer IPv4: the header is behind the VLAN tags. -/
theorem ethBounded_ip4 (htags : VlanTags m eth n) (hv : version m (eth + 14 + 4 * n) = 4)
    (hres : hashEthInner m eth (eth + 12 + 4 * n) = some h) : EthBounded m eth n := by
  intro up hup m' hag
  have hpos : eth + 12 + 4 * n + 2 = eth + 14 + 4 * n := by omega
  have hend : datagramEnd m (eth + 14 + 4 * n)
      = eth + 14 + 4 * n + ip4Length m (eth + 14 + 4 * n) := by simp [datagramEnd, hv]
  rw [hend] at hag
  have hres0 := hres
  simp only [hashEthInner, hpos, hv, if_true] at hres
  split_ifs at hres with hty hfrag hlen
  have hin : Inside (eth + 14 + 4 * n) (eth + 14 + 4 * n + ip4Length m (eth + 14 + 4 * n)) h :=
    (ipInnerResolve_inside hres).mono (by omega) (by omega)
  have hl4 : h.l4 + 8 ≤ _ := hin.l4
  have hhdr := hin.header
  have hstart := hin.start
  have h20 : eth + 14 + 4 * n + 20 ≤ eth + 14 + 4 * n + ip4Length m (eth + 14 + 4 * n) := by
    cases h6 : h.isV6 with
    | false =>
      simp only [h6, Bool.false_eq_true, if_false, ip4HeaderSize] at hhdr
      omega
    | true =>
      simp only [h6, if_true, ip6HeaderSize] at hhdr
      omega
  refine hashEth_agree up hup hag (by omega) htags hres0 ?_ hin
  obtain ⟨hver, hihl, hlen', hfrag', hproto⟩ := ip4_congr hag h20
  have hty' := hag.netU16 (i := eth + 12 + 4 * n) (by omega)
  simp only [hashEthInner, hpos, ← hver, hv, if_true, ← hty', ← hfrag', ← hihl, ← hlen', ← hproto,
    if_neg hty, if_neg hfrag, if_pos hlen]
  rw [← ipInnerResolve_congr hag (by omega)]
  exact hres

/-- Outer IPv6 without VLAN tags: the header is where the code takes it. -/
theorem ethBounded_ip6 (htags : VlanTags m eth 0) (hv : version m (eth + 14) = 6)
    (hres : hashEthInner m eth (eth + 12) = some h) : EthBounded m eth 0 := by
  intro up hup m' hag
  have h64 : (6 : BitVec 4) ≠ 4 := by decide
  have hend : datagramEnd m (eth + 14 + 4 * 0) = eth + 14 + 40 + ip6PayloadLength m (eth + 14) := by
    simp [datagramEnd, hv]
  rw [hend] at hag
  have hres0 := hres
  simp only [hashEthInner, hv, if_neg h64, if_true, ethernetHeaderSize, ip6HeaderSize] at hres
  split_ifs at hres with hty
  have hin := ipInnerResolve_inside hres
  refine hashEth_agree (n := 0) up hup hag (by omega) htags hres0 ?_ hin
  obtain ⟨hver, hlen', hproto⟩ := ip6_congr hag (i := eth + 14) (by omega)
  have hty' := hag.netU16 (i := eth + 12) (by omega)
  simp only [hashEthInner, Nat.mul_zero, Nat.add_zero, ← hver, hv, if_neg h64, if_true, ← hty',
    if_neg hty, ethernetHeaderSize, ip6HeaderSize, ← hlen', ← hproto]
  rw [← ipInnerResolve_congr hag (by omega)]
  exact hres

/-- With two VLAN tags the IPv6 branch takes the first byte of the ethertype for the
next header, which announces no tunnel. -/
theorem hashEthInner_two_tags (hv : version m (eth + 22) = 6) :
    hashEthInner m eth (eth + 20) = none := by
  have h64 : (6 : BitVec 4) ≠ 4 := by decide
  simp only [hashEthInner, hv, if_neg h64, if_true]
  by_cases hty : netU16 m (eth + 20) ≠ ethernetTypeIp4 ∧ netU16 m (eth + 20) ≠ ethernetTypeIp6
  · rw [if_pos hty]
  · rw [if_neg hty]
    have hbyte : m (eth + 20) = (netU16 m (eth + 20)).extractLsb' 8 8 := by
      simp only [netU16, BitVec.extractLsb'_append_eq_left]
    have hproto : ip6Protocol m (eth + ethernetHeaderSize) = 0x08 ∨
        ip6Protocol m (eth + ethernetHeaderSize) = 0x86 := by
      simp only [ip6Protocol, ethernetHeaderSize, Nat.add_assoc]
      rw [hbyte]
      by_cases h4 : netU16 m (eth + 20) = ethernetTypeIp4
      · left; rw [h4]; decide
      · have h6 : netU16 m (eth + 20) = ethernetTypeIp6 := by
          by_contra h6
          exact hty ⟨h4, h6⟩
        right; rw [h6]; decide
    rcases hproto with hp | hp <;> rw [hp] <;> rfl

end Eth

end InnerHash
