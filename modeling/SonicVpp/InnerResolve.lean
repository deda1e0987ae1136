/-
# Locating the inner header (`ip_inner_aware_hash.h`)

`ip_inner_resolve` and its helpers, from
`0011-sonic-inner-aware-flow-hash.patch`: given the outer protocol and a bounded
view of the bytes past the outer IP header, find the inner IPv4 or IPv6 header of an
IP-in-IP, GRE or NVGRE packet and where its upper-layer header starts.  An inner
header that is not found (`valid = 0`) is `none`.

Lengths are those of 16-bit fields, so the 32-bit arithmetic of the source does not
wrap.
-/
import SonicVpp.IpHeader

open PacketBytes Ip

namespace InnerHash

/-! ## The resolver -/

/-- `ip_inner_hdr_t`: the inner header, its family, the first byte past it, and the
upper-layer protocol. -/
structure IpInnerHdr where
  ip : ℕ
  isV6 : Bool
  l4 : ℕ
  protocol : BitVec 8
  deriving DecidableEq, Repr

/-- `IP_INNER_L4_MIN_BYTES`. -/
def ipInnerL4MinBytes : ℕ := 8

/-- The extension headers that the walk passes. -/
def isWalkedExt (protocol : BitVec 8) : Bool :=
  protocol = protocolIp6HopByHopOptions || protocol = protocolIpv6Route
    || protocol = protocolIp6DestinationOptions

/-- `ip_inner_v6_walk_ext_headers`: the final next header (0 on failure), the
pointer and the bytes left. -/
def ipInnerV6WalkExtHeaders (m : Mem) (pp remaining : ℕ) (protocol : BitVec 8) :
    BitVec 8 × ℕ × ℕ :=
  if isWalkedExt protocol then
    if remaining < 2 then (0, pp, remaining)
    else if remaining < extBytes m pp then (0, pp, remaining)
    else ipInnerV6WalkExtHeaders m (pp + extBytes m pp) (remaining - extBytes m pp)
      (extProtocol m pp)
  else if protocol = protocolIpv6Fragmentation || protocol = protocolIpsecEsp
    || protocol = protocolIpsecAh then (0, pp, remaining)
  else (protocol, pp, remaining)
termination_by remaining
decreasing_by
  simp only [extBytes] at *
  omega

/-- `ip_inner_resolve_v4`. -/
def ipInnerResolveV4 (m : Mem) (payload remaining : ℕ) : Option IpInnerHdr :=
  if remaining < ip4HeaderSize + ipInnerL4MinBytes then none
  else if version m payload ≠ 4 then none
  else if ip4IsFragment m payload then none
  else some ⟨payload, false, payload + ip4HeaderSize, ip4Protocol m payload⟩

/-- `ip_inner_resolve_v6`. -/
def ipInnerResolveV6 (m : Mem) (payload remaining : ℕ) : Option IpInnerHdr :=
  if remaining < ip6HeaderSize + ipInnerL4MinBytes then none
  else if version m payload ≠ 6 then none
  else
    let (protocol, cur, left) := ipInnerV6WalkExtHeaders m (payload + ip6HeaderSize)
      (remaining - ip6HeaderSize) (ip6Protocol m payload)
    if protocol = 0 || left < ipInnerL4MinBytes then none
    else some ⟨payload, true, cur, protocol⟩

/-- `GRE_FLAGS_CHECKSUM`, `GRE_FLAGS_KEY` and `GRE_FLAGS_SEQUENCE`. -/
def greFlagsChecksum : BitVec 16 := 1#16 <<< 15

@[inherit_doc greFlagsChecksum]
def greFlagsKey : BitVec 16 := 1#16 <<< 13

@[inherit_doc greFlagsChecksum]
def greFlagsSequence : BitVec 16 := 1#16 <<< 12

/-- The length of the GRE header with its optional fields. -/
def greBytes (flags : BitVec 16) : ℕ :=
  4 + (if flags &&& greFlagsChecksum ≠ 0 then 4 else 0)
    + (if flags &&& greFlagsKey ≠ 0 then 4 else 0)
    + (if flags &&& greFlagsSequence ≠ 0 then 4 else 0)

/-- `ip_inner_gre_skip_optional_fields`: the GRE protocol and the bytes consumed. -/
def ipInnerGreSkipOptionalFields (m : Mem) (gre remaining : ℕ) : Option (BitVec 16 × ℕ) :=
  if remaining < 4 then none
  else
    let hdrLen := greBytes (netU16 m gre)
    if remaining < hdrLen then none else some (netU16 m (gre + 2), hdrLen)

/-- `GRE_PROTOCOL_teb`. -/
def greProtocolTeb : BitVec 16 := 0x6558

/-- `ETHERNET_TYPE_IP4`, which is also `GRE_PROTOCOL_ip4`. -/
def ethernetTypeIp4 : BitVec 16 := 0x0800

/-- `ETHERNET_TYPE_IP6`, which is also `GRE_PROTOCOL_ip6`. -/
def ethernetTypeIp6 : BitVec 16 := 0x86dd

/-- `sizeof (ethernet_header_t)`. -/
def ethernetHeaderSize : ℕ := 14

/-- The dispatch on the effective GRE protocol. -/
def ipInnerResolveByType (m : Mem) (payload remaining : ℕ) (effectiveProto : BitVec 16) :
    Option IpInnerHdr :=
  if effectiveProto = ethernetTypeIp4 then ipInnerResolveV4 m payload remaining
  else if effectiveProto = ethernetTypeIp6 then ipInnerResolveV6 m payload remaining
  else none

/-- `ip_inner_resolve_gre`: with Transparent Ethernet Bridging the inner Ethernet
header is skipped and its type decides. -/
def ipInnerResolveGre (m : Mem) (payload remaining : ℕ) (greProto : BitVec 16) :
    Option IpInnerHdr :=
  if greProto = greProtocolTeb then
    if remaining < ethernetHeaderSize + 1 then none
    else if netU16 m (payload + 12) = ethernetTypeIp4 ∨ netU16 m (payload + 12) = ethernetTypeIp6
    then ipInnerResolveByType m (payload + ethernetHeaderSize) (remaining - ethernetHeaderSize)
      (netU16 m (payload + 12))
    else none
  else ipInnerResolveByType m payload remaining greProto

/-- `ip_inner_resolve`. -/
def ipInnerResolve (m : Mem) (outerProtocol : BitVec 8) (payload remaining : ℕ) :
    Option IpInnerHdr :=
  if outerProtocol = protocolIpInIp then ipInnerResolveV4 m payload remaining
  else if outerProtocol = protocolIpv6 then ipInnerResolveV6 m payload remaining
  else if outerProtocol = protocolGre then
    match ipInnerGreSkipOptionalFields m payload remaining with
    | none => none
    | some (greProto, consumed) =>
      ipInnerResolveGre m (payload + consumed) (remaining - consumed) greProto
  else none

/-! ## What is resolved lies in the packet -/

/-- Where a resolved header lies in the view `[lo, hi)`: the inner IP header and
eight bytes of its payload are inside. -/
structure Inside (lo hi : ℕ) (h : IpInnerHdr) : Prop where
  start : lo ≤ h.ip
  header : h.ip + (if h.isV6 then ip6HeaderSize else ip4HeaderSize) ≤ h.l4
  noOptions : h.isV6 = false → h.l4 = h.ip + ip4HeaderSize
  l4 : h.l4 + ipInnerL4MinBytes ≤ hi

theorem Inside.mono {lo lo' hi hi' : ℕ} {h : IpInnerHdr} (hin : Inside lo hi h) (hlo : lo' ≤ lo)
    (hhi : hi ≤ hi') : Inside lo' hi' h :=
  ⟨hlo.trans hin.start, hin.header, hin.noOptions, hin.l4.trans hhi⟩

/-- The walk moves forward and takes what it passes off the bytes left. -/
theorem walk_bounds (m : Mem) (pp remaining : ℕ) (protocol : BitVec 8) :
    pp ≤ (ipInnerV6WalkExtHeaders m pp remaining protocol).2.1 ∧
      (ipInnerV6WalkExtHeaders m pp remaining protocol).2.1
        + (ipInnerV6WalkExtHeaders m pp remaining protocol).2.2 = pp + remaining := by
  fun_induction ipInnerV6WalkExtHeaders m pp remaining protocol with
  | case1 => exact ⟨le_rfl, rfl⟩
  | case2 => exact ⟨le_rfl, rfl⟩
  | case3 pp remaining protocol _ _ hlen ih =>
    obtain ⟨hle, hsum⟩ := ih
    exact ⟨by omega, by omega⟩
  | case4 => exact ⟨le_rfl, rfl⟩
  | case5 => exact ⟨le_rfl, rfl⟩

theorem resolveV4_inside {m : Mem} {payload remaining : ℕ} {h : IpInnerHdr}
    (hres : ipInnerResolveV4 m payload remaining = some h) :
    Inside payload (payload + remaining) h := by
  unfold ipInnerResolveV4 at hres
  split_ifs at hres with hlen
  obtain rfl := Option.some.inj hres
  simp only [ip4HeaderSize, ipInnerL4MinBytes] at hlen
  refine ⟨le_rfl, le_rfl, fun _ => rfl, ?_⟩
  simp only [ip4HeaderSize, ipInnerL4MinBytes]
  omega

theorem resolveV6_inside {m : Mem} {payload remaining : ℕ} {h : IpInnerHdr}
    (hres : ipInnerResolveV6 m payload remaining = some h) :
    Inside payload (payload + remaining) h := by
  obtain ⟨hle, hsum⟩ := walk_bounds m (payload + ip6HeaderSize) (remaining - ip6HeaderSize)
    (ip6Protocol m payload)
  unfold ipInnerResolveV6 at hres
  revert hle hsum hres
  generalize ipInnerV6WalkExtHeaders m (payload + ip6HeaderSize) (remaining - ip6HeaderSize)
    (ip6Protocol m payload) = walk
  obtain ⟨protocol, cur, left⟩ := walk
  intro hres hle hsum
  simp only at hres
  split_ifs at hres with hlen hver hbad
  obtain rfl := Option.some.inj hres
  simp only [Bool.or_eq_true, decide_eq_true_eq, not_or, not_lt] at hbad
  refine ⟨le_rfl, hle, fun h => Bool.noConfusion h, ?_⟩
  have := hbad.2
  simp only [ip6HeaderSize, ipInnerL4MinBytes] at *
  omega

theorem resolveByType_inside {m : Mem} {payload remaining : ℕ} {proto : BitVec 16}
    {h : IpInnerHdr} (hres : ipInnerResolveByType m payload remaining proto = some h) :
    Inside payload (payload + remaining) h := by
  unfold ipInnerResolveByType at hres
  split_ifs at hres
  · exact resolveV4_inside hres
  · exact resolveV6_inside hres

theorem resolveGre_inside {m : Mem} {payload remaining : ℕ} {proto : BitVec 16}
    {h : IpInnerHdr} (hres : ipInnerResolveGre m payload remaining proto = some h) :
    Inside payload (payload + remaining) h := by
  unfold ipInnerResolveGre at hres
  split_ifs at hres with hteb hlen
  · simp only [ethernetHeaderSize] at hlen hres
    exact (resolveByType_inside hres).mono (by omega) (by omega)
  · exact resolveByType_inside hres

theorem greSkip_le {m : Mem} {gre remaining : ℕ} {proto : BitVec 16} {consumed : ℕ}
    (h : ipInnerGreSkipOptionalFields m gre remaining = some (proto, consumed)) :
    consumed ≤ remaining := by
  simp only [ipInnerGreSkipOptionalFields] at h
  split_ifs at h with h4 hlen
  simp only [Option.some.injEq, Prod.mk.injEq] at h
  omega

/-- **A resolved inner header lies in the bounded view.** -/
theorem ipInnerResolve_inside {m : Mem} {outerProtocol : BitVec 8} {payload remaining : ℕ}
    {h : IpInnerHdr} (hres : ipInnerResolve m outerProtocol payload remaining = some h) :
    Inside payload (payload + remaining) h := by
  unfold ipInnerResolve at hres
  split_ifs at hres
  · exact resolveV4_inside hres
  · exact resolveV6_inside hres
  · cases hskip : ipInnerGreSkipOptionalFields m payload remaining with
    | none => rw [hskip] at hres; cases hres
    | some x =>
      obtain ⟨proto, consumed⟩ := x
      rw [hskip] at hres
      have hle := greSkip_le hskip
      exact (resolveGre_inside hres).mono (by omega) (by omega)

/-! ## The resolver reads only the bounded view -/

section Agree

variable {n : ℕ} {m m' : Mem}

theorem walk_congr (h : AgreeBelow n m m') (pp remaining : ℕ) (protocol : BitVec 8)
    (hn : pp + remaining ≤ n) :
    ipInnerV6WalkExtHeaders m pp remaining protocol
      = ipInnerV6WalkExtHeaders m' pp remaining protocol := by
  -- each case unfolds the other side along the same branch
  fun_induction ipInnerV6WalkExtHeaders m pp remaining protocol with
  | case1 pp remaining protocol hwalk hrem =>
    rw [ipInnerV6WalkExtHeaders, if_pos hwalk, if_pos hrem]
  | case2 pp remaining protocol hwalk hrem hlen =>
    obtain ⟨-, hbytes⟩ := ext_congr h (i := pp) (by omega)
    rw [ipInnerV6WalkExtHeaders, if_pos hwalk, if_neg hrem, if_pos (hbytes ▸ hlen)]
  | case3 pp remaining protocol hwalk hrem hlen ih =>
    obtain ⟨hproto, hbytes⟩ := ext_congr h (i := pp) (by omega)
    rw [ih (by omega), ipInnerV6WalkExtHeaders.eq_def m' pp remaining, if_pos hwalk, if_neg hrem,
      if_neg (hbytes ▸ hlen), hproto, hbytes]
  | case4 pp remaining protocol hwalk hstop =>
    rw [ipInnerV6WalkExtHeaders, if_neg hwalk, if_pos hstop]
  | case5 pp remaining protocol hwalk hstop =>
    rw [ipInnerV6WalkExtHeaders, if_neg hwalk, if_neg hstop]

theorem resolveV4_congr (h : AgreeBelow n m m') {payload remaining : ℕ}
    (hn : payload + remaining ≤ n) :
    ipInnerResolveV4 m payload remaining = ipInnerResolveV4 m' payload remaining := by
  unfold ipInnerResolveV4
  by_cases hlen : remaining < ip4HeaderSize + ipInnerL4MinBytes
  · rw [if_pos hlen, if_pos hlen]
  · simp only [ip4HeaderSize, ipInnerL4MinBytes] at hlen
    obtain ⟨hver, -, -, hfrag, hproto⟩ := ip4_congr h (i := payload) (by omega)
    rw [hver, hfrag, hproto]

theorem resolveV6_congr (h : AgreeBelow n m m') {payload remaining : ℕ}
    (hn : payload + remaining ≤ n) :
    ipInnerResolveV6 m payload remaining = ipInnerResolveV6 m' payload remaining := by
  unfold ipInnerResolveV6
  by_cases hlen : remaining < ip6HeaderSize + ipInnerL4MinBytes
  · rw [if_pos hlen, if_pos hlen]
  · simp only [ip6HeaderSize, ipInnerL4MinBytes] at hlen
    obtain ⟨hver, -, hproto⟩ := ip6_congr h (i := payload) (by omega)
    have hwalk := walk_congr h (payload + ip6HeaderSize) (remaining - ip6HeaderSize)
      (ip6Protocol m' payload) (by simp only [ip6HeaderSize]; omega)
    rw [hver, hproto, hwalk]

theorem resolveByType_congr (h : AgreeBelow n m m') {payload remaining : ℕ}
    (hn : payload + remaining ≤ n) (proto : BitVec 16) :
    ipInnerResolveByType m payload remaining proto
      = ipInnerResolveByType m' payload remaining proto := by
  unfold ipInnerResolveByType
  rw [resolveV4_congr h hn, resolveV6_congr h hn]

theorem resolveGre_congr (h : AgreeBelow n m m') {payload remaining : ℕ}
    (hn : payload + remaining ≤ n) (proto : BitVec 16) :
    ipInnerResolveGre m payload remaining proto = ipInnerResolveGre m' payload remaining proto := by
  unfold ipInnerResolveGre
  rw [resolveByType_congr h hn]
  by_cases hlen : remaining < ethernetHeaderSize + 1
  · rw [if_pos hlen, if_pos hlen]
  · simp only [ethernetHeaderSize] at hlen ⊢
    rw [h.netU16 (i := payload + 12) (by omega), resolveByType_congr h (by omega)]

/-- **The resolver reads only the bounded view.** -/
theorem ipInnerResolve_congr (h : AgreeBelow n m m') {payload remaining : ℕ}
    (hn : payload + remaining ≤ n) (outerProtocol : BitVec 8) :
    ipInnerResolve m outerProtocol payload remaining
      = ipInnerResolve m' outerProtocol payload remaining := by
  unfold ipInnerResolve
  rw [resolveV4_congr h hn, resolveV6_congr h hn]
  have hgre : ipInnerGreSkipOptionalFields m payload remaining
      = ipInnerGreSkipOptionalFields m' payload remaining := by
    unfold ipInnerGreSkipOptionalFields
    by_cases h4 : remaining < 4
    · rw [if_pos h4, if_pos h4]
    · rw [h.netU16 (i := payload) (by omega), h.netU16 (i := payload + 2) (by omega)]
  rw [hgre]
  cases hskip : ipInnerGreSkipOptionalFields m' payload remaining with
  | none => rfl
  | some x =>
    obtain ⟨proto, consumed⟩ := x
    have hle := greSkip_le hskip
    simp only
    rw [resolveGre_congr h (by omega)]

end Agree

end InnerHash
