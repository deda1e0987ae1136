/-
# Decap-any lookups

What the patched lookups return, over the states the tunnel table reaches without
slips: a packet for a decap-any tunnel is decapsulated whatever its source
(`decapAny_lookup`).
-/
import SonicVpp.VxlanDecapMap
import SonicVpp.VxlanFindTunnel

open WildcardStore RunInvariant

namespace Vxlan

/-! ## Packets and tunnels -/

/-- The destination, port, fib and VNI of the packet are the local address, port,
fib and VNI of an IPv4 tunnel. -/
def Vxlan4Packet.IsFor (p : Vxlan4Packet) (q : VxlanParams) : Prop :=
  q.addrs.isIp6 = false ∧ q.addrs.src = ip46OfIp4 p.dstAddress ∧
    q.srcPort = p.udpDstPort ∧ q.encapFibIndex = p.fibIndex ∧ vniWord q.vni = p.vniReserved

/-- The destination, port, fib and VNI of the packet are the local address, port,
fib and VNI of an IPv6 tunnel. -/
def Vxlan6Packet.IsFor (p : Vxlan6Packet) (q : VxlanParams) : Prop :=
  q.addrs.isIp6 = true ∧ q.addrs.src = p.dstAddress ∧
    q.srcPort = p.udpDstPort ∧ q.encapFibIndex = p.fibIndex ∧ vniWord q.vni = p.vniReserved

/-- The tunnel a packet is for has the packet's key tail, -/
theorem Vxlan4Packet.IsFor.tail {p : Vxlan4Packet} {q : VxlanParams} (h : p.IsFor q) :
    q.tail = p.tail := by
  obtain ⟨-, -, hport, hfib, hvni⟩ := h
  simp only [VxlanParams.tail, Vxlan4Packet.tail, hport, hfib, hvni]

theorem Vxlan6Packet.IsFor.tail {p : Vxlan6Packet} {q : VxlanParams} (h : p.IsFor q) :
    q.tail = p.tail := by
  obtain ⟨-, -, hport, hfib, hvni⟩ := h
  simp only [VxlanParams.tail, Vxlan6Packet.tail, hport, hfib, hvni]

/-- and where the fib indexes fit, it is known by it. -/
theorem Vxlan4Packet.isFor_of_tail {p : Vxlan4Packet} {q : VxlanParams}
    (hq : q.encapFibIndex.toNat < 2 ^ 16) (hp : p.fibIndex.toNat < 2 ^ 16)
    (h6 : q.addrs.isIp6 = false) (hsrc : q.addrs.src = ip46OfIp4 p.dstAddress)
    (htail : q.tail = p.tail) : p.IsFor q :=
  ⟨h6, hsrc, vxlanKeyTail_inj hq hp htail⟩

theorem Vxlan6Packet.isFor_of_tail {p : Vxlan6Packet} {q : VxlanParams}
    (hq : q.encapFibIndex.toNat < 2 ^ 16) (hp : p.fibIndex.toNat < 2 ^ 16)
    (h6 : q.addrs.isIp6 = true) (hsrc : q.addrs.src = p.dstAddress)
    (htail : q.tail = p.tail) : p.IsFor q :=
  ⟨h6, hsrc, vxlanKeyTail_inj hq hp htail⟩

/-- The term of the tunnel that a packet is for. -/
theorem Vxlan4Packet.IsFor.term {p : Vxlan4Packet} {q : VxlanParams} (h : p.IsFor q) :
    q.term.addr = .ip4 p.dstAddress ∧ q.term.tail = p.tail := by
  have htail : q.term.tail = q.tail := rfl
  refine ⟨?_, htail.trans h.tail⟩
  obtain ⟨h6, hsrc, -⟩ := h
  cases ha : q.addrs with
  | ip6 a b => rw [ha] at h6; cases h6
  | ip4 a b =>
    rw [ha] at hsrc
    have := congrArg ip46Ip4 hsrc
    simp only [TunnelAddrs.src, ip46Ip4_ip46OfIp4] at this
    simp only [VxlanParams.term, ha, this]

theorem Vxlan6Packet.IsFor.term {p : Vxlan6Packet} {q : VxlanParams} (h : p.IsFor q) :
    q.term.addr = .ip6 p.dstAddress ∧ q.term.tail = p.tail := by
  have htail : q.term.tail = q.tail := rfl
  refine ⟨?_, htail.trans h.tail⟩
  obtain ⟨h6, hsrc, -⟩ := h
  cases ha : q.addrs with
  | ip4 a b => rw [ha] at h6; cases h6
  | ip6 a b =>
    rw [ha] at hsrc
    obtain rfl : a = p.dstAddress := hsrc
    simp only [VxlanParams.term, ha]

/-- Family and local address of a tunnel are in its term. -/
theorem addrs_of_term {q q' : VxlanParams} (h : q'.term = q.term) :
    q'.addrs.isIp6 = q.addrs.isIp6 ∧ q'.addrs.src = q.addrs.src := by
  have haddr := congrArg DecapTerm.addr h
  unfold VxlanParams.term at haddr
  cases hq : q.addrs with
  | ip4 a b =>
    cases hq' : q'.addrs with
    | ip4 a' b' => simp_all [TunnelAddrs.isIp6, TunnelAddrs.src]
    | ip6 a' b' => simp [hq, hq'] at haddr
  | ip6 a b =>
    cases hq' : q'.addrs with
    | ip4 a' b' => simp [hq, hq'] at haddr
    | ip6 a' b' => simp_all [TunnelAddrs.isIp6, TunnelAddrs.src]

/-- A packet is for all the tunnels of one term. -/
theorem Vxlan4Packet.IsFor.of_term {p : Vxlan4Packet} {q q' : VxlanParams} (h : p.IsFor q)
    (hterm : q'.term = q.term) : p.IsFor q' := by
  obtain ⟨h6, hsrc, hport, hfib, hvni⟩ := h
  obtain ⟨hfam, haddr⟩ := addrs_of_term hterm
  exact ⟨hfam.trans h6, haddr.trans hsrc, (congrArg DecapTerm.port hterm).trans hport,
    (congrArg DecapTerm.fibIndex hterm).trans hfib,
    (congrArg (fun d : DecapTerm => vniWord d.vni) hterm).trans hvni⟩

theorem Vxlan6Packet.IsFor.of_term {p : Vxlan6Packet} {q q' : VxlanParams} (h : p.IsFor q)
    (hterm : q'.term = q.term) : p.IsFor q' := by
  obtain ⟨h6, hsrc, hport, hfib, hvni⟩ := h
  obtain ⟨hfam, haddr⟩ := addrs_of_term hterm
  exact ⟨hfam.trans h6, haddr.trans hsrc, (congrArg DecapTerm.port hterm).trans hport,
    (congrArg DecapTerm.fibIndex hterm).trans hfib,
    (congrArg (fun d : DecapTerm => vniWord d.vni) hterm).trans hvni⟩

/-- A cache that holds nothing, or an entry of the map. -/
def Coherent4 (m : Vxlan4TunnelKey → Option VxlanDecapInfo) (cache : LastTunnelCache4) : Prop :=
  cache = emptyCache4 ∨ m cache.key = some cache.value

/-- A cache that holds nothing, or an entry of the map. -/
def Coherent6 (m : Vxlan6TunnelKey → Option ℕ) (cache : LastTunnelCache6) : Prop :=
  cache = emptyCache6 ∨ m cache.key = some cache.value

/-- A group address alone, as a pair. -/
theorem setWidth_eq_addrPair (a : BitVec 32) : a.setWidth 64 = addrPair 0#32 a := by
  simp [addrPair]

/-- The exact key of an IPv4 tunnel: the group alone, or both addresses. -/
theorem key4_cases (up : VppIp) (q : VxlanParams) :
    (up.ip46AddressIsMulticast q.addrs.dst = true ∧
      q.key4 up = ⟨addrPair 0#32 (ip46Ip4 q.addrs.dst), q.tail⟩) ∨
    (up.ip46AddressIsMulticast q.addrs.dst = false ∧
      q.key4 up = ⟨addrPair (ip46Ip4 q.addrs.src) (ip46Ip4 q.addrs.dst), q.tail⟩) := by
  cases hm : up.ip46AddressIsMulticast q.addrs.dst with
  | true =>
    left
    refine ⟨rfl, ?_⟩
    simp only [VxlanParams.key4, hm, if_true, setWidth_eq_addrPair]
  | false => exact Or.inr ⟨rfl, key4_unicast hm⟩

/-- The local address of an IPv4 tunnel, from its low 32 bits. -/
theorem src_of_ip46Ip4 {q : VxlanParams} {a : BitVec 32} (h6 : q.addrs.isIp6 = false)
    (h : ip46Ip4 q.addrs.src = a) : q.addrs.src = ip46OfIp4 a := by
  cases hq : q.addrs with
  | ip6 s d => rw [hq] at h6; cases h6
  | ip4 s d =>
    rw [hq] at h
    simp only [TunnelAddrs.src, ip46Ip4_ip46OfIp4] at h
    rw [← h]
    rfl

/-- A source-independent key that is a packet's pair: the pair ends in zero. -/
theorem key4w_eq_pair {src : Ip46} {tail tail' : VxlanKeyTail} {a b : BitVec 32} :
    key4w src tail = ⟨addrPair a b, tail'⟩ ↔ ip46Ip4 src = a ∧ b = 0#32 ∧ tail = tail' := by
  constructor
  · intro h
    have h0 := congrArg Vxlan4TunnelKey.key0 h
    rw [key4w_key0] at h0
    obtain ⟨ha, hb⟩ := addrPair_inj h0
    exact ⟨ha, hb.symm, congrArg Vxlan4TunnelKey.key1 h⟩
  · rintro ⟨rfl, rfl, rfl⟩
    rw [← key4w_key0 src tail]
    rfl

/-- A source-independent IPv6 key determines address and tail. -/
theorem key6w_inj {src src' : Ip46} {tail tail' : VxlanKeyTail} :
    key6w src tail = key6w src' tail' ↔ src = src' ∧ tail = tail' := by
  constructor
  · intro h
    exact ⟨asU64_inj (congrArg Vxlan6TunnelKey.key0 h) (congrArg Vxlan6TunnelKey.key1 h),
      congrArg Vxlan6TunnelKey.key2 h⟩
  · rintro ⟨rfl, rfl⟩
    rfl

/-! ## The maps behind the lookups -/

variable (up : VppIp)

/-- A live IPv4 tunnel with exact key `k`. -/
def ExactAt4 (s : VxlanMain) (k : Vxlan4TunnelKey) (i : ℕ) (t : VxlanTunnel) : Prop :=
  s.tunnels.elt i = some t ∧ t.addrs.isIp6 = false ∧ t.key4 up = k

/-- A live IPv6 tunnel with exact key `k`. -/
def ExactAt6 (s : VxlanMain) (k : Vxlan6TunnelKey) (i : ℕ) (t : VxlanTunnel) : Prop :=
  s.tunnels.elt i = some t ∧ t.addrs.isIp6 = true ∧ t.key6 = k

/-- A live IPv4 tunnel behind the source-independent key `k`. -/
def WildAt4 (s : VxlanMain) (k : Vxlan4TunnelKey) (i : ℕ) (t : VxlanTunnel) : Prop :=
  s.tunnels.elt i = some t ∧ t.addrs.isIp6 = false ∧ t.ownsWildcard up = true ∧
    key4w t.addrs.src t.tail = k

/-- A live IPv6 tunnel behind the source-independent key `k`. -/
def WildAt6 (s : VxlanMain) (k : Vxlan6TunnelKey) (i : ℕ) (t : VxlanTunnel) : Prop :=
  s.tunnels.elt i = some t ∧ t.addrs.isIp6 = true ∧ t.ownsWildcard up = true ∧
    key6w t.addrs.src t.tail = k

variable {up} {s : VxlanMain}

theorem Consistent.exact4 (h : Consistent up s) {k : Vxlan4TunnelKey} {i : ℕ} {t : VxlanTunnel}
    (ht : ExactAt4 up s k i t) : s.vxlan4TunnelByKey k = some (t.decapInfo up) := by
  obtain ⟨hi, h6, rfl⟩ := ht
  exact h.map4.exact i _ ((live4_eq_some up).2 ⟨t, hi, h6, rfl⟩)

theorem Consistent.exact6 (h : Consistent up s) {k : Vxlan6TunnelKey} {i : ℕ} {t : VxlanTunnel}
    (ht : ExactAt6 s k i t) : s.vxlan6TunnelByKey k = some i := by
  obtain ⟨hi, h6, rfl⟩ := ht
  rw [← h.dev i t hi]
  exact h.map6.exact i _ ((live6_eq_some up).2 ⟨t, hi, h6, rfl⟩)

/-- Two tunnels with one exact key are one tunnel. -/
theorem Consistent.exact4_unique (h : Consistent up s) {k : Vxlan4TunnelKey} {i j : ℕ}
    {t u : VxlanTunnel} (ht : ExactAt4 up s k i t) (hu : ExactAt4 up s k j u) : i = j := by
  obtain ⟨hi, h6, rfl⟩ := ht
  obtain ⟨hj, h6', hkey⟩ := hu
  exact h.map4.inj i j _ _ ((live4_eq_some up).2 ⟨t, hi, h6, rfl⟩)
    ((live4_eq_some up).2 ⟨u, hj, h6', rfl⟩) hkey.symm

/-- Where the IPv4 map has an entry, it is the exact one of a live tunnel, or a
source-independent one. -/
theorem Consistent.map4_cases (h : Consistent up s) {k : Vxlan4TunnelKey} {v : VxlanDecapInfo}
    (hv : s.vxlan4TunnelByKey k = some v) :
    ∃ i t, (ExactAt4 up s k i t ∨ WildAt4 up s k i t) ∧ t.decapInfo up = v := by
  rcases h.map4.sound k v hv with ⟨i, o, hi, hk, hval⟩ | ⟨i, o, hi, hk, hval⟩
  · obtain ⟨t, ht, h6, rfl⟩ := (live4_eq_some up).1 hi
    exact ⟨i, t, Or.inl ⟨ht, h6, hk⟩, hval⟩
  · obtain ⟨t, ht, h6, rfl⟩ := (live4_eq_some up).1 hi
    obtain ⟨how, hkey⟩ := (wild4_eq_some up).1 hk
    exact ⟨i, t, Or.inr ⟨ht, h6, how, hkey⟩, hval⟩

/-- Where the IPv6 map has an entry, it is the index of the tunnel of the exact
entry, or of one behind the source-independent entry. -/
theorem Consistent.map6_cases (h : Consistent up s) {k : Vxlan6TunnelKey} {i : ℕ}
    (hv : s.vxlan6TunnelByKey k = some i) :
    ∃ t, ExactAt6 s k i t ∨ WildAt6 up s k i t := by
  rcases h.map6.sound k i hv with ⟨j, o, hj, hk, hval⟩ | ⟨j, o, hj, hk, hval⟩
  · obtain ⟨t, ht, h6, rfl⟩ := (live6_eq_some up).1 hj
    obtain rfl : j = i := (h.dev j t ht).symm.trans hval
    exact ⟨t, Or.inl ⟨ht, h6, hk⟩⟩
  · obtain ⟨t, ht, h6, rfl⟩ := (live6_eq_some up).1 hj
    obtain ⟨how, hkey⟩ := (wild6_eq_some up).1 hk
    obtain rfl : j = i := (h.dev j t ht).symm.trans hval
    exact ⟨t, Or.inr ⟨ht, h6, how, hkey⟩⟩

/-- The decap info of a live tunnel carries its interface, which is valid. -/
theorem decapInfo_swIfIndex (t : VxlanTunnel) : (t.decapInfo up).swIfIndex = t.swIfIndex := by
  unfold VxlanTunnel.decapInfo
  split <;> rfl

theorem Consistent.decapInfo_ne_notFound (h : Consistent up s) {i : ℕ} {t : VxlanTunnel}
    (ht : s.tunnels.elt i = some t) : t.decapInfo up ≠ decapNotFound := by
  intro heq
  have := congrArg VxlanDecapInfo.swIfIndex heq
  rw [decapInfo_swIfIndex] at this
  exact h.swValid i t ht this

theorem Consistent.info_ne_notFound (h : Consistent up s) {i : ℕ} {t : VxlanTunnel}
    (ht : s.tunnels.elt i = some t) : t.info ≠ decapNotFound := by
  intro heq
  exact h.swValid i t ht (congrArg VxlanDecapInfo.swIfIndex heq)

/-- The decap info of a unicast tunnel is the action that the IPv6 lookups build. -/
theorem decapInfo_unicast {t : VxlanTunnel} (h : up.ip46AddressIsMulticast t.addrs.dst = false) :
    t.decapInfo up = t.info := by
  simp only [VxlanTunnel.decapInfo, h, Bool.false_eq_true, if_false, VxlanTunnel.info]

theorem unicast_of_ownsWildcard {t : VxlanTunnel} (h : t.ownsWildcard up = true) :
    up.ip46AddressIsMulticast t.addrs.dst = false := by
  simp only [VxlanTunnel.ownsWildcard, Bool.and_eq_true, Bool.not_eq_true'] at h
  exact h.2

/-! ## What the lookups return -/

/-- The cache and the exact key of the IPv4 lookup, for the decap info alone. -/
theorem vxlan4TryExact_fst {cache : LastTunnelCache4} {p : Vxlan4Packet} {stats : BitVec 32}
    {miss : VxlanDecapInfo × LastTunnelCache4 × BitVec 32}
    (hc : Coherent4 s.vxlan4TunnelByKey cache) (hf : p.flags = vxlanFlagsI)
    (ht : p.tail ≠ emptyTail) :
    (vxlan4TryExact s cache p stats miss).1
      = (s.vxlan4TunnelByKey p.key4).getD miss.1 := by
  simp only [vxlan4TryExact, hf, ne_eq, not_true_eq_false, if_false]
  by_cases hk : p.key4 = cache.key
  · rw [if_pos hk]
    rcases hc with rfl | hc
    · exact absurd (congrArg Vxlan4TunnelKey.key1 hk) ht
    · rw [hk, hc]
      rfl
  · rw [if_neg hk]
    cases s.vxlan4TunnelByKey p.key4 with
    | none => rfl
    | some di => rfl

/-- The cache and the source key of the IPv6 lookup, for the decap info alone. -/
theorem vxlan6TryExact_fst {cache : LastTunnelCache6} {p : Vxlan6Packet} {stats : BitVec 32}
    {miss : Option (VxlanDecapInfo × LastTunnelCache6 × BitVec 32)}
    (hc : Coherent6 s.vxlan6TunnelByKey cache) (hf : p.flags = vxlanFlagsI)
    (ht : p.tail ≠ emptyTail) :
    (vxlan6TryExact up s cache p stats miss).map Prod.fst
      = match s.vxlan6TunnelByKey p.key6 with
        | some i => (vxlan6Validate up s ⟨p.key6, i⟩ p stats).map Prod.fst
        | none => miss.map Prod.fst := by
  simp only [vxlan6TryExact, hf, ne_eq, not_true_eq_false, if_false]
  by_cases hk : p.key6 = cache.key
  · rw [if_pos hk]
    rcases hc with rfl | hc
    · exact absurd (congrArg Vxlan6TunnelKey.key2 hk) ht
    · rw [hk, hc]
  · rw [if_neg hk]
    cases s.vxlan6TunnelByKey p.key6 with
    | none => rfl
    | some i => rfl

/-! ## Accepting any source -/

variable (up)

/-- A live unicast IPv4 tunnel from the packet's destination to its source. -/
def ExactTunnel4 (s : VxlanMain) (p : Vxlan4Packet) (i : ℕ) (t : VxlanTunnel) : Prop :=
  s.tunnels.elt i = some t ∧ p.IsFor t.toVxlanParams ∧ t.addrs.dst = ip46OfIp4 p.srcAddress ∧
    up.ip46AddressIsMulticast t.addrs.dst = false

/-- A live IPv6 tunnel from the packet's destination to its source. -/
def ExactTunnel6 (s : VxlanMain) (p : Vxlan6Packet) (i : ℕ) (t : VxlanTunnel) : Prop :=
  s.tunnels.elt i = some t ∧ p.IsFor t.toVxlanParams ∧ t.addrs.dst = p.srcAddress

/-- Every IPv6 tunnel whose entry the packet's source key meets (its remote is the
source, or it is a decap-any tunnel whose local address is the source) has the
packet's destination as its local address. -/
def SourceKeyLocal (s : VxlanMain) (p : Vxlan6Packet) : Prop :=
  ∀ i t, ExactAt6 s p.key6 i t ∨ WildAt6 up s p.key6 i t → t.addrs.src = p.dstAddress

variable {up}

/-- A packet for a live decap-any tunnel finds the decap info of one under the
source-independent key. -/
theorem Consistent.wild4_present (h : Consistent up s) (hfits : FibsFit s) {i : ℕ}
    {t : VxlanTunnel} {p : Vxlan4Packet} (hc : EntryComplete up s t.term)
    (ht : s.tunnels.elt i = some t)
    (how : t.ownsWildcard up = true) (hp : p.IsFor t.toVxlanParams) :
    ∃ j u, s.tunnels.elt j = some u ∧ u.ownsWildcard up = true ∧ p.IsFor u.toVxlanParams ∧
      s.vxlan4TunnelByKey (key4w (ip46OfIp4 p.dstAddress) p.tail) = some u.info := by
  obtain ⟨haddr, htail⟩ := hp.term
  have hfit : t.term.fibIndex.toNat < 2 ^ 16 := hfits i t ht
  have hsi := sourceIndependent_of_decapAny up h hfits hfit hc ⟨ht, how, rfl⟩
  obtain ⟨j, u, ⟨hj, huw, hterm⟩, hnames⟩ := sourceIndependent_sound up h hfits hfit hsi
  simp only [EntryNames, haddr, htail] at hnames
  exact ⟨j, u, hj, huw, hp.of_term hterm, hnames⟩

/-- A packet for a live decap-any tunnel finds the index of one under the
source-independent key. -/
theorem Consistent.wild6_present (h : Consistent up s) (hfits : FibsFit s) {i : ℕ}
    {t : VxlanTunnel} {p : Vxlan6Packet} (hc : EntryComplete up s t.term)
    (ht : s.tunnels.elt i = some t)
    (how : t.ownsWildcard up = true) (hp : p.IsFor t.toVxlanParams) :
    ∃ j u, s.tunnels.elt j = some u ∧ u.ownsWildcard up = true ∧ p.IsFor u.toVxlanParams ∧
      s.vxlan6TunnelByKey p.dstKey6 = some j := by
  obtain ⟨haddr, htail⟩ := hp.term
  have hfit : t.term.fibIndex.toNat < 2 ^ 16 := hfits i t ht
  have hsi := sourceIndependent_of_decapAny up h hfits hfit hc ⟨ht, how, rfl⟩
  obtain ⟨j, u, ⟨hj, huw, hterm⟩, hnames⟩ := sourceIndependent_sound up h hfits hfit hsi
  simp only [EntryNames, haddr, htail] at hnames
  exact ⟨j, u, hj, huw, hp.of_term hterm, hnames⟩

/-- A packet for a live IPv4 decap-any tunnel is given to the exact tunnel of its
source, or to a decap-any tunnel. -/
theorem Consistent.lookup4 (h : Consistent up s) (hfits : FibsFit s) {i : ℕ} {t : VxlanTunnel}
    {cache : LastTunnelCache4} {p : Vxlan4Packet} {stats : BitVec 32}
    (hc : EntryComplete up s t.term) (ht : s.tunnels.elt i = some t)
    (how : t.ownsWildcard up = true) (hp : p.IsFor t.toVxlanParams)
    (hflags : p.flags = vxlanFlagsI) (hdst : p.dstAddress ≠ 0#32)
    (hcache : Coherent4 s.vxlan4TunnelByKey cache) :
    ∃ j u, (vxlan4FindTunnel up s cache p stats).1 = u.info ∧
      (ExactTunnel4 up s p j u ∨
        ((∀ j' u', ¬ ExactTunnel4 up s p j' u') ∧ s.tunnels.elt j = some u ∧
          u.ownsWildcard up = true ∧ p.IsFor u.toVxlanParams)) := by
  -- a packet for the tunnel is no hit in the empty cache
  have htail : p.tail ≠ emptyTail := hp.tail ▸ tail_ne_emptyTail t.toVxlanParams
  have hfit : p.fibIndex.toNat < 2 ^ 16 := hp.2.2.2.1 ▸ hfits i t ht
  have hexact : ∀ j u, ExactTunnel4 up s p j u → ExactAt4 up s p.key4 j u := by
    rintro j u ⟨hj, hfor, hd, hm⟩
    refine ⟨hj, hfor.1, ?_⟩
    rw [key4_unicast hm, hfor.2.1, hd, hfor.tail]
    simp only [ip46Ip4_ip46OfIp4]
    rfl
  unfold vxlan4FindTunnel
  rw [vxlan4TryExact_fst hcache hflags htail]
  cases hv : s.vxlan4TunnelByKey p.key4 with
  | none =>
    -- no entry for the addresses: the search by destination finds the wildcard
    obtain ⟨j, u, hj, huw, hfor, hw⟩ := h.wild4_present hfits hc ht how hp
    rw [dstKey4_eq_key4w, hw]
    refine ⟨j, u, rfl, Or.inr ⟨?_, hj, huw, hfor⟩⟩
    intro j' u' hu'
    have := h.exact4 (hexact j' u' hu')
    rw [hv] at this
    cases this
  | some v =>
    rw [Option.getD_some]
    -- an entry for the addresses: the exact key of a tunnel, or the wildcard of one
    obtain ⟨j, u, ⟨hj, h6, hkey⟩ | ⟨hj, h6, huw, hkey⟩, rfl⟩ := h.map4_cases hv
    · rcases key4_cases up u.toVxlanParams with ⟨-, hk⟩ | ⟨hm, hk⟩
      · -- a group key has no local address
        have := congrArg Vxlan4TunnelKey.key0 (hk.symm.trans hkey)
        exact absurd (addrPair_inj this).1.symm hdst
      · obtain ⟨hsrc, hd⟩ := addrPair_inj (congrArg Vxlan4TunnelKey.key0 (hk.symm.trans hkey))
        have htl : u.tail = p.tail := congrArg Vxlan4TunnelKey.key1 (hk.symm.trans hkey)
        refine ⟨j, u, decapInfo_unicast hm, Or.inl ⟨hj,
          Vxlan4Packet.isFor_of_tail (hfits j u hj) hfit h6 (src_of_ip46Ip4 h6 hsrc) htl, ?_, hm⟩⟩
        cases ha : u.addrs with
        | ip6 a b => rw [ha] at h6; cases h6
        | ip4 a b =>
          rw [ha] at hd
          simp only [TunnelAddrs.dst, ip46Ip4_ip46OfIp4] at hd
          rw [← hd]
          rfl
    · obtain ⟨hsrc, -, htl⟩ := key4w_eq_pair.1 hkey
      refine ⟨j, u, decapInfo_unicast (unicast_of_ownsWildcard huw), Or.inr ⟨?_, hj, huw,
        Vxlan4Packet.isFor_of_tail (hfits j u hj) hfit h6 (src_of_ip46Ip4 h6 hsrc) htl⟩⟩
      intro j' u' hu'
      obtain ⟨hj', h6', hk'⟩ := hexact j' u' hu'
      have hsep := h.map4.separate j' j _ _ ((live4_eq_some up).2 ⟨u', hj', h6', rfl⟩)
        ((live4_eq_some up).2 ⟨u, hj, h6, rfl⟩)
      exact hsep ((wild4_eq_some up).2 ⟨huw, hkey.trans hk'.symm⟩)

/-- A packet for a live IPv6 decap-any tunnel whose source key meets no tunnel with
another local address is given to the exact tunnel of its source, or to a decap-any
tunnel. -/
theorem Consistent.lookup6 (h : Consistent up s) (hfits : FibsFit s) {i : ℕ} {t : VxlanTunnel}
    {cache : LastTunnelCache6} {p : Vxlan6Packet} {stats : BitVec 32}
    (hc : EntryComplete up s t.term) (ht : s.tunnels.elt i = some t)
    (how : t.ownsWildcard up = true) (hp : p.IsFor t.toVxlanParams)
    (hflags : p.flags = vxlanFlagsI) (hcache : Coherent6 s.vxlan6TunnelByKey cache)
    (hlocal : SourceKeyLocal up s p) :
    ∃ j u, (vxlan6FindTunnel up s cache p stats).map Prod.fst = some u.info ∧
      (ExactTunnel6 s p j u ∨
        ((∀ j' u', ¬ ExactTunnel6 s p j' u') ∧ s.tunnels.elt j = some u ∧
          u.ownsWildcard up = true ∧ p.IsFor u.toVxlanParams)) := by
  have htail : p.tail ≠ emptyTail := hp.tail ▸ tail_ne_emptyTail t.toVxlanParams
  have hfit : p.fibIndex.toNat < 2 ^ 16 := hp.2.2.2.1 ▸ hfits i t ht
  have hexact : ∀ j u, ExactTunnel6 s p j u → ExactAt6 s p.key6 j u := by
    rintro j u ⟨hj, hfor, hd⟩
    refine ⟨hj, hfor.1, ?_⟩
    simp only [VxlanParams.key6, Vxlan6Packet.key6, hd, hfor.tail]
  unfold vxlan6FindTunnel
  rw [vxlan6TryExact_fst hcache hflags htail]
  cases hv : s.vxlan6TunnelByKey p.key6 with
  | none =>
    obtain ⟨j, u, hj, huw, hfor, hw⟩ := h.wild6_present hfits hc ht how hp
    simp only [hw, poolEltAtIndex_live hj, Option.map_some]
    refine ⟨j, u, rfl, Or.inr ⟨?_, hj, huw, hfor⟩⟩
    intro j' u' hu'
    have := h.exact6 (hexact j' u' hu')
    rw [hv] at this
    cases this
  | some j =>
    obtain ⟨u, hju⟩ := h.map6_cases hv
    have hsrc := hlocal j u hju
    have hj : s.tunnels.elt j = some u := by
      rcases hju with hju | hju
      · exact hju.1
      · exact hju.1
    simp only [vxlan6Validate, poolEltAtIndex_live hj, hsrc, if_true, Option.map_some]
    refine ⟨j, u, rfl, ?_⟩
    rcases hju with ⟨-, h6, hkey⟩ | ⟨-, h6, huw, hkey⟩
    · left
      refine ⟨hj, Vxlan6Packet.isFor_of_tail (hfits j u hj) hfit h6 hsrc
        (congrArg Vxlan6TunnelKey.key2 hkey), ?_⟩
      exact asU64_inj (congrArg Vxlan6TunnelKey.key0 hkey) (congrArg Vxlan6TunnelKey.key1 hkey)
    · right
      refine ⟨?_, hj, huw, Vxlan6Packet.isFor_of_tail (hfits j u hj) hfit h6 hsrc
        (congrArg Vxlan6TunnelKey.key2 hkey)⟩
      intro j' u' hu'
      obtain ⟨hj', h6', hk'⟩ := hexact j' u' hu'
      have hsep := h.map6.separate j' j _ _ ((live6_eq_some up).2 ⟨u', hj', h6', rfl⟩)
        ((live6_eq_some up).2 ⟨u, hj, h6, rfl⟩)
      exact hsep ((wild6_eq_some up).2 ⟨huw, hkey.trans hk'.symm⟩)

variable (up)

/-- **Decap from any source.**  After every clean history in which the entry of
`t` was not dropped, a packet for the decap-any tunnel `t` is given to the exact
tunnel of its source if there is one, else to a decap-any tunnel it is for.  For
IPv6 the entry under the packet's source must not belong to another local address. -/
theorem decapAny_lookup {rs : List VxlanRequest}
    (hrun : Allowed (vxlanStep up) (CleanStep up) VxlanMain.init rs) {i : ℕ} {t : VxlanTunnel}
    (ht : (run (vxlanStep up) VxlanMain.init rs).tunnels.elt i = some t)
    (how : t.ownsWildcard up = true)
    (hdrop : Allowed (vxlanStep up) (fun s r => ¬ DropsEntry up s r t.term) VxlanMain.init rs) :
    (∀ cache p stats, p.flags = vxlanFlagsI → Vxlan4Packet.IsFor p t.toVxlanParams →
      p.dstAddress ≠ 0#32 →
      Coherent4 (run (vxlanStep up) VxlanMain.init rs).vxlan4TunnelByKey cache →
      ∃ j u, (vxlan4FindTunnel up (run (vxlanStep up) VxlanMain.init rs) cache p stats).1
          = u.info ∧ u.info ≠ decapNotFound ∧
        (ExactTunnel4 up (run (vxlanStep up) VxlanMain.init rs) p j u ∨
          ((∀ j' u', ¬ ExactTunnel4 up (run (vxlanStep up) VxlanMain.init rs) p j' u') ∧
            (run (vxlanStep up) VxlanMain.init rs).tunnels.elt j = some u ∧
            u.ownsWildcard up = true ∧ p.IsFor u.toVxlanParams))) ∧
    (∀ cache p stats, p.flags = vxlanFlagsI → Vxlan6Packet.IsFor p t.toVxlanParams →
      SourceKeyLocal up (run (vxlanStep up) VxlanMain.init rs) p →
      Coherent6 (run (vxlanStep up) VxlanMain.init rs).vxlan6TunnelByKey cache →
      ∃ j u, (vxlan6FindTunnel up (run (vxlanStep up) VxlanMain.init rs) cache p stats).map
          Prod.fst = some u.info ∧ u.info ≠ decapNotFound ∧
        (ExactTunnel6 (run (vxlanStep up) VxlanMain.init rs) p j u ∨
          ((∀ j' u', ¬ ExactTunnel6 (run (vxlanStep up) VxlanMain.init rs) p j' u') ∧
            (run (vxlanStep up) VxlanMain.init rs).tunnels.elt j = some u ∧
            u.ownsWildcard up = true ∧ p.IsFor u.toVxlanParams))) := by
  obtain ⟨h, hfits⟩ := clean_run up hrun
  have hc := entryComplete_run up (hfits i t ht) hrun hdrop
  constructor
  · intro cache p stats hflags hp hdst hcache
    obtain ⟨j, u, hres, hju⟩ := h.lookup4 hfits hc ht how hp hflags hdst hcache
    refine ⟨j, u, hres, h.info_ne_notFound (i := j) ?_, hju⟩
    rcases hju with hju | hju
    · exact hju.1
    · exact hju.2.1
  · intro cache p stats hflags hp hlocal hcache
    obtain ⟨j, u, hres, hju⟩ := h.lookup6 hfits hc ht how hp hflags hcache hlocal
    refine ⟨j, u, hres, h.info_ne_notFound (i := j) ?_, hju⟩
    rcases hju with hju | hju
    · exact hju.1
    · exact hju.2.1

/-- A decap-any IPv6 add on UDP port 4789, fib 0 and VNI 100, for tunnel slot 0. -/
def decapAny6Request (src dst : BitVec 128) : VxlanRequest :=
  (⟨⟨.ip6 src dst, 0, 4789, 100⟩, true, vxlanDecapAnyFlag ||| 1⟩,
    ⟨true, 0, 1, false, false, false⟩)

/-- A packet from 192.0.2.7 reaches the decap-any tunnel of 10.0.0.1, and one from
2001:db8::7 that of 2001:db8::1. -/
theorem decapAny_lookup_single :
    (vxlan4FindTunnel .vpp
      (run (vxlanStep .vpp) VxlanMain.init [decapAnyRequest true 0x0a000001 0x0a000002 0 false])
      emptyCache4 ⟨0xc0000207, 0x0a000001, 4789, 0, vxlanFlagsI, vniWord 100⟩ 0).1
        ≠ decapNotFound ∧
    (vxlan6FindTunnel .vpp
      (run (vxlanStep .vpp) VxlanMain.init
        [decapAny6Request 0x20010db8000000000000000000000001 0x20010db8000000000000000000000002])
      emptyCache6 ⟨0x20010db8000000000000000000000007, 0x20010db8000000000000000000000001, 4789,
        0, vxlanFlagsI, vniWord 100⟩ 0).map Prod.fst ≠ some decapNotFound := by
  constructor
  · have hclean : Allowed (vxlanStep .vpp) (CleanStep .vpp) VxlanMain.init
        [decapAnyRequest true 0x0a000001 0x0a000002 0 false] := by
      refine ⟨cleanStep_init .vpp rfl rfl (by decide) (by decide) ?_, trivial⟩
      rintro ⟨-, h⟩
      revert h
      decide
    obtain ⟨j, u, hres, hne, -⟩ := (decapAny_lookup .vpp hclean (i := 0) rfl (by decide)
      ⟨fun h => Bool.noConfusion h.1, trivial⟩).1 emptyCache4
      ⟨0xc0000207, 0x0a000001, 4789, 0, vxlanFlagsI, vniWord 100⟩ 0 rfl
      ⟨rfl, rfl, rfl, rfl, rfl⟩ (by decide)
      (Or.inl rfl)
    rw [hres]
    exact hne
  · have hclean : Allowed (vxlanStep .vpp) (CleanStep .vpp) VxlanMain.init
        [decapAny6Request 0x20010db8000000000000000000000001
          0x20010db8000000000000000000000002] := by
      refine ⟨cleanStep_init .vpp rfl rfl (by decide) (by decide) ?_, trivial⟩
      rintro ⟨-, h⟩
      revert h
      decide
    obtain ⟨j, u, hres, hne, -⟩ := (decapAny_lookup .vpp hclean (i := 0) rfl (by decide)
      ⟨fun h => Bool.noConfusion h.1, trivial⟩).2 emptyCache6
      ⟨0x20010db8000000000000000000000007, 0x20010db8000000000000000000000001, 4789, 0,
        vxlanFlagsI, vniWord 100⟩ 0 rfl ⟨rfl, rfl, rfl, rfl, rfl⟩
      (by
        -- nothing sits under the source key of the packet
        intro k u hu
        have hnone : ∀ v ∈ (run (vxlanStep .vpp) VxlanMain.init
            [decapAny6Request 0x20010db8000000000000000000000001
              0x20010db8000000000000000000000002]).tunnels.elt k,
            v.addrs = .ip6 0x20010db8000000000000000000000001
              0x20010db8000000000000000000000002 := by
          intro v hv
          refine SlotPool.forall_elt (P := fun v : VxlanTunnel => v.addrs = _) ?_ hv
          decide
        rcases hu with hu | hu
        · rw [hnone u hu.1]
          rfl
        · rw [hnone u hu.1]
          rfl)
      (Or.inl rfl)
    rw [hres]
    intro heq
    exact hne (Option.some.inj heq)

/-- A decap-any tunnel of 10.0.0.1 whose remote is the group 239.1.1.1 has no
source-independent entry: a packet for it from 192.0.2.7 is not found. -/
theorem multicastRemote_not_found :
    Allowed (vxlanStep .vpp) Admissible VxlanMain.init
      [decapAnyRequest true 0x0a000001 0xef010101 0 false] ∧
    (∃ t, (run (vxlanStep .vpp) VxlanMain.init
        [decapAnyRequest true 0x0a000001 0xef010101 0 false]).tunnels.elt 0 = some t ∧
      t.decapAny = true ∧
      Vxlan4Packet.IsFor ⟨0xc0000207, 0x0a000001, 4789, 0, vxlanFlagsI, vniWord 100⟩
        t.toVxlanParams) ∧
    VppIp.vpp.ip4AddressIsMulticast 0x0a000001 = false ∧
    (vxlan4FindTunnel .vpp
      (run (vxlanStep .vpp) VxlanMain.init [decapAnyRequest true 0x0a000001 0xef010101 0 false])
      emptyCache4 ⟨0xc0000207, 0x0a000001, 4789, 0, vxlanFlagsI, vniWord 100⟩ 0).1
        = decapNotFound := by
  refine ⟨⟨?_, trivial⟩, ⟨_, rfl, by decide, rfl, rfl, rfl, rfl, rfl⟩, by decide, by decide⟩
  intro _
  refine ⟨⟨by decide, by decide⟩, by decide, fun i t h => ?_⟩
  simp [VxlanMain.init] at h

end Vxlan
