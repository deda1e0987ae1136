/-
# The grammar of encapsulated packets

What a packet must look like for its inner header to be found, as a grammar over its bytes that
mentions no resolver: an inner IPv4 or IPv6 packet, directly behind the outer header or behind a
GRE header, with or without an Ethernet header between them.  `ip_inner_resolve` accepts exactly
this grammar (`ipInnerResolve_accepts_grammar`), and what it returns is where the derivation has the inner
header, its family, its upper-layer protocol and the end of its extension headers.
-/
import SonicVpp.InnerReads

open PacketBytes Ip

namespace InnerHash

/-! ## The grammar -/

/-- The bytes of a packet, or of a part of it. -/
abbrev Bytes := List (BitVec 8)

/-- `UpperLayer p bs up n`: behind the next-header value `p`, the bytes `bs` are `n` bytes of
extension headers and then at least eight bytes of the protocol `up`. -/
inductive UpperLayer : BitVec 8 → Bytes → BitVec 8 → ℕ → Prop
  | upper {p : BitVec 8} {bs : Bytes}
      (hp : p ≠ 0 ∧ p ≠ 43 ∧ p ≠ 60 ∧ p ≠ 44 ∧ p ≠ 50 ∧ p ≠ 51) (hlen : 8 ≤ bs.length) :
      UpperLayer p bs p 0
  | ext {p next len up : BitVec 8} {body rest : Bytes} {n : ℕ} (hp : p = 0 ∨ p = 43 ∨ p = 60)
      (hlen : (next :: len :: body).length = (len.toNat + 1) * 8)
      (h : UpperLayer next rest up n) :
      UpperLayer p (next :: len :: body ++ rest) up ((len.toNat + 1) * 8 + n)

/-- `InnerPacket v bs up n`: the bytes `bs` are an IPv4 or (`v`) an IPv6 packet with the
upper-layer protocol `up` at offset `n`. -/
inductive InnerPacket : Bool → Bytes → BitVec 8 → ℕ → Prop
  | v4 {bs : Bytes} (hlen : 28 ≤ bs.length) (hver : version (ofList bs) 0 = 4)
      (hfrag : ip4IsFragment (ofList bs) 0 = false) :
      InnerPacket false bs (ip4Protocol (ofList bs) 0) 20
  | v6 {header rest : Bytes} {up : BitVec 8} {n : ℕ} (hlen : header.length = 40)
      (hver : version (ofList header) 0 = 6)
      (h : UpperLayer (ip6Protocol (ofList header) 0) rest up n) :
      InnerPacket true (header ++ rest) up (40 + n)

/-- A GRE header: four bytes, and four more for each of the flags Checksum, Key and Sequence. -/
def GreHeader (header : Bytes) : Prop :=
  4 ≤ header.length ∧
    header.length = 4 + 4 * [15, 13, 12].countP fun i => (netU16 (ofList header) 0).getLsbD i

/-- The protocol type of a family. -/
def etherType (v : Bool) : BitVec 16 := if v then 0x86dd else 0x0800

/-- `Encapsulated p bs h`: behind the outer protocol `p`, the bytes `bs` hold the inner header `h`,
with offsets from the first of them. -/
inductive Encapsulated : BitVec 8 → Bytes → IpInnerHdr → Prop
  | ipInIp {bs : Bytes} {up : BitVec 8} {n : ℕ} (h : InnerPacket false bs up n) :
      Encapsulated 4 bs ⟨0, false, n, up⟩
  | ipv6 {bs : Bytes} {up : BitVec 8} {n : ℕ} (h : InnerPacket true bs up n) :
      Encapsulated 41 bs ⟨0, true, n, up⟩
  | gre {header bs : Bytes} {v : Bool} {up : BitVec 8} {n : ℕ} (hgre : GreHeader header)
      (htype : netU16 (ofList header) 2 = etherType v) (h : InnerPacket v bs up n) :
      Encapsulated 47 (header ++ bs) ⟨header.length, v, header.length + n, up⟩
  | teb {header eth bs : Bytes} {v : Bool} {up : BitVec 8} {n : ℕ} (hgre : GreHeader header)
      (htype : netU16 (ofList header) 2 = 0x6558) (heth : eth.length = 14)
      (hetype : netU16 (ofList eth) 12 = etherType v) (h : InnerPacket v bs up n) :
      Encapsulated 47 (header ++ (eth ++ bs))
        ⟨header.length + 14, v, header.length + 14 + n, up⟩

/-- The header at addresses, where the packet starts at `payload`. -/
def IpInnerHdr.at (h : IpInnerHdr) (payload : ℕ) : IpInnerHdr :=
  { h with ip := payload + h.ip, l4 := payload + h.l4 }

/-! ## The extension headers -/

variable {m : Mem}

theorem isWalkedExt_iff (p : BitVec 8) : isWalkedExt p = true ↔ p = 0 ∨ p = 43 ∨ p = 60 := by
  simp only [isWalkedExt, Bool.or_eq_true, decide_eq_true_eq, or_assoc]
  rfl

theorem walkDone_iff (p : BitVec 8) :
    WalkDone p ↔ p ≠ 0 ∧ p ≠ 43 ∧ p ≠ 60 ∧ p ≠ 44 ∧ p ≠ 50 ∧ p ≠ 51 := by
  simp only [WalkDone, isWalkedExt, Bool.or_eq_false_iff, decide_eq_false_iff_not, and_assoc]
  rfl

/-- An extension header in memory, and what follows it. -/
theorem upperLayer_ext {pp remaining n : ℕ} {p up : BitVec 8} (hp : isWalkedExt p = true)
    (hlen : extBytes m pp ≤ remaining)
    (h : UpperLayer (extProtocol m pp)
      (bytesAt m (pp + extBytes m pp) (remaining - extBytes m pp)) up n) :
    UpperLayer p (bytesAt m pp remaining) up (extBytes m pp + n) := by
  have h8 : 8 ≤ extBytes m pp := by simp only [extBytes]; omega
  have hsplit : bytesAt m pp remaining
      = (m pp :: m (pp + 1) :: bytesAt m (pp + 2) (extBytes m pp - 2))
        ++ bytesAt m (pp + extBytes m pp) (remaining - extBytes m pp) := by
    have hhead : m pp :: m (pp + 1) :: bytesAt m (pp + 2) (extBytes m pp - 2)
        = bytesAt m pp (extBytes m pp) := by
      rw [show extBytes m pp = 2 + (extBytes m pp - 2) by omega, bytesAt_add]
      simp [bytesAt, List.range_succ]
    rw [hhead, ← bytesAt_add, Nat.add_sub_cancel' hlen]
  rw [hsplit]
  refine UpperLayer.ext ((isWalkedExt_iff p).1 hp) ?_ h
  simp only [List.length_cons, bytesAt_length, extBytes] at h8 ⊢
  omega

/-- A walk that succeeds derives the grammar. -/
theorem upperLayer_of_walk (pp remaining : ℕ) (protocol : BitVec 8)
    (hok : (ipInnerV6WalkExtHeaders m pp remaining protocol).1 ≠ 0)
    (hleft : 8 ≤ (ipInnerV6WalkExtHeaders m pp remaining protocol).2.2) :
    UpperLayer protocol (bytesAt m pp remaining)
      (ipInnerV6WalkExtHeaders m pp remaining protocol).1
      ((ipInnerV6WalkExtHeaders m pp remaining protocol).2.1 - pp) := by
  fun_induction ipInnerV6WalkExtHeaders m pp remaining protocol with
  | case1 => exact absurd rfl hok
  | case2 => exact absurd rfl hok
  | case3 pp remaining protocol hw h2 hlen ih =>
    have hstep := upperLayer_ext hw (by omega) (ih hok hleft)
    have hle := (walk_bounds m (pp + extBytes m pp) (remaining - extBytes m pp)
      (extProtocol m pp)).1
    rw [show extBytes m pp + ((ipInnerV6WalkExtHeaders m (pp + extBytes m pp)
      (remaining - extBytes m pp) (extProtocol m pp)).2.1 - (pp + extBytes m pp))
      = (ipInnerV6WalkExtHeaders m (pp + extBytes m pp)
      (remaining - extBytes m pp) (extProtocol m pp)).2.1 - pp by omega] at hstep
    exact hstep
  | case4 => exact absurd rfl hok
  | case5 pp remaining protocol hw hstop =>
    rw [Nat.sub_self]
    refine UpperLayer.upper ((walkDone_iff protocol).1 ⟨?_, ?_⟩) (by rwa [bytesAt_length])
    · exact Bool.eq_false_iff.2 hw
    · exact Bool.eq_false_iff.2 hstop

/-- What is derived is walked. -/
theorem walk_of_upperLayer {p up : BitVec 8} {bs : Bytes} {n : ℕ} (h : UpperLayer p bs up n) :
    ∀ pp remaining, bs = bytesAt m pp remaining → n + 8 ≤ remaining ∧ up ≠ 0 ∧
      ipInnerV6WalkExtHeaders m pp remaining p = (up, pp + n, remaining - n) := by
  induction h with
  | @upper p bs hp hlen =>
    rintro pp remaining rfl
    rw [bytesAt_length] at hlen
    exact ⟨by omega, hp.1, ((walkDone_iff p).2 hp).walk m pp remaining⟩
  | @ext p next len up body rest n hp hlen _ ih =>
    intro pp remaining hbytes
    obtain ⟨hle, hhead, hrest⟩ := bytesAt_eq_append.1 hbytes.symm
    rw [hlen] at hle hhead hrest
    -- the first two bytes of the header
    have hbyte : ∀ k, k < (len.toNat + 1) * 8 →
        (next :: len :: body).getD k 0 = m (pp + k) := by
      intro k hk
      rw [hhead]
      exact ofList_bytesAt m pp hk
    have hnext : extProtocol m pp = next := (hbyte 0 (by omega)).symm
    have hbytes : extBytes m pp = (len.toNat + 1) * 8 := by
      have hlenByte : len = m (pp + 1) := hbyte 1 (by omega)
      rw [extBytes, ← hlenByte]
    obtain ⟨h8, hup, hwalk⟩ := ih _ _ hrest
    refine ⟨by omega, hup, ?_⟩
    rw [walk_step ((isWalkedExt_iff p).2 hp) (by omega) (by omega), hbytes, hnext, hwalk]
    simp only [Prod.mk.injEq, true_and]
    omega

/-! ## The inner packet -/

theorem version_bytesAt {a r : ℕ} (hr : 0 < r) : version (ofList (bytesAt m a r)) 0 = version m a := by
  simp only [version, ofList_bytesAt m a hr, Nat.add_zero]

theorem netU16_bytesAt {a r k : ℕ} (hk : k + 1 < r) :
    netU16 (ofList (bytesAt m a r)) k = netU16 m (a + k) := by
  simp only [netU16, ofList_bytesAt m a hk, ofList_bytesAt m a (show k < r by omega), Nat.add_assoc]

/-- An IPv4 packet is resolved exactly if it is one. -/
theorem resolveV4_iff {a r : ℕ} {h : IpInnerHdr} :
    ipInnerResolveV4 m a r = some h ↔
      ∃ up n, InnerPacket false (bytesAt m a r) up n ∧ h = ⟨a, false, a + n, up⟩ := by
  -- the grammar reads the bytes of the payload alone, the code those in memory
  have hfields : 28 ≤ r → version (ofList (bytesAt m a r)) 0 = version m a ∧
      ip4IsFragment (ofList (bytesAt m a r)) 0 = ip4IsFragment m a ∧
      ip4Protocol (ofList (bytesAt m a r)) 0 = ip4Protocol m a := by
    intro hr
    refine ⟨version_bytesAt (by omega), ?_, ?_⟩
    · simp only [ip4IsFragment, netU16_bytesAt (show 0 + 6 + 1 < r by omega), Nat.zero_add]
    · simp only [ip4Protocol, ofList_bytesAt m a (show 0 + 9 < r by omega), Nat.zero_add]
  constructor
  · intro hres
    unfold ipInnerResolveV4 at hres
    split_ifs at hres with hlen hver hfrag
    have hr : 28 ≤ r := by
      simp only [ip4HeaderSize, ipInnerL4MinBytes] at hlen
      omega
    obtain ⟨hver', hfrag', hproto'⟩ := hfields hr
    obtain rfl := Option.some.inj hres
    refine ⟨ip4Protocol m a, 20, ?_, rfl⟩
    rw [← hproto']
    apply InnerPacket.v4
    · rwa [bytesAt_length]
    · rw [hver']
      exact not_not.1 hver
    · rw [hfrag']
      exact Bool.eq_false_iff.2 hfrag
  · rintro ⟨up, n, hpacket, rfl⟩
    generalize hbytes : bytesAt m a r = bs at hpacket
    cases hpacket with
    | v4 hlen hver hfrag =>
      subst hbytes
      rw [bytesAt_length] at hlen
      obtain ⟨hver', hfrag', hproto'⟩ := hfields hlen
      rw [hver'] at hver
      rw [hfrag'] at hfrag
      unfold ipInnerResolveV4
      rw [if_neg (by simp only [ip4HeaderSize, ipInnerL4MinBytes]; omega), if_neg (not_not.2 hver),
        if_neg (by simp [hfrag]), hproto']
      rfl

/-- An IPv6 packet is resolved exactly if it is one. -/
theorem resolveV6_iff {a r : ℕ} {h : IpInnerHdr} :
    ipInnerResolveV6 m a r = some h ↔
      ∃ up n, InnerPacket true (bytesAt m a r) up n ∧ h = ⟨a, true, a + n, up⟩ := by
  have hver6 : version (ofList (bytesAt m a 40)) 0 = version m a := version_bytesAt (by omega)
  have hproto6 : ip6Protocol (ofList (bytesAt m a 40)) 0 = ip6Protocol m a := by
    simp only [ip6Protocol, ofList_bytesAt m a (show 0 + 6 < 40 by omega), Nat.zero_add]
  constructor
  · intro hres
    obtain ⟨hr, hne, hl4, hwalk⟩ := resolveV6_walk hres
    obtain ⟨hip, h6⟩ := resolveV6_at hres
    have hver : version m a = 6 := by
      unfold ipInnerResolveV6 at hres
      split_ifs at hres with _ hver
      exact not_not.1 hver
    have hleft : 8 ≤ a + r - h.l4 := by omega
    have hupper := upperLayer_of_walk (m := m) (a + 40) (r - 40) (ip6Protocol m a)
      (by rw [hwalk]; exact hne) (by rw [hwalk]; exact hleft)
    rw [hwalk] at hupper
    have hstart := (resolveV6_inside hres).header
    rw [hip, h6] at hstart
    simp only [if_true, ip6HeaderSize] at hstart
    refine ⟨h.protocol, 40 + (h.l4 - (a + 40)), ?_, ?_⟩
    · rw [show r = 40 + (r - 40) by omega, bytesAt_add]
      apply InnerPacket.v6 (bytesAt_length ..)
      · rw [hver6, hver]
      · rw [hproto6]
        exact hupper
    · rw [show a + (40 + (h.l4 - (a + 40))) = h.l4 by omega, ← hip, ← h6]
  · rintro ⟨up, n, hpacket, rfl⟩
    generalize hbytes : bytesAt m a r = bs at hpacket
    cases hpacket with
    | @v6 header rest _ n hlen hver hupper =>
      obtain ⟨hle, hheader, hrest⟩ := bytesAt_eq_append.1 hbytes
      rw [hlen] at hle hheader hrest
      rw [hheader, hver6] at hver
      rw [hheader, hproto6] at hupper
      obtain ⟨h8, hup, hwalk⟩ := walk_of_upperLayer hupper _ _ hrest
      unfold ipInnerResolveV6
      rw [if_neg (by simp only [ip6HeaderSize, ipInnerL4MinBytes]; omega), if_neg (not_not.2 hver)]
      have hleft : ¬ r - 40 - n < ipInnerL4MinBytes := by
        simp only [ipInnerL4MinBytes]
        omega
      have hok : (decide (up = 0) || decide (r - 40 - n < ipInnerL4MinBytes)) = false := by
        rw [decide_eq_false hup, decide_eq_false hleft, Bool.or_false]
      simp only [ip6HeaderSize, hwalk]
      rw [if_neg (Bool.eq_false_iff.1 hok), Nat.add_assoc]

/-- The packet of either family. -/
theorem resolveAt_iff {v : Bool} {a r : ℕ} {h : IpInnerHdr} :
    resolveAt v m a r = some h ↔
      ∃ up n, InnerPacket v (bytesAt m a r) up n ∧ h = ⟨a, v, a + n, up⟩ := by
  cases v with
  | false => exact resolveV4_iff
  | true => exact resolveV6_iff

/-! ## The GRE header -/

theorem and_shiftLeft_ne_zero (flags : BitVec 16) {i : ℕ} (hi : i < 16) :
    flags &&& (1#16 <<< i) ≠ 0 ↔ flags.getLsbD i = true := by
  rw [← BitVec.twoPow_eq, BitVec.and_twoPow]
  split
  · rename_i hbit
    refine ⟨fun _ => hbit, fun _ h => ?_⟩
    have hget := congrArg (fun x : BitVec 16 => x.getLsbD i) h
    simp [hi] at hget
  · rename_i hbit
    exact ⟨fun h => absurd rfl h, fun h => absurd h hbit⟩

/-- The length that the flags make. -/
theorem greBytes_eq (flags : BitVec 16) :
    greBytes flags = 4 + 4 * [15, 13, 12].countP fun i => flags.getLsbD i := by
  simp only [greBytes, greFlagsChecksum, greFlagsKey, greFlagsSequence,
    and_shiftLeft_ne_zero flags (show 15 < 16 by omega),
    and_shiftLeft_ne_zero flags (show 13 < 16 by omega),
    and_shiftLeft_ne_zero flags (show 12 < 16 by omega), List.countP_cons, List.countP_nil]
  split_ifs <;> omega

theorem greHeader_bytesAt {a c : ℕ} :
    GreHeader (bytesAt m a c) ↔ 4 ≤ c ∧ c = greBytes (netU16 m a) := by
  unfold GreHeader
  rw [bytesAt_length, greBytes_eq]
  refine and_congr_right fun hc => ?_
  rw [netU16_bytesAt (show 0 + 1 < c by omega), Nat.add_zero]

/-- The optional fields are skipped exactly if the header is there. -/
theorem greSkip_iff {a r c : ℕ} {t : BitVec 16} :
    ipInnerGreSkipOptionalFields m a r = some (t, c) ↔
      c ≤ r ∧ GreHeader (bytesAt m a c) ∧ t = netU16 (ofList (bytesAt m a c)) 2 := by
  have h4 : 4 ≤ greBytes (netU16 m a) := by
    unfold greBytes
    omega
  simp only [ipInnerGreSkipOptionalFields, greHeader_bytesAt]
  constructor
  · intro h
    split_ifs at h with hshort hlen
    simp only [Option.some.injEq, Prod.mk.injEq] at h
    obtain ⟨rfl, rfl⟩ := h
    exact ⟨by omega, ⟨h4, rfl⟩, (netU16_bytesAt (by omega)).symm⟩
  · rintro ⟨hle, ⟨-, rfl⟩, rfl⟩
    rw [if_neg (by omega), if_neg (by omega), netU16_bytesAt (by omega)]

/-- The protocol types of the two families. -/
theorem resolveByType_iff {a r : ℕ} {t : BitVec 16} {h : IpInnerHdr} :
    ipInnerResolveByType m a r t = some h ↔
      ∃ v, t = etherType v ∧ resolveAt v m a r = some h := by
  have hne : etherType true ≠ ethernetTypeIp4 := by decide
  unfold ipInnerResolveByType
  constructor
  · intro hres
    split_ifs at hres with h4 h6
    · exact ⟨false, h4, hres⟩
    · exact ⟨true, h6, hres⟩
  · rintro ⟨v, rfl, hres⟩
    cases v with
    | false => exact hres
    | true =>
      rw [if_neg hne]
      exact hres

/-- The packet behind a GRE header, with or without an Ethernet header. -/
theorem resolveGre_iff {a r : ℕ} {t : BitVec 16} {h : IpInnerHdr} :
    ipInnerResolveGre m a r t = some h ↔
      (∃ v, t = etherType v ∧ resolveAt v m a r = some h) ∨
      (t = greProtocolTeb ∧ ∃ v, netU16 m (a + 12) = etherType v ∧
        14 ≤ r ∧ resolveAt v m (a + 14) (r - 14) = some h) := by
  have hteb : ∀ v, etherType v ≠ greProtocolTeb := by
    intro v
    cases v <;> decide
  unfold ipInnerResolveGre
  constructor
  · intro hres
    split_ifs at hres with ht hlen htype
    · obtain ⟨v, hv, hat⟩ := resolveByType_iff.1 hres
      simp only [ethernetHeaderSize] at hlen
      exact Or.inr ⟨ht, v, hv, by omega, hat⟩
    · exact Or.inl (resolveByType_iff.1 hres)
  · rintro (⟨v, rfl, hres⟩ | ⟨rfl, v, hv, hlen, hres⟩)
    · rw [if_neg (hteb v), resolveByType_iff]
      exact ⟨v, rfl, hres⟩
    · have hlong : 8 ≤ r - 14 := by
        obtain ⟨up, n, hpacket, -⟩ := resolveAt_iff.1 hres
        generalize hbytes : bytesAt m (a + 14) (r - 14) = bs at hpacket
        have hlen' : bs.length = r - 14 := by rw [← hbytes, bytesAt_length]
        cases hpacket with
        | v4 h28 => omega
        | v6 h40 =>
          rw [List.length_append, h40] at hlen'
          omega
      have htype : netU16 m (a + 12) = ethernetTypeIp4 ∨ netU16 m (a + 12) = ethernetTypeIp6 := by
        cases v with
        | false => exact Or.inl hv
        | true => exact Or.inr hv
      rw [if_pos rfl, if_neg (by simp only [ethernetHeaderSize]; omega), if_pos htype,
        resolveByType_iff]
      exact ⟨v, hv, hres⟩

/-- The dispatch for a GRE packet whose header was skipped. -/
theorem ipInnerResolve_of_skip {payload remaining c : ℕ} {t : BitVec 16}
    (hskip : ipInnerGreSkipOptionalFields m payload remaining = some (t, c)) :
    ipInnerResolve m protocolGre payload remaining
      = ipInnerResolveGre m (payload + c) (remaining - c) t := by
  have h4 : protocolGre ≠ protocolIpInIp := by decide
  have h41 : protocolGre ≠ protocolIpv6 := by decide
  unfold ipInnerResolve
  rw [if_neg h4, if_neg h41, if_pos rfl, hskip]

/-! ## The grammar is what is accepted -/

/-- What is resolved is what is derived. -/
theorem ipInnerResolve_eq_some_iff {p : BitVec 8} {payload remaining : ℕ} {h : IpInnerHdr} :
    ipInnerResolve m p payload remaining = some h ↔
      ∃ g, Encapsulated p (bytesAt m payload remaining) g ∧ h = g.at payload := by
  constructor
  · intro hres
    unfold ipInnerResolve at hres
    split_ifs at hres with h4 h41 h47
    · subst h4
      obtain ⟨up, n, hpacket, rfl⟩ := resolveV4_iff.1 hres
      exact ⟨_, Encapsulated.ipInIp hpacket, rfl⟩
    · subst h41
      obtain ⟨up, n, hpacket, rfl⟩ := resolveV6_iff.1 hres
      exact ⟨_, Encapsulated.ipv6 hpacket, rfl⟩
    · subst h47
      cases hskip : ipInnerGreSkipOptionalFields m payload remaining with
      | none =>
        rw [hskip] at hres
        cases hres
      | some x =>
        obtain ⟨t, c⟩ := x
        rw [hskip] at hres
        obtain ⟨hc, hgre, rfl⟩ := greSkip_iff.1 hskip
        -- the GRE header and its optional fields, and what they carry
        have hsplit : bytesAt m payload remaining
            = bytesAt m payload c ++ bytesAt m (payload + c) (remaining - c) := by
          rw [← bytesAt_add, Nat.add_sub_cancel' hc]
        rcases resolveGre_iff.1 hres with ⟨v, hv, hat⟩ | ⟨hteb, v, hv, h14, hat⟩
        · obtain ⟨up, n, hpacket, rfl⟩ := resolveAt_iff.1 hat
          refine ⟨_, hsplit ▸ Encapsulated.gre hgre hv hpacket, ?_⟩
          simp only [IpInnerHdr.at, bytesAt_length, Nat.add_assoc]
        · obtain ⟨up, n, hpacket, rfl⟩ := resolveAt_iff.1 hat
          -- and there the Ethernet header
          have hsplit' : bytesAt m (payload + c) (remaining - c)
              = bytesAt m (payload + c) 14 ++ bytesAt m (payload + c + 14) (remaining - c - 14) := by
            rw [← bytesAt_add, Nat.add_sub_cancel' h14]
          rw [hsplit, hsplit']
          refine ⟨_, Encapsulated.teb hgre hteb (bytesAt_length ..) ?_ hpacket, ?_⟩
          · rw [netU16_bytesAt (by omega)]
            exact hv
          · simp only [IpInnerHdr.at, bytesAt_length, Nat.add_assoc]
  · rintro ⟨g, hderiv, rfl⟩
    -- by the rule that was used, with the bytes in place of the memory
    generalize hbytes : bytesAt m payload remaining = bs at hderiv
    cases hderiv with
    | ipInIp hpacket =>
      subst hbytes
      exact resolveV4_iff.2 ⟨_, _, hpacket, rfl⟩
    | ipv6 hpacket =>
      subst hbytes
      exact resolveV6_iff.2 ⟨_, _, hpacket, rfl⟩
    | @gre header rest v up n hgre htype hpacket =>
      obtain ⟨hle, hheader, hrest⟩ := bytesAt_eq_append.1 hbytes
      generalize hc : header.length = c at *
      subst hheader hrest
      refine (ipInnerResolve_of_skip (greSkip_iff.2 ⟨hle, hgre, rfl⟩)).trans ?_
      rw [resolveGre_iff]
      refine Or.inl ⟨v, htype, resolveAt_iff.2 ⟨up, n, hpacket, ?_⟩⟩
      simp only [IpInnerHdr.at, Nat.add_assoc]
    | @teb header eth rest v up n hgre htype heth hetype hpacket =>
      obtain ⟨hle, hheader, hrest⟩ := bytesAt_eq_append.1 hbytes
      generalize hc : header.length = c at *
      obtain ⟨hle', heth', hrest'⟩ := bytesAt_eq_append.1 hrest.symm
      rw [heth] at hle' heth' hrest'
      subst hheader heth' hrest'
      refine (ipInnerResolve_of_skip (greSkip_iff.2 ⟨hle, hgre, rfl⟩)).trans ?_
      rw [netU16_bytesAt (by omega)] at hetype
      rw [resolveGre_iff]
      refine Or.inr ⟨htype, v, hetype, hle', resolveAt_iff.2 ⟨up, n, hpacket, ?_⟩⟩
      simp only [IpInnerHdr.at, Nat.add_assoc]

/-- **The resolver accepts exactly its grammar**: it returns a header if and only if the bytes have
a derivation, and then the one that the derivation names. -/
theorem ipInnerResolve_accepts_grammar (m : Mem) (p : BitVec 8) (payload remaining : ℕ) :
    ((ipInnerResolve m p payload remaining).isSome = true ↔
      ∃ g, Encapsulated p (bytesAt m payload remaining) g) ∧
    (∀ g, Encapsulated p (bytesAt m payload remaining) g →
      ipInnerResolve m p payload remaining = some (g.at payload)) := by
  have hderived : ∀ g, Encapsulated p (bytesAt m payload remaining) g →
      ipInnerResolve m p payload remaining = some (g.at payload) :=
    fun g hg => ipInnerResolve_eq_some_iff.2 ⟨g, hg, rfl⟩
  refine ⟨⟨fun hsome => ?_, ?_⟩, hderived⟩
  · obtain ⟨h, hres⟩ := Option.isSome_iff_exists.1 hsome
    obtain ⟨g, hg, -⟩ := ipInnerResolve_eq_some_iff.1 hres
    exact ⟨g, hg⟩
  · rintro ⟨g, hg⟩
    rw [hderived g hg]
    rfl

end InnerHash
