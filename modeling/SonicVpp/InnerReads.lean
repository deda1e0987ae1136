/-
# Which bytes decide the inner header

The resolver reads the tunnel headers in front of the inner header, the first bytes of
the inner header, and of each inner extension header its next header and length.  How a
change of other bytes, or of the last extension header, changes the result is what the
results on hashes of misread frames need.
-/
import SonicVpp.InnerResolve

open PacketBytes Ip

namespace InnerHash

/-! ## The last extension header -/

/-- The last extension header that the walk passes. -/
def lastExt (m : Mem) (pp remaining : ℕ) (protocol : BitVec 8) : Option ℕ :=
  if isWalkedExt protocol ∧ 2 ≤ remaining ∧ extBytes m pp ≤ remaining then
    some ((lastExt m (pp + extBytes m pp) (remaining - extBytes m pp) (extProtocol m pp)).getD pp)
  else none
termination_by remaining
decreasing_by
  simp only [extBytes] at *
  omega

section Walk

variable {m : Mem} {pp remaining q : ℕ} {protocol : BitVec 8}

/-- The walk of an extension header, one step. -/
theorem walk_step {m' : Mem} (hw : isWalkedExt protocol = true) (h2 : 2 ≤ remaining)
    (hlen : extBytes m' pp ≤ remaining) :
    ipInnerV6WalkExtHeaders m' pp remaining protocol
      = ipInnerV6WalkExtHeaders m' (pp + extBytes m' pp) (remaining - extBytes m' pp)
          (extProtocol m' pp) := by
  rw [ipInnerV6WalkExtHeaders, if_pos hw, if_neg (by omega), if_neg (by omega)]

/-- The walk ends successfully at this next header. -/
def WalkDone (protocol : BitVec 8) : Prop :=
  isWalkedExt protocol = false ∧ (protocol = protocolIpv6Fragmentation
    || protocol = protocolIpsecEsp || protocol = protocolIpsecAh) = false

theorem WalkDone.walk (hdone : WalkDone protocol) (m : Mem) (pp remaining : ℕ) :
    ipInnerV6WalkExtHeaders m pp remaining protocol = (protocol, pp, remaining) := by
  rw [ipInnerV6WalkExtHeaders, if_neg (by simp [hdone.1]), if_neg (by simp [hdone.2])]

/-- A walk that succeeds and passes no extension header reads nothing. -/
theorem walkDone_of_lastExt_none (hok : (ipInnerV6WalkExtHeaders m pp remaining protocol).1 ≠ 0)
    (hlast : lastExt m pp remaining protocol = none) : WalkDone protocol := by
  rw [lastExt] at hlast
  rw [ipInnerV6WalkExtHeaders] at hok
  by_cases hw : isWalkedExt protocol = true
  · rw [if_pos hw] at hok
    split_ifs at hok with h2 hlen
    · exact absurd rfl hok
    · exact absurd rfl hok
    · rw [if_pos ⟨hw, by omega, by omega⟩] at hlast
      cases hlast
  · rw [if_neg hw] at hok
    split_ifs at hok with hstop
    · exact absurd rfl hok
    · exact ⟨Bool.eq_false_iff.2 hw, Bool.eq_false_iff.2 hstop⟩

/-- What is known of a walk whose last extension header is at `q`: where it ends, and that
in every memory with the same bytes before `q` it comes to `q`. -/
structure WalkEnds (m : Mem) (pp remaining : ℕ) (protocol : BitVec 8) (q : ℕ) : Prop where
  start : pp ≤ q
  inside : q + extBytes m q ≤ pp + remaining
  walk : ipInnerV6WalkExtHeaders m pp remaining protocol
    = (extProtocol m q, q + extBytes m q, pp + remaining - (q + extBytes m q))
  done : WalkDone (extProtocol m q)
  comes : ∃ e, isWalkedExt e = true ∧ ∀ m', (∀ i, pp ≤ i → i < q → m i = m' i) →
    ipInnerV6WalkExtHeaders m' pp remaining protocol
      = ipInnerV6WalkExtHeaders m' q (pp + remaining - q) e

theorem walkEnds_of_lastExt (hok : (ipInnerV6WalkExtHeaders m pp remaining protocol).1 ≠ 0)
    (hlast : lastExt m pp remaining protocol = some q) : WalkEnds m pp remaining protocol q := by
  fun_induction lastExt m pp remaining protocol with
  | case2 => cases hlast
  | case1 pp remaining protocol hcond ih =>
    obtain ⟨hw, h2, hlen⟩ := hcond
    have h8 : 8 ≤ extBytes m pp := by simp only [extBytes]; omega
    rw [walk_step hw h2 hlen] at hok
    cases hrest : lastExt m (pp + extBytes m pp) (remaining - extBytes m pp) (extProtocol m pp) with
    | none =>
      -- this header is the last one
      rw [hrest] at hlast
      obtain rfl : pp = q := Option.some.inj hlast
      have hdone := walkDone_of_lastExt_none hok hrest
      refine ⟨le_rfl, by omega, ?_, hdone, protocol, hw, fun m' _ => ?_⟩
      · rw [walk_step hw h2 hlen, hdone.walk, Nat.sub_add_eq, Nat.add_sub_cancel_left]
      · rw [Nat.add_sub_cancel_left]
    | some q' =>
      rw [hrest] at hlast
      obtain rfl : q' = q := Option.some.inj hlast
      obtain ⟨hstart, hin, hwalk, hdone, e, he, hcomes⟩ := ih hok hrest
      refine ⟨by omega, by omega, ?_, hdone, e, he, fun m' hag => ?_⟩
      · rw [walk_step hw h2 hlen, hwalk]
        congr 2
        omega
      · have hbytes : extBytes m' pp = extBytes m pp := by
          simp only [extBytes, hag (pp + 1) (by omega) (by omega)]
        have hproto : extProtocol m' pp = extProtocol m pp := (hag pp le_rfl (by omega)).symm
        rw [walk_step hw h2 (by omega), hbytes, hproto, hcomes m' fun i hi hq => hag i (by omega) hq]
        congr 1
        omega

end Walk

/-! ## Where the inner header is resolved -/

/-- The resolver of one family. -/
def resolveAt (isV6 : Bool) (m : Mem) (payload remaining : ℕ) : Option IpInnerHdr :=
  if isV6 then ipInnerResolveV6 m payload remaining else ipInnerResolveV4 m payload remaining

section Front

variable {m m' : Mem} {a r : ℕ} {h : IpInnerHdr}

theorem resolveV4_at (hres : ipInnerResolveV4 m a r = some h) : h.ip = a ∧ h.isV6 = false := by
  unfold ipInnerResolveV4 at hres
  split_ifs at hres
  obtain rfl := Option.some.inj hres
  exact ⟨rfl, rfl⟩

theorem resolveV6_at (hres : ipInnerResolveV6 m a r = some h) : h.ip = a ∧ h.isV6 = true := by
  unfold ipInnerResolveV6 at hres
  revert hres
  generalize ipInnerV6WalkExtHeaders m (a + ip6HeaderSize) (r - ip6HeaderSize)
    (ip6Protocol m a) = walk
  obtain ⟨protocol, cur, left⟩ := walk
  intro hres
  simp only at hres
  split_ifs at hres
  obtain rfl := Option.some.inj hres
  exact ⟨rfl, rfl⟩

theorem resolveByType_at {t : BitVec 16} (hres : ipInnerResolveByType m a r t = some h) :
    h.ip = a ∧ ∀ m', ipInnerResolveByType m' a r t = resolveAt h.isV6 m' h.ip r := by
  unfold ipInnerResolveByType at hres ⊢
  by_cases h4 : t = ethernetTypeIp4
  · rw [if_pos h4] at hres
    obtain ⟨hip, h6⟩ := resolveV4_at hres
    exact ⟨hip, fun m' => by rw [if_pos h4, hip, h6]; rfl⟩
  · rw [if_neg h4] at hres
    split_ifs at hres with h6t
    obtain ⟨hip, h6⟩ := resolveV6_at hres
    exact ⟨hip, fun m' => by rw [if_neg h4, if_pos h6t, hip, h6]; rfl⟩

theorem resolveGre_at {t : BitVec 16} (hres : ipInnerResolveGre m a r t = some h) :
    a ≤ h.ip ∧ ∀ m', AgreeBelow h.ip m m' →
      ipInnerResolveGre m' a r t = resolveAt h.isV6 m' h.ip (a + r - h.ip) := by
  unfold ipInnerResolveGre at hres ⊢
  by_cases hteb : t = greProtocolTeb
  · rw [if_pos hteb] at hres
    split_ifs at hres with hlen hty
    obtain ⟨hip, hat⟩ := resolveByType_at hres
    have hlen' : ¬ r < 15 := hlen
    have hip' : h.ip = a + 14 := hip
    refine ⟨by omega, fun m' hag => ?_⟩
    rw [if_pos hteb, ← hag.netU16 (i := a + 12) (by omega), if_neg hlen, if_pos hty, hat m']
    congr 1
    simp only [ethernetHeaderSize]
    omega
  · rw [if_neg hteb] at hres
    obtain ⟨hip, hat⟩ := resolveByType_at hres
    refine ⟨by omega, fun m' _ => ?_⟩
    rw [if_neg hteb, hat m']
    congr 1
    omega

/-- Which resolver is taken, and where, is decided by the bytes before the inner header. -/
theorem ipInnerResolve_at {p : BitVec 8} (hres : ipInnerResolve m p a r = some h)
    (hag : AgreeBelow h.ip m m') :
    ipInnerResolve m' p a r = resolveAt h.isV6 m' h.ip (a + r - h.ip) := by
  unfold ipInnerResolve at hres ⊢
  by_cases h4 : p = protocolIpInIp
  · rw [if_pos h4] at hres ⊢
    obtain ⟨hip, h6⟩ := resolveV4_at hres
    rw [hip, h6, Nat.add_sub_cancel_left]
    rfl
  · rw [if_neg h4] at hres ⊢
    by_cases h6p : p = protocolIpv6
    · rw [if_pos h6p] at hres ⊢
      obtain ⟨hip, h6⟩ := resolveV6_at hres
      rw [hip, h6, Nat.add_sub_cancel_left]
      rfl
    · rw [if_neg h6p] at hres ⊢
      split_ifs at hres with hgre
      rw [if_pos hgre]
      cases hskip : ipInnerGreSkipOptionalFields m a r with
      | none => rw [hskip] at hres; cases hres
      | some x =>
        obtain ⟨t, consumed⟩ := x
        rw [hskip] at hres
        have hle := greSkip_le hskip
        obtain ⟨hstart, hat⟩ := resolveGre_at hres
        have h4c : 4 ≤ consumed := by
          simp only [ipInnerGreSkipOptionalFields] at hskip
          split_ifs at hskip
          simp only [Option.some.injEq, Prod.mk.injEq] at hskip
          rw [← hskip.2]
          unfold greBytes
          omega
        -- the optional fields are told from the first four bytes, below the inner header
        have hskip' : ipInnerGreSkipOptionalFields m' a r = some (t, consumed) := by
          rw [← hskip]
          unfold ipInnerGreSkipOptionalFields
          rw [← hag.netU16 (i := a) (by omega), ← hag.netU16 (i := a + 2) (by omega)]
        rw [hskip']
        simp only
        rw [hat m' hag]
        congr 1
        omega

/-- The inner IPv4 header is resolved alike where its first ten bytes are the same. -/
theorem resolveV4_stable (hres : ipInnerResolveV4 m a r = some h)
    (hag : ∀ k < 10, m (a + k) = m' (a + k)) : ipInnerResolveV4 m' a r = some h := by
  have h0 : m a = m' a := hag 0 (by omega)
  have hver : version m a = version m' a := by simp only [version, h0]
  have hfrag : ip4IsFragment m a = ip4IsFragment m' a := by
    simp only [ip4IsFragment, netU16, Nat.add_assoc, hag 6 (by omega), hag (6 + 1) (by omega)]
  have hproto : ip4Protocol m a = ip4Protocol m' a := hag 9 (by omega)
  unfold ipInnerResolveV4 at hres ⊢
  rw [← hver, ← hfrag, ← hproto]
  exact hres

/-- What the walk of a resolved inner IPv6 header gives. -/
theorem resolveV6_walk (hres : ipInnerResolveV6 m a r = some h) :
    48 ≤ r ∧ h.protocol ≠ 0 ∧ h.l4 + 8 ≤ a + r ∧
      ipInnerV6WalkExtHeaders m (a + 40) (r - 40) (ip6Protocol m a)
        = (h.protocol, h.l4, a + r - h.l4) := by
  have hb := walk_bounds m (a + ip6HeaderSize) (r - ip6HeaderSize) (ip6Protocol m a)
  change 48 ≤ r ∧ h.protocol ≠ 0 ∧ h.l4 + 8 ≤ a + r ∧
    ipInnerV6WalkExtHeaders m (a + ip6HeaderSize) (r - ip6HeaderSize) (ip6Protocol m a)
      = (h.protocol, h.l4, a + r - h.l4)
  unfold ipInnerResolveV6 at hres
  revert hb hres
  generalize ipInnerV6WalkExtHeaders m (a + ip6HeaderSize) (r - ip6HeaderSize)
    (ip6Protocol m a) = walk
  obtain ⟨protocol, cur, left⟩ := walk
  intro hres hb
  simp only at hres hb
  split_ifs at hres with hlen hver hbad
  obtain rfl := Option.some.inj hres
  simp only [Bool.or_eq_true, decide_eq_true_eq, not_or] at hbad
  simp only [ip6HeaderSize, ipInnerL4MinBytes] at hlen hb
  have hleft : ¬ left < 8 := hbad.2
  refine ⟨by omega, hbad.1, by simp only; omega, ?_⟩
  simp only [Prod.mk.injEq, true_and]
  omega

/-- The inner IPv6 header in a memory with the same version and next header. -/
theorem resolveV6_eq (hres : ipInnerResolveV6 m a r = some h)
    (hag : ∀ k < 8, m (a + k) = m' (a + k)) {protocol : BitVec 8} {cur left : ℕ}
    (hw : ipInnerV6WalkExtHeaders m' (a + 40) (r - 40) (ip6Protocol m a) = (protocol, cur, left)) :
    ipInnerResolveV6 m' a r
      = if protocol = 0 ∨ left < 8 then none else some ⟨a, true, cur, protocol⟩ := by
  have h0 : m a = m' a := hag 0 (by omega)
  have hver : version m' a = version m a := by simp only [version, h0]
  have hproto : ip6Protocol m' a = ip6Protocol m a := (hag 6 (by omega)).symm
  unfold ipInnerResolveV6 at hres ⊢
  rw [hver, hproto]
  split_ifs at hres with hlen hv6
  rw [if_neg hlen, if_neg hv6]
  simp only [ip6HeaderSize, hw, Bool.or_eq_true, decide_eq_true_eq]
  rfl

/-- A resolved inner IPv6 header whose last extension header is at `q`. -/
theorem resolveV6_lastExt (hres : ipInnerResolveV6 m a r = some h) {q : ℕ}
    (hq : lastExt m (a + 40) (r - 40) (ip6Protocol m a) = some q) :
    a + 40 ≤ q ∧ h.l4 = q + extBytes m q ∧ h.protocol = extProtocol m q ∧ WalkDone h.protocol := by
  obtain ⟨hr, hne, -, hwalk⟩ := resolveV6_walk hres
  have hends := walkEnds_of_lastExt (by rw [hwalk]; exact hne) hq
  have heq := hwalk.symm.trans hends.walk
  simp only [Prod.mk.injEq] at heq
  exact ⟨hends.start, heq.2.1, heq.1, heq.1 ▸ hends.done⟩

/-- **The last extension header decides.**  In a memory with the same bytes before it, its
length and next header make the result. -/
theorem resolveV6_atLast (hres : ipInnerResolveV6 m a r = some h) {q : ℕ}
    (hq : lastExt m (a + 40) (r - 40) (ip6Protocol m a) = some q)
    (hag : ∀ i, a ≤ i → i < q → m i = m' i) (hdone : WalkDone (extProtocol m' q))
    (hne : extProtocol m' q ≠ 0) :
    ipInnerResolveV6 m' a r = if a + r < q + extBytes m' q + 8 then none
      else some ⟨a, true, q + extBytes m' q, extProtocol m' q⟩ := by
  obtain ⟨hr, hne', -, hwalk⟩ := resolveV6_walk hres
  have hends := walkEnds_of_lastExt (by rw [hwalk]; exact hne') hq
  have hstart := hends.start
  have hin := hends.inside
  have h8 : 8 ≤ extBytes m q := by simp only [extBytes]; omega
  have hag8 : ∀ k < 8, m (a + k) = m' (a + k) := fun k hk => hag _ (by omega) (by omega)
  obtain ⟨e, he, hcomes⟩ := hends.comes
  have hto := hcomes m' fun i hi hq => hag i (by omega) hq
  by_cases hlen : a + r < q + extBytes m' q
  · -- the header leaves the view
    have hw : ipInnerV6WalkExtHeaders m' (a + 40) (r - 40) (ip6Protocol m a)
        = (0, q, a + 40 + (r - 40) - q) := by
      rw [hto, ipInnerV6WalkExtHeaders, if_pos he, if_neg (by omega), if_pos (by omega)]
    rw [resolveV6_eq hres hag8 hw, if_pos (Or.inl rfl), if_pos (by omega)]
  · have hw : ipInnerV6WalkExtHeaders m' (a + 40) (r - 40) (ip6Protocol m a)
        = (extProtocol m' q, q + extBytes m' q, a + 40 + (r - 40) - q - extBytes m' q) := by
      rw [hto, walk_step he (by omega) (by omega), hdone.walk]
    rw [resolveV6_eq hres hag8 hw]
    by_cases hleft : a + r < q + extBytes m' q + 8
    · rw [if_pos hleft, if_pos (Or.inr (by omega))]
    · rw [if_neg hleft, if_neg (not_or.2 ⟨hne, by omega⟩)]

/-- The inner IPv6 header is resolved alike where the bytes that are read are the same. -/
theorem resolveV6_stable (hres : ipInnerResolveV6 m a r = some h)
    (hag : ∀ k < 8, m (a + k) = m' (a + k))
    (hread : ∀ q, lastExt m (a + 40) (r - 40) (ip6Protocol m a) = some q →
      ∀ i, a + 40 ≤ i → i < q + 2 → m i = m' i) :
    ipInnerResolveV6 m' a r = some h := by
  obtain ⟨hr, hne, hl4, hwalk⟩ := resolveV6_walk hres
  obtain ⟨hip, h6⟩ := resolveV6_at hres
  have hh : h = ⟨a, true, h.l4, h.protocol⟩ := by
    rw [← hip, ← h6]
  have hok : (ipInnerV6WalkExtHeaders m (a + 40) (r - 40) (ip6Protocol m a)).1 ≠ 0 := by
    rw [hwalk]
    exact hne
  have hw : ipInnerV6WalkExtHeaders m' (a + 40) (r - 40) (ip6Protocol m a)
      = (h.protocol, h.l4, a + r - h.l4) := by
    cases hq : lastExt m (a + 40) (r - 40) (ip6Protocol m a) with
    | none =>
      have hdone := walkDone_of_lastExt_none hok hq
      rw [← hwalk, hdone.walk, hdone.walk]
    | some q =>
      have hends := walkEnds_of_lastExt hok hq
      obtain ⟨e, he, hcomes⟩ := hends.comes
      have hin := hends.inside
      have hstart := hends.start
      have h8 : 8 ≤ extBytes m q := by simp only [extBytes]; omega
      have hbytes : extBytes m' q = extBytes m q := by
        simp only [extBytes, hread q hq (q + 1) (by omega) (by omega)]
      have hproto : extProtocol m' q = extProtocol m q := (hread q hq q hstart (by omega)).symm
      rw [← hwalk, hends.walk, hcomes m' fun i hi hlt => hread q hq i hi (by omega),
        walk_step he (by omega) (by omega), hproto, hends.done.walk, hbytes, Nat.sub_sub]
  rw [resolveV6_eq hres hag hw, if_neg (not_or.2 ⟨hne, by omega⟩), ← hh]

/-- The bytes that decide a resolved inner header. -/
theorem resolveAt_stable {v : Bool} (hres : resolveAt v m a r = some h)
    (hag : ∀ k < 10, m (a + k) = m' (a + k))
    (hread : v = true → ∀ q, lastExt m (a + 40) (r - 40) (ip6Protocol m a) = some q →
      ∀ i, a + 40 ≤ i → i < q + 2 → m i = m' i) : resolveAt v m' a r = some h := by
  cases v with
  | false => exact resolveV4_stable hres hag
  | true => exact resolveV6_stable hres (fun k hk => hag k (by omega)) (hread rfl)

end Front

end InnerHash
