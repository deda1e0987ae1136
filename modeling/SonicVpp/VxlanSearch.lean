/-
# Where the searches end

The lookups before the patch are run over the exact entries only
(`VxlanMain.exactOnly`), and compared with the patched ones over the maps as they are,
in every state that admissible requests reach, slips included.  A search of the lookup
before the patch ends at the entry of the packet's key or, for a group, at the one its
second step finds; the patched one looks under the destination in between.  The lookups
agree where these entries do.
-/
import SonicVpp.VxlanReachable

open WildcardStore RunInvariant

namespace Vxlan

variable (up : VppIp)

/-! ## The exact entries -/

/-- The exact IPv4 entries of the live tunnels. -/
def exactEntries4 (s : VxlanMain) (k : Vxlan4TunnelKey) : Option VxlanDecapInfo :=
  (s.tunnels.first fun _ t => !t.addrs.isIp6 && t.key4 up = k).map fun x => x.2.decapInfo up

/-- The exact IPv6 entries of the live tunnels. -/
def exactEntries6 (s : VxlanMain) (k : Vxlan6TunnelKey) : Option ℕ :=
  (s.tunnels.first fun _ t => t.addrs.isIp6 && t.key6 = k).map fun x => x.2.devInstance

/-- The state with the exact entries only. -/
def VxlanMain.exactOnly (s : VxlanMain) : VxlanMain :=
  { s with vxlan4TunnelByKey := exactEntries4 up s, vxlan6TunnelByKey := exactEntries6 s }

variable {up} {s : VxlanMain}

theorem exactEntries4_eq_none {k : Vxlan4TunnelKey} :
    exactEntries4 up s k = none ↔ ∀ i t, ¬ ExactAt4 up s k i t := by
  unfold exactEntries4
  rw [Option.map_eq_none_iff]
  constructor
  · rintro h i t ⟨ht, h6, hk⟩
    have := SlotPool.first_eq_none h ht
    simp [h6, hk] at this
  · intro h
    cases hf : s.tunnels.first _ with
    | none => rfl
    | some x =>
      obtain ⟨i, t⟩ := x
      obtain ⟨ht, hq, -⟩ := SlotPool.first_eq_some hf
      simp only [Bool.and_eq_true, Bool.not_eq_true', decide_eq_true_eq] at hq
      exact absurd ⟨ht, hq.1, hq.2⟩ (h i t)

theorem exactEntries6_eq_none {k : Vxlan6TunnelKey} :
    exactEntries6 s k = none ↔ ∀ i t, ¬ ExactAt6 s k i t := by
  unfold exactEntries6
  rw [Option.map_eq_none_iff]
  constructor
  · rintro h i t ⟨ht, h6, hk⟩
    have := SlotPool.first_eq_none h ht
    simp [h6, hk] at this
  · intro h
    cases hf : s.tunnels.first _ with
    | none => rfl
    | some x =>
      obtain ⟨i, t⟩ := x
      obtain ⟨ht, hq, -⟩ := SlotPool.first_eq_some hf
      simp only [Bool.and_eq_true, decide_eq_true_eq] at hq
      exact absurd ⟨ht, hq.1, hq.2⟩ (h i t)

theorem exactEntries4_some {k : Vxlan4TunnelKey} {v : VxlanDecapInfo}
    (h : exactEntries4 up s k = some v) : ∃ i t, ExactAt4 up s k i t ∧ t.decapInfo up = v := by
  unfold exactEntries4 at h
  rw [Option.map_eq_some_iff] at h
  obtain ⟨⟨i, t⟩, hf, hv⟩ := h
  obtain ⟨ht, hq, -⟩ := SlotPool.first_eq_some hf
  simp only [Bool.and_eq_true, Bool.not_eq_true', decide_eq_true_eq] at hq
  exact ⟨i, t, ⟨ht, hq.1, hq.2⟩, hv⟩

theorem exactEntries6_some (hdev : ∀ i t, s.tunnels.elt i = some t → t.devInstance = i)
    {k : Vxlan6TunnelKey} {i : ℕ} (hk : exactEntries6 s k = some i) : ∃ t, ExactAt6 s k i t := by
  unfold exactEntries6 at hk
  rw [Option.map_eq_some_iff] at hk
  obtain ⟨⟨j, t⟩, hf, hv⟩ := hk
  obtain ⟨ht, hq, -⟩ := SlotPool.first_eq_some hf
  simp only [Bool.and_eq_true, decide_eq_true_eq] at hq
  obtain rfl : j = i := (hdev j t ht).symm.trans hv
  exact ⟨t, ht, hq.1, hq.2⟩

/-- The exact entries are as valid as the tunnels that they are of. -/
theorem EntriesValid.exactOnly (h : EntriesValid s) : EntriesValid (s.exactOnly up) where
  slot := h.slot
  dev := h.dev
  entry := by
    intro k v hk
    obtain ⟨i, t, ⟨ht, -, rfl⟩, rfl⟩ := exactEntries4_some hk
    exact ⟨tail_ne_emptyTail t.toVxlanParams, by
      rw [decapInfo_swIfIndex]
      exact h.tunnel ht⟩
  entry6 := by
    intro k i hk
    obtain ⟨t, ht, -, rfl⟩ := exactEntries6_some h.dev hk
    exact ⟨tail_ne_emptyTail t.toVxlanParams, t, poolEltAtIndex_live ht⟩

/-! ## The conservative extension, at one packet -/

section Property

variable (up) (s)

/-- Some live decap-any tunnel is the one the packet is for. -/
def DecapAnyFor4 (p : Vxlan4Packet) : Prop :=
  ∃ i t, s.tunnels.elt i = some t ∧ t.decapAny = true ∧ p.IsFor t.toVxlanParams

/-- Some live decap-any tunnel is the one the packet is for. -/
def DecapAnyFor6 (p : Vxlan6Packet) : Prop :=
  ∃ i t, s.tunnels.elt i = some t ∧ t.decapAny = true ∧ p.IsFor t.toVxlanParams

/-- The conservative-extension property at one packet: without decap-any tunnels
both lookups agree, and they differ only on packets for a decap-any tunnel. -/
def Conservative4 (cache : LastTunnelCache4) (p : Vxlan4Packet) (stats : BitVec 32) : Prop :=
  ((∀ i t, s.tunnels.elt i = some t → t.decapAny = false) →
    (vxlan4FindTunnel up s cache p stats).1 = (tuntermAclVxlan4FindTunnel up s cache p stats).1) ∧
  ((vxlan4FindTunnel up s cache p stats).1
      ≠ (tuntermAclVxlan4FindTunnel up (s.exactOnly up) cache p stats).1 → DecapAnyFor4 s p)

/-- The conservative-extension property at one packet. -/
def Conservative6 (cache : LastTunnelCache6) (p : Vxlan6Packet) (stats : BitVec 32) : Prop :=
  ((∀ i t, s.tunnels.elt i = some t → t.decapAny = false) →
    (vxlan6FindTunnel up s cache p stats).map Prod.fst
      = (tuntermAclVxlan6FindTunnel up s cache p stats).map Prod.fst) ∧
  ((vxlan6FindTunnel up s cache p stats).map Prod.fst
      ≠ (tuntermAclVxlan6FindTunnel up (s.exactOnly up) cache p stats).map Prod.fst →
    DecapAnyFor6 s p)

end Property

/-- Two answers, each found or not, are equal if and only if they find the same. -/
theorem eq_iff_of_finds {α : Type*} {x y nf : α} {P Q : α → Prop}
    (hx : ∀ v, P v ↔ x = v ∧ v ≠ nf) (hy : ∀ v, Q v ↔ y = v ∧ v ≠ nf) :
    x = y ↔ ∀ v, P v ↔ Q v := by
  constructor
  · rintro rfl v
    rw [hx, hy]
  · intro hall
    by_cases hxnf : x = nf
    · by_contra hne
      -- what the other finds, this one finds too
      have hynf : y ≠ nf := fun h => hne (hxnf.trans h.symm)
      exact hne ((hx y).1 ((hall y).2 ((hy y).2 ⟨rfl, hynf⟩))).1
    · exact ((hy x).1 ((hall x).1 ((hx x).2 ⟨rfl, hxnf⟩))).1.symm

/-! ## IPv4 -/

section Ip4

variable (up)

/-- The entry under the group of the packet has the local address of a tunnel to the packet's
source, with the entry `v`. -/
def GroupFinds4 (m : Vxlan4TunnelKey → Option VxlanDecapInfo) (p : Vxlan4Packet)
    (v : VxlanDecapInfo) : Prop :=
  up.ip4AddressIsMulticast p.dstAddress = true ∧
    ∃ mdi, m ⟨p.dstAddress.setWidth 64, p.tail⟩ = some mdi ∧
      m ⟨addrPair mdi.localIp p.srcAddress, p.tail⟩ = some v

/-- Where the search before the patch ends in `m`. -/
def OldEndsAt4 (m : Vxlan4TunnelKey → Option VxlanDecapInfo) (p : Vxlan4Packet)
    (v : VxlanDecapInfo) : Prop :=
  m p.key4 = some v ∨ (m p.key4 = none ∧ GroupFinds4 up m p v)

/-- The entry of the packet's key, else of its destination. -/
def firstEntry4 (m : Vxlan4TunnelKey → Option VxlanDecapInfo) (p : Vxlan4Packet) :
    Option VxlanDecapInfo :=
  (m p.key4).or (m (key4w (ip46OfIp4 p.dstAddress) p.tail))

variable (s)

/-- The entry that the patched search meets first, or what it finds of the group, is where the
search before the patch ends over the exact entries. -/
def SearchesAgree4 (p : Vxlan4Packet) : Prop :=
  match firstEntry4 s.vxlan4TunnelByKey p with
  | some v => OldEndsAt4 up (exactEntries4 up s) p v
  | none => ∀ v, GroupFinds4 up s.vxlan4TunnelByKey p v ↔ OldEndsAt4 up (exactEntries4 up s) p v

/-- The searches agree; and where there is no decap-any tunnel, an entry of the destination that
is met first is the one that the group search finds. -/
def EntriesAgree4 (p : Vxlan4Packet) : Prop :=
  ((∀ i t, s.tunnels.elt i = some t → t.decapAny = false) →
    s.vxlan4TunnelByKey p.key4 = none →
    ∀ v, s.vxlan4TunnelByKey (key4w (ip46OfIp4 p.dstAddress) p.tail) = some v →
      GroupFinds4 up s.vxlan4TunnelByKey p v) ∧
  SearchesAgree4 up s p

variable {up} {s}

/-- An entry is not what a lookup returns where it finds none. -/
theorem EntriesValid.ne_notFound (h : EntriesValid s) {k : Vxlan4TunnelKey} {v : VxlanDecapInfo}
    (hv : s.vxlan4TunnelByKey k = some v) : v ≠ decapNotFound := by
  rintro rfl
  exact (h.entry k _ hv).2 rfl

/-- What the multicast part finds. -/
theorem EntriesValid.groupFinds4_iff (h : EntriesValid s) {p : Vxlan4Packet}
    {v : VxlanDecapInfo} (cache : LastTunnelCache4) (stats : BitVec 32) :
    GroupFinds4 up s.vxlan4TunnelByKey p v ↔
      (vxlan4TryMulticast up s cache p stats).1 = v ∧ v ≠ decapNotFound := by
  constructor
  · rintro ⟨hm, mdi, hg, hv⟩
    exact ⟨(vxlan4TryMulticast_eq_iff (h.entry _ v hv).2 cache stats).2 ⟨hm, mdi, hg, hv⟩,
      h.ne_notFound hv⟩
  · rintro ⟨heq, hne⟩
    unfold vxlan4TryMulticast at heq
    unfold GroupFinds4
    cases hm : up.ip4AddressIsMulticast p.dstAddress with
    | false =>
      rw [hm] at heq
      exact absurd heq.symm hne
    | true =>
      rw [hm] at heq
      cases hg : s.vxlan4TunnelByKey ⟨p.dstAddress.setWidth 64, p.tail⟩ with
      | none =>
        rw [hg] at heq
        exact absurd heq.symm hne
      | some mdi =>
        rw [hg] at heq
        cases hdi : s.vxlan4TunnelByKey ⟨addrPair mdi.localIp p.srcAddress, p.tail⟩ with
        | none =>
          simp only [Bool.not_true, Bool.false_eq_true, if_false, hdi] at heq
          exact absurd heq.symm hne
        | some di =>
          simp only [Bool.not_true, Bool.false_eq_true, if_false, hdi] at heq
          exact ⟨rfl, mdi, rfl, by rw [hdi, heq]⟩

/-- What the lookup before the patch finds. -/
theorem EntriesValid.oldEndsAt4_iff (h : EntriesValid s) {cache : LastTunnelCache4}
    {p : Vxlan4Packet} {v : VxlanDecapInfo} (stats : BitVec 32) (hf : p.flags = vxlanFlagsI)
    (htail : p.tail ≠ emptyTail) (hcache : Coherent4 s.vxlan4TunnelByKey cache) :
    OldEndsAt4 up s.vxlan4TunnelByKey p v ↔
      (tuntermAclVxlan4FindTunnel up s cache p stats).1 = v ∧ v ≠ decapNotFound := by
  unfold OldEndsAt4 tuntermAclVxlan4FindTunnel
  rw [vxlan4TryExact_fst hcache hf htail]
  cases hk : s.vxlan4TunnelByKey p.key4 with
  | some u =>
    rw [Option.getD_some]
    constructor
    · rintro (heq | ⟨hnone, -⟩)
      · obtain rfl := Option.some.inj heq
        exact ⟨rfl, h.ne_notFound hk⟩
      · cases hnone
    · rintro ⟨rfl, -⟩
      exact Or.inl rfl
  | none =>
    rw [Option.getD_none, ← h.groupFinds4_iff cache stats]
    simp

/-- What the patched lookup returns. -/
theorem vxlan4FindTunnel_fst {cache : LastTunnelCache4} {p : Vxlan4Packet} (stats : BitVec 32)
    (hf : p.flags = vxlanFlagsI) (htail : p.tail ≠ emptyTail)
    (hcache : Coherent4 s.vxlan4TunnelByKey cache) :
    (vxlan4FindTunnel up s cache p stats).1
      = (firstEntry4 s.vxlan4TunnelByKey p).getD (vxlan4TryMulticast up s cache p stats).1 := by
  unfold vxlan4FindTunnel firstEntry4
  rw [vxlan4TryExact_fst hcache hf htail, dstKey4_eq_key4w]
  cases s.vxlan4TunnelByKey p.key4 with
  | some u => rfl
  | none =>
    cases s.vxlan4TunnelByKey (key4w (ip46OfIp4 p.dstAddress) p.tail) with
    | some v => rfl
    | none => rfl

/-- The first entry is one of the map. -/
theorem EntriesValid.firstEntry4_ne_notFound (h : EntriesValid s) {p : Vxlan4Packet}
    {v : VxlanDecapInfo} (hv : firstEntry4 s.vxlan4TunnelByKey p = some v) :
    v ≠ decapNotFound := by
  unfold firstEntry4 at hv
  cases hk : s.vxlan4TunnelByKey p.key4 with
  | some u =>
    rw [hk, Option.some_or] at hv
    obtain rfl := Option.some.inj hv
    exact h.ne_notFound hk
  | none =>
    rw [hk, Option.none_or] at hv
    exact h.ne_notFound hv

/-- Over one map the lookups differ where the destination's entry is met first, and is not what
the group search finds. -/
theorem EntriesValid.lookups4_eq_iff (h : EntriesValid s) {cache : LastTunnelCache4}
    {p : Vxlan4Packet} (stats : BitVec 32) (hf : p.flags = vxlanFlagsI)
    (htail : p.tail ≠ emptyTail) (hcache : Coherent4 s.vxlan4TunnelByKey cache) :
    (vxlan4FindTunnel up s cache p stats).1 = (tuntermAclVxlan4FindTunnel up s cache p stats).1 ↔
      (s.vxlan4TunnelByKey p.key4 = none →
        ∀ v, s.vxlan4TunnelByKey (key4w (ip46OfIp4 p.dstAddress) p.tail) = some v →
          GroupFinds4 up s.vxlan4TunnelByKey p v) := by
  have hold : ∀ v, OldEndsAt4 up s.vxlan4TunnelByKey p v ↔
      (tuntermAclVxlan4FindTunnel up s cache p stats).1 = v ∧ v ≠ decapNotFound :=
    fun v => h.oldEndsAt4_iff stats hf htail hcache
  rw [vxlan4FindTunnel_fst stats hf htail hcache]
  unfold firstEntry4
  cases hk : s.vxlan4TunnelByKey p.key4 with
  | some u =>
    simp only [Option.some_or, Option.getD_some, reduceCtorEq, false_implies, iff_true]
    exact ((hold u).1 (Or.inl hk)).1.symm
  | none =>
    -- there the search before the patch ends where the group search does
    have hgroup : ∀ v, OldEndsAt4 up s.vxlan4TunnelByKey p v ↔
        GroupFinds4 up s.vxlan4TunnelByKey p v := by
      intro v
      simp [OldEndsAt4, hk]
    cases hw : s.vxlan4TunnelByKey (key4w (ip46OfIp4 p.dstAddress) p.tail) with
    | none =>
      simp only [Option.none_or, Option.getD_none, reduceCtorEq, false_implies, implies_true,
        iff_true]
      rw [eq_iff_of_finds (fun v => h.groupFinds4_iff cache stats) hold]
      exact fun v => (hgroup v).symm
    | some v =>
      simp only [Option.none_or, Option.getD_some, Option.some.injEq, true_implies, forall_eq']
      rw [← hgroup, hold]
      exact ⟨fun heq => ⟨heq.symm, h.ne_notFound hw⟩, fun heq => heq.1.symm⟩

/-- Under the key tail of an empty cache there is nothing, and both lookups return the same. -/
theorem EntriesValid.lookups4_emptyTail (h : EntriesValid s) (h' : EntriesValid (s.exactOnly up))
    {cache : LastTunnelCache4} {p : Vxlan4Packet} (stats : BitVec 32)
    (htail : p.tail = emptyTail) :
    EntriesAgree4 up s p ∧ Conservative4 up s cache p stats := by
  have hnone : ∀ a, s.vxlan4TunnelByKey ⟨a, p.tail⟩ = none := by
    intro a
    cases hv : s.vxlan4TunnelByKey ⟨a, p.tail⟩ with
    | none => rfl
    | some v => exact absurd htail (h.entry _ v hv).1
  have hnone' : ∀ a, exactEntries4 up s ⟨a, p.tail⟩ = none := by
    intro a
    cases hv : exactEntries4 up s ⟨a, p.tail⟩ with
    | none => rfl
    | some v => exact absurd htail (h'.entry _ v hv).1
  have hex : (s.exactOnly up).vxlan4TunnelByKey = exactEntries4 up s := rfl
  have hw : s.vxlan4TunnelByKey (key4w (ip46OfIp4 p.dstAddress) p.tail) = none := hnone _
  constructor
  · refine ⟨?_, ?_⟩
    · intro _ _ v hv
      rw [hw] at hv
      cases hv
    · simp [SearchesAgree4, firstEntry4, OldEndsAt4, GroupFinds4, Vxlan4Packet.key4, hnone,
        hnone', hw]
  · refine ⟨fun _ => ?_, fun hne => absurd ?_ hne⟩
    · simp [vxlan4FindTunnel, tuntermAclVxlan4FindTunnel, hnone]
    · simp [vxlan4FindTunnel, tuntermAclVxlan4FindTunnel, vxlan4TryExact, vxlan4TryMulticast,
        Vxlan4Packet.key4, hex, hnone, hnone']

/-- **The IPv4 lookups compared**, in every reachable state. -/
theorem EntriesValid.conservative4_iff (h : EntriesValid s) {cache : LastTunnelCache4}
    {p : Vxlan4Packet} (stats : BitVec 32) (hcache : Coherent4 s.vxlan4TunnelByKey cache)
    (hcache' : Coherent4 (exactEntries4 up s) cache) :
    Conservative4 up s cache p stats ↔
      p.flags ≠ vxlanFlagsI ∨ DecapAnyFor4 s p ∨ EntriesAgree4 up s p := by
  have h' : EntriesValid (s.exactOnly up) := h.exactOnly
  by_cases hf : p.flags = vxlanFlagsI
  · by_cases hfor : DecapAnyFor4 s p
    · -- there is a decap-any tunnel, and the packet is for it
      refine iff_of_true ⟨fun hnone => ?_, fun _ => hfor⟩ (Or.inr (Or.inl hfor))
      obtain ⟨i, t, ht, hany, -⟩ := hfor
      rw [hnone i t ht] at hany
      cases hany
    · by_cases htail : p.tail = emptyTail
      · obtain ⟨hagree, hcons⟩ : EntriesAgree4 up s p ∧ Conservative4 up s cache p stats :=
          h.lookups4_emptyTail h' stats htail
        exact iff_of_true hcons (Or.inr (Or.inr hagree))
      · -- the patched lookup over the maps, and the one before the patch over the exact entries
        have hexact : (vxlan4FindTunnel up s cache p stats).1
              = (tuntermAclVxlan4FindTunnel up (s.exactOnly up) cache p stats).1 ↔
            SearchesAgree4 up s p := by
          have hold : ∀ v, OldEndsAt4 up (exactEntries4 up s) p v ↔ _ := fun v =>
            h'.oldEndsAt4_iff stats hf htail hcache'
          rw [vxlan4FindTunnel_fst stats hf htail hcache, SearchesAgree4]
          cases hfirst : firstEntry4 s.vxlan4TunnelByKey p with
          | some v =>
            simp only [Option.getD_some]
            rw [hold]
            exact ⟨fun heq => ⟨heq.symm, h.firstEntry4_ne_notFound hfirst⟩, fun heq => heq.1.symm⟩
          | none =>
            simp only [Option.getD_none]
            exact eq_iff_of_finds (fun v => h.groupFinds4_iff cache stats) hold
        unfold Conservative4 EntriesAgree4
        rw [h.lookups4_eq_iff stats hf htail hcache, ← hexact]
        simp only [ne_eq, hf, not_true_eq_false, false_or, hfor, imp_false, not_not]
  · simp [Conservative4, vxlan4FindTunnel, tuntermAclVxlan4FindTunnel, vxlan4TryExact, hf]

end Ip4

/-! ## IPv6 -/

section Ip6

variable (up) (s)

/-- Where the search before the patch ends: at the tunnel of the source's entry, if its local
address is the destination or the destination is a group with an entry. -/
def OldEndsAt6 (p : Vxlan6Packet) (v : VxlanDecapInfo) : Prop :=
  ∃ i t, s.vxlan6TunnelByKey p.key6 = some i ∧ s.poolEltAtIndex i = some t ∧ t.info = v ∧
    (p.dstAddress = t.addrs.src ∨
      (up.ip6AddressIsMulticast p.dstAddress = true ∧ ∃ j, s.vxlan6TunnelByKey p.dstKey6 = some j))

/-- Where the patched search ends, at the tunnel of the destination's entry if there is one but
none of the source, the search before the patch ends over the exact entries. -/
def SearchesAgree6 (p : Vxlan6Packet) : Prop :=
  match s.vxlan6TunnelByKey p.key6, s.vxlan6TunnelByKey p.dstKey6 with
  | none, some j => ∀ t, s.poolEltAtIndex j = some t → OldEndsAt6 up (s.exactOnly up) p t.info
  | _, _ => ∀ v, OldEndsAt6 up s p v ↔ OldEndsAt6 up (s.exactOnly up) p v

/-- The searches agree; and where there is no decap-any tunnel, none ends at an entry of the
destination alone. -/
def EntriesAgree6 (p : Vxlan6Packet) : Prop :=
  ((∀ i t, s.tunnels.elt i = some t → t.decapAny = false) →
    s.vxlan6TunnelByKey p.key6 = none → s.vxlan6TunnelByKey p.dstKey6 = none) ∧
  SearchesAgree6 up s p

variable {up} {s}

/-- What is in a slot is not what a lookup returns where it finds none. -/
theorem EntriesValid.info_ne_notFound (h : EntriesValid s) {i : ℕ} {t : VxlanTunnel}
    (ht : s.poolEltAtIndex i = some t) : t.info ≠ decapNotFound := by
  intro heq
  exact h.slot i t ht (congrArg VxlanDecapInfo.swIfIndex heq)

/-- With an entry of the source, the search ends at its tunnel or nowhere. -/
theorem oldEndsAt6_of_entry {p : Vxlan6Packet} {v : VxlanDecapInfo} {i : ℕ} {t : VxlanTunnel}
    (hk : s.vxlan6TunnelByKey p.key6 = some i) (ht : s.poolEltAtIndex i = some t) :
    OldEndsAt6 up s p v ↔ t.info = v ∧ (p.dstAddress = t.addrs.src ∨
      (up.ip6AddressIsMulticast p.dstAddress = true ∧
        ∃ j, s.vxlan6TunnelByKey p.dstKey6 = some j)) := by
  constructor
  · rintro ⟨j, u, hj, hu, hv, hends⟩
    obtain rfl := Option.some.inj (hk.symm.trans hj)
    obtain rfl := Option.some.inj (ht.symm.trans hu)
    exact ⟨hv, hends⟩
  · rintro ⟨hv, hends⟩
    exact ⟨i, t, hk, ht, hv, hends⟩

/-- The tunnel of an entry is returned if the search ends there. -/
theorem EntriesValid.validate6_fst (h : EntriesValid s) {cache : LastTunnelCache6}
    {p : Vxlan6Packet} (stats : BitVec 32) {t : VxlanTunnel}
    (ht : s.poolEltAtIndex cache.value = some t)
    (hends : p.dstAddress = t.addrs.src ∨ (up.ip6AddressIsMulticast p.dstAddress = true ∧
      ∃ j, s.vxlan6TunnelByKey p.dstKey6 = some j)) :
    (vxlan6Validate up s cache p stats).map Prod.fst = some t.info := by
  unfold vxlan6Validate
  rw [ht]
  dsimp only
  rcases hends with hdst | ⟨hm, j, hj⟩
  · rw [if_pos hdst]
    rfl
  · obtain ⟨-, u, hu⟩ := h.entry6 _ j hj
    by_cases hdst : p.dstAddress = t.addrs.src
    · rw [if_pos hdst]
      rfl
    · rw [if_neg hdst]
      simp [hm, hj, hu]

/-- It is not returned if the search does not end there. -/
theorem validate6_fst_notFound {cache : LastTunnelCache6} {p : Vxlan6Packet} (stats : BitVec 32)
    {t : VxlanTunnel} (ht : s.poolEltAtIndex cache.value = some t)
    (hends : ¬ (p.dstAddress = t.addrs.src ∨ (up.ip6AddressIsMulticast p.dstAddress = true ∧
      ∃ j, s.vxlan6TunnelByKey p.dstKey6 = some j))) :
    (vxlan6Validate up s cache p stats).map Prod.fst = some decapNotFound := by
  rw [not_or] at hends
  unfold vxlan6Validate
  rw [ht]
  dsimp only
  rw [if_neg hends.1]
  cases hm : up.ip6AddressIsMulticast p.dstAddress with
  | false => simp
  | true =>
    cases hj : s.vxlan6TunnelByKey p.dstKey6 with
    | none => simp
    | some j => exact absurd ⟨hm, j, hj⟩ hends.2

variable (up) in
/-- What the lookup before the patch finds. -/
theorem EntriesValid.oldEndsAt6_iff (h : EntriesValid s) {cache : LastTunnelCache6}
    {p : Vxlan6Packet} (stats : BitVec 32) (hf : p.flags = vxlanFlagsI)
    (htail : p.tail ≠ emptyTail) (hcache : Coherent6 s.vxlan6TunnelByKey cache) :
    ∃ x, (tuntermAclVxlan6FindTunnel up s cache p stats).map Prod.fst = some x ∧
      ∀ v, OldEndsAt6 up s p v ↔ x = v ∧ v ≠ decapNotFound := by
  unfold tuntermAclVxlan6FindTunnel
  rw [vxlan6TryExact_fst hcache hf htail]
  cases hk : s.vxlan6TunnelByKey p.key6 with
  | none =>
    refine ⟨decapNotFound, rfl, fun v => ?_⟩
    constructor
    · rintro ⟨i, t, hi, -⟩
      rw [hk] at hi
      cases hi
    · rintro ⟨rfl, hne⟩
      exact absurd rfl hne
  | some i =>
    obtain ⟨-, t, ht⟩ := h.entry6 _ i hk
    by_cases hends : p.dstAddress = t.addrs.src ∨
        (up.ip6AddressIsMulticast p.dstAddress = true ∧
          ∃ j, s.vxlan6TunnelByKey p.dstKey6 = some j)
    · refine ⟨t.info, h.validate6_fst stats ht hends, fun v => ?_⟩
      rw [oldEndsAt6_of_entry hk ht]
      constructor
      · rintro ⟨rfl, -⟩
        exact ⟨rfl, h.info_ne_notFound ht⟩
      · rintro ⟨rfl, -⟩
        exact ⟨rfl, hends⟩
    · refine ⟨decapNotFound, validate6_fst_notFound stats ht hends, fun v => ?_⟩
      rw [oldEndsAt6_of_entry hk ht]
      constructor
      · rintro ⟨-, hyes⟩
        exact absurd hyes hends
      · rintro ⟨rfl, hno⟩
        exact absurd rfl hno

/-- The patched lookup is the one before the patch, but that it goes on to the destination's
entry where there is none of the source. -/
theorem vxlan6FindTunnel_fst {cache : LastTunnelCache6} {p : Vxlan6Packet} (stats : BitVec 32)
    (hf : p.flags = vxlanFlagsI) (htail : p.tail ≠ emptyTail)
    (hcache : Coherent6 s.vxlan6TunnelByKey cache)
    (hfirst : s.vxlan6TunnelByKey p.key6 ≠ none ∨ s.vxlan6TunnelByKey p.dstKey6 = none) :
    (vxlan6FindTunnel up s cache p stats).map Prod.fst
      = (tuntermAclVxlan6FindTunnel up s cache p stats).map Prod.fst := by
  unfold vxlan6FindTunnel tuntermAclVxlan6FindTunnel
  rw [vxlan6TryExact_fst hcache hf htail, vxlan6TryExact_fst hcache hf htail]
  cases hk : s.vxlan6TunnelByKey p.key6 with
  | some i => rfl
  | none =>
    rcases hfirst with hne | hnone
    · exact absurd hk hne
    · rw [hnone]

/-- There it returns the tunnel of that entry. -/
theorem vxlan6FindTunnel_dst {cache : LastTunnelCache6} {p : Vxlan6Packet} (stats : BitVec 32)
    (hf : p.flags = vxlanFlagsI) (htail : p.tail ≠ emptyTail)
    (hcache : Coherent6 s.vxlan6TunnelByKey cache) (hk : s.vxlan6TunnelByKey p.key6 = none)
    {j : ℕ} (hj : s.vxlan6TunnelByKey p.dstKey6 = some j) {t : VxlanTunnel}
    (ht : s.poolEltAtIndex j = some t) :
    (vxlan6FindTunnel up s cache p stats).map Prod.fst = some t.info := by
  unfold vxlan6FindTunnel
  rw [vxlan6TryExact_fst hcache hf htail]
  simp only [hk, hj, ht, Option.map_some]

/-- Under the key tail of an empty cache there is nothing, and both lookups return the same. -/
theorem EntriesValid.lookups6_emptyTail (h : EntriesValid s) (h' : EntriesValid (s.exactOnly up))
    {cache : LastTunnelCache6} {p : Vxlan6Packet} (stats : BitVec 32)
    (htail : p.tail = emptyTail) :
    EntriesAgree6 up s p ∧ Conservative6 up s cache p stats := by
  have hnone : ∀ a b, s.vxlan6TunnelByKey ⟨a, b, p.tail⟩ = none := by
    intro a b
    cases hv : s.vxlan6TunnelByKey ⟨a, b, p.tail⟩ with
    | none => rfl
    | some v => exact absurd htail (h.entry6 _ v hv).1
  have hnone' : ∀ a b, exactEntries6 s ⟨a, b, p.tail⟩ = none := by
    intro a b
    cases hv : exactEntries6 s ⟨a, b, p.tail⟩ with
    | none => rfl
    | some v => exact absurd htail (h'.entry6 _ v hv).1
  have hex : (s.exactOnly up).vxlan6TunnelByKey = exactEntries6 s := rfl
  have hpool : (s.exactOnly up).poolEltAtIndex = s.poolEltAtIndex := rfl
  constructor
  · refine ⟨fun _ _ => hnone _ _, ?_⟩
    simp [SearchesAgree6, OldEndsAt6, Vxlan6Packet.key6, Vxlan6Packet.dstKey6, hex, hnone, hnone']
  · refine ⟨fun _ => ?_, fun hne => absurd ?_ hne⟩
    · simp [vxlan6FindTunnel, tuntermAclVxlan6FindTunnel, Vxlan6Packet.dstKey6, hnone]
    · simp [vxlan6FindTunnel, tuntermAclVxlan6FindTunnel, vxlan6TryExact, vxlan6Validate,
        Vxlan6Packet.key6, Vxlan6Packet.dstKey6, hex, hpool, hnone, hnone']

/-- **The IPv6 lookups compared**, in every reachable state. -/
theorem EntriesValid.conservative6_iff (h : EntriesValid s) {cache : LastTunnelCache6}
    {p : Vxlan6Packet} (stats : BitVec 32) (hcache : Coherent6 s.vxlan6TunnelByKey cache)
    (hcache' : Coherent6 (exactEntries6 s) cache) :
    Conservative6 up s cache p stats ↔
      p.flags ≠ vxlanFlagsI ∨ DecapAnyFor6 s p ∨ EntriesAgree6 up s p := by
  have h' : EntriesValid (s.exactOnly up) := h.exactOnly
  by_cases hf : p.flags = vxlanFlagsI
  · by_cases hfor : DecapAnyFor6 s p
    · refine iff_of_true ⟨fun hnone => ?_, fun _ => hfor⟩ (Or.inr (Or.inl hfor))
      obtain ⟨i, t, ht, hany, -⟩ := hfor
      rw [hnone i t ht] at hany
      cases hany
    · by_cases htail : p.tail = emptyTail
      · obtain ⟨hagree, hcons⟩ : EntriesAgree6 up s p ∧ Conservative6 up s cache p stats :=
          h.lookups6_emptyTail h' stats htail
        exact iff_of_true hcons (Or.inr (Or.inr hagree))
      · obtain ⟨x, hx, hends⟩ := h.oldEndsAt6_iff up stats hf htail hcache
        obtain ⟨y, hy, hends'⟩ := h'.oldEndsAt6_iff up stats hf htail hcache'
        unfold Conservative6 EntriesAgree6
        simp only [ne_eq, hf, not_true_eq_false, false_or, hfor, imp_false, not_not, hx, hy]
        rw [SearchesAgree6]
        -- the lookups go the same way unless only the destination has an entry
        have hsame : (vxlan6FindTunnel up s cache p stats).map Prod.fst = some x →
            (((∀ i t, s.tunnels.elt i = some t → t.decapAny = false) →
                (vxlan6FindTunnel up s cache p stats).map Prod.fst = some x) ∧
              (vxlan6FindTunnel up s cache p stats).map Prod.fst = some y ↔
            ∀ v, OldEndsAt6 up s p v ↔ OldEndsAt6 up (s.exactOnly up) p v) := by
          intro heq
          rw [heq, ← eq_iff_of_finds hends hends']
          exact ⟨fun hxy => Option.some.inj hxy.2, fun hxy => ⟨fun _ => rfl, congrArg some hxy⟩⟩
        cases hk : s.vxlan6TunnelByKey p.key6 with
        | some i =>
          have heq : (vxlan6FindTunnel up s cache p stats).map Prod.fst = some x :=
            (vxlan6FindTunnel_fst stats hf htail hcache (Or.inl (by rw [hk]; simp))).trans hx
          simp only [reduceCtorEq, false_implies, implies_true, true_and]
          exact hsame heq
        | none =>
          cases hj : s.vxlan6TunnelByKey p.dstKey6 with
          | none =>
            have heq : (vxlan6FindTunnel up s cache p stats).map Prod.fst = some x :=
              (vxlan6FindTunnel_fst stats hf htail hcache (Or.inr hj)).trans hx
            simp only [implies_true, true_and]
            exact hsame heq
          | some j =>
            obtain ⟨-, t, ht⟩ := h.entry6 _ j hj
            have hne := h.info_ne_notFound ht
            rw [vxlan6FindTunnel_dst stats hf htail hcache hk hj ht]
            -- the search before the patch finds nothing in this map
            have hxt : t.info ≠ x := by
              rintro rfl
              obtain ⟨i, u, hi, -⟩ := (hends t.info).2 ⟨rfl, hne⟩
              rw [hk] at hi
              cases hi
            simp only [Option.some.injEq, hxt, imp_false, reduceCtorEq, not_true_eq_false]
            refine and_congr_right fun _ => ?_
            constructor
            · rintro rfl u hu
              obtain rfl := Option.some.inj (ht.symm.trans hu)
              exact (hends' _).2 ⟨rfl, hne⟩
            · intro hall
              exact ((hends' _).1 (hall t ht)).1.symm
  · simp [Conservative6, vxlan6FindTunnel, tuntermAclVxlan6FindTunnel, vxlan6TryExact, hf]

end Ip6

end Vxlan
