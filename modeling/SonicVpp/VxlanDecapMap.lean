/-
# The decap maps over whole histories of requests

The two decap maps are instances of `WildcardStore`: each tunnel of a family owns
an exact entry and, if it is a decap-any tunnel with a unicast remote, stands
behind the source-independent entry of its local address, port, fib and VNI.

`Consistent` ties the maps to the tunnel pool.  Every request preserves it as
long as it is `SlipFree`: where it takes effect, no exact key meets a
source-independent key of the same family, and a deletion does not pick its survivor
from the other family (the survivor loops compare addresses without comparing
families).  `sourceIndependent` results follow for every state of every such history,
for fib indexes that fit the 16 bits they have in a key.
-/
import SonicVpp.RunInvariant
import SonicVpp.WildcardStore
import SonicVpp.VxlanTunnel

open WildcardStore RunInvariant

namespace Vxlan

/-! ## What the map operations do -/

section Entries

variable {κ ν : Type} [DecidableEq κ]

/-- Where its insertions succeed, an add registers the new owner, -/
theorem addEntries_ok (m : κ → Option ν) (o : Owner κ ν) {exactFails wildFails : Bool}
    (he : exactFails = false) (hw : o.wild.isSome = true → wildFails = false) :
    addEntries m o.key o.wild o.val exactFails wildFails = (register m o, false) := by
  obtain ⟨key, wild, val⟩ := o
  subst he
  cases wild with
  | none => rfl
  | some w =>
    obtain rfl := hw rfl
    rfl

/-- and where one fails, it leaves the map alone. -/
theorem addEntries_failed (m : κ → Option ν) (o : Owner κ ν) {exactFails wildFails : Bool}
    (hnew : m o.key = none)
    (hfails : ¬ (exactFails = false ∧ (o.wild.isSome = true → wildFails = false))) :
    addEntries m o.key o.wild o.val exactFails wildFails = (m, true) := by
  obtain ⟨key, wild, val⟩ := o
  have hback : Function.update (Function.update m key (some val)) key none = m := by
    rw [Function.update_idem, ← hnew, Function.update_eq_self]
  cases exactFails with
  | true => rfl
  | false =>
    cases wild with
    | none => exact absurd ⟨rfl, fun h => Bool.noConfusion h⟩ hfails
    | some w =>
      cases wildFails with
      | false => exact absurd ⟨rfl, fun _ => rfl⟩ hfails
      | true =>
        -- the exact entry is in, and rolled back
        simp only [addEntries, bihashAdd, bihashDel, if_true, Bool.false_eq_true, if_false]
        rw [hback]

/-- A delete unregisters the owner, handing its wildcard key to the survivor
unless the re-pointing insertion fails. -/
theorem delEntries_eq (m : κ → Option ν) (o : Owner κ ν) (survivor : Option ν) (fails : Bool) :
    delEntries m o.key o.wild survivor fails
      = unregister m o (if fails then none else survivor) := by
  obtain ⟨key, wild, val⟩ := o
  cases wild with
  | none => rfl
  | some w =>
    cases survivor with
    | none => cases fails <;> rfl
    | some v => cases fails <;> rfl

end Entries

variable (up : VppIp)

/-! ## Tunnels as owners -/

/-- The source-independent IPv4 key a tunnel stands behind, if any. -/
def VxlanTunnel.wild4 (t : VxlanTunnel) : Option Vxlan4TunnelKey :=
  if t.ownsWildcard up then some (key4w t.addrs.src t.tail) else none

/-- The source-independent IPv6 key a tunnel stands behind, if any. -/
def VxlanTunnel.wild6 (t : VxlanTunnel) : Option Vxlan6TunnelKey :=
  if t.ownsWildcard up then some (key6w t.addrs.src t.tail) else none

/-- An IPv4 tunnel as an owner of entries of the IPv4 map. -/
def VxlanTunnel.owner4 (t : VxlanTunnel) : Owner Vxlan4TunnelKey VxlanDecapInfo :=
  ⟨t.key4 up, t.wild4 up, t.decapInfo up⟩

/-- An IPv6 tunnel as an owner of entries of the IPv6 map. -/
def VxlanTunnel.owner6 (t : VxlanTunnel) : Owner Vxlan6TunnelKey ℕ :=
  ⟨t.key6, t.wild6 up, t.devInstance⟩

/-- The live IPv4 tunnels, by pool index. -/
def VxlanMain.live4 (s : VxlanMain) (i : ℕ) : Option (Owner Vxlan4TunnelKey VxlanDecapInfo) :=
  (s.tunnels.elt i).bind fun t => if t.addrs.isIp6 then none else some (t.owner4 up)

/-- The live IPv6 tunnels, by pool index. -/
def VxlanMain.live6 (s : VxlanMain) (i : ℕ) : Option (Owner Vxlan6TunnelKey ℕ) :=
  (s.tunnels.elt i).bind fun t => if t.addrs.isIp6 then some (t.owner6 up) else none

theorem live4_eq_some {s : VxlanMain} {i : ℕ} {o : Owner Vxlan4TunnelKey VxlanDecapInfo} :
    s.live4 up i = some o ↔
      ∃ t, s.tunnels.elt i = some t ∧ t.addrs.isIp6 = false ∧ t.owner4 up = o := by
  unfold VxlanMain.live4
  rw [Option.bind_eq_some_iff]
  constructor
  · rintro ⟨t, ht, h⟩
    cases h6 : t.addrs.isIp6 with
    | true => rw [h6] at h; cases h
    | false =>
      rw [h6] at h
      exact ⟨t, ht, h6, Option.some.inj h⟩
  · rintro ⟨t, ht, h6, rfl⟩
    exact ⟨t, ht, by rw [h6]; rfl⟩

theorem live6_eq_some {s : VxlanMain} {i : ℕ} {o : Owner Vxlan6TunnelKey ℕ} :
    s.live6 up i = some o ↔
      ∃ t, s.tunnels.elt i = some t ∧ t.addrs.isIp6 = true ∧ t.owner6 up = o := by
  unfold VxlanMain.live6
  rw [Option.bind_eq_some_iff]
  constructor
  · rintro ⟨t, ht, h⟩
    cases h6 : t.addrs.isIp6 with
    | false => rw [h6] at h; cases h
    | true =>
      rw [h6] at h
      exact ⟨t, ht, h6, Option.some.inj h⟩
  · rintro ⟨t, ht, h6, rfl⟩
    exact ⟨t, ht, by rw [h6]; rfl⟩

/-! ## What a request can do -/

/-- The state after a successful add of `t`. -/
def VxlanMain.addTunnel (s : VxlanMain) (t : VxlanTunnel) : VxlanMain where
  vxlan4TunnelByKey :=
    if t.addrs.isIp6 then s.vxlan4TunnelByKey else register s.vxlan4TunnelByKey (t.owner4 up)
  vxlan6TunnelByKey :=
    if t.addrs.isIp6 then register s.vxlan6TunnelByKey (t.owner6 up) else s.vxlan6TunnelByKey
  tunnels := s.tunnels.fill t.devInstance t
  freed := s.freed
  tunnelIndexBySwIfIndex :=
    Function.update s.tunnelIndexBySwIfIndex t.swIfIndex (some t.devInstance)
  l3Promiscuous :=
    if t.decapAny then l2BviSetL3Promiscuous s.l3Promiscuous t.swIfIndex true
    else s.l3Promiscuous

/-- The add is of an unused key, and none of its checks and insertions fails. -/
def AddSucceeds (s : VxlanMain) (a : VxlanArgs) (e : VxlanEnv) : Prop :=
  tunnelFound up s a = false ∧ e.checksPass = true ∧ e.exactAddFails = false ∧
    ((a.tunnel e).ownsWildcard up = true → e.wildAddFails = false)

/-- What a request that fails leaves in the memory of free slots: the tunnel of an add
whose insertion failed, or nothing new. -/
def LeftInMemory (s : VxlanMain) (r : VxlanRequest) (freed : ℕ → Option VxlanTunnel) : Prop :=
  freed = s.freed ∨ (r.1.isAdd = true ∧
    freed = Function.update s.freed r.2.devInstance (some (r.1.tunnel r.2)))

/-- The exact key of an accepted add is unused. -/
theorem exact_unused_of_not_found {s : VxlanMain} {a : VxlanArgs}
    (h : tunnelFound up s a = false) :
    if a.addrs.isIp6 then s.vxlan6TunnelByKey a.key6 = none
    else s.vxlan4TunnelByKey (a.key4 up) = none := by
  unfold tunnelFound at h
  cases h6 : a.addrs.isIp6 with
  | true =>
    rw [h6] at h
    simpa using h
  | false =>
    rw [h6] at h
    simpa using h

/-- The insertions of an add, as those of the owner that it makes. -/
theorem addEntries_owner6 (s : VxlanMain) (a : VxlanArgs) (e : VxlanEnv) :
    addEntries s.vxlan6TunnelByKey a.key6
        (if (a.tunnel e).ownsWildcard up
          then some (key6w (a.tunnel e).addrs.src a.tail) else none)
        (a.tunnel e).devInstance e.exactAddFails e.wildAddFails
      = addEntries s.vxlan6TunnelByKey ((a.tunnel e).owner6 up).key
        ((a.tunnel e).owner6 up).wild ((a.tunnel e).owner6 up).val
        e.exactAddFails e.wildAddFails := rfl

theorem addEntries_owner4 (s : VxlanMain) (a : VxlanArgs) (e : VxlanEnv) :
    addEntries s.vxlan4TunnelByKey (a.key4 up)
        (if (a.tunnel e).ownsWildcard up
          then some (key4w (a.tunnel e).addrs.src a.tail) else none)
        ((a.tunnel e).decapInfo up) e.exactAddFails e.wildAddFails
      = addEntries s.vxlan4TunnelByKey ((a.tunnel e).owner4 up).key
        ((a.tunnel e).owner4 up).wild ((a.tunnel e).owner4 up).val
        e.exactAddFails e.wildAddFails := rfl

/-- A tunnel has a wildcard key if it owns a source-independent entry. -/
theorem wild4_isSome (t : VxlanTunnel) : (t.wild4 up).isSome = t.ownsWildcard up := by
  unfold VxlanTunnel.wild4
  cases t.ownsWildcard up <;> rfl

theorem wild6_isSome (t : VxlanTunnel) : (t.wild6 up).isSome = t.ownsWildcard up := by
  unfold VxlanTunnel.wild6
  cases t.ownsWildcard up <;> rfl

/-- An add that succeeds adds its tunnel. -/
theorem vxlanAddTunnel_ok {s : VxlanMain} {a : VxlanArgs} {e : VxlanEnv}
    (h : AddSucceeds up s a e) :
    vxlanAddTunnel up s a e = (s.addTunnel up (a.tunnel e), .ok) := by
  obtain ⟨hfound, hcheck, he, hw⟩ := h
  unfold vxlanAddTunnel
  rw [hfound, hcheck]
  cases h6 : a.addrs.isIp6 with
  | true =>
    have h6' : (a.tunnel e).addrs.isIp6 = true := h6
    have hmap := addEntries_ok s.vxlan6TunnelByKey ((a.tunnel e).owner6 up) he
      (fun h => hw ((wild6_isSome up _).symm.trans h))
    simp only [Bool.false_eq_true, if_false, Bool.not_true, if_true, addEntries_owner6, hmap,
      VxlanMain.addTunnel, h6']
  | false =>
    have h6' : (a.tunnel e).addrs.isIp6 = false := h6
    have hmap := addEntries_ok s.vxlan4TunnelByKey ((a.tunnel e).owner4 up) he
      (fun h => hw ((wild4_isSome up _).symm.trans h))
    simp only [Bool.false_eq_true, if_false, Bool.not_true, addEntries_owner4, hmap,
      VxlanMain.addTunnel, h6']

/-- An add one of whose insertions fails leaves its tunnel in a free slot. -/
theorem vxlanAddTunnel_insertFails {s : VxlanMain} {a : VxlanArgs} {e : VxlanEnv}
    (hfound : tunnelFound up s a = false) (hcheck : e.checksPass = true)
    (hfails : ¬ (e.exactAddFails = false ∧
      ((a.tunnel e).ownsWildcard up = true → e.wildAddFails = false))) :
    vxlanAddTunnel up s a e =
      ({ s with freed := Function.update s.freed (a.tunnel e).devInstance (some (a.tunnel e)) },
        .invalidRegistration) := by
  have hnew := exact_unused_of_not_found up hfound
  unfold vxlanAddTunnel
  rw [hfound, hcheck]
  cases h6 : a.addrs.isIp6 with
  | true =>
    rw [h6] at hnew
    have hmap := addEntries_failed s.vxlan6TunnelByKey ((a.tunnel e).owner6 up) hnew
      (fun hok => hfails ⟨hok.1, fun how => hok.2 ((wild6_isSome up _).trans how)⟩)
    simp only [Bool.false_eq_true, if_false, Bool.not_true, if_true, addEntries_owner6, hmap]
  | false =>
    rw [h6] at hnew
    have hmap := addEntries_failed s.vxlan4TunnelByKey ((a.tunnel e).owner4 up) hnew
      (fun hok => hfails ⟨hok.1, fun how => hok.2 ((wild4_isSome up _).trans how)⟩)
    simp only [Bool.false_eq_true, if_false, Bool.not_true, if_true, addEntries_owner4, hmap]

/-- An add that fails changes the memory of a free slot at most. -/
theorem vxlanAddTunnel_failed {s : VxlanMain} {a : VxlanArgs} {e : VxlanEnv}
    (hadd : a.isAdd = true) (h : ¬ AddSucceeds up s a e) :
    (∃ freed, LeftInMemory s (a, e) freed ∧
      (vxlanAddTunnel up s a e).1 = { s with freed := freed }) ∧
    (vxlanAddTunnel up s a e).2 ≠ .ok := by
  cases hfound : tunnelFound up s a with
  | true =>
    unfold vxlanAddTunnel
    rw [hfound]
    exact ⟨⟨s.freed, Or.inl rfl, rfl⟩, VxlanRv.noConfusion⟩
  | false =>
    cases hcheck : e.checksPass with
    | false =>
      unfold vxlanAddTunnel
      rw [hfound, hcheck]
      exact ⟨⟨s.freed, Or.inl rfl, rfl⟩, VxlanRv.noConfusion⟩
    | true =>
      -- the tunnel has been built in its slot, and an insertion fails
      rw [vxlanAddTunnel_insertFails up hfound hcheck
        (fun hok => h ⟨hfound, hcheck, hok.1, hok.2⟩)]
      exact ⟨⟨_, Or.inr ⟨hadd, rfl⟩, rfl⟩, VxlanRv.noConfusion⟩

/-- **What a request can do**: nothing but leave something in the memory of a free slot,
add its tunnel, or run the delete half on what is in the slot its exact key names. -/
theorem vxlanStep_cases (s : VxlanMain) (r : VxlanRequest) :
    (∃ freed, LeftInMemory s r freed ∧ vxlanStep up s r = { s with freed := freed }) ∨
      (r.1.isAdd = true ∧ AddSucceeds up s r.1 r.2 ∧
        vxlanStep up s r = s.addTunnel up (r.1.tunnel r.2)) ∨
      (r.1.isAdd = false ∧ ∃ i t, deleteIndex up s r.1 = some (some i) ∧
        s.poolEltAtIndex i = some t ∧
        vxlanStep up s r = vxlanRemoveTunnel up s r.1 r.2 i t) := by
  unfold vxlanStep vnetVxlanAddDelTunnel
  cases hadd : r.1.isAdd with
  | true =>
    rw [if_pos rfl]
    by_cases hok : AddSucceeds up s r.1 r.2
    · exact Or.inr (Or.inl ⟨rfl, hok, congrArg Prod.fst (vxlanAddTunnel_ok up hok)⟩)
    · exact Or.inl (vxlanAddTunnel_failed up hadd hok).1
  | false =>
    rw [if_neg Bool.false_ne_true]
    have hsame : LeftInMemory s r s.freed := Or.inl rfl
    unfold vxlanDelTunnel
    rcases hdel : deleteIndex up s r.1 with _ | _ | i
    · exact Or.inl ⟨_, hsame, rfl⟩
    · exact Or.inl ⟨_, hsame, rfl⟩
    · cases helt : s.poolEltAtIndex i with
      | none => exact Or.inl ⟨_, hsame, by simp [helt]⟩
      | some t => exact Or.inr (Or.inr ⟨rfl, i, t, rfl, helt, by simp [helt]⟩)

/-! ## Histories without slips -/

/-- The source-independent key of `q` is the exact key of `p`, in one family. -/
def WildcardHits (q p : VxlanParams) : Prop :=
  q.addrs.isIp6 = p.addrs.isIp6 ∧
    (if p.addrs.isIp6 then key6w q.addrs.src q.tail = p.key6
      else key4w q.addrs.src q.tail = p.key4 up)

/-- The survivor test of the family of `t`. -/
def SurvivorMatch (i : ℕ) (t : VxlanTunnel) (j : ℕ) (st : VxlanTunnel) : Prop :=
  if t.addrs.isIp6 then survivor6Match up i t j st = true else survivor4Match up i t j st = true

/-- In the pool, no tunnel of the other family passes the survivor test of the
tunnel `t` in slot `i` before one of its own family does. -/
def SurvivorOwnFamily (s : VxlanMain) (i : ℕ) (t : VxlanTunnel) : Prop :=
  ∀ j st, s.tunnels.elt j = some st → SurvivorMatch up i t j st →
    st.addrs.isIp6 ≠ t.addrs.isIp6 →
    ∃ j' < j, ∃ st', s.tunnels.elt j' = some st' ∧ SurvivorMatch up i t j' st' ∧
      st'.addrs.isIp6 = t.addrs.isIp6

/-- The request is not refused: an add that succeeds, or a delete that finds an entry. -/
def TakesEffect (s : VxlanMain) (r : VxlanRequest) : Prop :=
  if r.1.isAdd then AddSucceeds up s r.1 r.2 else tunnelFound up s r.1 = true

/-- A request that runs into none of the overlaps of the patch.  Unless it is refused,
the exact key it searches is no live tunnel's source-independent key, and the
source-independent key it registers is nobody's exact key; and a source-independent
entry that it re-points is not given to a tunnel of the other family. -/
structure SlipFree (s : VxlanMain) (r : VxlanRequest) : Prop where
  search : TakesEffect up s r → ∀ i t, s.tunnels.elt i = some t → t.ownsWildcard up = true →
    ¬ WildcardHits up t.toVxlanParams r.1.toVxlanParams
  wildcard : r.1.isAdd = true → TakesEffect up s r →
    (r.1.tunnel r.2).ownsWildcard up = true →
      ¬ WildcardHits up r.1.toVxlanParams r.1.toVxlanParams ∧
      ∀ i t, s.tunnels.elt i = some t →
        ¬ WildcardHits up r.1.toVxlanParams t.toVxlanParams
  survivor : r.1.isAdd = false → r.2.repointFails = false →
    ∀ i t, deleteIndex up s r.1 = some (some i) → s.tunnels.elt i = some t →
      t.ownsWildcard up = true → SurvivorOwnFamily up s i t

theorem takesEffect_add {s : VxlanMain} {r : VxlanRequest} (hadd : r.1.isAdd = true)
    (h : AddSucceeds up s r.1 r.2) : TakesEffect up s r := by
  rw [TakesEffect, hadd, if_pos rfl]
  exact h

/-- A delete that reaches the pool has found an entry. -/
theorem takesEffect_delete {s : VxlanMain} {r : VxlanRequest} (hdel : r.1.isAdd = false) {i : ℕ}
    (h : deleteIndex up s r.1 = some (some i)) : TakesEffect up s r := by
  rw [TakesEffect, hdel, if_neg Bool.false_ne_true]
  unfold deleteIndex at h
  unfold tunnelFound
  cases h6 : r.1.addrs.isIp6 with
  | true =>
    rw [h6, if_pos rfl, Option.map_eq_some_iff] at h
    obtain ⟨v, hv, -⟩ := h
    simp [hv]
  | false =>
    rw [h6, if_neg Bool.false_ne_true, Option.map_eq_some_iff] at h
    obtain ⟨v, hv, -⟩ := h
    simp [hv]

/-- An add that is refused is slip-free. -/
theorem slipFree_of_refused {s : VxlanMain} {r : VxlanRequest} (hadd : r.1.isAdd = true)
    (h : ¬ AddSucceeds up s r.1 r.2) : SlipFree up s r := by
  have hno : ¬ TakesEffect up s r := by
    rw [TakesEffect, hadd, if_pos rfl]
    exact h
  refine ⟨fun heff => absurd heff hno, fun _ heff => absurd heff hno, fun hdel => ?_⟩
  rw [hadd] at hdel
  cases hdel

/-- The maps, the pool and the interface index agree. -/
structure Consistent (s : VxlanMain) : Prop where
  dev : ∀ i t, s.tunnels.elt i = some t → t.devInstance = i
  swIf : ∀ i t, s.tunnels.elt i = some t → s.tunnelIndexBySwIfIndex t.swIfIndex = some i
  swValid : ∀ i t, s.tunnels.elt i = some t → t.swIfIndex ≠ BitVec.allOnes 32
  map4 : Represents s.vxlan4TunnelByKey (s.live4 up)
  map6 : Represents s.vxlan6TunnelByKey (s.live6 up)

theorem consistent_init : Consistent up VxlanMain.init where
  dev := by intro i t h; simp [VxlanMain.init] at h
  swIf := by intro i t h; simp [VxlanMain.init] at h
  swValid := by intro i t h; simp [VxlanMain.init] at h
  map4 := represents_empty
  map6 := represents_empty

/-- What is left in free slots does not matter to the maps. -/
theorem Consistent.withFreed {s : VxlanMain} (h : Consistent up s)
    (freed : ℕ → Option VxlanTunnel) : Consistent up { s with freed := freed } :=
  ⟨h.dev, h.swIf, h.swValid, h.map4, h.map6⟩

/-! ### Adding -/

theorem live4_addTunnel {s : VxlanMain} {t : VxlanTunnel} (hv : s.tunnels.Vacant t.devInstance) :
    (s.addTunnel up t).live4 up =
      if t.addrs.isIp6 then s.live4 up
      else Function.update (s.live4 up) t.devInstance (some (t.owner4 up)) := by
  funext j
  cases h6 : t.addrs.isIp6 with
  | true =>
    show VxlanMain.live4 up _ j = VxlanMain.live4 up s j
    simp only [VxlanMain.live4, VxlanMain.addTunnel, SlotPool.elt_fill hv]
    by_cases hj : j = t.devInstance
    · simp [hj, h6, hv.1]
    · simp [hj]
  | false =>
    show VxlanMain.live4 up _ j = Function.update (VxlanMain.live4 up s) _ _ j
    rw [Function.update_apply]
    simp only [VxlanMain.live4, VxlanMain.addTunnel, SlotPool.elt_fill hv]
    by_cases hj : j = t.devInstance
    · simp [hj, h6]
    · simp [hj]

theorem live6_addTunnel {s : VxlanMain} {t : VxlanTunnel} (hv : s.tunnels.Vacant t.devInstance) :
    (s.addTunnel up t).live6 up =
      if t.addrs.isIp6 then Function.update (s.live6 up) t.devInstance (some (t.owner6 up))
      else s.live6 up := by
  funext j
  cases h6 : t.addrs.isIp6 with
  | false =>
    show VxlanMain.live6 up _ j = VxlanMain.live6 up s j
    simp only [VxlanMain.live6, VxlanMain.addTunnel, SlotPool.elt_fill hv]
    by_cases hj : j = t.devInstance
    · simp [hj, h6, hv.1]
    · simp [hj]
  | true =>
    show VxlanMain.live6 up _ j = Function.update (VxlanMain.live6 up s) _ _ j
    rw [Function.update_apply]
    simp only [VxlanMain.live6, VxlanMain.addTunnel, SlotPool.elt_fill hv]
    by_cases hj : j = t.devInstance
    · simp [hj, h6]
    · simp [hj]

/-- A wildcard key of an owner, in terms of the tunnel. -/
theorem wild4_eq_some {t : VxlanTunnel} {k : Vxlan4TunnelKey} :
    t.wild4 up = some k ↔ t.ownsWildcard up = true ∧ key4w t.addrs.src t.tail = k := by
  unfold VxlanTunnel.wild4
  cases t.ownsWildcard up <;> simp

theorem wild6_eq_some {t : VxlanTunnel} {k : Vxlan6TunnelKey} :
    t.wild6 up = some k ↔ t.ownsWildcard up = true ∧ key6w t.addrs.src t.tail = k := by
  unfold VxlanTunnel.wild6
  cases t.ownsWildcard up <;> simp

/-- The pool after an add: the new tunnel in its slot, the others as before. -/
theorem elt_addTunnel {s : VxlanMain} {t : VxlanTunnel} (hv : s.tunnels.Vacant t.devInstance)
    {j : ℕ} {u : VxlanTunnel} (hj : (s.addTunnel up t).tunnels.elt j = some u) :
    (j = t.devInstance ∧ u = t) ∨ s.tunnels.elt j = some u := by
  simp only [VxlanMain.addTunnel, SlotPool.elt_fill hv] at hj
  by_cases hjd : j = t.devInstance
  · rw [if_pos hjd] at hj
    exact Or.inl ⟨hjd, (Option.some.inj hj).symm⟩
  · rw [if_neg hjd] at hj
    exact Or.inr hj

/-- Adding a tunnel whose exact key is unused, and whose keys cross over to no
other kind, keeps the maps consistent. -/
theorem Consistent.addTunnel {s : VxlanMain} (h : Consistent up s) {t : VxlanTunnel}
    (hv : s.tunnels.Vacant t.devInstance)
    (hsw : ∀ i u, s.tunnels.elt i = some u → u.swIfIndex ≠ t.swIfIndex)
    (hvalid : t.swIfIndex ≠ BitVec.allOnes 32)
    (hnew : if t.addrs.isIp6 then s.vxlan6TunnelByKey t.key6 = none
      else s.vxlan4TunnelByKey (t.key4 up) = none)
    (hsearch : ∀ i u, s.tunnels.elt i = some u → u.ownsWildcard up = true →
      ¬ WildcardHits up u.toVxlanParams t.toVxlanParams)
    (hwild : t.ownsWildcard up = true → ¬ WildcardHits up t.toVxlanParams t.toVxlanParams ∧
      ∀ i u, s.tunnels.elt i = some u → ¬ WildcardHits up t.toVxlanParams u.toVxlanParams) :
    Consistent up (s.addTunnel up t) := by
  refine ⟨?_, ?_, ?_, ?_, ?_⟩
  · intro j u hj
    rcases elt_addTunnel up hv hj with ⟨rfl, rfl⟩ | hj
    · rfl
    · exact h.dev j u hj
  · intro j u hj
    simp only [VxlanMain.addTunnel]
    rcases elt_addTunnel up hv hj with ⟨rfl, rfl⟩ | hj
    · rw [Function.update_self]
    · rw [Function.update_of_ne (hsw j u hj), h.swIf j u hj]
  · intro j u hj
    rcases elt_addTunnel up hv hj with ⟨rfl, rfl⟩ | hj
    · exact hvalid
    · exact h.swValid j u hj
  · rw [live4_addTunnel up hv]
    simp only [VxlanMain.addTunnel]
    cases h6 : t.addrs.isIp6 with
    | true => exact h.map4
    | false =>
      rw [h6] at hnew
      -- its keys meet neither each other nor those of the live tunnels
      refine h.map4.register ?_ hnew ?_ ?_ ?_
      · simp [VxlanMain.live4, hv.1]
      · intro hw
        obtain ⟨how, hkey⟩ := (wild4_eq_some up).1 hw
        exact (hwild how).1 ⟨rfl, by rw [h6]; exact hkey⟩
      · intro j o' hj hw
        obtain ⟨u, hu, hu6, rfl⟩ := (live4_eq_some up).1 hj
        obtain ⟨how, hkey⟩ := (wild4_eq_some up).1 hw
        exact (hwild how).2 j u hu ⟨h6.trans hu6.symm, by rw [hu6]; exact hkey⟩
      · intro j o' hj hw
        obtain ⟨u, hu, hu6, rfl⟩ := (live4_eq_some up).1 hj
        obtain ⟨how, hkey⟩ := (wild4_eq_some up).1 hw
        exact hsearch j u hu how ⟨hu6.trans h6.symm, by rw [h6]; exact hkey⟩
  · rw [live6_addTunnel up hv]
    simp only [VxlanMain.addTunnel]
    cases h6 : t.addrs.isIp6 with
    | false => exact h.map6
    | true =>
      rw [h6] at hnew
      -- the same for IPv6
      refine h.map6.register ?_ hnew ?_ ?_ ?_
      · simp [VxlanMain.live6, hv.1]
      · intro hw
        obtain ⟨how, hkey⟩ := (wild6_eq_some up).1 hw
        exact (hwild how).1 ⟨rfl, by rw [h6]; exact hkey⟩
      · intro j o' hj hw
        obtain ⟨u, hu, hu6, rfl⟩ := (live6_eq_some up).1 hj
        obtain ⟨how, hkey⟩ := (wild6_eq_some up).1 hw
        exact (hwild how).2 j u hu ⟨h6.trans hu6.symm, by rw [hu6]; exact hkey⟩
      · intro j o' hj hw
        obtain ⟨u, hu, hu6, rfl⟩ := (live6_eq_some up).1 hj
        obtain ⟨how, hkey⟩ := (wild6_eq_some up).1 hw
        exact hsearch j u hu how ⟨hu6.trans h6.symm, by rw [h6]; exact hkey⟩

/-! ### Deleting -/

/-- A slip-free delete request finds the live tunnel whose exact key it names. -/
theorem deleteIndex_spec {s : VxlanMain} (h : Consistent up s) {a : VxlanArgs} {i : ℕ}
    {t : VxlanTunnel}
    (hclear : ∀ j u, s.tunnels.elt j = some u → u.ownsWildcard up = true →
      ¬ WildcardHits up u.toVxlanParams a.toVxlanParams)
    (hdel : deleteIndex up s a = some (some i)) (ht : s.poolEltAtIndex i = some t) :
    s.tunnels.elt i = some t ∧ t.addrs.isIp6 = a.addrs.isIp6 ∧
      if a.addrs.isIp6 then t.key6 = a.key6 else t.key4 up = a.key4 up := by
  unfold deleteIndex at hdel
  cases h6 : a.addrs.isIp6 with
  | true =>
    rw [h6, if_pos rfl, Option.map_eq_some_iff] at hdel
    obtain ⟨v, hv, hvi⟩ := hdel
    obtain ⟨j, o, hj, hkey, hval⟩ := h.map6.exact_of_not_wild hv (by
      intro j o hj hw
      obtain ⟨u, hu, hu6, rfl⟩ := (live6_eq_some up).1 hj
      obtain ⟨how, hkey⟩ := (wild6_eq_some up).1 hw
      exact hclear j u hu how ⟨hu6.trans h6.symm, by rw [h6]; exact hkey⟩)
    obtain ⟨u, hu, hu6, rfl⟩ := (live6_eq_some up).1 hj
    -- the stored index is the slot of the owner
    obtain rfl : j = i := by
      rw [← Option.some.inj hvi, ← hval]
      exact (h.dev j u hu).symm
    rw [poolEltAtIndex_live hu] at ht
    cases ht
    exact ⟨hu, hu6, hkey⟩
  | false =>
    rw [h6, if_neg Bool.false_ne_true, Option.map_eq_some_iff] at hdel
    obtain ⟨v, hv, hvi⟩ := hdel
    obtain ⟨j, o, hj, hkey, hval⟩ := h.map4.exact_of_not_wild hv (by
      intro j o hj hw
      obtain ⟨u, hu, hu6, rfl⟩ := (live4_eq_some up).1 hj
      obtain ⟨how, hkey⟩ := (wild4_eq_some up).1 hw
      exact hclear j u hu how ⟨hu6.trans h6.symm, by rw [h6]; exact hkey⟩)
    obtain ⟨u, hu, hu6, rfl⟩ := (live4_eq_some up).1 hj
    -- the stored interface index leads back to the owner
    have hsw : v.swIfIndex = u.swIfIndex := by
      rw [← hval]
      simp only [VxlanTunnel.owner4, VxlanTunnel.decapInfo]
      split <;> rfl
    obtain rfl : j = i := by
      rw [hsw, h.swIf j u hu] at hvi
      exact Option.some.inj hvi
    rw [poolEltAtIndex_live hu] at ht
    cases ht
    exact ⟨hu, hu6, hkey⟩

/-- The value a delete leaves for the survivor, as the family of `t` has it. -/
def survivorInfo (st : ℕ × VxlanTunnel) : VxlanDecapInfo :=
  VxlanDecapInfo.ofAction st.2.swIfIndex (st.2.decapNextIndex.setWidth 16) 0

/-- The IPv4 map after the removal of an IPv4 tunnel. -/
theorem removeTunnel_map4 {s : VxlanMain} {a : VxlanArgs} {e : VxlanEnv} {i : ℕ}
    {t : VxlanTunnel} (h6 : a.addrs.isIp6 = false) (hkey : t.key4 up = a.key4 up) :
    (vxlanRemoveTunnel up s a e i t).vxlan4TunnelByKey =
      unregister s.vxlan4TunnelByKey (t.owner4 up)
        (if e.repointFails then none
          else (s.tunnels.first (survivor4Match up i t)).map survivorInfo) := by
  have htail : t.tail = a.tail := congrArg Vxlan4TunnelKey.key1 hkey
  rw [← delEntries_eq]
  simp only [vxlanRemoveTunnel, h6, Bool.false_eq_true, if_false, VxlanTunnel.owner4,
    VxlanTunnel.wild4, hkey, htail]
  rfl

/-- The IPv6 map after the removal of an IPv6 tunnel. -/
theorem removeTunnel_map6 {s : VxlanMain} {a : VxlanArgs} {e : VxlanEnv} {i : ℕ}
    {t : VxlanTunnel} (h6 : a.addrs.isIp6 = true) (hkey : t.key6 = a.key6) :
    (vxlanRemoveTunnel up s a e i t).vxlan6TunnelByKey =
      unregister s.vxlan6TunnelByKey (t.owner6 up)
        (if e.repointFails then none
          else (s.tunnels.first (survivor6Match up i t)).map fun st => st.1) := by
  have htail : t.tail = a.tail := congrArg Vxlan6TunnelKey.key2 hkey
  rw [← delEntries_eq]
  simp only [vxlanRemoveTunnel, h6, if_true, VxlanTunnel.owner6, VxlanTunnel.wild6, hkey, htail]

/-- The parts of a removal that do not depend on the family. -/
theorem removeTunnel_tunnels (s : VxlanMain) (a : VxlanArgs) (e : VxlanEnv) (i : ℕ)
    (t : VxlanTunnel) :
    (vxlanRemoveTunnel up s a e i t).tunnels = s.tunnels.clear i ∧
      (vxlanRemoveTunnel up s a e i t).tunnelIndexBySwIfIndex
        = Function.update s.tunnelIndexBySwIfIndex t.swIfIndex none := by
  unfold vxlanRemoveTunnel
  cases a.addrs.isIp6 <;> exact ⟨rfl, rfl⟩

theorem live4_removeTunnel (s : VxlanMain) (a : VxlanArgs) (e : VxlanEnv) (i : ℕ)
    (t : VxlanTunnel) :
    (vxlanRemoveTunnel up s a e i t).live4 up = Function.update (s.live4 up) i none := by
  funext j
  rw [Function.update_apply]
  simp only [VxlanMain.live4, (removeTunnel_tunnels up s a e i t).1, SlotPool.elt_clear]
  by_cases hj : j = i
  · simp [hj]
  · simp [hj]

theorem live6_removeTunnel (s : VxlanMain) (a : VxlanArgs) (e : VxlanEnv) (i : ℕ)
    (t : VxlanTunnel) :
    (vxlanRemoveTunnel up s a e i t).live6 up = Function.update (s.live6 up) i none := by
  funext j
  rw [Function.update_apply]
  simp only [VxlanMain.live6, (removeTunnel_tunnels up s a e i t).1, SlotPool.elt_clear]
  by_cases hj : j = i
  · simp [hj]
  · simp [hj]

/-- A removal leaves the map of the other family alone. -/
theorem removeTunnel_other {s : VxlanMain} {a : VxlanArgs} {e : VxlanEnv} {i : ℕ}
    {t : VxlanTunnel} :
    (a.addrs.isIp6 = true →
      (vxlanRemoveTunnel up s a e i t).vxlan4TunnelByKey = s.vxlan4TunnelByKey) ∧
    (a.addrs.isIp6 = false →
      (vxlanRemoveTunnel up s a e i t).vxlan6TunnelByKey = s.vxlan6TunnelByKey) := by
  constructor
  · intro h
    simp only [vxlanRemoveTunnel, h, if_true]
  · intro h
    simp only [vxlanRemoveTunnel, h, Bool.false_eq_true, if_false]

/-! ### The survivor search -/

theorem survivorMatch_iff {i j : ℕ} {t st : VxlanTunnel} :
    survivorMatch up i t j st = true ↔
      j ≠ i ∧ st.ownsWildcard up = true ∧ st.vni = t.vni ∧
        st.encapFibIndex = t.encapFibIndex ∧ st.srcPort = t.srcPort := by
  simp [survivorMatch, and_assoc]

/-- A tunnel that passes the shared part of the test has the same key tail. -/
theorem tail_of_survivorMatch {i j : ℕ} {t st : VxlanTunnel}
    (h : survivorMatch up i t j st = true) : st.tail = t.tail := by
  obtain ⟨-, -, hvni, hfib, hport⟩ := (survivorMatch_iff up).1 h
  simp only [VxlanParams.tail, hvni, hfib, hport]

/-- A tunnel that passes the IPv4 test stands behind the same source-independent key. -/
theorem wild4_of_survivor4Match {i j : ℕ} {t st : VxlanTunnel} (ht : t.ownsWildcard up = true)
    (h : survivor4Match up i t j st = true) : j ≠ i ∧ st.wild4 up = t.wild4 up := by
  have hwt : t.wild4 up = some (key4w t.addrs.src t.tail) := (wild4_eq_some up).2 ⟨ht, rfl⟩
  rw [survivor4Match, Bool.and_eq_true, decide_eq_true_iff] at h
  obtain ⟨hm, hsrc⟩ := h
  obtain ⟨hne, how, -⟩ := (survivorMatch_iff up).1 hm
  rw [hwt, wild4_eq_some]
  exact ⟨hne, how, by simp only [key4w, hsrc, tail_of_survivorMatch up hm]⟩

/-- Conversely, where the fib indexes fit in the key. -/
theorem survivor4Match_of_wild4 {i j : ℕ} {t st : VxlanTunnel} (ht : t.ownsWildcard up = true)
    (hfit : t.encapFibIndex.toNat < 2 ^ 16) (hfit' : st.encapFibIndex.toNat < 2 ^ 16)
    (hne : j ≠ i) (hwild : st.wild4 up = t.wild4 up) : survivor4Match up i t j st = true := by
  have hwt : t.wild4 up = some (key4w t.addrs.src t.tail) := (wild4_eq_some up).2 ⟨ht, rfl⟩
  rw [hwt, wild4_eq_some] at hwild
  obtain ⟨how, hkey⟩ := hwild
  obtain ⟨hport, hfib, hvni⟩ := tail_inj hfit' hfit (congrArg Vxlan4TunnelKey.key1 hkey)
  rw [survivor4Match, Bool.and_eq_true, decide_eq_true_iff]
  refine ⟨(survivorMatch_iff up).2 ⟨hne, how, hvni, hfib, hport⟩, ?_⟩
  have h0 := congrArg Vxlan4TunnelKey.key0 hkey
  rw [key4w_key0, key4w_key0] at h0
  exact (addrPair_inj h0).1

/-- A tunnel that passes the IPv6 test stands behind the same source-independent key. -/
theorem wild6_of_survivor6Match {i j : ℕ} {t st : VxlanTunnel} (ht : t.ownsWildcard up = true)
    (h : survivor6Match up i t j st = true) : j ≠ i ∧ st.wild6 up = t.wild6 up := by
  have hwt : t.wild6 up = some (key6w t.addrs.src t.tail) := (wild6_eq_some up).2 ⟨ht, rfl⟩
  rw [survivor6Match, Bool.and_eq_true, decide_eq_true_iff] at h
  obtain ⟨hm, hsrc⟩ := h
  obtain ⟨hne, how, -⟩ := (survivorMatch_iff up).1 hm
  rw [hwt, wild6_eq_some]
  exact ⟨hne, how, by simp only [key6w, hsrc, tail_of_survivorMatch up hm]⟩

/-- Conversely, where the fib indexes fit in the key. -/
theorem survivor6Match_of_wild6 {i j : ℕ} {t st : VxlanTunnel} (ht : t.ownsWildcard up = true)
    (hfit : t.encapFibIndex.toNat < 2 ^ 16) (hfit' : st.encapFibIndex.toNat < 2 ^ 16)
    (hne : j ≠ i) (hwild : st.wild6 up = t.wild6 up) : survivor6Match up i t j st = true := by
  have hwt : t.wild6 up = some (key6w t.addrs.src t.tail) := (wild6_eq_some up).2 ⟨ht, rfl⟩
  rw [hwt, wild6_eq_some] at hwild
  obtain ⟨how, hkey⟩ := hwild
  obtain ⟨hport, hfib, hvni⟩ := tail_inj hfit' hfit (congrArg Vxlan6TunnelKey.key2 hkey)
  rw [survivor6Match, Bool.and_eq_true, decide_eq_true_iff]
  refine ⟨(survivorMatch_iff up).2 ⟨hne, how, hvni, hfib, hport⟩, ?_⟩
  exact asU64_inj (congrArg Vxlan6TunnelKey.key0 hkey) (congrArg Vxlan6TunnelKey.key1 hkey)

/-- Under `SurvivorOwnFamily` the search of either family returns a tunnel of its
own family. -/
theorem first_own_family {s : VxlanMain} {i j : ℕ} {t st : VxlanTunnel}
    {q : ℕ → VxlanTunnel → Bool} (hq : ∀ j st, SurvivorMatch up i t j st ↔ q j st = true)
    (hown : SurvivorOwnFamily up s i t) (hfirst : s.tunnels.first q = some (j, st)) :
    st.addrs.isIp6 = t.addrs.isIp6 := by
  obtain ⟨helt, hqj, hbefore⟩ := SlotPool.first_eq_some hfirst
  by_contra hne
  obtain ⟨j', hj', st', helt', hm', -⟩ := hown j st helt ((hq j st).2 hqj) hne
  have := hbefore j' hj' st' helt'
  rw [(hq j' st').1 hm'] at this
  cases this

/-- The decap info of a tunnel with a unicast remote. -/
theorem decapInfo_of_ownsWildcard {j : ℕ} {t : VxlanTunnel} (h : t.ownsWildcard up = true) :
    t.decapInfo up = survivorInfo (j, t) := by
  have hu : up.ip46AddressIsMulticast t.addrs.dst = false := by
    simp only [VxlanTunnel.ownsWildcard, Bool.and_eq_true, Bool.not_eq_true'] at h
    exact h.2
  simp only [VxlanTunnel.decapInfo, hu, Bool.false_eq_true, if_false, survivorInfo]

/-- The IPv4 map after a removal: the entries of an IPv4 tunnel are gone or handed on. -/
theorem Consistent.removeTunnel_represents4 {s : VxlanMain} (h : Consistent up s) {a : VxlanArgs}
    {e : VxlanEnv} {i : ℕ} {t : VxlanTunnel} (ht : s.tunnels.elt i = some t)
    (hfam : t.addrs.isIp6 = a.addrs.isIp6)
    (hkey : a.addrs.isIp6 = false → t.key4 up = a.key4 up)
    (hown : e.repointFails = false → t.ownsWildcard up = true → SurvivorOwnFamily up s i t) :
    Represents (vxlanRemoveTunnel up s a e i t).vxlan4TunnelByKey
      ((vxlanRemoveTunnel up s a e i t).live4 up) := by
  rw [live4_removeTunnel]
  cases hfa : a.addrs.isIp6 with
  | true =>
    -- the slot held no IPv4 tunnel, so the IPv4 population is unchanged
    have hnone : s.live4 up i = none := by
      simp [VxlanMain.live4, ht, hfam, hfa]
    rw [(removeTunnel_other up).1 hfa, ← hnone, Function.update_eq_self]
    exact h.map4
  | false =>
    rw [removeTunnel_map4 up hfa (hkey hfa)]
    refine h.map4.unregister ((live4_eq_some up).2 ⟨t, ht, hfam.trans hfa, rfl⟩) ?_
    intro w v hw hv
    have how := ((wild4_eq_some up).1 hw).1
    cases hf : e.repointFails with
    | true => rw [hf] at hv; cases hv
    | false =>
      rw [hf, if_neg Bool.false_ne_true, Option.map_eq_some_iff] at hv
      obtain ⟨⟨j, st⟩, hfirst, rfl⟩ := hv
      -- the survivor found first is of the family of the tunnel that goes
      have hst6 := first_own_family up (q := survivor4Match up i t)
        (by intro j st; simp [SurvivorMatch, hfam, hfa]) (hown hf how) hfirst
      obtain ⟨hj, hm, -⟩ := SlotPool.first_eq_some hfirst
      obtain ⟨hne, hwild⟩ := wild4_of_survivor4Match up how hm
      have hstw : st.ownsWildcard up = true := ((wild4_eq_some up).1 (hwild.trans hw)).1
      refine ⟨j, st.owner4 up, hne, ?_, hwild.trans hw, decapInfo_of_ownsWildcard up hstw⟩
      exact (live4_eq_some up).2 ⟨st, hj, hst6.trans (hfam.trans hfa), rfl⟩

/-- The IPv6 map after a removal, likewise. -/
theorem Consistent.removeTunnel_represents6 {s : VxlanMain} (h : Consistent up s) {a : VxlanArgs}
    {e : VxlanEnv} {i : ℕ} {t : VxlanTunnel} (ht : s.tunnels.elt i = some t)
    (hfam : t.addrs.isIp6 = a.addrs.isIp6)
    (hkey : a.addrs.isIp6 = true → t.key6 = a.key6)
    (hown : e.repointFails = false → t.ownsWildcard up = true → SurvivorOwnFamily up s i t) :
    Represents (vxlanRemoveTunnel up s a e i t).vxlan6TunnelByKey
      ((vxlanRemoveTunnel up s a e i t).live6 up) := by
  rw [live6_removeTunnel]
  cases hfa : a.addrs.isIp6 with
  | false =>
    have hnone : s.live6 up i = none := by
      simp [VxlanMain.live6, ht, hfam, hfa]
    rw [(removeTunnel_other up).2 hfa, ← hnone, Function.update_eq_self]
    exact h.map6
  | true =>
    rw [removeTunnel_map6 up hfa (hkey hfa)]
    refine h.map6.unregister ((live6_eq_some up).2 ⟨t, ht, hfam.trans hfa, rfl⟩) ?_
    intro w v hw hv
    have how := ((wild6_eq_some up).1 hw).1
    cases hf : e.repointFails with
    | true => rw [hf] at hv; cases hv
    | false =>
      rw [hf, if_neg Bool.false_ne_true, Option.map_eq_some_iff] at hv
      obtain ⟨⟨j, st⟩, hfirst, rfl⟩ := hv
      have hst6 := first_own_family up (q := survivor6Match up i t)
        (by intro j st; simp [SurvivorMatch, hfam, hfa]) (hown hf how) hfirst
      obtain ⟨hj, hm, -⟩ := SlotPool.first_eq_some hfirst
      obtain ⟨hne, hwild⟩ := wild6_of_survivor6Match up how hm
      -- an IPv6 entry is the pool index, which a live tunnel carries
      refine ⟨j, st.owner6 up, hne, ?_, hwild.trans hw, h.dev j st hj⟩
      exact (live6_eq_some up).2 ⟨st, hj, hst6.trans (hfam.trans hfa), rfl⟩

/-- Removing the tunnel a slip-free request names keeps the maps consistent. -/
theorem Consistent.removeTunnel {s : VxlanMain} (h : Consistent up s) {a : VxlanArgs}
    {e : VxlanEnv} {i : ℕ} {t : VxlanTunnel} (ht : s.tunnels.elt i = some t)
    (hfam : t.addrs.isIp6 = a.addrs.isIp6)
    (hkey : if a.addrs.isIp6 then t.key6 = a.key6 else t.key4 up = a.key4 up)
    (hown : e.repointFails = false → t.ownsWildcard up = true → SurvivorOwnFamily up s i t) :
    Consistent up (vxlanRemoveTunnel up s a e i t) := by
  obtain ⟨htun, hidx⟩ := removeTunnel_tunnels up s a e i t
  have helt : ∀ j u, (vxlanRemoveTunnel up s a e i t).tunnels.elt j = some u →
      j ≠ i ∧ s.tunnels.elt j = some u := by
    intro j u hj
    rw [htun, SlotPool.elt_clear] at hj
    by_cases hji : j = i
    · rw [if_pos hji] at hj; cases hj
    · rw [if_neg hji] at hj
      exact ⟨hji, hj⟩
  refine ⟨?_, ?_, ?_, ?_, ?_⟩
  · intro j u hj
    exact h.dev j u (helt j u hj).2
  · intro j u hj
    obtain ⟨hji, hj⟩ := helt j u hj
    rw [hidx, Function.update_of_ne, h.swIf j u hj]
    intro hsw
    have := h.swIf j u hj
    rw [hsw, h.swIf i t ht] at this
    exact hji (Option.some.inj this).symm
  · intro j u hj
    exact h.swValid j u (helt j u hj).2
  · exact h.removeTunnel_represents4 up ht hfam (fun h6 => by simpa [h6] using hkey) hown
  · exact h.removeTunnel_represents6 up ht hfam (fun h6 => by simpa [h6] using hkey) hown

/-- **Every slip-free request keeps the maps consistent.** -/
theorem consistent_step {s : VxlanMain} (h : Consistent up s) {r : VxlanRequest}
    (hadm : Admissible s r) (hslip : SlipFree up s r) : Consistent up (vxlanStep up s r) := by
  rcases vxlanStep_cases up s r with ⟨freed, -, hs⟩ | ⟨hadd, hok, hs⟩ | ⟨hdel, i, t, hidx, ht, hs⟩
  · rw [hs]
    exact h.withFreed up freed
  · rw [hs]
    obtain ⟨hv, hvalid, hsw⟩ := hadm hadd
    have heff := takesEffect_add up hadd hok
    exact h.addTunnel up hv hsw hvalid (exact_unused_of_not_found up hok.1)
      (hslip.search heff) (hslip.wildcard hadd heff)
  · rw [hs]
    have hclear := hslip.search (takesEffect_delete up hdel hidx)
    obtain ⟨hlive, hfam, hkey⟩ := deleteIndex_spec up h hclear hidx ht
    exact h.removeTunnel up hlive hfam hkey fun hf => hslip.survivor hdel hf i t hidx hlive

/-! ## Source-independent entries -/

/-- A local address of either family. -/
inductive LocalAddr
  | ip4 (a : BitVec 32)
  | ip6 (a : BitVec 128)
  deriving DecidableEq, Repr

/-- A decap term: local address, UDP port, fib and VNI. -/
structure DecapTerm where
  addr : LocalAddr
  port : BitVec 16
  fibIndex : BitVec 32
  vni : BitVec 24
  deriving DecidableEq, Repr

/-- The key tail of a decap term. -/
def DecapTerm.tail (d : DecapTerm) : VxlanKeyTail := vxlanKeyTail d.port d.fibIndex (vniWord d.vni)

/-- The local address, port, fib and VNI of a tunnel. -/
def VxlanParams.term (p : VxlanParams) : DecapTerm where
  addr := match p.addrs with
    | .ip4 s _ => .ip4 s
    | .ip6 s _ => .ip6 s
  port := p.srcPort
  fibIndex := p.encapFibIndex
  vni := p.vni

/-- A live decap-any tunnel with a unicast remote that has exactly the term `d`. -/
def DecapAnyAt (s : VxlanMain) (d : DecapTerm) (i : ℕ) (t : VxlanTunnel) : Prop :=
  s.tunnels.elt i = some t ∧ t.ownsWildcard up = true ∧ t.term = d

/-- The map of the family of `d` has an entry under its source-independent key
that is not the exact entry of a live tunnel. -/
def HasSourceIndependent (s : VxlanMain) (d : DecapTerm) : Prop :=
  match d.addr with
  | .ip4 a =>
    (∃ v, s.vxlan4TunnelByKey (key4w (ip46OfIp4 a) d.tail) = some v) ∧
      ∀ i t, s.tunnels.elt i = some t → t.addrs.isIp6 = false →
        t.key4 up ≠ key4w (ip46OfIp4 a) d.tail
  | .ip6 a =>
    (∃ v, s.vxlan6TunnelByKey (key6w a d.tail) = some v) ∧
      ∀ i t, s.tunnels.elt i = some t → t.addrs.isIp6 = true → t.key6 ≠ key6w a d.tail

/-- The entry under the source-independent key of `d` carries the decap info
(IPv4) or the index (IPv6) of the tunnel `t` in slot `i`. -/
def EntryNames (s : VxlanMain) (d : DecapTerm) (i : ℕ) (t : VxlanTunnel) : Prop :=
  match d.addr with
  | .ip4 a => s.vxlan4TunnelByKey (key4w (ip46OfIp4 a) d.tail) =
      some (VxlanDecapInfo.ofAction t.swIfIndex (t.decapNextIndex.setWidth 16) 0)
  | .ip6 a => s.vxlan6TunnelByKey (key6w a d.tail) = some i

/-- Source-independent entries exist exactly for the terms of live decap-any
tunnels with a unicast remote, and name such a tunnel. -/
def SourceIndependentExact (s : VxlanMain) : Prop :=
  ∀ d, (HasSourceIndependent up s d ↔ ∃ i t, DecapAnyAt up s d i t) ∧
    (HasSourceIndependent up s d → ∃ i t, DecapAnyAt up s d i t ∧ EntryNames s d i t)

/-- The request deletes a tunnel of the term `d` while another one lives, and the
insertion that should re-point the shared entry fails. -/
def DropsEntry (s : VxlanMain) (r : VxlanRequest) (d : DecapTerm) : Prop :=
  r.1.isAdd = false ∧ r.2.repointFails = true ∧
    ∃ i t, deleteIndex up s r.1 = some (some i) ∧ DecapAnyAt up s d i t ∧
      ∃ j st, j ≠ i ∧ DecapAnyAt up s d j st

/-- Where the fib indexes fit, a term is known from the family and the key. -/
theorem term_ip4 {p : VxlanParams} {a : BitVec 32} {d : DecapTerm} (hd : d.addr = .ip4 a)
    (hfit : p.encapFibIndex.toNat < 2 ^ 16) (hfit' : d.fibIndex.toNat < 2 ^ 16) :
    p.term = d ↔ p.addrs.isIp6 = false ∧ key4w p.addrs.src p.tail = key4w (ip46OfIp4 a) d.tail := by
  obtain ⟨addr, port, fib, vni⟩ := d
  obtain rfl : addr = .ip4 a := hd
  constructor
  · intro h
    cases hp : p.addrs with
    | ip6 s e => simp [VxlanParams.term, hp] at h
    | ip4 s e =>
      simp only [VxlanParams.term, hp, DecapTerm.mk.injEq, LocalAddr.ip4.injEq] at h
      obtain ⟨rfl, hport, hfib, hvni⟩ := h
      exact ⟨rfl, by simp [VxlanParams.tail, DecapTerm.tail, TunnelAddrs.src, hport, hfib, hvni]⟩
  · rintro ⟨h6, hkey⟩
    have htail := congrArg Vxlan4TunnelKey.key1 hkey
    have h0 := congrArg Vxlan4TunnelKey.key0 hkey
    rw [key4w_key0, key4w_key0] at h0
    have hsrc := (addrPair_inj h0).1
    obtain ⟨hport, hfib, hvni⟩ := vxlanKeyTail_inj hfit hfit' htail
    cases hp : p.addrs with
    | ip6 s e => rw [hp] at h6; cases h6
    | ip4 s e =>
      rw [hp] at hsrc
      simp only [TunnelAddrs.src, ip46Ip4_ip46OfIp4] at hsrc
      simp [VxlanParams.term, hp, hsrc, hport, hfib, vniWord_inj hvni]

theorem term_ip6 {p : VxlanParams} {a : BitVec 128} {d : DecapTerm} (hd : d.addr = .ip6 a)
    (hfit : p.encapFibIndex.toNat < 2 ^ 16) (hfit' : d.fibIndex.toNat < 2 ^ 16) :
    p.term = d ↔ p.addrs.isIp6 = true ∧ key6w p.addrs.src p.tail = key6w a d.tail := by
  obtain ⟨addr, port, fib, vni⟩ := d
  obtain rfl : addr = .ip6 a := hd
  constructor
  · intro h
    cases hp : p.addrs with
    | ip4 s e => simp [VxlanParams.term, hp] at h
    | ip6 s e =>
      simp only [VxlanParams.term, hp, DecapTerm.mk.injEq, LocalAddr.ip6.injEq] at h
      obtain ⟨rfl, hport, hfib, hvni⟩ := h
      exact ⟨rfl, by simp [VxlanParams.tail, DecapTerm.tail, TunnelAddrs.src, hport, hfib, hvni]⟩
  · rintro ⟨h6, hkey⟩
    have htail := congrArg Vxlan6TunnelKey.key2 hkey
    have hsrc : p.addrs.src = a :=
      asU64_inj (congrArg Vxlan6TunnelKey.key0 hkey) (congrArg Vxlan6TunnelKey.key1 hkey)
    obtain ⟨hport, hfib, hvni⟩ := vxlanKeyTail_inj hfit hfit' htail
    cases hp : p.addrs with
    | ip4 s e => rw [hp] at h6; cases h6
    | ip6 s e =>
      rw [hp] at hsrc
      obtain rfl : s = a := hsrc
      simp [VxlanParams.term, hp, hport, hfib, vniWord_inj hvni]

/-- The source-independent entry of `d` is not missing. -/
def EntryComplete (s : VxlanMain) (d : DecapTerm) : Prop :=
  match d.addr with
  | .ip4 a => CompleteAt s.vxlan4TunnelByKey (s.live4 up) (key4w (ip46OfIp4 a) d.tail)
  | .ip6 a => CompleteAt s.vxlan6TunnelByKey (s.live6 up) (key6w a d.tail)

theorem entryComplete_ip4 {s : VxlanMain} {d : DecapTerm} {a : BitVec 32} (hd : d.addr = .ip4 a) :
    EntryComplete up s d ↔
      CompleteAt s.vxlan4TunnelByKey (s.live4 up) (key4w (ip46OfIp4 a) d.tail) := by
  simp only [EntryComplete, hd]

theorem entryComplete_ip6 {s : VxlanMain} {d : DecapTerm} {a : BitVec 128}
    (hd : d.addr = .ip6 a) :
    EntryComplete up s d ↔
      CompleteAt s.vxlan6TunnelByKey (s.live6 up) (key6w a d.tail) := by
  simp only [EntryComplete, hd]

/-- The fib indexes of the live tunnels fit the 16 bits they have in a key. -/
def FibsFit (s : VxlanMain) : Prop :=
  ∀ i t, s.tunnels.elt i = some t → t.encapFibIndex.toNat < 2 ^ 16

/-- The IPv4 owners behind the key of `d` are the tunnels of the term `d`. -/
theorem live4_wild_iff {s : VxlanMain} (hfits : FibsFit s) {d : DecapTerm} {a : BitVec 32}
    (hd : d.addr = .ip4 a) (hfit : d.fibIndex.toNat < 2 ^ 16) {i : ℕ}
    {o : Owner Vxlan4TunnelKey VxlanDecapInfo} :
    (s.live4 up i = some o ∧ o.wild = some (key4w (ip46OfIp4 a) d.tail)) ↔
      ∃ t, DecapAnyAt up s d i t ∧ t.owner4 up = o := by
  rw [live4_eq_some]
  constructor
  · rintro ⟨⟨t, ht, h6, rfl⟩, hw⟩
    obtain ⟨how, hkey⟩ := (wild4_eq_some up).1 hw
    exact ⟨t, ⟨ht, how, (term_ip4 hd (hfits i t ht) hfit).2 ⟨h6, hkey⟩⟩, rfl⟩
  · rintro ⟨t, ⟨ht, how, hterm⟩, rfl⟩
    obtain ⟨h6, hkey⟩ := (term_ip4 hd (hfits i t ht) hfit).1 hterm
    exact ⟨⟨t, ht, h6, rfl⟩, (wild4_eq_some up).2 ⟨how, hkey⟩⟩

/-- The IPv6 owners behind the key of `d` are the tunnels of the term `d`. -/
theorem live6_wild_iff {s : VxlanMain} (hfits : FibsFit s) {d : DecapTerm} {a : BitVec 128}
    (hd : d.addr = .ip6 a) (hfit : d.fibIndex.toNat < 2 ^ 16) {i : ℕ}
    {o : Owner Vxlan6TunnelKey ℕ} :
    (s.live6 up i = some o ∧ o.wild = some (key6w a d.tail)) ↔
      ∃ t, DecapAnyAt up s d i t ∧ t.owner6 up = o := by
  rw [live6_eq_some]
  constructor
  · rintro ⟨⟨t, ht, h6, rfl⟩, hw⟩
    obtain ⟨how, hkey⟩ := (wild6_eq_some up).1 hw
    exact ⟨t, ⟨ht, how, (term_ip6 hd (hfits i t ht) hfit).2 ⟨h6, hkey⟩⟩, rfl⟩
  · rintro ⟨t, ⟨ht, how, hterm⟩, rfl⟩
    obtain ⟨h6, hkey⟩ := (term_ip6 hd (hfits i t ht) hfit).1 hterm
    exact ⟨⟨t, ht, h6, rfl⟩, (wild6_eq_some up).2 ⟨how, hkey⟩⟩

/-- A removal that drops no needed IPv4 entry keeps it. -/
theorem completeAt4_removeTunnel {s : VxlanMain} (h : Consistent up s) (hfits : FibsFit s)
    {r : VxlanRequest} {i : ℕ} {t : VxlanTunnel} {d : DecapTerm} {a : BitVec 32}
    (hd : d.addr = .ip4 a) (hfit : d.fibIndex.toNat < 2 ^ 16)
    (hc : CompleteAt s.vxlan4TunnelByKey (s.live4 up) (key4w (ip46OfIp4 a) d.tail))
    (hadd : r.1.isAdd = false) (hidx : deleteIndex up s r.1 = some (some i))
    (ht : s.tunnels.elt i = some t) (hfam : t.addrs.isIp6 = r.1.addrs.isIp6)
    (hkey : r.1.addrs.isIp6 = false → t.key4 up = r.1.key4 up) (hdrop : ¬ DropsEntry up s r d) :
    CompleteAt (vxlanRemoveTunnel up s r.1 r.2 i t).vxlan4TunnelByKey
      (Function.update (s.live4 up) i none) (key4w (ip46OfIp4 a) d.tail) := by
  cases hfa : r.1.addrs.isIp6 with
  | true =>
    have hnone : s.live4 up i = none := by simp [VxlanMain.live4, ht, hfam, hfa]
    rw [(removeTunnel_other up).1 hfa, ← hnone, Function.update_eq_self]
    exact hc
  | false =>
    have hi : s.live4 up i = some (t.owner4 up) :=
      (live4_eq_some up).2 ⟨t, ht, hfam.trans hfa, rfl⟩
    rw [removeTunnel_map4 up hfa (hkey hfa)]
    refine CompleteAt.unregister h.map4 hc hi ?_
    intro j o' hji hj hw' hw
    obtain ⟨t', htd, heq⟩ := (live4_wild_iff up hfits hd hfit).1 ⟨hi, hw⟩
    obtain ⟨u, hud, rfl⟩ := (live4_wild_iff up hfits hd hfit).1 ⟨hj, hw'⟩
    have htt : t' = t := by
      have := htd.1
      rw [ht] at this
      exact (Option.some.inj this).symm
    subst htt
    have hfails : r.2.repointFails = false := by
      by_contra hf
      exact hdrop ⟨hadd, by simpa using hf, i, t', hidx, htd, j, u, hji, hud⟩
    -- the other tunnel passes the survivor test, so the search does not fail
    have hm : survivor4Match up i t' j u = true :=
      survivor4Match_of_wild4 up htd.2.1 (hfits i t' ht) (hfits j u hud.1) hji
        (hw'.trans hw.symm)
    cases hfirst : s.tunnels.first (survivor4Match up i t') with
    | none =>
      have := SlotPool.first_eq_none hfirst hud.1
      rw [hm] at this
      cases this
    | some st => exact ⟨survivorInfo st, by simp [hfails]⟩

/-- A removal that drops no needed IPv6 entry keeps it. -/
theorem completeAt6_removeTunnel {s : VxlanMain} (h : Consistent up s) (hfits : FibsFit s)
    {r : VxlanRequest} {i : ℕ} {t : VxlanTunnel} {d : DecapTerm} {a : BitVec 128}
    (hd : d.addr = .ip6 a) (hfit : d.fibIndex.toNat < 2 ^ 16)
    (hc : CompleteAt s.vxlan6TunnelByKey (s.live6 up) (key6w a d.tail))
    (hadd : r.1.isAdd = false) (hidx : deleteIndex up s r.1 = some (some i))
    (ht : s.tunnels.elt i = some t) (hfam : t.addrs.isIp6 = r.1.addrs.isIp6)
    (hkey : r.1.addrs.isIp6 = true → t.key6 = r.1.key6) (hdrop : ¬ DropsEntry up s r d) :
    CompleteAt (vxlanRemoveTunnel up s r.1 r.2 i t).vxlan6TunnelByKey
      (Function.update (s.live6 up) i none) (key6w a d.tail) := by
  cases hfa : r.1.addrs.isIp6 with
  | false =>
    -- an IPv4 tunnel owns nothing in the IPv6 map
    have hnone : s.live6 up i = none := by simp [VxlanMain.live6, ht, hfam, hfa]
    rw [(removeTunnel_other up).2 hfa, ← hnone, Function.update_eq_self]
    exact hc
  | true =>
    have hi : s.live6 up i = some (t.owner6 up) :=
      (live6_eq_some up).2 ⟨t, ht, hfam.trans hfa, rfl⟩
    rw [removeTunnel_map6 up hfa (hkey hfa)]
    refine CompleteAt.unregister h.map6 hc hi ?_
    intro j o' hji hj hw' hw
    obtain ⟨t', htd, heq⟩ := (live6_wild_iff up hfits hd hfit).1 ⟨hi, hw⟩
    obtain ⟨u, hud, rfl⟩ := (live6_wild_iff up hfits hd hfit).1 ⟨hj, hw'⟩
    have htt : t' = t := by
      have := htd.1
      rw [ht] at this
      exact (Option.some.inj this).symm
    subst htt
    -- a tunnel with the same wildcard is left, so the entry is pointed at it
    have hfails : r.2.repointFails = false := by
      by_contra hf
      exact hdrop ⟨hadd, by simpa using hf, i, t', hidx, htd, j, u, hji, hud⟩
    have hm : survivor6Match up i t' j u = true :=
      survivor6Match_of_wild6 up htd.2.1 (hfits i t' ht) (hfits j u hud.1) hji
        (hw'.trans hw.symm)
    cases hfirst : s.tunnels.first (survivor6Match up i t') with
    | none =>
      have := SlotPool.first_eq_none hfirst hud.1
      rw [hm] at this
      cases this
    | some st => exact ⟨st.1, by simp [hfails]⟩

/-- A slip-free request that does not drop the entry of `d` keeps it. -/
theorem entryComplete_step {s : VxlanMain} (h : Consistent up s) (hfits : FibsFit s)
    {r : VxlanRequest} {d : DecapTerm} (hfit : d.fibIndex.toNat < 2 ^ 16)
    (hc : EntryComplete up s d) (hadm : Admissible s r)
    (hslip : SlipFree up s r) (hdrop : ¬ DropsEntry up s r d) :
    EntryComplete up (vxlanStep up s r) d := by
  -- refused, added, or removed; each touches the map of one family
  rcases vxlanStep_cases up s r with ⟨freed, -, hs⟩ | ⟨hadd, hok, hs⟩ | ⟨hdel, i, t, hidx, ht, hs⟩
  · rw [hs]
    exact hc
  · rw [hs]
    have hv : s.tunnels.Vacant (r.1.tunnel r.2).devInstance := (hadm hadd).1
    cases hd : d.addr with
    | ip4 a =>
      rw [entryComplete_ip4 up hd] at hc ⊢
      rw [live4_addTunnel up hv]
      simp only [VxlanMain.addTunnel]
      cases (r.1.tunnel r.2).addrs.isIp6 with
      | true => exact hc
      | false => exact hc.register
    | ip6 a =>
      rw [entryComplete_ip6 up hd] at hc ⊢
      rw [live6_addTunnel up hv]
      simp only [VxlanMain.addTunnel]
      cases (r.1.tunnel r.2).addrs.isIp6 with
      | true => exact hc.register
      | false => exact hc
  · rw [hs]
    have hclear := hslip.search (takesEffect_delete up hdel hidx)
    obtain ⟨hlive, hfam, hkey⟩ := deleteIndex_spec up h hclear hidx ht
    cases hd : d.addr with
    | ip4 a =>
      rw [entryComplete_ip4 up hd] at hc ⊢
      rw [live4_removeTunnel]
      exact completeAt4_removeTunnel up h hfits hd hfit hc hdel hidx hlive hfam
        (by intro hfa; rw [hfa] at hkey; exact hkey) hdrop
    | ip6 a =>
      rw [entryComplete_ip6 up hd] at hc ⊢
      rw [live6_removeTunnel]
      exact completeAt6_removeTunnel up h hfits hd hfit hc hdel hidx hlive hfam
        (by intro hfa; rw [hfa] at hkey; exact hkey) hdrop

/-! ## Whole histories -/

/-- The fib index of a tunnel that is added fits the 16 bits it has in a key. -/
def FibFits (s : VxlanMain) (r : VxlanRequest) : Prop :=
  r.1.isAdd = true → AddSucceeds up s r.1 r.2 → r.1.encapFibIndex.toNat < 2 ^ 16

/-- The side condition of a slip-free history with fib indexes that fit. -/
def CleanStep (s : VxlanMain) (r : VxlanRequest) : Prop :=
  Admissible s r ∧ SlipFree up s r ∧ FibFits up s r

/-- A tunnel after a request is the one that it adds, or was there before. -/
theorem elt_vxlanStep {s : VxlanMain} {r : VxlanRequest} (hadm : Admissible s r) {j : ℕ}
    {u : VxlanTunnel} (hj : (vxlanStep up s r).tunnels.elt j = some u) :
    (r.1.isAdd = true ∧ AddSucceeds up s r.1 r.2 ∧ u = r.1.tunnel r.2) ∨
      s.tunnels.elt j = some u := by
  rcases vxlanStep_cases up s r with ⟨freed, -, hs⟩ | ⟨hadd, hok, hs⟩ | ⟨-, i, t, -, -, hs⟩
  · rw [hs] at hj
    exact Or.inr hj
  · rw [hs] at hj
    rcases elt_addTunnel up (hadm hadd).1 hj with ⟨-, hu⟩ | hj
    · exact Or.inl ⟨hadd, hok, hu⟩
    · exact Or.inr hj
  · rw [hs, (removeTunnel_tunnels up s r.1 r.2 i t).1, SlotPool.elt_clear] at hj
    by_cases hji : j = i
    · rw [if_pos hji] at hj
      cases hj
    · rw [if_neg hji] at hj
      exact Or.inr hj

theorem fibsFit_init : FibsFit VxlanMain.init := by
  intro i t hi
  simp [VxlanMain.init] at hi

/-- A request whose fib index fits leaves a table in which they fit. -/
theorem fibsFit_step {s : VxlanMain} (h : FibsFit s) {r : VxlanRequest} (hadm : Admissible s r)
    (hfib : FibFits up s r) : FibsFit (vxlanStep up s r) := by
  intro j u hj
  rcases elt_vxlanStep up hadm hj with ⟨hadd, hok, rfl⟩ | hold
  · exact hfib hadd hok
  · exact h j u hold

/-- What holds after every clean history. -/
theorem clean_run {rs : List VxlanRequest}
    (hrun : Allowed (vxlanStep up) (CleanStep up) VxlanMain.init rs) :
    Consistent up (run (vxlanStep up) VxlanMain.init rs) ∧
      FibsFit (run (vxlanStep up) VxlanMain.init rs) := by
  refine run_invariant (vxlanStep up) (CleanStep up) (fun s => Consistent up s ∧ FibsFit s)
    ?_ ⟨consistent_init up, fibsFit_init⟩ hrun
  rintro s r ⟨h, hfits⟩ ⟨hadm, hslip, hfib⟩
  exact ⟨consistent_step up h hadm hslip, fibsFit_step up hfits hadm hfib⟩

/-- After a clean history in which no re-pointing of `d` failed, the entry of `d` is not
missing. -/
theorem entryComplete_run {rs : List VxlanRequest} {d : DecapTerm}
    (hfit : d.fibIndex.toNat < 2 ^ 16)
    (hrun : Allowed (vxlanStep up) (CleanStep up) VxlanMain.init rs)
    (hdrop : Allowed (vxlanStep up) (fun s r => ¬ DropsEntry up s r d) VxlanMain.init rs) :
    EntryComplete up (run (vxlanStep up) VxlanMain.init rs) d := by
  have hinit : EntryComplete up VxlanMain.init d := by
    unfold EntryComplete
    cases d.addr with
    | ip4 a => intro i o hi; simp [VxlanMain.init, VxlanMain.live4] at hi
    | ip6 a => intro i o hi; simp [VxlanMain.init, VxlanMain.live6] at hi
  refine (run_invariant (vxlanStep up) (fun s r => CleanStep up s r ∧ ¬ DropsEntry up s r d)
    (fun s => (Consistent up s ∧ FibsFit s) ∧ EntryComplete up s d) ?_
    ⟨⟨consistent_init up, fibsFit_init⟩, hinit⟩ (hrun.and _ hdrop)).2
  rintro s r ⟨⟨h, hfits⟩, hc⟩ ⟨⟨hadm, hslip, hfib⟩, hd⟩
  exact ⟨⟨consistent_step up h hadm hslip, fibsFit_step up hfits hadm hfib⟩,
    entryComplete_step up h hfits hfit hc hadm hslip hd⟩

/-- In a consistent state a source-independent entry names a live decap-any
tunnel of its term. -/
theorem sourceIndependent_sound {s : VxlanMain} (h : Consistent up s) (hfits : FibsFit s)
    {d : DecapTerm} (hfit : d.fibIndex.toNat < 2 ^ 16) (hd : HasSourceIndependent up s d) :
    ∃ i t, DecapAnyAt up s d i t ∧ EntryNames s d i t := by
  unfold HasSourceIndependent at hd
  unfold EntryNames
  cases ha : d.addr with
  | ip4 a =>
    rw [ha] at hd
    obtain ⟨⟨v, hv⟩, hnot⟩ := hd
    -- an entry that is no exact key of a tunnel is a wildcard
    obtain ⟨i, o, hi, hw, hval⟩ := h.map4.wild_of_not_exact hv (by
      intro i o hi
      obtain ⟨t, ht, h6, rfl⟩ := (live4_eq_some up).1 hi
      exact hnot i t ht h6)
    obtain ⟨t, htd, rfl⟩ := (live4_wild_iff up hfits ha hfit).1 ⟨hi, hw⟩
    refine ⟨i, t, htd, ?_⟩
    simp only [hv, ← hval]
    exact congrArg some (decapInfo_of_ownsWildcard up (j := i) htd.2.1)
  | ip6 a =>
    rw [ha] at hd
    obtain ⟨⟨v, hv⟩, hnot⟩ := hd
    obtain ⟨i, o, hi, hw, hval⟩ := h.map6.wild_of_not_exact hv (by
      intro i o hi
      obtain ⟨t, ht, h6, rfl⟩ := (live6_eq_some up).1 hi
      exact hnot i t ht h6)
    obtain ⟨t, htd, rfl⟩ := (live6_wild_iff up hfits ha hfit).1 ⟨hi, hw⟩
    refine ⟨i, t, htd, ?_⟩
    simp only [hv, ← hval]
    exact congrArg some (h.dev i t htd.1)

/-- In a consistent state a live decap-any tunnel whose entry is not missing has a
source-independent entry. -/
theorem sourceIndependent_of_decapAny {s : VxlanMain} (h : Consistent up s) (hfits : FibsFit s)
    {d : DecapTerm} (hfit : d.fibIndex.toNat < 2 ^ 16) (hc : EntryComplete up s d) {i : ℕ}
    {t : VxlanTunnel} (ht : DecapAnyAt up s d i t) :
    HasSourceIndependent up s d := by
  unfold EntryComplete at hc
  unfold HasSourceIndependent
  cases ha : d.addr with
  | ip4 a =>
    rw [ha] at hc
    have hw := (live4_wild_iff up hfits ha hfit).2 ⟨t, ht, rfl⟩
    obtain ⟨hv, hnot⟩ := (h.map4.wild_iff hc).2 ⟨i, _, hw⟩
    exact ⟨hv, fun j u hu h6 => hnot j _ ((live4_eq_some up).2 ⟨u, hu, h6, rfl⟩)⟩
  | ip6 a =>
    rw [ha] at hc
    have hw := (live6_wild_iff up hfits ha hfit).2 ⟨t, ht, rfl⟩
    obtain ⟨hv, hnot⟩ := (h.map6.wild_iff hc).2 ⟨i, _, hw⟩
    exact ⟨hv, fun j u hu h6 => hnot j _ ((live6_eq_some up).2 ⟨u, hu, h6, rfl⟩)⟩

/-- **Source-independent entries over whole histories.**  After every slip-free history with
fib indexes that fit in a key, an entry names a live decap-any tunnel with a unicast remote
of exactly its term, and there is one for every such term no re-pointing of which failed. -/
theorem sourceIndependent_entries {rs : List VxlanRequest}
    (hrun : Allowed (vxlanStep up) (CleanStep up) VxlanMain.init rs) (d : DecapTerm)
    (hfit : d.fibIndex.toNat < 2 ^ 16) :
    (HasSourceIndependent up (run (vxlanStep up) VxlanMain.init rs) d →
      ∃ i t, DecapAnyAt up (run (vxlanStep up) VxlanMain.init rs) d i t ∧
        EntryNames (run (vxlanStep up) VxlanMain.init rs) d i t) ∧
    (Allowed (vxlanStep up) (fun s r => ¬ DropsEntry up s r d) VxlanMain.init rs →
      (HasSourceIndependent up (run (vxlanStep up) VxlanMain.init rs) d ↔
        ∃ i t, DecapAnyAt up (run (vxlanStep up) VxlanMain.init rs) d i t)) := by
  obtain ⟨h, hfits⟩ := clean_run up hrun
  refine ⟨sourceIndependent_sound up h hfits hfit, ?_⟩
  intro hdrop
  constructor
  · intro hd
    obtain ⟨i, t, ht, -⟩ := sourceIndependent_sound up h hfits hfit hd
    exact ⟨i, t, ht⟩
  · rintro ⟨i, t, ht⟩
    exact sourceIndependent_of_decapAny up h hfits hfit (entryComplete_run up hfit hrun hdrop) ht

/-! ## Histories of IPv4 tunnels -/

/-- The parameters of an IPv4 tunnel with a specified remote. -/
def PlainIp4 (p : VxlanParams) : Prop := p.addrs.isIp6 = false ∧ ip46Ip4 p.addrs.dst ≠ 0#32

instance (p : VxlanParams) : Decidable (PlainIp4 p) := inferInstanceAs (Decidable (_ ∧ _))

/-- Their exact keys are no source-independent keys, which have a remote of zero. -/
theorem PlainIp4.not_wildcardHits {p : VxlanParams} (hp : PlainIp4 p) (q : VxlanParams) :
    ¬ WildcardHits up q p := by
  rintro ⟨-, hkey⟩
  rw [hp.1, if_neg Bool.false_ne_true] at hkey
  have h0 := congrArg Vxlan4TunnelKey.key0 hkey
  rw [key4w_key0] at h0
  unfold VxlanParams.key4 at h0
  cases hm : up.ip46AddressIsMulticast p.addrs.dst with
  | true =>
    rw [hm, if_pos rfl] at h0
    have hgroup : (ip46Ip4 p.addrs.dst).setWidth 64 = addrPair 0#32 (ip46Ip4 p.addrs.dst) := by
      simp [addrPair]
    exact hp.2 (addrPair_inj (h0.trans hgroup)).2.symm
  | false =>
    rw [hm, if_neg Bool.false_ne_true] at h0
    exact hp.2 (addrPair_inj h0).2.symm

/-- **A history of IPv4 tunnels with specified remotes has no slips.** -/
theorem slipFree_run_ip4 {rs : List VxlanRequest}
    (hadm : Allowed (vxlanStep up) Admissible VxlanMain.init rs)
    (hplain : Allowed (vxlanStep up) (fun _ r => PlainIp4 r.1.toVxlanParams) VxlanMain.init rs) :
    Allowed (vxlanStep up) (SlipFree up) VxlanMain.init rs := by
  refine (allowed_iff_of_invariant (vxlanStep up)
    (fun s r => Admissible s r ∧ PlainIp4 r.1.toVxlanParams)
    (fun s => ∀ i t, s.tunnels.elt i = some t → PlainIp4 t.toVxlanParams)
    (P := SlipFree up) (Q := fun _ _ => True) ?_ ?_ ?_ (hadm.and _ hplain)).2
    (allowed_of_forall _ fun _ _ => trivial)
  · rintro s r hs ⟨-, hr⟩
    refine ⟨fun _ => trivial, fun _ => ⟨?_, ?_, ?_⟩⟩
    · intro _ i t _ _
      exact hr.not_wildcardHits up t.toVxlanParams
    · intro _ _ _
      exact ⟨hr.not_wildcardHits up _, fun i t ht => (hs i t ht).not_wildcardHits up _⟩
    · intro _ _ i t _ ht _ j st hj _ hne
      exact absurd ((hs j st hj).1.trans (hs i t ht).1.symm) hne
  · rintro s r hs ⟨hadm, hr⟩ -
    intro j u hj
    rcases elt_vxlanStep up hadm hj with ⟨-, -, rfl⟩ | hold
    · exact hr
    · exact hs j u hold
  · intro i t hi
    simp [VxlanMain.init] at hi

/-- The first request on an empty table is clean if its slot and interface are valid, its
fib index fits, and its own two keys differ. -/
theorem cleanStep_init {r : VxlanRequest} (hadd : r.1.isAdd = true) (hdev : r.2.devInstance = 0)
    (hsw : r.2.swIfIndex ≠ BitVec.allOnes 32) (hfib : r.1.encapFibIndex.toNat < 2 ^ 16)
    (hself : ¬ WildcardHits up r.1.toVxlanParams r.1.toVxlanParams) :
    CleanStep up VxlanMain.init r := by
  have hinit : ∀ i t, VxlanMain.init.tunnels.elt i = some t → False := by
    intro i t h; simp [VxlanMain.init] at h
  refine ⟨?_, ⟨?_, ?_, ?_⟩, fun _ _ => hfib⟩
  · intro _
    exact ⟨⟨rfl, by simp [hdev]⟩, hsw, fun i t h => (hinit i t h).elim⟩
  · intro _ i t h
    exact (hinit i t h).elim
  · intro _ _ _
    exact ⟨hself, fun i t h => (hinit i t h).elim⟩
  · intro h
    rw [hadd] at h
    cases h

/-- A decap-any IPv4 request on UDP port 4789, fib 0 and VNI 100, for the tunnel
slot `i`. -/
def decapAnyRequest (isAdd : Bool) (src dst : BitVec 32) (i : ℕ) (repointFails : Bool) :
    VxlanRequest :=
  (⟨⟨.ip4 src dst, 0, 4789, 100⟩, isAdd, vxlanDecapAnyFlag ||| 1⟩,
    ⟨true, i, BitVec.ofNat 32 (i + 1), false, false, repointFails⟩)

/-- Two decap-any tunnels of 10.0.0.1, the first of which is deleted. -/
def survivorRequests (repointFails : Bool) : List VxlanRequest :=
  [decapAnyRequest true 0x0a000001 0x0a000002 0 false,
    decapAnyRequest true 0x0a000001 0x0a000003 1 false,
    decapAnyRequest false 0x0a000001 0x0a000002 0 repointFails]

theorem survivorRequests_admissible (repointFails : Bool) :
    Allowed (vxlanStep .vpp) Admissible VxlanMain.init (survivorRequests repointFails) := by
  refine ⟨?_, ?_, ?_, trivial⟩
  · intro _
    refine ⟨⟨by decide, by decide⟩, by decide, fun i t h => ?_⟩
    simp [VxlanMain.init] at h
  · intro _
    refine ⟨⟨by decide, by decide⟩, by decide, fun i t h => ?_⟩
    refine SlotPool.forall_elt (P := fun t : VxlanTunnel => t.swIfIndex ≠ 2#32) ?_ h
    decide
  · intro h
    cases h

/-- The entry of 10.0.0.1 is re-pointed at the second tunnel. -/
theorem sourceIndependent_entries_survivor :
    HasSourceIndependent .vpp (run (vxlanStep .vpp) VxlanMain.init (survivorRequests false))
      ⟨.ip4 0x0a000001, 4789, 0, 100⟩ ∧
    ∃ i t, DecapAnyAt .vpp (run (vxlanStep .vpp) VxlanMain.init (survivorRequests false))
        ⟨.ip4 0x0a000001, 4789, 0, 100⟩ i t ∧
      EntryNames (run (vxlanStep .vpp) VxlanMain.init (survivorRequests false))
        ⟨.ip4 0x0a000001, 4789, 0, 100⟩ i t := by
  have hadm := survivorRequests_admissible false
  have hclean : Allowed (vxlanStep .vpp) (CleanStep .vpp) VxlanMain.init
      (survivorRequests false) := by
    have hslip := slipFree_run_ip4 .vpp hadm ⟨by decide, by decide, by decide, trivial⟩
    have hfib : Allowed (vxlanStep .vpp) (FibFits .vpp) VxlanMain.init (survivorRequests false) :=
      ⟨fun _ _ => by decide, fun _ _ => by decide, fun _ _ => by decide, trivial⟩
    exact hadm.and _ (hslip.and _ hfib)
  have hdrop : Allowed (vxlanStep .vpp)
      (fun s r => ¬ DropsEntry .vpp s r ⟨.ip4 0x0a000001, 4789, 0, 100⟩) VxlanMain.init
      (survivorRequests false) :=
    ⟨fun h => Bool.noConfusion h.2.1, fun h => Bool.noConfusion h.2.1,
      fun h => Bool.noConfusion h.2.1, trivial⟩
  obtain ⟨hnames, hiff⟩ := sourceIndependent_entries .vpp hclean
    ⟨.ip4 0x0a000001, 4789, 0, 100⟩ (by decide)
  have hhas := (hiff hdrop).2 ⟨1, _, rfl, by decide, by decide⟩
  exact ⟨hhas, hnames hhas⟩

/-- If the re-pointing insertion fails, the entry is dropped although the second tunnel
lives. -/
theorem repointFailure_drops_entry :
    Allowed (vxlanStep .vpp) Admissible VxlanMain.init (survivorRequests true) ∧
    ¬ SourceIndependentExact .vpp
      (run (vxlanStep .vpp) VxlanMain.init (survivorRequests true)) := by
  refine ⟨survivorRequests_admissible true, ?_⟩
  intro h
  obtain ⟨⟨v, hv⟩, -⟩ := (h ⟨.ip4 0x0a000001, 4789, 0, 100⟩).1.2
    ⟨1, _, rfl, by decide, by decide⟩
  have hnone : (run (vxlanStep .vpp) VxlanMain.init (survivorRequests true)).vxlan4TunnelByKey
      (key4w (ip46OfIp4 0x0a000001) (vxlanKeyTail 4789 0 (vniWord 100))) = none := by decide
  cases hnone.symm.trans hv

end Vxlan
