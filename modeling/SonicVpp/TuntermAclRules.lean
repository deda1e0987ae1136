/-
# What an ACL does

`AclSpec` is the component as its users see it: every live ACL has a family and the rules
of its latest `tunterm_acl_add_replace`, and every interface has at most one ACL attached
for each family.  `refines_run` says that the plugin refines it: in every run of
successful requests that name live ACLs the classify tables hold the last rule for each
destination.  `latest_rule_redirects` is what follows for packets.
-/
import SonicVpp.TuntermAclSlots

open LastWrite RunInvariant PacketBytes

namespace TuntermAcl

/-! ## The specification -/

/-- Live ACLs with their families and rules, and the ACLs attached to the interfaces. -/
structure AclSpec (ApiPath : Type) where
  acls : ℕ → Option (Bool × List (TuntermAclRule ApiPath))
  attached : Bool → ℕ → Option ℕ

/-- No ACL. -/
def AclSpec.init {ApiPath : Type} : AclSpec ApiPath := ⟨fun _ => none, fun _ _ => none⟩

/-- What a successful request means. -/
def specStep {ApiPath : Type} (σ : AclSpec ApiPath) : AclEvent ApiPath → AclSpec ApiPath
  | .addReplace mp env =>
    if mp.tuntermAclIndex = invalidIndex then
      match env.addTable with
      | .error _ => σ
      | .ok i =>
        { σ with acls := Function.update σ.acls i (some (mp.isIpv6, mp.r.take mp.count)) }
    else
      let acl := (σ.acls mp.tuntermAclIndex).map fun a => (a.1, mp.r.take mp.count)
      { σ with acls := Function.update σ.acls mp.tuntermAclIndex acl }
  | .del i => { σ with acls := Function.update σ.acls i none }
  | .interfaceAddDel isAdd i t _ =>
    match σ.acls t with
    | none => σ
    | some (f, _) =>
      let slot := if isAdd then some t else none
      { σ with attached := fun f' j => if f' = f ∧ j = i then slot else σ.attached f' j }
  | _ => σ

/-- The destination address of a rule. -/
def ruleDst {ApiPath : Type} (isIpv6 : Bool) (rule : TuntermAclRule ApiPath) : List (BitVec 8) :=
  (List.range (bytesMatched isIpv6)).map fun i => rule.dst.un.getD i 0

/-- The last rule for the destination `d` of the ACL attached to an interface. -/
def AclSpec.ruleFor {ApiPath : Type} (σ : AclSpec ApiPath) (isIpv6 : Bool) (swIfIndex : ℕ)
    (d : List (BitVec 8)) : Option (TuntermAclRule ApiPath) :=
  (σ.attached isIpv6 swIfIndex).bind fun t =>
    (σ.acls t).bind fun a => lastFor (ruleDst isIpv6) d a.2

/-! ## Matches and destinations -/

section Matches

/-- Two addresses with the same match. -/
theorem matchOf_eq_iff {isIpv6 : Bool} {un un' : List (BitVec 8)} :
    matchOf isIpv6 un = matchOf isIpv6 un' ↔
      ∀ i < bytesMatched isIpv6, un.getD i 0 = un'.getD i 0 := by
  have h16 : bytesMatched isIpv6 ≤ 16 := by cases isIpv6 <;> decide
  unfold matchOf
  rw [List.map_inj_left]
  constructor
  · intro h i hi
    have := h i (List.mem_range.2 (by omega))
    rwa [if_pos hi, if_pos hi] at this
  · intro h i _
    by_cases hi : i < bytesMatched isIpv6
    · rw [if_pos hi, if_pos hi, h i hi]
    · rw [if_neg hi, if_neg hi]

/-- A rule has the match of an address exactly if it is for that address. -/
theorem ruleKey_eq_iff {ApiPath : Type} {isIpv6 : Bool} {d : List (BitVec 8)}
    (hd : d.length = bytesMatched isIpv6) (rule : TuntermAclRule ApiPath) :
    ruleKey isIpv6 rule = matchOf isIpv6 d ↔ ruleDst isIpv6 rule = d := by
  rw [ruleKey, matchOf_eq_iff]
  constructor
  · intro h
    apply List.ext_getElem
    · simp [ruleDst, hd]
    · intro i h1 h2
      have hi := h i (by omega)
      simpa [ruleDst, h2] using hi
  · rintro rfl i hi
    simp [ruleDst, hi]

/-- Two keys that agree on every item have the same last item. -/
theorem lastFor_congr {ι κ κ' : Type} [DecidableEq κ] [DecidableEq κ'] {key : ι → κ}
    {key' : ι → κ'} {k : κ} {k' : κ'} (h : ∀ a, key a = k ↔ key' a = k') (as : List ι) :
    lastFor key k as = lastFor key' k' as := by
  induction as with
  | nil => rfl
  | cons a as ih => simp only [lastFor, ih, h a]

end Matches

section Refinement

variable {ApiPath FibPath : Type} (up : Upstream ApiPath FibPath)

/-! ## Successful requests -/

/-- The request is answered without an error. -/
def Succeeds (w : AclWorld FibPath) : AclEvent ApiPath → Prop
  | .addReplace mp env => (tuntermAclAddReplace up w.main mp env).1.rv = none
  | .del i => (tuntermAclDel w.main i).rv = none
  | .interfaceAddDel isAdd i t fails => (tuntermAclInterfaceAddDel w.main isAdd i t fails).rv = none
  | _ => True

/-- Successful requests on live ACLs, while the interfaces stay. -/
def Proper (w : AclWorld FibPath) (e : AclEvent ApiPath) : Prop :=
  Admissible w e ∧ NamesLive w e ∧ KeepsInterfaces e ∧ Succeeds up w e

/-- Without an error all rules are added. -/
theorem accepted_of_firstError {isIpv6 : Bool} {fails : ℕ → Option ApiError}
    {rules : List (TuntermAclRule ApiPath)} :
    ∀ {n : ℕ}, firstError up isIpv6 fails n rules = none →
      accepted up isIpv6 fails n rules = rules ∧
        ∀ rule ∈ rules, ∃ path, up.fibApiPathDecode rule.path = .ok path := by
  induction rules with
  | nil => intro n _; exact ⟨rfl, by simp⟩
  | cons rule rules ih =>
    intro n h
    rw [firstError, Option.or_eq_none_iff] at h
    obtain ⟨hacc, hdec⟩ := ih h.2
    refine ⟨by rw [accepted, if_pos h.1, hacc], ?_⟩
    intro rule' hrule
    rcases List.mem_cons.1 hrule with rfl | hrule
    · have hrule := h.1
      unfold ruleError at hrule
      cases hpath : up.fibApiPathDecode rule'.path with
      | error e => rw [hpath] at hrule; cases hrule
      | ok path => exact ⟨path, rfl⟩
    · exact hdec rule' hrule

/-- **A successful request leaves exactly the sessions of its rules.** -/
theorem updateSessions_success {w : AclWorld FibPath} (h : AclInv w) {t : ℕ} {f : Bool}
    (hlive : w.live t = some f) {isIpv6 : Bool} {rules : List (TuntermAclRule ApiPath)}
    {fails : ℕ → Option ApiError} (hrv : (updateSessions up w.main isIpv6 rules t fails).rv = none) :
    (updateSessions up w.main isIpv6 rules t fails).main.redirect.tables t
        = some ⟨tableMask f, sessionsOf up f rules⟩ ∧
      (∀ rule ∈ rules, ∃ path, up.fibApiPathDecode rule.path = .ok path) := by
  obtain ⟨T, hT⟩ := h.table t f hlive
  rcases updateSessions_cases up w.main isIpv6 rules t fails with
    ⟨-, -, hno, -⟩ | ⟨-, hno, hrv', -⟩ | ⟨haf, hclear, hrv', hs⟩
  · rw [hno] at hrv
    cases hrv
  · rw [hrv'] at hrv
    exact absurd hrv hno
  · rw [hs]
    have hempty := hT.clear_empty h.linked hclear
    have hno := clear_no_entry h.linked hclear
    have hlinked := (clear_clearsIn h.linked t).linked
    rcases haf with rfl | haf
    · exact ⟨hempty, by simp⟩
    · rw [h.family t f hlive, Option.getD_some] at haf
      subst haf
      obtain ⟨hrv'', hok⟩ := addRules_tableOk up hlinked hempty hno fails rules
      rw [hrv', hrv''] at hrv
      obtain ⟨hacc, hdec⟩ := accepted_of_firstError up hrv
      exact ⟨by rw [hok.table, hacc], hdec⟩

/-! ## The refinement -/

/-- The plugin does what the specification says. -/
structure Refines (w : AclWorld FibPath) (σ : AclSpec ApiPath) : Prop where
  inv : AclInv w
  live : ∀ t, w.live t = (σ.acls t).map Prod.fst
  table : ∀ t f rules, σ.acls t = some (f, rules) →
    w.main.redirect.tables t = some ⟨tableMask f, sessionsOf up f rules⟩
  decodes : ∀ t f rules, σ.acls t = some (f, rules) →
    ∀ rule ∈ rules, ∃ path, up.fibApiPathDecode rule.path = .ok path
  slot : ∀ f i, w.main.slot f i = (σ.attached f i).getD invalidIndex
  attached : ∀ f i t, σ.attached f i = some t → w.live t = some f

variable {up} {w : AclWorld FibPath} {σ : AclSpec ApiPath}

theorem Refines.live_eq (h : Refines up w σ) {t : ℕ} {f : Bool}
    {rules : List (TuntermAclRule ApiPath)} (ht : σ.acls t = some (f, rules)) :
    w.live t = some f := by
  rw [h.live, ht]
  rfl

theorem Refines.acl_of_live (h : Refines up w σ) {t : ℕ} (ht : w.live t ≠ none) :
    ∃ f rules, σ.acls t = some (f, rules) := by
  rw [h.live] at ht
  cases hacl : σ.acls t with
  | none => rw [hacl] at ht; exact absurd rfl ht
  | some a => exact ⟨a.1, a.2, rfl⟩

/-- An ACL that has its table written anew, or gets one. -/
theorem Refines.write (h : Refines up w σ) {w' : AclWorld FibPath} {t : ℕ} {f : Bool}
    {rules : List (TuntermAclRule ApiPath)} (hinv : AclInv w')
    (hlive : w'.live = Function.update w.live t (some f))
    (hfresh : w.live t = none ∨ w.live t = some f)
    (htable : w'.main.redirect.tables t = some ⟨tableMask f, sessionsOf up f rules⟩)
    (hdec : ∀ rule ∈ rules, ∃ path, up.fibApiPathDecode rule.path = .ok path)
    (hothers : ∀ j, j ≠ t → w'.main.redirect.tables j = w.main.redirect.tables j)
    (hslots : SameSlots w.main w'.main) :
    Refines up w' { σ with acls := Function.update σ.acls t (some (f, rules)) } where
  inv := hinv
  live := by
    intro j
    rw [hlive]
    by_cases hj : j = t
    · subst hj
      simp
    · simp only [Function.update_of_ne hj]
      exact h.live j
  table := by
    intro j f' rules' hj'
    by_cases hj : j = t
    · subst hj
      simp only [Function.update_self, Option.some.injEq, Prod.mk.injEq] at hj'
      obtain ⟨rfl, rfl⟩ := hj'
      exact htable
    · simp only [Function.update_of_ne hj] at hj'
      rw [hothers j hj]
      exact h.table j f' rules' hj'
  decodes := by
    intro j f' rules' hj'
    by_cases hj : j = t
    · subst hj
      simp only [Function.update_self, Option.some.injEq, Prod.mk.injEq] at hj'
      obtain ⟨rfl, rfl⟩ := hj'
      exact hdec
    · simp only [Function.update_of_ne hj] at hj'
      exact h.decodes j f' rules' hj'
  slot := by
    intro f' i
    rw [hslots.slot]
    exact h.slot f' i
  attached := by
    intro f' i j hj
    have hlive' := h.attached f' i j hj
    rw [hlive]
    by_cases hjt : j = t
    · -- an ACL that is attached was live before, so with the same family
      subst hjt
      rw [Function.update_self]
      rcases hfresh with hnone | hsome
      · rw [hnone] at hlive'
        cases hlive'
      · exact hsome.symm.trans hlive'
    · rw [Function.update_of_ne hjt]
      exact hlive'

/-- A successful `tunterm_acl_add_replace`. -/
theorem Refines.addReplace (h : Refines up w σ) {mp : AddReplace ApiPath} {env : AddReplaceEnv}
    (hp : Proper up w (.addReplace mp env)) :
    Refines up (aclStep up w (.addReplace mp env)) (specStep σ (.addReplace mp env)) := by
  obtain ⟨hadm, hnames, -, hrv⟩ := hp
  have hinv := aclInv_step up h.inv hadm
  have hslots := addReplace_sameSlots up w.main mp env
  simp only [Succeeds] at hrv
  rcases addReplace_cases up w.main mp env with
    ⟨hno, -, -, -⟩ | ⟨i, -, hidx, hadd, hsome, hs⟩ | ⟨-, hidx, hnone, hs⟩
  · exact absurd hrv hno
  · -- a new ACL: its table is made, and then written
    obtain ⟨hfree, hi⟩ := hadm i hsome
    have hnew := h.inv.addTable mp.isIpv6 hfree hi
    rw [hs] at hrv
    obtain ⟨m, hm, -, honly⟩ := updateSessions_redirect up hnew.linked mp.isIpv6
      (mp.r.take mp.count) i env.sessionFails
    obtain ⟨htable, hdec⟩ := updateSessions_success up hnew (Function.update_self _ _ _) hrv
    simp only [specStep, if_pos hidx, hadd]
    refine h.write hinv ?_ (Or.inl (h.inv.fresh hfree)) ?_ hdec ?_ hslots
    · simp only [aclStep, hsome]
      rfl
    · simp only [aclStep, hs]
      exact htable
    · intro j hj
      simp only [aclStep, hs, hm]
      rw [honly.tables j hj]
      exact Function.update_of_ne hj _ _
  · -- a live ACL: its table is cleared and written again
    obtain ⟨f, old, hacl⟩ := h.acl_of_live (hnames hidx)
    have hlive := h.live_eq hacl
    rw [hs] at hrv
    obtain ⟨m, hm, -, honly⟩ := updateSessions_redirect up h.inv.linked mp.isIpv6
      (mp.r.take mp.count) mp.tuntermAclIndex env.sessionFails
    obtain ⟨htable, hdec⟩ := updateSessions_success up h.inv hlive hrv
    simp only [specStep, if_neg hidx, hacl, Option.map_some]
    refine h.write hinv ?_ (Or.inr hlive) ?_ hdec ?_ hslots
    · simp only [aclStep, hnone]
      exact (Function.update_eq_self_iff.2 hlive.symm).symm
    · simp only [aclStep, hs]
      exact htable
    · intro j hj
      simp only [aclStep, hs, hm]
      exact honly.tables j hj

/-- A successful `tunterm_acl_del`. -/
theorem Refines.del (h : Refines up w σ) {t : ℕ}
    (hp : Proper up w (.del t : AclEvent ApiPath)) :
    Refines up (aclStep up w (.del t)) (specStep σ (.del t)) := by
  obtain ⟨hadm, -, -, hrv⟩ := hp
  have hinv := aclInv_step up h.inv hadm
  have hslots := del_sameSlots w.main t
  simp only [Succeeds] at hrv
  rcases tuntermAclDel_cases w.main t with
    ⟨hno, -⟩ | ⟨hno, -⟩ | ⟨hidx, h4, h6, -, -, hs⟩
  · exact absurd hrv hno
  · exact absurd hrv hno
  · have hlive : (aclStep up w (.del t : AclEvent ApiPath)).live
        = Function.update w.live t none := by
      simp only [aclStep, if_pos hrv]
    -- an attached ACL would be in one of the arrays
    have hatt : ∀ f i, σ.attached f i ≠ some t := by
      intro f i hf
      have hslot := h.slot f i
      rw [hf, Option.getD_some] at hslot
      have hmem := mem_slots hslot hidx
      cases f with
      | false => exact h4 hmem
      | true => exact h6 hmem
    refine ⟨hinv, ?_, ?_, ?_, ?_, ?_⟩
    · intro j
      rw [hlive]
      by_cases hj : j = t
      · subst hj
        simp [specStep]
      · simp only [specStep, Function.update_of_ne hj]
        exact h.live j
    · intro j f rules hacl
      by_cases hj : j = t
      · subst hj
        simp [specStep] at hacl
      · simp only [specStep, Function.update_of_ne hj] at hacl
        simp only [aclStep, hs]
        rw [Function.update_of_ne hj, (clear_clearsIn h.inv.linked t).only.tables j hj]
        exact h.table j f rules hacl
    · intro j f rules hacl
      by_cases hj : j = t
      · subst hj
        simp [specStep] at hacl
      · simp only [specStep, Function.update_of_ne hj] at hacl
        exact h.decodes j f rules hacl
    · intro f i
      exact (hslots.slot f i).trans (h.slot f i)
    · intro f i j hj
      have hjt : j ≠ t := by
        rintro rfl
        exact hatt f i hj
      rw [hlive, Function.update_of_ne hjt]
      exact h.attached f i j hj

/-- A successful `tunterm_acl_interface_add_del`. -/
theorem Refines.interfaceAddDel (h : Refines up w σ) {isAdd : Bool} {i t : ℕ}
    {fails : Option ApiError} (hp : Proper up w (.interfaceAddDel isAdd i t fails)) :
    Refines up (aclStep up w (.interfaceAddDel isAdd i t fails))
      (specStep σ (.interfaceAddDel isAdd i t fails)) := by
  obtain ⟨hadm, hnames, -, hrv⟩ := hp
  have hinv := aclInv_step up h.inv hadm
  obtain ⟨hred, -⟩ := interfaceAddDel_frame w.main isAdd i t fails
  obtain ⟨f, rules, hacl⟩ := h.acl_of_live hnames
  have hlive := h.live_eq hacl
  have hf : w.main.classifyTableIndexIsV6[t]?.getD false = f := by
    rw [h.inv.family t f hlive]
    rfl
  simp only [Succeeds] at hrv
  -- in both directions one slot is written; only its value differs
  have hslot : ∀ f' j, (tuntermAclInterfaceAddDel w.main isAdd i t fails).main.slot f' j
      = if f' = f ∧ j = i then (if isAdd then t else invalidIndex) else w.main.slot f' j := by
    rcases interfaceAddDel_cases w.main isAdd i t fails with
      ⟨hno, -, -⟩ | ⟨-, -, -, -, ⟨rfl, hatt⟩ | ⟨-, hno, -, -⟩ | ⟨rfl, -, -, hdet⟩⟩
    · exact absurd hrv hno
    · rw [hf] at hatt
      exact hatt.slot
    · exact absurd hrv hno
    · rw [hf] at hdet
      exact hdet.slot
  simp only [specStep, hacl]
  refine ⟨hinv, h.live, ?_, h.decodes, ?_, ?_⟩
  · intro j f' rules' hj
    simp only [aclStep, hred]
    exact h.table j f' rules' hj
  · intro f' j
    simp only [aclStep, hslot]
    by_cases hj : f' = f ∧ j = i
    · simp only [if_pos hj]
      cases isAdd <;> rfl
    · simp only [if_neg hj]
      exact h.slot f' j
  · intro f' j t' hj
    by_cases hfj : f' = f ∧ j = i
    · simp only [if_pos hfj] at hj
      cases isAdd with
      | true =>
        obtain rfl : t = t' := Option.some.inj hj
        rw [hfj.1]
        exact hlive
      | false => cases hj
    · simp only [if_neg hfj] at hj
      exact h.attached f' j t' hj

/-- **Every proper step refines the specification.** -/
theorem refines_step (h : Refines up w σ) {e : AclEvent ApiPath} (hp : Proper up w e) :
    Refines up (aclStep up w e) (specStep σ e) := by
  cases e with
  | addReplace mp env => exact h.addReplace hp
  | del t => exact h.del hp
  | interfaceAddDel isAdd i t fails => exact h.interfaceAddDel hp
  | otherTable i t =>
    refine ⟨aclInv_step up h.inv hp.1, h.live, ?_, h.decodes, h.slot, h.attached⟩
    intro j f rules hj
    have hji : j ≠ i := by
      rintro rfl
      have hnone : w.live j = none := hp.1
      rw [h.live_eq hj] at hnone
      cases hnone
    simp only [aclStep, Function.update_of_ne hji]
    exact h.table j f rules hj
  | createInterface i =>
    exact ⟨aclInv_step up h.inv hp.1, h.live, h.table, h.decodes, h.slot, h.attached⟩
  | deleteInterface i => exact hp.2.2.1.elim

variable (up)

/-- Before the first request there is no ACL. -/
theorem refines_init (tables : ℕ → Option ClassifyTable) :
    Refines up (AclWorld.init tables) AclSpec.init := by
  refine ⟨aclInv_init tables, fun t => rfl, ?_, ?_, ?_, ?_⟩
  · intro t f rules ht
    cases ht
  · intro t f rules ht
    cases ht
  · exact slot_init tables
  · intro f i t ht
    cases ht

/-- **Every proper run refines the specification.** -/
theorem refines_run (tables : ℕ → Option ClassifyTable) {es : List (AclEvent ApiPath)}
    (hrun : Allowed (aclStep up) (Proper up) (AclWorld.init tables) es) :
    Refines up (run (aclStep up) (AclWorld.init tables) es) (run specStep AclSpec.init es) := by
  refine run_simulation (aclStep up) specStep (Proper up) (Refines up) ?_
    (refines_init up tables) hrun
  intro w σ e h hp
  exact refines_step h hp

/-! ## Packets -/

variable {up}

/-- A lookup in the table of an ACL finds the last rule for the destination. -/
theorem Refines.findEntry (h : Refines up w σ) {t : ℕ} {f : Bool}
    {rules : List (TuntermAclRule ApiPath)} (hacl : σ.acls t = some (f, rules)) (data : Mem)
    (o : ℕ) :
    (w.main.redirect.tables t).bind (·.findEntry (bytesAt data o 16))
      = (lastFor (ruleDst f) (bytesAt data o (bytesMatched f)) rules).bind (ruleEntry up f) := by
  have hlen : (bytesAt data o (bytesMatched f)).length = bytesMatched f := by simp [bytesAt]
  rw [h.table t f rules hacl, Option.bind_some, findEntry_bytesAt rfl]
  show writeAll (ruleKey f) (ruleEntry up f) (fun _ => none) rules _ = _
  rw [writeAll_apply, lastFor_congr (ruleKey_eq_iff hlen)]
  cases lastFor (ruleDst f) (bytesAt data o (bytesMatched f)) rules with
  | none => rfl
  | some rule => rfl

variable (nNextNodes : ℕ) {b : AclBuffer} {tagged isIpv6 : Bool} {d : List (BitVec 8)}

/-- Without a rule for its destination a packet goes on to `vxlan4-input`. -/
theorem Refines.node_none (h : Refines up w σ)
    (hb : InnerPacket b.data b.currentData tagged isIpv6 d)
    (hrule : σ.ruleFor isIpv6 b.swIfIndexRx d = none) :
    (tuntermAclNode w.main nNextNodes b).1 = b ∧
      (tuntermAclNode w.main nNextNodes b).2.1 = nextVxlan4Input := by
  rw [tuntermAclNode_inner w.main nNextNodes hb, h.slot]
  unfold tuntermAclLookup
  cases hatt : σ.attached isIpv6 b.swIfIndexRx with
  | none => exact ⟨rfl, rfl⟩
  | some t =>
    have hlive := h.attached _ _ _ hatt
    obtain ⟨f, rules, hacl⟩ := h.acl_of_live (by rw [hlive]; simp)
    obtain rfl : f = isIpv6 := Option.some.inj ((h.live_eq hacl).symm.trans hlive)
    simp only [AclSpec.ruleFor, hatt, hacl, Option.bind_some] at hrule
    rw [Option.getD_some, if_neg (h.inv.index t f hlive), h.findEntry hacl, hb.dst, hrule]
    exact ⟨rfl, rfl⟩

/-- With a rule for its destination a packet is redirected along the path of the rule. -/
theorem Refines.node_some (h : Refines up w σ)
    (hb : InnerPacket b.data b.currentData tagged isIpv6 d) {rule : TuntermAclRule ApiPath}
    (hrule : σ.ruleFor isIpv6 b.swIfIndexRx d = some rule) :
    ∃ path, up.fibApiPathDecode rule.path = .ok path ∧
      tuntermAclNode w.main nNextNodes b = (redirectBuffer b tagged (pathEntry up isIpv6 path),
        if (up.resolve path isIpv6).dpoiNextNode < nNextNodes
          then (up.resolve path isIpv6).dpoiNextNode else nextVxlan4Input, .redirected) := by
  rw [tuntermAclNode_inner w.main nNextNodes hb, h.slot]
  unfold tuntermAclLookup
  cases hatt : σ.attached isIpv6 b.swIfIndexRx with
  | none =>
    rw [AclSpec.ruleFor, hatt] at hrule
    cases hrule
  | some t =>
    have hlive := h.attached _ _ _ hatt
    obtain ⟨f, rules, hacl⟩ := h.acl_of_live (by rw [hlive]; simp)
    obtain rfl : f = isIpv6 := Option.some.inj ((h.live_eq hacl).symm.trans hlive)
    simp only [AclSpec.ruleFor, hatt, hacl, Option.bind_some] at hrule
    obtain ⟨path, hpath⟩ := h.decodes t f rules hacl rule (lastFor_eq_some _ hrule).1
    refine ⟨path, hpath, ?_⟩
    rw [Option.getD_some, if_neg (h.inv.index t f hlive), h.findEntry hacl, hb.dst, hrule,
      Option.bind_some, ruleEntry, hpath]
    rfl

variable (up)

/-- The ACL that a request names or creates. -/
def AclEvent.target : AclEvent ApiPath → Option ℕ
  | .addReplace mp env => if mp.tuntermAclIndex = invalidIndex then mp.created env
      else some mp.tuntermAclIndex
  | .del i => some i
  | .interfaceAddDel _ _ i _ => some i
  | _ => none

/-- A request leaves the tables of the other live ACLs alone, also if it fails. -/
theorem tables_of_not_target (h : AclInv w) {e : AclEvent ApiPath} (hadm : Admissible w e)
    {t : ℕ} (ht : w.live t ≠ none) (hne : e.target ≠ some t) :
    (aclStep up w e).main.redirect.tables t = w.main.redirect.tables t := by
  cases e with
  | addReplace mp env =>
    simp only [aclStep]
    rcases addReplace_cases up w.main mp env with
      ⟨-, hs, -, -⟩ | ⟨i, -, hidx, -, hsome, hs⟩ | ⟨-, hidx, -, hs⟩
    · rw [hs]
    · obtain ⟨m, hm, -, honly⟩ := updateSessions_redirect up
        (h.addTable mp.isIpv6 (hadm i hsome).1 (hadm i hsome).2).linked mp.isIpv6
        (mp.r.take mp.count) i env.sessionFails
      have hti : t ≠ i := by
        rintro rfl
        exact hne (by rw [AclEvent.target, if_pos hidx, hsome])
      rw [hs, hm]
      exact (honly.tables t hti).trans (Function.update_of_ne hti _ _)
    · obtain ⟨m, hm, -, honly⟩ := updateSessions_redirect up h.linked mp.isIpv6
        (mp.r.take mp.count) mp.tuntermAclIndex env.sessionFails
      have hti : t ≠ mp.tuntermAclIndex := by
        rintro rfl
        exact hne (by rw [AclEvent.target, if_neg hidx])
      rw [hs, hm]
      exact honly.tables t hti
  | del i =>
    have hti : t ≠ i := fun hti => hne (congrArg some hti.symm)
    have hclear := (clear_clearsIn h.linked i).only.tables t hti
    simp only [aclStep]
    rcases tuntermAclDel_cases w.main i with ⟨-, hs⟩ | ⟨-, hs⟩ | ⟨-, -, -, -, -, hs⟩
    · rw [hs]
    · rw [hs]
      exact hclear
    · rw [hs]
      exact (Function.update_of_ne hti _ _).trans hclear
  | interfaceAddDel isAdd i j fails =>
    simp only [aclStep, (interfaceAddDel_frame w.main isAdd i j fails).1]
  | otherTable i T =>
    refine Function.update_of_ne ?_ _ _
    rintro rfl
    exact ht hadm
  | createInterface i => rfl
  | deleteInterface i => rfl

/-- **A packet gets the last rule of the latest request.**  In every run of successful
requests on live ACLs, a packet with an inner destination that has a rule in the ACL
attached to its interface is moved to its inner IP header and sent along the path of the
last such rule; every other packet goes to `vxlan4-input` as it is.  No step changes the
table of an ACL that it does not name. -/
theorem latest_rule_redirects (tables : ℕ → Option ClassifyTable) {es : List (AclEvent ApiPath)}
    (hrun : Allowed (aclStep up) (Proper up) (AclWorld.init tables) es) (nNextNodes : ℕ)
    (hstack : ∀ path isIpv6, (up.resolve path isIpv6).dpoiNextNode < nNextNodes) :
    (∀ (b : AclBuffer) (tagged isIpv6 : Bool) (d : List (BitVec 8)),
      InnerPacket b.data b.currentData tagged isIpv6 d →
      let out := tuntermAclNode (run (aclStep up) (AclWorld.init tables) es).main nNextNodes b
      match (run specStep AclSpec.init es).ruleFor isIpv6 b.swIfIndexRx d with
      | none => out.1 = b ∧ out.2.1 = nextVxlan4Input
      | some rule => ∃ path, up.fibApiPathDecode rule.path = .ok path ∧
          out.1.currentData = innerIpAt b.currentData tagged ∧ out.1.data = b.data ∧
          out.1.adjIndexTx = (up.resolve path isIpv6).dpoiIndex ∧
          out.2.1 = (up.resolve path isIpv6).dpoiNextNode) ∧
    ∀ (e : AclEvent ApiPath) (t : ℕ), Admissible (run (aclStep up) (AclWorld.init tables) es) e →
      (run (aclStep up) (AclWorld.init tables) es).live t ≠ none → e.target ≠ some t →
      (run (aclStep up) (AclWorld.init tables) (es ++ [e])).main.redirect.tables t
        = (run (aclStep up) (AclWorld.init tables) es).main.redirect.tables t := by
  have href := refines_run up tables hrun
  constructor
  · intro b tagged isIpv6 d hb out
    cases hrule : (run specStep AclSpec.init es).ruleFor isIpv6 b.swIfIndexRx d with
    | none => exact href.node_none nNextNodes hb hrule
    | some rule =>
      obtain ⟨path, hpath, hout⟩ := href.node_some nNextNodes hb hrule
      refine ⟨path, hpath, ?_⟩
      simp only [out, hout, redirectBuffer_currentData, redirectBuffer_data,
        if_pos (hstack path isIpv6), true_and, and_true]
      cases tagged <;> rfl
  · intro e t hadm ht hne
    have hstep : run (aclStep up) (AclWorld.init tables) (es ++ [e])
        = aclStep up (run (aclStep up) (AclWorld.init tables) es) e := by
      simp [run]
    rw [hstep]
    exact tables_of_not_target up href.inv hadm ht hne

end Refinement

/-- Two rules for 10.0.0.1 in one request, attached to interface 1. -/
def twoRulesRun : List (AclEvent (Option ℕ)) :=
  [.createInterface 1,
    .addReplace ⟨invalidIndex, false, 2, [⟨⟨0, [10, 0, 0, 1]⟩, some 7⟩, ⟨⟨0, [10, 0, 0, 1]⟩, some 9⟩]⟩
      ⟨.ok 5, fun _ => none⟩,
    .interfaceAddDel true 1 5 none]

/-- A packet to 10.0.0.1 on interface 1. -/
def packetToTen : AclBuffer where
  data i := if i = 20 then 8 else if i = 38 then 10 else if i = 41 then 1 else 0
  currentData := 0
  currentLength := 100
  swIfIndexRx := 1
  adjIndexTx := 0

/-- The second rule decides. -/
theorem latest_rule_redirects_second :
    Allowed (aclStep plainFib) (Proper plainFib) (AclWorld.init fun _ => none) twoRulesRun ∧
      (tuntermAclNode (run (aclStep plainFib) (AclWorld.init fun _ => none) twoRulesRun).main 4
        packetToTen).1.adjIndexTx = 9 := by
  have hrun : Allowed (aclStep plainFib) (Proper plainFib) (AclWorld.init fun _ => none)
      twoRulesRun := by
    refine ⟨⟨rfl, trivial, trivial, trivial⟩, ⟨?_, ?_, trivial, rfl⟩, ⟨trivial, ?_, trivial, rfl⟩,
      trivial⟩
    · intro i hi
      obtain rfl : 5 = i := Option.some.inj hi
      exact ⟨rfl, by decide⟩
    · intro h
      exact absurd rfl h
    · intro h
      cases h
  have hb : InnerPacket packetToTen.data packetToTen.currentData false false [10, 0, 0, 1] :=
    ⟨by decide, by decide, by decide⟩
  refine ⟨hrun, ?_⟩
  obtain ⟨path, hpath, -, -, hadj, -⟩ :=
    (latest_rule_redirects plainFib (fun _ => none) hrun 4 fun _ _ => by simp [plainFib]).1
      packetToTen false false [10, 0, 0, 1] hb
  obtain rfl : 9 = path := Except.ok.inj hpath
  exact hadj

end TuntermAcl
