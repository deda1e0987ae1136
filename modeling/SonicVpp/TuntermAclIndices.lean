/-
# Requests that name no ACL

None of the handlers knows which classify tables the plugin has created: `~0` is refused,
and after that only the vector of families is consulted, whose default is IPv4 and which
nobody compares with the index.  `only_live_named_iff` says which requests for an index
that is not that of a live ACL are refused nevertheless, in runs that have no other such
requests: a detach, or an `add_replace` that fails on the family or on its first rule.
-/
import SonicVpp.TuntermAclSlots

open RunInvariant

namespace TuntermAcl

section Indices

variable {ApiPath FibPath : Type} (up : Upstream ApiPath FibPath)

/-! ## What a refused request leaves -/

/-- Nothing has changed.  The arrays of the interfaces may have grown, by empty slots. -/
structure SameState (s s' : TuntermAclMain FibPath) : Prop where
  redirect : s'.redirect = s.redirect
  family : s'.classifyTableIndexIsV6 = s.classifyTableIndexIsV6
  slot : ∀ f i, s'.slot f i = s.slot f i
  swInterfaces : s'.swInterfaces = s.swInterfaces
  bypassCount : ∀ i, s'.bypassCount i = s.bypassCount i

theorem SameState.refl (s : TuntermAclMain FibPath) : SameState s s :=
  ⟨rfl, rfl, fun _ _ => rfl, rfl, fun _ => rfl⟩

/-- How a request ends. -/
def outcome (s : TuntermAclMain FibPath) : AclEvent ApiPath → Outcome FibPath
  | .addReplace mp env => (tuntermAclAddReplace up s mp env).1
  | .del t => tuntermAclDel s t
  | .interfaceAddDel isAdd i t fails => tuntermAclInterfaceAddDel s isAdd i t fails
  | _ => ⟨none, s, true⟩

/-- A request that names no live ACL is answered with an error, changes nothing, and stays
inside `classify_table_index_is_v6`. -/
def RefusesStray (w : AclWorld FibPath) (e : AclEvent ApiPath) : Prop :=
  ¬ NamesLive w e → (outcome up w.main e).rv ≠ none ∧ SameState w.main (outcome up w.main e).main ∧
    (outcome up w.main e).inBounds = true

/-- The requests that name no live ACL and run into one of the checks. -/
def StrayChecked (w : AclWorld FibPath) (e : AclEvent ApiPath) : Prop :=
  ¬ NamesLive w e →
  match e with
  | .addReplace mp _ => mp.r.length < mp.count ∨
      ∃ rule rest, mp.r.take mp.count = rule :: rest ∧
        mp.tuntermAclIndex < w.main.classifyTableIndexIsV6.length ∧
        (mp.isIpv6 = true ∨ ruleError up mp.isIpv6 rule none ≠ none)
  | .del t => t = invalidIndex
  | .interfaceAddDel isAdd i t _ => t = invalidIndex ∨ w.main.swInterfaces i = false ∨
      (isAdd = false ∧ t < w.main.classifyTableIndexIsV6.length)
  | _ => True

/-! ## The invariant -/

/-- Only live ACLs have redirect entries, slots and the IPv6 mark. -/
structure OnlyLive (w : AclWorld FibPath) : Prop where
  inv : AclInv w
  slot : ∀ f i, w.main.slot f i = invalidIndex ∨ w.live (w.main.slot f i) ≠ none
  entry : ∀ k t, w.main.redirect.HasEntry k t → w.live t ≠ none
  family : ∀ t, w.main.classifyTableIndexIsV6[t]? = some true → w.live t ≠ none

variable {w : AclWorld FibPath}

theorem OnlyLive.of_sameState (h : OnlyLive w) {w' : AclWorld FibPath} (hinv : AclInv w')
    (hs : SameState w.main w'.main) (hlive : w'.live = w.live) : OnlyLive w' := by
  refine ⟨hinv, ?_, ?_, ?_⟩
  · rw [hlive]
    intro f i
    rw [hs.slot]
    exact h.slot f i
  · rw [hlive, hs.redirect]
    exact h.entry
  · rw [hlive, hs.family]
    exact h.family

/-- A slot that is in use holds no index but that of a live ACL. -/
theorem OnlyLive.slot_ne (h : OnlyLive w) {t : ℕ} (ht : w.live t = none) (hidx : t ≠ invalidIndex)
    (f : Bool) (i : ℕ) : w.main.slot f i ≠ t := by
  rintro rfl
  exact (h.slot f i).elim hidx fun hne => hne ht

/-- For an index that is not live there is nothing to clear. -/
theorem OnlyLive.clear_eq (h : OnlyLive w) {t : ℕ} (ht : w.live t = none) :
    tuntermAclRedirectClear w.main.redirect t = (none, w.main.redirect) := by
  have hnil : w.main.redirect.entriesOf t = [] := by
    apply List.eq_nil_iff_forall_not_mem.2
    intro i hi
    obtain ⟨ipr, hipr, hit⟩ := SlotPool.mem_indices.1 hi
    exact h.entry ipr.matchBytes t
      (h.inv.linked.hasEntry_iff.2 ⟨i, ipr, hipr, rfl, of_decide_eq_true hit⟩) ht
  rw [tuntermAclRedirectClear, hnil]
  rfl

/-- The family that is read for an index that is not live. -/
theorem OnlyLive.family_eq (h : OnlyLive w) {t : ℕ} (ht : w.live t = none) :
    w.main.classifyTableIndexIsV6[t]?.getD false = false := by
  cases hf : w.main.classifyTableIndexIsV6[t]? with
  | none => rfl
  | some f =>
    cases f with
    | false => rfl
    | true => exact absurd ht (h.family t hf)

/-! ## The checks, handler by handler -/

/-- Rules for an index without entries: nothing is left exactly if the first rule is
rejected before its entry is made. -/
theorem addRules_unchanged_iff {m : RedirectMain FibPath} (hm : m.Linked) {t : ℕ}
    (hno : ∀ k, ¬ m.HasEntry k t) (isIpv6 : Bool) (fails : ℕ → Option ApiError)
    (rule : TuntermAclRule ApiPath) (rules : List (TuntermAclRule ApiPath)) :
    ((addRules up isIpv6 t fails 0 (rule :: rules) m).1 ≠ none ∧
      (addRules up isIpv6 t fails 0 (rule :: rules) m).2 = m) ↔
      ruleError up isIpv6 rule none ≠ none := by
  -- an accepted rule leaves an entry, whether or not its session can be added
  have hrule : ruleError up isIpv6 rule none = none →
      (addRule up isIpv6 t m rule (fails 0)).2.HasEntry (ruleKey isIpv6 rule) t := by
    unfold ruleError addRule
    cases up.fibApiPathDecode rule.path with
    | error rv => intro h; cases h
    | ok path =>
      by_cases haf : (if isIpv6 then 1 else 0) ≠ rule.dst.af
      · simp only [if_pos haf]
        intro h
        cases h
      · simp only [if_neg haf]
        intro _
        exact (hasEntry_redirectAdd up m t isIpv6 _ path (fails 0) _ t).2 (Or.inl ⟨rfl, rfl⟩)
  have hreject : ruleError up isIpv6 rule none ≠ none →
      ∃ e, addRule up isIpv6 t m rule (fails 0) = (some e, m) := by
    unfold ruleError addRule
    cases up.fibApiPathDecode rule.path with
    | error rv => intro _; exact ⟨rv, rfl⟩
    | ok path =>
      by_cases haf : (if isIpv6 then 1 else 0) ≠ rule.dst.af
      · simp only [if_pos haf]
        exact fun _ => ⟨_, rfl⟩
      · simp only [if_neg haf]
        exact fun h => absurd rfl h
  constructor
  · -- the entry of an accepted first rule would still be there
    rintro ⟨-, hm'⟩ hnone
    have hstep := addRule_addsTo up hm isIpv6 t rule (fails 0)
    have hentry := hrule hnone
    rw [addRules] at hm'
    generalize addRule up isIpv6 t m rule (fails 0) = out at hstep hentry hm'
    obtain ⟨rv, m'⟩ := out
    refine hno (ruleKey isIpv6 rule) ?_
    cases rv with
    | some e =>
      obtain rfl : m' = m := hm'
      exact hentry
    | none =>
      have hkeep := (addRules_addsTo up isIpv6 t fails rules 1 hstep.linked).keeps _ hentry
      rwa [show (addRules up isIpv6 t fails 1 rules m').2 = m from hm'] at hkeep
  · intro hne
    obtain ⟨e, he⟩ := hreject hne
    rw [addRules, he]
    exact ⟨by simp, rfl⟩

/-- The part of `tunterm_acl_add_replace` behind the first check. -/
theorem OnlyLive.updateSessions_iff (h : OnlyLive w) {t : ℕ} (hlive : w.live t = none)
    (isIpv6 : Bool) (rules : List (TuntermAclRule ApiPath)) (fails : ℕ → Option ApiError) :
    ((updateSessions up w.main isIpv6 rules t fails).rv ≠ none ∧
      SameState w.main (updateSessions up w.main isIpv6 rules t fails).main ∧
      (updateSessions up w.main isIpv6 rules t fails).inBounds = true) ↔
    ∃ rule rest, rules = rule :: rest ∧ t < w.main.classifyTableIndexIsV6.length ∧
      (isIpv6 = true ∨ ruleError up isIpv6 rule none ≠ none) := by
  have hclear := h.clear_eq hlive
  unfold updateSessions
  cases rules with
  | nil =>
    -- without rules the request succeeds
    simp only [List.isEmpty_nil, Bool.not_true, Bool.false_and, Bool.false_eq_true, if_false,
      hclear, addRules]
    refine iff_of_false (fun hno => hno.1 rfl) ?_
    rintro ⟨rule, rest, hnil, -⟩
    cases hnil
  | cons rule rest =>
    have hin : w.main.classifyTableIndexIsV6[t]?.isSome = true ↔
        t < w.main.classifyTableIndexIsV6.length := by simp
    simp only [List.isEmpty_cons, Bool.not_false, Bool.true_and, h.family_eq hlive, Bool.false_or]
    cases isIpv6 with
    | true =>
      simp only [ne_eq, Bool.false_eq_true, not_false_eq_true, decide_true, if_true]
      constructor
      · rintro ⟨-, -, hlt⟩
        exact ⟨rule, rest, rfl, hin.1 hlt, Or.inl trivial⟩
      · rintro ⟨-, -, -, hlt, -⟩
        exact ⟨by simp, .refl _, hin.2 hlt⟩
    | false =>
      have hno : ∀ k, ¬ w.main.redirect.HasEntry k t := fun k hk => h.entry k t hk hlive
      have hiff := addRules_unchanged_iff up h.inv.linked hno false fails rule rest
      simp only [ne_eq, not_true_eq_false, decide_false, Bool.false_eq_true, if_false, hclear]
      generalize addRules up false t fails 0 (rule :: rest) w.main.redirect = out at hiff
      obtain ⟨rv, m⟩ := out
      constructor
      · rintro ⟨hrv, hsame, hlt⟩
        exact ⟨rule, rest, rfl, hin.1 hlt, Or.inr (hiff.1 ⟨hrv, hsame.redirect⟩)⟩
      · rintro ⟨rule', rest', hcons, hlt, herr⟩
        obtain ⟨rfl, rfl⟩ := List.cons.inj hcons
        obtain ⟨hrv, hm⟩ := hiff.2 (herr.resolve_left (by simp))
        obtain rfl : m = w.main.redirect := hm
        exact ⟨hrv, .refl _, hin.2 hlt⟩

/-- `tunterm_acl_add_replace` for an index that is not live. -/
theorem OnlyLive.addReplace_iff (h : OnlyLive w) {mp : AddReplace ApiPath} {env : AddReplaceEnv}
    (hidx : mp.tuntermAclIndex ≠ invalidIndex) (hlive : w.live mp.tuntermAclIndex = none) :
    ((tuntermAclAddReplace up w.main mp env).1.rv ≠ none ∧
      SameState w.main (tuntermAclAddReplace up w.main mp env).1.main ∧
      (tuntermAclAddReplace up w.main mp env).1.inBounds = true) ↔
    (mp.r.length < mp.count ∨ ∃ rule rest, mp.r.take mp.count = rule :: rest ∧
      mp.tuntermAclIndex < w.main.classifyTableIndexIsV6.length ∧
      (mp.isIpv6 = true ∨ ruleError up mp.isIpv6 rule none ≠ none)) := by
  by_cases hshort : mp.r.length < mp.count
  · rw [tuntermAclAddReplace, if_pos hshort]
    exact iff_of_true ⟨by simp, .refl _, rfl⟩ (Or.inl hshort)
  · rw [tuntermAclAddReplace, if_neg hshort, updateClassifyTableAndSessions, if_neg hidx,
      or_iff_right hshort]
    exact h.updateSessions_iff up hlive mp.isIpv6 (mp.r.take mp.count) env.sessionFails

/-- `tunterm_acl_del` for an index that is not live. -/
theorem OnlyLive.del_iff (h : OnlyLive w) {t : ℕ} (hlive : w.live t = none) :
    ((tuntermAclDel w.main t).rv ≠ none ∧ SameState w.main (tuntermAclDel w.main t).main ∧
      (tuntermAclDel w.main t).inBounds = true) ↔ t = invalidIndex := by
  unfold tuntermAclDel
  by_cases hidx : t = invalidIndex
  · rw [if_pos hidx]
    exact iff_of_true ⟨by simp, .refl _, rfl⟩ hidx
  · have hnot : ∀ f, t ∉ w.main.slots f := by
      intro f hmem
      obtain ⟨i, hi⟩ := exists_slot hmem
      exact h.slot_ne hlive hidx f i hi
    rw [if_neg hidx, if_neg (show t ∉ w.main.classifyTableIndexBySwIfIndexV4 from hnot false),
      if_neg (show t ∉ w.main.classifyTableIndexBySwIfIndexV6 from hnot true), h.clear_eq hlive]
    exact iff_of_false (fun hno => hno.1 rfl) hidx

/-- `tunterm_acl_interface_add_del` for an index that is not live. -/
theorem OnlyLive.interfaceAddDel_iff (h : OnlyLive w) {t : ℕ} (hlive : w.live t = none)
    (isAdd : Bool) (i : ℕ) (fails : Option ApiError) :
    ((tuntermAclInterfaceAddDel w.main isAdd i t fails).rv ≠ none ∧
      SameState w.main (tuntermAclInterfaceAddDel w.main isAdd i t fails).main ∧
      (tuntermAclInterfaceAddDel w.main isAdd i t fails).inBounds = true) ↔
    (t = invalidIndex ∨ w.main.swInterfaces i = false ∨
      (isAdd = false ∧ t < w.main.classifyTableIndexIsV6.length)) := by
  have hframe := interfaceAddDel_frame w.main isAdd i t fails
  have hbounds : t ≠ invalidIndex → w.main.swInterfaces i = true →
      ((tuntermAclInterfaceAddDel w.main isAdd i t fails).inBounds = true ↔
        t < w.main.classifyTableIndexIsV6.length) := by
    intro hidx hi
    unfold tuntermAclInterfaceAddDel
    simp [hidx, hi, TuntermAclMain.validateSlots]
  by_cases hidx : t = invalidIndex
  · rw [tuntermAclInterfaceAddDel, if_pos hidx]
    exact iff_of_true ⟨by simp, .refl _, rfl⟩ (Or.inl hidx)
  · cases hi : w.main.swInterfaces i with
    | false =>
      refine iff_of_true ?_ (Or.inr (Or.inl rfl))
      simp only [tuntermAclInterfaceAddDel, if_neg hidx, hi, Bool.not_false, if_true]
      exact ⟨by simp, .refl _, trivial⟩
    | true =>
      have hin := hbounds hidx hi
      have hne := h.slot_ne hlive hidx
      simp only [hidx, Bool.true_eq_false, false_or]
      rcases interfaceAddDel_cases w.main isAdd i t fails with
        ⟨-, -, hwhy⟩ | ⟨-, -, hfr, -, ⟨hadd, hatt⟩ | ⟨hadd, hrv, href, -⟩ | ⟨-, -, hslot, -⟩⟩
      · rw [hi] at hwhy
        exact absurd hwhy (by simp [hidx])
      · -- the slot has been set
        refine iff_of_false ?_ (by simp [hadd])
        rintro ⟨-, hsame, -⟩
        have hslot := hatt.slot (w.main.classifyTableIndexIsV6[t]?.getD false) i
        rw [hsame.slot, if_pos ⟨rfl, rfl⟩] at hslot
        exact hne _ _ hslot
      · rw [hin]
        exact ⟨fun hall => ⟨hadd, hall.2.2⟩, fun hall =>
          ⟨hrv, ⟨hframe.1, hframe.2, href.slot, hfr.swInterfaces, href.count⟩, hall.2⟩⟩
      · rcases hslot with hslot | hslot
        · exact absurd hslot.symm (hne false i)
        · exact absurd hslot.symm (hne true i)

/-- **The requests that name no live ACL and are refused are those that are checked.** -/
theorem OnlyLive.refusesStray_iff (h : OnlyLive w) (e : AclEvent ApiPath) :
    RefusesStray up w e ↔ StrayChecked up w e := by
  unfold RefusesStray StrayChecked
  refine imp_congr_right fun hstray => ?_
  cases e with
  | addReplace mp env =>
    simp only [NamesLive, Classical.not_imp, not_not] at hstray
    exact h.addReplace_iff up hstray.1 hstray.2
  | del t => exact h.del_iff (not_not.1 hstray)
  | interfaceAddDel isAdd i t fails => exact h.interfaceAddDel_iff (not_not.1 hstray) isAdd i fails
  | otherTable i t => exact absurd trivial hstray
  | createInterface i => exact absurd trivial hstray
  | deleteInterface i => exact absurd trivial hstray

/-! ## Runs -/

/-- A refused request keeps the invariant. -/
theorem OnlyLive.of_refused (h : OnlyLive w) {e : AclEvent ApiPath} (hadm : Admissible w e)
    (hstray : ¬ NamesLive w e) (href : RefusesStray up w e) : OnlyLive (aclStep up w e) := by
  have hinv := aclInv_step up h.inv hadm
  obtain ⟨hrv, hsame, -⟩ := href hstray
  cases e with
  | addReplace mp env =>
    simp only [NamesLive, Classical.not_imp] at hstray
    refine h.of_sameState hinv hsame ?_
    simp only [aclStep, AddReplace.created, if_pos (Or.inr hstray.1)]
    rfl
  | del t =>
    refine h.of_sameState hinv hsame ?_
    simp only [aclStep]
    exact if_neg hrv
  | interfaceAddDel isAdd i t fails => exact h.of_sameState hinv hsame rfl
  | otherTable i t => exact absurd trivial hstray
  | createInterface i => exact absurd trivial hstray
  | deleteInterface i => exact absurd trivial hstray

/-- Only a new IPv6 table gets the IPv6 mark. -/
theorem addTable_family_true {s : TuntermAclMain FibPath} {isIpv6 : Bool} {i t : ℕ}
    (h : (s.addTable isIpv6 i).classifyTableIndexIsV6[t]? = some true) :
    t = i ∨ s.classifyTableIndexIsV6[t]? = some true := by
  by_cases hti : t = i
  · exact Or.inl hti
  · unfold TuntermAclMain.addTable vecValidateInitEmpty at h
    simp only [List.getElem?_set_ne (Ne.symm hti), List.getElem?_append, List.getElem?_replicate]
      at h
    by_cases hlt : t < s.classifyTableIndexIsV6.length
    · rw [if_pos hlt] at h
      exact Or.inr h
    · rw [if_neg hlt] at h
      split at h <;> cases h

/-- A request on the table of a live ACL keeps the invariant. -/
theorem OnlyLive.updateSessions (h : OnlyLive w) {t : ℕ} (ht : w.live t ≠ none) (isIpv6 : Bool)
    (rules : List (TuntermAclRule ApiPath)) (fails : ℕ → Option ApiError) :
    OnlyLive { w with main := (updateSessions up w.main isIpv6 rules t fails).main } := by
  have hinv := h.inv.updateSessions up isIpv6 rules t fails
  obtain ⟨m, hm, -, honly⟩ := updateSessions_redirect up h.inv.linked isIpv6 rules t fails
  rw [hm] at hinv ⊢
  refine ⟨hinv, h.slot, ?_, h.family⟩
  intro k j hk
  by_cases hj : j = t
  · rw [hj]
    exact ht
  · exact h.entry k j ((honly.entries k j hj).1 hk)

/-- A new table keeps the invariant. -/
theorem OnlyLive.addTable (h : OnlyLive w) (isIpv6 : Bool) {i : ℕ}
    (hfree : w.main.redirect.tables i = none) (hi : i < invalidIndex) :
    OnlyLive ⟨w.main.addTable isIpv6 i, Function.update w.live i (some isIpv6)⟩ := by
  have hmono : ∀ j, w.live j ≠ none → Function.update w.live i (some isIpv6) j ≠ none := by
    intro j hj
    by_cases hji : j = i
    · rw [hji, Function.update_self]
      simp
    · rwa [Function.update_of_ne hji]
  refine ⟨h.inv.addTable isIpv6 hfree hi, ?_, ?_, ?_⟩
  · intro f j
    exact (h.slot f j).imp_right (hmono _)
  · intro k j hk
    exact hmono j (h.entry k j hk)
  · intro j hj
    rcases addTable_family_true hj with rfl | hj
    · simp
    · exact hmono j (h.family j hj)

/-- A delete of a live ACL keeps the invariant. -/
theorem OnlyLive.del (h : OnlyLive w) {t : ℕ} (ht : w.live t ≠ none) :
    OnlyLive (aclStep up w (.del t : AclEvent ApiPath)) := by
  have hinv := h.inv.del up t
  have hc := clear_clearsIn h.inv.linked t
  rcases tuntermAclDel_cases w.main t with ⟨hrv, hs⟩ | ⟨hrv, hs⟩ | ⟨hidx, h4, h6, hclear, hrv, hs⟩
  · simp only [aclStep, if_neg hrv, hs]
    exact h
  · simp only [aclStep, if_neg hrv, hs] at hinv ⊢
    refine ⟨hinv, h.slot, ?_, h.family⟩
    intro k j hk
    by_cases hj : j = t
    · rw [hj]
      exact ht
    · exact h.entry k j ((hc.only.entries k j hj).1 hk)
  · simp only [aclStep, if_pos hrv, hs] at hinv ⊢
    refine ⟨hinv, ?_, ?_, ?_⟩
    · intro f i
      refine (h.slot f i).imp_right fun hlive => ?_
      have hne : w.main.slot f i ≠ t := by
        -- an ACL in a slot is in one of the arrays
        intro hslot
        have hmem := mem_slots hslot hidx
        cases f with
        | false => exact h4 hmem
        | true => exact h6 hmem
      show Function.update w.live t none (w.main.slot f i) ≠ none
      rwa [Function.update_of_ne hne]
    · intro k j hk
      have hj : j ≠ t := by
        rintro rfl
        exact clear_no_entry h.inv.linked hclear k hk
      show Function.update w.live t none j ≠ none
      rw [Function.update_of_ne hj]
      exact h.entry k j ((hc.only.entries k j hj).1 hk)
    · intro j hj
      have hne : j ≠ t := by
        rintro rfl
        rw [List.getElem?_set, if_pos rfl] at hj
        split at hj <;> cases hj
      show Function.update w.live t none j ≠ none
      rw [Function.update_of_ne hne]
      exact h.family j (by rwa [List.getElem?_set_ne (Ne.symm hne)] at hj)

/-- **A step keeps the invariant if its request, should it name no live ACL, is refused.** -/
theorem onlyLive_step (h : OnlyLive w) {e : AclEvent ApiPath} (hadm : Admissible w e)
    (href : RefusesStray up w e) : OnlyLive (aclStep up w e) := by
  by_cases hnames : NamesLive w e
  · cases e with
    | addReplace mp env =>
      rcases addReplace_cases up w.main mp env with
        ⟨-, hs, hnone, -⟩ | ⟨i, -, -, -, hsome, hs⟩ | ⟨-, hidx, hnone, hs⟩
      · simp only [aclStep, hs, hnone]
        exact h
      · obtain ⟨hfree, hi⟩ := hadm i hsome
        simp only [aclStep, hs, hsome]
        exact (h.addTable mp.isIpv6 hfree hi).updateSessions up (by simp) mp.isIpv6 _ _
      · simp only [aclStep, hs, hnone]
        exact h.updateSessions up (hnames hidx) mp.isIpv6 _ _
    | del t => exact h.del up hnames
    | interfaceAddDel isAdd i t fails =>
      have hinv := aclInv_step up h.inv hadm
      obtain ⟨hred, hv6⟩ := interfaceAddDel_frame w.main isAdd i t fails
      refine ⟨hinv, ?_, hred ▸ h.entry, hv6 ▸ h.family⟩
      intro f j
      simp only [aclStep]
      rcases interfaceAddDel_cases w.main isAdd i t fails with
        ⟨-, hs, -⟩ | ⟨-, -, -, -, ⟨-, hatt⟩ | ⟨-, -, href, -⟩ | ⟨-, -, -, hdet⟩⟩
      · rw [hs]
        exact h.slot f j
      · rw [hatt.slot]
        split
        · exact Or.inr hnames
        · exact h.slot f j
      · rw [href.slot]
        exact h.slot f j
      · rw [hdet.slot]
        split
        · exact Or.inl rfl
        · exact h.slot f j
    | otherTable i t => exact ⟨aclInv_step up h.inv hadm, h.slot, h.entry, h.family⟩
    | createInterface i => exact ⟨aclInv_step up h.inv hadm, h.slot, h.entry, h.family⟩
    | deleteInterface i => exact ⟨aclInv_step up h.inv hadm, h.slot, h.entry, h.family⟩
  · -- a request that names no live ACL is refused, by `href`
    exact h.of_refused up hadm hnames href

/-- Before the first request. -/
theorem onlyLive_init (tables : ℕ → Option ClassifyTable) :
    OnlyLive (AclWorld.init tables : AclWorld FibPath) := by
  refine ⟨aclInv_init tables, ?_, ?_, ?_⟩
  · intro f i
    exact Or.inl (slot_init tables f i)
  · intro k t hk
    exact absurd rfl hk
  · intro t ht
    cases ht

/-- **Only live ACLs can be named in a run exactly if its other requests run into the
checks.** -/
theorem only_live_named_iff (tables : ℕ → Option ClassifyTable) {es : List (AclEvent ApiPath)}
    (hadm : Allowed (aclStep up) Admissible (AclWorld.init tables) es) :
    Allowed (aclStep up) (RefusesStray up) (AclWorld.init tables) es ↔
      Allowed (aclStep up) (StrayChecked up) (AclWorld.init tables) es := by
  refine allowed_iff_of_invariant (aclStep up) Admissible OnlyLive ?_ ?_ (onlyLive_init tables) hadm
  · intro w e h _
    exact h.refusesStray_iff up e
  · intro w e h hadm hchecked
    exact onlyLive_step up h hadm ((h.refusesStray_iff up e).2 hchecked)

end Indices

/-- Another user of the classifier has created table 3. -/
def otherUserRun (e : AclEvent (Option ℕ)) : List (AclEvent (Option ℕ)) :=
  [.otherTable 3 (some ⟨[], fun _ => none⟩), e]

/-- `tunterm_acl_del` deletes the table of the other user. -/
theorem del_of_other_table :
    Allowed (aclStep plainFib) Admissible (AclWorld.init fun _ => none) (otherUserRun (.del 3)) ∧
      (run (aclStep plainFib) (AclWorld.init fun _ => none)
        (otherUserRun (.del 3))).main.redirect.tables 3 = none ∧
      ¬ Allowed (aclStep plainFib) (RefusesStray plainFib) (AclWorld.init fun _ => none)
        (otherUserRun (.del 3)) := by
  refine ⟨⟨rfl, trivial, trivial⟩, rfl, ?_⟩
  rintro ⟨-, href, -⟩
  exact (href fun h => h rfl).1 rfl

/-- Table 3 is of another user and 5 is a live ACL; a rule without a path for the first, and its
removal from an interface. -/
def strayRun : List (AclEvent (Option ℕ)) :=
  [.createInterface 1, .otherTable 3 (some ⟨[], fun _ => none⟩),
    .addReplace ⟨invalidIndex, false, 1, [⟨⟨0, [10, 0, 0, 1]⟩, some 7⟩]⟩ ⟨.ok 5, fun _ => none⟩,
    .addReplace ⟨3, false, 1, [⟨⟨0, [10, 0, 0, 1]⟩, none⟩]⟩ ⟨.ok 6, fun _ => none⟩,
    .interfaceAddDel false 1 3 none]

/-- Both requests for it come to the checks of the index and of what is behind it. -/
theorem only_live_named_stray :
    Allowed (aclStep plainFib) (RefusesStray plainFib) (AclWorld.init fun _ => none) strayRun := by
  have hadm : Allowed (aclStep plainFib) Admissible (AclWorld.init fun _ => none) strayRun := by
    refine ⟨rfl, rfl, ?_, ?_, trivial, trivial⟩
    · rintro i hi
      cases hi
      exact ⟨rfl, by decide⟩
    · rintro i hi
      cases hi
  refine (only_live_named_iff plainFib (fun _ => none) hadm).2 ⟨?_, ?_, ?_, ?_, ?_, trivial⟩
  · exact fun _ => trivial
  · exact fun _ => trivial
  · exact fun h => absurd (fun hne => absurd rfl hne) h
  · intro _
    exact Or.inr ⟨_, _, rfl, by decide, Or.inr (by decide)⟩
  · intro _
    exact Or.inr (Or.inr ⟨rfl, by decide⟩)

end TuntermAcl
