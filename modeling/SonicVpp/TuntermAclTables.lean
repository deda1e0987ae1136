/-
# The tables of live ACLs

`TableOk` holds of the table of a live ACL in every reachable state: it has the mask of
the family, and no session without a redirect entry behind it.  The reverse may fail: a
session that VPP could not add leaves an entry without one, and an entry left behind by a
request that named no live ACL may come to belong to a new table of the same index.  An
entry without a session is where `tunterm_acl_redirect_clear` gets stuck.

`aclInv_run` gives the invariant for every run of the plugin, with requests that fail and
requests that name no live ACL.
-/
import SonicVpp.TuntermAclSessions

open LastWrite RunInvariant

namespace TuntermAcl

section Tables

variable {ApiPath FibPath : Type} (up : Upstream ApiPath FibPath) {m m' : RedirectMain FibPath}
  {t : ℕ} {f : Bool} {T : ClassifyTable}

/-! ## The table of a live ACL -/

/-- The table `T` of a live ACL of family `f`.  Entries left behind by others, which need
not have the form of a match, are there only while the table has no session. -/
structure TableOk (m : RedirectMain FibPath) (t : ℕ) (f : Bool) (T : ClassifyTable) : Prop where
  table : m.tables t = some T
  mask : T.mask = tableMask f
  entry : ∀ k, T.sessions k ≠ none → m.HasEntry k t
  canonical : (∀ k, m.HasEntry k t → ∃ un, k = matchOf f un) ∨ ∀ k, T.sessions k = none
  plain : ∀ k e, T.sessions k = some e → e.action = .setMetadata ∧ e.opaqueIndex = 0

/-- Changes to another table do not matter. -/
theorem TableOk.of_onlyTable (h : TableOk m t f T) {j : ℕ} (hj : t ≠ j)
    (ho : OnlyTable j m m') : TableOk m' t f T where
  table := (ho.tables t hj).trans h.table
  mask := h.mask
  entry := fun k hk => (ho.entries k t hj).2 (h.entry k hk)
  canonical := h.canonical.imp_left fun hc k hk => hc k ((ho.entries k t hj).1 hk)
  plain := h.plain

/-- A match of the family is its own key. -/
theorem TableOk.masked_matchOf (h : TableOk m t f T) (un : List (BitVec 8)) :
    T.masked (matchOf f un) = matchOf f un := by
  rw [ClassifyTable.masked, h.mask]
  exact mask_matchOf f un

/-- The keys of sessions are matches. -/
theorem TableOk.key (h : TableOk m t f T) {k : List (BitVec 8)} (hk : T.sessions k ≠ none) :
    ∃ un, k = matchOf f un := by
  rcases h.canonical with hc | hnone
  · exact hc k (h.entry k hk)
  · exact absurd (hnone k) hk

/-- An entry has its session. -/
def HasSession (T : ClassifyTable) (ipr : TuntermAclRedirect FibPath) : Prop :=
  T.sessions (T.masked ipr.matchBytes) ≠ none

/-- With a session in the table, all entries have the form of a match. -/
theorem TableOk.masked_eq (h : TableOk m t f T) {ipr ipr' : TuntermAclRedirect FibPath}
    (hs : HasSession T ipr) {i : ℕ} (hm : m.Linked) (hi : m.pool.elt i = some ipr')
    (ht : ipr'.tableIndex = t) : T.masked ipr'.matchBytes = ipr'.matchBytes := by
  rcases h.canonical with hc | hnone
  · obtain ⟨un, hun⟩ := hc _ (hm.hasEntry_iff.2 ⟨i, ipr', hi, rfl, ht⟩)
    rw [hun]
    exact h.masked_matchOf un
  · exact absurd (hnone _) hs

/-! ## Clearing the table -/

/-- The table without the session for `k`. -/
def ClassifyTable.without (T : ClassifyTable) (k : List (BitVec 8)) : ClassifyTable :=
  { T with sessions := Function.update T.sessions k none }

@[simp] theorem without_masked (T : ClassifyTable) (k bytes : List (BitVec 8)) :
    (T.without k).masked bytes = T.masked bytes := rfl

theorem without_self (T : ClassifyTable) (k : List (BitVec 8)) :
    (T.without k).sessions k = none := Function.update_self _ _ _

theorem without_of_ne (T : ClassifyTable) {k k' : List (BitVec 8)} (hk : k' ≠ k) :
    (T.without k).sessions k' = T.sessions k' := Function.update_of_ne hk _ _

/-- The entries of the list have their sessions, each one of its own. -/
structure Sessioned (m : RedirectMain FibPath) (T : ClassifyTable) (is : List ℕ) : Prop where
  session : ∀ i ∈ is, ∀ ipr, m.pool.elt i = some ipr → HasSession T ipr
  apart : ∀ i ∈ is, ∀ j ∈ is, ∀ ipr ipr', m.pool.elt i = some ipr → m.pool.elt j = some ipr' →
    T.masked ipr.matchBytes = T.masked ipr'.matchBytes → i = j

/-- One entry and the others, when the session of the one is gone. -/
theorem sessioned_cons (m' : RedirectMain FibPath) {i : ℕ} {is : List ℕ}
    {ipr : TuntermAclRedirect FibPath} (hi : m.pool.elt i = some ipr) (hnot : i ∉ is)
    (hpool : ∀ j, j ≠ i → m'.pool.elt j = m.pool.elt j) :
    Sessioned m T (i :: is) ↔
      HasSession T ipr ∧ Sessioned m' (T.without (T.masked ipr.matchBytes)) is := by
  have hne : ∀ j ∈ is, j ≠ i := fun j hj hji => hnot (hji ▸ hj)
  -- the sessions that are left are those under other keys
  have hleft : ∀ ipr' : TuntermAclRedirect FibPath, HasSession (T.without (T.masked ipr.matchBytes)) ipr' ↔
      HasSession T ipr' ∧ T.masked ipr'.matchBytes ≠ T.masked ipr.matchBytes := by
    intro ipr'
    unfold HasSession
    rw [without_masked]
    by_cases hk : T.masked ipr'.matchBytes = T.masked ipr.matchBytes
    · rw [hk, without_self]
      simp
    · rw [without_of_ne T hk]
      simp [hk]
  constructor
  · intro h
    refine ⟨h.session i List.mem_cons_self ipr hi, ?_, ?_⟩
    · intro j hj ipr' hj'
      rw [hpool j (hne j hj)] at hj'
      refine (hleft ipr').2 ⟨h.session j (List.mem_cons_of_mem i hj) ipr' hj', fun hk => ?_⟩
      exact hne j hj (h.apart j (List.mem_cons_of_mem i hj) i List.mem_cons_self ipr' ipr hj' hi hk)
    · intro j hj l hl ipr' ipr'' hj' hl' hk
      rw [hpool j (hne j hj)] at hj'
      rw [hpool l (hne l hl)] at hl'
      exact h.apart j (List.mem_cons_of_mem i hj) l (List.mem_cons_of_mem i hl) ipr' ipr'' hj' hl' hk
  · rintro ⟨hs, h⟩
    have hothers : ∀ j ∈ is, ∀ ipr', m.pool.elt j = some ipr' →
        HasSession T ipr' ∧ T.masked ipr'.matchBytes ≠ T.masked ipr.matchBytes := by
      intro j hj ipr' hj'
      exact (hleft ipr').1 (h.session j hj ipr' ((hpool j (hne j hj)).trans hj'))
    refine ⟨?_, ?_⟩
    · intro j hj ipr' hj'
      rcases List.mem_cons.1 hj with rfl | hj
      · obtain rfl := Option.some.inj (hi.symm.trans hj')
        exact hs
      · exact (hothers j hj ipr' hj').1
    · intro j hjs l hls ipr' ipr'' hj' hl' hk
      rcases List.mem_cons.1 hjs with rfl | hj
      · rcases List.mem_cons.1 hls with rfl | hl
        · rfl
        · obtain rfl := Option.some.inj (hi.symm.trans hj')
          exact absurd hk.symm (hothers l hl ipr'' hl').2
      · rcases List.mem_cons.1 hls with rfl | hl
        · obtain rfl := Option.some.inj (hi.symm.trans hl')
          exact absurd hk (hothers j hj ipr' hj').2
        · exact h.apart j hj l hl ipr' ipr'' ((hpool j (hne j hj)).trans hj')
            ((hpool l (hne l hl)).trans hl') hk

/-- **The loop ends well if and only if its entries have their sessions, each one of its own.** -/
theorem clearLoop_rv_iff (is : List ℕ) :
    ∀ {m : RedirectMain FibPath} {T : ClassifyTable}, m.tables t = some T → EntriesIn m t is →
      is.Nodup → ((clearLoop is m).1 = none ↔ Sessioned m T is) := by
  induction is with
  | nil =>
    intro m T _ _ _
    refine iff_of_true rfl ⟨?_, ?_⟩
    · intro i hi
      cases hi
    · intro i hi
      cases hi
  | cons i is ih =>
    intro m T ht hin hnd
    have htail : EntriesIn m t is := fun j hj => hin j (List.mem_cons_of_mem i hj)
    obtain ⟨hnot, hnd⟩ := List.nodup_cons.1 hnd
    rw [clearLoop]
    cases hi : m.pool.elt i with
    | none =>
      rw [ih ht htail hnd]
      constructor
      · intro h
        refine ⟨?_, ?_⟩
        · intro j hj ipr hj'
          rcases List.mem_cons.1 hj with rfl | hj
          · rw [hi] at hj'
            cases hj'
          · exact h.session j hj ipr hj'
        · intro j hj l hl ipr ipr' hj' hl' hk
          rcases List.mem_cons.1 hj with rfl | hj
          · rw [hi] at hj'
            cases hj'
          · rcases List.mem_cons.1 hl with rfl | hl
            · rw [hi] at hl'
              cases hl'
            · exact h.apart j hj l hl ipr ipr' hj' hl' hk
      · intro h
        exact ⟨fun j hj => h.session j (List.mem_cons_of_mem i hj),
          fun j hj l hl => h.apart j (List.mem_cons_of_mem i hj) l (List.mem_cons_of_mem i hl)⟩
    | some ipr =>
      have hti := hin i List.mem_cons_self ipr hi
      subst hti
      -- the loop stops here, or goes on without this entry and its session
      rcases delIpr_cases m i ipr with ⟨e, hdel, hno⟩ | ⟨T', hT', hs, hdel⟩
      · -- its session is missing
        simp only [hdel]
        refine iff_of_false (by simp) fun h => ?_
        exact h.session i List.mem_cons_self ipr hi (hno T ht)
      · obtain rfl := Option.some.inj (ht.symm.trans hT')
        have hpool : ∀ j, j ≠ i → (m.pool.clear i).elt j = m.pool.elt j := by
          intro j hj
          simp [SlotPool.elt_clear, hj]
        simp only [hdel]
        refine Iff.trans (ih (T := T.without (T.masked ipr.matchBytes)) (Function.update_self ..)
          ?_ hnd) ?_
        · intro j hj ipr' hj'
          have hji : j ≠ i := fun h => hnot (h ▸ hj)
          exact htail j hj ipr' ((hpool j hji).symm.trans hj')
        · refine ((sessioned_cons _ hi hnot ?_).trans (and_iff_right hs)).symm
          exact hpool

/-- Deleting an entry that has its session: the session goes, the others stay. -/
theorem TableOk.delIpr (h : TableOk m t f T) (hm : m.Linked) {i : ℕ}
    {ipr : TuntermAclRedirect FibPath} (hi : m.pool.elt i = some ipr) (ht : ipr.tableIndex = t)
    (hs : HasSession T ipr) :
    (tuntermAclRedirectDelIpr m i ipr).1 = none ∧
      (∀ j, j ≠ i → (tuntermAclRedirectDelIpr m i ipr).2.pool.elt j = m.pool.elt j) ∧
      TableOk (tuntermAclRedirectDelIpr m i ipr).2 t f (T.without ipr.matchBytes) := by
  -- the match of the entry is the key of its session
  have hmask := h.masked_eq hs hm hi ht
  have hc := delIpr_clearsIn hm hi ht
  subst ht
  rcases delIpr_cases m i ipr with ⟨e, -, hno⟩ | ⟨T', hT', -, hdel⟩
  · exact absurd (hno T h.table) hs
  · obtain rfl : T = T' := Option.some.inj (h.table.symm.trans hT')
    rw [hdel] at hc ⊢
    refine ⟨rfl, ?_, ?_⟩
    · intro j hj
      simp [SlotPool.elt_clear, hj]
    · refine ⟨?_, h.mask, ?_, ?_, ?_⟩
      · show Function.update m.tables ipr.tableIndex _ ipr.tableIndex = _
        rw [Function.update_self, hmask]
        rfl
      · intro k hk
        have hne : k ≠ ipr.matchBytes := by
          rintro rfl
          exact hk (without_self T _)
        have hkt : (k, ipr.tableIndex) ≠ (ipr.matchBytes, ipr.tableIndex) :=
          fun hkt => hne (Prod.mk.inj hkt).1
        rw [without_of_ne T hne] at hk
        show Function.update m.sessionByMatchAndTableIndex _ none (k, ipr.tableIndex) ≠ none
        rw [Function.update_of_ne hkt]
        exact h.entry k hk
      · refine Or.inl fun k hk => ?_
        rcases h.canonical with hcan | hnone
        · exact hcan k (hc.hasEntry hm hk)
        · exact absurd (hnone _) hs
      · intro k e hk
        by_cases hki : k = ipr.matchBytes
        · rw [hki, without_self] at hk
          cases hk
        · rw [without_of_ne T hki] at hk
          exact h.plain k e hk

/-- An entry without its session stops the loop. -/
theorem TableOk.delIpr_stuck (h : TableOk m t f T) {i : ℕ} {ipr : TuntermAclRedirect FibPath}
    (ht : ipr.tableIndex = t) (hs : ¬ HasSession T ipr) :
    ∃ e, tuntermAclRedirectDelIpr m i ipr = (some e, m) := by
  subst ht
  rcases delIpr_cases m i ipr with ⟨e, hdel, -⟩ | ⟨T', hT', hs', -⟩
  · exact ⟨e, hdel⟩
  · obtain rfl : T = T' := Option.some.inj (h.table.symm.trans hT')
    exact absurd hs' hs

/-- The sessions of one table are some of those of another. -/
def SessionsFrom (T T' : ClassifyTable) : Prop :=
  ∀ k, T'.sessions k = T.sessions k ∨ T'.sessions k = none

/-- The loop keeps the table fine, also if it stops half-way. -/
theorem TableOk.clearLoop (is : List ℕ) :
    ∀ {m : RedirectMain FibPath} {T : ClassifyTable}, m.Linked → TableOk m t f T →
      EntriesIn m t is → ∃ T', TableOk (clearLoop is m).2 t f T' ∧ SessionsFrom T T' := by
  induction is with
  | nil =>
    intro m T _ h _
    exact ⟨T, h, fun k => Or.inl rfl⟩
  | cons i is ih =>
    intro m T hm h hin
    have htail : EntriesIn m t is := fun j hj => hin j (List.mem_cons_of_mem i hj)
    rw [TuntermAcl.clearLoop]
    cases hi : m.pool.elt i with
    | none => exact ih hm h htail
    | some ipr =>
      have ht := hin i List.mem_cons_self ipr hi
      by_cases hs : HasSession T ipr
      · -- its session is deleted, and the loop goes on with what is left
        obtain ⟨hrv, -, hok⟩ := h.delIpr hm hi ht hs
        have hc := delIpr_clearsIn hm hi ht
        dsimp only
        generalize tuntermAclRedirectDelIpr m i ipr = out at hrv hok hc
        obtain ⟨rv, m'⟩ := out
        obtain rfl : rv = none := hrv
        obtain ⟨T', hT', hfrom⟩ := ih hc.linked hok (htail.clears hc)
        refine ⟨T', hT', ?_⟩
        intro k
        rcases hfrom k with hk | hk
        · by_cases hki : k = ipr.matchBytes
          · subst hki
            exact Or.inr (hk.trans (without_self T _))
          · exact Or.inl (hk.trans (without_of_ne T hki))
        · exact Or.inr hk
      · obtain ⟨e, hdel⟩ := h.delIpr_stuck (i := i) ht hs
        simp only [hdel]
        exact ⟨T, h, fun k => Or.inl rfl⟩

/-- In such a table no two entries share a session. -/
theorem TableOk.sessioned_iff (h : TableOk m t f T) (hm : m.Linked) {is : List ℕ}
    (hin : EntriesIn m t is) :
    Sessioned m T is ↔ ∀ i ∈ is, ∀ ipr, m.pool.elt i = some ipr → HasSession T ipr := by
  constructor
  · intro hs
    exact hs.session
  · intro hall
    refine ⟨hall, ?_⟩
    intro i hi j hj ipr ipr' hipr hipr' hk
    have hs := hall i hi ipr hipr
    have hti := hin i hi ipr hipr
    have htj := hin j hj ipr' hipr'
    rw [h.masked_eq hs hm hipr hti, h.masked_eq hs hm hipr' htj] at hk
    exact hm.index_eq hipr hipr' hk (hti.trans htj.symm)

/-- An entry of table `t` without its session. -/
def RedirectMain.Stuck (m : RedirectMain FibPath) (t : ℕ) (T : ClassifyTable) (i : ℕ) : Prop :=
  ∃ ipr, m.pool.elt i = some ipr ∧ ipr.tableIndex = t ∧ ¬ HasSession T ipr

/-- **A clear ends well if and only if no entry of the table is stuck.** -/
theorem TableOk.clear_rv_iff (h : TableOk m t f T) (hm : m.Linked) :
    (tuntermAclRedirectClear m t).1 = none ↔ ∀ i, ¬ m.Stuck t T i := by
  unfold tuntermAclRedirectClear
  have hin := entriesIn_entriesOf m t
  rw [clearLoop_rv_iff _ h.table hin (SlotPool.nodup_indices _ _), h.sessioned_iff hm hin]
  constructor
  · rintro hall i ⟨ipr, hi, ht, hs⟩
    exact hs (hall i (SlotPool.mem_indices.2 ⟨ipr, hi, decide_eq_true ht⟩) ipr hi)
  · intro hall i hi ipr hipr
    by_contra hs
    exact hall i ⟨ipr, hipr, entriesIn_entriesOf m t i hi ipr hipr, hs⟩

/-- A clear keeps the table fine, also if it gets stuck. -/
theorem TableOk.clear (h : TableOk m t f T) (hm : m.Linked) :
    ∃ T', TableOk (tuntermAclRedirectClear m t).2 t f T' ∧ SessionsFrom T T' :=
  TableOk.clearLoop _ hm h (entriesIn_entriesOf m t)

/-- **A clear that ends well leaves an empty table.** -/
theorem TableOk.clear_empty (h : TableOk m t f T) (hm : m.Linked)
    (hrv : (tuntermAclRedirectClear m t).1 = none) :
    (tuntermAclRedirectClear m t).2.tables t = some ⟨tableMask f, fun _ => none⟩ := by
  obtain ⟨T', hT', -⟩ := h.clear hm
  have hnone : T'.sessions = fun _ => none := by
    funext k
    by_contra hk
    exact clear_no_entry hm hrv k (hT'.entry k hk)
  rw [hT'.table, ← hT'.mask, ← hnone]

/-- The sessions of a list of rules. -/
def sessionsOf (isIpv6 : Bool) (rules : List (TuntermAclRule ApiPath)) :
    List (BitVec 8) → Option ClassifyEntry :=
  writeAll (ruleKey isIpv6) (ruleEntry up isIpv6) (fun _ => none) rules

/-- A session of a list of rules is that of one of them. -/
theorem sessionsOf_eq_some {isIpv6 : Bool} {rules : List (TuntermAclRule ApiPath)}
    {k : List (BitVec 8)} {e : ClassifyEntry} (h : sessionsOf up isIpv6 rules k = some e) :
    ∃ rule ∈ rules, k = ruleKey isIpv6 rule ∧ ∃ path, e = pathEntry up isIpv6 path := by
  rw [sessionsOf, writeAll_apply] at h
  cases hlast : lastFor (ruleKey isIpv6) k rules with
  | none => rw [hlast] at h; cases h
  | some rule =>
    rw [hlast] at h
    obtain ⟨hmem, hkey⟩ := lastFor_eq_some _ hlast
    obtain ⟨path, -, he⟩ := Option.map_eq_some_iff.1 h
    exact ⟨rule, hmem, hkey.symm, path, he.symm⟩

/-- **A request on a table that has just been cleared**: the sessions are those of the
rules that were added. -/
theorem addRules_tableOk (hm : m.Linked) (ht : m.tables t = some ⟨tableMask f, fun _ => none⟩)
    (hno : ∀ k, ¬ m.HasEntry k t) (fails : ℕ → Option ApiError)
    (rules : List (TuntermAclRule ApiPath)) :
    (addRules up f t fails 0 rules m).1 = firstError up f fails 0 rules ∧
      TableOk (addRules up f t fails 0 rules m).2 t f
        ⟨tableMask f, sessionsOf up f (accepted up f fails 0 rules)⟩ := by
  obtain ⟨hrv, htable, hentries⟩ := addRules_table up f t fails rules 0 hm ht rfl
  have hadds := addRules_addsTo up f t fails rules 0 hm
  refine ⟨hrv, htable, rfl, ?_, Or.inl fun k hk => ?_, ?_⟩
  · intro k hk
    obtain ⟨e, he⟩ := Option.ne_none_iff_exists'.1 hk
    obtain ⟨rule, hmem, rfl, -⟩ := sessionsOf_eq_some up he
    exact hentries rule hmem
  · exact (hadds.adds k hk).resolve_left (hno k)
  · intro k e he
    obtain ⟨-, -, -, path, rfl⟩ := sessionsOf_eq_some up he
    exact ⟨rfl, rfl⟩

end Tables

/-! ## The requests -/

section Requests

variable {ApiPath FibPath : Type} (up : Upstream ApiPath FibPath)

/-- **What `update_classify_table_and_sessions` can do** once there is a table: refuse
another family, get stuck in the clear, or clear the table and add rules. -/
theorem updateSessions_cases (s : TuntermAclMain FibPath) (isIpv6 : Bool)
    (rules : List (TuntermAclRule ApiPath)) (t : ℕ) (fails : ℕ → Option ApiError) :
    (rules ≠ [] ∧ s.classifyTableIndexIsV6[t]?.getD false ≠ isIpv6 ∧
      (updateSessions up s isIpv6 rules t fails).rv = some .invalidValue2 ∧
      (updateSessions up s isIpv6 rules t fails).main = s) ∨
    ((rules = [] ∨ s.classifyTableIndexIsV6[t]?.getD false = isIpv6) ∧
      (tuntermAclRedirectClear s.redirect t).1 ≠ none ∧
      (updateSessions up s isIpv6 rules t fails).rv = (tuntermAclRedirectClear s.redirect t).1 ∧
      (updateSessions up s isIpv6 rules t fails).main
        = { s with redirect := (tuntermAclRedirectClear s.redirect t).2 }) ∨
    ((rules = [] ∨ s.classifyTableIndexIsV6[t]?.getD false = isIpv6) ∧
      (tuntermAclRedirectClear s.redirect t).1 = none ∧
      (updateSessions up s isIpv6 rules t fails).rv
        = (addRules up isIpv6 t fails 0 rules (tuntermAclRedirectClear s.redirect t).2).1 ∧
      (updateSessions up s isIpv6 rules t fails).main
        = { s with redirect :=
            (addRules up isIpv6 t fails 0 rules (tuntermAclRedirectClear s.redirect t).2).2 }) := by
  unfold updateSessions
  by_cases haf : rules ≠ [] ∧ s.classifyTableIndexIsV6[t]?.getD false ≠ isIpv6
  · refine Or.inl ⟨haf.1, haf.2, ?_⟩
    have hguard : (!rules.isEmpty && decide (s.classifyTableIndexIsV6[t]?.getD false ≠ isIpv6))
        = true := by
      simp [haf.1, haf.2]
    simp only [hguard, if_true, and_self]
  · have hguard : (!rules.isEmpty && decide (s.classifyTableIndexIsV6[t]?.getD false ≠ isIpv6))
        = false := by
      cases rules with
      | nil => rfl
      | cons rule rules => simpa using haf
    have hor : rules = [] ∨ s.classifyTableIndexIsV6[t]?.getD false = isIpv6 := by
      by_cases hnil : rules = []
      · exact Or.inl hnil
      · exact Or.inr (by_contra fun hne => haf ⟨hnil, hne⟩)
    simp only [hguard, Bool.false_eq_true, if_false]
    refine Or.inr ?_
    generalize tuntermAclRedirectClear s.redirect t = out
    obtain ⟨rv, m⟩ := out
    cases rv with
    | some e => exact Or.inl ⟨hor, by simp, rfl, rfl⟩
    | none => exact Or.inr ⟨hor, rfl, rfl, rfl⟩

/-- The redirect side of a request, however it ends. -/
theorem updateSessions_redirect {s : TuntermAclMain FibPath} (h : s.redirect.Linked)
    (isIpv6 : Bool) (rules : List (TuntermAclRule ApiPath)) (t : ℕ)
    (fails : ℕ → Option ApiError) :
    ∃ m, (updateSessions up s isIpv6 rules t fails).main = { s with redirect := m } ∧
      m.Linked ∧ OnlyTable t s.redirect m := by
  have hc := clear_clearsIn h t
  rcases updateSessions_cases up s isIpv6 rules t fails with
    ⟨-, -, -, hs⟩ | ⟨-, -, -, hs⟩ | ⟨-, -, -, hs⟩
  · exact ⟨s.redirect, hs, h, .refl t _⟩
  · exact ⟨_, hs, hc.linked, hc.only⟩
  · have ha := addRules_addsTo up isIpv6 t fails rules 0 hc.linked
    exact ⟨_, hs, ha.linked, hc.only.trans ha.only⟩

/-- The table of a live ACL after a request on it, however it ends. -/
theorem updateSessions_tableOk {s : TuntermAclMain FibPath} {t : ℕ} {f : Bool}
    {T : ClassifyTable} (h : s.redirect.Linked) (ht : TableOk s.redirect t f T)
    (hf : s.classifyTableIndexIsV6[t]? = some f) (isIpv6 : Bool)
    (rules : List (TuntermAclRule ApiPath)) (fails : ℕ → Option ApiError) :
    ∃ T', TableOk (updateSessions up s isIpv6 rules t fails).main.redirect t f T' := by
  rcases updateSessions_cases up s isIpv6 rules t fails with
    ⟨-, -, -, hs⟩ | ⟨-, -, -, hs⟩ | ⟨haf, hrv, -, hs⟩
  · rw [hs]
    exact ⟨T, ht⟩
  · rw [hs]
    obtain ⟨T', hT', -⟩ := ht.clear h
    exact ⟨T', hT'⟩
  · rw [hs]
    rcases haf with rfl | haf
    · -- no rules: the table is just cleared
      obtain ⟨T', hT', -⟩ := ht.clear h
      exact ⟨T', hT'⟩
    · rw [hf, Option.getD_some] at haf
      subst haf
      exact ⟨_, (addRules_tableOk up (clear_clearsIn h t).linked (ht.clear_empty h hrv)
        (clear_no_entry h hrv) fails rules).2⟩

/-- An interface request leaves the tables and the families alone. -/
theorem interfaceAddDel_frame (s : TuntermAclMain FibPath) (isAdd : Bool) (swIfIndex i : ℕ)
    (fails : Option ApiError) :
    (tuntermAclInterfaceAddDel s isAdd swIfIndex i fails).main.redirect = s.redirect ∧
      (tuntermAclInterfaceAddDel s isAdd swIfIndex i fails).main.classifyTableIndexIsV6
        = s.classifyTableIndexIsV6 := by
  -- writing a slot touches neither entries nor families
  have hslot : ∀ (s : TuntermAclMain FibPath) (v6 : Bool) (j k : ℕ),
      (s.setSlot v6 j k).redirect = s.redirect ∧
        (s.setSlot v6 j k).classifyTableIndexIsV6 = s.classifyTableIndexIsV6 := by
    intro s v6 j k
    cases v6 <;> exact ⟨rfl, rfl⟩
  unfold tuntermAclInterfaceAddDel
  by_cases hi : i = invalidIndex
  · rw [if_pos hi]
    exact ⟨rfl, rfl⟩
  · rw [if_neg hi]
    cases s.swInterfaces swIfIndex with
    | false => exact ⟨rfl, rfl⟩
    | true =>
      cases isAdd with
      | true =>
        simp only [Bool.not_true, Bool.false_eq_true, if_false, if_true, attachAcl, enableBypass]
        split
        · exact hslot _ _ _ _
        · cases fails with
          | some e => exact hslot _ _ _ _
          | none => exact hslot _ _ _ _
      | false =>
        simp only [Bool.not_true, Bool.false_eq_true, if_false, detachAcl, disableBypass]
        split
        · exact ⟨rfl, rfl⟩
        · split
          · cases fails with
            | some e => exact ⟨rfl, rfl⟩
            | none => exact hslot _ _ _ _
          · exact hslot _ _ _ _

/-! ## The invariant -/

/-- The hash is linked to the pool, and every live ACL has its family and its table. -/
structure AclInv (w : AclWorld FibPath) : Prop where
  linked : w.main.redirect.Linked
  index : ∀ t f, w.live t = some f → t ≠ invalidIndex
  family : ∀ t f, w.live t = some f → w.main.classifyTableIndexIsV6[t]? = some f
  table : ∀ t f, w.live t = some f → ∃ T, TableOk w.main.redirect t f T

variable {w : AclWorld FibPath}

/-- A free table index belongs to no live ACL. -/
theorem AclInv.fresh (h : AclInv w) {i : ℕ} (hfree : w.main.redirect.tables i = none) :
    w.live i = none := by
  cases hlive : w.live i with
  | none => rfl
  | some f =>
    obtain ⟨T, hT⟩ := h.table i f hlive
    rw [hT.table] at hfree
    cases hfree

/-- A change of the redirect side that keeps the tables of live ACLs. -/
theorem AclInv.redirect (h : AclInv w) {m : RedirectMain FibPath} (hm : m.Linked)
    (ht : ∀ t f, w.live t = some f → ∃ T, TableOk m t f T) :
    AclInv { w with main := { w.main with redirect := m } } :=
  ⟨hm, h.index, h.family, ht⟩

/-- A request on a table keeps the invariant, however it ends. -/
theorem AclInv.updateSessions (h : AclInv w) (isIpv6 : Bool)
    (rules : List (TuntermAclRule ApiPath)) (t : ℕ) (fails : ℕ → Option ApiError) :
    AclInv { w with main := (updateSessions up w.main isIpv6 rules t fails).main } := by
  obtain ⟨m, hs, hm, honly⟩ := updateSessions_redirect up h.linked isIpv6 rules t fails
  rw [hs]
  refine h.redirect hm fun j f hj => ?_
  obtain ⟨T, hT⟩ := h.table j f hj
  by_cases hjt : j = t
  · subst hjt
    have hok := updateSessions_tableOk up h.linked hT (h.family j f hj) isIpv6 rules fails
    rwa [hs] at hok
  · exact ⟨T, hT.of_onlyTable hjt honly⟩

/-- The families after a new table. -/
theorem addTable_family (s : TuntermAclMain FibPath) (isIpv6 : Bool) (i j : ℕ) {f : Bool}
    (hj : j = i ∧ f = isIpv6 ∨ j ≠ i ∧ s.classifyTableIndexIsV6[j]? = some f) :
    (s.addTable isIpv6 i).classifyTableIndexIsV6[j]? = some f := by
  unfold TuntermAclMain.addTable vecValidateInitEmpty
  rcases hj with ⟨rfl, rfl⟩ | ⟨hne, hj⟩
  · have hlt : j < (s.classifyTableIndexIsV6
        ++ List.replicate (j + 1 - s.classifyTableIndexIsV6.length) false).length := by
      simp only [List.length_append, List.length_replicate]
      omega
    rw [List.getElem?_set_self hlt]
  · rw [List.getElem?_set_ne (Ne.symm hne), List.getElem?_append_left, hj]
    exact (List.getElem?_eq_some_iff.1 hj).1

/-- A new table keeps the invariant, with its ACL live. -/
theorem AclInv.addTable (h : AclInv w) (isIpv6 : Bool) {i : ℕ}
    (hfree : w.main.redirect.tables i = none) (hi : i < invalidIndex) :
    AclInv ⟨w.main.addTable isIpv6 i, Function.update w.live i (some isIpv6)⟩ := by
  -- a live ACL is the new one, or was live before in another table
  have hold : ∀ t f, Function.update w.live i (some isIpv6) t = some f →
      (t = i ∧ f = isIpv6) ∨ (t ≠ i ∧ w.live t = some f) := by
    intro t f ht
    by_cases hti : t = i
    · rw [hti, Function.update_self] at ht
      exact Or.inl ⟨hti, (Option.some.inj ht).symm⟩
    · rw [Function.update_of_ne hti] at ht
      exact Or.inr ⟨hti, ht⟩
  have honly : OnlyTable i w.main.redirect (w.main.addTable isIpv6 i).redirect :=
    ⟨fun j hj => Function.update_of_ne hj _ _, fun _ _ _ => Iff.rfl⟩
  refine ⟨h.linked, ?_, ?_, ?_⟩
  · intro t f ht
    rcases hold t f ht with ⟨rfl, -⟩ | ⟨-, ht⟩
    · exact hi.ne
    · exact h.index t f ht
  · intro t f ht
    refine addTable_family w.main isIpv6 i t ?_
    rcases hold t f ht with ht | ⟨hne, ht⟩
    · exact Or.inl ht
    · exact Or.inr ⟨hne, h.family t f ht⟩
  · intro t f ht
    rcases hold t f ht with ⟨rfl, rfl⟩ | ⟨hne, ht⟩
    · refine ⟨⟨tableMask f, fun _ => none⟩, ?_, rfl, fun k hk => absurd rfl hk,
        Or.inr fun _ => rfl, fun k e hk => nomatch hk⟩
      exact Function.update_self _ _ _
    · obtain ⟨T, hT⟩ := h.table t f ht
      exact ⟨T, hT.of_onlyTable hne honly⟩

/-- A clear keeps the invariant, also if it gets stuck. -/
theorem AclInv.clear (h : AclInv w) (i : ℕ) :
    AclInv { w with main := { w.main with
      redirect := (tuntermAclRedirectClear w.main.redirect i).2 } } := by
  have hc := clear_clearsIn h.linked i
  refine h.redirect hc.linked fun t f ht => ?_
  obtain ⟨T, hT⟩ := h.table t f ht
  by_cases hti : t = i
  · subst hti
    obtain ⟨T', hT', -⟩ := hT.clear h.linked
    exact ⟨T', hT'⟩
  · exact ⟨T, hT.of_onlyTable hti hc.only⟩

/-- **What `tunterm_acl_del` can do**: refuse, get stuck in the clear, or delete the table. -/
theorem tuntermAclDel_cases (s : TuntermAclMain FibPath) (i : ℕ) :
    ((tuntermAclDel s i).rv ≠ none ∧ (tuntermAclDel s i).main = s) ∨
    ((tuntermAclDel s i).rv ≠ none ∧
      (tuntermAclDel s i).main = { s with redirect := (tuntermAclRedirectClear s.redirect i).2 }) ∨
    (i ≠ invalidIndex ∧ i ∉ s.classifyTableIndexBySwIfIndexV4 ∧
      i ∉ s.classifyTableIndexBySwIfIndexV6 ∧ (tuntermAclRedirectClear s.redirect i).1 = none ∧
      (tuntermAclDel s i).rv = none ∧
      (tuntermAclDel s i).main =
        { s with
          redirect := { (tuntermAclRedirectClear s.redirect i).2 with
            tables := Function.update (tuntermAclRedirectClear s.redirect i).2.tables i none }
          classifyTableIndexIsV6 := s.classifyTableIndexIsV6.set i false }) := by
  unfold tuntermAclDel
  by_cases hi : i = invalidIndex
  · rw [if_pos hi]
    exact Or.inl ⟨by simp, rfl⟩
  · rw [if_neg hi]
    by_cases h4 : i ∈ s.classifyTableIndexBySwIfIndexV4
    · rw [if_pos h4]
      exact Or.inl ⟨by simp, rfl⟩
    · rw [if_neg h4]
      by_cases h6 : i ∈ s.classifyTableIndexBySwIfIndexV6
      · rw [if_pos h6]
        exact Or.inl ⟨by simp, rfl⟩
      · rw [if_neg h6]
        generalize tuntermAclRedirectClear s.redirect i = out
        obtain ⟨rv, m⟩ := out
        cases rv with
        | some e => exact Or.inr (Or.inl ⟨by simp, rfl⟩)
        | none => exact Or.inr (Or.inr ⟨hi, h4, h6, rfl, rfl, rfl⟩)

/-- A delete keeps the invariant. -/
theorem AclInv.del (h : AclInv w) (i : ℕ) : AclInv (aclStep up w (.del i)) := by
  rcases tuntermAclDel_cases w.main i with ⟨hrv, hs⟩ | ⟨hrv, hs⟩ | ⟨-, -, -, hclear, hrv, hs⟩
  · simp only [aclStep, hrv, if_false, hs]
    exact h
  · simp only [aclStep, hrv, if_false, hs]
    exact h.clear i
  · simp only [aclStep, hrv, if_true, hs]
    have hc := h.clear i
    have hold : ∀ t f, Function.update w.live i none t = some f → t ≠ i ∧ w.live t = some f := by
      intro t f ht
      by_cases hti : t = i
      · rw [hti, Function.update_self] at ht
        cases ht
      · rw [Function.update_of_ne hti] at ht
        exact ⟨hti, ht⟩
    refine ⟨hc.linked, ?_, ?_, ?_⟩
    · intro t f ht
      exact h.index t f (hold t f ht).2
    · intro t f ht
      obtain ⟨hti, ht⟩ := hold t f ht
      show (w.main.classifyTableIndexIsV6.set i false)[t]? = some f
      rw [List.getElem?_set_ne (Ne.symm hti)]
      exact h.family t f ht
    · intro t f ht
      obtain ⟨hti, ht⟩ := hold t f ht
      obtain ⟨T, hT⟩ := hc.table t f ht
      exact ⟨T, hT.of_onlyTable hti ⟨fun j hj => Function.update_of_ne hj _ _, fun _ _ _ => Iff.rfl⟩⟩

/-- **What `tunterm_acl_add_replace` can do**: refuse the message or find no table, create
a table, or go on with the table that the message names. -/
theorem addReplace_cases (s : TuntermAclMain FibPath) (mp : AddReplace ApiPath)
    (env : AddReplaceEnv) :
    ((tuntermAclAddReplace up s mp env).1.rv ≠ none ∧
      (tuntermAclAddReplace up s mp env).1.main = s ∧ mp.created env = none ∧
      (mp.r.length < mp.count ∨ mp.tuntermAclIndex = invalidIndex ∧ ∃ rv, env.addTable = .error rv)) ∨
    (∃ i, ¬ mp.r.length < mp.count ∧ mp.tuntermAclIndex = invalidIndex ∧ env.addTable = .ok i ∧
      mp.created env = some i ∧
      (tuntermAclAddReplace up s mp env).1
        = updateSessions up (s.addTable mp.isIpv6 i) mp.isIpv6 (mp.r.take mp.count) i
            env.sessionFails) ∨
    (¬ mp.r.length < mp.count ∧ mp.tuntermAclIndex ≠ invalidIndex ∧ mp.created env = none ∧
      (tuntermAclAddReplace up s mp env).1
        = updateSessions up s mp.isIpv6 (mp.r.take mp.count) mp.tuntermAclIndex
            env.sessionFails) := by
  unfold tuntermAclAddReplace AddReplace.created
  by_cases hshort : mp.r.length < mp.count
  · rw [if_pos hshort, if_pos (Or.inl hshort)]
    exact Or.inl ⟨by simp, rfl, rfl, Or.inl hshort⟩
  · rw [if_neg hshort]
    unfold updateClassifyTableAndSessions
    by_cases hidx : mp.tuntermAclIndex = invalidIndex
    · rw [if_pos hidx, if_neg (by simp [hshort, hidx])]
      cases hadd : env.addTable with
      | error rv => exact Or.inl ⟨by simp, rfl, rfl, Or.inr ⟨hidx, rv, rfl⟩⟩
      | ok i => exact Or.inr (Or.inl ⟨i, hshort, hidx, rfl, rfl, rfl⟩)
    · rw [if_neg hidx, if_pos (Or.inr hidx)]
      exact Or.inr (Or.inr ⟨hshort, hidx, rfl, rfl⟩)

/-- **Every step keeps the invariant**: requests that fail, that name no live ACL, and
what other users of the classifier do. -/
theorem aclInv_step (h : AclInv w) {e : AclEvent ApiPath} (hadm : Admissible w e) :
    AclInv (aclStep up w e) := by
  cases e with
  | addReplace mp env =>
    rcases addReplace_cases up w.main mp env with
      ⟨-, hs, hnone, -⟩ | ⟨i, -, -, -, hsome, hs⟩ | ⟨-, -, hnone, hs⟩
    · simp only [aclStep, hs, hnone]
      exact h
    · obtain ⟨hfree, hi⟩ := hadm i hsome
      simp only [aclStep, hs, hsome]
      exact (h.addTable mp.isIpv6 hfree hi).updateSessions up mp.isIpv6 _ i _
    · simp only [aclStep, hs, hnone]
      exact h.updateSessions up mp.isIpv6 _ mp.tuntermAclIndex _
  | del i => exact h.del up i
  | interfaceAddDel isAdd swIfIndex i fails =>
    obtain ⟨hred, hv6⟩ := interfaceAddDel_frame w.main isAdd swIfIndex i fails
    refine ⟨?_, h.index, ?_, ?_⟩
    · exact hred ▸ h.linked
    · exact hv6 ▸ h.family
    · exact hred ▸ h.table
  | otherTable i t =>
    refine h.redirect h.linked fun j f hj => ?_
    obtain ⟨T, hT⟩ := h.table j f hj
    -- VPP makes no table of others where a live ACL has its own
    have hji : j ≠ i := by
      rintro rfl
      rw [show w.live j = none from hadm] at hj
      cases hj
    exact ⟨T, hT.of_onlyTable hji ⟨fun k hk => Function.update_of_ne hk _ _, fun _ _ _ => Iff.rfl⟩⟩
  | createInterface i => exact ⟨h.linked, h.index, h.family, h.table⟩
  | deleteInterface i => exact ⟨h.linked, h.index, h.family, h.table⟩

/-- Before the first request. -/
theorem aclInv_init (tables : ℕ → Option ClassifyTable) :
    AclInv (AclWorld.init tables : AclWorld FibPath) := by
  refine ⟨?_, ?_, ?_, ?_⟩
  · intro k t i
    constructor
    · intro h
      cases h
    · rintro ⟨ipr, h, -⟩
      simp [AclWorld.init] at h
  · intro t f ht
    cases ht
  · intro t f ht
    cases ht
  · intro t f ht
    cases ht

/-- The invariant holds in every run. -/
theorem aclInv_run (tables : ℕ → Option ClassifyTable) {es : List (AclEvent ApiPath)}
    (hrun : Allowed (aclStep up) Admissible (AclWorld.init tables) es) :
    AclInv (run (aclStep up) (AclWorld.init tables) es) := by
  refine run_invariant (aclStep up) Admissible AclInv ?_ (aclInv_init tables) hrun
  intro w e h hadm
  exact aclInv_step up h hadm

end Requests

end TuntermAcl
