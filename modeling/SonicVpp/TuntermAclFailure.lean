/-
# Failed updates

`tunterm_acl_add_replace` clears the table of an ACL before it looks at the rules, and adds
the rules one by one.  A request that fails on a later rule has by then lost the rules
that were in force, and one that fails after it has created a table leaves the table
behind.  `failed_update_harmless_iff` says for which requests and states this cannot be
seen: it compares what the node does with every packet before and after.
-/
import SonicVpp.TuntermAclSlots

open RunInvariant PacketBytes

namespace TuntermAcl

/-! ## Packets before and after -/

section Treatment

variable {FibPath : Type} {s s' : TuntermAclMain FibPath} {t : ℕ} {f : Bool}
  {T T' : ClassifyTable}

/-- Every packet is treated as before: the same ACLs are attached, and a packet that is
looked up in any of them leaves the node in the same way. -/
structure TreatsAlike (s s' : TuntermAclMain FibPath) : Prop where
  slot : ∀ f i, s'.slot f i = s.slot f i
  lookup : ∀ nNextNodes b tagged t innerDipOffset,
    tuntermAclLookup s' nNextNodes b tagged t innerDipOffset
      = tuntermAclLookup s nNextNodes b tagged t innerDipOffset

/-- In particular the node does the same with every packet. -/
theorem TreatsAlike.node (h : TreatsAlike s s') (nNextNodes : ℕ) (b : AclBuffer) :
    tuntermAclNode s' nNextNodes b = tuntermAclNode s nNextNodes b := by
  unfold tuntermAclNode
  simp only [h.slot, h.lookup]

/-- The node reads the tables and nothing else of the redirect side. -/
theorem treatsAlike_of_tables (hs : SameSlots s s')
    (ht : s'.redirect.tables = s.redirect.tables) : TreatsAlike s s' where
  slot := hs.slot
  lookup := by
    intro n b tagged t o
    unfold tuntermAclLookup
    rw [ht]

/-- A packet that holds the 16 bytes `k` at the start. -/
def packetOf (k : List (BitVec 8)) : AclBuffer where
  data i := k.getD i 0
  currentData := 0
  currentLength := 0
  swIfIndexRx := 0
  adjIndexTx := 0

theorem bytesAt_packetOf {k : List (BitVec 8)} (hk : k.length = 16) :
    bytesAt (packetOf k).data 0 16 = k := by
  apply List.ext_getElem
  · simp [bytesAt, hk]
  · intro i h1 h2
    simp [bytesAt, packetOf, h2]

/-- What the node does with a packet that holds a match. -/
theorem lookup_packetOf (hT : TableOk s.redirect t f T) (ht : t ≠ invalidIndex)
    (un : List (BitVec 8)) (nNextNodes : ℕ) :
    tuntermAclLookup s nNextNodes (packetOf (matchOf f un)) false t 0
      = match T.sessions (matchOf f un) with
        | none => (packetOf (matchOf f un), nextVxlan4Input, .noMatch)
        | some e => (redirectBuffer (packetOf (matchOf f un)) false e,
            if e.nextIndex < nNextNodes then e.nextIndex else nextVxlan4Input, .redirected) := by
  unfold tuntermAclLookup
  rw [if_neg ht, hT.table, bytesAt_packetOf (by simp [matchOf]), Option.bind_some,
    ClassifyTable.findEntry, hT.masked_matchOf]
  cases he : T.sessions (matchOf f un) with
  | none => rfl
  | some e => simp only [(hT.plain _ e he).1, if_true]

/-- **Packets tell two tables of an ACL apart.** -/
theorem TreatsAlike.sessions_eq (h : TreatsAlike s s') (ht : t ≠ invalidIndex)
    (hT : TableOk s.redirect t f T) (hT' : TableOk s'.redirect t f T') :
    T'.sessions = T.sessions := by
  funext k
  by_cases hk : ∃ un, k = matchOf f un
  · obtain ⟨un, rfl⟩ := hk
    have hlookup : ∀ n, tuntermAclLookup s' n (packetOf (matchOf f un)) false t 0
        = tuntermAclLookup s n (packetOf (matchOf f un)) false t 0 := fun n => h.lookup n _ _ _ _
    simp only [lookup_packetOf hT ht, lookup_packetOf hT' ht] at hlookup
    cases he : T.sessions (matchOf f un) with
    | none =>
      cases he' : T'.sessions (matchOf f un) with
      | none => rfl
      | some e' =>
        have hn := hlookup 0
        simp [he, he'] at hn
    | some e =>
      cases he' : T'.sessions (matchOf f un) with
      | none =>
        have hn := hlookup 0
        simp [he, he'] at hn
      | some e' =>
        -- with enough next nodes the next index is seen too
        have hn := hlookup (max e.nextIndex e'.nextIndex + 1)
        have hlt : e.nextIndex < max e.nextIndex e'.nextIndex + 1 := by omega
        have hlt' : e'.nextIndex < max e.nextIndex e'.nextIndex + 1 := by omega
        simp only [he, he', if_pos hlt, if_pos hlt', Prod.mk.injEq, and_true] at hn
        have hmeta : e'.metadata = e.metadata := congrArg AclBuffer.adjIndexTx hn.1
        obtain ⟨hact, hopq⟩ := hT.plain _ e he
        obtain ⟨hact', hopq'⟩ := hT'.plain _ e' he'
        obtain ⟨e1, e2, e3, e4⟩ := e
        obtain ⟨e1', e2', e3', e4'⟩ := e'
        simp only at hn hmeta hact hopq hact' hopq'
        rw [hn.2, hmeta, hact, hact', hopq, hopq']
  · have hnone : T.sessions k = none := not_not.1 fun hne => hk (hT.key hne)
    have hnone' : T'.sessions k = none := not_not.1 fun hne => hk (hT'.key hne)
    rw [hnone, hnone']

end Treatment

/-! ## A clear that gets stuck -/

section Stuck

variable {FibPath : Type} {m : RedirectMain FibPath} {t : ℕ} {f : Bool} {T : ClassifyTable}

/-- The first entry of the table is without its session. -/
def RedirectMain.FirstStuck (m : RedirectMain FibPath) (t : ℕ) (T : ClassifyTable) : Prop :=
  ∃ i, (m.entriesOf t).head? = some i ∧ m.Stuck t T i

/-- A clear that is stuck at once changes nothing. -/
theorem TableOk.clear_firstStuck (h : TableOk m t f T) (hfirst : m.FirstStuck t T) :
    ∃ e, tuntermAclRedirectClear m t = (some e, m) := by
  obtain ⟨i, hhead, ipr, hi, ht, hs⟩ := hfirst
  obtain ⟨is, his⟩ := List.head?_eq_some_iff.1 hhead
  obtain ⟨e, hdel⟩ := h.delIpr_stuck (i := i) ht hs
  refine ⟨e, ?_⟩
  rw [tuntermAclRedirectClear, his, TuntermAcl.clearLoop]
  simp only [hi, hdel]

/-- A clear that is stuck later has lost a session. -/
theorem TableOk.clear_stuckLater (h : TableOk m t f T) (hm : m.Linked)
    (hrv : (tuntermAclRedirectClear m t).1 ≠ none) (hfirst : ¬ m.FirstStuck t T) :
    ∃ T', TableOk (tuntermAclRedirectClear m t).2 t f T' ∧ T'.sessions ≠ T.sessions := by
  have hin := entriesIn_entriesOf m t
  have hmem : ∀ i ∈ m.entriesOf t, ∃ ipr, m.pool.elt i = some ipr := by
    intro i hi
    obtain ⟨ipr, hipr, -⟩ := SlotPool.mem_indices.1 hi
    exact ⟨ipr, hipr⟩
  unfold RedirectMain.FirstStuck at hfirst
  unfold tuntermAclRedirectClear at hrv ⊢
  cases his : m.entriesOf t with
  | nil =>
    rw [his] at hrv
    exact absurd rfl hrv
  | cons i is =>
    rw [his] at hfirst hin hmem
    obtain ⟨ipr, hi⟩ := hmem i List.mem_cons_self
    have ht := hin i List.mem_cons_self ipr hi
    have hs : HasSession T ipr := not_not.1 fun hs => hfirst ⟨i, rfl, ipr, hi, ht, hs⟩
    have hkey := h.masked_eq hs hm hi ht
    -- the session of the first entry is gone, and stays gone in the rest of the loop
    obtain ⟨hrv', -, hok⟩ := h.delIpr hm hi ht hs
    have hc := delIpr_clearsIn hm hi ht
    rw [TuntermAcl.clearLoop, hi]
    dsimp only
    generalize tuntermAclRedirectDelIpr m i ipr = out at hrv' hok hc
    obtain ⟨rv, m'⟩ := out
    obtain rfl : rv = none := hrv'
    have htail : EntriesIn m t is := fun j hj => hin j (List.mem_cons_of_mem i hj)
    obtain ⟨T', hT', hfrom⟩ := TableOk.clearLoop is hc.linked hok (htail.clears hc)
    refine ⟨T', hT', fun heq => ?_⟩
    have hgone : T'.sessions ipr.matchBytes = none := by
      rcases hfrom ipr.matchBytes with hk | hk
      · exact hk.trans (without_self T _)
      · exact hk
    rw [heq, ← hkey] at hgone
    exact hs hgone

end Stuck

/-! ## Requests -/

section Requests

variable {ApiPath FibPath : Type} (up : Upstream ApiPath FibPath)

/-- A failed request changes nothing: after a create there is no table and no redirect
entry that was not there before, after a replace every packet is treated as before. -/
def Harmless (s : TuntermAclMain FibPath) (mp : AddReplace ApiPath) (env : AddReplaceEnv) :
    Prop :=
  (tuntermAclAddReplace up s mp env).1.rv ≠ none →
    if mp.tuntermAclIndex = invalidIndex then
      (∀ t, s.redirect.tables t = none →
        (tuntermAclAddReplace up s mp env).1.main.redirect.tables t = none) ∧
      ∀ k t, (tuntermAclAddReplace up s mp env).1.main.redirect.HasEntry k t →
        s.redirect.HasEntry k t
    else TreatsAlike s (tuntermAclAddReplace up s mp env).1.main

/-- The creates that fail before there is a table, or do not fail. -/
def HarmlessCreate (s : TuntermAclMain FibPath) (mp : AddReplace ApiPath)
    (env : AddReplaceEnv) : Prop :=
  (∃ rv, env.addTable = .error rv) ∨
    ∃ i, env.addTable = .ok i ∧ (∀ k, ¬ s.redirect.HasEntry k i) ∧
      firstError up mp.isIpv6 env.sessionFails 0 (mp.r.take mp.count) = none

/-- The replaces that fail before the table is touched, do not fail, or add again what
was there before they come to the rule that they fail on. -/
def HarmlessReplace (s : TuntermAclMain FibPath) (mp : AddReplace ApiPath)
    (env : AddReplaceEnv) : Prop :=
  ∃ T, s.redirect.tables mp.tuntermAclIndex = some T ∧
    (mp.r.take mp.count ≠ [] ∧
        s.classifyTableIndexIsV6[mp.tuntermAclIndex]?.getD false ≠ mp.isIpv6 ∨
      s.redirect.FirstStuck mp.tuntermAclIndex T ∨
      (∀ i, ¬ s.redirect.Stuck mp.tuntermAclIndex T i) ∧
        (firstError up mp.isIpv6 env.sessionFails 0 (mp.r.take mp.count) = none ∨
          sessionsOf up mp.isIpv6 (accepted up mp.isIpv6 env.sessionFails 0 (mp.r.take mp.count))
            = T.sessions))

/-- The requests that cannot do harm. -/
def HarmlessInput (s : TuntermAclMain FibPath) (mp : AddReplace ApiPath) (env : AddReplaceEnv) :
    Prop :=
  mp.r.length < mp.count ∨
    if mp.tuntermAclIndex = invalidIndex then HarmlessCreate up s mp env
    else HarmlessReplace up s mp env

variable {w : AclWorld FibPath} {mp : AddReplace ApiPath} {env : AddReplaceEnv}

/-- When a request on a new table succeeds. -/
theorem create_rv_iff (h : AclInv w) {i : ℕ} (hfree : w.main.redirect.tables i = none)
    (hi : i < invalidIndex) (isIpv6 : Bool) (rules : List (TuntermAclRule ApiPath))
    (fails : ℕ → Option ApiError) :
    (updateSessions up (w.main.addTable isIpv6 i) isIpv6 rules i fails).rv = none ↔
      (∀ k, ¬ w.main.redirect.HasEntry k i) ∧ firstError up isIpv6 fails 0 rules = none := by
  have hnew := h.addTable isIpv6 hfree hi
  have haf := hnew.family i isIpv6 (Function.update_self _ _ _)
  obtain ⟨T, hT⟩ := hnew.table i isIpv6 (Function.update_self _ _ _)
  have hempty : T.sessions = fun _ => none := by
    have htable : (w.main.addTable isIpv6 i).redirect.tables i
        = some ⟨tableMask isIpv6, fun _ => none⟩ := Function.update_self _ _ _
    obtain rfl := Option.some.inj (hT.table.symm.trans htable)
    rfl
  -- in an empty table every entry is stuck
  have hclear : (tuntermAclRedirectClear (w.main.addTable isIpv6 i).redirect i).1 = none ↔
      ∀ k, ¬ w.main.redirect.HasEntry k i := by
    rw [hT.clear_rv_iff hnew.linked]
    constructor
    · intro hno k hk
      obtain ⟨j, ipr, hj, -, ht⟩ := h.linked.hasEntry_iff.1 hk
      exact hno j ⟨ipr, hj, ht, by simp [HasSession, hempty]⟩
    · rintro hno j ⟨ipr, hj, ht, -⟩
      exact hno ipr.matchBytes (h.linked.hasEntry_iff.2 ⟨j, ipr, hj, rfl, ht⟩)
  rcases updateSessions_cases up (w.main.addTable isIpv6 i) isIpv6 rules i fails with
    ⟨-, hne, -, -⟩ | ⟨-, hstuck, hrv, -⟩ | ⟨-, hdone, hrv, -⟩
  · exact absurd (by rw [haf]; rfl) hne
  · rw [hrv]
    constructor
    · intro hnone
      exact absurd hnone hstuck
    · intro hno
      exact absurd (hclear.2 hno.1) hstuck
  · rw [hrv, (addRules_tableOk up (clear_clearsIn hnew.linked i).linked
      (hT.clear_empty hnew.linked hdone) (clear_no_entry hnew.linked hdone) fails rules).1]
    exact ⟨fun hnone => ⟨hclear.1 hdone, hnone⟩, fun hno => hno.2⟩

/-- A create does no harm exactly if it fails before there is a table, or not at all. -/
theorem harmless_create_iff (h : AclInv w) (hadm : Admissible w (.addReplace mp env))
    (hshort : ¬ mp.r.length < mp.count) (hidx : mp.tuntermAclIndex = invalidIndex) :
    Harmless up w.main mp env ↔ HarmlessCreate up w.main mp env := by
  unfold Harmless HarmlessCreate
  rw [if_pos hidx]
  rcases addReplace_cases up w.main mp env with
    ⟨-, hs, -, hwhy⟩ | ⟨i, -, -, hadd, hsome, hs⟩ | ⟨-, hne, -, -⟩
  · rw [hs]
    refine iff_of_true (fun _ => ⟨fun _ ht => ht, fun _ _ hk => hk⟩) (Or.inl ?_)
    exact (hwhy.resolve_left hshort).2
  · obtain ⟨hfree, hi⟩ := hadm i hsome
    have hiff := create_rv_iff up h hfree hi mp.isIpv6 (mp.r.take mp.count) env.sessionFails
    -- the new table is there however the request ends
    have htable : (tuntermAclAddReplace up w.main mp env).1.main.redirect.tables i ≠ none := by
      have hinv := aclInv_step up h hadm
      have hlive : (aclStep up w (.addReplace mp env)).live i = some mp.isIpv6 := by
        simp only [aclStep, hsome]
        exact Function.update_self _ _ _
      obtain ⟨T, hT⟩ := hinv.table i mp.isIpv6 hlive
      intro hnone
      have htab := hT.table
      simp only [aclStep, hnone] at htab
      cases htab
    rw [hs] at htable ⊢
    constructor
    · intro hharm
      refine Or.inr ⟨i, hadd, hiff.1 (not_not.1 fun hrv => ?_)⟩
      exact htable ((hharm hrv).1 i hfree)
    · rintro (⟨rv, herr⟩ | ⟨j, hj, hno⟩) hrv
      · rw [hadd] at herr
        cases herr
      · obtain rfl : i = j := Except.ok.inj (hadd.symm.trans hj)
        exact absurd (hiff.2 hno) hrv
  · exact absurd hidx hne

/-- A replace whose clear gets stuck. -/
theorem harmless_stuck_iff {s : TuntermAclMain FibPath} {t : ℕ} {f : Bool} {T : ClassifyTable}
    (hm : s.redirect.Linked) (ht : t ≠ invalidIndex) (hT : TableOk s.redirect t f T)
    (hstuck : (tuntermAclRedirectClear s.redirect t).1 ≠ none) :
    TreatsAlike s { s with redirect := (tuntermAclRedirectClear s.redirect t).2 } ↔
      s.redirect.FirstStuck t T := by
  constructor
  · intro halike
    by_contra hfirst
    obtain ⟨T', hT', hne⟩ := hT.clear_stuckLater hm hstuck hfirst
    exact hne (halike.sessions_eq ht hT hT')
  · intro hfirst
    obtain ⟨e, hclear⟩ := hT.clear_firstStuck hfirst
    rw [hclear]
    exact treatsAlike_of_tables ⟨fun _ => rfl, rfl, rfl⟩ rfl

/-- A replace that clears the table and adds the rules up to the first that it fails on. -/
theorem harmless_added_iff {s : TuntermAclMain FibPath} {t : ℕ} {f : Bool} {T : ClassifyTable}
    (hm : s.redirect.Linked) (ht : t ≠ invalidIndex) (hT : TableOk s.redirect t f T)
    (hdone : (tuntermAclRedirectClear s.redirect t).1 = none) (fails : ℕ → Option ApiError)
    (rules : List (TuntermAclRule ApiPath)) :
    TreatsAlike s { s with
        redirect := (addRules up f t fails 0 rules (tuntermAclRedirectClear s.redirect t).2).2 } ↔
      sessionsOf up f (accepted up f fails 0 rules) = T.sessions := by
  have hc := clear_clearsIn hm t
  have ha := addRules_addsTo up f t fails rules 0 hc.linked
  obtain ⟨-, hT'⟩ := addRules_tableOk up hc.linked (hT.clear_empty hm hdone)
    (clear_no_entry hm hdone) fails rules
  constructor
  · intro halike
    exact halike.sessions_eq ht hT hT'
  · intro heq
    refine treatsAlike_of_tables ⟨fun _ => rfl, rfl, rfl⟩ (funext fun j => ?_)
    by_cases hj : j = t
    · rw [hj, hT.table, hT'.table, heq, ← hT.mask]
    · exact ((hc.only.trans ha.only).tables j hj)

/-- A replace of a live ACL does no harm exactly if the table keeps its sessions. -/
theorem harmless_replace_iff (h : AclInv w) (hshort : ¬ mp.r.length < mp.count)
    (hidx : mp.tuntermAclIndex ≠ invalidIndex) (hlive : w.live mp.tuntermAclIndex ≠ none) :
    Harmless up w.main mp env ↔ HarmlessReplace up w.main mp env := by
  obtain ⟨f, hf⟩ := Option.ne_none_iff_exists'.1 hlive
  have haf : w.main.classifyTableIndexIsV6[mp.tuntermAclIndex]?.getD false = f := by
    rw [h.family _ f hf]
    rfl
  obtain ⟨T, hT⟩ := h.table _ f hf
  have hslots := addReplace_sameSlots up w.main mp env
  have hclear := hT.clear_rv_iff h.linked
  unfold Harmless HarmlessReplace
  rw [if_neg hidx]
  simp only [hT.table, Option.some.injEq, exists_eq_left', haf]
  rcases addReplace_cases up w.main mp env with
    ⟨-, -, -, hwhy⟩ | ⟨i, -, hne, -, -, -⟩ | ⟨-, -, -, hs⟩
  · exact absurd (hwhy.resolve_left hshort).1 hidx
  · exact absurd hne hidx
  · rw [hs] at hslots ⊢
    generalize mp.r.take mp.count = rules at hslots
    -- the request is refused at once, gets stuck in the clear, or comes to the rules
    rcases updateSessions_cases up w.main mp.isIpv6 rules mp.tuntermAclIndex env.sessionFails with
      ⟨hrules, hne, -, hmain⟩ | ⟨hor, hstuck, hrv, hmain⟩ | ⟨hor, hdone, hrv, hmain⟩
    · refine iff_of_true (fun _ => treatsAlike_of_tables hslots ?_) (Or.inl ⟨hrules, haf ▸ hne⟩)
      rw [hmain]
    · rw [hrv, hmain, harmless_stuck_iff h.linked hidx hT hstuck]
      rw [haf] at hor
      constructor
      · intro hfirst
        exact Or.inr (Or.inl (hfirst hstuck))
      · rintro (⟨hrules, hne⟩ | hfirst | ⟨hno, -⟩) -
        · exact absurd hor (by simp [hrules, hne])
        · exact hfirst
        · exact absurd (hclear.2 hno) hstuck
    · have hno := hclear.1 hdone
      rw [hrv, hmain]
      rw [haf] at hor
      rcases hor with rfl | rfl
      · -- without rules nothing can fail
        refine iff_of_true (fun hne => absurd rfl hne) (Or.inr (Or.inr ⟨hno, Or.inl rfl⟩))
      · rw [harmless_added_iff up h.linked hidx hT hdone,
          (addRules_tableOk up (clear_clearsIn h.linked _).linked (hT.clear_empty h.linked hdone)
            (clear_no_entry h.linked hdone) env.sessionFails rules).1]
        constructor
        · intro himp
          refine Or.inr (Or.inr ⟨hno, ?_⟩)
          by_cases herr : firstError up mp.isIpv6 env.sessionFails 0 rules = none
          · exact Or.inl herr
          · exact Or.inr (himp herr)
        · rintro (⟨-, hne⟩ | ⟨i, -, hi⟩ | ⟨-, herr | heq⟩) hne'
          · exact absurd rfl hne
          · exact absurd hi (hno i)
          · exact absurd herr hne'
          · exact heq

/-- **When a failed update changes nothing.**  In every reachable state and for every
`tunterm_acl_add_replace` that creates an ACL or names a live one: a failure leaves no
trace exactly for the requests of `HarmlessInput`. -/
theorem failed_update_harmless_iff (tables : ℕ → Option ClassifyTable)
    {es : List (AclEvent ApiPath)}
    (hrun : Allowed (aclStep up) Admissible (AclWorld.init tables) es)
    (mp : AddReplace ApiPath) (env : AddReplaceEnv)
    (hadm : Admissible (run (aclStep up) (AclWorld.init tables) es) (.addReplace mp env))
    (hlive : NamesLive (run (aclStep up) (AclWorld.init tables) es) (.addReplace mp env)) :
    Harmless up (run (aclStep up) (AclWorld.init tables) es).main mp env ↔
      HarmlessInput up (run (aclStep up) (AclWorld.init tables) es).main mp env := by
  have h := aclInv_run up tables hrun
  generalize run (aclStep up) (AclWorld.init tables) es = w at h hadm hlive
  unfold HarmlessInput
  by_cases hshort : mp.r.length < mp.count
  · have hmain : (tuntermAclAddReplace up w.main mp env).1.main = w.main := by
      rw [tuntermAclAddReplace, if_pos hshort]
    refine iff_of_true (fun _ => ?_) (Or.inl hshort)
    rw [hmain]
    by_cases hidx : mp.tuntermAclIndex = invalidIndex
    · rw [if_pos hidx]
      exact ⟨fun _ ht => ht, fun _ _ hk => hk⟩
    · rw [if_neg hidx]
      exact treatsAlike_of_tables ⟨fun _ => rfl, rfl, rfl⟩ rfl
  · rw [or_iff_right hshort]
    by_cases hidx : mp.tuntermAclIndex = invalidIndex
    · rw [if_pos hidx]
      exact harmless_create_iff up h hadm hshort hidx
    · rw [if_neg hidx]
      exact harmless_replace_iff up h hshort hidx (hlive hidx)

end Requests

/-- An ACL with one rule, for 10.0.0.1. -/
def oneRuleRun : List (AclEvent (Option ℕ)) :=
  [.addReplace ⟨invalidIndex, false, 1, [⟨⟨0, [10, 0, 0, 1]⟩, some 7⟩]⟩ ⟨.ok 5, fun _ => none⟩]

theorem allowed_oneRuleRun :
    Allowed (aclStep plainFib) Admissible (AclWorld.init fun _ => none) oneRuleRun := by
  refine ⟨?_, trivial⟩
  intro i hi
  obtain rfl : 5 = i := Option.some.inj hi
  exact ⟨rfl, by decide⟩

/-- A replace with a good rule and one whose path cannot be decoded: the call fails, and
10.0.0.1 is not redirected any more. -/
theorem failed_replace_loses_rule :
    Allowed (aclStep plainFib) Admissible (AclWorld.init fun _ => none) oneRuleRun ∧
      ¬ Harmless plainFib (run (aclStep plainFib) (AclWorld.init fun _ => none) oneRuleRun).main
        ⟨5, false, 2, [⟨⟨0, [10, 0, 0, 2]⟩, some 9⟩, ⟨⟨0, [10, 0, 0, 3]⟩, none⟩]⟩
        ⟨.ok 6, fun _ => none⟩ := by
  refine ⟨allowed_oneRuleRun, fun hharm => ?_⟩
  have halike := hharm (by decide)
  rw [if_neg (by decide)] at halike
  have hpacket := congrArg (fun out => out.2.2)
    (halike.lookup 4 (packetOf (matchOf false [10, 0, 0, 1])) false 5 0)
  exact absurd hpacket (by decide)

/-- A replace that names the other family fails and changes nothing. -/
theorem failed_update_harmless_family :
    Harmless plainFib (run (aclStep plainFib) (AclWorld.init fun _ => none) oneRuleRun).main
      ⟨5, true, 1, [⟨⟨1, [32, 1]⟩, some 9⟩]⟩ ⟨.ok 6, fun _ => none⟩ := by
  refine (failed_update_harmless_iff plainFib (fun _ => none) allowed_oneRuleRun _ _ ?_ ?_).2
    (Or.inr ?_)
  · intro i hi
    cases hi
  · exact fun _ => nofun
  · rw [if_neg (by decide)]
    exact ⟨_, rfl, Or.inl ⟨by simp, by decide⟩⟩

end TuntermAcl
