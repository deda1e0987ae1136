/-
# Redirect entries and sessions

What `tunterm_acl_redirect_add` and `tunterm_acl_redirect_clear` do to the pool, the hash
and the tables, and from it what the clear-then-add loops of a request do.

`Linked` ties the hash to the pool, `OnlyTable` is the frame of every operation on one
table, and `TableOk` is what holds of the table of a live ACL at any time, also after
requests that failed half-way or named no live ACL.
-/
import SonicVpp.TuntermAcl
import SonicVpp.LastWrite

open LastWrite

namespace TuntermAcl

/-! ## Matches and masks -/

/-- The mask of a family. -/
theorem mask_matchOf (isIpv6 : Bool) (un : List (BitVec 8)) :
    List.zipWith (· &&& ·) (matchOf isIpv6 un) (tableMask isIpv6) = matchOf isIpv6 un := by
  have hones : ∀ x : BitVec 8, x &&& 0xff = x := by decide
  unfold matchOf tableMask
  rw [List.zipWith_map, List.zipWith_self]
  apply List.map_congr_left
  intro i _
  by_cases hi : i < bytesMatched isIpv6
  · rw [if_pos hi, if_pos hi, hones]
  · rw [if_neg hi, if_neg hi]
    decide

section Redirect

variable {ApiPath FibPath : Type} (up : Upstream ApiPath FibPath) {m m' : RedirectMain FibPath}

/-! ## Entries -/

/-- The hash names the pool index of every entry, and nothing else. -/
def RedirectMain.Linked (m : RedirectMain FibPath) : Prop :=
  ∀ k t i, m.sessionByMatchAndTableIndex (k, t) = some i ↔
    ∃ ipr, m.pool.elt i = some ipr ∧ ipr.matchBytes = k ∧ ipr.tableIndex = t

/-- There is a redirect entry for the match `k` in table `t`. -/
def RedirectMain.HasEntry (m : RedirectMain FibPath) (k : List (BitVec 8)) (t : ℕ) : Prop :=
  m.sessionByMatchAndTableIndex (k, t) ≠ none

/-- Nothing outside table `t` has changed. -/
structure OnlyTable (t : ℕ) (m m' : RedirectMain FibPath) : Prop where
  tables : ∀ j, j ≠ t → m'.tables j = m.tables j
  entries : ∀ k j, j ≠ t → (m'.HasEntry k j ↔ m.HasEntry k j)

theorem OnlyTable.refl (t : ℕ) (m : RedirectMain FibPath) : OnlyTable t m m :=
  ⟨fun _ _ => rfl, fun _ _ _ => Iff.rfl⟩

theorem OnlyTable.trans {t : ℕ} {m'' : RedirectMain FibPath} (h : OnlyTable t m m')
    (h' : OnlyTable t m' m'') : OnlyTable t m m'' where
  tables := fun j hj => (h'.tables j hj).trans (h.tables j hj)
  entries := fun k j hj => (h'.entries k j hj).trans (h.entries k j hj)

/-- Entries of the pool, as entries of the hash. -/
theorem RedirectMain.Linked.hasEntry_iff (h : m.Linked) {k : List (BitVec 8)} {t : ℕ} :
    m.HasEntry k t ↔
      ∃ i ipr, m.pool.elt i = some ipr ∧ ipr.matchBytes = k ∧ ipr.tableIndex = t := by
  unfold RedirectMain.HasEntry
  rw [Option.ne_none_iff_exists']
  constructor
  · rintro ⟨i, hi⟩
    exact ⟨i, (h k t i).1 hi⟩
  · rintro ⟨i, hi⟩
    exact ⟨i, (h k t i).2 hi⟩

/-! ## Adding one entry -/

/-- The session that a path resolves to. -/
def pathEntry (isIpv6 : Bool) (path : FibPath) : ClassifyEntry where
  nextIndex := (up.resolve path isIpv6).dpoiNextNode
  opaqueIndex := 0
  action := .setMetadata
  metadata := (up.resolve path isIpv6).dpoiIndex

/-- The protocol of a family. -/
def protoOf (isIpv6 : Bool) : DpoProto := if isIpv6 then .ip6 else .ip4

/-- The pool index of the entry for a match: the old one, or a new one. -/
def RedirectMain.slotFor (m : RedirectMain FibPath) (k : List (BitVec 8)) (t : ℕ) : ℕ :=
  (m.sessionByMatchAndTableIndex (k, t)).getD (up.poolGet.slot m.pool)

/-- The match entered in the hash. -/
def RedirectMain.enter (m : RedirectMain FibPath) (k : List (BitVec 8)) (t i : ℕ) :
    RedirectMain FibPath :=
  { m with sessionByMatchAndTableIndex :=
      Function.update m.sessionByMatchAndTableIndex (k, t) (some i) }

/-- The entry that a rule makes, before it is stacked. -/
def newRedirect (isIpv6 : Bool) (k : List (BitVec 8)) (t : ℕ) (path : FibPath) :
    TuntermAclRedirect FibPath :=
  ⟨k, t, path, ⟨0, 0⟩, 0, isIpv6⟩

/-- `tunterm_acl_redirect_add` enters the match in the hash and stacks the entry. -/
theorem redirectAdd_stack (m : RedirectMain FibPath) (t o : ℕ) {proto : DpoProto}
    (hp : proto ≠ .other) (k : List (BitVec 8)) (path : FibPath) (fails : Option ApiError) :
    tuntermAclRedirectAdd up m t o proto k path fails
      = tuntermAclRedirectStack up (m.enter k t (m.slotFor up k t)) (m.slotFor up k t)
          ⟨k, t, path, ⟨0, 0⟩, o, proto = .ip6⟩ fails := by
  cases hk : m.sessionByMatchAndTableIndex (k, t) with
  | none =>
    simp only [RedirectMain.slotFor, hk, Option.getD_none]
    cases proto with
    | other => exact absurd rfl hp
    | ip4 => simp only [tuntermAclRedirectAdd, tuntermAclRedirectFind, hk]; rfl
    | ip6 => simp only [tuntermAclRedirectAdd, tuntermAclRedirectFind, hk]; rfl
  | some i =>
    have hsame : m.enter k t i = m := by
      unfold RedirectMain.enter
      rw [← hk, Function.update_eq_self]
    simp only [RedirectMain.slotFor, hk, Option.getD_some, hsame]
    cases proto with
    | other => exact absurd rfl hp
    | ip4 => simp only [tuntermAclRedirectAdd, tuntermAclRedirectFind, hk]
    | ip6 => simp only [tuntermAclRedirectAdd, tuntermAclRedirectFind, hk]

/-- For a rule. -/
theorem redirectAdd_eq (m : RedirectMain FibPath) (t : ℕ) (isIpv6 : Bool)
    (k : List (BitVec 8)) (path : FibPath) (fails : Option ApiError) :
    tuntermAclRedirectAdd up m t 0 (protoOf isIpv6) k path fails
      = tuntermAclRedirectStack up (m.enter k t (m.slotFor up k t)) (m.slotFor up k t)
          (newRedirect isIpv6 k t path) fails := by
  cases isIpv6 with
  | false => exact redirectAdd_stack up m t 0 (by decide) k path fails
  | true => exact redirectAdd_stack up m t 0 (by decide) k path fails

/-- A pool index that may be filled for a match. -/
theorem RedirectMain.Linked.slotFor_le (h : m.Linked) (k : List (BitVec 8)) (t : ℕ) :
    m.slotFor up k t ≤ List.length m.pool := by
  unfold RedirectMain.slotFor
  cases hk : m.sessionByMatchAndTableIndex (k, t) with
  | none => exact (up.poolGet.vacant m.pool).2
  | some i =>
    obtain ⟨ipr, hi, -⟩ := (h k t i).1 hk
    exact (SlotPool.lt_length_of_elt hi).le

/-- The entry at the index of a match, if any, is the entry of this match. -/
theorem RedirectMain.Linked.slotFor_elt (h : m.Linked) {k : List (BitVec 8)} {t : ℕ}
    {ipr : TuntermAclRedirect FibPath} (hi : m.pool.elt (m.slotFor up k t) = some ipr) :
    ipr.matchBytes = k ∧ ipr.tableIndex = t := by
  unfold RedirectMain.slotFor at hi
  cases hk : m.sessionByMatchAndTableIndex (k, t) with
  | none =>
    rw [hk, Option.getD_none, (up.poolGet.vacant m.pool).1] at hi
    cases hi
  | some i =>
    rw [hk, Option.getD_some] at hi
    obtain ⟨ipr', hi', hkt⟩ := (h k t i).1 hk
    rw [hi] at hi'
    obtain rfl := Option.some.inj hi'
    exact hkt

/-- Filling the index of a match with an entry for it keeps the hash and the pool linked. -/
theorem RedirectMain.Linked.fill (h : m.Linked) (ipr : TuntermAclRedirect FibPath)
    (tables : ℕ → Option ClassifyTable) :
    RedirectMain.Linked ⟨m.pool.fill (m.slotFor up ipr.matchBytes ipr.tableIndex) ipr,
      Function.update m.sessionByMatchAndTableIndex (ipr.matchBytes, ipr.tableIndex)
        (some (m.slotFor up ipr.matchBytes ipr.tableIndex)), tables⟩ := by
  intro k' t' i
  simp only [SlotPool.elt_fill_of_le (h.slotFor_le up ipr.matchBytes ipr.tableIndex)]
  by_cases hkt : (k', t') = (ipr.matchBytes, ipr.tableIndex)
  · -- the entry that was added
    obtain ⟨rfl, rfl⟩ := Prod.mk.inj hkt
    rw [Function.update_self]
    constructor
    · intro hi
      obtain rfl := Option.some.inj hi
      exact ⟨ipr, if_pos rfl, rfl, rfl⟩
    · rintro ⟨ipr', hi, hkt'⟩
      by_cases his : i = m.slotFor up ipr.matchBytes ipr.tableIndex
      · rw [his]
      · rw [if_neg his] at hi
        have hold := (h _ _ i).2 ⟨ipr', hi, hkt'⟩
        rw [RedirectMain.slotFor, hold]
        rfl
  · -- every other one
    rw [Function.update_of_ne hkt, h k' t' i]
    by_cases his : i = m.slotFor up ipr.matchBytes ipr.tableIndex
    · constructor
      · rintro ⟨ipr', hi, rfl, rfl⟩
        rw [his] at hi
        obtain ⟨hk, ht⟩ := h.slotFor_elt up hi
        exact absurd (Prod.ext hk ht) hkt
      · rintro ⟨ipr', hi, rfl, rfl⟩
        rw [if_pos his] at hi
        obtain rfl := Option.some.inj hi
        exact absurd rfl hkt
    · rw [if_neg his]

/-- Adding an entry keeps the hash and the pool linked. -/
theorem RedirectMain.Linked.redirectAdd (h : m.Linked) (t : ℕ) (isIpv6 : Bool)
    (k : List (BitVec 8)) (path : FibPath) (fails : Option ApiError) :
    (tuntermAclRedirectAdd up m t 0 (protoOf isIpv6) k path fails).2.Linked := by
  rw [redirectAdd_eq]
  exact h.fill up { newRedirect isIpv6 k t path with dpo := up.resolve path isIpv6 } _

/-- Entries after adding one. -/
theorem hasEntry_redirectAdd (m : RedirectMain FibPath) (t : ℕ) (isIpv6 : Bool)
    (k : List (BitVec 8)) (path : FibPath) (fails : Option ApiError) (k' : List (BitVec 8))
    (t' : ℕ) :
    (tuntermAclRedirectAdd up m t 0 (protoOf isIpv6) k path fails).2.HasEntry k' t' ↔
      (k' = k ∧ t' = t) ∨ m.HasEntry k' t' := by
  rw [redirectAdd_eq]
  show Function.update m.sessionByMatchAndTableIndex (k, t) (some (m.slotFor up k t)) (k', t')
      ≠ none ↔ _
  by_cases hkt : (k', t') = (k, t)
  · obtain ⟨rfl, rfl⟩ := Prod.mk.inj hkt
    simp
  · rw [Function.update_of_ne hkt]
    have hne : ¬ (k' = k ∧ t' = t) := fun hkt' => hkt (Prod.ext hkt'.1 hkt'.2)
    simp only [hne, false_or]
    exact Iff.rfl

/-- The table side of `tunterm_acl_redirect_add` is one session. -/
theorem redirectAdd_tables (m : RedirectMain FibPath) (t : ℕ) (isIpv6 : Bool)
    (k : List (BitVec 8)) (path : FibPath) (fails : Option ApiError) :
    (tuntermAclRedirectAdd up m t 0 (protoOf isIpv6) k path fails).1
        = (vnetClassifyAddSession m.tables t k (pathEntry up isIpv6 path) fails).1 ∧
      (tuntermAclRedirectAdd up m t 0 (protoOf isIpv6) k path fails).2.tables
        = (vnetClassifyAddSession m.tables t k (pathEntry up isIpv6 path) fails).2 := by
  rw [redirectAdd_eq]
  exact ⟨rfl, rfl⟩

/-- A session is added to one table only. -/
theorem addSession_of_ne (tables : ℕ → Option ClassifyTable) (t : ℕ) (k : List (BitVec 8))
    (e : ClassifyEntry) (fails : Option ApiError) {j : ℕ} (hj : j ≠ t) :
    (vnetClassifyAddSession tables t k e fails).2 j = tables j := by
  unfold vnetClassifyAddSession
  cases tables t with
  | none => rfl
  | some T =>
    cases fails with
    | some rv => rfl
    | none => exact Function.update_of_ne hj _ _

theorem OnlyTable.redirectAdd (m : RedirectMain FibPath) (t : ℕ) (isIpv6 : Bool)
    (k : List (BitVec 8)) (path : FibPath) (fails : Option ApiError) :
    OnlyTable t m (tuntermAclRedirectAdd up m t 0 (protoOf isIpv6) k path fails).2 where
  tables := fun j hj => by
    rw [(redirectAdd_tables up m t isIpv6 k path fails).2, addSession_of_ne _ _ _ _ _ hj]
  entries := fun k' j hj => by
    rw [hasEntry_redirectAdd]
    simp only [hj, and_false, false_or]

/-! ## Adding the rules of a request -/

/-- Why a rule is not added: its path cannot be decoded, its address is of another
family, or VPP cannot add its session. -/
def ruleError (isIpv6 : Bool) (rule : TuntermAclRule ApiPath) (fails : Option ApiError) :
    Option ApiError :=
  match up.fibApiPathDecode rule.path with
  | .error rv => some rv
  | .ok _ => if (if isIpv6 then 1 else 0) ≠ rule.dst.af then some .invalidValue3 else fails

/-- The error of the first rule that is not added, from rule `n` on. -/
def firstError (isIpv6 : Bool) (fails : ℕ → Option ApiError) :
    ℕ → List (TuntermAclRule ApiPath) → Option ApiError
  | _, [] => none
  | n, rule :: rules =>
    (ruleError up isIpv6 rule (fails n)).or (firstError isIpv6 fails (n + 1) rules)

/-- The rules before the first one that is not added. -/
def accepted (isIpv6 : Bool) (fails : ℕ → Option ApiError) :
    ℕ → List (TuntermAclRule ApiPath) → List (TuntermAclRule ApiPath)
  | _, [] => []
  | n, rule :: rules =>
    if ruleError up isIpv6 rule (fails n) = none then rule :: accepted isIpv6 fails (n + 1) rules
    else []

/-- The match of a rule. -/
def ruleKey (isIpv6 : Bool) (rule : TuntermAclRule ApiPath) : List (BitVec 8) :=
  matchOf isIpv6 rule.dst.un

/-- The session of a rule. -/
def ruleEntry (isIpv6 : Bool) (rule : TuntermAclRule ApiPath) : Option ClassifyEntry :=
  (up.fibApiPathDecode rule.path).toOption.map (pathEntry up isIpv6)

/-- What a request can do to one table `t` of the given family: entries stay, new ones
have the form of a match, and where there is no table there is none after. -/
structure AddsTo (isIpv6 : Bool) (t : ℕ) (m m' : RedirectMain FibPath) : Prop where
  linked : m'.Linked
  only : OnlyTable t m m'
  keeps : ∀ k, m.HasEntry k t → m'.HasEntry k t
  adds : ∀ k, m'.HasEntry k t → m.HasEntry k t ∨ ∃ un, k = matchOf isIpv6 un
  absent : m.tables t = none → m'.tables t = none

theorem AddsTo.refl {isIpv6 : Bool} {t : ℕ} (h : m.Linked) : AddsTo isIpv6 t m m :=
  ⟨h, .refl t m, fun _ hk => hk, fun _ hk => Or.inl hk, fun hk => hk⟩

theorem AddsTo.trans {isIpv6 : Bool} {t : ℕ} {m'' : RedirectMain FibPath}
    (h : AddsTo isIpv6 t m m') (h' : AddsTo isIpv6 t m' m'') : AddsTo isIpv6 t m m'' where
  linked := h'.linked
  only := h.only.trans h'.only
  keeps := fun k hk => h'.keeps k (h.keeps k hk)
  adds := fun k hk => (h'.adds k hk).elim (h.adds k) Or.inr
  absent := fun hk => h'.absent (h.absent hk)

/-- One rule. -/
theorem addRule_addsTo (h : m.Linked) (isIpv6 : Bool) (t : ℕ) (rule : TuntermAclRule ApiPath)
    (fails : Option ApiError) : AddsTo isIpv6 t m (addRule up isIpv6 t m rule fails).2 := by
  unfold addRule
  cases up.fibApiPathDecode rule.path with
  | error rv => exact .refl h
  | ok path =>
    by_cases haf : (if isIpv6 then 1 else 0) ≠ rule.dst.af
    · simp only [if_pos haf]
      exact .refl h
    · simp only [if_neg haf]
      refine ⟨h.redirectAdd up t isIpv6 _ path fails, .redirectAdd up m t isIpv6 _ path fails,
        ?_, ?_, ?_⟩
      · intro k hk
        exact (hasEntry_redirectAdd up m t isIpv6 _ path fails k t).2 (Or.inr hk)
      · intro k hk
        rcases (hasEntry_redirectAdd up m t isIpv6 _ path fails k t).1 hk with ⟨rfl, -⟩ | hk
        · exact Or.inr ⟨_, rfl⟩
        · exact Or.inl hk
      · intro hnone
        rw [show (if isIpv6 then DpoProto.ip6 else DpoProto.ip4) = protoOf isIpv6 from rfl,
          (redirectAdd_tables up m t isIpv6 _ path fails).2, vnetClassifyAddSession, hnone]
        exact hnone

/-- The rules of a request, whether they are all added or not. -/
theorem addRules_addsTo (isIpv6 : Bool) (t : ℕ) (fails : ℕ → Option ApiError)
    (rules : List (TuntermAclRule ApiPath)) :
    ∀ (n : ℕ) {m : RedirectMain FibPath}, m.Linked →
      AddsTo isIpv6 t m (addRules up isIpv6 t fails n rules m).2 := by
  induction rules with
  | nil => intro n m h; exact .refl h
  | cons rule rules ih =>
    intro n m h
    have hstep := addRule_addsTo up h isIpv6 t rule (fails n)
    rw [addRules]
    generalize addRule up isIpv6 t m rule (fails n) = out at hstep
    obtain ⟨rv, m'⟩ := out
    cases rv with
    | some e => exact hstep
    | none => exact hstep.trans (ih (n + 1) hstep.linked)

/-- One rule on a table of its family: it is added, with its session and an entry, exactly
if there is no reason against it. -/
theorem addRule_table {t : ℕ} {T : ClassifyTable} (isIpv6 : Bool) (ht : m.tables t = some T)
    (hmask : T.mask = tableMask isIpv6) (rule : TuntermAclRule ApiPath)
    (fails : Option ApiError) :
    (addRule up isIpv6 t m rule fails).1 = ruleError up isIpv6 rule fails ∧
      (ruleError up isIpv6 rule fails ≠ none →
        (addRule up isIpv6 t m rule fails).2.tables = m.tables) ∧
      (ruleError up isIpv6 rule fails = none →
        (addRule up isIpv6 t m rule fails).2.HasEntry (ruleKey isIpv6 rule) t ∧
        (addRule up isIpv6 t m rule fails).2.tables t = some { T with
          sessions := Function.update T.sessions (ruleKey isIpv6 rule)
            (ruleEntry up isIpv6 rule) }) := by
  unfold addRule ruleError ruleEntry
  cases up.fibApiPathDecode rule.path with
  | error rv => exact ⟨rfl, fun _ => rfl, fun h => nomatch h⟩
  | ok path =>
    by_cases haf : (if isIpv6 then 1 else 0) ≠ rule.dst.af
    · simp only [if_pos haf]
      exact ⟨trivial, fun _ => trivial, fun h => nomatch h⟩
    · simp only [if_neg haf]
      rw [show (if isIpv6 then DpoProto.ip6 else DpoProto.ip4) = protoOf isIpv6 from rfl,
        (redirectAdd_tables up m t isIpv6 _ path fails).1,
        (redirectAdd_tables up m t isIpv6 _ path fails).2, vnetClassifyAddSession, ht]
      cases fails with
      | some rv => exact ⟨rfl, fun _ => rfl, fun h => nomatch h⟩
      | none =>
        refine ⟨rfl, fun h => absurd rfl h, fun _ => ⟨?_, ?_⟩⟩
        · exact (hasEntry_redirectAdd up m t isIpv6 _ path none _ t).2 (Or.inl ⟨rfl, rfl⟩)
        · -- the match of a rule is its own key under the mask of the family
          show Function.update m.tables t (some { T with
            sessions := Function.update T.sessions (T.masked (matchOf isIpv6 rule.dst.un)) _ }) t
              = _
          rw [Function.update_self, ClassifyTable.masked, hmask, mask_matchOf]
          rfl

/-- **The rules of a request on a table of its family**: the error is that of the first
rule that cannot be added, and the rules before it have written their sessions. -/
theorem addRules_table (isIpv6 : Bool) (t : ℕ) (fails : ℕ → Option ApiError)
    (rules : List (TuntermAclRule ApiPath)) :
    ∀ (n : ℕ) {m : RedirectMain FibPath} {T : ClassifyTable}, m.Linked → m.tables t = some T →
      T.mask = tableMask isIpv6 →
      (addRules up isIpv6 t fails n rules m).1 = firstError up isIpv6 fails n rules ∧
      (addRules up isIpv6 t fails n rules m).2.tables t = some { T with
        sessions := writeAll (ruleKey isIpv6) (ruleEntry up isIpv6) T.sessions
          (accepted up isIpv6 fails n rules) } ∧
      ∀ rule ∈ accepted up isIpv6 fails n rules,
        (addRules up isIpv6 t fails n rules m).2.HasEntry (ruleKey isIpv6 rule) t := by
  induction rules with
  | nil =>
    intro n m T _ ht _
    refine ⟨rfl, ht, ?_⟩
    intro rule hrule
    cases hrule
  | cons rule rules ih =>
    intro n m T h ht hmask
    obtain ⟨hrv, hno, hyes⟩ := addRule_table up isIpv6 ht hmask rule (fails n)
    have hadds := addRule_addsTo up h isIpv6 t rule (fails n)
    rw [addRules, firstError, accepted]
    generalize addRule up isIpv6 t m rule (fails n) = out at hrv hno hyes hadds
    obtain ⟨rv, m'⟩ := out
    simp only at hrv hno hyes hadds ⊢
    cases rv with
    | some e =>
      -- the first rule that fails ends the loop; the ones before it were added
      rw [← hrv] at hno
      rw [← hrv, if_neg (by simp)]
      refine ⟨rfl, by rw [hno (by simp)]; exact ht, ?_⟩
      intro rule hrule
      cases hrule
    | none =>
      obtain ⟨hentry, htable⟩ := hyes hrv.symm
      obtain ⟨hrv', htable', hentries⟩ := ih (n + 1) hadds.linked htable hmask
      rw [← hrv, if_pos rfl]
      refine ⟨hrv', htable', ?_⟩
      intro rule' hrule
      rcases List.mem_cons.1 hrule with rfl | hrule
      · exact (addRules_addsTo up isIpv6 t fails rules (n + 1) hadds.linked).keeps _ hentry
      · exact hentries rule' hrule

/-! ## Clearing a table -/

/-- What clearing table `t` can do: entries and sessions of the table go, nothing comes. -/
structure ClearsIn (t : ℕ) (m m' : RedirectMain FibPath) : Prop where
  linked : m'.Linked
  only : OnlyTable t m m'
  pool : ∀ i ipr, m'.pool.elt i = some ipr → m.pool.elt i = some ipr
  absent : m.tables t = none → m'.tables t = none

theorem ClearsIn.refl {t : ℕ} (h : m.Linked) : ClearsIn t m m :=
  ⟨h, .refl t m, fun _ _ hi => hi, fun ht => ht⟩

theorem ClearsIn.trans {t : ℕ} {m'' : RedirectMain FibPath} (h : ClearsIn t m m')
    (h' : ClearsIn t m' m'') : ClearsIn t m m'' where
  linked := h'.linked
  only := h.only.trans h'.only
  pool := fun i ipr hi => h.pool i ipr (h'.pool i ipr hi)
  absent := fun ht => h'.absent (h.absent ht)

/-- Clearing leaves no entry that was not there. -/
theorem ClearsIn.hasEntry {t : ℕ} (h : ClearsIn t m m') (hm : m.Linked) {k : List (BitVec 8)}
    {j : ℕ} (hk : m'.HasEntry k j) : m.HasEntry k j := by
  obtain ⟨i, ipr, hi, hkj⟩ := h.linked.hasEntry_iff.1 hk
  exact hm.hasEntry_iff.2 ⟨i, ipr, h.pool i ipr hi, hkj⟩

/-- The index of an entry is its own. -/
theorem RedirectMain.Linked.index_eq (h : m.Linked) {i j : ℕ}
    {ipr ipr' : TuntermAclRedirect FibPath} (hi : m.pool.elt i = some ipr)
    (hj : m.pool.elt j = some ipr') (hk : ipr.matchBytes = ipr'.matchBytes)
    (ht : ipr.tableIndex = ipr'.tableIndex) : i = j := by
  have hi' := (h ipr.matchBytes ipr.tableIndex i).2 ⟨ipr, hi, rfl, rfl⟩
  have hj' := (h ipr'.matchBytes ipr'.tableIndex j).2 ⟨ipr', hj, rfl, rfl⟩
  rw [hk, ht, hj'] at hi'
  exact (Option.some.inj hi').symm

/-- **What deleting an entry can do**: nothing, where its session is missing, or remove the
entry and its session. -/
theorem delIpr_cases (m : RedirectMain FibPath) (i : ℕ) (ipr : TuntermAclRedirect FibPath) :
    (∃ e, tuntermAclRedirectDelIpr m i ipr = (some e, m) ∧
      ∀ T, m.tables ipr.tableIndex = some T → T.sessions (T.masked ipr.matchBytes) = none) ∨
    ∃ T, m.tables ipr.tableIndex = some T ∧ T.sessions (T.masked ipr.matchBytes) ≠ none ∧
      tuntermAclRedirectDelIpr m i ipr = (none,
        { pool := m.pool.clear i
          sessionByMatchAndTableIndex := Function.update m.sessionByMatchAndTableIndex
            (ipr.matchBytes, ipr.tableIndex) none
          tables := Function.update m.tables ipr.tableIndex (some { T with
            sessions := Function.update T.sessions (T.masked ipr.matchBytes) none }) }) := by
  unfold tuntermAclRedirectDelIpr vnetClassifyDelSession
  cases ht : m.tables ipr.tableIndex with
  | none => exact Or.inl ⟨_, rfl, fun T hT => nomatch hT⟩
  | some T =>
    cases hs : T.sessions (T.masked ipr.matchBytes) with
    | none =>
      refine Or.inl ⟨.noSuchEntry, by simp only [hs], ?_⟩
      rintro T' ⟨⟩
      exact hs
    | some e => exact Or.inr ⟨T, rfl, by rw [hs]; simp, by simp only [hs]⟩

/-- Deleting one entry of table `t`. -/
theorem delIpr_clearsIn (h : m.Linked) {i t : ℕ} {ipr : TuntermAclRedirect FibPath}
    (hi : m.pool.elt i = some ipr) (ht : ipr.tableIndex = t) :
    ClearsIn t m (tuntermAclRedirectDelIpr m i ipr).2 := by
  subst ht
  rcases delIpr_cases m i ipr with ⟨e, hdel, -⟩ | ⟨T, hT, -, hdel⟩
  · rw [hdel]
    exact .refl h
  · rw [hdel]
    refine ⟨?_, ⟨?_, ?_⟩, ?_, ?_⟩
    · intro k t j
      simp only [SlotPool.elt_clear]
      by_cases hkt : (k, t) = (ipr.matchBytes, ipr.tableIndex)
      · -- the deleted entry was the only one for its match
        obtain ⟨rfl, rfl⟩ := Prod.mk.inj hkt
        rw [Function.update_self]
        constructor
        · intro hj
          cases hj
        · rintro ⟨ipr', hj, hk, ht⟩
          by_cases hji : j = i
          · rw [if_pos hji] at hj
            cases hj
          · rw [if_neg hji] at hj
            exact absurd (h.index_eq hj hi hk ht) hji
      · rw [Function.update_of_ne hkt, h k t j]
        by_cases hji : j = i
        · rw [if_pos hji, hji, hi]
          constructor
          · rintro ⟨ipr', hipr, rfl, rfl⟩
            obtain rfl := Option.some.inj hipr
            exact absurd rfl hkt
          · rintro ⟨ipr', hipr, -⟩
            cases hipr
        · rw [if_neg hji]
    · intro j hj
      exact Function.update_of_ne hj _ _
    · intro k j hj
      have hne : (k, j) ≠ (ipr.matchBytes, ipr.tableIndex) := fun hkj => hj (Prod.mk.inj hkj).2
      unfold RedirectMain.HasEntry
      simp only
      rw [Function.update_of_ne hne]
    · intro j ipr' hj
      simp only [SlotPool.elt_clear] at hj
      by_cases hji : j = i
      · rw [if_pos hji] at hj
        cases hj
      · rwa [if_neg hji] at hj
    · intro hnone
      rw [hnone] at hT
      cases hT

/-- The entries of a list of indices all belong to table `t`. -/
def EntriesIn (m : RedirectMain FibPath) (t : ℕ) (is : List ℕ) : Prop :=
  ∀ i ∈ is, ∀ ipr, m.pool.elt i = some ipr → ipr.tableIndex = t

theorem EntriesIn.clears {t : ℕ} {is : List ℕ} (h : EntriesIn m t is) (hc : ClearsIn t m m') :
    EntriesIn m' t is :=
  fun i hi ipr hipr => h i hi ipr (hc.pool i ipr hipr)

/-- The loop that deletes entries of table `t`, also if it stops half-way. -/
theorem clearLoop_clearsIn {t : ℕ} (is : List ℕ) :
    ∀ {m : RedirectMain FibPath}, m.Linked → EntriesIn m t is → ClearsIn t m (clearLoop is m).2 := by
  induction is with
  | nil => intro m h _; exact .refl h
  | cons i is ih =>
    intro m h hin
    have htail : EntriesIn m t is := fun j hj => hin j (List.mem_cons_of_mem i hj)
    rw [clearLoop]
    cases hi : m.pool.elt i with
    | none => exact ih h htail
    | some ipr =>
      have hc := delIpr_clearsIn h hi (hin i List.mem_cons_self ipr hi)
      dsimp only
      generalize tuntermAclRedirectDelIpr m i ipr = out at hc
      obtain ⟨rv, m'⟩ := out
      cases rv with
      | some e => exact hc
      | none => exact hc.trans (ih hc.linked (htail.clears hc))

theorem entriesIn_entriesOf (m : RedirectMain FibPath) (t : ℕ) : EntriesIn m t (m.entriesOf t) := by
  intro i hi ipr hipr
  obtain ⟨ipr', hi', ht⟩ := SlotPool.mem_indices.1 hi
  rw [hipr] at hi'
  obtain rfl := Option.some.inj hi'
  exact of_decide_eq_true ht

/-- `tunterm_acl_redirect_clear` works on its table only. -/
theorem clear_clearsIn (h : m.Linked) (t : ℕ) : ClearsIn t m (tuntermAclRedirectClear m t).2 :=
  clearLoop_clearsIn _ h (entriesIn_entriesOf m t)

/-- A loop that ends well has freed all its entries. -/
theorem clearLoop_frees {t : ℕ} (is : List ℕ) :
    ∀ {m : RedirectMain FibPath}, m.Linked → EntriesIn m t is → (clearLoop is m).1 = none →
      ∀ i ∈ is, (clearLoop is m).2.pool.elt i = none := by
  induction is with
  | nil => intro m _ _ _ i hi; cases hi
  | cons i is ih =>
    intro m h hin hrv j hj
    have htail : EntriesIn m t is := fun j hj => hin j (List.mem_cons_of_mem i hj)
    rw [clearLoop] at hrv ⊢
    -- an index that is free stays free
    have hstays : ∀ {m' : RedirectMain FibPath}, ClearsIn t m' (clearLoop is m').2 →
        m'.pool.elt i = none → (clearLoop is m').2.pool.elt i = none := by
      intro m' hc hnone
      cases hi : (clearLoop is m').2.pool.elt i with
      | none => rfl
      | some ipr => rw [hc.pool i ipr hi] at hnone; cases hnone
    cases hi : m.pool.elt i with
    | none =>
      rw [hi] at hrv
      rcases List.mem_cons.1 hj with rfl | hj
      · exact hstays (clearLoop_clearsIn is h htail) hi
      · exact ih h htail hrv j hj
    | some ipr =>
      rw [hi] at hrv
      have hc := delIpr_clearsIn h hi (hin i List.mem_cons_self ipr hi)
      rcases delIpr_cases m i ipr with ⟨e, hdel, -⟩ | ⟨T, -, -, hdel⟩
      · simp only [hdel] at hrv
        cases hrv
      · simp only [hdel] at hrv hc ⊢
        rcases List.mem_cons.1 hj with rfl | hj
        · refine hstays (clearLoop_clearsIn is hc.linked (htail.clears hc)) ?_
          simp [SlotPool.elt_clear]
        · exact ih hc.linked (htail.clears hc) hrv j hj

/-- **A clear that ends well leaves no entry of the table.** -/
theorem clear_no_entry (h : m.Linked) {t : ℕ} (hrv : (tuntermAclRedirectClear m t).1 = none)
    (k : List (BitVec 8)) : ¬ (tuntermAclRedirectClear m t).2.HasEntry k t := by
  intro hk
  have hc := clear_clearsIn h t
  obtain ⟨i, ipr, hi, -, ht⟩ := hc.linked.hasEntry_iff.1 hk
  have hmem : i ∈ m.entriesOf t :=
    SlotPool.mem_indices.2 ⟨ipr, hc.pool i ipr hi, decide_eq_true ht⟩
  have hfree := clearLoop_frees _ h (entriesIn_entriesOf m t) hrv i hmem
  unfold tuntermAclRedirectClear at hi
  rw [hfree] at hi
  cases hi

end Redirect

end TuntermAcl
