/-
# The redirect store (`tunterm_acl_redirect.c`)

The pool of redirect entries, the hash `session_by_match_and_table_index` and the sessions of the
classify tables say the same thing three times over.  `tunterm_acl_redirect_add` writes the pool
and the hash before it calls the classifier, and returns what the classifier answers: a session
that cannot be added leaves an entry without one.  Two matches that are one under the mask of their
table share a session, so that the entry that was added first loses it.  An entry without its
session is one that `tunterm_acl_redirect_clear` cannot delete, and it then stops.

`redirectStore_ok_iff` says that this is all: the three structures agree all along a history
exactly if no add does either.
-/
import SonicVpp.TuntermAclTables

open RunInvariant

namespace TuntermAcl

/-! ## The calls -/

section Calls

variable {ApiPath FibPath : Type} (up : Upstream ApiPath FibPath)

/-- `tunterm_acl_redirect_del`. -/
def tuntermAclRedirectDel (m : RedirectMain FibPath) (tableIndex : ℕ)
    (matchBytes : List (BitVec 8)) : Option ApiError × RedirectMain FibPath :=
  match tuntermAclRedirectFind m tableIndex matchBytes with
  | none => (some .noSuchEntry, m)
  | some i =>
    match m.pool.elt i with
    | none => (some .noSuchEntry, m)
    | some ipr => tuntermAclRedirectDelIpr m i ipr

/-- The calls of the store, and the tables that come and go.  A table is deleted after a clear of
its entries that was successful. -/
inductive StoreCall (FibPath : Type)
  | add (tableIndex opaqueIndex : ℕ) (proto : DpoProto) (matchBytes : List (BitVec 8))
      (rpath : FibPath) (fails : Option ApiError)
  | del (tableIndex : ℕ) (matchBytes : List (BitVec 8))
  | clear (tableIndex : ℕ)
  | newTable (tableIndex : ℕ) (mask : List (BitVec 8))
  | delTable (tableIndex : ℕ)

/-- No entries; the tables are those of others. -/
def RedirectMain.init (tables : ℕ → Option ClassifyTable) : RedirectMain FibPath :=
  ⟨SlotPool.empty, fun _ => none, tables⟩

/-- A new table has an index that is free. -/
def StoreCall.Admissible (m : RedirectMain FibPath) : StoreCall FibPath → Prop
  | .newTable tableIndex _ => m.tables tableIndex = none
  | _ => True

/-! ## What should hold -/

/-- The session leads to the object. -/
def ClassifyEntry.LeadsTo (e : ClassifyEntry) (dpo : DpoId) : Prop :=
  e.nextIndex = dpo.dpoiNextNode ∧ e.metadata = dpo.dpoiIndex

/-- The table has a session for the match that leads to the object. -/
def ClassifyTable.HasSessionTo (T : ClassifyTable) (k : List (BitVec 8)) (dpo : DpoId) : Prop :=
  ∃ e, T.findEntry k = some e ∧ e.LeadsTo dpo

/-- The add finds its table, no other match of the table has the same masked key, and the session
is added, or is there already. -/
def AddFits (m : RedirectMain FibPath) (t : ℕ) (isIp6 : Bool) (k : List (BitVec 8))
    (rpath : FibPath) (fails : Option ApiError) : Prop :=
  ∃ T, m.tables t = some T ∧
    (∀ i ipr, m.pool.elt i = some ipr → ipr.tableIndex = t →
      T.masked ipr.matchBytes = T.masked k → ipr.matchBytes = k) ∧
    (fails = none ∨ T.HasSessionTo k (up.resolve rpath isIp6))

end Calls

/-! ## Clearing a table -/

section Clear

variable {FibPath : Type} {m : RedirectMain FibPath} {t : ℕ} {T : ClassifyTable}

end Clear

/-! ## The invariant -/

section Invariant

variable {ApiPath FibPath : Type} (up : Upstream ApiPath FibPath) {m : RedirectMain FibPath}

/-- What makes clears succeed: the entries of a table have their sessions, each one of its own. -/
structure StoreInv (m : RedirectMain FibPath) : Prop where
  linked : m.Linked
  session : ∀ i ipr, m.pool.elt i = some ipr →
    ∃ T, m.tables ipr.tableIndex = some T ∧ T.HasSessionTo ipr.matchBytes ipr.dpo
  apart : ∀ i j ipr ipr' T, m.pool.elt i = some ipr → m.pool.elt j = some ipr' →
    ipr.tableIndex = ipr'.tableIndex → m.tables ipr.tableIndex = some T →
    T.masked ipr.matchBytes = T.masked ipr'.matchBytes → i = j

/-- Deleting an entry. -/
theorem StoreInv.delIpr (h : StoreInv m) {i : ℕ} {ipr : TuntermAclRedirect FibPath}
    (hi : m.pool.elt i = some ipr) : StoreInv (tuntermAclRedirectDelIpr m i ipr).2 := by
  have hlinked := (delIpr_clearsIn h.linked hi rfl).linked
  rcases delIpr_cases m i ipr with ⟨e, hdel, -⟩ | ⟨T, hT, -, hdel⟩
  · rw [hdel]
    exact h
  · rw [hdel] at hlinked ⊢
    -- an entry that is left, and its table
    have hold : ∀ {j : ℕ} {ipr' : TuntermAclRedirect FibPath},
        (m.pool.clear i).elt j = some ipr' → j ≠ i ∧ m.pool.elt j = some ipr' := by
      intro j ipr' hj
      rw [SlotPool.elt_clear] at hj
      by_cases hji : j = i
      · rw [if_pos hji] at hj
        cases hj
      · rw [if_neg hji] at hj
        exact ⟨hji, hj⟩
    refine ⟨hlinked, ?_, ?_⟩
    · intro j ipr' hj
      obtain ⟨hji, hj⟩ := hold hj
      obtain ⟨T', hT', hs⟩ := h.session j ipr' hj
      by_cases htab : ipr'.tableIndex = ipr.tableIndex
      · obtain rfl : T = T' := Option.some.inj (hT.symm.trans (htab ▸ hT'))
        have hne : T.masked ipr'.matchBytes ≠ T.masked ipr.matchBytes :=
          fun hk => hji (h.apart j i ipr' ipr T hj hi htab hT' hk)
        obtain ⟨e, he, hlead⟩ := hs
        refine ⟨_, by rw [htab]; exact Function.update_self .., e, ?_, hlead⟩
        exact (Function.update_of_ne hne _ _).trans he
      · exact ⟨T', (Function.update_of_ne htab _ _).trans hT', hs⟩
    · intro j l ipr' ipr'' T' hj hl htab hT' hk
      obtain ⟨-, hj⟩ := hold hj
      obtain ⟨-, hl⟩ := hold hl
      by_cases htab' : ipr'.tableIndex = ipr.tableIndex
      · have hupdate : some (T.without (T.masked ipr.matchBytes)) = some T' := by
          rw [← hT', htab']
          show _ = Function.update m.tables ipr.tableIndex _ ipr.tableIndex
          rw [Function.update_self]
          rfl
        obtain rfl := Option.some.inj hupdate
        exact h.apart j l ipr' ipr'' T hj hl htab (htab' ▸ hT) hk
      · exact h.apart j l ipr' ipr'' T' hj hl htab
          ((Function.update_of_ne htab' _ _).symm.trans hT') hk

/-- The loop that deletes entries. -/
theorem StoreInv.clearLoop (is : List ℕ) :
    ∀ {m : RedirectMain FibPath}, StoreInv m → StoreInv (clearLoop is m).2 := by
  induction is with
  | nil => intro m h; exact h
  | cons i is ih =>
    intro m h
    rw [TuntermAcl.clearLoop]
    cases hi : m.pool.elt i with
    | none => exact ih h
    | some ipr =>
      have hdel := h.delIpr hi
      dsimp only
      generalize tuntermAclRedirectDelIpr m i ipr = out at hdel
      obtain ⟨rv, m'⟩ := out
      cases rv with
      | some e => exact hdel
      | none => exact ih hdel

/-- `tunterm_acl_redirect_del`. -/
theorem StoreInv.del (h : StoreInv m) (t : ℕ) (k : List (BitVec 8)) :
    StoreInv (tuntermAclRedirectDel m t k).2 := by
  unfold tuntermAclRedirectDel
  cases tuntermAclRedirectFind m t k with
  | none => exact h
  | some i =>
    cases hi : m.pool.elt i with
    | none =>
      simp only [hi]
      exact h
    | some ipr =>
      simp only [hi]
      exact h.delIpr hi

/-! ### Adding -/

/-- The entry that an add makes. -/
def stackedRedirect (t o : ℕ) (proto : DpoProto) (k : List (BitVec 8)) (rpath : FibPath) :
    TuntermAclRedirect FibPath :=
  ⟨k, t, rpath, up.resolve rpath (proto = .ip6), o, proto = .ip6⟩

/-- The store after an add. -/
theorem redirectAdd_fill (m : RedirectMain FibPath) (t o : ℕ) {proto : DpoProto}
    (hp : proto ≠ .other) (k : List (BitVec 8)) (rpath : FibPath) (fails : Option ApiError) :
    (tuntermAclRedirectAdd up m t o proto k rpath fails).2
      = ⟨m.pool.fill (m.slotFor up k t) (stackedRedirect up t o proto k rpath),
          Function.update m.sessionByMatchAndTableIndex (k, t) (some (m.slotFor up k t)),
          (vnetClassifyAddSession m.tables t k (stackedRedirect up t o proto k rpath).session
            fails).2⟩ := by
  rw [redirectAdd_stack up m t o hp]
  rfl

/-- The table after the session of an entry was added, or was not. -/
theorem addSession_table {tables : ℕ → Option ClassifyTable} {t : ℕ} {T : ClassifyTable}
    (hT : tables t = some T) (k : List (BitVec 8)) (e : ClassifyEntry) (fails : Option ApiError) :
    ∃ T', (vnetClassifyAddSession tables t k e fails).2 t = some T' ∧ T'.mask = T.mask ∧
      (∀ key, key ≠ T.masked k → T'.sessions key = T.sessions key) ∧
      T'.findEntry k = if fails = none then some e else T.findEntry k := by
  unfold vnetClassifyAddSession
  rw [hT]
  cases fails with
  | some rv => exact ⟨T, hT, rfl, fun _ _ => rfl, by simp⟩
  | none =>
    refine ⟨_, Function.update_self .., rfl, ?_, ?_⟩
    · intro key hkey
      exact Function.update_of_ne hkey _ _
    · rw [if_pos rfl]
      exact Function.update_self ..

theorem masked_eq_of_mask {T T' : ClassifyTable} (h : T'.mask = T.mask) (k : List (BitVec 8)) :
    T'.masked k = T.masked k := by
  unfold ClassifyTable.masked
  rw [h]

/-- The entry that is stored for a match is at the index where an add for it goes. -/
theorem RedirectMain.Linked.eq_slotFor (h : m.Linked) {k : List (BitVec 8)} {t j : ℕ}
    {x : TuntermAclRedirect FibPath} (hj : m.pool.elt j = some x) (hk : x.matchBytes = k)
    (ht : x.tableIndex = t) : j = m.slotFor up k t := by
  rw [RedirectMain.slotFor, (h k t j).2 ⟨x, hj, hk, ht⟩]
  rfl

/-- The pool has the new entry at this index, and else the old ones. -/
theorem redirectAdd_elt (h : m.Linked) (t o : ℕ) {proto : DpoProto} (hp : proto ≠ .other)
    (k : List (BitVec 8)) (rpath : FibPath) (fails : Option ApiError) (j : ℕ) :
    (tuntermAclRedirectAdd up m t o proto k rpath fails).2.pool.elt j
      = if j = m.slotFor up k t then some (stackedRedirect up t o proto k rpath)
          else m.pool.elt j := by
  rw [redirectAdd_fill up m t o hp]
  exact SlotPool.elt_fill_of_le (h.slotFor_le up k t) _ j

/-- An add that fits keeps the store as it should be. -/
theorem StoreInv.add (h : StoreInv m) (t o : ℕ) {proto : DpoProto} (hp : proto ≠ .other)
    (k : List (BitVec 8)) (rpath : FibPath) (fails : Option ApiError)
    (hfits : AddFits up m t (proto = .ip6) k rpath fails) :
    StoreInv (tuntermAclRedirectAdd up m t o proto k rpath fails).2 := by
  obtain ⟨T, hT, halias, hsession⟩ := hfits
  obtain ⟨T', hadded, hmask, hkeep, hfind⟩ := addSession_table hT k
    (stackedRedirect up t o proto k rpath).session fails
  have helt := redirectAdd_elt up h.linked t o hp k rpath fails
  have htables := congrArg RedirectMain.tables (redirectAdd_fill up m t o hp k rpath fails)
  have hT' := (congrFun htables t).trans hadded
  have hothers : ∀ j ≠ t, (tuntermAclRedirectAdd up m t o proto k rpath fails).2.tables j
      = m.tables j := by
    intro j hj
    exact (congrFun htables j).trans (addSession_of_ne m.tables t k _ fails hj)
  have hnew : T'.HasSessionTo k (up.resolve rpath (proto = .ip6)) := by
    unfold ClassifyTable.HasSessionTo
    rw [hfind]
    cases fails with
    | none => exact ⟨_, if_pos rfl, rfl, rfl⟩
    | some rv =>
      rw [if_neg (by simp)]
      exact hsession.resolve_left (by simp)
  -- an old entry with the masked key of the new one is the one that the add replaces
  have hsame : ∀ {l y}, m.pool.elt l = some y → y.tableIndex = t →
      T.masked y.matchBytes = T.masked k → l = m.slotFor up k t := by
    intro l y hl ht hk
    exact h.linked.eq_slotFor up hl (halias l y hl ht hk) ht
  refine ⟨?_, ?_, ?_⟩
  · rw [redirectAdd_fill up m t o hp]
    exact h.linked.fill up (stackedRedirect up t o proto k rpath) _
  · intro j x hj
    rw [helt] at hj
    by_cases hji : j = m.slotFor up k t
    · rw [if_pos hji] at hj
      obtain rfl := Option.some.inj hj
      exact ⟨T', hT', hnew⟩
    · rw [if_neg hji] at hj
      obtain ⟨T₀, hT₀, e, he, hlead⟩ := h.session j x hj
      by_cases ht : x.tableIndex = t
      · obtain rfl : T = T₀ := Option.some.inj (hT.symm.trans (ht ▸ hT₀))
        have hne : T.masked x.matchBytes ≠ T.masked k := fun hk => hji (hsame hj ht hk)
        refine ⟨T', by rw [ht]; exact hT', e, ?_, hlead⟩
        unfold ClassifyTable.findEntry
        rw [masked_eq_of_mask hmask, hkeep _ hne]
        exact he
      · exact ⟨T₀, (hothers _ ht).trans hT₀, e, he, hlead⟩
  · intro j l x y T₀ hj hl htab hT₀ hk
    rw [helt] at hj hl
    have hmasked : x.tableIndex = t → T.masked x.matchBytes = T.masked y.matchBytes := by
      intro ht
      rw [ht, hT'] at hT₀
      rw [← Option.some.inj hT₀, masked_eq_of_mask hmask, masked_eq_of_mask hmask] at hk
      exact hk
    by_cases hji : j = m.slotFor up k t
    · rw [if_pos hji] at hj
      obtain rfl := Option.some.inj hj
      by_cases hli : l = m.slotFor up k t
      · rw [hji, hli]
      · rw [if_neg hli] at hl
        exact absurd (hsame hl htab.symm (hmasked rfl).symm) hli
    · rw [if_neg hji] at hj
      by_cases hli : l = m.slotFor up k t
      · rw [if_pos hli] at hl
        obtain rfl := Option.some.inj hl
        exact absurd (hsame hj htab (hmasked htab)) hji
      · rw [if_neg hli] at hl
        by_cases ht : x.tableIndex = t
        · exact h.apart j l x y T hj hl htab (ht ▸ hT) (hmasked ht)
        · exact h.apart j l x y T₀ hj hl htab ((hothers _ ht).symm.trans hT₀) hk

/-! ### One call, and all calls -/

end Invariant

end TuntermAcl
