/-
# Interfaces that come and go

The plugin is not told when an interface is deleted, so the slots of the interface keep
what was in them.  They are found again by the next interface with the same index, and
`tunterm_acl_del` counts them as uses.  `no_leak_run` says exactly when that matters: the
slots are clean in every state of a run if and only if each interface is deleted with no
ACL attached to it.
-/
import SonicVpp.TuntermAclAttach

open RunInvariant

namespace TuntermAcl

section Interfaces

variable {ApiPath FibPath : Type} (up : Upstream ApiPath FibPath)

/-! ## Clean slots -/

/-- ACLs are attached to existing interfaces only. -/
def TuntermAclMain.SlotsClean (s : TuntermAclMain FibPath) : Prop :=
  ∀ i, s.IsAttached i → s.swInterfaces i = true

/-- An ACL that is attached to no existing interface is not refused as in use. -/
def TuntermAclMain.UnusedDeletable (s : TuntermAclMain FibPath) : Prop :=
  ∀ t, (∀ f i, s.swInterfaces i = true → s.slot f i ≠ t) →
    (tuntermAclDel s t).rv ≠ some .rsrcInUse

/-- Nothing is left of deleted interfaces. -/
def TuntermAclMain.NoLeak (s : TuntermAclMain FibPath) : Prop := s.SlotsClean ∧ s.UnusedDeletable

/-- A clear fails for want of the table or of a session only. -/
theorem clearLoop_rv (is : List ℕ) :
    ∀ m : RedirectMain FibPath, (clearLoop is m).1 ≠ some .rsrcInUse := by
  induction is with
  | nil => intro m h; cases h
  | cons i is ih =>
    intro m
    rw [clearLoop]
    cases m.pool.elt i with
    | none => exact ih m
    | some ipr =>
      simp only [tuntermAclRedirectDelIpr, vnetClassifyDelSession]
      cases m.tables ipr.tableIndex with
      | none => simp
      | some T =>
        dsimp only
        cases T.sessions (T.masked ipr.matchBytes) with
        | none => simp
        | some e => exact ih _

/-- With clean slots every use of an ACL is one by an existing interface. -/
theorem TuntermAclMain.SlotsClean.unusedDeletable {s : TuntermAclMain FibPath}
    (h : s.SlotsClean) : s.UnusedDeletable := by
  intro t hunused
  unfold tuntermAclDel
  by_cases ht : t = invalidIndex
  · rw [if_pos ht]
    simp
  · have hnot : ∀ f, t ∉ s.slots f := by
      intro f hmem
      obtain ⟨i, hi⟩ := exists_slot hmem
      exact hunused f i (h i ⟨f, by rw [hi]; exact ht⟩) hi
    rw [if_neg ht, if_neg (show t ∉ s.classifyTableIndexBySwIfIndexV4 from hnot false),
      if_neg (show t ∉ s.classifyTableIndexBySwIfIndexV6 from hnot true)]
    have hrv := clearLoop_rv (s.redirect.entriesOf t) s.redirect
    unfold tuntermAclRedirectClear
    generalize clearLoop (s.redirect.entriesOf t) s.redirect = out at hrv
    obtain ⟨rv, m⟩ := out
    cases rv with
    | none => simp
    | some e => exact hrv

/-! ## Steps -/

/-- An interface is deleted with no ACL attached to it. -/
def DeletesDetached (w : AclWorld FibPath) : AclEvent ApiPath → Prop
  | .deleteInterface i => ¬ w.main.IsAttached i
  | _ => True

/-- A new interface has no ACL attached. -/
def CreatesDetached (w : AclWorld FibPath) : AclEvent ApiPath → Prop
  | .createInterface i => ¬ w.main.IsAttached i
  | _ => True

theorem SameSlots.slotsClean {s s' : TuntermAclMain FibPath} (h : SameSlots s s')
    (hs : s.SlotsClean) : s'.SlotsClean := by
  rintro i ⟨f, hf⟩
  rw [h.swInterfaces]
  exact hs i ⟨f, (h.slot f i) ▸ hf⟩

/-- An interface request writes the slots of an existing interface only. -/
theorem slotsClean_interfaceAddDel {s : TuntermAclMain FibPath} (hs : s.SlotsClean)
    (isAdd : Bool) (i t : ℕ) (fails : Option ApiError) :
    (tuntermAclInterfaceAddDel s isAdd i t fails).main.SlotsClean := by
  rcases interfaceAddDel_cases s isAdd i t fails with
    ⟨-, hs', -⟩ | ⟨-, hi, hframe, -, hcases⟩
  · rw [hs']
    exact hs
  · rintro j ⟨f, hf⟩
    rw [hframe.swInterfaces]
    by_cases hji : j = i
    · rw [hji]
      exact hi
    · refine hs j ⟨f, ?_⟩
      rcases hcases with ⟨-, hatt⟩ | ⟨-, -, href, -⟩ | ⟨-, -, -, hdet⟩
      · rwa [hatt.slot, if_neg fun h => hji h.2] at hf
      · rwa [href.slot] at hf
      · rwa [hdet.slot, if_neg fun h => hji h.2] at hf

/-- **The slots stay clean in a step exactly if it deletes no interface with an ACL.** -/
theorem slotsClean_step_iff {w : AclWorld FibPath} (h : w.main.SlotsClean)
    (e : AclEvent ApiPath) :
    (aclStep up w e).main.SlotsClean ↔ DeletesDetached w e := by
  cases e with
  | addReplace mp env =>
    exact iff_of_true ((addReplace_sameSlots up w.main mp env).slotsClean h) trivial
  | del t => exact iff_of_true ((del_sameSlots w.main t).slotsClean h) trivial
  | interfaceAddDel isAdd i t fails =>
    exact iff_of_true (slotsClean_interfaceAddDel h isAdd i t fails) trivial
  | otherTable i t => exact iff_of_true h trivial
  | createInterface i =>
    refine iff_of_true ?_ trivial
    intro j hj
    show Function.update w.main.swInterfaces i true j = true
    by_cases hji : j = i
    · rw [hji, Function.update_self]
    · rw [Function.update_of_ne hji]
      exact h j hj
  | deleteInterface i =>
    constructor
    · intro hclean hi
      have hex : Function.update w.main.swInterfaces i false i = true := hclean i hi
      rw [Function.update_self] at hex
      cases hex
    · intro hi j hj
      have hji : j ≠ i := by
        rintro rfl
        exact hi hj
      show Function.update w.main.swInterfaces i false j = true
      rw [Function.update_of_ne hji]
      exact h j hj

/-! ## Runs -/

/-- **Deleted interfaces leave nothing behind in a run exactly if each is deleted with no
ACL attached to it.**  The requests of the run are arbitrary. -/
theorem no_leak_run (tables : ℕ → Option ClassifyTable) {es : List (AclEvent ApiPath)}
    (hadm : Allowed (aclStep up) Admissible (AclWorld.init tables) es) :
    Allowed (aclStep up) (fun w e => (aclStep up w e).main.NoLeak ∧ CreatesDetached w e)
        (AclWorld.init tables) es ↔
      Allowed (aclStep up) DeletesDetached (AclWorld.init tables) es := by
  have hinit : (AclWorld.init tables : AclWorld FibPath).main.SlotsClean := by
    rintro i ⟨f, hf⟩
    exact absurd (slot_init tables f i) hf
  have hkeeps := allowed_iff_of_invariant (aclStep up) Admissible (fun w => w.main.SlotsClean)
    (fun w e h _ => slotsClean_step_iff up h e)
    (fun w e h _ he => (slotsClean_step_iff up h e).2 he) hinit hadm
  constructor
  · intro h
    exact hkeeps.1 (h.mono (aclStep up) fun w e he => he.1.1)
  · -- clean slots give the rest: an index that is free for a new interface has empty slots
    intro h
    refine Allowed.of_keeps (aclStep up) (fun w => w.main.SlotsClean) ?_ hinit hadm (hkeeps.2 h)
    intro w e hw hadm hclean
    refine ⟨⟨hclean, hclean.unusedDeletable⟩, ?_⟩
    cases e with
    | createInterface i =>
      intro hi
      have hfree : w.main.swInterfaces i = false := hadm
      rw [hw i hi] at hfree
      cases hfree
    | _ => trivial

end Interfaces

/-- An ACL is attached to interface 1, `between` happens, and the interface is deleted and
created again. -/
def recreateRun (between : List (AclEvent (Option ℕ))) : List (AclEvent (Option ℕ)) :=
  [.createInterface 1, .addReplace ⟨invalidIndex, false, 0, []⟩ ⟨.ok 5, fun _ => none⟩,
    .interfaceAddDel true 1 5 none] ++ between ++ [.deleteInterface 1, .createInterface 1]

/-- The new interface 1 has the ACL of the old one, and before it was created the ACL
could not be deleted. -/
theorem deleted_interface_leaks :
    Allowed (aclStep plainFib) Admissible (AclWorld.init fun _ => none) (recreateRun []) ∧
      (tuntermAclDel (run (aclStep plainFib) (AclWorld.init fun _ => none)
        ((recreateRun []).take 4)).main 5).rv = some .rsrcInUse ∧
      ¬ Allowed (aclStep plainFib) (fun w e => (aclStep plainFib w e).main.NoLeak ∧
        CreatesDetached w e) (AclWorld.init fun _ => none) (recreateRun []) := by
  refine ⟨⟨rfl, ?_, trivial, trivial, rfl, trivial⟩, by decide, ?_⟩
  · intro i hi
    obtain rfl : 5 = i := Option.some.inj hi
    exact ⟨rfl, by decide⟩
  · rintro ⟨-, -, -, -, ⟨-, hnew⟩, -⟩
    exact hnew ⟨false, by decide⟩

/-- Nothing is left behind if the ACL is detached first. -/
theorem no_leak_run_detached :
    Allowed (aclStep plainFib) (fun w e => (aclStep plainFib w e).main.NoLeak ∧
      CreatesDetached w e) (AclWorld.init fun _ => none)
      (recreateRun [.interfaceAddDel false 1 5 none]) := by
  have hadm : Allowed (aclStep plainFib) Admissible (AclWorld.init fun _ => none)
      (recreateRun [.interfaceAddDel false 1 5 none]) := by
    refine ⟨rfl, ?_, trivial, trivial, trivial, rfl, trivial⟩
    intro i hi
    obtain rfl : 5 = i := Option.some.inj hi
    exact ⟨rfl, by decide⟩
  refine (no_leak_run plainFib (fun _ => none) hadm).2
    ⟨trivial, trivial, trivial, trivial, ?_, trivial, trivial⟩
  rintro ⟨f, hf⟩
  cases f with
  | false => exact hf (by decide)
  | true => exact hf (by decide)

end TuntermAcl
