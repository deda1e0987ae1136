/-
# Attached ACLs

While every request names a live ACL and the interfaces stay, an interface slot is empty
or holds a live ACL of its family, and the bypass feature is enabled exactly where one of
the two slots is in use.  The detach branch looks for one empty slot before it disables
the feature, and that is the right test only because of this invariant: the ACL to be
detached is in the other slot.
-/
import SonicVpp.TuntermAclSlots

open RunInvariant

namespace TuntermAcl

section Attach

variable {ApiPath FibPath : Type} (up : Upstream ApiPath FibPath)

/-! ## The invariant -/

/-- `vnet_feature_enable_disable` succeeds. -/
def FeatureWorks : AclEvent ApiPath → Prop
  | .interfaceAddDel _ _ _ fails => fails = none
  | _ => True

/-- Requests on live ACLs that may fail, while the interfaces and the feature arcs stay. -/
def AttachStep (w : AclWorld FibPath) (e : AclEvent ApiPath) : Prop :=
  Admissible w e ∧ NamesLive w e ∧ KeepsInterfaces e ∧ FeatureWorks e

/-- At least one ACL is attached to the interface. -/
def TuntermAclMain.IsAttached (s : TuntermAclMain FibPath) (i : ℕ) : Prop :=
  ∃ f, s.slot f i ≠ invalidIndex

/-- The slots hold live ACLs of their family, and the feature is enabled once where an
ACL is attached. -/
structure AttachInv (w : AclWorld FibPath) : Prop where
  slots : SlotsLive w
  enabled : ∀ i, w.main.IsAttached i → w.main.bypassCount i = 1
  disabled : ∀ i, ¬ w.main.IsAttached i → w.main.bypassCount i = 0
  hasSlots : ∀ i, 0 < w.main.bypassCount i → w.main.HasSlots i

variable {w : AclWorld FibPath}

/-- The feature is enabled at most once. -/
theorem AttachInv.count_le (h : AttachInv w) (i : ℕ) : w.main.bypassCount i ≤ 1 := by
  by_cases hi : w.main.IsAttached i
  · rw [h.enabled i hi]
  · rw [h.disabled i hi]
    omega

/-- A step that leaves the interfaces alone. -/
theorem AttachInv.of_sameSlots (h : AttachInv w) {w' : AclWorld FibPath} (hslots : SlotsLive w')
    (hs : SameSlots w.main w'.main) : AttachInv w' := by
  have hatt : ∀ i, w'.main.IsAttached i ↔ w.main.IsAttached i := by
    intro i
    unfold TuntermAclMain.IsAttached
    simp only [hs.slot]
  refine ⟨hslots, ?_, ?_, ?_⟩
  · intro i hi
    rw [hs.bypassCount]
    exact h.enabled i ((hatt i).1 hi)
  · intro i hi
    rw [hs.bypassCount]
    exact h.disabled i fun hi' => hi ((hatt i).2 hi')
  · intro i hi
    rw [hs.bypassCount] at hi
    exact hs.hasSlots (h.hasSlots i hi)

/-! ## Writing one slot -/

/-- The slot of interface `i` for family `f` is written, and the count of the interface is
set; nothing else changes. -/
structure WritesSlot (s : TuntermAclMain FibPath) (f : Bool) (i v : ℕ)
    (s' : TuntermAclMain FibPath) : Prop where
  slot : ∀ f' j, s'.slot f' j = if f' = f ∧ j = i then v else s.slot f' j
  count : ∀ j, j ≠ i → s'.bypassCount j = s.bypassCount j
  frame : SlotFrame s s'
  hasSlots : s'.HasSlots i

/-- The other interfaces are attached as before. -/
theorem WritesSlot.isAttached {s s' : TuntermAclMain FibPath} {f : Bool} {i v : ℕ}
    (h : WritesSlot s f i v s') {j : ℕ} (hj : j ≠ i) : s'.IsAttached j ↔ s.IsAttached j := by
  have hslot : ∀ f', s'.slot f' j = s.slot f' j := by
    intro f'
    rw [h.slot, if_neg fun h => hj h.2]
  unfold TuntermAclMain.IsAttached
  simp only [hslot]

/-- It is enough that the count of the one interface is right. -/
theorem AttachInv.write (h : AttachInv w) {s' : TuntermAclMain FibPath} {f : Bool} {i v : ℕ}
    (hslots : SlotsLive { w with main := s' }) (hw : WritesSlot w.main f i v s')
    (hon : s'.IsAttached i → s'.bypassCount i = 1)
    (hoff : ¬ s'.IsAttached i → s'.bypassCount i = 0) : AttachInv { w with main := s' } := by
  refine ⟨hslots, ?_, ?_, ?_⟩
  · intro j hj
    by_cases hji : j = i
    · subst hji
      exact hon hj
    · exact (hw.count j hji).trans (h.enabled j ((hw.isAttached hji).1 hj))
  · intro j hj
    by_cases hji : j = i
    · subst hji
      exact hoff hj
    · exact (hw.count j hji).trans (h.disabled j fun hj' => hj ((hw.isAttached hji).2 hj'))
  · intro j hj
    by_cases hji : j = i
    · subst hji
      exact hw.hasSlots
    · exact hw.frame.hasSlots j (h.hasSlots j ((hw.count j hji) ▸ hj))

/-- An ACL is attached: its slot is in use, and the feature is on. -/
theorem AttachInv.attached (h : AttachInv w) {s' : TuntermAclMain FibPath} {f : Bool} {i t : ℕ}
    {rv : Option ApiError} (hslots : SlotsLive { w with main := s' })
    (hlive : w.live t = some f)
    (hatt : Attached w.main f i t none rv s') (hframe : SlotFrame w.main s')
    (hhas : s'.HasSlots i) : AttachInv { w with main := s' } := by
  have hw : WritesSlot w.main f i t s' := by
    refine ⟨hatt.slot, fun j hj => ?_, hframe, hhas⟩
    rw [hatt.count, if_neg fun h => hj h.1]
  have hcount : s'.bypassCount i = 1 := by
    have hle := h.count_le i
    rw [hatt.count]
    by_cases h0 : w.main.bypassCount i = 0
    · rw [if_pos ⟨rfl, h0, rfl⟩]
    · rw [if_neg fun h => h0 h.2.1]
      omega
  have hin : s'.IsAttached i := by
    refine ⟨f, ?_⟩
    rw [hatt.slot, if_pos ⟨rfl, rfl⟩]
    exact h.slots.inv.index t f hlive
  exact h.write hslots hw (fun _ => hcount) fun hout => absurd hin hout

/-- An ACL is detached: the feature goes with the last one. -/
theorem AttachInv.detached (h : AttachInv w) {s' : TuntermAclMain FibPath} {f : Bool} {i t : ℕ}
    (hslots : SlotsLive { w with main := s' })
    (hlive : w.live t = some f)
    (hslot : t = w.main.slot false i ∨ t = w.main.slot true i)
    (hdet : Detached w.main f i s') (hframe : SlotFrame w.main s')
    (hhas : s'.HasSlots i) : AttachInv { w with main := s' } := by
  have hidx := h.slots.inv.index t f hlive
  have hw : WritesSlot w.main f i invalidIndex s' := by
    refine ⟨hdet.slot, fun j hj => ?_, hframe, hhas⟩
    rw [hdet.count, if_neg fun h => hj h.1]
  -- the ACL is in the slot of its own family, so an empty slot is the other one
  have hf : w.main.slot f i = t := by
    rcases hslot with hslot | hslot
    · rw [← h.slots.family_of_slot hlive hslot.symm, hslot]
    · rw [← h.slots.family_of_slot hlive hslot.symm, hslot]
  have hempty : (w.main.slot false i = invalidIndex ∨ w.main.slot true i = invalidIndex) ↔
      w.main.slot (!f) i = invalidIndex := by
    cases f with
    | false => simp [hf, hidx]
    | true => simp [hf, hidx]
  have hatt : s'.IsAttached i ↔ w.main.slot (!f) i ≠ invalidIndex := by
    constructor
    · rintro ⟨f', hf'⟩
      rw [hdet.slot] at hf'
      by_cases hff : f' = f
      · rw [if_pos ⟨hff, rfl⟩] at hf'
        exact absurd rfl hf'
      · rw [if_neg fun h => hff h.1, Bool.eq_not_of_ne hff] at hf'
        exact hf'
    · intro hne
      refine ⟨!f, ?_⟩
      rw [hdet.slot, if_neg fun h => by simp at h]
      exact hne
  have hcount : s'.bypassCount i = if w.main.slot (!f) i = invalidIndex then 0 else 1 := by
    have hone : w.main.bypassCount i = 1 := h.enabled i ⟨f, by rw [hf]; exact hidx⟩
    simp only [hdet.count, hempty, hone, true_and]
  refine h.write hslots hw ?_ ?_
  · intro hin
    rw [hcount, if_neg (hatt.1 hin)]
  · intro hout
    rw [hcount, if_pos (not_not.1 fun hne => hout (hatt.2 hne))]

/-! ## Runs -/

/-- **Every step keeps the invariant.** -/
theorem attachInv_step (h : AttachInv w) {e : AclEvent ApiPath} (he : AttachStep w e) :
    AttachInv (aclStep up w e) := by
  obtain ⟨hadm, hnames, hkeeps, hworks⟩ := he
  have hslots := slotsLive_step up h.slots hadm hnames
  cases e with
  | addReplace mp env => exact h.of_sameSlots hslots (addReplace_sameSlots up w.main mp env)
  | del t => exact h.of_sameSlots hslots (del_sameSlots w.main t)
  | interfaceAddDel isAdd i t fails =>
    obtain rfl : fails = none := hworks
    obtain ⟨f, hlive⟩ := Option.ne_none_iff_exists'.1 (show w.live t ≠ none from hnames)
    have hf : w.main.classifyTableIndexIsV6[t]?.getD false = f := by
      rw [h.slots.inv.family t f hlive]
      rfl
    simp only [aclStep] at hslots ⊢
    rcases interfaceAddDel_cases w.main isAdd i t none with
      ⟨-, hs, -⟩ | ⟨-, -, hframe, hhas, ⟨-, hatt⟩ | ⟨-, -, href, -⟩ | ⟨-, -, hslot, hdet⟩⟩
    · rw [hs]
      exact h
    · exact h.attached hslots hlive (hf ▸ hatt) hframe hhas
    · -- a refused request writes the slot with what is in it
      have hw : WritesSlot w.main f i (w.main.slot f i)
          (tuntermAclInterfaceAddDel w.main isAdd i t none).main := by
        refine ⟨fun f' j => ?_, fun j _ => href.count j, hframe, hhas⟩
        rw [href.slot]
        by_cases hj : f' = f ∧ j = i
        · rw [if_pos hj, hj.1, hj.2]
        · rw [if_neg hj]
      have hatt : (tuntermAclInterfaceAddDel w.main isAdd i t none).main.IsAttached i ↔
          w.main.IsAttached i := by
        unfold TuntermAclMain.IsAttached
        simp only [href.slot]
      refine h.write hslots hw ?_ ?_
      · intro hin
        rw [href.count, h.enabled i (hatt.1 hin)]
      · intro hout
        rw [href.count, h.disabled i fun hin => hout (hatt.2 hin)]
    · exact h.detached hslots hlive hslot (hf ▸ hdet) hframe hhas
  | otherTable i t => exact h.of_sameSlots hslots ⟨fun _ => rfl, rfl, rfl⟩
  | createInterface i => exact ⟨hslots, h.enabled, h.disabled, h.hasSlots⟩
  | deleteInterface i => exact hkeeps.elim

/-- Before the first request. -/
theorem attachInv_init (tables : ℕ → Option ClassifyTable) :
    AttachInv (AclWorld.init tables : AclWorld FibPath) := by
  refine ⟨slotsLive_init tables, ?_, fun _ _ => rfl, ?_⟩
  · rintro i ⟨f, hf⟩
    exact absurd (slot_init tables f i) hf
  · intro i hi
    exact absurd hi (lt_irrefl 0)

/-- An attached ACL cannot be deleted. -/
theorem del_attached (s : TuntermAclMain FibPath) {f : Bool} {i : ℕ}
    (h : s.slot f i ≠ invalidIndex) :
    (tuntermAclDel s (s.slot f i)).rv = some .rsrcInUse ∧
      (tuntermAclDel s (s.slot f i)).main = s := by
  have hmem := mem_slots (s := s) rfl h
  unfold tuntermAclDel
  rw [if_neg h]
  by_cases h4 : s.slot f i ∈ s.classifyTableIndexBySwIfIndexV4
  · rw [if_pos h4]
    exact ⟨rfl, rfl⟩
  · rw [if_neg h4]
    have h6 : s.slot f i ∈ s.classifyTableIndexBySwIfIndexV6 := by
      cases f with
      | false => exact absurd hmem h4
      | true => exact hmem
    rw [if_pos h6]
    exact ⟨rfl, rfl⟩

/-- **The attachment invariant.**  In every run of requests on live ACLs a slot is empty
or holds a live ACL of its family, the feature is enabled once where an ACL is attached
and nowhere else, an attached ACL is not deleted, and both arrays are long enough for
every interface with the feature. -/
theorem attachment_run (tables : ℕ → Option ClassifyTable) {es : List (AclEvent ApiPath)}
    (hrun : Allowed (aclStep up) AttachStep (AclWorld.init tables) es) :
    let w := run (aclStep up) (AclWorld.init tables) es
    (∀ f i, w.main.slot f i = invalidIndex ∨ w.live (w.main.slot f i) = some f) ∧
    (∀ i, (w.main.IsAttached i → w.main.bypassCount i = 1) ∧
      (¬ w.main.IsAttached i → w.main.bypassCount i = 0)) ∧
    (∀ f i, w.main.slot f i ≠ invalidIndex →
      (tuntermAclDel w.main (w.main.slot f i)).rv = some .rsrcInUse ∧
        (tuntermAclDel w.main (w.main.slot f i)).main = w.main) ∧
    ∀ i, 0 < w.main.bypassCount i → w.main.HasSlots i := by
  have h : AttachInv (run (aclStep up) (AclWorld.init tables) es) := by
    refine run_invariant (aclStep up) AttachStep AttachInv ?_ (attachInv_init tables) hrun
    intro w e h he
    exact attachInv_step up h he
  exact ⟨h.slots.slot, fun i => ⟨h.enabled i, h.disabled i⟩, fun f i => del_attached _, h.hasSlots⟩

end Attach

/-- A create that fails on its rule, an ACL of the other family, and both attached; then
the first is detached, twice. -/
def twoFamiliesRun : List (AclEvent (Option ℕ)) :=
  [.createInterface 1,
    .addReplace ⟨invalidIndex, false, 1, [⟨⟨0, [10, 0, 0, 1]⟩, none⟩]⟩ ⟨.ok 5, fun _ => none⟩,
    .addReplace ⟨invalidIndex, true, 0, []⟩ ⟨.ok 6, fun _ => none⟩,
    .interfaceAddDel true 1 5 none, .interfaceAddDel true 1 6 none,
    .interfaceAddDel false 1 5 none, .interfaceAddDel false 1 5 none]

/-- The feature is still enabled for the second ACL. -/
theorem attachment_run_second :
    Allowed (aclStep plainFib) AttachStep (AclWorld.init fun _ => none) twoFamiliesRun ∧
      (run (aclStep plainFib) (AclWorld.init fun _ => none) twoFamiliesRun).main.bypassCount 1
        = 1 := by
  have hrun : Allowed (aclStep plainFib) AttachStep (AclWorld.init fun _ => none)
      twoFamiliesRun := by
    refine ⟨⟨rfl, trivial, trivial, trivial⟩, ⟨?_, ?_, trivial, trivial⟩,
      ⟨?_, ?_, trivial, trivial⟩, ⟨trivial, ?_, trivial, rfl⟩, ⟨trivial, ?_, trivial, rfl⟩,
      ⟨trivial, ?_, trivial, rfl⟩, ⟨trivial, ?_, trivial, rfl⟩, trivial⟩
    · intro i hi
      obtain rfl : 5 = i := Option.some.inj hi
      exact ⟨rfl, by decide⟩
    · exact fun h => absurd rfl h
    · intro i hi
      obtain rfl : 6 = i := Option.some.inj hi
      exact ⟨rfl, by decide⟩
    · exact fun h => absurd rfl h
    all_goals exact nofun
  refine ⟨hrun, ((attachment_run plainFib (fun _ => none) hrun).2.1 1).1 ⟨true, ?_⟩⟩
  decide

end TuntermAcl
