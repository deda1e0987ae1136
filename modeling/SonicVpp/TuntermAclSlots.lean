/-
# The interface slots

Every interface has a slot for an IPv4 and one for an IPv6 ACL, in two arrays that grow as
interfaces are named.  Read with `~0` as the default, growing an array changes nothing, so
the slots are maps, and each branch of `tunterm_acl_interface_add_del` writes one of them.
-/
import SonicVpp.TuntermAclNode
import SonicVpp.TuntermAclTables

namespace TuntermAcl

section Slots

variable {FibPath : Type} {s : TuntermAclMain FibPath}

/-! ## Reading and writing slots -/

/-- Both arrays have a slot for the interface. -/
def TuntermAclMain.HasSlots (s : TuntermAclMain FibPath) (swIfIndex : ℕ) : Prop :=
  swIfIndex < s.classifyTableIndexBySwIfIndexV4.length ∧
    swIfIndex < s.classifyTableIndexBySwIfIndexV6.length

/-- The array of a family. -/
def TuntermAclMain.slots (s : TuntermAclMain FibPath) (isIpv6 : Bool) : List ℕ :=
  if isIpv6 then s.classifyTableIndexBySwIfIndexV6 else s.classifyTableIndexBySwIfIndexV4

theorem slot_eq_getD (s : TuntermAclMain FibPath) (f : Bool) (i : ℕ) :
    s.slot f i = (s.slots f).getD i invalidIndex := rfl

/-- Growing an array with the default changes no read. -/
theorem vecValidateInitEmpty_getD {α : Type} (v : List α) (i j : ℕ) (e : α) :
    (vecValidateInitEmpty v i e).getD j e = v.getD j e := by
  unfold vecValidateInitEmpty
  simp only [List.getD_eq_getElem?_getD, List.getElem?_append, List.getElem?_replicate]
  by_cases hj : j < v.length
  · rw [if_pos hj]
  · rw [if_neg hj, List.getElem?_eq_none (by omega)]
    by_cases hj' : j - v.length < i + 1 - v.length
    · rw [if_pos hj']
      rfl
    · rw [if_neg hj']

theorem length_vecValidateInitEmpty {α : Type} (v : List α) (i : ℕ) (e : α) :
    (vecValidateInitEmpty v i e).length = max v.length (i + 1) := by
  simp only [vecValidateInitEmpty, List.length_append, List.length_replicate]
  omega

theorem slot_validateSlots (s : TuntermAclMain FibPath) (i : ℕ) (f : Bool) (j : ℕ) :
    (s.validateSlots i).slot f j = s.slot f j := by
  cases f with
  | false => exact vecValidateInitEmpty_getD _ i j invalidIndex
  | true => exact vecValidateInitEmpty_getD _ i j invalidIndex

theorem hasSlots_validateSlots (s : TuntermAclMain FibPath) (i : ℕ) :
    (s.validateSlots i).HasSlots i := by
  constructor <;>
  · simp only [TuntermAclMain.validateSlots, length_vecValidateInitEmpty]
    omega

theorem hasSlots_validateSlots_of {j : ℕ} (h : s.HasSlots j) (i : ℕ) :
    (s.validateSlots i).HasSlots j := by
  obtain ⟨h4, h6⟩ := h
  constructor <;>
  · simp only [TuntermAclMain.validateSlots, length_vecValidateInitEmpty]
    omega

/-- Writing a slot. -/
theorem slot_setSlot {i : ℕ} (h : s.HasSlots i) (f : Bool) (t : ℕ) (f' : Bool) (j : ℕ) :
    (s.setSlot f i t).slot f' j = if f' = f ∧ j = i then t else s.slot f' j := by
  have hset : ∀ v : List ℕ, i < v.length →
      (v.set i t).getD j invalidIndex = if j = i then t else v.getD j invalidIndex := by
    intro v hv
    simp only [List.getD_eq_getElem?_getD]
    by_cases hji : j = i
    · rw [if_pos hji, hji, List.getElem?_set_self hv]
      rfl
    · rw [if_neg hji, List.getElem?_set_ne (Ne.symm hji)]
  cases f with
  | false =>
    cases f' with
    | false =>
      simp only [true_and]
      exact hset _ h.1
    | true => rfl
  | true =>
    cases f' with
    | false => rfl
    | true =>
      simp only [true_and]
      exact hset _ h.2

theorem hasSlots_setSlot (f : Bool) (i t j : ℕ) : (s.setSlot f i t).HasSlots j ↔ s.HasSlots j := by
  cases f <;> simp [TuntermAclMain.setSlot, TuntermAclMain.HasSlots]

/-- A slot that names an ACL is in the array. -/
theorem mem_slots {f : Bool} {j t : ℕ} (h : s.slot f j = t) (ht : t ≠ invalidIndex) :
    t ∈ s.slots f := by
  rw [slot_eq_getD, List.getD_eq_getElem?_getD] at h
  cases hj : (s.slots f)[j]? with
  | none =>
    rw [hj] at h
    exact absurd h.symm ht
  | some t' =>
    rw [hj] at h
    obtain rfl : t' = t := h
    exact List.mem_of_getElem? hj

/-- What is in the array is in a slot. -/
theorem exists_slot {f : Bool} {t : ℕ} (h : t ∈ s.slots f) : ∃ j, s.slot f j = t := by
  obtain ⟨j, hj⟩ := List.mem_iff_getElem?.1 h
  exact ⟨j, by rw [slot_eq_getD, List.getD_eq_getElem?_getD, hj]; rfl⟩

/-! ## The interface request -/

/-- Slots stay, and so do the interfaces. -/
structure SlotFrame (s s' : TuntermAclMain FibPath) : Prop where
  hasSlots : ∀ j, s.HasSlots j → s'.HasSlots j
  swInterfaces : s'.swInterfaces = s.swInterfaces

/-- What an attach leaves behind. -/
structure Attached (s : TuntermAclMain FibPath) (f : Bool) (i t : ℕ) (fails : Option ApiError)
    (rv : Option ApiError) (s' : TuntermAclMain FibPath) : Prop where
  rv_eq : rv = if 0 < s.bypassCount i then none else fails
  slot : ∀ f' j, s'.slot f' j = if f' = f ∧ j = i then t else s.slot f' j
  count : ∀ j, s'.bypassCount j
    = if j = i ∧ s.bypassCount i = 0 ∧ fails = none then 1 else s.bypassCount j

/-- What a detach leaves behind. -/
structure Detached (s : TuntermAclMain FibPath) (f : Bool) (i : ℕ)
    (s' : TuntermAclMain FibPath) : Prop where
  slot : ∀ f' j, s'.slot f' j = if f' = f ∧ j = i then invalidIndex else s.slot f' j
  count : ∀ j, s'.bypassCount j
    = if j = i ∧ (s.slot false i = invalidIndex ∨ s.slot true i = invalidIndex)
      then s.bypassCount i - 1 else s.bypassCount j

/-- What a refused detach leaves behind. -/
structure Refused (s s' : TuntermAclMain FibPath) : Prop where
  slot : ∀ f j, s'.slot f j = s.slot f j
  count : ∀ j, s'.bypassCount j = s.bypassCount j

/-- A written slot changes no count and no interface. -/
theorem setSlot_frame (s : TuntermAclMain FibPath) (f : Bool) (i t : ℕ) :
    (s.setSlot f i t).bypassCount = s.bypassCount ∧ SlotFrame s (s.setSlot f i t) := by
  cases f with
  | false => exact ⟨rfl, fun j hj => (hasSlots_setSlot false i t j).2 hj, rfl⟩
  | true => exact ⟨rfl, fun j hj => (hasSlots_setSlot true i t j).2 hj, rfl⟩

theorem attachAcl_attached {i : ℕ} (h : s.HasSlots i) (f : Bool) (t : ℕ)
    (fails : Option ApiError) :
    Attached s f i t fails (attachAcl s f i t fails).1 (attachAcl s f i t fails).2 ∧
      SlotFrame s (attachAcl s f i t fails).2 := by
  have hslot := slot_setSlot h f t
  obtain ⟨hcount, hframe⟩ := setSlot_frame s f i t
  unfold attachAcl enableBypass
  rw [hcount]
  by_cases hc : 0 < s.bypassCount i
  · simp only [if_pos hc]
    refine ⟨⟨by rw [if_pos hc], hslot, fun j => ?_⟩, hframe⟩
    rw [if_neg (by omega), hcount]
  · simp only [if_neg hc]
    cases fails with
    | some e =>
      refine ⟨⟨by rw [if_neg hc], hslot, fun j => ?_⟩, hframe⟩
      rw [if_neg (by simp), hcount]
    | none =>
      refine ⟨⟨by rw [if_neg hc], hslot, fun j => ?_⟩, hframe.hasSlots, hframe.swInterfaces⟩
      have h0 : s.bypassCount i = 0 := by omega
      show Function.update s.bypassCount i (s.bypassCount i + 1) j = _
      by_cases hji : j = i
      · rw [hji, Function.update_self, if_pos ⟨rfl, h0, rfl⟩, h0]
      · rw [Function.update_of_ne hji, if_neg (by simp [hji])]

theorem detachAcl_cases {i : ℕ} (h : s.HasSlots i) (f : Bool) (t : ℕ) (fails : Option ApiError) :
    ((detachAcl s f i t fails).1 ≠ none ∧ (detachAcl s f i t fails).2 = s ∧
      ((t ≠ s.slot false i ∧ t ≠ s.slot true i) ∨ fails ≠ none)) ∨
    ((detachAcl s f i t fails).1 = none ∧ (t = s.slot false i ∨ t = s.slot true i) ∧
      Detached s f i (detachAcl s f i t fails).2 ∧ SlotFrame s (detachAcl s f i t fails).2) := by
  unfold detachAcl
  rw [show s.classifyTableIndexBySwIfIndexV4.getD i invalidIndex = s.slot false i from rfl,
    show s.classifyTableIndexBySwIfIndexV6.getD i invalidIndex = s.slot true i from rfl]
  by_cases hatt : t ≠ s.slot false i ∧ t ≠ s.slot true i
  · simp only [if_pos hatt]
    exact Or.inl ⟨by simp, trivial, Or.inl hatt⟩
  · simp only [if_neg hatt]
    have hatt' : t = s.slot false i ∨ t = s.slot true i := by
      by_cases h : t = s.slot false i
      · exact Or.inl h
      · exact Or.inr (by_contra fun h' => hatt ⟨h, h'⟩)
    by_cases hempty : s.slot false i = invalidIndex ∨ s.slot true i = invalidIndex
    · -- the last ACL of the interface: the feature goes first
      simp only [if_pos hempty, disableBypass]
      cases fails with
      | some e => exact Or.inl ⟨by simp, rfl, Or.inr (by simp)⟩
      | none =>
        refine Or.inr ⟨rfl, hatt', ?_⟩
        generalize hc : Function.update s.bypassCount i (s.bypassCount i - 1) = c
        have hslot := slot_setSlot (s := { s with bypassCount := c }) h f invalidIndex
        obtain ⟨hcount, hframe⟩ := setSlot_frame { s with bypassCount := c } f i invalidIndex
        refine ⟨⟨hslot, fun j => ?_⟩, hframe.hasSlots, hframe.swInterfaces⟩
        rw [hcount]
        show c j = _
        rw [← hc]
        by_cases hji : j = i
        · rw [hji, Function.update_self, if_pos ⟨rfl, hempty⟩]
        · rw [Function.update_of_ne hji, if_neg (fun hj => hji hj.1)]
    · simp only [if_neg hempty]
      obtain ⟨hcount, hframe⟩ := setSlot_frame s f i invalidIndex
      refine Or.inr ⟨trivial, hatt', ⟨slot_setSlot h f invalidIndex, fun j => ?_⟩, hframe⟩
      rw [if_neg (fun hj => hempty hj.2), hcount]

/-- **What `tunterm_acl_interface_add_del` can do**: refuse the request, attach the ACL,
refuse to detach it, or detach it.  The family is that which the plugin reads. -/
theorem interfaceAddDel_cases (s : TuntermAclMain FibPath) (isAdd : Bool) (i t : ℕ)
    (fails : Option ApiError) :
    ((tuntermAclInterfaceAddDel s isAdd i t fails).rv ≠ none ∧
      (tuntermAclInterfaceAddDel s isAdd i t fails).main = s ∧
      (t = invalidIndex ∨ s.swInterfaces i = false)) ∨
    (t ≠ invalidIndex ∧ s.swInterfaces i = true ∧
      SlotFrame s (tuntermAclInterfaceAddDel s isAdd i t fails).main ∧
      (tuntermAclInterfaceAddDel s isAdd i t fails).main.HasSlots i ∧
      ((isAdd = true ∧ Attached s (s.classifyTableIndexIsV6[t]?.getD false) i t fails
          (tuntermAclInterfaceAddDel s isAdd i t fails).rv
          (tuntermAclInterfaceAddDel s isAdd i t fails).main) ∨
        (isAdd = false ∧ (tuntermAclInterfaceAddDel s isAdd i t fails).rv ≠ none ∧
          Refused s (tuntermAclInterfaceAddDel s isAdd i t fails).main ∧
          ((t ≠ s.slot false i ∧ t ≠ s.slot true i) ∨ fails ≠ none)) ∨
        (isAdd = false ∧ (tuntermAclInterfaceAddDel s isAdd i t fails).rv = none ∧
          (t = s.slot false i ∨ t = s.slot true i) ∧
          Detached s (s.classifyTableIndexIsV6[t]?.getD false) i
            (tuntermAclInterfaceAddDel s isAdd i t fails).main))) := by
  unfold tuntermAclInterfaceAddDel
  by_cases ht : t = invalidIndex
  · rw [if_pos ht]
    exact Or.inl ⟨by simp, rfl, Or.inl ht⟩
  · rw [if_neg ht]
    cases hi : s.swInterfaces i with
    | false => exact Or.inl ⟨by simp, rfl, Or.inr rfl⟩
    | true =>
      refine Or.inr ⟨ht, rfl, ?_⟩
      have hhas := hasSlots_validateSlots s i
      have hgrow : SlotFrame s (s.validateSlots i) :=
        ⟨fun j hj => hasSlots_validateSlots_of hj i, rfl⟩
      have hslot := slot_validateSlots s i
      have hcount : (s.validateSlots i).bypassCount = s.bypassCount := rfl
      simp only [Bool.not_true, Bool.false_eq_true, if_false,
        show (s.validateSlots i).classifyTableIndexIsV6 = s.classifyTableIndexIsV6 from rfl]
      generalize s.classifyTableIndexIsV6[t]?.getD false = f
      -- from here on only these facts about the grown arrays matter
      generalize s.validateSlots i = s₁ at hhas hgrow hslot hcount
      have hframe : ∀ {s' : TuntermAclMain FibPath}, SlotFrame s₁ s' → SlotFrame s s' :=
        fun h => ⟨fun j hj => h.hasSlots j (hgrow.hasSlots j hj),
          h.swInterfaces.trans hgrow.swInterfaces⟩
      cases isAdd with
      | true =>
        obtain ⟨hatt, hfr⟩ := attachAcl_attached hhas f t fails
        refine ⟨hframe hfr, hfr.hasSlots i hhas, Or.inl ⟨rfl, ?_⟩⟩
        refine ⟨hcount ▸ hatt.rv_eq, fun f' j => ?_, fun j => hcount ▸ hatt.count j⟩
        rw [← hslot f' j]
        exact hatt.slot f' j
      | false =>
        rcases detachAcl_cases hhas f t fails with ⟨hrv, hs', hwhy⟩ | ⟨hrv, hatt, hdet, hfr⟩
        · simp only [Bool.false_eq_true, if_false, hs']
          rw [hslot, hslot] at hwhy
          exact ⟨hgrow, hhas, Or.inr (Or.inl ⟨trivial, hrv, ⟨hslot, fun j => by rw [hcount]⟩, hwhy⟩)⟩
        · rw [hslot, hslot] at hatt
          refine ⟨hframe hfr, hfr.hasSlots i hhas, Or.inr (Or.inr ⟨rfl, hrv, hatt, ?_, ?_⟩)⟩
          · intro f' j
            rw [← hslot f' j]
            exact hdet.slot f' j
          · intro j
            rw [← hslot, ← hslot, ← hcount]
            exact hdet.count j

end Slots

/-! ## The other requests -/

section Others

variable {ApiPath FibPath : Type} (up : Upstream ApiPath FibPath) {s s' : TuntermAclMain FibPath}

/-- Nothing that belongs to the interfaces has changed. -/
structure SameSlots (s s' : TuntermAclMain FibPath) : Prop where
  slots : ∀ f, s'.slots f = s.slots f
  swInterfaces : s'.swInterfaces = s.swInterfaces
  bypassCount : s'.bypassCount = s.bypassCount

theorem SameSlots.slot (h : SameSlots s s') (f : Bool) (i : ℕ) : s'.slot f i = s.slot f i := by
  rw [slot_eq_getD, slot_eq_getD, h.slots]

theorem SameSlots.hasSlots (h : SameSlots s s') {i : ℕ} (hi : s.HasSlots i) : s'.HasSlots i := by
  have h4 : s'.classifyTableIndexBySwIfIndexV4 = s.classifyTableIndexBySwIfIndexV4 := h.slots false
  have h6 : s'.classifyTableIndexBySwIfIndexV6 = s.classifyTableIndexBySwIfIndexV6 := h.slots true
  exact ⟨h4 ▸ hi.1, h6 ▸ hi.2⟩

theorem updateSessions_sameSlots (s : TuntermAclMain FibPath) (isIpv6 : Bool)
    (rules : List (TuntermAclRule ApiPath)) (t : ℕ) (fails : ℕ → Option ApiError) :
    SameSlots s (updateSessions up s isIpv6 rules t fails).main := by
  rcases updateSessions_cases up s isIpv6 rules t fails with
    ⟨-, -, -, hs⟩ | ⟨-, -, -, hs⟩ | ⟨-, -, -, hs⟩ <;>
  · rw [hs]
    exact ⟨fun _ => rfl, rfl, rfl⟩

theorem addReplace_sameSlots (s : TuntermAclMain FibPath) (mp : AddReplace ApiPath)
    (env : AddReplaceEnv) : SameSlots s (tuntermAclAddReplace up s mp env).1.main := by
  rcases addReplace_cases up s mp env with ⟨-, hs, -, -⟩ | ⟨i, -, -, -, -, hs⟩ | ⟨-, -, -, hs⟩
  · rw [hs]
    exact ⟨fun _ => rfl, rfl, rfl⟩
  · rw [hs]
    have h := updateSessions_sameSlots up (s.addTable mp.isIpv6 i) mp.isIpv6
      (mp.r.take mp.count) i env.sessionFails
    exact ⟨h.slots, h.swInterfaces, h.bypassCount⟩
  · rw [hs]
    exact updateSessions_sameSlots up s _ _ _ _

theorem del_sameSlots (s : TuntermAclMain FibPath) (t : ℕ) :
    SameSlots s (tuntermAclDel s t).main := by
  rcases tuntermAclDel_cases s t with ⟨-, hs⟩ | ⟨-, hs⟩ | ⟨-, -, -, -, -, hs⟩ <;>
  · rw [hs]
    exact ⟨fun _ => rfl, rfl, rfl⟩

end Others

/-! ## Slots of live ACLs -/

section Live

variable {ApiPath FibPath : Type} (up : Upstream ApiPath FibPath) {w : AclWorld FibPath}

/-- A slot is empty or holds a live ACL of its family. -/
structure SlotsLive (w : AclWorld FibPath) : Prop where
  inv : AclInv w
  slot : ∀ f i, w.main.slot f i = invalidIndex ∨ w.live (w.main.slot f i) = some f

/-- An ACL in a slot is one of the family of the slot. -/
theorem SlotsLive.family_of_slot (h : SlotsLive w) {t i : ℕ} {f f' : Bool}
    (hlive : w.live t = some f) (hslot : w.main.slot f' i = t) : f' = f := by
  rcases h.slot f' i with hnone | hsome
  · exact absurd (hslot.symm.trans hnone) (h.inv.index t f hlive)
  · rw [hslot, hlive] at hsome
    exact (Option.some.inj hsome).symm

/-- A step that leaves the slots alone and keeps their ACLs live. -/
theorem SlotsLive.of_slot_eq (h : SlotsLive w) {w' : AclWorld FibPath} (hinv : AclInv w')
    (hs : ∀ f i, w'.main.slot f i = w.main.slot f i)
    (hlive : ∀ f i, w.main.slot f i ≠ invalidIndex → w.live (w.main.slot f i) = some f →
      w'.live (w.main.slot f i) = some f) : SlotsLive w' := by
  refine ⟨hinv, fun f i => ?_⟩
  rw [hs]
  by_cases hnone : w.main.slot f i = invalidIndex
  · exact Or.inl hnone
  · exact Or.inr (hlive f i hnone ((h.slot f i).resolve_left hnone))

/-- **Requests on live ACLs keep the slots live**, also if they fail and if interfaces
are deleted. -/
theorem slotsLive_step (h : SlotsLive w) {e : AclEvent ApiPath} (hadm : Admissible w e)
    (hnames : NamesLive w e) : SlotsLive (aclStep up w e) := by
  have hinv := aclInv_step up h.inv hadm
  cases e with
  | addReplace mp env =>
    refine h.of_slot_eq hinv (addReplace_sameSlots up w.main mp env).slot ?_
    intro f i _ hlive
    simp only [aclStep]
    cases hc : mp.created env with
    | none => exact hlive
    | some j =>
      -- the new table has an index that no live ACL has
      have hne : w.main.slot f i ≠ j := by
        intro hij
        rw [hij, h.inv.fresh (hadm j hc).1] at hlive
        cases hlive
      exact (Function.update_of_ne hne _ _).trans hlive
  | del t =>
    refine h.of_slot_eq hinv (del_sameSlots w.main t).slot ?_
    intro f i hidx hlive
    simp only [aclStep]
    rcases tuntermAclDel_cases w.main t with ⟨hrv, -⟩ | ⟨hrv, -⟩ | ⟨-, h4, h6, -, hrv, -⟩
    · rw [if_neg hrv]
      exact hlive
    · rw [if_neg hrv]
      exact hlive
    · -- an ACL in a slot is in one of the arrays
      have hne : w.main.slot f i ≠ t := by
        rintro rfl
        have hmem := mem_slots rfl hidx
        cases f with
        | false => exact h4 hmem
        | true => exact h6 hmem
      rw [if_pos hrv, Function.update_of_ne hne]
      exact hlive
  | interfaceAddDel isAdd i t fails =>
    obtain ⟨f, hlive⟩ := Option.ne_none_iff_exists'.1 (show w.live t ≠ none from hnames)
    have hf : w.main.classifyTableIndexIsV6[t]?.getD false = f := by
      rw [h.inv.family t f hlive]
      rfl
    refine ⟨hinv, fun f' j => ?_⟩
    simp only [aclStep]
    rcases interfaceAddDel_cases w.main isAdd i t fails with
      ⟨-, hs, -⟩ | ⟨-, -, -, -, ⟨-, hatt⟩ | ⟨-, -, href, -⟩ | ⟨-, -, -, hdet⟩⟩
    · rw [hs]
      exact h.slot f' j
    · rw [hatt.slot, hf]
      by_cases hj : f' = f ∧ j = i
      · rw [if_pos hj, hj.1]
        exact Or.inr hlive
      · rw [if_neg hj]
        exact h.slot f' j
    · rw [href.slot]
      exact h.slot f' j
    · rw [hdet.slot, hf]
      by_cases hj : f' = f ∧ j = i
      · rw [if_pos hj]
        exact Or.inl rfl
      · rw [if_neg hj]
        exact h.slot f' j
  | otherTable i t => exact h.of_slot_eq hinv (fun _ _ => rfl) fun _ _ _ hlive => hlive
  | createInterface i => exact h.of_slot_eq hinv (fun _ _ => rfl) fun _ _ _ hlive => hlive
  | deleteInterface i => exact h.of_slot_eq hinv (fun _ _ => rfl) fun _ _ _ hlive => hlive

/-- Before the first request every slot is empty. -/
theorem slot_init (tables : ℕ → Option ClassifyTable) (f : Bool) (i : ℕ) :
    (AclWorld.init tables : AclWorld FibPath).main.slot f i = invalidIndex := by
  cases f <;> rfl

theorem slotsLive_init (tables : ℕ → Option ClassifyTable) :
    SlotsLive (AclWorld.init tables : AclWorld FibPath) :=
  ⟨aclInv_init tables, fun f i => Or.inl (slot_init tables f i)⟩

end Live

end TuntermAcl
