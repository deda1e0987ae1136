/-
# Where `ip_validate` is enabled

Validation is turned on on every interface when it is created and off when it is deleted, for
IPv4 and for IPv6; the API does the same for one interface, and takes back what it did for IPv4
when IPv6 fails.  A call of `vnet_feature_enable_disable` that fails changes nothing; which calls
fail is left open.  When an interface is deleted, VPP removes the features that are still enabled
on it, whatever the callback has done.

An interface is half enabled when the two families do not have the same count.
`never_half_enabled_iff` says in which runs that never happens.
-/
import SonicVpp.RefCount
import SonicVpp.RunInvariant

open RunInvariant

namespace IpValidate

/-- `ip4-validate` on its arc, or `ip6-validate`. -/
inductive Feature
  | ip4Validate
  | ip6Validate
  deriving DecidableEq, Repr

/-- How often each feature is enabled on each interface. -/
abbrev Counts := Feature × BitVec 32 → ℕ

/-- `vnet_feature_enable_disable`; `ok` says that it returns 0. -/
def vnetFeatureEnableDisable (feature : Feature) (swIfIndex : BitVec 32) (enable ok : Bool)
    (c : Counts) : Counts :=
  if ok then RefCount.apply c ⟨(feature, swIfIndex), enable⟩ else c

/-- What happens: an interface is created or deleted, or the API is called.  The results of the
calls of `vnet_feature_enable_disable` are given: for IPv4, for IPv6, and when IPv4 is taken
back.  `valid` is what `VALIDATE_SW_IF_INDEX` says. -/
inductive WiringEvent
  | swInterfaceAddDel (swIfIndex : BitVec 32) (isAdd ok4 ok6 : Bool)
  | enableDisable (swIfIndex : BitVec 32) (valid isEnable ok4 ok6 okBack : Bool)

/-- `ip_validate_sw_interface_add_del`. -/
def ipValidateSwInterfaceAddDel (swIfIndex : BitVec 32) (isAdd ok4 ok6 : Bool) (c : Counts) :
    Counts :=
  let c := vnetFeatureEnableDisable .ip4Validate swIfIndex isAdd ok4 c
  vnetFeatureEnableDisable .ip6Validate swIfIndex isAdd ok6 c

/-- `vl_api_ip_validate_enable_disable_t_handler`, and if it replies 0. -/
def ipValidateEnableDisable (swIfIndex : BitVec 32) (valid isEnable ok4 ok6 okBack : Bool)
    (c : Counts) : Counts × Bool :=
  if !valid then (c, false)
  else
    let c := vnetFeatureEnableDisable .ip4Validate swIfIndex isEnable ok4 c
    if !ok4 then (c, false)
    else
      let c := vnetFeatureEnableDisable .ip6Validate swIfIndex isEnable ok6 c
      if !ok6 then
        -- rollback of IPv4, to avoid a half-enabled state
        (vnetFeatureEnableDisable .ip4Validate swIfIndex (!isEnable) okBack c, false)
      else (c, true)

/-- VPP removes the features of a deleted interface. -/
def removeFeatures (swIfIndex : BitVec 32) (c : Counts) : Counts :=
  fun k => if k.2 = swIfIndex then 0 else c k

/-- One event. -/
def wiringStep (c : Counts) : WiringEvent → Counts
  | .swInterfaceAddDel swIfIndex isAdd ok4 ok6 =>
    let c := ipValidateSwInterfaceAddDel swIfIndex isAdd ok4 ok6 c
    if isAdd then c else removeFeatures swIfIndex c
  | .enableDisable swIfIndex valid isEnable ok4 ok6 okBack =>
    (ipValidateEnableDisable swIfIndex valid isEnable ok4 ok6 okBack c).1

/-- No interface is half enabled. -/
def NoneHalfEnabled (c : Counts) : Prop :=
  ∀ swIfIndex, c (.ip4Validate, swIfIndex) = c (.ip6Validate, swIfIndex)

/-- A call that would change the count of an interface: it enables, or there is something to
disable. -/
def Changes (c : Counts) (swIfIndex : BitVec 32) (enable : Bool) : Prop :=
  enable = true ∨ 0 < c (.ip4Validate, swIfIndex)

/-- An event leaves an interface half enabled: one of the two calls fails as it is created; or
IPv4 must be taken back, and it was changed and cannot be, or it was not changed, since there
was nothing to disable, and is enabled now. -/
def Strands (c : Counts) : WiringEvent → Prop
  | .swInterfaceAddDel _ isAdd ok4 ok6 => isAdd = true ∧ ok4 ≠ ok6
  | .enableDisable swIfIndex valid isEnable ok4 ok6 okBack =>
    valid = true ∧ ok4 = true ∧ ok6 = false ∧ (Changes c swIfIndex isEnable ↔ okBack = false)

section Counts

variable (feature : Feature) (swIfIndex : BitVec 32) (enable ok : Bool) (c : Counts)

/-- The interface of a call, and the others. -/
theorem vnetFeatureEnableDisable_apply (f : Feature) (i : BitVec 32) :
    vnetFeatureEnableDisable feature swIfIndex enable ok c (f, i) =
      if ok = true ∧ f = feature ∧ i = swIfIndex then
        if enable then c (f, i) + 1 else c (f, i) - 1
      else c (f, i) := by
  unfold vnetFeatureEnableDisable RefCount.apply
  cases ok with
  | false => simp
  | true => simp [Prod.ext_iff]

end Counts

/-- The interface that an event is about. -/
def WiringEvent.swIfIndex : WiringEvent → BitVec 32
  | .swInterfaceAddDel swIfIndex _ _ _ => swIfIndex
  | .enableDisable swIfIndex _ _ _ _ _ => swIfIndex

/-- The counts of the other interfaces stay. -/
theorem wiringStep_other (c : Counts) {e : WiringEvent} (f : Feature) {i : BitVec 32}
    (hi : i ≠ e.swIfIndex) : wiringStep c e (f, i) = c (f, i) := by
  cases e with
  | swInterfaceAddDel swIfIndex isAdd ok4 ok6 =>
    have hne : i ≠ swIfIndex := hi
    unfold wiringStep removeFeatures ipValidateSwInterfaceAddDel
    cases isAdd with
    | true => simp [vnetFeatureEnableDisable_apply, hne]
    | false => simp [vnetFeatureEnableDisable_apply, hne]
  | enableDisable swIfIndex valid isEnable ok4 ok6 okBack =>
    have hne : i ≠ swIfIndex := hi
    unfold wiringStep ipValidateEnableDisable
    dsimp only
    split_ifs
    all_goals simp [vnetFeatureEnableDisable_apply, hne]

/-- The interface of the event: it stays whole exactly if it is not stranded. -/
theorem wiringStep_self_iff {c : Counts} {e : WiringEvent}
    (hc : c (.ip4Validate, e.swIfIndex) = c (.ip6Validate, e.swIfIndex)) :
    wiringStep c e (.ip4Validate, e.swIfIndex) = wiringStep c e (.ip6Validate, e.swIfIndex) ↔
      ¬ Strands c e := by
  cases e with
  | swInterfaceAddDel swIfIndex isAdd ok4 ok6 =>
    change c (_, swIfIndex) = c (_, swIfIndex) at hc
    cases isAdd with
    | false => simp [wiringStep, removeFeatures, Strands, WiringEvent.swIfIndex]
    | true =>
      have hstep : wiringStep c (.swInterfaceAddDel swIfIndex true ok4 ok6) =
          ipValidateSwInterfaceAddDel swIfIndex true ok4 ok6 c := rfl
      rw [hstep]
      simp only [ipValidateSwInterfaceAddDel, vnetFeatureEnableDisable_apply, Strands,
        WiringEvent.swIfIndex]
      cases ok4 <;> cases ok6 <;> simp <;> omega
  | enableDisable swIfIndex valid isEnable ok4 ok6 okBack =>
    change c (_, swIfIndex) = c (_, swIfIndex) at hc
    simp only [wiringStep, ipValidateEnableDisable, Strands, Changes, WiringEvent.swIfIndex]
    cases valid with
    | false => simpa using hc
    | true =>
      cases ok4 with
      | false => simpa [vnetFeatureEnableDisable] using hc
      | true =>
        cases ok6 with
        | true => cases isEnable <;> simp [vnetFeatureEnableDisable_apply, hc]
        | false =>
          -- what the rollback does to the count of IPv4
          cases okBack <;> cases isEnable <;> simp [vnetFeatureEnableDisable_apply, hc] <;> omega

/-- **One event.** -/
theorem noneHalfEnabled_step_iff {c : Counts} (hc : NoneHalfEnabled c) (e : WiringEvent) :
    NoneHalfEnabled (wiringStep c e) ↔ ¬ Strands c e := by
  rw [← wiringStep_self_iff (hc e.swIfIndex)]
  constructor
  · exact fun h => h e.swIfIndex
  · intro h i
    by_cases hi : i = e.swIfIndex
    · subst hi
      exact h
    · rw [wiringStep_other c _ hi, wiringStep_other c _ hi]
      exact hc i

/-- **No interface is ever half enabled** exactly if no event of the run strands one: the
rollback of the API keeps the two families together unless it fails itself, or undoes a disable
that did nothing. -/
theorem never_half_enabled_iff (es : List WiringEvent) :
    Allowed wiringStep (fun c e => NoneHalfEnabled (wiringStep c e)) (fun _ => 0) es ↔
      Allowed wiringStep (fun c e => ¬ Strands c e) (fun _ => 0) es := by
  have hstart : NoneHalfEnabled fun _ => 0 := fun _ => rfl
  refine allowed_iff_of_invariant wiringStep (fun _ _ => True) NoneHalfEnabled ?_ ?_ hstart
    (allowed_of_forall wiringStep fun _ _ => trivial)
  · exact fun c e hc _ => noneHalfEnabled_step_iff hc e
  · exact fun c e hc _ hnot => (noneHalfEnabled_step_iff hc e).2 hnot

end IpValidate
