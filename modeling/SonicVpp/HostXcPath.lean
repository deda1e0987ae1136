/-
# From a host tap to its phy

A frame that the kernel sends on a host tap enters VPP on the device-input arc of the tap.  With
host-xc on, `sonic-ext-host-xc` steers it to the phy of the tap's pair, past `ethernet-input`;
any other frame goes on.

The node runs only where the feature is enabled, and looks at the toggle and the pairs as they
are when the frame comes.  `host_xc_direct_iff` puts this together with the wiring: whatever the
history of pairs and toggles was, a frame is steered exactly if host-xc was turned on last and a
live pair has the tap.
-/
import SonicVpp.IngressRedirect
import SonicVpp.SubInterfaceChurn

namespace SonicExt

open RunInvariant

variable (strip : (Feature × BitVec 32 → ℕ) → FeatureCall → (Feature × BitVec 32 → ℕ))

/-! ## The node and the arc -/

/-- `SONIC_EXT_HOST_XC_MODE_*`: to `interface-output`, or on along the arc. -/
inductive HostXcMode
  | passthru
  | direct
  deriving DecidableEq, Repr

/-- `lcp_itf_pair_find_by_host`. -/
def lcpItfPairFindByHost (pairs : List LivePair) (hostSwIfIndex : BitVec 32) : Option LivePair :=
  pairs.find? (·.lip.lipHostSwIfIndex = hostSwIfIndex)

/-- `sonic_ext_host_xc_node`, for one buffer. -/
def sonicExtHostXcNode (s : Wiring) (b : Buffer) : Buffer × HostXcMode :=
  if !s.sem.hostXc then (b, .passthru)
  else
    match lcpItfPairFindByHost s.pairs b.swIfIndexRx with
    | none => (b, .passthru)
    | some p => ({ b with swIfIndexTx := p.lip.lipPhySwIfIndex }, .direct)

/-- The device-input arc of an interface: capture and then host-xc, each where it is enabled. -/
def deviceInput (s : Wiring) (b : Buffer) : Buffer × HostXcMode :=
  let b := if 0 < s.counts (.capture, b.swIfIndexRx) then sonicExtCaptureNode b else b
  if 0 < s.counts (.hostXc, b.swIfIndexRx) then sonicExtHostXcNode s b else (b, .passthru)

/-! ## What the node does -/

theorem findByHost_eq_some {pairs : List LivePair} {i : BitVec 32} {p : LivePair}
    (h : lcpItfPairFindByHost pairs i = some p) : p ∈ pairs ∧ p.lip.lipHostSwIfIndex = i :=
  ⟨List.mem_of_find?_eq_some h, by simpa using List.find?_some h⟩

/-- The node steers a buffer, or leaves it as it is. -/
theorem hostXcNode_cases (s : Wiring) (b : Buffer) :
    (s.sem.hostXc = true ∧ ∃ p ∈ s.pairs, p.lip.lipHostSwIfIndex = b.swIfIndexRx ∧
        sonicExtHostXcNode s b = ({ b with swIfIndexTx := p.lip.lipPhySwIfIndex }, .direct)) ∨
      ((s.sem.hostXc = true → ∀ p ∈ s.pairs, p.lip.lipHostSwIfIndex ≠ b.swIfIndexRx) ∧
        sonicExtHostXcNode s b = (b, .passthru)) := by
  unfold sonicExtHostXcNode
  cases hon : s.sem.hostXc with
  | false => exact Or.inr ⟨fun h => absurd h Bool.false_ne_true, rfl⟩
  | true =>
    cases hfind : lcpItfPairFindByHost s.pairs b.swIfIndexRx with
    | none =>
      refine Or.inr ⟨fun _ p hp hhost => ?_, rfl⟩
      exact List.find?_eq_none.1 hfind p hp (by simpa using hhost)
    | some p =>
      obtain ⟨hp, hhost⟩ := findByHost_eq_some hfind
      exact Or.inl ⟨rfl, p, hp, hhost, rfl⟩

/-! ## The toggle -/

/-- Host-xc as it was last set; it is off before. -/
def lastHostXc (as : List Event) : Bool :=
  ((as.filterMap fun e => match e with
    | .setHostXc x => some (decide (x ≠ 0))
    | _ => none).getLast?).getD false

theorem hostXc_run (v : VnetMain) (as : List Event) :
    (run (step strip) (initial v) as).sem.hostXc = lastHostXc as := by
  induction as using List.reverseRecOn with
  | nil => rfl
  | append_singleton as e ih =>
    unfold run at ih ⊢
    rw [List.foldl_append]
    unfold lastHostXc at ih ⊢
    rw [List.filterMap_append, List.getLast?_append]
    cases e with
    | setHostXc x => rfl
    | pairAdd | pairDel | setPuntViaMember | vnetChange => exact ih

/-- What is on has been enabled. -/
theorem hostXcEnabled_of_hostXc (v : VnetMain) (as : List Event)
    (hon : (run (step strip) (initial v) as).sem.hostXc = true) :
    (run (step strip) (initial v) as).sem.hostXcEnabled = true := by
  have hstep : ∀ s e, (s.sem.hostXc = true → s.sem.hostXcEnabled = true) → True →
      (step strip s e).sem.hostXc = true → (step strip s e).sem.hostXcEnabled = true := by
    intro s e h _ hon
    cases e with
    | setHostXc x =>
      have hx : x ≠ 0 := by simpa [step, eventSem, sonicExtSetHostXc] using hon
      cases hen : s.sem.hostXcEnabled with
      | true => simp [step, eventSem, sonicExtSetHostXc, hen]
      | false => simpa [step, eventSem, sonicExtSetHostXc, hostXcsNow, hen] using hx
    | pairAdd | pairDel | setPuntViaMember | vnetChange => exact h hon
  exact run_invariant (step strip) (fun _ _ => True)
    (fun s => s.sem.hostXc = true → s.sem.hostXcEnabled = true) hstep
    (fun h => absurd h Bool.false_ne_true)
    (allowed_of_forall (step strip) fun _ _ => trivial) hon

/-! ## Histories -/

/-- **Host frames.**  At the end of any history, a frame that comes in on a hardware interface is
steered past `ethernet-input` exactly if host-xc was turned on last and the interface is the tap
of a live pair.  It is then sent to the phy of such a pair; and steered or not, its bytes are
those that came in. -/
theorem host_xc_direct_iff (v : VnetMain) (as : List Event)
    (hsub : Allowed (step strip) SubKept (initial v) as) (b : Buffer)
    (hrx : sonicExtSwIsSub (run (step strip) (initial v) as).vnet b.swIfIndexRx = false) :
    let s := run (step strip) (initial v) as
    let r := deviceInput s b
    (r.2 = .direct ↔
        lastHostXc as = true ∧ ∃ p ∈ s.pairs, p.lip.lipHostSwIfIndex = b.swIfIndexRx) ∧
      (r.2 = .direct → ∃ p ∈ s.pairs, p.lip.lipHostSwIfIndex = b.swIfIndexRx ∧
        r.1.swIfIndexTx = p.lip.lipPhySwIfIndex) ∧
      r.1.current = b.current ∧ r.1.swIfIndexRx = b.swIfIndexRx := by
  intro s r
  have hbacked : HostXcBacked s :=
    run_invariant (step strip) SubKept HostXcBacked (fun s e h => hostXcBacked_step strip h)
      ⟨fun _ hp => absurd hp List.not_mem_nil, fun i => rfl⟩ hsub
  -- capture stamps the buffer and does nothing else
  generalize hb' : (if 0 < s.counts (.capture, b.swIfIndexRx) then sonicExtCaptureNode b else b) =
    b'
  have hsame : b'.swIfIndexRx = b.swIfIndexRx ∧ b'.current = b.current := by
    rw [← hb']
    split
    · exact ⟨rfl, rfl⟩
    · exact ⟨rfl, rfl⟩
  have hr : r = if 0 < s.counts (.hostXc, b.swIfIndexRx) then sonicExtHostXcNode s b' else
      (b', .passthru) := by
    rw [← hsame.1, ← hb']
    rfl
  rw [← hostXc_run strip v as]
  show (r.2 = .direct ↔ s.sem.hostXc = true ∧ _) ∧ _
  rcases hostXcNode_cases s b' with ⟨hon, p, hp, hhost, hnode⟩ | ⟨hno, hnode⟩
  · rw [hsame.1] at hhost
    have hpos : 0 < s.counts (.hostXc, b.swIfIndexRx) := by
      rw [← hhost]
      exact hbacked.enabled (hostXcEnabled_of_hostXc strip v as hon) hp (hhost ▸ hrx)
    rw [hr, if_pos hpos, hnode]
    exact ⟨⟨fun _ => ⟨hon, p, hp, hhost⟩, fun _ => rfl⟩, fun _ => ⟨p, hp, hhost, rfl⟩, hsame.2,
      hsame.1⟩
  · have hpass : r = (b', .passthru) := by
      rw [hr, hnode, ite_self]
    rw [hpass]
    refine ⟨⟨fun h => ?_, ?_⟩, fun h => ?_, hsame.2, hsame.1⟩
    · cases h
    · rintro ⟨hon, p, hp, hhost⟩
      exact absurd (hhost.trans hsame.1.symm) (hno hon p hp)
    · cases h

/-- A frame on the tap of port 64. -/
def hostFrame : Buffer where
  data := fun _ => 0
  currentData := 0
  currentLength := 60
  l2HdrOffset := 0
  swIfIndexRx := 164
  swIfIndexTx := 0
  sonicExt := ⟨0, 0, ⟨0, 0⟩⟩

/-- It goes to the port. -/
theorem host_xc_direct_subPort :
    (deviceInput (run (step fun _ _ _ => 0) (initial subPortVnet) subPortHistory) hostFrame).2 =
      .direct ∧
    ∃ p ∈ (run (step fun _ _ _ => 0) (initial subPortVnet) subPortHistory).pairs,
      p.lip.lipHostSwIfIndex = 164 ∧
      (deviceInput (run (step fun _ _ _ => 0) (initial subPortVnet) subPortHistory)
        hostFrame).1.swIfIndexTx = p.lip.lipPhySwIfIndex := by
  obtain ⟨hdirect, hsent, -⟩ := host_xc_direct_iff (fun _ _ _ => 0) subPortVnet subPortHistory
    ⟨trivial, trivial, trivial, trivial, trivial, trivial⟩ hostFrame (by decide)
  have hon : (deviceInput (run (step fun _ _ _ => 0) (initial subPortVnet) subPortHistory)
      hostFrame).2 = .direct :=
    hdirect.2 ⟨by decide, ⟨⟨164, 64⟩, [(.capture, 64), (.hostXc, 164)], false, false, false⟩,
      by decide, rfl⟩
  exact ⟨hon, hsent hon⟩

end SonicExt
