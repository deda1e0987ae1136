/-
# Trapped frames

A frame that the classifier of a bridged port traps is handed to `linux-cp-punt`, which looks for
the tap of the interface in `VLIB_RX`.  A sub-interface in a bridge has no tap, so the node
`sonic-ext-l2-trap-fixup` puts its parent there.

`trap_fixup_run` follows the node over frames while interfaces come and go.  It also compares it
with `sonic_ext_redirect_to_ingress_tap`, which resolves the port of a frame by itself: both find
the same tap.
-/
import SonicVpp.IngressRedirect
import SonicVpp.PacketNode

namespace SonicExt

/-! ## The node -/

/-- A trapped buffer. -/
structure TrapBuffer extends Buffer where
  error : BitVec 16
  isTraced : Bool

/-- `SONIC_EXT_L2_TRAP_FIXUP_ERROR_*`. -/
inductive TrapError
  | fixedUp
  | noParent
  deriving DecidableEq, Repr

/-- The errors in the order of their counters. -/
def trapErrors : List TrapError := [.fixedUp, .noParent]

/-- `SONIC_EXT_L2_TRAP_FIXUP_NEXT_PUNT`. -/
def trapNextPunt : BitVec 16 := 0

/-- `SONIC_EXT_L2_TRAP_FIXUP_NEXT_DROP`. -/
def trapNextDrop : BitVec 16 := 1

/-- `sonic_ext_l2_trap_fixup_trace_t`. -/
structure TrapTrace where
  rxSwIfIndex : BitVec 32
  puntRxSwIfIndex : BitVec 32
  dropped : Bool

/-- `sonic_ext_l2_trap_fixup_lookup_parent`. -/
def sonicExtL2TrapFixupLookupParent (main : IngressMain) (rxSwIfIndex : BitVec 32) : BitVec 32 :=
  match main.swInterfaceSup rxSwIfIndex with
  | none => BitVec.allOnes 32
  | some sup => sup.getD rxSwIfIndex

/-- The body of the loop of `sonic_ext_l2_trap_fixup_node`; `noParentError` is
`node->errors[SONIC_EXT_L2_TRAP_FIXUP_ERROR_NO_PARENT]`. -/
def sonicExtL2TrapFixupX1 (main : IngressMain) (noParentError : BitVec 16) (b : TrapBuffer) :
    PacketNode.Verdict TrapBuffer TrapError TrapTrace :=
  let rx := b.swIfIndexRx
  let puntRx := sonicExtL2TrapFixupLookupParent main rx
  if puntRx = BitVec.allOnes 32 then
    ⟨{ b with error := noParentError }, trapNextDrop, .noParent, ⟨rx, puntRx, true⟩⟩
  else
    ⟨{ b with swIfIndexRx := puntRx }, trapNextPunt, .fixedUp, ⟨rx, puntRx, false⟩⟩

/-- The interfaces, the counters of the node, and `l2_trap_fixups`. -/
structure TrapMain where
  ingress : IngressMain
  counters : TrapError → BitVec 64
  l2TrapFixups : BitVec 64

/-- `sonic_ext_l2_trap_fixup_node`. -/
def sonicExtL2TrapFixupNode (s : TrapMain) (noParentError : BitVec 16) (nodeTraces : Bool)
    (frame : List TrapBuffer) : Option (TrapMain × List (TrapBuffer × BitVec 16)) := do
  let d ← PacketNode.frame (fun b => some (sonicExtL2TrapFixupX1 s.ingress noParentError b))
    (fun b => nodeTraces && b.isTraced) frame
  some ({ s with
      counters := FrameNode.incrementCounters trapErrors d.counts s.counters
      l2TrapFixups := s.l2TrapFixups + (d.counts .fixedUp).setWidth 64 }, d.sent)

/-- Interfaces and pairs change, or a frame of trapped buffers comes. -/
inductive TrapEvent
  | ingressChange (main : IngressMain)
  | frame (bufs : List TrapBuffer)

/-- A history, and what each event sends on. -/
def trapRun (noParentError : BitVec 16) (nodeTraces : Bool) : TrapMain → List TrapEvent →
    Option (TrapMain × List (List (TrapBuffer × BitVec 16)))
  | s, [] => some (s, [])
  | s, .ingressChange main :: es => do
    let (s, sents) ← trapRun noParentError nodeTraces { s with ingress := main } es
    some (s, [] :: sents)
  | s, .frame bufs :: es => do
    let (s, sent) ← sonicExtL2TrapFixupNode s noParentError nodeTraces bufs
    let (s, sents) ← trapRun noParentError nodeTraces s es
    some (s, sent :: sents)

/-! ## What is meant -/

/-- The interfaces after a history. -/
def ingressAfter (main : IngressMain) (es : List TrapEvent) : IngressMain :=
  es.foldl (fun main e => match e with
    | .ingressChange main' => main'
    | .frame _ => main) main

/-- What becomes of a trapped packet.  It is punted if its interface is there and has a parent, or
is its own; `linux-cp-punt` then finds the tap that a redirect of the packet would choose. -/
structure TrapHandled (main : IngressMain) (noParentError : BitVec 16) (b : TrapBuffer)
    (out : TrapBuffer × BitVec 16) : Prop where
  punted_iff : out.2 = trapNextPunt ↔ ∃ sup, main.swInterfaceSup b.swIfIndexRx = some sup ∧
    sup.getD b.swIfIndexRx ≠ BitVec.allOnes 32
  dropped : out.2 ≠ trapNextPunt → out = ({ b with error := noParentError }, trapNextDrop)
  unchanged : out.1.current = b.current ∧ out.1.l2Frame = b.l2Frame ∧ out.1.sonicExt = b.sonicExt
  tap : out.2 = trapNextPunt → ∀ excludedTap tap,
    main.lcpItfPairFindByPhy out.1.swIfIndexRx = some tap ∧ tap ≠ excludedTap ↔
      (sonicExtRedirectToIngressTap main b.toBuffer b.swIfIndexRx excludedTap).2.rv = true ∧
        (sonicExtRedirectToIngressTap main b.toBuffer b.swIfIndexRx excludedTap).2.hostTap = tap

/-- The counters and `l2_trap_fixups` have grown by the packets that were punted and dropped. -/
structure TrapCounted (s : TrapMain) (sent : List (TrapBuffer × BitVec 16)) (s' : TrapMain) :
    Prop where
  fixedUp : s'.counters .fixedUp = s.counters .fixedUp +
    BitVec.ofNat 64 (sent.countP fun out => out.2 = trapNextPunt)
  noParent : s'.counters .noParent = s.counters .noParent +
    BitVec.ofNat 64 (sent.countP fun out => out.2 = trapNextDrop)
  fixups : s'.l2TrapFixups = s.l2TrapFixups +
    BitVec.ofNat 64 (sent.countP fun out => out.2 = trapNextPunt)

/-! ## One packet -/

/-- The result of a redirect. -/
theorem redirect_rv_iff {main : IngressMain} {b : Buffer} {origRx excludedTap tap : BitVec 32}
    {sup : Option (BitVec 32)} (hsup : main.swInterfaceSup origRx = some sup) :
    main.lcpItfPairFindByPhy (sup.getD origRx) = some tap ∧ tap ≠ excludedTap ↔
      (sonicExtRedirectToIngressTap main b origRx excludedTap).2.rv = true ∧
        (sonicExtRedirectToIngressTap main b origRx excludedTap).2.hostTap = tap := by
  unfold sonicExtRedirectToIngressTap
  rw [hsup]
  cases hpair : main.lcpItfPairFindByPhy (sup.getD origRx) with
  | none => simp [hpair]
  | some hostTap =>
    by_cases hex : hostTap = excludedTap
    · simp only [hpair, hex, if_true, Bool.false_eq_true, false_and, iff_false, not_and, not_not,
        Option.some.injEq]
      exact fun h => h.symm
    · simp only [hpair, hex, if_false, true_and, Option.some.injEq]
      constructor
      · exact fun h => h.1
      · rintro rfl
        exact ⟨rfl, hex⟩

theorem lookupParent_none {main : IngressMain} {rx : BitVec 32}
    (hsup : main.swInterfaceSup rx = none) :
    sonicExtL2TrapFixupLookupParent main rx = BitVec.allOnes 32 := by
  rw [sonicExtL2TrapFixupLookupParent, hsup]

theorem lookupParent_some {main : IngressMain} {rx : BitVec 32} {sup : Option (BitVec 32)}
    (hsup : main.swInterfaceSup rx = some sup) :
    sonicExtL2TrapFixupLookupParent main rx = sup.getD rx := by
  rw [sonicExtL2TrapFixupLookupParent, hsup]

/-- The node drops a packet or retargets it. -/
theorem sonicExtL2TrapFixupX1_cases (main : IngressMain) (noParentError : BitVec 16)
    (b : TrapBuffer) :
    (sonicExtL2TrapFixupLookupParent main b.swIfIndexRx = BitVec.allOnes 32 ∧
        sonicExtL2TrapFixupX1 main noParentError b =
          ⟨{ b with error := noParentError }, trapNextDrop, .noParent,
            ⟨b.swIfIndexRx, BitVec.allOnes 32, true⟩⟩) ∨
      ∃ port, sonicExtL2TrapFixupLookupParent main b.swIfIndexRx = port ∧
        port ≠ BitVec.allOnes 32 ∧
        sonicExtL2TrapFixupX1 main noParentError b =
          ⟨{ b with swIfIndexRx := port }, trapNextPunt, .fixedUp, ⟨b.swIfIndexRx, port, false⟩⟩ := by
  unfold sonicExtL2TrapFixupX1
  dsimp only
  generalize sonicExtL2TrapFixupLookupParent main b.swIfIndexRx = port
  split_ifs with hones
  · subst hones
    exact Or.inl ⟨rfl, rfl⟩
  · exact Or.inr ⟨port, rfl, hones, rfl⟩

theorem trapHandled_x1 (main : IngressMain) (noParentError : BitVec 16) (b : TrapBuffer) :
    TrapHandled main noParentError b
      ((sonicExtL2TrapFixupX1 main noParentError b).packet,
        (sonicExtL2TrapFixupX1 main noParentError b).next) := by
  have hdrop : trapNextDrop ≠ trapNextPunt := by decide
  rcases sonicExtL2TrapFixupX1_cases main noParentError b with
    ⟨hparent, hx1⟩ | ⟨port, hparent, hones, hx1⟩
  · rw [hx1]
    refine ⟨⟨fun h => absurd h hdrop, ?_⟩, fun _ => rfl, ⟨rfl, rfl, rfl⟩, fun h => absurd h hdrop⟩
    rintro ⟨sup, hsup, hne⟩
    exact absurd ((lookupParent_some hsup).symm.trans hparent) hne
  · rw [hx1]
    cases hsup : main.swInterfaceSup b.swIfIndexRx with
    | none => exact absurd (hparent.symm.trans (lookupParent_none hsup)) hones
    | some sup =>
      have hport : sup.getD b.swIfIndexRx = port := (lookupParent_some hsup).symm.trans hparent
      refine ⟨⟨fun _ => ⟨sup, hsup, hport ▸ hones⟩, fun _ => rfl⟩, fun h => absurd rfl h,
        ⟨rfl, rfl, rfl⟩, fun _ excludedTap tap => ?_⟩
      rw [← hport]
      exact redirect_rv_iff hsup

theorem x1_error_iff (main : IngressMain) (noParentError : BitVec 16) (b : TrapBuffer) :
    ((sonicExtL2TrapFixupX1 main noParentError b).error = .fixedUp ↔
        (sonicExtL2TrapFixupX1 main noParentError b).next = trapNextPunt) ∧
      ((sonicExtL2TrapFixupX1 main noParentError b).error = .noParent ↔
        (sonicExtL2TrapFixupX1 main noParentError b).next = trapNextDrop) := by
  rcases sonicExtL2TrapFixupX1_cases main noParentError b with ⟨-, hx1⟩ | ⟨port, -, -, hx1⟩
  · simp [hx1, trapNextPunt, trapNextDrop]
  · simp [hx1, trapNextPunt, trapNextDrop]

/-! ## Histories -/

theorem TrapCounted.refl (s : TrapMain) : TrapCounted s [] s where
  fixedUp := (BitVec.add_zero _).symm
  noParent := (BitVec.add_zero _).symm
  fixups := (BitVec.add_zero _).symm

theorem TrapCounted.trans {s s' s'' : TrapMain} {sent sent' : List (TrapBuffer × BitVec 16)}
    (h : TrapCounted s sent s') (h' : TrapCounted s' sent' s'') :
    TrapCounted s (sent ++ sent') s'' where
  fixedUp := by
    rw [h'.fixedUp, h.fixedUp, List.countP_append, BitVec.ofNat_add, BitVec.add_assoc]
  noParent := by
    rw [h'.noParent, h.noParent, List.countP_append, BitVec.ofNat_add, BitVec.add_assoc]
  fixups := by
    rw [h'.fixups, h.fixups, List.countP_append, BitVec.ofNat_add, BitVec.add_assoc]

/-- **The node, one frame.** -/
theorem sonicExtL2TrapFixupNode_eq (s : TrapMain) (noParentError : BitVec 16) (nodeTraces : Bool)
    {frame : List TrapBuffer} (hlen : frame.length ≤ FrameNode.frameSize) :
    ∃ s' sent, sonicExtL2TrapFixupNode s noParentError nodeTraces frame = some (s', sent) ∧
      s'.ingress = s.ingress ∧
      List.Forall₂ (TrapHandled s.ingress noParentError) frame sent ∧
      TrapCounted s sent s' := by
  have hsmall : ∀ e, (frame.countP fun b =>
      (sonicExtL2TrapFixupX1 s.ingress noParentError b).error = e) ≤ FrameNode.frameSize :=
    fun e => List.countP_le_length.trans hlen
  have hcounter : ∀ e, e ∈ trapErrors → FrameNode.incrementCounters trapErrors
      (fun e => BitVec.ofNat 32 (frame.countP fun b =>
        (sonicExtL2TrapFixupX1 s.ingress noParentError b).error = e)) s.counters e = _ :=
    fun e he => PacketNode.incrementCounters_frame (by decide) hsmall he
  have hhits := PacketNode.setWidth_ofNat_frame (hsmall .fixedUp)
  unfold sonicExtL2TrapFixupNode
  rw [PacketNode.frame_eq (fun b _ => rfl) hlen]
  refine ⟨_, _, rfl, rfl, ?_, ?_, ?_, ?_⟩
  · rw [List.forall₂_map_right_iff, List.forall₂_same]
    exact fun b _ => trapHandled_x1 s.ingress noParentError b
  · show FrameNode.incrementCounters _ _ _ _ = _
    rw [hcounter .fixedUp (by decide), List.countP_map]
    simp only [(x1_error_iff _ _ _).1]
    rfl
  · show FrameNode.incrementCounters _ _ _ _ = _
    rw [hcounter .noParent (by decide), List.countP_map]
    simp only [(x1_error_iff _ _ _).2]
    rfl
  · show _ + BitVec.setWidth 64 _ = _
    rw [hhits, List.countP_map]
    simp only [(x1_error_iff _ _ _).1]
    rfl

/-- **Trapped frames over a history.**  No access goes wrong; every trapped packet is handled as the
interfaces are when it comes; and the counters and `l2_trap_fixups` say how many were punted and
dropped. -/
theorem trap_fixup_run (noParentError : BitVec 16) (nodeTraces : Bool) (es : List TrapEvent) :
    ∀ s : TrapMain, (∀ bufs, .frame bufs ∈ es → bufs.length ≤ FrameNode.frameSize) →
      ∃ s' sents, trapRun noParentError nodeTraces s es = some (s', sents) ∧
        (∀ (n : ℕ) bufs, es[n]? = some (.frame bufs) → ∃ sent, sents[n]? = some sent ∧
          List.Forall₂ (TrapHandled (ingressAfter s.ingress (es.take n)) noParentError) bufs sent) ∧
        TrapCounted s sents.flatten s' := by
  -- on the events; the counters of a frame and of the rest of the history add up
  induction es with
  | nil =>
    intro s _
    refine ⟨s, [], rfl, ?_, TrapCounted.refl s⟩
    intro n bufs hn
    cases hn
  | cons e es ih =>
    intro s hlen
    have hrest : ∀ bufs, .frame bufs ∈ es → bufs.length ≤ FrameNode.frameSize :=
      fun bufs hmem => hlen bufs (List.mem_cons_of_mem _ hmem)
    cases e with
    | ingressChange main =>
      obtain ⟨s', sents, hrun, hsents, hcounted⟩ := ih { s with ingress := main } hrest
      refine ⟨s', [] :: sents, ?_, ?_, ⟨hcounted.fixedUp, hcounted.noParent, hcounted.fixups⟩⟩
      · rw [trapRun, hrun]
        rfl
      · intro n bufs hn
        cases n with
        | zero => cases hn
        | succ n =>
          apply hsents n bufs hn
    | frame bufs =>
      obtain ⟨s₁, sent, hnode, hingress, hsent, hcounted⟩ :=
        sonicExtL2TrapFixupNode_eq s noParentError nodeTraces (hlen bufs List.mem_cons_self)
      obtain ⟨s', sents, hrun, hsents, hcounted'⟩ := ih s₁ hrest
      -- the frame does not change the interfaces
      rw [hingress] at hsents
      refine ⟨s', sent :: sents, ?_, ?_, hcounted.trans hcounted'⟩
      · rw [trapRun, hnode]
        simp only [Option.bind_eq_bind, Option.bind_some, hrun]
      · intro n bufs' hn
        cases n with
        | zero =>
          cases hn
          exact ⟨sent, rfl, hsent⟩
        | succ n =>
          apply hsents n bufs' hn

/-- Port 1 with the tap 101, and its sub-interface 2. -/
def onePortWithSub : IngressMain where
  swInterfaceSup i := if i = 1 then some none else if i = 2 then some (some 1) else none
  lcpItfPairFindByPhy i := if i = 1 then some 101 else none

/-- A frame that was trapped on interface `i`. -/
def trappedOn (i : BitVec 32) : TrapBuffer where
  data := fun _ => 0
  currentData := 4
  currentLength := 60
  l2HdrOffset := 0
  swIfIndexRx := i
  swIfIndexTx := 0
  sonicExt := ⟨0, 0, ⟨0, 0⟩⟩
  error := 0
  isTraced := false

/-- The sub-interface goes while its frames are still coming. -/
def subInterfaceGoes : List TrapEvent :=
  [.frame [trappedOn 2], .ingressChange { onePortWithSub with
    swInterfaceSup := fun i => if i = 1 then some none else none }, .frame [trappedOn 2]]

/-- One of them is punted, and the other one dropped. -/
theorem trap_fixup_run_sub :
    ∃ s sents punted dropped, trapRun 5 false ⟨onePortWithSub, fun _ => 0, 0⟩ subInterfaceGoes =
        some (s, sents) ∧
      sents[0]? = some [punted] ∧ punted.2 = trapNextPunt ∧
      sents[2]? = some [dropped] ∧ dropped = ({ trappedOn 2 with error := 5 }, trapNextDrop) := by
  have hlen : ∀ bufs, .frame bufs ∈ subInterfaceGoes → bufs.length ≤ FrameNode.frameSize := by
    intro bufs hmem
    simp only [subInterfaceGoes, List.mem_cons, TrapEvent.frame.injEq, reduceCtorEq, false_or,
      List.not_mem_nil, or_false] at hmem
    rcases hmem with rfl | rfl
    · decide
    · decide
  obtain ⟨s, sents, hrun, hsents, -⟩ :=
    trap_fixup_run 5 false subInterfaceGoes ⟨onePortWithSub, fun _ => 0, 0⟩ hlen
  obtain ⟨sent, hsent, hhandled⟩ := hsents 0 [trappedOn 2] rfl
  obtain ⟨sent', hsent', hhandled'⟩ := hsents 2 [trappedOn 2] rfl
  obtain ⟨punted, _, hpunted, hnil, rfl⟩ := List.forall₂_cons_left_iff.1 hhandled
  obtain ⟨dropped, _, hdropped, hnil', rfl⟩ := List.forall₂_cons_left_iff.1 hhandled'
  rw [List.forall₂_nil_left_iff] at hnil hnil'
  subst hnil hnil'
  refine ⟨s, sents, punted, dropped, hrun, hsent, ?_, hsent', hdropped.dropped ?_⟩
  · exact hpunted.punted_iff.2 ⟨some 1, rfl, by decide⟩
  · rw [ne_eq, hdropped.punted_iff]
    rintro ⟨sup, hsup, -⟩
    cases hsup

end SonicExt
