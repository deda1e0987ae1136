/-
# The redirect nodes (`aggr_tap_redirect_node.c`, `glean_redirect_node.c`)

Two nodes hand a captured packet to the host tap of its ingress port: the one on the
`interface-output` arc of the aggregate taps, the other on the `ip4-drop` and `ip6-drop`
arcs.  Both act only on a buffer that carries the cookie of the capture node, and
both leave the decision to `sonic_ext_redirect_to_ingress_tap`.

`redirect_cases` says once what that function can do; `aggrTapRedirect_cases` and
`gleanRedirect_cases` say what a node can do to the cookie.  The throttle of the glean
node is VPP's: its check is a parameter.
-/
import SonicVpp.IngressRedirect

namespace SonicExt

/-! ## What the nodes read -/

/-- A buffer with the fields the redirect nodes read besides: the adjacency of
`ip.adj_index[VLIB_TX]` and the node of `b->error` (`vlib_error_get_node`). -/
structure PuntBuffer extends Buffer where
  adjIndexTx : BitVec 32
  errorNode : BitVec 32

/-- `lookup_next_index`, as far as the glean node tells its values apart. -/
inductive IpLookupNext
  | arp
  | glean
  | other
  deriving DecidableEq, Repr

/-- What the glean node reads of an adjacency. -/
structure IpAdjacency where
  lookupNextIndex : IpLookupNext
  swIfIndex : BitVec 32
  deriving DecidableEq, Repr

/-- `sonic_ext_glean_src_nodes` and the adjacency pool (`none`: not a valid index). -/
structure GleanMain where
  sonicExtGleanSrcNodes : List (BitVec 32)
  adj : BitVec 32 → Option IpAdjacency

/-- What the nodes read besides the buffer; `Th` is the state of the throttle. -/
structure PuntMain (Th : Type) where
  puntViaMember : Bool
  ingress : IngressMain
  glean : GleanMain
  throttle : Th

/-- Where a node sends a buffer: on along its feature arc, or to `interface-output`. -/
inductive PuntNext
  | feature
  | interfaceOutput
  deriving DecidableEq, Repr

/-- The counters of `sonic_ext_aggr_tap_redirect_node`. -/
inductive AggrTapRedirectError
  | redirected
  | noCookie
  | noLcp
  | disabled
  deriving DecidableEq, Repr

/-- The counters of `sonic_ext_glean_redirect_node`. -/
inductive GleanRedirectError
  | redirected
  | notNbrNode
  | notGlean
  | noCookie
  | noLcp
  | throttled
  | disabled
  deriving DecidableEq, Repr

/-! ## The nodes -/

/-- `sonic_ext_aggr_tap_redirect_node`, for one buffer. -/
def sonicExtAggrTapRedirectNode (puntViaMember : Bool) (main : IngressMain) (b : PuntBuffer) :
    PuntBuffer × PuntNext × AggrTapRedirectError :=
  let aggrTap := b.swIfIndexTx
  if !puntViaMember then (b, .feature, .disabled)
  else if b.sonicExt.magic ≠ sonicExtBufferMagic then (b, .feature, .noCookie)
  else
    let (buf, r) :=
      sonicExtRedirectToIngressTap main b.toBuffer b.sonicExt.origRxSwIfIndex aggrTap
    if !r.rv then
      -- this path continues to output, so the cookie is consumed
      ({ b with toBuffer := { buf with sonicExt := { buf.sonicExt with magic := 0 } } },
        .feature, .noLcp)
    else ({ b with toBuffer := buf }, .interfaceOutput, .redirected)

/-- `sonic_ext_glean_from_nbr_node`. -/
def sonicExtGleanFromNbrNode (glean : GleanMain) (b : PuntBuffer) : Bool :=
  glean.sonicExtGleanSrcNodes.any fun n => n ≠ BitVec.allOnes 32 && b.errorNode = n

/-- `sonic_ext_glean_should_redirect`. -/
def sonicExtGleanShouldRedirect (glean : GleanMain) (main : IngressMain)
    (adjIndex : BitVec 32) : Bool :=
  if adjIndex = BitVec.allOnes 32 then false
  else
    match glean.adj adjIndex with
    | none => false
    | some adj =>
      if adj.lookupNextIndex ≠ .glean ∧ adj.lookupNextIndex ≠ .arp then false
      else (main.swInterfaceSup adj.swIfIndex).isSome

section Glean

variable {Th : Type} (throttleCheck : Th → BitVec 64 → Bool × Th)

/-- `sonic_ext_glean_redirect_node`, for one buffer, with the throttle after it. -/
def sonicExtGleanRedirectNode (m : PuntMain Th) (b : PuntBuffer) :
    (PuntBuffer × PuntNext × GleanRedirectError) × Th :=
  let adjIndex := b.adjIndexTx
  if !m.puntViaMember then ((b, .feature, .disabled), m.throttle)
  else if !sonicExtGleanFromNbrNode m.glean b then ((b, .feature, .notNbrNode), m.throttle)
  else if !sonicExtGleanShouldRedirect m.glean m.ingress adjIndex then
    ((b, .feature, .notGlean), m.throttle)
  else if b.sonicExt.magic ≠ sonicExtBufferMagic then ((b, .feature, .noCookie), m.throttle)
  else
    let origRx := b.sonicExt.origRxSwIfIndex
    let (throttled, th) := throttleCheck m.throttle (adjIndex ++ origRx)
    if throttled then ((b, .feature, .throttled), th)
    else
      let (buf, r) := sonicExtRedirectToIngressTap m.ingress b.toBuffer origRx (BitVec.allOnes 32)
      if !r.rv then (({ b with toBuffer := buf }, .feature, .noLcp), th)
      else (({ b with toBuffer := buf }, .interfaceOutput, .redirected), th)

end Glean

/-- A node that does not write the cookie. -/
def keepCookie (f : PuntBuffer → PuntBuffer) (b : PuntBuffer) : PuntBuffer :=
  { f b with sonicExt := b.sonicExt }

/-! ## What a visit can do -/

/-- The host tap paired with an interface, or with its parent if it is a sub-interface. -/
def IngressMain.ingressTap (main : IngressMain) (rx : BitVec 32) : Option (BitVec 32) :=
  (main.swInterfaceSup rx).bind fun sup => main.lcpItfPairFindByPhy (sup.getD rx)

/-- The buffer carries a live cookie. -/
def Buffer.Stamped (b : Buffer) : Prop := b.sonicExt.magic = sonicExtBufferMagic

instance (b : Buffer) : Decidable b.Stamped := inferInstanceAs (Decidable (_ = _))

/-- A consumed cookie is not live. -/
theorem not_stamped_of_magic_zero {b : Buffer} (h : b.sonicExt.magic = 0) : ¬ b.Stamped := by
  intro hs
  rw [Buffer.Stamped, h] at hs
  revert hs
  decide

/-- The restore part keeps the cookie. -/
@[simp] theorem restoreL2_sonicExt (b : Buffer) : (restoreL2 b).1.sonicExt = b.sonicExt := by
  unfold restoreL2
  dsimp only
  split
  · rfl
  · rfl

/-- **What a redirect can do**: nothing at all, or consume the cookie and send the buffer
to the tap of the ingress port, which is not the excluded one. -/
theorem redirect_cases (main : IngressMain) (b : Buffer) (origRx excludedTap : BitVec 32) :
    ((sonicExtRedirectToIngressTap main b origRx excludedTap).2.rv = false ∧
      (sonicExtRedirectToIngressTap main b origRx excludedTap).1 = b) ∨
    ((sonicExtRedirectToIngressTap main b origRx excludedTap).2.rv = true ∧
      (sonicExtRedirectToIngressTap main b origRx excludedTap).1.sonicExt.magic = 0 ∧
      main.ingressTap origRx
        = some (sonicExtRedirectToIngressTap main b origRx excludedTap).1.swIfIndexTx ∧
      (sonicExtRedirectToIngressTap main b origRx excludedTap).1.swIfIndexTx ≠ excludedTap) := by
  unfold sonicExtRedirectToIngressTap IngressMain.ingressTap
  cases main.swInterfaceSup origRx with
  | none => exact Or.inl ⟨rfl, rfl⟩
  | some sup =>
    simp only [Option.bind_some]
    cases main.lcpItfPairFindByPhy (sup.getD origRx) with
    | none => exact Or.inl ⟨rfl, rfl⟩
    | some hostTap =>
      by_cases hex : hostTap = excludedTap
      · simp only [hex, if_true]
        exact Or.inl ⟨trivial, trivial⟩
      · simp only [hex, if_false]
        refine Or.inr ⟨trivial, ?_, trivial, hex⟩
        rw [restoreL2_sonicExt]

/-- **What the aggregate tap node can do**: pass the buffer on as it is, pass it on with
the cookie consumed, or redirect a stamped one. -/
theorem aggrTapRedirect_cases (punt : Bool) (main : IngressMain) (b : PuntBuffer) :
    ((sonicExtAggrTapRedirectNode punt main b).2.1 = .feature ∧
      ((sonicExtAggrTapRedirectNode punt main b).1 = b ∨
        ¬ (sonicExtAggrTapRedirectNode punt main b).1.Stamped)) ∨
    ((sonicExtAggrTapRedirectNode punt main b).2.1 = .interfaceOutput ∧ b.Stamped ∧
      ¬ (sonicExtAggrTapRedirectNode punt main b).1.Stamped ∧
      main.ingressTap b.sonicExt.origRxSwIfIndex
        = some (sonicExtAggrTapRedirectNode punt main b).1.swIfIndexTx ∧
      (sonicExtAggrTapRedirectNode punt main b).1.swIfIndexTx ≠ b.swIfIndexTx) := by
  unfold sonicExtAggrTapRedirectNode
  cases punt with
  | false => exact Or.inl ⟨rfl, Or.inl rfl⟩
  | true =>
    by_cases hm : b.sonicExt.magic = sonicExtBufferMagic
    · simp only [hm, Bool.not_true, Bool.false_eq_true, if_false, ne_eq, not_true_eq_false]
      rcases redirect_cases main b.toBuffer b.sonicExt.origRxSwIfIndex b.swIfIndexTx with
        ⟨hrv, -⟩ | ⟨hrv, hmagic, htap, hne⟩
      · rw [hrv]
        exact Or.inl ⟨rfl, Or.inr (not_stamped_of_magic_zero rfl)⟩
      · rw [hrv]
        exact Or.inr ⟨rfl, hm, not_stamped_of_magic_zero hmagic, htap, hne⟩
    · simp only [hm, Bool.not_true, Bool.false_eq_true, if_false, ne_eq, not_false_eq_true, if_true]
      exact Or.inl ⟨trivial, Or.inl trivial⟩

/-- A stamped buffer whose ingress port has a tap, other than the one it is leaving by, is
redirected. -/
theorem aggrTapRedirect_redirects {main : IngressMain} {b : PuntBuffer} {tap : BitVec 32}
    (hs : b.Stamped) (htap : main.ingressTap b.sonicExt.origRxSwIfIndex = some tap)
    (hne : tap ≠ b.swIfIndexTx) :
    (sonicExtAggrTapRedirectNode true main b).2.1 = .interfaceOutput := by
  obtain ⟨sup, hsup, hpair⟩ := Option.bind_eq_some_iff.1 htap
  have hs' : b.sonicExt.magic = sonicExtBufferMagic := hs
  have hrv : (sonicExtRedirectToIngressTap main b.toBuffer b.sonicExt.origRxSwIfIndex
      b.swIfIndexTx).2.rv = true := by
    simp only [sonicExtRedirectToIngressTap, hsup, hpair, hne, if_false]
  simp only [sonicExtAggrTapRedirectNode, hs', hrv, Bool.not_true, Bool.false_eq_true, if_false,
    ne_eq, not_true_eq_false]

/-- **What the glean node can do**: pass the buffer on as it is, or redirect a stamped
one. -/
theorem gleanRedirect_cases {Th : Type} (throttleCheck : Th → BitVec 64 → Bool × Th)
    (m : PuntMain Th) (b : PuntBuffer) :
    ((sonicExtGleanRedirectNode throttleCheck m b).1.2.1 = .feature ∧
      (sonicExtGleanRedirectNode throttleCheck m b).1.1 = b) ∨
    ((sonicExtGleanRedirectNode throttleCheck m b).1.2.1 = .interfaceOutput ∧ b.Stamped ∧
      ¬ (sonicExtGleanRedirectNode throttleCheck m b).1.1.Stamped ∧
      m.ingress.ingressTap b.sonicExt.origRxSwIfIndex
        = some (sonicExtGleanRedirectNode throttleCheck m b).1.1.swIfIndexTx) := by
  simp only [sonicExtGleanRedirectNode]
  cases m.puntViaMember with
  | false => exact Or.inl ⟨rfl, rfl⟩
  | true =>
    cases sonicExtGleanFromNbrNode m.glean b with
    | false => exact Or.inl ⟨rfl, rfl⟩
    | true =>
      cases sonicExtGleanShouldRedirect m.glean m.ingress b.adjIndexTx with
      | false => exact Or.inl ⟨rfl, rfl⟩
      | true =>
        by_cases hm : b.sonicExt.magic = sonicExtBufferMagic
        · simp only [hm, Bool.not_true, Bool.false_eq_true, if_false, ne_eq, not_true_eq_false]
          cases (throttleCheck m.throttle (b.adjIndexTx ++ b.sonicExt.origRxSwIfIndex)).1 with
          | true => exact Or.inl ⟨rfl, rfl⟩
          | false =>
            rcases redirect_cases m.ingress b.toBuffer b.sonicExt.origRxSwIfIndex
              (BitVec.allOnes 32) with ⟨hrv, hsame⟩ | ⟨hrv, hmagic, htap, -⟩
            · rw [hrv, hsame]
              exact Or.inl ⟨rfl, rfl⟩
            · rw [hrv]
              exact Or.inr ⟨rfl, hm, not_stamped_of_magic_zero hmagic, htap⟩
        · simp only [hm, Bool.not_true, Bool.false_eq_true, if_false, ne_eq, not_false_eq_true,
            if_true]
          exact Or.inl ⟨trivial, trivial⟩

end SonicExt
