/-
# Stamps and recycled buffers

The cookie of the capture node lies in `opaque2`, which VPP does not write when a buffer
is allocated or received into: a recycled buffer keeps the cookie it was freed with.  The
redirect nodes consume the cookie of a packet they handle, but most packets leave by
ordinary forwarding or are dropped, and their buffers go back to the pool stamped.

`noStaleStamp_run` gives the condition under which no redirect acts on a stamp that is
not the packet's own: no packet that is not captured gets a buffer with a live cookie.
-/
import SonicVpp.RedirectNodes
import SonicVpp.RunInvariant

open RunInvariant

namespace SonicExt

/-! ## The pool -/

/-- How a packet comes into a buffer: received on an interface with capture enabled,
received on one without, or generated inside VPP. -/
inductive PacketEntry
  | captured (rx : BitVec 32)
  | uncaptured (rx : BitVec 32)
  | generated
  deriving DecidableEq, Repr

/-- The interface a packet was received on. -/
def PacketEntry.receivedOn : PacketEntry → Option (BitVec 32)
  | .captured rx => some rx
  | .uncaptured rx => some rx
  | .generated => none

/-- A buffer of the pool.  `entry` and `captured` tell how its packet came in, and that
the capture node has seen it since the buffer was last allocated. -/
structure PoolBuffer where
  buffer : PuntBuffer
  inUse : Bool
  entry : PacketEntry
  captured : Bool

/-- A redirect that was made: how the packet came in, whether it was captured since its
buffer was allocated, and the interface of the stamp that was used. -/
structure RedirectRecord where
  entry : PacketEntry
  captured : Bool
  stampedIf : BitVec 32
  deriving DecidableEq, Repr

/-- The packet itself was stamped, with the interface it was received on. -/
def RedirectRecord.Genuine (r : RedirectRecord) : Prop :=
  r.captured = true ∧ r.entry.receivedOn = some r.stampedIf

instance (r : RedirectRecord) : Decidable r.Genuine := inferInstanceAs (Decidable (_ ∧ _))

/-- The pool, what the nodes read besides, and the redirects made so far. -/
structure PoolState (Th : Type) where
  main : PuntMain Th
  bufs : ℕ → PoolBuffer
  redirects : List RedirectRecord

/-- The steps of a run; `i` is the index of a buffer.  A packet leaves when it has been
forwarded, dropped or handed to a tap. -/
inductive PoolAction (Th : Type)
  | enter (i : ℕ) (fresh : PuntBuffer) (e : PacketEntry)
  | aggrTapRedirect (i : ℕ)
  | gleanRedirect (i : ℕ)
  | otherNode (i : ℕ) (f : PuntBuffer → PuntBuffer)
  | leave (i : ℕ)
  | setMain (main : PuntMain Th)

/-- A packet comes into a free buffer: everything but `opaque2` is new, and with capture
enabled the capture node runs before any other. -/
def PoolBuffer.enter (p : PoolBuffer) (fresh : PuntBuffer) (e : PacketEntry) : PoolBuffer :=
  let b := { fresh with sonicExt := p.buffer.sonicExt }
  match e with
  | .captured rx =>
    { buffer := { b with toBuffer := sonicExtCaptureNode { b.toBuffer with swIfIndexRx := rx } }
      inUse := true
      entry := e
      captured := true }
  | .uncaptured rx => ⟨{ b with swIfIndexRx := rx }, true, e, false⟩
  | .generated => ⟨b, true, e, false⟩

/-- The pool after a redirect node has left the buffer `b` for the next node. -/
def PoolState.visited {Th : Type} (s : PoolState Th) (i : ℕ) (b : PuntBuffer)
    (next : PuntNext) : PoolState Th :=
  let p := s.bufs i
  { s with
    bufs := Function.update s.bufs i { p with buffer := b }
    redirects :=
      match next with
      | .feature => s.redirects
      | .interfaceOutput =>
        ⟨p.entry, p.captured, p.buffer.sonicExt.origRxSwIfIndex⟩ :: s.redirects }

section Pool

variable {Th : Type} (throttleCheck : Th → BitVec 64 → Bool × Th)

/-- One step of a run. -/
def poolStep (s : PoolState Th) : PoolAction Th → PoolState Th
  | .enter i fresh e =>
    if (s.bufs i).inUse then s
    else { s with bufs := Function.update s.bufs i ((s.bufs i).enter fresh e) }
  | .aggrTapRedirect i =>
    if (s.bufs i).inUse then
      let out := sonicExtAggrTapRedirectNode s.main.puntViaMember s.main.ingress (s.bufs i).buffer
      s.visited i out.1 out.2.1
    else s
  | .gleanRedirect i =>
    if (s.bufs i).inUse then
      let (out, th) := sonicExtGleanRedirectNode throttleCheck s.main (s.bufs i).buffer
      { s.visited i out.1 out.2.1 with main := { s.main with throttle := th } }
    else s
  | .otherNode i f =>
    let p := s.bufs i
    if p.inUse then
      { s with bufs := Function.update s.bufs i { p with buffer := keepCookie f p.buffer } }
    else s
  | .leave i => { s with bufs := Function.update s.bufs i { (s.bufs i) with inUse := false } }
  | .setMain main => { s with main := main }

end Pool

/-- Buffers before their first use: free, with a zero cookie. -/
def PoolState.init {Th : Type} (main : PuntMain Th) (bufs : ℕ → PuntBuffer) : PoolState Th where
  main := main
  bufs i := ⟨{ bufs i with sonicExt := ⟨0, 0, ⟨0, 0⟩⟩ }, false, .generated, false⟩
  redirects := []

/-! ## Runs without stale entries -/

/-- A packet that is not captured does not get a free buffer with a live cookie. -/
def NoStaleEntry {Th : Type} (s : PoolState Th) : PoolAction Th → Prop
  | .enter _ _ (.captured _) => True
  | .enter i _ _ => (s.bufs i).inUse = false → ¬ (s.bufs i).buffer.Stamped
  | _ => True

/-- A live cookie in use is the stamp of the packet that is in the buffer. -/
def PoolBuffer.StampOwn (p : PoolBuffer) : Prop :=
  p.inUse = true → p.buffer.Stamped →
    p.captured = true ∧ p.entry.receivedOn = some p.buffer.sonicExt.origRxSwIfIndex

/-- Every stamp in use is the packet's own, and so was every stamp used. -/
structure StampsOwn {Th : Type} (s : PoolState Th) : Prop where
  bufs : ∀ i, (s.bufs i).StampOwn
  redirects : ∀ r ∈ s.redirects, r.Genuine

section Runs

variable {Th : Type} (throttleCheck : Th → BitVec 64 → Bool × Th) {s : PoolState Th}

/-- Changing one buffer for one whose stamp is its own. -/
theorem stampOwn_update (h : ∀ i, (s.bufs i).StampOwn) {i : ℕ} {p : PoolBuffer}
    (hp : p.StampOwn) : ∀ j, (Function.update s.bufs i p j).StampOwn := by
  intro j
  by_cases hj : j = i
  · rw [hj, Function.update_self]
    exact hp
  · rw [Function.update_of_ne hj]
    exact h j

theorem stampOwn_enter {p : PoolBuffer} (fresh : PuntBuffer) (e : PacketEntry)
    (hp : (∃ rx, e = .captured rx) ∨ ¬ p.buffer.Stamped) : (p.enter fresh e).StampOwn := by
  intro _ hs
  cases e with
  | captured rx => exact ⟨rfl, rfl⟩
  | uncaptured rx =>
    rcases hp with ⟨rx, h⟩ | h
    · cases h
    · exact absurd hs h
  | generated =>
    rcases hp with ⟨rx, h⟩ | h
    · cases h
    · exact absurd hs h

/-- A visit that redirects nothing and leaves no new live cookie. -/
theorem StampsOwn.pass (h : StampsOwn s) (i : ℕ) {b : PuntBuffer}
    (hb : b = (s.bufs i).buffer ∨ ¬ b.Stamped) : StampsOwn (s.visited i b .feature) := by
  refine ⟨stampOwn_update h.bufs fun hu hs => ?_, h.redirects⟩
  rcases hb with rfl | hb
  · exact h.bufs i hu hs
  · exact absurd hs hb

/-- A visit that redirects a packet in use and consumes the cookie. -/
theorem StampsOwn.redirect (h : StampsOwn s) {i : ℕ} {b : PuntBuffer}
    (hu : (s.bufs i).inUse = true) (hs : (s.bufs i).buffer.Stamped) (hb : ¬ b.Stamped) :
    StampsOwn (s.visited i b .interfaceOutput) := by
  refine ⟨stampOwn_update h.bufs fun _ hs' => absurd hs' hb, ?_⟩
  intro r hr
  rcases List.mem_cons.1 hr with rfl | hr
  · exact h.bufs i hu hs
  · exact h.redirects r hr

/-- Every step without a stale entry keeps the stamps the packets' own. -/
theorem stampsOwn_step (h : StampsOwn s) {a : PoolAction Th} (ha : NoStaleEntry s a) :
    StampsOwn (poolStep throttleCheck s a) := by
  cases a with
  | enter i fresh e =>
    simp only [poolStep]
    cases hu : (s.bufs i).inUse with
    | true => exact h
    | false =>
      -- a buffer that enters has a new stamp, or none: that is `ha`
      refine ⟨stampOwn_update h.bufs (stampOwn_enter fresh e ?_), h.redirects⟩
      cases e with
      | captured rx => exact Or.inl ⟨rx, rfl⟩
      | uncaptured rx => exact Or.inr (ha hu)
      | generated => exact Or.inr (ha hu)
  | aggrTapRedirect i =>
    simp only [poolStep]
    cases hu : (s.bufs i).inUse with
    | false => exact h
    | true =>
      -- a redirect needs a stamp, and by `h` it is the packet's own
      rcases aggrTapRedirect_cases s.main.puntViaMember s.main.ingress (s.bufs i).buffer with
        ⟨hnext, hb⟩ | ⟨hnext, hs, hb, -⟩
      · rw [hnext]
        exact h.pass i hb
      · rw [hnext]
        exact h.redirect hu hs hb
  | gleanRedirect i =>
    simp only [poolStep]
    cases hu : (s.bufs i).inUse with
    | false => exact h
    | true =>
      rcases gleanRedirect_cases throttleCheck s.main (s.bufs i).buffer with
        ⟨hnext, hb⟩ | ⟨hnext, hs, hb, -⟩
      · have hpass := h.pass i (Or.inl hb)
        rw [hnext]
        exact ⟨hpass.bufs, hpass.redirects⟩
      · have hredirect := h.redirect hu hs hb
        rw [hnext]
        exact ⟨hredirect.bufs, hredirect.redirects⟩
  | otherNode i f =>
    simp only [poolStep]
    cases hu : (s.bufs i).inUse with
    | false => exact h
    | true => exact ⟨stampOwn_update h.bufs fun _ hs => h.bufs i hu hs, h.redirects⟩
  | leave i =>
    refine ⟨stampOwn_update h.bufs fun hu => ?_, h.redirects⟩
    cases hu
  | setMain main => exact ⟨h.bufs, h.redirects⟩

/-- **No redirect on a stale stamp**, in every run in which no packet that is not
captured gets a buffer with a live cookie. -/
theorem noStaleStamp_run (main : PuntMain Th) (bufs : ℕ → PuntBuffer)
    {as : List (PoolAction Th)}
    (has : Allowed (poolStep throttleCheck) NoStaleEntry (PoolState.init main bufs) as) :
    ∀ r ∈ (run (poolStep throttleCheck) (PoolState.init main bufs) as).redirects, r.Genuine := by
  refine (run_invariant (poolStep throttleCheck) NoStaleEntry StampsOwn ?_ ?_ has).redirects
  · intro s a h ha
    exact stampsOwn_step throttleCheck h ha
  · refine ⟨?_, ?_⟩
    · intro i hu
      cases hu
    · intro r hr
      cases hr

/-- The condition is needed: a packet that got a buffer with a live cookie without being
captured is redirected by the next aggregate tap node, unless it is leaving by the tap of
the stamped port anyway. -/
theorem staleEntry_redirected {i : ℕ} {fresh : PuntBuffer} {e : PacketEntry} {tap : BitVec 32}
    (hfree : (s.bufs i).inUse = false) (hs : (s.bufs i).buffer.Stamped)
    (he : ∀ rx, e ≠ .captured rx) (hpunt : s.main.puntViaMember = true)
    (htap : s.main.ingress.ingressTap (s.bufs i).buffer.sonicExt.origRxSwIfIndex = some tap)
    (hne : tap ≠ fresh.swIfIndexTx) :
    ∃ r ∈ (run (poolStep throttleCheck) s [.enter i fresh e, .aggrTapRedirect i]).redirects,
      ¬ r.Genuine := by
  have hbuf : ((s.bufs i).enter fresh e).buffer.sonicExt = (s.bufs i).buffer.sonicExt ∧
      ((s.bufs i).enter fresh e).buffer.swIfIndexTx = fresh.swIfIndexTx ∧
      ((s.bufs i).enter fresh e).inUse = true ∧ ((s.bufs i).enter fresh e).captured = false := by
    cases e with
    | captured rx => exact absurd rfl (he rx)
    | uncaptured rx => exact ⟨rfl, rfl, rfl, rfl⟩
    | generated => exact ⟨rfl, rfl, rfl, rfl⟩
  obtain ⟨hcookie, htx, hin, hcap⟩ := hbuf
  have hnext : (sonicExtAggrTapRedirectNode true s.main.ingress
      ((s.bufs i).enter fresh e).buffer).2.1 = .interfaceOutput := by
    apply aggrTapRedirect_redirects
    · rw [Buffer.Stamped, hcookie]
      exact hs
    · rw [hcookie]
      exact htap
    · rw [htx]
      exact hne
  refine ⟨⟨((s.bufs i).enter fresh e).entry, false, (s.bufs i).buffer.sonicExt.origRxSwIfIndex⟩,
    ?_, fun h => Bool.false_ne_true h.1⟩
  simp only [run, List.foldl_cons, List.foldl_nil, poolStep, hfree, Bool.false_eq_true, if_false,
    Function.update_self, hin, if_true, hpunt, hnext, PoolState.visited, hcap, hcookie,
    List.mem_cons, true_or]

end Runs

/-- Punting enabled over port 1 with tap 101, without a throttle. -/
def onePortMain : PuntMain Unit where
  puntViaMember := true
  ingress := onePort
  glean := ⟨[], fun _ => none⟩
  throttle := ()

/-- A packet bound for tap 200, received at the start of its buffer. -/
def tapBuffer : PuntBuffer where
  toBuffer := { portBuffer 0 [] ⟨0, 0, ⟨0, 0⟩⟩ with swIfIndexTx := 200 }
  adjIndexTx := 0
  errorNode := 0

/-- A captured packet is redirected, and its buffer is used again by one that VPP
generates. -/
def consumedRun : List (PoolAction Unit) :=
  [.enter 0 tapBuffer (.captured 1), .aggrTapRedirect 0, .leave 0, .enter 0 tapBuffer .generated,
    .aggrTapRedirect 0]

theorem noStaleStamp_consumed :
    let s := run (poolStep fun th _ => (false, th)) (PoolState.init onePortMain fun _ => tapBuffer)
      consumedRun
    s.redirects = [⟨.captured 1, true, 1⟩] ∧ ∀ r ∈ s.redirects, r.Genuine :=
  ⟨by decide, noStaleStamp_run (fun th _ => (false, th)) onePortMain (fun _ => tapBuffer)
    ⟨trivial, trivial, trivial, fun _ => by decide, trivial, trivial⟩⟩

/-- A packet captured on port 1 is forwarded; its buffer is used again by a packet that
is received on interface 7, without capture, and bound for tap 200.  It is redirected to
the tap of port 1. -/
theorem forwarded_stamp_used :
    let s := run (poolStep fun th _ => (false, th)) (PoolState.init onePortMain fun _ => tapBuffer)
      [.enter 0 tapBuffer (.captured 1), .leave 0, .enter 0 tapBuffer (.uncaptured 7),
        .aggrTapRedirect 0]
    s.redirects = [⟨.uncaptured 7, false, 1⟩] ∧ (s.bufs 0).buffer.swIfIndexTx = 101 ∧
      ¬ ∀ r ∈ s.redirects, r.Genuine := by
  decide

end SonicExt
