/-
# One capture, at most one redirect

The copies of a packet (the buffer itself and the clones made of it, which copy the
cookie) visit the capture node and the two redirect nodes in any order.  Between the
visits other nodes work on the buffer without writing the cookie, `punt_via_member` is
toggled, and the tables of VPP and of the LCP plugin change.

Every copy keeps the history of its captures and redirects, the history of its original
included.  `redirect_once` says that in every run no history has two redirects without
a capture between them, that every redirect goes to the tap which is then paired with
the captured interface, and that an aggregate tap node never sends a packet back to the
tap it was leaving by.  So a packet that re-enters `interface-output` leaves it again.
-/
import SonicVpp.RedirectNodes
import SonicVpp.RunInvariant

open RunInvariant

namespace SonicExt

/-! ## Histories -/

/-- The two redirect nodes. -/
inductive RedirectNode
  | aggrTap
  | glean
  deriving DecidableEq, Repr

/-- What a history records: a capture with the interface it stamped, or a redirect with
the tables of that moment, the interface the packet was bound for, and its target. -/
inductive Visit
  | captured (rx : BitVec 32)
  | redirected (node : RedirectNode) (main : IngressMain) (leaving target : BitVec 32)

/-- The visit is a redirect. -/
def Visit.isRedirect : Visit → Bool
  | .captured _ => false
  | .redirected .. => true

/-- The visits since the last capture, of a history with the newest visit first. -/
def sinceCapture : List Visit → List Visit
  | [] => []
  | .captured _ :: _ => []
  | v :: h => v :: sinceCapture h

/-- The interface of the last capture, or `stamp` if there is none. -/
def lastCaptured (stamp : BitVec 32) : List Visit → BitVec 32
  | [] => stamp
  | .captured rx :: _ => rx
  | .redirected .. :: h => lastCaptured stamp h

/-- Every redirect of the history is the first since its capture, goes to the tap paired
at that moment with the captured interface, and, at an aggregate tap, not to the tap the
packet was leaving by. -/
def HistoryOk (stamp : BitVec 32) : List Visit → Prop
  | [] => True
  | .captured _ :: h => HistoryOk stamp h
  | .redirected node main leaving target :: h =>
    (∀ v ∈ sinceCapture h, v.isRedirect = false) ∧
    main.ingressTap (lastCaptured stamp h) = some target ∧
    (node = .aggrTap → target ≠ leaving) ∧
    HistoryOk stamp h

/-! ## The system -/

/-- One copy of the packet, with the interface its cookie named at the start. -/
structure PacketCopy where
  buffer : PuntBuffer
  stamp : BitVec 32
  history : List Visit

/-- The copies of the packet and what the nodes read besides. -/
structure PuntState (Th : Type) where
  main : PuntMain Th
  copies : List PacketCopy

/-- The steps of a run; `k` is the number of a copy. -/
inductive PuntAction (Th : Type)
  | capture (k : ℕ)
  | aggrTapRedirect (k : ℕ)
  | gleanRedirect (k : ℕ)
  | otherNode (k : ℕ) (f : PuntBuffer → PuntBuffer)
  | clone (k : ℕ)
  | setPuntViaMember (on : Bool)
  | setIngress (main : IngressMain)
  | setGlean (glean : GleanMain)
  | setThrottle (th : Th)

/-- The history after a visit of a redirect node. -/
def recordRedirect (node : RedirectNode) (main : IngressMain) (before after : PuntBuffer)
    (next : PuntNext) (h : List Visit) : List Visit :=
  match next with
  | .feature => h
  | .interfaceOutput => .redirected node main before.swIfIndexTx after.swIfIndexTx :: h

section System

variable {Th : Type} (throttleCheck : Th → BitVec 64 → Bool × Th)

/-- A copy after the capture node. -/
def PacketCopy.capture (c : PacketCopy) : PacketCopy :=
  { c with buffer := { c.buffer with toBuffer := sonicExtCaptureNode c.buffer.toBuffer }
           history := .captured c.buffer.swIfIndexRx :: c.history }

/-- A copy after the aggregate tap node. -/
def PacketCopy.aggrTapRedirect (m : PuntMain Th) (c : PacketCopy) : PacketCopy :=
  let out := sonicExtAggrTapRedirectNode m.puntViaMember m.ingress c.buffer
  { c with buffer := out.1
           history := recordRedirect .aggrTap m.ingress c.buffer out.1 out.2.1 c.history }

/-- A copy after the glean node. -/
def PacketCopy.gleanRedirect (m : PuntMain Th) (c : PacketCopy) : PacketCopy :=
  let out := (sonicExtGleanRedirectNode throttleCheck m c.buffer).1
  { c with buffer := out.1
           history := recordRedirect .glean m.ingress c.buffer out.1 out.2.1 c.history }

/-- One step of a run. -/
def puntStep (s : PuntState Th) : PuntAction Th → PuntState Th
  | .capture k => { s with copies := s.copies.modify k PacketCopy.capture }
  | .aggrTapRedirect k =>
    { s with copies := s.copies.modify k (PacketCopy.aggrTapRedirect s.main) }
  | .gleanRedirect k =>
    { s with
      main := { s.main with
        throttle := s.copies[k]?.elim s.main.throttle fun c =>
          (sonicExtGleanRedirectNode throttleCheck s.main c.buffer).2 }
      copies := s.copies.modify k (PacketCopy.gleanRedirect throttleCheck s.main) }
  | .otherNode k f =>
    { s with copies := s.copies.modify k fun c => { c with buffer := keepCookie f c.buffer } }
  | .clone k => { s with copies := s.copies ++ s.copies[k]?.toList }
  | .setPuntViaMember on => { s with main := { s.main with puntViaMember := on } }
  | .setIngress main => { s with main := { s.main with ingress := main } }
  | .setGlean glean => { s with main := { s.main with glean := glean } }
  | .setThrottle th => { s with main := { s.main with throttle := th } }

end System

/-- The packets at the start, with empty histories and whatever cookies they carry. -/
def PuntState.start {Th : Type} (main : PuntMain Th) (bs : List PuntBuffer) : PuntState Th where
  main := main
  copies := bs.map fun b => ⟨b, b.sonicExt.origRxSwIfIndex, []⟩

/-! ## The invariant of a copy -/

/-- The history is fine, and a live cookie is one that no redirect has used since the
capture it comes from. -/
structure PacketCopy.Ok (c : PacketCopy) : Prop where
  history : HistoryOk c.stamp c.history
  fresh : c.buffer.Stamped → ∀ v ∈ sinceCapture c.history, v.isRedirect = false
  origRx : c.buffer.Stamped →
    c.buffer.sonicExt.origRxSwIfIndex = lastCaptured c.stamp c.history

theorem PacketCopy.Ok.capture {c : PacketCopy} (h : c.Ok) : c.capture.Ok where
  history := h.history
  fresh := fun _ v hv => by simp [PacketCopy.capture, sinceCapture] at hv
  origRx := fun _ => rfl

/-- A visit that redirects nothing and leaves no new live cookie. -/
theorem PacketCopy.Ok.pass {c : PacketCopy} (h : c.Ok) {b : PuntBuffer}
    (hb : b.sonicExt = c.buffer.sonicExt ∨ ¬ b.Stamped) : ({ c with buffer := b }).Ok := by
  refine ⟨h.history, ?_, ?_⟩
  · intro hs
    rcases hb with hb | hb
    · exact h.fresh (by simpa only [Buffer.Stamped, hb] using hs)
    · exact absurd hs hb
  · intro hs
    rcases hb with hb | hb
    · show b.sonicExt.origRxSwIfIndex = _
      rw [hb]
      exact h.origRx (by simpa only [Buffer.Stamped, hb] using hs)
    · exact absurd hs hb

/-- A visit that redirects a stamped buffer and consumes the cookie. -/
theorem PacketCopy.Ok.redirect {c : PacketCopy} (h : c.Ok) {b : PuntBuffer} {main : IngressMain}
    {node : RedirectNode} (hs : c.buffer.Stamped) (hb : ¬ b.Stamped)
    (htap : main.ingressTap c.buffer.sonicExt.origRxSwIfIndex = some b.swIfIndexTx)
    (hne : node = .aggrTap → b.swIfIndexTx ≠ c.buffer.swIfIndexTx) :
    ({ c with buffer := b, history :=
        .redirected node main c.buffer.swIfIndexTx b.swIfIndexTx :: c.history }).Ok where
  history := ⟨h.fresh hs, by rw [← h.origRx hs]; exact htap, hne, h.history⟩
  fresh := fun hs' => absurd hs' hb
  origRx := fun hs' => absurd hs' hb

section Steps

variable {Th : Type} (throttleCheck : Th → BitVec 64 → Bool × Th)

theorem PacketCopy.Ok.aggrTapRedirect {c : PacketCopy} (h : c.Ok) (m : PuntMain Th) :
    (c.aggrTapRedirect m).Ok := by
  unfold PacketCopy.aggrTapRedirect
  rcases aggrTapRedirect_cases m.puntViaMember m.ingress c.buffer with
    ⟨hnext, hb⟩ | ⟨hnext, hs, hb, htap, hne⟩
  · simp only [hnext, recordRedirect]
    exact h.pass (hb.imp_left fun hb => by rw [hb])
  · simp only [hnext, recordRedirect]
    exact h.redirect hs hb htap fun _ => hne

theorem PacketCopy.Ok.gleanRedirect {c : PacketCopy} (h : c.Ok) (m : PuntMain Th) :
    (c.gleanRedirect throttleCheck m).Ok := by
  unfold PacketCopy.gleanRedirect
  rcases gleanRedirect_cases throttleCheck m c.buffer with
    ⟨hnext, hb⟩ | ⟨hnext, hs, hb, htap⟩
  · simp only [hnext, recordRedirect]
    exact h.pass (Or.inl (by rw [hb]))
  · simp only [hnext, recordRedirect]
    exact h.redirect hs hb htap fun hnode => nomatch hnode

/-- What holds of every copy, and survives a change of one copy, holds after the change. -/
theorem forall_mem_modify {α : Type} {P : α → Prop} {f : α → α} {l : List α} (k : ℕ)
    (hl : ∀ a ∈ l, P a) (hf : ∀ a, P a → P (f a)) : ∀ a ∈ l.modify k f, P a := by
  intro a ha
  obtain ⟨i, hi⟩ := List.mem_iff_getElem?.1 ha
  rw [List.getElem?_modify] at hi
  obtain ⟨b, hb, rfl⟩ := Option.map_eq_some_iff.1 hi
  have hPb := hl b (List.mem_of_getElem? hb)
  by_cases hk : k = i
  · rw [if_pos hk]
    exact hf b hPb
  · rw [if_neg hk]
    exact hPb

/-- Every step keeps every copy's invariant. -/
theorem puntStep_ok (s : PuntState Th) (a : PuntAction Th) (h : ∀ c ∈ s.copies, c.Ok) :
    ∀ c ∈ (puntStep throttleCheck s a).copies, c.Ok := by
  cases a with
  | capture k => exact forall_mem_modify k h fun c hc => hc.capture
  | aggrTapRedirect k => exact forall_mem_modify k h fun c hc => hc.aggrTapRedirect s.main
  | gleanRedirect k =>
    exact forall_mem_modify k h fun c hc => hc.gleanRedirect throttleCheck s.main
  | otherNode k f => exact forall_mem_modify k h fun c hc => hc.pass (Or.inl rfl)
  | clone k =>
    intro c hc
    rcases List.mem_append.1 hc with hc | hc
    · exact h c hc
    · -- a clone has the cookie and the history of its original
      exact h c (List.mem_of_getElem? (Option.mem_toList.1 hc))
  | setPuntViaMember on => exact h
  | setIngress main => exact h
  | setGlean glean => exact h
  | setThrottle th => exact h

/-- Every copy is fine in every run. -/
theorem punt_run_ok (main : PuntMain Th) (bs : List PuntBuffer) (as : List (PuntAction Th)) :
    ∀ c ∈ (run (puntStep throttleCheck) (PuntState.start main bs) as).copies, c.Ok := by
  refine run_invariant (puntStep throttleCheck) (fun _ _ => True)
    (fun s => ∀ c ∈ s.copies, c.Ok) ?_ ?_
    (allowed_of_forall (puntStep throttleCheck) fun _ _ => trivial)
  · intro s a h _
    exact puntStep_ok throttleCheck s a h
  · intro c hc
    obtain ⟨b, -, rfl⟩ := List.mem_map.1 hc
    exact ⟨trivial, fun _ v hv => by simp [sinceCapture] at hv, fun _ => rfl⟩

end Steps

/-! ## Re-entering `interface-output` -/

/-- The walk of a packet through `interface-output`: on the way other nodes of the arc
work on it, and where the interface it is bound for has the aggregate tap node enabled
that node is visited, which may send it through `interface-output` again.  The tables,
the enabled interfaces and the other nodes may differ from visit to visit; `none` if the
visits allowed are used up. -/
def interfaceOutput {Th : Type} (env : ℕ → PuntMain Th) (enabled : ℕ → BitVec 32 → Bool)
    (other : ℕ → PuntBuffer → PuntBuffer) : ℕ → ℕ → PuntBuffer → Option PuntBuffer
  | 0, _, _ => none
  | visits + 1, n, b =>
    let b := keepCookie (other n) b
    if !enabled n b.swIfIndexTx then some b
    else
      let out := sonicExtAggrTapRedirectNode (env n).puntViaMember (env n).ingress b
      match out.2.1 with
      | .feature => some out.1
      | .interfaceOutput => interfaceOutput env enabled other visits (n + 1) out.1

section Walk

variable {Th : Type} (env : ℕ → PuntMain Th) (enabled : ℕ → BitVec 32 → Bool)
  (other : ℕ → PuntBuffer → PuntBuffer)

/-- Without a live cookie the packet leaves at once. -/
theorem interfaceOutput_unstamped {b : PuntBuffer} (hb : ¬ b.Stamped) (visits n : ℕ) :
    (interfaceOutput env enabled other (visits + 1) n b).isSome = true := by
  have hkeep : ¬ (keepCookie (other n) b).Stamped := hb
  simp only [interfaceOutput]
  cases enabled n (keepCookie (other n) b).swIfIndexTx with
  | false => rfl
  | true =>
    rcases aggrTapRedirect_cases (env n).puntViaMember (env n).ingress
      (keepCookie (other n) b) with ⟨hnext, -⟩ | ⟨-, hs, -⟩
    · simp only [hnext, Bool.not_true, Bool.false_eq_true, if_false]
      rfl
    · exact absurd hs hkeep

/-- Every packet leaves after at most one redirect. -/
theorem interfaceOutput_ends (b : PuntBuffer) (visits n : ℕ) :
    (interfaceOutput env enabled other (visits + 2) n b).isSome = true := by
  rw [interfaceOutput]
  cases enabled n (keepCookie (other n) b).swIfIndexTx with
  | false => rfl
  | true =>
    rcases aggrTapRedirect_cases (env n).puntViaMember (env n).ingress
      (keepCookie (other n) b) with ⟨hnext, -⟩ | ⟨hnext, -, hb, -⟩
    · simp only [hnext, Bool.not_true, Bool.false_eq_true, if_false]
      rfl
    · simp only [hnext, Bool.not_true, Bool.false_eq_true, if_false]
      exact interfaceOutput_unstamped env enabled other hb visits (n + 1)

end Walk

/-- **One capture, at most one redirect.**  In every run of the nodes over the copies of
a packet all histories are fine, and a packet that enters `interface-output` leaves it
after at most two visits, whichever interfaces have the aggregate tap node enabled. -/
theorem redirect_once {Th : Type} (throttleCheck : Th → BitVec 64 → Bool × Th)
    (main : PuntMain Th) (bs : List PuntBuffer) (as : List (PuntAction Th)) :
    (∀ c ∈ (run (puntStep throttleCheck) (PuntState.start main bs) as).copies,
      HistoryOk c.stamp c.history) ∧
    ∀ (env : ℕ → PuntMain Th) (enabled : ℕ → BitVec 32 → Bool)
      (other : ℕ → PuntBuffer → PuntBuffer) (b : PuntBuffer) (visits : ℕ),
      (interfaceOutput env enabled other (visits + 2) 0 b).isSome = true := by
  constructor
  · intro c hc
    exact (punt_run_ok throttleCheck main bs as c hc).history
  · intro env enabled other b visits
    exact interfaceOutput_ends env enabled other b visits 0

end SonicExt
