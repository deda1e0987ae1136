/-
# Nodes that pass one packet at a time

A node takes the packets of a frame one after the other.  Each of them may be changed, gets a next
node and is counted; the counts are added to the counters of the node when the packets are
enqueued.  To judge a packet may go wrong, and there is room for the next nodes of one frame:
`none` is an access that goes wrong.
-/
import SonicVpp.FrameNode

namespace PacketNode

open FrameNode (frameSize incrementCounters)

/-- What a node does with a packet: the packet as it is sent on, its next node, what it counts
for, and what a trace of it records. -/
structure Verdict (α ε τ : Type) where
  packet : α
  next : BitVec 16
  error : ε
  record : τ

/-- What has been done with the packets so far. -/
structure Done (α ε τ : Type) where
  sent : List (α × BitVec 16)
  counts : ε → BitVec 32
  traces : List τ

section Loop

variable {α ε τ : Type} [DecidableEq ε] (judge : α → Option (Verdict α ε τ)) (traced : α → Bool)

/-- `while (n_left_from > 0)`. -/
def loop : List α → Done α ε τ → Option (Done α ε τ)
  | [], d => some d
  | b :: bufs, d => do
    let v ← judge b
    if d.sent.length < frameSize then
      loop bufs
        { sent := d.sent ++ [(v.packet, v.next)]
          counts := Function.update d.counts v.error (d.counts v.error + 1)
          traces := d.traces ++ if traced b then [v.record] else [] }
    else none

/-- A frame. -/
def frame (bufs : List α) : Option (Done α ε τ) := loop judge traced bufs ⟨[], fun _ => 0, []⟩

variable {judge traced}

/-- Every packet is judged as if it were alone. -/
theorem loop_eq {verdict : α → Verdict α ε τ} (bufs : List α) :
    ∀ {d : Done α ε τ}, (∀ b ∈ bufs, judge b = some (verdict b)) →
      d.sent.length + bufs.length ≤ frameSize →
      loop judge traced bufs d = some
        { sent := d.sent ++ bufs.map fun b => ((verdict b).packet, (verdict b).next)
          counts := fun e =>
            d.counts e + BitVec.ofNat 32 (bufs.countP fun b => (verdict b).error = e)
          traces := d.traces ++
            (bufs.filter traced).map fun b => (verdict b).record } := by
  induction bufs with
  | nil =>
    intro d _ _
    simp [loop]
  | cons b bufs ih =>
    intro d hjudge hlen
    obtain ⟨hb, hbufs⟩ := List.forall_mem_cons.1 hjudge
    rw [List.length_cons] at hlen
    rw [loop, hb]
    show (if d.sent.length < frameSize then _ else none) = _
    rw [if_pos (by omega), ih hbufs]
    · congr 2
      · simp
      · -- the verdict counts for one error
        funext e
        by_cases he : (verdict b).error = e
        · subst he
          simp only [Function.update_self, List.countP_cons, decide_true, if_true,
            BitVec.ofNat_add]
          rw [BitVec.add_assoc, BitVec.add_comm 1 _]
          rfl
        · have hne : e ≠ (verdict b).error := Ne.symm he
          simp [he, hne]
      · cases htraced : traced b with
        | true => simp [htraced]
        | false => simp [htraced]
    · simp only [List.length_append, List.length_cons, List.length_nil]
      omega

/-- **One frame.**  No access goes wrong, and every packet is sent on as if it were alone. -/
theorem frame_eq {verdict : α → Verdict α ε τ} {bufs : List α}
    (hjudge : ∀ b ∈ bufs, judge b = some (verdict b)) (hlen : bufs.length ≤ frameSize) :
    frame judge traced bufs = some
      { sent := bufs.map fun b => ((verdict b).packet, (verdict b).next)
        counts := fun e => BitVec.ofNat 32 (bufs.countP fun b => (verdict b).error = e)
        traces := (bufs.filter traced).map fun b => (verdict b).record } := by
  unfold frame
  rw [loop_eq bufs hjudge (by simpa using hlen)]
  simp

/-- A count of a frame does not overflow. -/
theorem setWidth_ofNat_frame {n : ℕ} (hn : n ≤ frameSize) :
    (BitVec.ofNat 32 n).setWidth 64 = BitVec.ofNat 64 n := by
  unfold frameSize at hn
  apply BitVec.eq_of_toNat_eq
  rw [BitVec.toNat_setWidth, BitVec.toNat_ofNat, BitVec.toNat_ofNat,
    Nat.mod_eq_of_lt (by omega : n < 2 ^ 32)]

/-- A counter gets what was counted. -/
theorem incrementCounters_frame {errors : List ε} (hnodup : errors.Nodup) {counts : ε → ℕ}
    (hcounts : ∀ e, counts e ≤ frameSize) {counters : ε → BitVec 64} {e : ε} (he : e ∈ errors) :
    incrementCounters errors (fun e => BitVec.ofNat 32 (counts e)) counters e =
      counters e + BitVec.ofNat 64 (counts e) := by
  rw [FrameNode.incrementCounters_apply hnodup, if_pos he, setWidth_ofNat_frame (hcounts e)]

end Loop

end PacketNode
