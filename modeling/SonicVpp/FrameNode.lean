/-
# Nodes that judge every packet of a frame

A node gives every packet of a frame a next node and an error: four packets at a time as long as
there are four, and then one at a time.  It counts the errors while it does so, and adds what it
has counted to its counters when the packets are enqueued.  The buffers and the results are in
arrays of which only the first entries are filled; every access is checked, prefetches included,
and `none` is an access that goes wrong.

What comes out is what is said of each packet alone (`frame_eq`); and a run over many frames
counts every packet once, however they are cut into frames (`run_eq`).
-/
import Mathlib

namespace FrameNode

/-- `VLIB_FRAME_SIZE`. -/
def frameSize : ℕ := 256

/-- What has been done with the packets so far: their next nodes, how often each error came, and
the traces. -/
structure Done (ε τ : Type) where
  nexts : List (BitVec 16)
  counts : ε → BitVec 32
  traces : List τ

section Loops

variable {α ε τ : Type} [DecidableEq ε]

/-- Nothing has been done. -/
def Done.none : Done ε τ := ⟨[], fun _ => 0, []⟩

variable (x1 : α → ε × BitVec 16) (trace : α → BitVec 16 → List τ)

/-- `error_counts[x1 (b[0], &next[0])]++`. -/
def judge (d : Done ε τ) (b : α) : Option (Done ε τ) :=
  if d.nexts.length < frameSize then
    let e := (x1 b).1
    some { d with
      nexts := d.nexts ++ [(x1 b).2]
      counts := Function.update d.counts e (d.counts e + 1) }
  else none

/-- The trace of a packet whose next node is known. -/
def traceOne (d : Done ε τ) (i : ℕ) (b : α) : Option (Done ε τ) := do
  let next ← d.nexts[i]?
  some { d with traces := d.traces ++ trace b next }

/-- The packets that are prefetched while there are twelve. -/
def prefetch (bufs : List α) (left i : ℕ) : Option Unit :=
  if 12 ≤ left then do
    let _ ← [8, 9, 10, 11].mapM fun k => bufs[i + k]?
    let _ ← [4, 5, 6, 7].mapM fun k => bufs[i + k]?
    some ()
  else some ()

/-- `while (n_left_from >= 4)`: what is left, and how far the pointers have come. -/
def quadLoop (bufs : List α) : ℕ → ℕ → Done ε τ → Option (ℕ × ℕ × Done ε τ)
  | left + 4, i, d => do
    prefetch bufs (left + 4) i
    let b0 ← bufs[i]?
    let b1 ← bufs[i + 1]?
    let b2 ← bufs[i + 2]?
    let b3 ← bufs[i + 3]?
    let d ← [b0, b1, b2, b3].foldlM (judge x1) d
    let d ← traceOne trace d i b0
    let d ← traceOne trace d (i + 1) b1
    let d ← traceOne trace d (i + 2) b2
    let d ← traceOne trace d (i + 3) b3
    quadLoop bufs left (i + 4) d
  | left, i, d => some (left, i, d)

/-- `while (n_left_from)`. -/
def singleLoop (bufs : List α) : ℕ → ℕ → Done ε τ → Option (Done ε τ)
  | 0, _, d => some d
  | left + 1, i, d => do
    let b0 ← bufs[i]?
    let d ← judge x1 d b0
    let d ← traceOne trace d i b0
    singleLoop bufs left (i + 1) d

/-- The loops over a frame.  The first one is there if the machine prefetches enough. -/
def frameLoops (prefetches : Bool) (bufs : List α) : Option (Done ε τ) :=
  if prefetches then do
    let (left, i, d) ← quadLoop x1 trace bufs bufs.length 0 Done.none
    singleLoop x1 trace bufs left i d
  else singleLoop x1 trace bufs bufs.length 0 Done.none

/-! ## One frame -/

/-- What is to be done with packets. -/
def doneWith (bufs : List α) : Done ε τ where
  nexts := bufs.map fun b => (x1 b).2
  counts := fun e => BitVec.ofNat 32 (bufs.countP fun b => (x1 b).1 = e)
  traces := bufs.flatMap fun b => trace b (x1 b).2

variable {x1 trace}

theorem judge_doneWith {bufs : List α} (hlen : bufs.length < frameSize) (traces : List τ) (b : α) :
    judge x1 { doneWith x1 trace bufs with traces := traces } b =
      some { doneWith x1 trace (bufs ++ [b]) with traces := traces } := by
  have hroom : (doneWith x1 trace bufs).nexts.length < frameSize := by
    rwa [doneWith, List.length_map]
  unfold judge
  dsimp only
  rw [if_pos hroom]
  congr 2
  · unfold doneWith
    simp
  · unfold doneWith
    funext e
    by_cases he : (x1 b).1 = e
    · subst he
      simp [List.countP_append, BitVec.ofNat_add]
    · have hne : e ≠ (x1 b).1 := Ne.symm he
      simp [List.countP_append, he, hne]

theorem traceOne_doneWith {bufs : List α} {i : ℕ} {b : α} (hb : bufs[i]? = some b)
    (traces : List τ) :
    traceOne trace { doneWith x1 trace bufs with traces := traces } i b =
      some { doneWith x1 trace bufs with traces := traces ++ trace b (x1 b).2 } := by
  unfold traceOne doneWith
  dsimp only
  rw [List.getElem?_map, hb]
  rfl

/-- Some packets are judged, and traced later. -/
theorem judges_doneWith (bs : List α) : ∀ {bufs : List α}, (bufs ++ bs).length ≤ frameSize →
    ∀ traces : List τ,
      bs.foldlM (judge x1) { doneWith x1 trace bufs with traces := traces } =
        some { doneWith x1 trace (bufs ++ bs) with traces := traces } := by
  induction bs with
  | nil =>
    intro bufs _ traces
    rw [List.append_nil]
    rfl
  | cons b bs ih =>
    intro bufs hlen traces
    have hroom : bufs.length < frameSize := by
      simp only [List.length_append, List.length_cons] at hlen
      omega
    rw [List.foldlM_cons, judge_doneWith hroom]
    show bs.foldlM (judge x1) _ = _
    rw [ih (by simpa using hlen), List.append_assoc]
    rfl

theorem traces_doneWith (pre bs : List α) :
    { doneWith x1 trace (pre ++ bs) with
        traces := (doneWith x1 trace pre).traces ++ bs.flatMap fun b => trace b (x1 b).2 } =
      doneWith x1 trace (pre ++ bs) := by
  unfold doneWith
  simp

/-- A prefetch stays inside the frame. -/
theorem prefetch_inside (pre rest : List α) :
    prefetch (pre ++ rest) rest.length pre.length = some () := by
  unfold prefetch
  split
  · rename_i htwelve
    have hin : ∀ k < 12, ∃ b, (pre ++ rest)[pre.length + k]? = some b := by
      intro k hk
      have hlt : pre.length + k < (pre ++ rest).length := by
        rw [List.length_append]
        omega
      exact ⟨_, List.getElem?_eq_getElem hlt⟩
    obtain ⟨b4, h4⟩ := hin 4 (by omega)
    obtain ⟨b5, h5⟩ := hin 5 (by omega)
    obtain ⟨b6, h6⟩ := hin 6 (by omega)
    obtain ⟨b7, h7⟩ := hin 7 (by omega)
    obtain ⟨b8, h8⟩ := hin 8 (by omega)
    obtain ⟨b9, h9⟩ := hin 9 (by omega)
    obtain ⟨b10, h10⟩ := hin 10 (by omega)
    obtain ⟨b11, h11⟩ := hin 11 (by omega)
    simp [List.mapM_cons, h4, h5, h6, h7, h8, h9, h10, h11]
  · rfl

/-- Four packets at a time. -/
theorem quadLoop_eq : ∀ rest pre : List α, (pre ++ rest).length ≤ frameSize →
    ∃ pre' rest', pre ++ rest = pre' ++ rest' ∧
      quadLoop x1 trace (pre ++ rest) rest.length pre.length (doneWith x1 trace pre) =
        some (rest'.length, pre'.length, doneWith x1 trace pre')
  | b0 :: b1 :: b2 :: b3 :: rest, pre, hlen => by
    have hsplit : pre ++ b0 :: b1 :: b2 :: b3 :: rest = (pre ++ [b0, b1, b2, b3]) ++ rest := by
      simp
    obtain ⟨pre', rest', heq, hloop⟩ := quadLoop_eq rest (pre ++ [b0, b1, b2, b3]) (hsplit ▸ hlen)
    refine ⟨pre', rest', hsplit.trans heq, ?_⟩
    have hget : ∀ k b, [b0, b1, b2, b3][k]? = some b →
        (pre ++ b0 :: b1 :: b2 :: b3 :: rest)[pre.length + k]? = some b ∧
          (pre ++ [b0, b1, b2, b3])[pre.length + k]? = some b := by
      intro k b hk
      have hfour : (pre ++ [b0, b1, b2, b3])[pre.length + k]? = some b := by
        rw [List.getElem?_append_right (by omega), Nat.add_sub_cancel_left]
        exact hk
      refine ⟨?_, hfour⟩
      rw [hsplit, List.getElem?_append_left (List.getElem?_eq_some_iff.1 hfour).1]
      exact hfour
    have hfour : (pre ++ [b0, b1, b2, b3]).length ≤ frameSize := by
      simp only [List.length_append, List.length_cons, List.length_nil] at hlen ⊢
      omega
    have hjudge : [b0, b1, b2, b3].foldlM (judge x1) (doneWith x1 trace pre) =
        some { doneWith x1 trace (pre ++ [b0, b1, b2, b3]) with
          traces := (doneWith x1 trace pre).traces } :=
      judges_doneWith _ hfour (doneWith x1 trace pre).traces
    have h0 := hget 0 b0 rfl
    rw [Nat.add_zero] at h0
    obtain ⟨h1, h1'⟩ := hget 1 b1 rfl
    obtain ⟨h2, h2'⟩ := hget 2 b2 rfl
    obtain ⟨h3, h3'⟩ := hget 3 b3 rfl
    have hpre := prefetch_inside pre (b0 :: b1 :: b2 :: b3 :: rest)
    show quadLoop x1 trace _ (rest.length + 4) pre.length _ = _
    rw [quadLoop]
    simp only [List.length_cons] at hpre
    rw [hpre, h0.1, h1, h2, h3]
    show ([b0, b1, b2, b3].foldlM (judge x1) (doneWith x1 trace pre) >>= _) = _
    rw [hjudge]
    show (traceOne trace _ pre.length b0 >>= _) = _
    rw [traceOne_doneWith h0.2]
    show (traceOne trace _ (pre.length + 1) b1 >>= _) = _
    rw [traceOne_doneWith h1']
    show (traceOne trace _ (pre.length + 2) b2 >>= _) = _
    rw [traceOne_doneWith h2']
    show (traceOne trace _ (pre.length + 3) b3 >>= _) = _
    rw [traceOne_doneWith h3']
    show quadLoop x1 trace _ rest.length (pre.length + 4) _ = _
    have htraces : _ = doneWith x1 trace (pre ++ [b0, b1, b2, b3]) := traces_doneWith pre _
    simp only [List.flatMap_cons, List.flatMap_nil, List.append_nil, ← List.append_assoc]
      at htraces
    rw [htraces, hsplit]
    rw [List.length_append] at hloop
    exact hloop
  | [], pre, _ => ⟨pre, [], rfl, rfl⟩
  | [b0], pre, _ => ⟨pre, [b0], rfl, rfl⟩
  | [b0, b1], pre, _ => ⟨pre, [b0, b1], rfl, rfl⟩
  | [b0, b1, b2], pre, _ => ⟨pre, [b0, b1, b2], rfl, rfl⟩

/-- One packet at a time. -/
theorem singleLoop_eq (rest : List α) : ∀ pre : List α, (pre ++ rest).length ≤ frameSize →
    singleLoop x1 trace (pre ++ rest) rest.length pre.length (doneWith x1 trace pre) =
      some (doneWith x1 trace (pre ++ rest)) := by
  induction rest with
  | nil =>
    intro pre _
    rw [List.append_nil]
    rfl
  | cons b rest ih =>
    intro pre hlen
    have hget : (pre ++ b :: rest)[pre.length]? = some b := by simp
    have hget' : (pre ++ [b])[pre.length]? = some b := by simp
    have hroom : pre.length < frameSize := by
      simp only [List.length_append, List.length_cons] at hlen
      omega
    have hjudge : judge x1 (doneWith x1 trace pre) b =
        some { doneWith x1 trace (pre ++ [b]) with traces := (doneWith x1 trace pre).traces } :=
      judge_doneWith hroom (doneWith x1 trace pre).traces b
    have htraces : _ = doneWith x1 trace (pre ++ [b]) := traces_doneWith pre [b]
    rw [List.flatMap_singleton] at htraces
    rw [List.length_cons, singleLoop, hget]
    show (judge x1 (doneWith x1 trace pre) b >>= _) = _
    rw [hjudge]
    show (traceOne trace _ pre.length b >>= _) = _
    rw [traceOne_doneWith hget', htraces]
    have hsplit : pre ++ b :: rest = (pre ++ [b]) ++ rest := by simp
    rw [hsplit] at hlen ⊢
    have hrest := ih (pre ++ [b]) hlen
    rw [List.length_append] at hrest
    exact hrest

/-- **One frame.**  Every packet is judged and traced as if it were alone, and no access goes
wrong. -/
theorem frame_eq (prefetches : Bool) {bufs : List α} (hlen : bufs.length ≤ frameSize) :
    frameLoops x1 trace prefetches bufs = some (doneWith x1 trace bufs) := by
  have hnone : (Done.none : Done ε τ) = doneWith x1 trace [] := rfl
  unfold frameLoops
  rw [hnone]
  cases prefetches with
  | false => exact singleLoop_eq bufs [] hlen
  | true =>
    obtain ⟨pre, rest, heq, hloop⟩ := @quadLoop_eq _ _ _ _ x1 trace bufs [] hlen
    rw [List.nil_append] at heq hloop
    rw [List.length_nil] at hloop
    rw [if_pos rfl, hloop]
    subst heq
    exact singleLoop_eq rest pre hlen

end Loops

theorem sum_indicator {ε : Type} [DecidableEq ε] (a : ε) (errors : List ε) :
    (errors.map fun e => if a = e then 1 else 0).sum = errors.count a := by
  induction errors with
  | nil => rfl
  | cons e errors ih =>
    rw [List.map_cons, List.sum_cons, ih, List.count_cons, Nat.add_comm]
    congr 1
    by_cases he : a = e
    · simp [he]
    · have hne : e ≠ a := Ne.symm he
      simp [he, hne]

/-- Every packet counts for one of the errors. -/
theorem sum_countP {α ε : Type} [DecidableEq ε] {errors : List ε} (hnodup : errors.Nodup)
    (hall : ∀ e, e ∈ errors) (f : α → ε) (bufs : List α) :
    (errors.map fun e => bufs.countP fun b => f b = e).sum = bufs.length := by
  induction bufs with
  | nil => simp
  | cons b bufs ih =>
    have hcons : ∀ e, (b :: bufs).countP (fun b => f b = e) =
        (bufs.countP fun b => f b = e) + if f b = e then 1 else 0 := by
      intro e
      simp [List.countP_cons]
    -- only the error of the packet itself gets one more
    have hone : (errors.map fun e => if f b = e then 1 else 0).sum = 1 := by
      rw [sum_indicator, hnodup.count, if_pos (hall (f b))]
    simp only [hcons]
    rw [List.sum_map_add, ih, hone, List.length_cons]

/-! ## Many frames -/

section Node

variable {α ε τ : Type} [DecidableEq ε] (x1 : α → ε × BitVec 16) (trace : α → BitVec 16 → List τ)
  (errors : List ε)

/-- The end of the node: the counters get the counts that are not zero. -/
def incrementCounters (counts : ε → BitVec 32) (counters : ε → BitVec 64) : ε → BitVec 64 :=
  errors.foldl (fun c e =>
    if counts e ≠ 0 then Function.update c e (c e + (counts e).setWidth 64) else c) counters

/-- A node passes one frame: the next nodes of its packets, and the counters. -/
def frame (prefetches : Bool) (counters : ε → BitVec 64) (bufs : List α) :
    Option (List (BitVec 16) × (ε → BitVec 64)) := do
  let d ← frameLoops x1 trace prefetches bufs
  some (d.nexts, incrementCounters errors d.counts counters)

/-- A node passes one frame after the other. -/
def run (prefetches : Bool) : (ε → BitVec 64) → List (List α) →
    Option (List (BitVec 16) × (ε → BitVec 64))
  | counters, [] => some ([], counters)
  | counters, bufs :: frames => do
    let (nexts, counters) ← frame x1 trace errors prefetches counters bufs
    let (nexts', counters) ← run prefetches counters frames
    some (nexts ++ nexts', counters)

variable {x1 trace errors}

theorem incrementCounters_apply (hnodup : errors.Nodup) (counts : ε → BitVec 32)
    (counters : ε → BitVec 64) (e : ε) :
    incrementCounters errors counts counters e =
      if e ∈ errors then counters e + (counts e).setWidth 64 else counters e := by
  unfold incrementCounters
  induction errors generalizing counters with
  | nil => rfl
  | cons e' errors ih =>
    obtain ⟨hnot, hnodup⟩ := List.nodup_cons.1 hnodup
    rw [List.foldl_cons, ih hnodup]
    by_cases he : e = e'
    · subst he
      rw [if_neg hnot, if_pos List.mem_cons_self]
      by_cases hzero : counts e = 0
      · rw [if_neg (not_not.2 hzero), hzero]
        simp
      · rw [if_pos hzero, Function.update_self]
    · -- the counter of another error
      have hsame : (if counts e' ≠ 0 then
          Function.update counters e' (counters e' + (counts e').setWidth 64) else counters) e =
            counters e := by
        split
        · exact Function.update_of_ne he ..
        · rfl
      rw [hsame]
      simp [he]

/-- **A run.**  Every packet goes where it would go alone; every error is counted as often as it
came; and how the packets were cut into frames does not matter. -/
theorem run_eq (prefetches : Bool) (hnodup : errors.Nodup) (hall : ∀ e, e ∈ errors)
    (frames : List (List α)) :
    ∀ {counters : ε → BitVec 64}, (∀ bufs ∈ frames, bufs.length ≤ frameSize) →
      run x1 trace errors prefetches counters frames =
        some (frames.flatten.map (fun b => (x1 b).2), fun e =>
          counters e + BitVec.ofNat 64 (frames.flatten.countP fun b => (x1 b).1 = e)) := by
  induction frames with
  | nil =>
    intro counters _
    unfold run
    simp
  | cons bufs frames ih =>
    intro counters hlen
    have hbufs := hlen bufs List.mem_cons_self
    unfold run frame
    rw [frame_eq prefetches hbufs]
    show (run x1 trace errors prefetches _ frames >>= _) = _
    rw [ih fun bufs hmem => hlen bufs (List.mem_cons_of_mem _ hmem)]
    show some (_, _) = some (_, _)
    congr 2
    · rw [List.flatten_cons, List.map_append]
      rfl
    · funext e
      rw [incrementCounters_apply hnodup, if_pos (hall e), List.flatten_cons, List.countP_append,
        BitVec.ofNat_add, ← BitVec.add_assoc]
      congr 2
      -- at most as many packets as in a frame have the error
      have hcount : (bufs.countP fun b => (x1 b).1 = e) < 2 ^ 32 := by
        have hle := (List.countP_le_length (p := fun b => (x1 b).1 = e) (l := bufs)).trans hbufs
        unfold frameSize at hle
        omega
      apply BitVec.eq_of_toNat_eq
      rw [doneWith, BitVec.toNat_setWidth, BitVec.toNat_ofNat, BitVec.toNat_ofNat,
        Nat.mod_eq_of_lt hcount]

end Node

end FrameNode
