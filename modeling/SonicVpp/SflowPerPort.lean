/-
# Sampling per port

The samplers and rates are kept per interface, but `sflow_node_ingress_egress` looks at
the interface of the first packet of a frame only.  `per_port_iff` says that the samplers
count the packets of their own interface, and the samples carry the rates of theirs, all
along a sequence of frames exactly if no frame mixes the packets of two interfaces.
-/
import SonicVpp.SflowSampler

open SkipSampler

namespace Sflow

section PerPort

variable {α : Type} (smp : SflowMain) (hwIf : α → ℕ)

/-! ## What per port means -/

/-- How many of the packets belong to an interface. -/
def ownPackets (packets : List α) (i : ℕ) : ℕ := packets.countP fun a => hwIf a = i

/-- After the frames every pool has advanced by the packets of its interface, and every
sample carries the rate of the interface of its packet. -/
structure PerPort (samplers : ℕ → PerIfSampler) (frames : List (List α)) : Prop where
  pool : ∀ i, ((sflowRun smp hwIf samplers frames).2 i).pool
    = (samplers i).pool + BitVec.ofNat 32 (ownPackets hwIf frames.flatten i)
  samplingN : ∀ x ∈ (sflowRun smp hwIf samplers frames).1,
    x.samplingN = smp.effectiveN (hwIf x.packet)

/-- The packets of a frame belong to one interface. -/
def OneInterface (packets : List α) : Prop := ∀ a ∈ packets, ∀ b ∈ packets, hwIf a = hwIf b

/-! ## One frame -/

/-- The interface of the first packet gets all packets of the frame. -/
theorem node_pool (samplers : ℕ → PerIfSampler) (first : α) (rest : List α) (i : ℕ) :
    ((sflowNodeIngressEgress smp hwIf samplers (first :: rest)).2 i).pool
      = (samplers i).pool
        + BitVec.ofNat 32 (if i = hwIf first then (first :: rest).length else 0) := by
  rw [node_samplers, List.head?_cons, Option.map_some]
  by_cases hi : i = hwIf first
  · rw [if_pos hi, if_pos (congrArg some hi.symm), pool_iterate]
  · rw [if_neg hi, if_neg fun h => hi (Option.some.inj h).symm]
    simp

/-- The samples are packets of the frame, with the rate of the interface of the first. -/
theorem node_sample (samplers : ℕ → PerIfSampler) (first : α) (rest : List α) {x : Sample α}
    (hx : x ∈ (sflowNodeIngressEgress smp hwIf samplers (first :: rest)).1) :
    x.packet ∈ first :: rest ∧ x.samplingN = smp.effectiveN (hwIf first) := by
  obtain ⟨a, ha, rfl⟩ := List.mem_map.1 hx
  exact ⟨(sampleFrame_spec smp _ _ _).2.1 a ha, rfl⟩

/-- A frame gives every interface its own packets exactly if they are all of one. -/
theorem own_eq_iff (first : α) (rest : List α) :
    (∀ i, ownPackets hwIf (first :: rest) i
      = if i = hwIf first then (first :: rest).length else 0) ↔
    OneInterface hwIf (first :: rest) := by
  constructor
  · intro h a ha b hb
    have hall := h (hwIf first)
    rw [if_pos rfl, ownPackets, List.countP_eq_length] at hall
    exact (of_decide_eq_true (hall a ha)).trans (of_decide_eq_true (hall b hb)).symm
  · intro h i
    unfold ownPackets
    by_cases hi : i = hwIf first
    · rw [if_pos hi, List.countP_eq_length]
      intro a ha
      exact decide_eq_true ((h a ha first List.mem_cons_self).trans hi.symm)
    · rw [if_neg hi, List.countP_eq_zero]
      intro a ha hai
      exact hi ((of_decide_eq_true hai).symm.trans (h a ha first List.mem_cons_self))

/-- A frame of one interface advances each pool by the packets of its interface. -/
theorem node_pool_of_oneInterface (samplers : ℕ → PerIfSampler) {packets : List α}
    (hone : OneInterface hwIf packets) (i : ℕ) :
    ((sflowNodeIngressEgress smp hwIf samplers packets).2 i).pool
      = (samplers i).pool + BitVec.ofNat 32 (ownPackets hwIf packets i) := by
  cases packets with
  | nil => exact (BitVec.add_zero _).symm
  | cons first rest => rw [node_pool, (own_eq_iff hwIf first rest).2 hone i]

/-- And its samples carry the rate of the interface. -/
theorem node_samplingN_of_oneInterface (samplers : ℕ → PerIfSampler) {packets : List α}
    (hone : OneInterface hwIf packets) {x : Sample α}
    (hx : x ∈ (sflowNodeIngressEgress smp hwIf samplers packets).1) :
    x.samplingN = smp.effectiveN (hwIf x.packet) := by
  cases packets with
  | nil => exact absurd hx List.not_mem_nil
  | cons first rest =>
    obtain ⟨hmem, hrate⟩ := node_sample smp hwIf samplers first rest hx
    rw [hrate, hone _ hmem first List.mem_cons_self]

/-- A frame that advances the pools by the packets of their interfaces has only one.  The
count of a frame fits a `u32`, so the wrap of the pools hides nothing. -/
theorem oneInterface_of_node_pool (samplers : ℕ → PerIfSampler) {packets : List α}
    (hsize : packets.length < 2 ^ 32)
    (hpool : ∀ i, ((sflowNodeIngressEgress smp hwIf samplers packets).2 i).pool
      = (samplers i).pool + BitVec.ofNat 32 (ownPackets hwIf packets i)) :
    OneInterface hwIf packets := by
  cases packets with
  | nil => exact fun a ha => absurd ha List.not_mem_nil
  | cons first rest =>
    refine (own_eq_iff hwIf first rest).1 fun i => ?_
    have hcount := hpool i
    rw [node_pool, BitVec.add_right_inj] at hcount
    have hown : ownPackets hwIf (first :: rest) i ≤ (first :: rest).length :=
      List.countP_le_length
    have hnat := congrArg BitVec.toNat hcount
    rw [BitVec.toNat_ofNat, BitVec.toNat_ofNat, Nat.mod_eq_of_lt (hown.trans_lt hsize),
      Nat.mod_eq_of_lt] at hnat
    · exact hnat.symm
    · split
      · exact hsize
      · exact Nat.two_pow_pos 32

/-! ## All frames -/

/-- The packets of an interface, frame by frame. -/
theorem ownPackets_append (packets packets' : List α) (i : ℕ) :
    ownPackets hwIf (packets ++ packets') i
      = ownPackets hwIf packets i + ownPackets hwIf packets' i := List.countP_append

/-- One more frame after a run. -/
theorem sflowRun_append_singleton (frame : List α) :
    ∀ (before : List (List α)) (samplers : ℕ → PerIfSampler),
      sflowRun smp hwIf samplers (before ++ [frame])
        = ((sflowRun smp hwIf samplers before).1
            ++ (sflowNodeIngressEgress smp hwIf (sflowRun smp hwIf samplers before).2 frame).1,
          (sflowNodeIngressEgress smp hwIf (sflowRun smp hwIf samplers before).2 frame).2) := by
  intro before
  induction before with
  | nil =>
    intro samplers
    simp [sflowRun]
  | cons packets before ih =>
    intro samplers
    simp only [List.cons_append, sflowRun, ih, List.append_assoc]

/-- What one more frame has to do, for the law to hold after it. -/
theorem PerPort.snoc_iff {samplers : ℕ → PerIfSampler} {before : List (List α)} {frame : List α}
    (hbefore : PerPort smp hwIf samplers before) (hsize : frame.length < 2 ^ 32) :
    PerPort smp hwIf samplers (before ++ [frame]) ↔ OneInterface hwIf frame := by
  have hown : ∀ i, ownPackets hwIf (before ++ [frame]).flatten i
      = ownPackets hwIf before.flatten i + ownPackets hwIf frame i := by
    intro i
    rw [List.flatten_append, List.flatten_singleton, ownPackets_append]
  constructor
  · intro hafter
    refine oneInterface_of_node_pool smp hwIf (sflowRun smp hwIf samplers before).2 hsize
      fun i => ?_
    have hpool := hafter.pool i
    rw [sflowRun_append_singleton, hown, BitVec.ofNat_add, ← BitVec.add_assoc,
      ← hbefore.pool i] at hpool
    exact hpool
  · intro hone
    refine ⟨fun i => ?_, fun x hx => ?_⟩
    · rw [sflowRun_append_singleton, hown, BitVec.ofNat_add, ← BitVec.add_assoc,
        ← hbefore.pool i]
      exact node_pool_of_oneInterface smp hwIf _ hone i
    · rw [sflowRun_append_singleton] at hx
      rcases List.mem_append.1 hx with hx | hx
      · exact hbefore.samplingN x hx
      · exact node_samplingN_of_oneInterface smp hwIf _ hone hx

/-- Nothing has been sampled yet. -/
theorem PerPort.nil (samplers : ℕ → PerIfSampler) : PerPort smp hwIf samplers [] where
  pool := fun _ => (BitVec.add_zero _).symm
  samplingN := fun _ hx => absurd hx List.not_mem_nil

/-- **Sampling is per port exactly if no frame mixes interfaces.**  All along a sequence of
frames every pool advances by the packets of its own interface and every sample carries the
rate of its own, if and only if the packets of each frame belong to one interface. -/
theorem per_port_iff (samplers : ℕ → PerIfSampler) {frames : List (List α)}
    (hsize : ∀ frame ∈ frames, frame.length < 2 ^ 32) :
    (∀ before behind, frames = before ++ behind → PerPort smp hwIf samplers before) ↔
      ∀ frame ∈ frames, OneInterface hwIf frame := by
  constructor
  · intro hall frame hframe
    obtain ⟨before, behind, rfl⟩ := List.append_of_mem hframe
    refine ((hall before (frame :: behind) rfl).snoc_iff smp hwIf (hsize frame hframe)).1 ?_
    exact hall (before ++ [frame]) behind (by simp)
  · intro hone before
    -- from the first frame on, along the run
    induction before using List.reverseRecOn with
    | nil => exact fun _ _ => PerPort.nil smp hwIf samplers
    | append_singleton before frame ih =>
      intro behind hframes
      rw [List.append_assoc] at hframes
      have hframe : frame ∈ frames := by
        rw [hframes]
        simp
      exact ((ih _ hframes).snoc_iff smp hwIf (hsize frame hframe)).2 (hone frame hframe)

end PerPort

/-- The packets 10 to 19 are of the interface 1, and so on. -/
def tensInterface (packet : ℕ) : ℕ := packet / 10

/-- In a frame of two interfaces the packet of the second is counted for the first. -/
theorem mixed_frame_misattributed :
    ¬ PerPort everyPacket tensInterface (fun _ => nextPacket) [[10, 20]] := by
  intro h
  have hpool := h.pool 2
  revert hpool
  decide

/-- Frames of one interface each. -/
theorem per_port_separate :
    PerPort everyPacket tensInterface (fun _ => nextPacket) [[10, 11], [20]] := by
  have hone : ∀ frame ∈ ([[10, 11], [20]] : List (List ℕ)), OneInterface tensInterface frame := by
    simp [OneInterface, tensInterface]
  exact (per_port_iff everyPacket tensInterface (fun _ => nextPacket) (by decide)).2 hone
    [[10, 11], [20]] [] rfl

end Sflow
