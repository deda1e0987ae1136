/-
# sFlow sampling (`0012-sflow-per-port-sample-rate.patch`)

`sflow_node_ingress_egress` keeps a sampler for each interface: `skip` packets on, the
next one is sampled.  It does not pass the packets of a frame one by one.  It reaches into
the frame for the packet it wants, subtracts `skip` from the packets that are left, and
draws the next `skip`; but it reaches in from the start of the frame each time.  So the
sampler ends as it should, and the first sample of a frame is the right one, but a second
one is not.

`sampling_batching_iff` says that this is all that can go wrong.
-/
import SonicVpp.SkipSampler

open SkipSampler

namespace Sflow

/-! ## The sampler of an interface -/

/-- `sflow_per_if_sampler_t`.  "We never see `skip == 0`." -/
@[ext] structure PerIfSampler where
  skip : ℕ
  pool : BitVec 32
  seed : BitVec 32
  skip_pos : 0 < skip

instance : Inhabited PerIfSampler := ⟨⟨1, 0, 0, Nat.one_pos⟩⟩

/-- `pkts` packets are skipped. -/
def PerIfSampler.advance (s : PerIfSampler) (pkts : ℕ) (h : pkts < s.skip) : PerIfSampler where
  skip := s.skip - pkts
  pool := s.pool + BitVec.ofNat 32 pkts
  seed := s.seed
  skip_pos := by omega

/-- The rates: the global one, and those of the interfaces by hardware index, where 0 says
that there is none.  `randomU32` is VPP's generator, with the new seed. -/
structure SflowMain where
  samplingN : BitVec 32
  perInterfaceData : ℕ → BitVec 32
  randomU32 : BitVec 32 → BitVec 32 × BitVec 32

section Sampler

variable (smp : SflowMain) (hw : ℕ)

/-- `sfif->samplingN ? sfif->samplingN : smp->samplingN`. -/
def SflowMain.effectiveN : BitVec 32 :=
  if smp.perInterfaceData hw ≠ 0 then smp.perInterfaceData hw else smp.samplingN

/-- `sflow_next_random_skip_if`, with the new seed. -/
def sflowNextRandomSkipIf (seed : BitVec 32) : BitVec 32 × BitVec 32 :=
  if smp.effectiveN hw ≤ 1 then (1, seed)
  else
    let lim := 2 * smp.effectiveN hw - 1
    let r := smp.randomU32 seed
    (r.1 % lim + 1, r.2)

/-- `lim` is odd. -/
theorem lim_pos (N : BitVec 32) : 0 < (2 * N - 1).toNat := by
  have h1 : (1 : BitVec 32).toNat = 1 := rfl
  have h2 : (2 : BitVec 32).toNat = 2 := rfl
  rw [BitVec.toNat_sub, BitVec.toNat_mul, h1, h2]
  omega

/-- A number drawn below `lim`, and one more. -/
theorem draw_toNat (r N : BitVec 32) :
    (r % (2 * N - 1) + 1).toNat = r.toNat % (2 * N - 1).toNat + 1 := by
  have h1 : (1 : BitVec 32).toNat = 1 := rfl
  have hmod := Nat.mod_lt r.toNat (lim_pos N)
  have hlt := (2 * N - 1).isLt
  rw [BitVec.toNat_add, BitVec.toNat_umod, h1, Nat.mod_eq_of_lt (by omega)]

/-- A drawn skip is not 0: `lim` is odd, so the remainder is not the largest number. -/
theorem sflowNextRandomSkipIf_pos (seed : BitVec 32) :
    0 < (sflowNextRandomSkipIf smp hw seed).1.toNat := by
  unfold sflowNextRandomSkipIf
  by_cases hN : smp.effectiveN hw ≤ 1
  · rw [if_pos hN]
    exact Nat.one_pos
  · rw [if_neg hN]
    show 0 < ((smp.randomU32 seed).1 % (2 * smp.effectiveN hw - 1) + 1).toNat
    rw [draw_toNat]
    exact Nat.succ_pos _

/-- A sample is taken: `skip` packets have passed, and the next `skip` is drawn. -/
def PerIfSampler.sampled (s : PerIfSampler) : PerIfSampler where
  skip := (sflowNextRandomSkipIf smp hw s.seed).1.toNat
  pool := s.pool + BitVec.ofNat 32 s.skip
  seed := (sflowNextRandomSkipIf smp hw s.seed).2
  skip_pos := sflowNextRandomSkipIf_pos smp hw s.seed

/-- One packet passes. -/
def PerIfSampler.tick (s : PerIfSampler) : PerIfSampler :=
  if h : 1 < s.skip then s.advance 1 h else s.sampled smp hw

/-- The sampler of an interface as it should be, packet by packet. -/
def sampler : SkipMachine PerIfSampler where
  skip := PerIfSampler.skip
  tick := PerIfSampler.tick smp hw
  skip_pos := PerIfSampler.skip_pos
  skip_tick := by
    intro s hne
    have hpos := s.skip_pos
    have hlt : 1 < s.skip := by omega
    rw [PerIfSampler.tick, dif_pos hlt]
    show s.skip - 1 + 1 = s.skip
    omega

/-- `n` packets that are skipped pass one by one. -/
theorem tick_iterate (s : PerIfSampler) :
    ∀ {n : ℕ} (h : n < s.skip), (PerIfSampler.tick smp hw)^[n] s = s.advance n h := by
  intro n
  induction n with
  | zero =>
    intro h
    apply PerIfSampler.ext
    · rfl
    · simp [PerIfSampler.advance]
    · rfl
  | succ n ih =>
    intro h
    have hlt : 1 < (s.advance n (by omega)).skip := by
      simp only [PerIfSampler.advance]
      omega
    rw [Function.iterate_succ_apply', ih (by omega), PerIfSampler.tick, dif_pos hlt]
    apply PerIfSampler.ext
    · simp only [PerIfSampler.advance]
      omega
    · simp only [PerIfSampler.advance]
      rw [BitVec.add_assoc, ← BitVec.ofNat_add]
    · rfl

/-- And so do those up to the sample. -/
theorem tick_iterate_skip (s : PerIfSampler) :
    (PerIfSampler.tick smp hw)^[s.skip] s = s.sampled smp hw := by
  obtain ⟨n, hn⟩ : ∃ n, s.skip = n + 1 := ⟨s.skip - 1, by have := s.skip_pos; omega⟩
  have hone : ¬ 1 < (s.advance n (by omega)).skip := by
    simp only [PerIfSampler.advance]
    omega
  rw [hn, Function.iterate_succ_apply', tick_iterate smp hw s (by omega), PerIfSampler.tick,
    dif_neg hone]
  apply PerIfSampler.ext
  · rfl
  · simp only [PerIfSampler.sampled, PerIfSampler.advance]
    rw [BitVec.add_assoc, ← BitVec.ofNat_add, show n + (s.skip - n) = s.skip by omega]
  · rfl

/-- Passing packets are counted, whether they are sampled or not. -/
theorem pool_iterate (n : ℕ) (s : PerIfSampler) :
    ((PerIfSampler.tick smp hw)^[n] s).pool = s.pool + BitVec.ofNat 32 n := by
  induction n with
  | zero => simp
  | succ n ih =>
    have htick : ∀ s : PerIfSampler, (s.tick smp hw).pool = s.pool + 1 := by
      intro s
      have hpos := s.skip_pos
      unfold PerIfSampler.tick
      by_cases h : 1 < s.skip
      · rw [dif_pos h]
        rfl
      · rw [dif_neg h]
        show s.pool + BitVec.ofNat 32 s.skip = s.pool + 1
        rw [show s.skip = 1 by omega]
        rfl
    rw [Function.iterate_succ_apply', htick, ih, BitVec.add_assoc, BitVec.ofNat_add]
    rfl

end Sampler

/-! ## The node -/

/-- A sample: the packet, and the rate that goes with it. -/
structure Sample (α : Type) where
  packet : α
  samplingN : BitVec 32
  deriving DecidableEq, Repr

section Node

variable {α : Type} (smp : SflowMain)

/-- The loop of `sflow_node_ingress_egress` on the frame `packets`, of which `pkts` are
left, and what follows it.  The fuel is more than `pkts`. -/
def sampleLoop (hw : ℕ) (packets : List α) : ℕ → ℕ → PerIfSampler → List α × PerIfSampler
  | 0, _, s => ([], s)
  | fuel + 1, pkts, s =>
    if h : s.skip ≤ pkts then
      let (samples, s') := sampleLoop hw packets fuel (pkts - s.skip) (s.sampled smp hw)
      (packets[s.skip - 1]?.toList ++ samples, s')
    else ([], s.advance pkts (by omega))

/-- What the node does with a frame, with the sampler of the interface `hw`. -/
def sampleFrame (hw : ℕ) (packets : List α) (s : PerIfSampler) : List α × PerIfSampler :=
  if h : packets.length < s.skip then ([], s.advance packets.length h)
  else sampleLoop smp hw packets (packets.length + 1) packets.length s

variable (hwIf : α → ℕ)

/-- `sflow_node_ingress_egress`; `hwIf` is the hardware interface of a packet in the
sampled direction.  The first packet decides which sampler and which rate are used. -/
def sflowNodeIngressEgress (samplers : ℕ → PerIfSampler) (packets : List α) :
    List (Sample α) × (ℕ → PerIfSampler) :=
  match packets.head? with
  | none => ([], samplers)
  | some first =>
    let hw := hwIf first
    let (samples, smpif) := sampleFrame smp hw packets (samplers hw)
    (samples.map fun p => ⟨p, smp.effectiveN hw⟩, Function.update samplers hw smpif)

/-- One frame after the other. -/
def sflowRun : (ℕ → PerIfSampler) → List (List α) → List (Sample α) × (ℕ → PerIfSampler)
  | samplers, [] => ([], samplers)
  | samplers, packets :: frames =>
    let (samples, samplers') := sflowNodeIngressEgress smp hwIf samplers packets
    let (rest, samplers'') := sflowRun samplers' frames
    (samples ++ rest, samplers'')

/-! ## One frame -/

variable (hw : ℕ) (packets : List α)

/-- The loop leaves the sampler as if the packets had passed one by one, and takes as many
samples. -/
theorem sampleLoop_spec :
    ∀ (fuel pkts : ℕ) (s : PerIfSampler), pkts < fuel → pkts ≤ packets.length →
      (sampleLoop smp hw packets fuel pkts s).2 = (PerIfSampler.tick smp hw)^[pkts] s ∧
      (∀ a ∈ (sampleLoop smp hw packets fuel pkts s).1, a ∈ packets) ∧
      ∀ left : List α, left.length = pkts →
        (sampleLoop smp hw packets fuel pkts s).1.length
          = ((sampler smp hw).perItem s left).length := by
  intro fuel
  induction fuel with
  | zero => intro pkts s h; omega
  | succ fuel ih =>
    intro pkts s hfuel hle
    have hpos := s.skip_pos
    rw [sampleLoop]
    -- one round passes `skip` packets, of which the last is sampled
    by_cases h : s.skip ≤ pkts
    · obtain ⟨hstate, hmem, hlen⟩ := ih (pkts - s.skip) (s.sampled smp hw) (by omega) (by omega)
      have hget : packets[s.skip - 1]? = some (packets.get ⟨s.skip - 1, by omega⟩) :=
        List.getElem?_eq_getElem _
      simp only [dif_pos h, hget, Option.toList_some, List.singleton_append]
      refine ⟨?_, ?_, ?_⟩
      · rw [hstate, ← tick_iterate_skip, ← Function.iterate_add_apply,
          show pkts - s.skip + s.skip = pkts by omega]
      · intro a ha
        rcases List.mem_cons.1 ha with rfl | ha
        · exact List.get_mem _ _
        · exact hmem a ha
      · intro left hleft
        rw [(sampler smp hw).perItem_of_le (s := s) (by rw [hleft]; exact h), List.length_cons,
          List.length_cons, hlen (left.drop s.skip) (by rw [List.length_drop, hleft])]
        congr 3
        exact (tick_iterate_skip smp hw s).symm
    · simp only [dif_neg h]
      refine ⟨(tick_iterate smp hw s (by omega)).symm, by simp, fun left hleft => ?_⟩
      rw [(sampler smp hw).perItem_of_lt (s := s) (by rw [hleft]; exact not_le.1 h)]

/-- A frame: the sampler is right, and so is the number of samples. -/
theorem sampleFrame_spec (s : PerIfSampler) :
    (sampleFrame smp hw packets s).2 = (PerIfSampler.tick smp hw)^[packets.length] s ∧
      (∀ a ∈ (sampleFrame smp hw packets s).1, a ∈ packets) ∧
      (sampleFrame smp hw packets s).1.length
        = ((sampler smp hw).perItem s packets).length := by
  unfold sampleFrame
  by_cases h : packets.length < s.skip
  · rw [dif_pos h]
    refine ⟨(tick_iterate smp hw s h).symm, by simp, ?_⟩
    rw [(sampler smp hw).perItem_of_lt (s := s) h]
  · rw [dif_neg h]
    obtain ⟨hstate, hmem, hlen⟩ := sampleLoop_spec smp hw packets (packets.length + 1)
      packets.length s (by omega) le_rfl
    exact ⟨hstate, hmem, hlen packets rfl⟩

/-- **The samples of a frame of different packets are the right ones exactly if there is at
most one.** -/
theorem sampleFrame_eq_iff (hnodup : packets.Nodup) (s : PerIfSampler) :
    (sampleFrame smp hw packets s).1 = (sampler smp hw).perItem s packets ↔
      packets.length < (sampler smp hw).position s 1 := by
  have hpos := s.skip_pos
  have hposition : (sampler smp hw).position s 1 = s.skip + (s.sampled smp hw).skip := by
    show s.skip + ((PerIfSampler.tick smp hw)^[s.skip] s).skip = _
    rw [tick_iterate_skip]
  rw [hposition]
  unfold sampleFrame
  by_cases h : packets.length < s.skip
  · rw [dif_pos h, (sampler smp hw).perItem_of_lt (s := s) h]
    exact iff_of_true rfl (by omega)
  · have hle : s.skip ≤ packets.length := not_lt.1 h
    have hget : packets[s.skip - 1]? = some (packets.get ⟨s.skip - 1, by omega⟩) :=
      List.getElem?_eq_getElem _
    have htick : (sampler smp hw).tick^[(sampler smp hw).skip s] s = s.sampled smp hw :=
      tick_iterate_skip smp hw s
    have hskip : (sampler smp hw).skip s = s.skip := rfl
    have hdrop : (packets.drop s.skip).length = packets.length - s.skip := List.length_drop
    rw [dif_neg h, sampleLoop, dif_pos hle, (sampler smp hw).perItem_of_le (s := s) hle, htick]
    simp only [hget, Option.toList_some, List.singleton_append, hskip, List.cons.injEq, true_and]
    -- the first sample is right; what matters is whether there is a second one
    have hpos' := (s.sampled smp hw).skip_pos
    obtain ⟨n, hn⟩ : ∃ n, packets.length = n + 1 := ⟨packets.length - 1, by omega⟩
    rw [hn] at hdrop hle ⊢
    rw [sampleLoop]
    by_cases h2 : (s.sampled smp hw).skip ≤ n + 1 - s.skip
    · have hle2 : (sampler smp hw).skip (s.sampled smp hw) ≤ (packets.drop s.skip).length :=
        h2.trans hdrop.ge
      have hget2 : packets[(s.sampled smp hw).skip - 1]?
          = some (packets.get ⟨(s.sampled smp hw).skip - 1, by omega⟩) :=
        List.getElem?_eq_getElem _
      rw [dif_pos h2, (sampler smp hw).perItem_of_le (s := s.sampled smp hw) hle2]
      simp only [hget2, Option.toList_some, List.singleton_append, List.cons.injEq]
      refine iff_of_false ?_ (by omega)
      rintro ⟨heq, -⟩
      have hskip2 : (sampler smp hw).skip (s.sampled smp hw) = (s.sampled smp hw).skip := rfl
      simp only [List.get_eq_getElem, List.getElem_drop, hskip2] at heq
      have hidx := (List.Nodup.getElem_inj_iff hnodup).1 heq
      omega
    · rw [dif_neg h2, (sampler smp hw).perItem_of_lt (s := s.sampled smp hw)
        (by rw [hdrop]; exact not_le.1 h2)]
      exact iff_of_true rfl (by omega)

/-- What a frame does to the samplers: that of the interface of the first packet lets all
packets pass. -/
theorem node_samplers (samplers : ℕ → PerIfSampler) (i : ℕ) :
    (sflowNodeIngressEgress smp hwIf samplers packets).2 i
      = if packets.head?.map hwIf = some i then
          (PerIfSampler.tick smp i)^[packets.length] (samplers i)
        else samplers i := by
  cases packets with
  | nil => rfl
  | cons first rest =>
    show Function.update samplers (hwIf first)
      (sampleFrame smp (hwIf first) (first :: rest) (samplers (hwIf first))).2 i = _
    rw [(sampleFrame_spec smp (hwIf first) (first :: rest) (samplers (hwIf first))).1,
      List.head?_cons, Option.map_some]
    by_cases hi : hwIf first = i
    · subst hi
      rw [Function.update_self, if_pos rfl]
    · rw [Function.update_of_ne (Ne.symm hi), if_neg (fun h => hi (Option.some.inj h))]

/-! ## Frames of one interface -/

/-- A frame of the packets of one interface. -/
theorem node_of_interface (samplers : ℕ → PerIfSampler) {i : ℕ}
    (hone : ∀ a ∈ packets, hwIf a = i) :
    (sflowNodeIngressEgress smp hwIf samplers packets).1.map Sample.packet
        = (sampleFrame smp i packets (samplers i)).1 ∧
      (sflowNodeIngressEgress smp hwIf samplers packets).2
        = Function.update samplers i ((PerIfSampler.tick smp i)^[packets.length] (samplers i)) := by
  unfold sflowNodeIngressEgress
  cases hp : packets with
  | nil =>
    have hpos := (samplers i).skip_pos
    refine ⟨?_, (Function.update_eq_self i samplers).symm⟩
    simp [sampleFrame, hpos]
  | cons first rest =>
    have hfirst : hwIf first = i := hone first (by rw [hp]; exact List.mem_cons_self)
    simp only [List.head?_cons, hfirst, List.map_map, Function.comp_def, List.map_id']
    refine ⟨trivial, ?_⟩
    rw [(sampleFrame_spec smp i (first :: rest) (samplers i)).1]

/-- The samples of a run on one interface: right, frame by frame, exactly if they are
right; and the samplers in any case. -/
theorem run_of_interface {i : ℕ} :
    ∀ {frames : List (List α)} (samplers : ℕ → PerIfSampler),
      (∀ a ∈ frames.flatten, hwIf a = i) → frames.flatten.Nodup →
      ((sflowRun smp hwIf samplers frames).1.map Sample.packet
          = (sampler smp i).perItem (samplers i) frames.flatten ↔
        (sampler smp i).AtMostOnePerChunk (samplers i) frames) ∧
      (sflowRun smp hwIf samplers frames).2 = Function.update samplers i
        ((PerIfSampler.tick smp i)^[frames.flatten.length] (samplers i)) := by
  intro frames
  induction frames with
  | nil =>
    intro samplers _ _
    refine ⟨iff_of_true rfl ((sampler smp i).atMostOnePerChunk_nil _), ?_⟩
    exact (Function.update_eq_self i samplers).symm
  | cons packets frames ih =>
    intro samplers hone hnodup
    rw [List.flatten_cons] at hone hnodup
    -- the first frame by the loop, the others from the sampler that it leaves
    obtain ⟨hsamples, hstate⟩ := node_of_interface smp hwIf packets samplers
      fun a ha => hone a (List.mem_append_left _ ha)
    obtain ⟨-, -, hlen⟩ := sampleFrame_spec smp i packets (samplers i)
    obtain ⟨hiff, hstate'⟩ := ih (sflowNodeIngressEgress smp hwIf samplers packets).2
      (fun a ha => hone a (List.mem_append_right _ ha)) (List.nodup_append.1 hnodup).2.1
    rw [hstate] at hiff hstate'
    simp only [Function.update_self] at hiff hstate'
    simp only [sflowRun, List.map_append, hsamples, List.flatten_cons]
    rw [(sampler smp i).perItem_append, (sampler smp i).atMostOnePerChunk_cons,
      ← sampleFrame_eq_iff smp i packets (List.nodup_append.1 hnodup).1]
    refine ⟨?_, ?_⟩
    · -- every frame gives as many samples as it should, so none can stand for another
      rw [hstate]
      constructor
      · intro heq
        obtain ⟨hframe, hrest⟩ := List.append_inj heq hlen
        exact ⟨hframe, hiff.1 hrest⟩
      · rintro ⟨hframe, hrest⟩
        rw [hframe, hiff.2 hrest]
        rfl
    · rw [hstate, hstate', Function.update_idem, List.length_append, Nat.add_comm,
        Function.iterate_add_apply]

/-- **Sampling does not depend on batching exactly if no frame has two samples.**  For two
ways to cut the packets of one interface into frames: both sample the packets at the
positions of the skips, and leave the same samplers, if and only if in both no frame holds
two of these positions.  The packets are different, so that a sample says which one it is. -/
theorem sampling_batching_iff (samplers : ℕ → PerIfSampler) {i : ℕ} {frames frames' : List (List α)}
    (hcut : frames'.flatten = frames.flatten) (hone : ∀ a ∈ frames.flatten, hwIf a = i)
    (hnodup : frames.flatten.Nodup) :
    ((sflowRun smp hwIf samplers frames).1.map Sample.packet
        = (sampler smp i).itemsAt (samplers i) frames.flatten ∧
      (sflowRun smp hwIf samplers frames').1.map Sample.packet
        = (sampler smp i).itemsAt (samplers i) frames.flatten ∧
      (sflowRun smp hwIf samplers frames').2 = (sflowRun smp hwIf samplers frames).2) ↔
    (sampler smp i).AtMostOnePerChunk (samplers i) frames ∧
      (sampler smp i).AtMostOnePerChunk (samplers i) frames' := by
  obtain ⟨hiff, hstate⟩ := run_of_interface smp hwIf samplers hone hnodup
  have hone' : ∀ a ∈ frames'.flatten, hwIf a = i := by
    rw [hcut]
    exact hone
  have hnodup' : frames'.flatten.Nodup := by
    rw [hcut]
    exact hnodup
  obtain ⟨hiff', hstate'⟩ := run_of_interface smp hwIf samplers hone' hnodup'
  rw [hcut] at hiff' hstate'
  rw [(sampler smp i).itemsAt_eq_perItem, hstate, hstate', hiff, hiff']
  simp only [and_true]

end Node

/-- Every packet is sampled. -/
def everyPacket : SflowMain where
  samplingN := 1
  perInterfaceData := fun _ => 0
  randomU32 := fun seed => (1664525 * seed + 1013904223, 1664525 * seed + 1013904223)

/-- The next packet is sampled. -/
def nextPacket : PerIfSampler := ⟨1, 0, 1, Nat.one_pos⟩

/-- In a frame of two packets the first is sampled twice; cut in two frames, each is
sampled once. -/
theorem second_sample_wrong :
    (sflowRun everyPacket (fun _ : ℕ => 0) (fun _ => nextPacket) [[10, 11]]).1.map Sample.packet
        = [10, 10] ∧
      (sflowRun everyPacket (fun _ : ℕ => 0) (fun _ => nextPacket) [[10], [11]]).1.map
        Sample.packet = [10, 11] ∧
      (sampler everyPacket 0).itemsAt nextPacket [10, 11] = [10, 11] := by
  refine ⟨by decide, by decide, ?_⟩
  rw [SkipMachine.itemsAt_eq_perItem]
  decide

/-- One in three packets is sampled. -/
def thirdPacket : SflowMain where
  samplingN := 3
  perInterfaceData := fun _ => 0
  randomU32 := fun seed => (1664525 * seed + 1013904223, 1664525 * seed + 1013904223)

/-- The packet after the next one is sampled. -/
def secondPacket : PerIfSampler := ⟨2, 0, 1, Nat.two_pos⟩

/-- Six packets in two frames, and in three: the second and the last one are sampled. -/
theorem sampling_batching_frames :
    (sflowRun thirdPacket (fun _ : ℕ => 0) (fun _ => secondPacket)
        [[10, 11, 12], [13, 14, 15]]).1.map Sample.packet
      = (sampler thirdPacket 0).itemsAt secondPacket [10, 11, 12, 13, 14, 15] ∧
    (sflowRun thirdPacket (fun _ : ℕ => 0) (fun _ => secondPacket)
        [[10, 11], [12, 13], [14, 15]]).1.map Sample.packet
      = (sampler thirdPacket 0).itemsAt secondPacket [10, 11, 12, 13, 14, 15] ∧
    (sflowRun thirdPacket (fun _ : ℕ => 0) (fun _ => secondPacket)
        [[10, 11], [12, 13], [14, 15]]).2
      = (sflowRun thirdPacket (fun _ : ℕ => 0) (fun _ => secondPacket)
        [[10, 11, 12], [13, 14, 15]]).2 := by
  have hcut : ([[10, 11], [12, 13], [14, 15]] : List (List ℕ)).flatten
      = [[10, 11, 12], [13, 14, 15]].flatten := rfl
  have hone : ∀ a ∈ ([[10, 11, 12], [13, 14, 15]] : List (List ℕ)).flatten, (fun _ => 0) a = 0 :=
    fun _ _ => rfl
  refine (sampling_batching_iff thirdPacket (fun _ : ℕ => 0) (fun _ => secondPacket) hcut hone
    (by decide)).2 ?_
  simp only [SkipMachine.atMostOnePerChunk_cons]
  exact ⟨⟨by decide, by decide, SkipMachine.atMostOnePerChunk_nil _ _⟩,
    by decide, by decide, by decide, SkipMachine.atMostOnePerChunk_nil _ _⟩

end Sflow
