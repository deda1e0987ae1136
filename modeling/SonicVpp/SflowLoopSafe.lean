/-
# The sampling loop does no harm

`sflow_node_ingress_egress` once more, now as C computes it: `skip`, `pool` and `pkts` are
32-bit numbers, `from` is an array, and whatever would go wrong (a packet that is not
there, a subtraction that wraps, a remainder by 0, a loop without end) is a fault.  All
rests on `skip` not being 0, and that on every sampler of a sampled interface having been
reset.

`sampling_loop_safe` says that there is no fault after any history, and that the loop then
does to the sampler what `sflowFrame` says.
-/
import SonicVpp.SflowControl

open RunInvariant

namespace Sflow

/-! ## Faults -/

/-- What can go wrong.  `running` says that the loop has not come to its end. -/
inductive LoopFault
  | outOfBounds
  | underflow
  | modulusByZero
  | running
  deriving DecidableEq, Repr

/-- `a - b`, where `b` should not be larger. -/
def checkedSub (a b : BitVec 32) : Except LoopFault (BitVec 32) :=
  if a < b then .error .underflow else .ok (a - b)

/-- `a % b`, where `b` should not be 0. -/
def checkedMod (a b : BitVec 32) : Except LoopFault (BitVec 32) :=
  if b = 0 then .error .modulusByZero else .ok (a % b)

/-- `from[index]`. -/
def fetch {α : Type} (packets : List α) (index : BitVec 32) : Except LoopFault α :=
  match packets[index.toNat]? with
  | none => .error .outOfBounds
  | some packet => .ok packet

/-! ## The node -/

/-- `sflow_per_if_sampler_t` as it is in memory. -/
@[ext] structure RawSampler where
  skip : BitVec 32
  pool : BitVec 32
  seed : BitVec 32
  deriving DecidableEq, Repr

/-- A sampler in memory. -/
def PerIfSampler.raw (s : PerIfSampler) : RawSampler := ⟨BitVec.ofNat 32 s.skip, s.pool, s.seed⟩

section Raw

variable {α : Type} {n : ℕ} (smp : SflowMain) (hw : ℕ) (packets : List α)

/-- `sflow_next_random_skip_if`, with the new seed. -/
def checkedNextRandomSkipIf (seed : BitVec 32) : Except LoopFault (BitVec 32 × BitVec 32) :=
  if smp.effectiveN hw ≤ 1 then return (1, seed)
  else do
    let lim := 2 * smp.effectiveN hw - 1
    let r := smp.randomU32 seed
    let rest ← checkedMod r.1 lim
    return (rest + 1, r.2)

/-- `while (pkts >= smpif->skip)`: the packets it reaches in for, what is left of `pkts`, and
the sampler. -/
def checkedLoop : ℕ → BitVec 32 → RawSampler →
    Except LoopFault (List α × BitVec 32 × RawSampler)
  | 0, _, _ => .error .running
  | fuel + 1, pkts, smpif =>
    if smpif.skip ≤ pkts then do
      let index ← checkedSub smpif.skip 1
      let bN ← fetch packets index
      let left ← checkedSub pkts smpif.skip
      let next ← checkedNextRandomSkipIf smp hw smpif.seed
      let rest ← checkedLoop fuel left ⟨next.1, smpif.pool + smpif.skip, next.2⟩
      return (bN :: rest.1, rest.2)
    else return ([], pkts, smpif)

/-- What the node does with a frame, with the sampler of the interface `hw`. -/
def checkedFrame (fuel : ℕ) (smpif : RawSampler) : Except LoopFault (List α × RawSampler) :=
  let pkts := BitVec.ofNat 32 packets.length
  if pkts < smpif.skip then do
    let skip ← checkedSub smpif.skip pkts
    return ([], { smpif with skip := skip, pool := smpif.pool + pkts })
  else do
    let (samples, left, smpif) ← checkedLoop smp hw packets fuel pkts smpif
    let skip ← checkedSub smpif.skip left
    return (samples, { smpif with skip := skip, pool := smpif.pool + left })

/-- The sampler of an interface on a thread, as it is in memory. -/
def SflowState.rawSampler (s : SflowState n) (thread : Fin n) (hw : ℕ) : RawSampler :=
  match (s.perThreadData thread).perInterface hw with
  | none => ⟨0, 0, 0⟩
  | some smpif => smpif.raw

/-- `sflow_node_ingress_egress` on one thread: the packets that are sampled, and the sampler
it leaves. -/
def checkedNode (up : SflowUpstream α) (s : SflowState n) (thread : Fin n) (fuel : ℕ) :
    Except LoopFault (List α × RawSampler) := do
  let first ← fetch packets 0
  let hw := up.hwIf first
  -- `vec_elt_at_index` on the records, and on the samplers of the thread
  if s.vecLen ≤ hw ∨ (s.perThreadData thread).vecLen ≤ hw then
    throw .outOfBounds
  checkedFrame (s.rates up) hw packets fuel (s.rawSampler thread hw)

/-! ## No fault in one frame -/

/-- A difference that does not wrap. -/
theorem checkedSub_ofNat {a b : ℕ} (hle : b ≤ a) (ha : a < 2 ^ 32) :
    checkedSub (BitVec.ofNat 32 a) (BitVec.ofNat 32 b) = .ok (BitVec.ofNat 32 (a - b)) := by
  have hlt : ¬ BitVec.ofNat 32 a < BitVec.ofNat 32 b := by
    rw [BitVec.lt_def, BitVec.toNat_ofNat, BitVec.toNat_ofNat, Nat.mod_eq_of_lt ha,
      Nat.mod_eq_of_lt (hle.trans_lt ha)]
    omega
  unfold checkedSub
  rw [if_neg hlt]
  congr 1
  apply BitVec.eq_of_toNat_eq
  rw [BitVec.toNat_sub, BitVec.toNat_ofNat, BitVec.toNat_ofNat, BitVec.toNat_ofNat]
  omega

/-- The limit is not 0. -/
theorem checkedNextRandomSkipIf_eq (seed : BitVec 32) :
    checkedNextRandomSkipIf smp hw seed = .ok (sflowNextRandomSkipIf smp hw seed) := by
  unfold checkedNextRandomSkipIf sflowNextRandomSkipIf
  by_cases hN : smp.effectiveN hw ≤ 1
  · rw [if_pos hN, if_pos hN]
    rfl
  · have hlim : 2 * smp.effectiveN hw - 1 ≠ 0 := by
      intro hzero
      have hpos := lim_pos (smp.effectiveN hw)
      rw [hzero] at hpos
      exact absurd hpos (by decide)
    rw [if_neg hN, if_neg hN]
    simp only [checkedMod, if_neg hlim]
    rfl

/-- A packet of the frame. -/
theorem fetch_of_lt {index : ℕ} (h : index < packets.length) (hlen : packets.length < 2 ^ 32) :
    fetch packets (BitVec.ofNat 32 index) = .ok (packets.get ⟨index, h⟩) := by
  unfold fetch
  rw [BitVec.toNat_ofNat, Nat.mod_eq_of_lt (h.trans hlen), List.getElem?_eq_getElem h]
  rfl

/-- A sampler whose `skip` fits in 32 bits, after a sample. -/
theorem sampled_raw (s : PerIfSampler) :
    (s.sampled smp hw).raw = ⟨(sflowNextRandomSkipIf smp hw s.seed).1,
      s.pool + BitVec.ofNat 32 s.skip, (sflowNextRandomSkipIf smp hw s.seed).2⟩ := by
  apply RawSampler.ext
  · exact BitVec.ofNat_toNat _ _
  · rfl
  · rfl

/-- Drawn skips fit in 32 bits. -/
theorem sampled_skip_lt (s : PerIfSampler) : (s.sampled smp hw).skip < 2 ^ 32 :=
  (sflowNextRandomSkipIf smp hw s.seed).1.isLt

/-- **The loop is that of the model.**  By induction on the fuel: each round takes `skip ≥ 1`
packets from those that are left. -/
theorem checkedLoop_eq (hlen : packets.length < 2 ^ 32) :
    ∀ (fuel pkts : ℕ) (s : PerIfSampler), pkts < fuel → pkts ≤ packets.length → s.skip < 2 ^ 32 →
      ∃ samples left, ∃ s' : PerIfSampler, ∃ h : left < s'.skip, s'.skip < 2 ^ 32 ∧
        checkedLoop smp hw packets fuel (BitVec.ofNat 32 pkts) s.raw
          = .ok (samples, BitVec.ofNat 32 left, s'.raw) ∧
        sampleLoop smp hw packets fuel pkts s = (samples, s'.advance left h) := by
  intro fuel
  induction fuel with
  | zero =>
    intro pkts s h
    exact absurd h (Nat.not_lt_zero _)
  | succ fuel ih =>
    intro pkts s hfuel hle hskip
    have hpos := s.skip_pos
    -- on numbers that fit in a word the comparison is that of the model
    have hcond : s.raw.skip ≤ BitVec.ofNat 32 pkts ↔ s.skip ≤ pkts := by
      show BitVec.ofNat 32 s.skip ≤ BitVec.ofNat 32 pkts ↔ _
      rw [BitVec.le_def, BitVec.toNat_ofNat, BitVec.toNat_ofNat, Nat.mod_eq_of_lt hskip,
        Nat.mod_eq_of_lt (hle.trans_lt hlen)]
    rw [checkedLoop, sampleLoop]
    by_cases h : s.skip ≤ pkts
    · obtain ⟨samples, left, s', hleft, hskip', hrest, hmodel⟩ :=
        ih (pkts - s.skip) (s.sampled smp hw) (by omega) (by omega) (sampled_skip_lt smp hw s)
      -- none of the four steps of a round is a fault
      have hindex : checkedSub s.raw.skip 1 = .ok (BitVec.ofNat 32 (s.skip - 1)) :=
        checkedSub_ofNat hpos hskip
      have hsub : checkedSub (BitVec.ofNat 32 pkts) s.raw.skip
          = .ok (BitVec.ofNat 32 (pkts - s.skip)) :=
        checkedSub_ofNat h (by omega)
      have hget : packets[s.skip - 1]? = some (packets.get ⟨s.skip - 1, by omega⟩) :=
        List.getElem?_eq_getElem _
      have hfetch := fetch_of_lt packets (show s.skip - 1 < packets.length by omega) hlen
      have hdraw : checkedNextRandomSkipIf smp hw s.raw.seed
          = .ok (sflowNextRandomSkipIf smp hw s.seed) := checkedNextRandomSkipIf_eq smp hw s.seed
      refine ⟨packets.get ⟨s.skip - 1, by omega⟩ :: samples, left, s', hleft, hskip', ?_, ?_⟩
      · have hloop : checkedLoop smp hw packets fuel (BitVec.ofNat 32 (pkts - s.skip))
            ⟨(sflowNextRandomSkipIf smp hw s.seed).1, s.raw.pool + s.raw.skip,
              (sflowNextRandomSkipIf smp hw s.seed).2⟩
            = .ok (samples, BitVec.ofNat 32 left, s'.raw) := by
          rw [sampled_raw] at hrest
          exact hrest
        rw [if_pos (hcond.2 h)]
        simp only [hindex, hfetch, hsub, hdraw, hloop, bind, Except.bind]
        rfl
      · rw [dif_pos h, hmodel]
        simp only [hget, Option.toList_some, List.singleton_append]
    · refine ⟨[], pkts, s, not_le.1 h, hskip, ?_, ?_⟩
      · rw [if_neg fun hc => h (hcond.1 hc)]
        rfl
      · rw [dif_neg h]

/-- A sampler in memory lets packets pass. -/
theorem advance_raw (s : PerIfSampler) {pkts : ℕ} (h : pkts < s.skip) (hskip : s.skip < 2 ^ 32) :
    checkedSub s.raw.skip (BitVec.ofNat 32 pkts) = .ok (s.advance pkts h).raw.skip ∧
      s.raw.pool + BitVec.ofNat 32 pkts = (s.advance pkts h).raw.pool :=
  ⟨checkedSub_ofNat h.le hskip, rfl⟩

/-- **A frame does not fail, and does what it does in the model.** -/
theorem checkedFrame_eq (hlen : packets.length < 2 ^ 32) {fuel : ℕ} (hfuel : packets.length < fuel)
    {s : PerIfSampler} (hskip : s.skip < 2 ^ 32) :
    ∃ samples, checkedFrame smp hw packets fuel s.raw
      = .ok (samples, ((PerIfSampler.tick smp hw)^[packets.length] s).raw) := by
  have hcond : BitVec.ofNat 32 packets.length < s.raw.skip ↔ packets.length < s.skip := by
    show BitVec.ofNat 32 packets.length < BitVec.ofNat 32 s.skip ↔ _
    rw [BitVec.lt_def, BitVec.toNat_ofNat, BitVec.toNat_ofNat, Nat.mod_eq_of_lt hlen,
      Nat.mod_eq_of_lt hskip]
  unfold checkedFrame
  by_cases h : packets.length < s.skip
  · obtain ⟨hsub, hpool⟩ := advance_raw s h hskip
    refine ⟨[], ?_⟩
    simp only [if_pos (hcond.2 h), hsub, hpool, bind, Except.bind, tick_iterate smp hw s h]
    rfl
  · obtain ⟨samples, left, s', hleft, hskip', hloop, hmodel⟩ :=
      checkedLoop_eq smp hw packets hlen fuel packets.length s hfuel le_rfl hskip
    obtain ⟨hsub, hpool⟩ := advance_raw s' hleft hskip'
    have hstate := (sampleLoop_spec smp hw packets fuel packets.length s hfuel le_rfl).1
    rw [hmodel] at hstate
    refine ⟨samples, ?_⟩
    simp only [if_neg fun hc => h (hcond.1 hc), hloop, hsub, hpool, bind, Except.bind, ← hstate]
    rfl

end Raw

/-! ## Skips in every run -/

section Runs

variable {α : Type} {n : ℕ} (up : SflowUpstream α)

/-- Every skip fits in 32 bits. -/
def SkipsFitWord (s : SflowState n) : Prop :=
  ∀ t hw smpif, (s.perThreadData t).perInterface hw = some smpif → smpif.skip < 2 ^ 32

/-- It does after any number of packets. -/
theorem tick_iterate_skip_lt (smp : SflowMain) (hw : ℕ) {smpif : PerIfSampler}
    (h : smpif.skip < 2 ^ 32) (pkts : ℕ) :
    ((PerIfSampler.tick smp hw)^[pkts] smpif).skip < 2 ^ 32 := by
  induction pkts with
  | zero => exact h
  | succ pkts ih =>
    rw [Function.iterate_succ_apply']
    unfold PerIfSampler.tick
    split
    · exact (Nat.sub_le _ _).trans_lt ih
    · exact sampled_skip_lt smp hw _

/-- **Every event leaves skips that fit.** -/
theorem SkipsFitWord.step {s : SflowState n} (hfit : SkipsFitWord s) (hs : ControlOk s)
    (e : SflowEvent α n) : SkipsFitWord (sflowStep up s e) := by
  intro t hw smpif hsmp
  by_cases he : ∃ thread packets, e = .frame thread packets
  · obtain ⟨thread, packets, rfl⟩ := he
    have hframe := sflowFrame_perInterface up s thread t packets hw
    rw [show ((sflowFrame up s thread packets).perThreadData t).perInterface hw = some smpif
      from hsmp] at hframe
    split at hframe
    · obtain ⟨smpif₀, hsmp₀, rfl⟩ := Option.map_eq_some_iff.1 hframe.symm
      exact tick_iterate_skip_lt _ hw (hfit t hw smpif₀ hsmp₀) _
    · exact hfit t hw smpif hframe.symm
  · have hre := sflowStep_reseeded up hs (e := e) fun t p h => he ⟨t, p, h⟩
    by_cases hR : Resets up s e hw
    · obtain rfl := Option.some.inj ((hre.reset t hw hR).symm.trans hsmp)
      exact BitVec.isLt _
    · exact hfit t hw smpif ((hre.keep t hw hR).symm.trans hsmp)

/-- And so it is after every history. -/
theorem safe_run (samplingN samplingD dropM : BitVec 32) (es : List (SflowEvent α n)) :
    ControlOk (run (sflowStep up) (SflowState.init n samplingN samplingD dropM) es) ∧
      SkipsFitWord (run (sflowStep up) (SflowState.init n samplingN samplingD dropM) es) := by
  refine run_invariant (sflowStep up) (fun _ _ => True) (fun s => ControlOk s ∧ SkipsFitWord s)
    ?_ ?_ (allowed_of_forall (sflowStep up) fun _ _ => trivial)
  · rintro s e ⟨hs, hfit⟩ -
    exact ⟨controlOk_step up hs e, hfit.step up hs e⟩
  · refine ⟨controlOk_init samplingN samplingD dropM, ?_⟩
    intro t hw smpif hsmp
    exact absurd hsmp (Option.some_ne_none smpif).symm

/-- One frame, where every sampled interface has its samplers. -/
theorem checkedNode_spec {s : SflowState n} (hs : ControlOk s) (hfit : SkipsFitWord s)
    (thread : Fin n) (first : α) (rest : List α) (hlen : (first :: rest).length < 2 ^ 32)
    (hon : s.enabled (up.hwIf first) = true) {fuel : ℕ} (hfuel : (first :: rest).length < fuel) :
    ∃ samples smpif,
      (s.perThreadData thread).perInterface (up.hwIf first) = some smpif ∧
      ((PerIfSampler.tick (s.rates up) (up.hwIf first))^[(first :: rest).length] smpif).skip
        < 2 ^ 32 ∧
      checkedNode (first :: rest) up s thread fuel
        = .ok (samples, ((PerIfSampler.tick (s.rates up) (up.hwIf first))^[(first :: rest).length]
          smpif).raw) := by
  obtain ⟨smpif, hsmp⟩ := hs.sampler _ hon thread
  have hskip := hfit thread _ smpif hsmp
  obtain ⟨samples, hframe⟩ := checkedFrame_eq (s.rates up) (up.hwIf first) (first :: rest) hlen
    hfuel hskip
  refine ⟨samples, smpif, hsmp, tick_iterate_skip_lt _ _ hskip _, ?_⟩
  -- both vectors are long enough: the sampler could not be there otherwise
  have hknown : ¬ (s.vecLen ≤ up.hwIf first ∨ (s.perThreadData thread).vecLen ≤ up.hwIf first) := by
    rintro (hle | hle)
    · exact absurd (hs.known _ hon).2 (not_lt.2 hle)
    · exact Option.some_ne_none smpif (hsmp.symm.trans (hs.covered thread _ hle))
  have hraw : s.rawSampler thread (up.hwIf first) = smpif.raw := by
    unfold SflowState.rawSampler
    rw [hsmp]
  show (if _ then _ else _) = _
  rw [if_neg hknown, hraw]
  exact hframe

/-- **The sampling loop is safe for every rate.**  After any history, a frame whose first
packet is of a sampled interface is passed without a fault; the sampler is left with a skip
of at least 1 and with all packets counted.  If all packets are of sampled interfaces, as
they are when they reach the node, it is the sampler that the history goes on with. -/
theorem sampling_loop_safe (samplingN samplingD dropM : BitVec 32) (es : List (SflowEvent α n))
    (thread : Fin n) (first : α) (rest : List α) (hlen : (first :: rest).length < 2 ^ 32)
    (hon : (run (sflowStep up) (SflowState.init n samplingN samplingD dropM) es).enabled
      (up.hwIf first) = true) (fuel : ℕ) (hfuel : (first :: rest).length < fuel) :
    let s := run (sflowStep up) (SflowState.init n samplingN samplingD dropM) es
    ∃ samples smpif,
      checkedNode (first :: rest) up s thread fuel = .ok (samples, smpif) ∧
      1 ≤ smpif.skip ∧
      smpif.pool = (s.rawSampler thread (up.hwIf first)).pool
        + BitVec.ofNat 32 (first :: rest).length ∧
      (s.given up (first :: rest) = first :: rest →
        (sflowStep up s (.frame thread (first :: rest))).rawSampler thread (up.hwIf first)
          = smpif) := by
  obtain ⟨hs, hfit⟩ := safe_run up samplingN samplingD dropM es
  intro s
  obtain ⟨samples, smpif, hsmp, hskip, hnode⟩ := checkedNode_spec up hs hfit thread first rest hlen
    hon hfuel
  -- the sampler after as many ticks as there are packets
  have hpos := ((PerIfSampler.tick (s.rates up) (up.hwIf first))^[(first :: rest).length]
    smpif).skip_pos
  refine ⟨samples, _, hnode, ?_, ?_, ?_⟩
  · show 1 ≤ BitVec.ofNat 32 _
    rw [BitVec.le_def, BitVec.toNat_ofNat, Nat.mod_eq_of_lt hskip]
    exact hpos
  · unfold SflowState.rawSampler
    rw [hsmp]
    exact pool_iterate (s.rates up) (up.hwIf first) _ smpif
  · intro hgiven
    have hnext := sflowFrame_perInterface up s thread thread (first :: rest) (up.hwIf first)
    rw [hgiven, if_pos ⟨rfl, rfl⟩, hsmp] at hnext
    show (sflowFrame up s thread (first :: rest)).rawSampler thread (up.hwIf first) = _
    unfold SflowState.rawSampler
    rw [hnext]
    rfl

end Runs

/-- Interface 2 is sampled at a rate whose limit wraps. -/
theorem sampling_loop_safe_wrapped :
    let s := run (sflowStep allHardware) (SflowState.init 1 1000 1 0)
      [.enableDisable 2 true, .samplingRateSet 2 0x80000001]
    ∃ samples smpif, checkedNode [20, 21, 22] allHardware s 0 4 = .ok (samples, smpif) ∧
      1 ≤ smpif.skip := by
  obtain ⟨samples, smpif, hnode, hskip, -⟩ := sampling_loop_safe (n := 1) allHardware 1000 1 0
    [.enableDisable 2 true, .samplingRateSet 2 0x80000001] 0 20 [21, 22] (by decide) (by decide)
    4 (by decide)
  exact ⟨samples, smpif, hnode, hskip⟩

end Sflow
