/-
# Drop counters of bond members (`0008-bond-drop-stats-…-member-interface.patch`)

`bond-input` writes the member a packet came in on to `orig_rx_sw_if_index` when it changes
the RX interface to the bond, and clears the field of all other packets it sees.  A dropped
or punted packet is then counted for its RX interface, the super-interface of that, and the
member in the field.

The field lies in the second cache line of the buffer, which VPP does not write when the
buffer is received into.  So a packet that does not pass `bond-input` has the member of an
earlier packet in it.  `member_drops_exact_iff` says that this is where the counters go
wrong, and nowhere else.
-/
import SonicVpp.RunInvariant

open RunInvariant

namespace Bond

/-! ## Buffers and interfaces -/

/-- What the nodes read of a buffer: `sw_if_index[VLIB_RX]` and `orig_rx_sw_if_index`. -/
structure BondBuffer where
  swIfIndexRx : ℕ
  origRxSwIfIndex : ℕ
  deriving DecidableEq, Repr

/-- The interfaces of VPP: `sup_sw_if_index`, which of a super-interface is the interface
itself. -/
structure SwInterfaces where
  sup : ℕ → ℕ
  sup_sup : ∀ i, sup (sup i) = sup i

/-- `ETHERNET_TYPE_SLOW_PROTOCOLS`, which LACP has. -/
def ethernetTypeSlowProtocols : BitVec 16 := 0x8809

/-- `ETHERNET_TYPE_CDP`. -/
def ethernetTypeCdp : BitVec 16 := 0x2000

/-- `ETHERNET_TYPE_802_1_LLDP`. -/
def ethernetType8021Lldp : BitVec 16 := 0x88cc

/-- The header `bond-input` looks at: is it tagged, the ethertype behind the tags, and
`packet_is_cdp`. -/
structure L2Header where
  tagged : Bool
  ethertype : BitVec 16
  isCdp : Bool

/-- Is the interface changed?  "Let some layer2 packets pass through." -/
def L2Header.rewritten (eth : L2Header) : Bool :=
  if eth.tagged then
    eth.ethertype != ethernetTypeSlowProtocols && eth.ethertype != ethernetTypeCdp &&
      eth.ethertype != ethernetType8021Lldp
  else
    eth.ethertype != ethernetTypeSlowProtocols && !eth.isCdp &&
      eth.ethertype != ethernetType8021Lldp

/-! ## The nodes -/

/-- `bond_sw_if_idx_rewrite`. -/
def bondSwIfIdxRewrite (b : BondBuffer) (eth : L2Header) (bondSwIfIndex : ℕ) : BondBuffer :=
  if eth.rewritten then
    { swIfIndexRx := bondSwIfIndex, origRxSwIfIndex := b.swIfIndexRx }
  else b

/-- `bond_input_node`, for one buffer.  The interface is that of the member if the bond is
down. -/
def bondInputNode (b : BondBuffer) (eth : L2Header) (bondSwIfIndex : ℕ) : BondBuffer :=
  bondSwIfIdxRewrite { b with origRxSwIfIndex := 0 } eth bondSwIfIndex

section Drops

variable (ifs : SwInterfaces)

/-- The member that the patch counts for a buffer, `if (orig && orig != sw_if_index[0])`. -/
def origCount (swIfIndex : ℕ) (ob : BondBuffer) : Option (ℕ × ℕ) :=
  if ob.origRxSwIfIndex ≠ 0 ∧ ob.origRxSwIfIndex ≠ swIfIndex then some (ob.origRxSwIfIndex, 1)
  else none

/-- The loop of `interface_drop_punt`: the increments of the counters, for one run of equal
RX interfaces after the other, of which `nLeft` buffers are left.  The fuel is `nLeft`. -/
def dropPuntLoop (bufs : List BondBuffer) : ℕ → ℕ → List (ℕ × ℕ)
  | 0, _ => []
  | fuel + 1, nLeft =>
    match bufs.drop (bufs.length - nLeft) with
    | [] => []
    | b :: rest =>
      let count := ((b :: rest).takeWhile fun b' => b'.swIfIndexRx = b.swIfIndexRx).length
      let nLeft := nLeft - count
      let origOff := bufs.length - nLeft - count
      (b.swIfIndexRx, count) ::
        (if ifs.sup b.swIfIndexRx ≠ b.swIfIndexRx then [(ifs.sup b.swIfIndexRx, count)] else []) ++
        ((bufs.drop origOff).take count).filterMap (origCount b.swIfIndexRx) ++
        dropPuntLoop bufs fuel nLeft

/-- `interface_drop_punt`: the increments of the counters of one kind. -/
def interfaceDropPunt (bufs : List BondBuffer) : List (ℕ × ℕ) :=
  dropPuntLoop ifs bufs bufs.length bufs.length

/-- What the increments add to the counter of an interface. -/
def added (increments : List (ℕ × ℕ)) (i : ℕ) : ℕ :=
  (increments.map fun inc => if inc.1 = i then inc.2 else 0).sum

/-! ## Packet by packet -/

/-- 1 if it is so. -/
def once (p : Prop) [Decidable p] : ℕ := if p then 1 else 0

/-- What one buffer adds to the counter of an interface. -/
def perBuffer (b : BondBuffer) (i : ℕ) : ℕ :=
  once (b.swIfIndexRx = i) +
    once (ifs.sup b.swIfIndexRx ≠ b.swIfIndexRx ∧ ifs.sup b.swIfIndexRx = i) +
    once (b.origRxSwIfIndex ≠ 0 ∧ b.origRxSwIfIndex ≠ b.swIfIndexRx ∧ b.origRxSwIfIndex = i)

/-! ### The steps of the loop -/

/-- What the loop does, in order: it increments a counter, or it reads a buffer of the frame. -/
inductive DropPuntStep
  | increment (swIfIndex count : ℕ)
  | read (index : ℕ)
  deriving DecidableEq, Repr

/-- The increment for the member in a buffer. -/
def memberStep (swIfIndex : ℕ) (ob : BondBuffer) : List DropPuntStep :=
  if ob.origRxSwIfIndex ≠ 0 ∧ ob.origRxSwIfIndex ≠ swIfIndex then
    [.increment ob.origRxSwIfIndex 1]
  else []

/-- The body of `for (u32 j = 0; j < count; j++)`, for the index `orig_off + j`. -/
def readStep (bufs : List BondBuffer) (swIfIndex index : ℕ) : List DropPuntStep :=
  .read index :: (bufs[index]?.elim [] (memberStep swIfIndex))

/-- The increments of one run, without the members. -/
def runSteps (sup : ℕ → ℕ) (swIfIndex count : ℕ) : List DropPuntStep :=
  .increment swIfIndex count ::
    (if sup swIfIndex ≠ swIfIndex then [.increment (sup swIfIndex) count] else [])

/-- The loop of `interface_drop_punt`, step by step. -/
def dropPuntSteps (sup : ℕ → ℕ) (bufs : List BondBuffer) : ℕ → ℕ → List DropPuntStep
  | 0, _ => []
  | fuel + 1, nLeft =>
    match bufs.drop (bufs.length - nLeft) with
    | [] => []
    | b :: rest =>
      let count := ((b :: rest).takeWhile fun b' => b'.swIfIndexRx = b.swIfIndexRx).length
      let nLeft := nLeft - count
      let origOff := bufs.length - nLeft - count
      runSteps sup b.swIfIndexRx count ++
        (List.range count).flatMap (fun j => readStep bufs b.swIfIndexRx (origOff + j)) ++
        dropPuntSteps sup bufs fuel nLeft

/-- The buffers that are read. -/
def reads (steps : List DropPuntStep) : List ℕ :=
  steps.filterMap fun
    | .read index => some index
    | .increment _ _ => none

/-- The increments. -/
def increments (steps : List DropPuntStep) : List (ℕ × ℕ) :=
  steps.filterMap fun
    | .read _ => none
    | .increment swIfIndex count => some (swIfIndex, count)

/-- The increments by 1 that increments come to. -/
def ones (incs : List (ℕ × ℕ)) : Multiset ℕ :=
  (incs.map fun inc => Multiset.replicate inc.2 inc.1).sum

/-- The increments for one packet: its RX interface, the super-interface of that, and the stamp. -/
def perPacket (sup : ℕ → ℕ) (b : BondBuffer) : Multiset ℕ :=
  {b.swIfIndexRx} + (if sup b.swIfIndexRx ≠ b.swIfIndexRx then {sup b.swIfIndexRx} else 0) +
    (if b.origRxSwIfIndex ≠ 0 ∧ b.origRxSwIfIndex ≠ b.swIfIndexRx then {b.origRxSwIfIndex} else 0)

section Steps

variable (sup : ℕ → ℕ)

theorem reads_append (xs ys : List DropPuntStep) : reads (xs ++ ys) = reads xs ++ reads ys :=
  List.filterMap_append

theorem increments_append (xs ys : List DropPuntStep) :
    increments (xs ++ ys) = increments xs ++ increments ys :=
  List.filterMap_append

theorem ones_append (xs ys : List (ℕ × ℕ)) : ones (xs ++ ys) = ones xs + ones ys := by
  simp [ones]

/-- The steps of the loop on the buffers `left`, the first of which has index `off`: run by run. -/
inductive RunByRun : ℕ → List BondBuffer → List DropPuntStep → Prop
  | nil (off : ℕ) : RunByRun off [] []
  | run {off rx : ℕ} {run left : List BondBuffer} {steps : List DropPuntStep}
      (hrx : ∀ b ∈ run, b.swIfIndexRx = rx) (h : RunByRun (off + run.length) left steps) :
      RunByRun off (run ++ left) (runSteps sup rx run.length ++
        (run.zipIdx off).flatMap (fun x => .read x.2 :: memberStep rx x.1) ++ steps)

/-- Reading the buffers of a run at their indices. -/
theorem flatMap_readStep (bufs : List BondBuffer) (rx : ℕ) :
    ∀ (off : ℕ) (run : List BondBuffer), (∀ j < run.length, bufs[off + j]? = run[j]?) →
      (List.range run.length).flatMap (fun j => readStep bufs rx (off + j))
        = (run.zipIdx off).flatMap fun x => .read x.2 :: memberStep rx x.1 := by
  intro off run
  induction run generalizing off with
  | nil => intro _; rfl
  | cons b run ih =>
    intro hget
    have htail : ∀ j < run.length, bufs[off + 1 + j]? = run[j]? := by
      intro j hj
      have := hget (j + 1) (by simpa using hj)
      rwa [show off + (j + 1) = off + 1 + j by omega, List.getElem?_cons_succ] at this
    have hhead : bufs[off]? = some b := hget 0 (Nat.succ_pos _)
    rw [List.length_cons, List.range_succ_eq_map, List.flatMap_cons, List.flatMap_map,
      List.zipIdx_cons, List.flatMap_cons, ← ih (off + 1) htail, Nat.add_zero]
    congr 1
    · rw [readStep, hhead]
      rfl
    · congr 1
      funext j
      rw [show off + (j + 1) = off + 1 + j by omega]

/-- **The offset that is computed is that of the run.** -/
theorem dropPuntSteps_runByRun (bufs : List BondBuffer) :
    ∀ fuel nLeft, nLeft ≤ fuel → nLeft ≤ bufs.length →
      RunByRun sup (bufs.length - nLeft) (bufs.drop (bufs.length - nLeft))
        (dropPuntSteps sup bufs fuel nLeft) := by
  intro fuel
  induction fuel with
  | zero =>
    intro nLeft hfuel hle
    obtain rfl : nLeft = 0 := by omega
    rw [Nat.sub_zero, List.drop_length]
    exact .nil _
  | succ fuel ih =>
    intro nLeft hfuel hle
    rw [dropPuntSteps]
    cases hdrop : bufs.drop (bufs.length - nLeft) with
    | nil => exact .nil _
    | cons b rest =>
      have hlen : (b :: rest).length = nLeft := by
        rw [← hdrop, List.length_drop]
        omega
      -- the run of equal RX interfaces at the front of what is left
      let run := (b :: rest).takeWhile fun b' => b'.swIfIndexRx = b.swIfIndexRx
      have hrun : run <+: b :: rest := List.takeWhile_prefix _
      have hpos : 0 < run.length := by
        show 0 < ((b :: rest).takeWhile _).length
        rw [List.takeWhile_cons_of_pos (by simp)]
        exact Nat.succ_pos _
      have hcount : run.length ≤ nLeft := hlen ▸ hrun.length_le
      have hoff : bufs.length - (nLeft - run.length) - run.length = bufs.length - nLeft := by omega
      have hrx : ∀ b' ∈ run, b'.swIfIndexRx = b.swIfIndexRx := by
        intro b' hb'
        have hsame : decide (b'.swIfIndexRx = b.swIfIndexRx) = true :=
          List.mem_takeWhile_imp (p := fun b' : BondBuffer => b'.swIfIndexRx = b.swIfIndexRx) hb'
        exact of_decide_eq_true hsame
      obtain ⟨left, hleft⟩ := hrun
      have hdrop' : bufs.drop (bufs.length - nLeft + run.length) = left := by
        rw [← List.drop_drop, hdrop, ← hleft, List.drop_left]
      have hget : ∀ j < run.length, bufs[bufs.length - nLeft + j]? = run[j]? := by
        intro j hj
        rw [← List.getElem?_drop, hdrop, ← hleft, List.getElem?_append_left hj]
      have hrest := ih (nLeft - run.length) (by omega) (by omega)
      rw [show bufs.length - (nLeft - run.length) = bufs.length - nLeft + run.length by omega,
        hdrop'] at hrest
      show RunByRun sup _ _ (runSteps sup b.swIfIndexRx run.length ++
        (List.range run.length).flatMap (fun j => readStep bufs b.swIfIndexRx
          (bufs.length - (nLeft - run.length) - run.length + j)) ++
        dropPuntSteps sup bufs fuel (nLeft - run.length))
      rw [hoff, flatMap_readStep bufs b.swIfIndexRx _ run hget, ← hleft]
      exact .run hrx hrest

/-- The reads and the increments of the members of a run. -/
theorem memberSteps_spec (rx : ℕ) :
    ∀ (off : ℕ) (run : List BondBuffer),
      reads ((run.zipIdx off).flatMap fun x => .read x.2 :: memberStep rx x.1)
          = List.range' off run.length ∧
        ones (increments ((run.zipIdx off).flatMap fun x => .read x.2 :: memberStep rx x.1))
          = (run.map fun b => if b.origRxSwIfIndex ≠ 0 ∧ b.origRxSwIfIndex ≠ rx then
              ({b.origRxSwIfIndex} : Multiset ℕ) else 0).sum := by
  intro off run
  induction run generalizing off with
  | nil => exact ⟨rfl, rfl⟩
  | cons b run ih =>
    obtain ⟨hreads, hones⟩ := ih (off + 1)
    rw [List.zipIdx_cons, List.flatMap_cons, reads_append, increments_append, ones_append, hreads,
      hones, List.length_cons, List.range'_succ, List.map_cons, List.sum_cons]
    by_cases hmember : b.origRxSwIfIndex ≠ 0 ∧ b.origRxSwIfIndex ≠ rx
    · refine ⟨?_, ?_⟩
      · simp only [memberStep, if_pos hmember]
        rfl
      · simp only [memberStep, if_pos hmember]
        rfl
    · refine ⟨?_, ?_⟩
      · simp only [memberStep, if_neg hmember]
        rfl
      · simp only [memberStep, if_neg hmember]
        rfl

/-- The increments of a run without the members. -/
theorem ones_runSteps (rx n : ℕ) :
    ones (increments (runSteps sup rx n))
      = n • ({rx} + if sup rx ≠ rx then ({sup rx} : Multiset ℕ) else 0) := by
  unfold runSteps
  by_cases hsup : sup rx ≠ rx
  · rw [if_pos hsup, if_pos hsup, nsmul_add, Multiset.nsmul_singleton, Multiset.nsmul_singleton]
    simp [increments, ones]
  · rw [if_neg hsup, if_neg hsup, add_zero, Multiset.nsmul_singleton]
    simp [increments, ones]

/-- A loop that goes run by run reads every buffer once, and counts packet by packet. -/
theorem RunByRun.spec {off : ℕ} {left : List BondBuffer} {steps : List DropPuntStep}
    (h : RunByRun sup off left steps) :
    reads steps = List.range' off left.length ∧
      ones (increments steps) = (left.map (perPacket sup)).sum := by
  induction h with
  | nil => exact ⟨rfl, rfl⟩
  | @run off rx run left steps hrx _ ih =>
    obtain ⟨hreads, hones⟩ := memberSteps_spec rx off run
    have hrun : reads (runSteps sup rx run.length) = [] := by
      unfold runSteps
      split <;> rfl
    constructor
    · rw [reads_append, reads_append, hrun, hreads, ih.1, List.nil_append, List.length_append,
        List.range'_append_1]
    · have hper : (run.map (perPacket sup)).sum
          = run.length • ({rx} + if sup rx ≠ rx then ({sup rx} : Multiset ℕ) else 0) +
            (run.map fun b => if b.origRxSwIfIndex ≠ 0 ∧ b.origRxSwIfIndex ≠ rx then
              ({b.origRxSwIfIndex} : Multiset ℕ) else 0).sum := by
        rw [← List.sum_replicate, ← List.map_const', ← List.sum_map_add]
        congr 1
        apply List.map_congr_left
        intro b hb
        simp only [perPacket, hrx b hb]
      rw [increments_append, increments_append, ones_append, ones_append, ones_runSteps, hones, ih.2,
        List.map_append, List.sum_append, hper]

/-- The whole frame. -/
theorem dropPuntSteps_spec (bufs : List BondBuffer) :
    reads (dropPuntSteps sup bufs bufs.length bufs.length) = List.range bufs.length ∧
      ones (increments (dropPuntSteps sup bufs bufs.length bufs.length))
        = (bufs.map (perPacket sup)).sum := by
  have hsteps := dropPuntSteps_runByRun sup bufs bufs.length bufs.length le_rfl le_rfl
  rw [Nat.sub_self, List.drop_zero] at hsteps
  obtain ⟨hreads, hones⟩ := hsteps.spec sup
  rw [← List.range_eq_range'] at hreads
  exact ⟨hreads, hones⟩

/-- **Grouped drop counting is per-packet counting**: for every frame, the increments by 1 of all
runs are those of the packets, as multisets, and the buffers are read in order, each once. -/
theorem grouped_drops_per_packet (bufs : List BondBuffer) :
    ones (increments (dropPuntSteps sup bufs bufs.length bufs.length))
        = (bufs.map (perPacket sup)).sum ∧
      reads (dropPuntSteps sup bufs bufs.length bufs.length) = List.range bufs.length ∧
      ∀ index ∈ reads (dropPuntSteps sup bufs bufs.length bufs.length), index < bufs.length := by
  obtain ⟨hreads, hones⟩ := dropPuntSteps_spec sup bufs
  refine ⟨hones, hreads, ?_⟩
  intro index hindex
  rw [hreads] at hindex
  exact List.mem_range.1 hindex

end Steps

/-! ### The counters -/

/-- The increments of the loop are those of its steps. -/
theorem increments_dropPuntSteps (bufs : List BondBuffer) :
    ∀ fuel nLeft, increments (dropPuntSteps ifs.sup bufs fuel nLeft)
      = dropPuntLoop ifs bufs fuel nLeft := by
  -- the members of a run
  have hmembers : ∀ rx off count,
      increments ((List.range count).flatMap fun j => readStep bufs rx (off + j))
        = ((bufs.drop off).take count).filterMap (origCount rx) := by
    intro rx off count
    induction count with
    | zero => rfl
    | succ count ih =>
      rw [List.range_succ, List.flatMap_append, increments_append, ih, List.take_add_one,
        List.filterMap_append, List.getElem?_drop]
      congr 1
      cases hget : bufs[off + count]? with
      | none => simp [readStep, hget, increments]
      | some ob =>
        by_cases hmember : ob.origRxSwIfIndex ≠ 0 ∧ ob.origRxSwIfIndex ≠ rx
        · simp [readStep, hget, increments, memberStep, origCount, hmember]
        · simp [readStep, hget, increments, memberStep, origCount, if_neg hmember]
  intro fuel
  induction fuel with
  | zero => intro nLeft; rfl
  | succ fuel ih =>
    intro nLeft
    rw [dropPuntSteps, dropPuntLoop]
    cases bufs.drop (bufs.length - nLeft) with
    | nil => rfl
    | cons b rest =>
      simp only [increments_append, hmembers, ih]
      congr 2
      unfold runSteps
      split <;> rfl

theorem count_ones (incs : List (ℕ × ℕ)) (i : ℕ) : (ones incs).count i = added incs i := by
  induction incs with
  | nil => rfl
  | cons inc incs ih =>
    have hcons : ones (inc :: incs) = Multiset.replicate inc.2 inc.1 + ones incs := by
      simp [ones]
    rw [hcons, Multiset.count_add, ih, Multiset.count_replicate]
    rfl

theorem count_perPacket (b : BondBuffer) (i : ℕ) :
    (perPacket ifs.sup b).count i = perBuffer ifs b i := by
  have hif : ∀ (p : Prop) [Decidable p] (x : ℕ),
      (if p then ({x} : Multiset ℕ) else 0).count i = once (p ∧ x = i) := by
    intro p _ x
    unfold once
    by_cases hp : p
    · rw [if_pos hp, Multiset.count_singleton]
      exact if_congr ⟨fun h => ⟨hp, h.symm⟩, fun h => h.2.symm⟩ rfl rfl
    · rw [if_neg hp, if_neg fun h => hp h.1]
      rfl
  unfold perPacket perBuffer
  rw [Multiset.count_add, Multiset.count_add, hif, hif, Multiset.count_singleton]
  congr 1
  · congr 1
    exact if_congr eq_comm rfl rfl
  · simp only [and_assoc]

/-- **A frame counts packet by packet.** -/
theorem added_interfaceDropPunt (bufs : List BondBuffer) (i : ℕ) :
    added (interfaceDropPunt ifs bufs) i = (bufs.map fun b => perBuffer ifs b i).sum := by
  unfold interfaceDropPunt
  rw [← increments_dropPuntSteps, ← count_ones, (dropPuntSteps_spec ifs.sup bufs).2]
  induction bufs with
  | nil => rfl
  | cons b bufs ih =>
    rw [List.map_cons, List.sum_cons, List.map_cons, List.sum_cons, Multiset.count_add, ih,
      count_perPacket]

end Drops

/-! ## The buffer pool -/

/-- A buffer of the pool, and (not in the source) the member from which `bond-input` has
changed the RX interface since the buffer was last received into. -/
structure PoolBuffer extends BondBuffer where
  rewrittenFrom : Option ℕ
  deriving DecidableEq, Repr

/-- The pool, and the drop and punt counters. -/
structure PoolState where
  bufs : ℕ → PoolBuffer
  drops : ℕ → ℕ
  punts : ℕ → ℕ

/-- What happens to buffers.  `receive` is also the use of a buffer for a packet that VPP
makes; `subInterface` is the assignment of a packet to a sub-interface of its RX interface. -/
inductive PoolEvent
  | receive (k : ℕ) (swIfIndex : ℕ)
  | bondInput (k : ℕ) (eth : L2Header) (bondSwIfIndex : ℕ)
  | subInterface (k : ℕ) (swIfIndex : ℕ)
  | forward (k : ℕ)
  | drop (frame : List ℕ)
  | punt (frame : List ℕ)

/-- Only the first cache line is written. -/
def PoolBuffer.receive (b : PoolBuffer) (swIfIndex : ℕ) : PoolBuffer :=
  { b with swIfIndexRx := swIfIndex, rewrittenFrom := none }

/-- `bond-input`, with what it changes noted. -/
def PoolBuffer.bondInput (b : PoolBuffer) (eth : L2Header) (bondSwIfIndex : ℕ) : PoolBuffer where
  toBondBuffer := bondInputNode b.toBondBuffer eth bondSwIfIndex
  rewrittenFrom :=
    if eth.rewritten ∧ bondSwIfIndex ≠ b.swIfIndexRx then some b.swIfIndexRx else none

section Pool

variable (ifs : SwInterfaces)

/-- The buffers of a frame. -/
def PoolState.frame (s : PoolState) (ks : List ℕ) : List BondBuffer :=
  ks.map fun k => (s.bufs k).toBondBuffer

/-- One event. -/
def poolStep (s : PoolState) : PoolEvent → PoolState
  | .receive k swIfIndex =>
    { s with bufs := Function.update s.bufs k ((s.bufs k).receive swIfIndex) }
  | .bondInput k eth bondSwIfIndex =>
    { s with bufs := Function.update s.bufs k ((s.bufs k).bondInput eth bondSwIfIndex) }
  | .subInterface k swIfIndex =>
    { s with bufs := Function.update s.bufs k { s.bufs k with swIfIndexRx := swIfIndex } }
  | .forward _ => s
  | .drop frame =>
    { s with drops := fun i => s.drops i + added (interfaceDropPunt ifs (s.frame frame)) i }
  | .punt frame =>
    { s with punts := fun i => s.punts i + added (interfaceDropPunt ifs (s.frame frame)) i }

/-- New buffers are filled with zeros. -/
def PoolState.init : PoolState where
  bufs := fun _ => ⟨⟨0, 0⟩, none⟩
  drops := fun _ => 0
  punts := fun _ => 0

/-- What VPP promises: members and bonds are super-interfaces, and a packet is assigned to a
sub-interface of the interface it came in on. -/
def Admissible (s : PoolState) : PoolEvent → Prop
  | .bondInput k _ bondSwIfIndex =>
    ifs.sup (s.bufs k).swIfIndexRx = (s.bufs k).swIfIndexRx ∧ ifs.sup bondSwIfIndex = bondSwIfIndex
  | .subInterface k swIfIndex => ifs.sup swIfIndex = (s.bufs k).swIfIndexRx
  | _ => True

/-! ## Exact counters -/

/-- What a packet should add to the counter of an interface: once if it is the RX interface,
once if it is the super-interface of that and another one, and once if it is the member
from which `bond-input` has changed the RX interface. -/
def exactCount (b : PoolBuffer) (i : ℕ) : ℕ :=
  once (b.swIfIndexRx = i) +
    once (ifs.sup b.swIfIndexRx ≠ b.swIfIndexRx ∧ ifs.sup b.swIfIndexRx = i) +
    once (b.rewrittenFrom = some i)

/-- What a frame should add. -/
def exactCounts (s : PoolState) (frame : List ℕ) (i : ℕ) : ℕ :=
  (frame.map fun k => exactCount ifs (s.bufs k) i).sum

/-- The member of a packet is not counted already. -/
def MemberNew (b : PoolBuffer) : Prop :=
  ∀ m, b.rewrittenFrom = some m → m ≠ b.swIfIndexRx ∧ m ≠ ifs.sup b.swIfIndexRx

/-- Dropped and punted packets are counted as they should be. -/
def CountsExactly (s : PoolState) (e : PoolEvent) : Prop :=
  match e with
  | .drop frame => (∀ k ∈ frame, MemberNew ifs (s.bufs k)) ∧
      ∀ i, (poolStep ifs s e).drops i = s.drops i + exactCounts ifs s frame i
  | .punt frame => (∀ k ∈ frame, MemberNew ifs (s.bufs k)) ∧
      ∀ i, (poolStep ifs s e).punts i = s.punts i + exactCounts ifs s frame i
  | _ => (poolStep ifs s e).drops = s.drops ∧ (poolStep ifs s e).punts = s.punts

/-- The field says nothing that is not so: the packet was changed from a member other than
interface 0, or the field is 0 or its own RX interface. -/
def PoolBuffer.OwnStamp (b : PoolBuffer) : Prop :=
  match b.rewrittenFrom with
  | some m => m ≠ 0
  | none => b.origRxSwIfIndex = 0 ∨ b.origRxSwIfIndex = b.swIfIndexRx

/-- The packets that are dropped or punted have no field left over. -/
def DropsOwn (s : PoolState) : PoolEvent → Prop
  | .drop frame => ∀ k ∈ frame, (s.bufs k).OwnStamp
  | .punt frame => ∀ k ∈ frame, (s.bufs k).OwnStamp
  | _ => True

/-! ## The invariant -/

/-- A change is noted in the field, and the RX interface belongs to another super-interface. -/
structure Noted (b : PoolBuffer) : Prop where
  field : ∀ m, b.rewrittenFrom = some m → b.origRxSwIfIndex = m
  other : ∀ m, b.rewrittenFrom = some m → ifs.sup m = m ∧ m ≠ ifs.sup b.swIfIndexRx

variable {ifs}

/-- Where nothing is changed, nothing has to be noted. -/
theorem Noted.of_none {b : PoolBuffer} (h : b.rewrittenFrom = none) : Noted ifs b := by
  refine ⟨fun m hm => ?_, fun m hm => ?_⟩
  · rw [h] at hm
    cases hm
  · rw [h] at hm
    cases hm

/-- So the member is not the RX interface either. -/
theorem Noted.memberNew {b : PoolBuffer} (h : Noted ifs b) : MemberNew ifs b := by
  intro m hm
  obtain ⟨hsup, hne⟩ := h.other m hm
  refine ⟨?_, hne⟩
  rintro rfl
  exact hne hsup.symm

/-- **Every event keeps the field in order.** -/
theorem noted_step {s : PoolState} (h : ∀ k, Noted ifs (s.bufs k)) {e : PoolEvent}
    (hadm : Admissible ifs s e) : ∀ k, Noted ifs ((poolStep ifs s e).bufs k) := by
  -- at most one buffer is written
  have hwrite : ∀ (k : ℕ) (b : PoolBuffer), Noted ifs b →
      ∀ k', Noted ifs (Function.update s.bufs k b k') := by
    intro k b hb k'
    rw [Function.update_apply]
    split
    · exact hb
    · exact h k'
  cases e with
  | receive k swIfIndex =>
    apply hwrite
    exact .of_none rfl
  | bondInput k eth bondSwIfIndex =>
    apply hwrite
    obtain ⟨hmember, hbond⟩ := hadm
    by_cases hrw : eth.rewritten = true ∧ bondSwIfIndex ≠ (s.bufs k).swIfIndexRx
    · have hfrom : ((s.bufs k).bondInput eth bondSwIfIndex).rewrittenFrom
          = some (s.bufs k).swIfIndexRx := if_pos hrw
      have hbuffer : ((s.bufs k).bondInput eth bondSwIfIndex).toBondBuffer
          = ⟨bondSwIfIndex, (s.bufs k).swIfIndexRx⟩ := if_pos hrw.1
      refine ⟨fun m hm => ?_, fun m hm => ?_⟩
      · rw [hbuffer]
        exact Option.some.inj (hfrom.symm.trans hm)
      · obtain rfl := Option.some.inj (hfrom.symm.trans hm)
        rw [hbuffer]
        refine ⟨hmember, ?_⟩
        rw [hbond]
        exact Ne.symm hrw.2
    · exact .of_none (if_neg hrw)
  | subInterface k swIfIndex =>
    apply hwrite
    refine ⟨(h k).field, fun m hm => ⟨((h k).other m hm).1, ?_⟩⟩
    have hsup : ifs.sup swIfIndex = (s.bufs k).swIfIndexRx := hadm
    show m ≠ ifs.sup swIfIndex
    rw [hsup]
    exact ((h k).memberNew m hm).1
  | forward k => exact h
  | drop frame => exact h
  | punt frame => exact h

/-! ## One packet -/

/-- A packet with its own field is counted as it should be. -/
theorem perBuffer_eq {b : PoolBuffer} (h : Noted ifs b) (hown : b.OwnStamp) (i : ℕ) :
    perBuffer ifs b.toBondBuffer i = exactCount ifs b i := by
  unfold perBuffer exactCount
  congr 1
  unfold PoolBuffer.OwnStamp at hown
  cases hfrom : b.rewrittenFrom with
  | some m =>
    rw [hfrom] at hown
    obtain ⟨hrx, -⟩ := h.memberNew m hfrom
    have hfield := h.field m hfrom
    rw [hfield]
    exact if_congr ⟨fun hi => congrArg some hi.2.2, fun hi =>
      ⟨hown, hrx, Option.some.inj hi⟩⟩ rfl rfl
  | none =>
    rw [hfrom] at hown
    unfold once
    rw [if_neg, if_neg]
    · intro hi
      cases hi
    · rintro ⟨hzero, hrx, -⟩
      exact hown.elim hzero hrx

/-- Of the interfaces other than 0 none is counted too rarely. -/
theorem exactCount_le {b : PoolBuffer} (h : Noted ifs b) {i : ℕ} (hi : i ≠ 0) :
    exactCount ifs b i ≤ perBuffer ifs b.toBondBuffer i := by
  unfold perBuffer exactCount
  apply Nat.add_le_add_left
  unfold once
  by_cases hfrom : b.rewrittenFrom = some i
  · have hfield := h.field i hfrom
    have hrx := (h.memberNew i hfrom).1
    rw [if_pos hfrom, if_pos]
    rw [hfield]
    exact ⟨hi, hrx, rfl⟩
  · rw [if_neg hfrom]
    exact Nat.zero_le _

/-- And interface 0 is not counted too often. -/
theorem perBuffer_zero_le (ifs : SwInterfaces) (b : PoolBuffer) :
    perBuffer ifs b.toBondBuffer 0 ≤ exactCount ifs b 0 := by
  unfold perBuffer exactCount
  apply Nat.add_le_add_left
  unfold once
  rw [if_neg fun h => h.1 h.2.2]
  exact Nat.zero_le _

/-- Equal sums of values that are in order are sums of equal values. -/
theorem eq_of_sum_eq {f g : ℕ → ℕ} {ks : List ℕ} (hle : ∀ k ∈ ks, f k ≤ g k)
    (hsum : (ks.map f).sum = (ks.map g).sum) : ∀ k ∈ ks, f k = g k := by
  intro k hk
  by_contra hne
  have hlt := List.sum_lt_sum f g hle ⟨k, hk, lt_of_le_of_ne (hle k hk) hne⟩
  exact hlt.ne hsum

/-! ## One frame -/

/-- **A frame is counted as it should be exactly if all its packets have their own field.** -/
theorem frame_exact_iff {s : PoolState} (h : ∀ k, Noted ifs (s.bufs k)) (frame : List ℕ) :
    (∀ i, added (interfaceDropPunt ifs (s.frame frame)) i = exactCounts ifs s frame i) ↔
      ∀ k ∈ frame, (s.bufs k).OwnStamp := by
  have hadded : ∀ i, added (interfaceDropPunt ifs (s.frame frame)) i
      = (frame.map fun k => perBuffer ifs (s.bufs k).toBondBuffer i).sum := by
    intro i
    rw [added_interfaceDropPunt, PoolState.frame, List.map_map]
    rfl
  simp only [hadded]
  constructor
  · intro hall k hk
    unfold PoolBuffer.OwnStamp
    cases hfrom : (s.bufs k).rewrittenFrom with
    | some m =>
      -- member 0 would be missing
      rintro rfl
      have heq := eq_of_sum_eq (fun k _ => perBuffer_zero_le ifs (s.bufs k)) (hall 0) k hk
      unfold perBuffer exactCount at heq
      have hmember := Nat.add_left_cancel heq
      rw [once, if_neg fun hc => hc.1 hc.2.2, once, if_pos hfrom] at hmember
      cases hmember
    | none =>
      by_contra hown
      push Not at hown
      -- the field is counted although nothing was changed
      have heq := eq_of_sum_eq (fun k _ => exactCount_le (h k) hown.1)
        (hall (s.bufs k).origRxSwIfIndex).symm k hk
      unfold perBuffer exactCount at heq
      have hmember := Nat.add_left_cancel heq
      rw [hfrom] at hmember
      rw [once, if_neg (by simp), once, if_pos ⟨hown.1, hown.2, rfl⟩] at hmember
      cases hmember
  · intro hown i
    unfold exactCounts
    congr 1
    apply List.map_congr_left
    intro k hk
    exact perBuffer_eq (h k) (hown k hk) i

/-- An event counts as it should exactly if the packets dropped or punted have their own
field. -/
theorem countsExactly_iff {s : PoolState} (h : ∀ k, Noted ifs (s.bufs k)) (e : PoolEvent) :
    CountsExactly ifs s e ↔ DropsOwn s e := by
  cases e with
  | drop frame =>
    have hframe := frame_exact_iff h frame
    constructor
    · rintro ⟨-, hall⟩
      exact hframe.1 fun i => Nat.add_left_cancel (hall i)
    · intro hown
      exact ⟨fun k _ => (h k).memberNew, fun i => congrArg (s.drops i + ·) (hframe.2 hown i)⟩
  | punt frame =>
    have hframe := frame_exact_iff h frame
    constructor
    · rintro ⟨-, hall⟩
      exact hframe.1 fun i => Nat.add_left_cancel (hall i)
    · intro hown
      exact ⟨fun k _ => (h k).memberNew, fun i => congrArg (s.punts i + ·) (hframe.2 hown i)⟩
  | receive k swIfIndex => exact iff_of_true ⟨rfl, rfl⟩ trivial
  | bondInput k eth bondSwIfIndex => exact iff_of_true ⟨rfl, rfl⟩ trivial
  | subInterface k swIfIndex => exact iff_of_true ⟨rfl, rfl⟩ trivial
  | forward k => exact iff_of_true ⟨rfl, rfl⟩ trivial

/-! ## Runs -/

/-- **Drops and punts are counted exactly all along a run of the pool if and only if each
packet that is dropped or punted has its own field.** -/
theorem member_drops_exact_iff {es : List PoolEvent}
    (hadm : Allowed (poolStep ifs) (Admissible ifs) PoolState.init es) :
    Allowed (poolStep ifs) (CountsExactly ifs) PoolState.init es ↔
      Allowed (poolStep ifs) DropsOwn PoolState.init es := by
  refine allowed_iff_of_invariant (poolStep ifs) (Admissible ifs)
    (fun s => ∀ k, Noted ifs (s.bufs k)) ?_ ?_ ?_ hadm
  · intro s e h _
    exact countsExactly_iff h e
  · intro s e h hadm _
    exact noted_step h hadm
  · intro k
    exact .of_none rfl

end Pool

/-- Interface `100 i + v` is the sub-interface `v` of `100 i`. -/
def vlanInterfaces : SwInterfaces where
  sup := fun i => 100 * (i / 100)
  sup_sup := by
    intro i
    omega

/-- An IPv4 header. -/
def ip4Header : L2Header := ⟨false, 0x0800, false⟩

/-- A packet from member 100 of bond 300 is forwarded; its buffer is used for one from
interface 200, which is dropped. -/
def recycledRun : List PoolEvent :=
  [.receive 0 100, .bondInput 0 ip4Header 300, .forward 0, .receive 0 200, .drop [0]]

/-- The drop is counted for member 100, too. -/
theorem stale_member_counted :
    Allowed (poolStep vlanInterfaces) (Admissible vlanInterfaces) PoolState.init recycledRun ∧
      (run (poolStep vlanInterfaces) PoolState.init recycledRun).drops 200 = 1 ∧
      (run (poolStep vlanInterfaces) PoolState.init recycledRun).drops 100 = 1 ∧
      ¬ Allowed (poolStep vlanInterfaces) (CountsExactly vlanInterfaces) PoolState.init
        recycledRun := by
  refine ⟨⟨trivial, ⟨by decide, by decide⟩, trivial, trivial, trivial, trivial⟩, by decide,
    by decide, ?_⟩
  rintro ⟨-, -, -, -, ⟨-, hcounts⟩, -⟩
  exact absurd (hcounts 100) (by decide)

/-- An LLDP header. -/
def lldpHeader : L2Header := ⟨false, ethernetType8021Lldp, false⟩

/-- Three packets in one buffer: from member 100, forwarded; from member 200 on a sub-interface
of the bond, dropped; and LLDP on member 100, which `bond-input` lets pass, dropped. -/
def memberRun : List PoolEvent :=
  [.receive 0 100, .bondInput 0 ip4Header 300, .forward 0,
    .receive 0 200, .bondInput 0 ip4Header 300, .subInterface 0 310, .drop [0],
    .receive 0 100, .bondInput 0 lldpHeader 300, .drop [0]]

/-- Each member is counted for its own drop: 200 as the member of the second packet, 100 as the
RX interface of the third. -/
theorem member_drops_exact_reused :
    (run (poolStep vlanInterfaces) PoolState.init memberRun).drops 200 = 1 ∧
      (run (poolStep vlanInterfaces) PoolState.init memberRun).drops 100 = 1 ∧
      Allowed (poolStep vlanInterfaces) (CountsExactly vlanInterfaces) PoolState.init
        memberRun := by
  have hadm : Allowed (poolStep vlanInterfaces) (Admissible vlanInterfaces) PoolState.init
      memberRun :=
    ⟨trivial, ⟨by decide, by decide⟩, trivial, trivial, ⟨by decide, by decide⟩, rfl, trivial,
      trivial, ⟨by decide, by decide⟩, trivial, trivial⟩
  refine ⟨by decide, by decide, (member_drops_exact_iff hadm).2 ⟨trivial, trivial, trivial,
    trivial, trivial, trivial, ?_, trivial, trivial, ?_, trivial⟩⟩
  · intro k hk
    obtain rfl : k = 0 := List.mem_singleton.1 hk
    show (200 : ℕ) ≠ 0
    decide
  · -- the stamp of the second packet is gone
    intro k hk
    obtain rfl : k = 0 := List.mem_singleton.1 hk
    exact Or.inl rfl

end Bond
