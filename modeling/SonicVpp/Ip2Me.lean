/-
# Local traffic before the ACL

`sonic-ext-ip2me` runs before the ACL on the feature arcs `l2-input-ip4` and `l2-input-ip6` of the
ports where it is enabled.  A packet whose destination is an address of the switch goes to the end
of the arc, past the ACL; any other one goes on.

Ports are enabled by an API message and by a command.  `ip2me_run` follows a whole history of
them, of interfaces that come and go and of routes that change: a packet goes past the ACL exactly
if its port was enabled more often than disabled since some moment of its life, and the FIB of the
port has a receive route for it.
-/
import SonicVpp.IngressRedirect
import SonicVpp.PacketNode
import SonicVpp.RefCount
import SonicVpp.RunInvariant

open RunInvariant

namespace SonicExt

/-! ## Routes -/

/-- `dpoi_type`: `DPO_RECEIVE`, or any other. -/
inductive DpoType
  | receive
  | other
  deriving DecidableEq, Repr

/-- `load_balance_t`: it has at least one bucket. -/
structure LoadBalance where
  first : DpoType
  rest : List DpoType

/-- The tables of one family: the FIB of each interface, and the forwarding lookup. -/
structure Fib (w : ℕ) where
  fibIndexBySwIfIndex : List (BitVec 32)
  forwardingLookup : BitVec 32 → BitVec w → BitVec 32

/-- What VPP knows of the routes. -/
structure Routes where
  ip4 : Fib 32
  ip6 : Fib 128
  loadBalanceGetOrNull : BitVec 32 → Option LoadBalance

/-- The body of the two tests, which differ in the table. -/
def dstIsLocal {w : ℕ} (fib : Fib w) (r : Routes) (fibIndex : BitVec 32) (dst : BitVec w) : Bool :=
  if fibIndex = BitVec.allOnes 32 then false
  else
    match r.loadBalanceGetOrNull (fib.forwardingLookup fibIndex dst) with
    | none => false
    | some lb => lb.first = .receive

/-- `sonic_ext_dst_is_local_ip4`. -/
def sonicExtDstIsLocalIp4 (r : Routes) : BitVec 32 → BitVec 32 → Bool := dstIsLocal r.ip4 r

/-- `sonic_ext_dst_is_local_ip6`. -/
def sonicExtDstIsLocalIp6 (r : Routes) : BitVec 32 → BitVec 128 → Bool := dstIsLocal r.ip6 r

/-! ## The node -/

/-- A buffer on the arc: `featNext` is what `vnet_feature_next` gives. -/
structure L2Buffer extends Buffer where
  l3HdrOffset : ℤ
  featNext : BitVec 32
  isTraced : Bool

/-- The L3 header: `vlib_buffer_get_current (b) + ethernet_buffer_header_size (b)`. -/
def L2Buffer.l3 (b : L2Buffer) : ℤ := b.currentData + (b.l3HdrOffset - b.l2HdrOffset)

/-- A 32-bit field in network order. -/
def fieldU32 (data : BufferData) (i : ℤ) : BitVec 32 := fieldU16 data i ++ fieldU16 data (i + 2)

/-- A 64-bit field in network order. -/
def fieldU64 (data : BufferData) (i : ℤ) : BitVec 64 := fieldU32 data i ++ fieldU32 data (i + 4)

/-- `ip4->dst_address`. -/
def L2Buffer.dst4 (b : L2Buffer) : BitVec 32 := fieldU32 b.data (b.l3 + 16)

/-- `ip6->dst_address`. -/
def L2Buffer.dst6 (b : L2Buffer) : BitVec 128 :=
  fieldU64 b.data (b.l3 + 24) ++ fieldU64 b.data (b.l3 + 32)

/-- `SONIC_EXT_IP2ME_ERROR_*`. -/
inductive Ip2meError
  | hit
  | passthru
  deriving DecidableEq, Repr

/-- The errors in the order of their counters. -/
def ip2meErrors : List Ip2meError := [.hit, .passthru]

/-- `SONIC_EXT_IP2ME_NEXT_ARC_END`. -/
def ip2meNextArcEnd : BitVec 16 := 0

/-- `sonic_ext_ip2me_trace_t`. -/
structure Ip2meTrace where
  swIfIndex : BitVec 32
  fibIndex : BitVec 32
  isIp6 : Bool
  isIp2me : Bool

/-- `fib_index_by_sw_if_index` of a family. -/
def Routes.fibIndices (r : Routes) (isIp6 : Bool) : List (BitVec 32) :=
  if isIp6 then r.ip6.fibIndexBySwIfIndex else r.ip4.fibIndexBySwIfIndex

/-- `is_ip2me`. -/
def isIp2me (r : Routes) (isIp6 : Bool) (fibIndex : BitVec 32) (b : L2Buffer) : Bool :=
  if isIp6 then sonicExtDstIsLocalIp6 r fibIndex b.dst6
  else sonicExtDstIsLocalIp4 r fibIndex b.dst4

/-- The body of the loop of `sonic_ext_ip2me_inline`; the FIB of the interface is read without a
check of its index. -/
def sonicExtIp2meX1 (r : Routes) (isIp6 : Bool) (b : L2Buffer) :
    Option (PacketNode.Verdict L2Buffer Ip2meError Ip2meTrace) := do
  let fibIndex ← (r.fibIndices isIp6)[b.swIfIndexRx.toNat]?
  let ip2me := isIp2me r isIp6 fibIndex b
  some
    { packet := b
      next := if ip2me then ip2meNextArcEnd else b.featNext.setWidth 16
      error := if ip2me then .hit else .passthru
      record := ⟨b.swIfIndexRx, fibIndex, isIp6, ip2me⟩ }

/-- What the plugin and VPP keep: the interfaces that there are, how often the node is enabled on
the arc of each family and interface, the routes, the counters of the two nodes, and
`ip2me_hits`. -/
structure Ip2meMain where
  swInterfaces : BitVec 32 → Bool
  counts : Bool × BitVec 32 → ℕ
  routes : Routes
  counters : Bool → Ip2meError → BitVec 64
  ip2meHits : BitVec 64

/-- `sonic_ext_ip2me_inline`. -/
def sonicExtIp2meInline (s : Ip2meMain) (nodeTraces isIp6 : Bool) (frame : List L2Buffer) :
    Option (Ip2meMain × List (L2Buffer × BitVec 16)) := do
  let d ← PacketNode.frame (sonicExtIp2meX1 s.routes isIp6)
    (fun b => nodeTraces && b.isTraced) frame
  some ({ s with
      counters := Function.update s.counters isIp6
        (FrameNode.incrementCounters ip2meErrors d.counts (s.counters isIp6))
      ip2meHits := s.ip2meHits + (d.counts .hit).setWidth 64 }, d.sent)

/-! ## Where it is enabled -/

/-- `sonic_ext_ip2me_enable_disable`: a call for each family. -/
def sonicExtIp2meEnableDisable (swIfIndex : BitVec 32) (enable : Bool) :
    List (RefCount.Call (Bool × BitVec 32)) :=
  [⟨(false, swIfIndex), enable⟩, ⟨(true, swIfIndex), enable⟩]

/-- The return value of the API message, if it is an error. -/
inductive ApiError
  | invalidSwIfIndex
  deriving DecidableEq, Repr

/-- `vl_api_sonic_ext_ip2me_enable_disable_t_handler`. -/
def vlApiSonicExtIp2meEnableDisable (swInterfaces : BitVec 32 → Bool) (swIfIndex : BitVec 32)
    (enable : BitVec 8) : Except ApiError (List (RefCount.Call (Bool × BitVec 32))) :=
  if !swInterfaces swIfIndex then .error .invalidSwIfIndex
  else .ok (sonicExtIp2meEnableDisable swIfIndex (enable ≠ 0))

/-- What the command line is parsed into. -/
inductive CliToken
  | swInterface (swIfIndex : BitVec 32)
  | on
  | enable
  | off
  | disable
  | unknown (text : String)
  deriving DecidableEq, Repr

/-- The error texts of the command. -/
inductive CliError
  | unknownInput (text : String)
  | specifyInterface
  | specifyOnOff
  deriving DecidableEq, Repr

/-- The loop of `sonic_ext_ip2me_command_fn`: `sw_if_index`, `enable` and `got_enable`. -/
def ip2meCommandLoop : List CliToken → BitVec 32 × Bool × Bool →
    Except CliError (BitVec 32 × Bool × Bool)
  | [], st => .ok st
  | .swInterface i :: ts, (_, enable, got) => ip2meCommandLoop ts (i, enable, got)
  | .on :: ts, (i, _, _) => ip2meCommandLoop ts (i, true, true)
  | .enable :: ts, (i, _, _) => ip2meCommandLoop ts (i, true, true)
  | .off :: ts, (i, _, _) => ip2meCommandLoop ts (i, false, true)
  | .disable :: ts, (i, _, _) => ip2meCommandLoop ts (i, false, true)
  | .unknown text :: _, _ => .error (.unknownInput text)

/-- `sonic_ext_ip2me_command_fn`; without a line it does nothing. -/
def sonicExtIp2meCommand (line : List CliToken) :
    Except CliError (List (RefCount.Call (Bool × BitVec 32))) :=
  if line = [] then .ok []
  else do
    let (i, enable, got) ← ip2meCommandLoop line (BitVec.allOnes 32, true, false)
    if i = BitVec.allOnes 32 then .error .specifyInterface
    else if !got then .error .specifyOnOff
    else .ok (sonicExtIp2meEnableDisable i enable)

/-! ## Histories -/

/-- What happens.  When an interface is deleted, VPP removes the features that are enabled on
it. -/
inductive Ip2meEvent
  | api (swIfIndex : BitVec 32) (enable : BitVec 8)
  | cli (line : List CliToken)
  | swInterfaceAdd (swIfIndex : BitVec 32)
  | swInterfaceDel (swIfIndex : BitVec 32)
  | setRoutes (r : Routes)
  | arc (isIp6 : Bool) (bufs : List L2Buffer)

/-- The calls that an event issues; one that is refused issues none. -/
def ip2meCalls (swInterfaces : BitVec 32 → Bool) :
    Ip2meEvent → List (RefCount.Call (Bool × BitVec 32))
  | .api i enable => (vlApiSonicExtIp2meEnableDisable swInterfaces i enable).toOption.getD []
  | .cli line => (sonicExtIp2meCommand line).toOption.getD []
  | _ => []

/-- The interfaces after an event. -/
def swInterfacesAfter (swInterfaces : BitVec 32 → Bool) : Ip2meEvent → BitVec 32 → Bool
  | .swInterfaceAdd i => Function.update swInterfaces i true
  | .swInterfaceDel i => Function.update swInterfaces i false
  | _ => swInterfaces

/-- The routes after an event. -/
def routesAfter (r : Routes) : Ip2meEvent → Routes
  | .setRoutes r' => r'
  | _ => r

/-- The counts after an event. -/
def countsAfter (swInterfaces : BitVec 32 → Bool) (c : Bool × BitVec 32 → ℕ) :
    Ip2meEvent → Bool × BitVec 32 → ℕ
  | .swInterfaceDel i => fun k => if k.2 = i then 0 else c k
  | e => RefCount.applyAll c (ip2meCalls swInterfaces e)

/-- One event, and the packets that it sends on, with their next nodes.  On an arc the packets of
the ports with the node go through it, and the others to what comes after it. -/
def ip2meStep (nodeTraces : Bool) (s : Ip2meMain) (e : Ip2meEvent) :
    Option (Ip2meMain × List (L2Buffer × BitVec 16)) :=
  match e with
  | .arc isIp6 bufs => do
    let (s', sent) ← sonicExtIp2meInline s nodeTraces isIp6
      (bufs.filter fun b => 0 < s.counts (isIp6, b.swIfIndexRx))
    some (s', sent ++ (bufs.filter fun b => !(0 < s.counts (isIp6, b.swIfIndexRx))).map
      fun b => (b, b.featNext.setWidth 16))
  | e => some ({ s with
      swInterfaces := swInterfacesAfter s.swInterfaces e
      counts := countsAfter s.swInterfaces s.counts e
      routes := routesAfter s.routes e }, [])

/-- A history, and what each event sends on. -/
def ip2meRun (nodeTraces : Bool) : Ip2meMain → List Ip2meEvent →
    Option (Ip2meMain × List (List (L2Buffer × BitVec 16)))
  | s, [] => some (s, [])
  | s, e :: es => do
    let (s, sent) ← ip2meStep nodeTraces s e
    let (s, sents) ← ip2meRun nodeTraces s es
    some (s, sent :: sents)

/-- Nothing is enabled or counted. -/
def Ip2meMain.start (swInterfaces : BitVec 32 → Bool) (r : Routes) : Ip2meMain where
  swInterfaces := swInterfaces
  counts := fun _ => 0
  routes := r
  counters := fun _ _ => 0
  ip2meHits := 0

/-! ## What is meant -/

/-- What an event does to the node on a port. -/
def portOp (swInterfaces : BitVec 32 → Bool) (i : BitVec 32) : Ip2meEvent → List RefCount.Op
  | .swInterfaceDel j => if j = i then [.clear] else []
  | e => ((ip2meCalls swInterfaces e).filter (·.key = (false, i))).map
      fun call => if call.take then .take else .drop

/-- What a history does to it. -/
def portOps (i : BitVec 32) : (BitVec 32 → Bool) → List Ip2meEvent → List RefCount.Op
  | _, [] => []
  | swInterfaces, e :: es =>
    portOp swInterfaces i e ++ portOps i (swInterfacesAfter swInterfaces e) es

/-- The destination of a packet is an address of the switch: the port has a FIB, and the route
for the destination is a receive route. -/
def ToUs (r : Routes) (isIp6 : Bool) (b : L2Buffer) : Prop :=
  ∃ fibIndex, (r.fibIndices isIp6)[b.swIfIndexRx.toNat]? = some fibIndex ∧
    fibIndex ≠ BitVec.allOnes 32 ∧
    ∃ lb, r.loadBalanceGetOrNull (if isIp6 then r.ip6.forwardingLookup fibIndex b.dst6
      else r.ip4.forwardingLookup fibIndex b.dst4) = some lb ∧ lb.first = .receive

/-- The test of the node says it, for the FIB of the port. -/
theorem isIp2me_iff {r : Routes} {isIp6 : Bool} {b : L2Buffer} {fibIndex : BitVec 32}
    (hfib : (r.fibIndices isIp6)[b.swIfIndexRx.toNat]? = some fibIndex) :
    isIp2me r isIp6 fibIndex b = true ↔ ToUs r isIp6 b := by
  have hlocal : ∀ {w : ℕ} (fib : Fib w) (dst : BitVec w), dstIsLocal fib r fibIndex dst = true ↔
      fibIndex ≠ BitVec.allOnes 32 ∧
        ∃ lb, r.loadBalanceGetOrNull (fib.forwardingLookup fibIndex dst) = some lb ∧
          lb.first = .receive := by
    intro w fib dst
    unfold dstIsLocal
    split_ifs with hnone
    · exact ⟨False.elim, fun h => absurd hnone h.1⟩
    · cases r.loadBalanceGetOrNull (fib.forwardingLookup fibIndex dst) with
      | none => simp
      | some lb =>
        constructor
        · exact fun h => ⟨hnone, lb, rfl, of_decide_eq_true h⟩
        · rintro ⟨-, lb', hlb, hfirst⟩
          obtain rfl := Option.some.inj hlb
          exact decide_eq_true hfirst
  unfold ToUs
  rw [hfib]
  cases isIp6 with
  | true => simpa [isIp2me, sonicExtDstIsLocalIp6] using hlocal r.ip6 b.dst6
  | false => simpa [isIp2me, sonicExtDstIsLocalIp4] using hlocal r.ip4 b.dst4

/-- The test, from the table of the ports on. -/
def toUs (r : Routes) (isIp6 : Bool) (b : L2Buffer) : Bool :=
  match (r.fibIndices isIp6)[b.swIfIndexRx.toNat]? with
  | none => false
  | some fibIndex => isIp2me r isIp6 fibIndex b

theorem toUs_iff (r : Routes) (isIp6 : Bool) (b : L2Buffer) :
    toUs r isIp6 b = true ↔ ToUs r isIp6 b := by
  unfold toUs
  cases hfib : (r.fibIndices isIp6)[b.swIfIndexRx.toNat]? with
  | none => simp [ToUs, hfib]
  | some fibIndex => exact isIp2me_iff hfib

instance (r : Routes) (isIp6 : Bool) (b : L2Buffer) : Decidable (ToUs r isIp6 b) :=
  decidable_of_iff _ (toUs_iff r isIp6 b)

section History

variable (swInterfaces : BitVec 32 → Bool) (r : Routes)

/-- After a history a packet that comes goes past the ACL. -/
def Bypasses (es : List Ip2meEvent) (isIp6 : Bool) (b : L2Buffer) : Prop :=
  RefCount.Surplus 0 (portOps b.swIfIndexRx swInterfaces es) ∧ ToUs (run routesAfter r es) isIp6 b

instance (es : List Ip2meEvent) (isIp6 : Bool) (b : L2Buffer) :
    Decidable (Bypasses swInterfaces r es isIp6 b) := inferInstanceAs (Decidable (_ ∧ _))

/-- A frame fits, and the ports of its packets are in the table of the family. -/
def ArcOk (r : Routes) : Ip2meEvent → Prop
  | .arc isIp6 bufs => bufs.length ≤ FrameNode.frameSize ∧
      ∀ b ∈ bufs, b.swIfIndexRx.toNat < (r.fibIndices isIp6).length
  | _ => True

/-- How many packets of an event have the property. -/
def arcCount (P : Bool → L2Buffer → Bool) : Ip2meEvent → ℕ
  | .arc isIp6 bufs => bufs.countP (P isIp6)
  | _ => 0

/-- How many packets of a history, after `before`, have the property when they come. -/
def tally (P : List Ip2meEvent → Bool → L2Buffer → Bool) :
    List Ip2meEvent → List Ip2meEvent → ℕ
  | _, [] => 0
  | before, e :: es => arcCount (P before) e + tally P (before ++ [e]) es

end History

/-! ## The node -/

/-- The next node of a packet that goes through the node. -/
def ip2meNext (r : Routes) (isIp6 : Bool) (b : L2Buffer) : BitVec 16 :=
  if ToUs r isIp6 b then ip2meNextArcEnd else b.featNext.setWidth 16

/-- What it counts for. -/
def ip2meError (r : Routes) (isIp6 : Bool) (b : L2Buffer) : Ip2meError :=
  if ToUs r isIp6 b then .hit else .passthru

theorem sonicExtIp2meX1_eq {r : Routes} {isIp6 : Bool} {b : L2Buffer}
    (hport : b.swIfIndexRx.toNat < (r.fibIndices isIp6).length) :
    sonicExtIp2meX1 r isIp6 b = some
      { packet := b
        next := ip2meNext r isIp6 b
        error := ip2meError r isIp6 b
        record := ⟨b.swIfIndexRx, (r.fibIndices isIp6).getD b.swIfIndexRx.toNat 0, isIp6,
          toUs r isIp6 b⟩ } := by
  have hfib := List.getElem?_eq_getElem hport
  have htoUs : toUs r isIp6 b = isIp2me r isIp6 (r.fibIndices isIp6)[b.swIfIndexRx.toNat] b := by
    rw [toUs, hfib]
  unfold sonicExtIp2meX1 ip2meNext ip2meError
  rw [List.getD_eq_getElem?_getD, hfib]
  simp only [← toUs_iff, htoUs]
  rfl

theorem ip2meError_eq_hit {r : Routes} {isIp6 : Bool} {b : L2Buffer} :
    ip2meError r isIp6 b = .hit ↔ ToUs r isIp6 b := by
  unfold ip2meError
  split_ifs with h
  · simp [h]
  · simp [h]

/-- **The node, one frame.**  No access goes wrong; every packet is sent to the end of the arc or
on along it, as its destination says; and both are counted. -/
theorem sonicExtIp2meInline_eq (s : Ip2meMain) (nodeTraces isIp6 : Bool) (frame : List L2Buffer)
    (hlen : frame.length ≤ FrameNode.frameSize)
    (hports : ∀ b ∈ frame, b.swIfIndexRx.toNat < (s.routes.fibIndices isIp6).length) :
    sonicExtIp2meInline s nodeTraces isIp6 frame = some
      ({ s with
          counters := Function.update s.counters isIp6 fun e => s.counters isIp6 e +
            BitVec.ofNat 64 (frame.countP fun b => ip2meError s.routes isIp6 b = e)
          ip2meHits := s.ip2meHits +
            BitVec.ofNat 64 (frame.countP fun b => ToUs s.routes isIp6 b) },
        frame.map fun b => (b, ip2meNext s.routes isIp6 b)) := by
  have hsmall : ∀ e, (frame.countP fun b => ip2meError s.routes isIp6 b = e) ≤
      FrameNode.frameSize := fun e => List.countP_le_length.trans hlen
  have hcounters : FrameNode.incrementCounters ip2meErrors
      (fun e => BitVec.ofNat 32 (frame.countP fun b => ip2meError s.routes isIp6 b = e))
      (s.counters isIp6) = fun e => s.counters isIp6 e +
        BitVec.ofNat 64 (frame.countP fun b => ip2meError s.routes isIp6 b = e) := by
    funext e
    have he : e ∈ ip2meErrors := by cases e <;> decide
    exact PacketNode.incrementCounters_frame (by decide) hsmall he
  have hhits := PacketNode.setWidth_ofNat_frame (hsmall .hit)
  unfold sonicExtIp2meInline
  rw [PacketNode.frame_eq (fun b hb => sonicExtIp2meX1_eq (hports b hb)) hlen]
  simp only [Option.bind_eq_bind, Option.bind_some, hcounters, hhits]
  simp only [ip2meError_eq_hit]

/-! ## The node on a port -/

/-- The command is refused, does nothing, or issues the calls of one port. -/
theorem sonicExtIp2meCommand_cases (line : List CliToken) :
    (∃ err, sonicExtIp2meCommand line = .error err) ∨ sonicExtIp2meCommand line = .ok [] ∨
      ∃ i enable, sonicExtIp2meCommand line = .ok (sonicExtIp2meEnableDisable i enable) := by
  unfold sonicExtIp2meCommand
  split_ifs
  · exact Or.inr (Or.inl rfl)
  · cases ip2meCommandLoop line (BitVec.allOnes 32, true, false) with
    | error err => exact Or.inl ⟨err, rfl⟩
    | ok st =>
      obtain ⟨i, enable, got⟩ := st
      simp only [bind, Except.bind]
      split_ifs
      · exact Or.inl ⟨_, rfl⟩
      · exact Or.inl ⟨_, rfl⟩
      · exact Or.inr (Or.inr ⟨i, enable, rfl⟩)

/-- An event issues no calls, or those of one port. -/
theorem ip2meCalls_cases (swInterfaces : BitVec 32 → Bool) (e : Ip2meEvent) :
    ip2meCalls swInterfaces e = [] ∨
      ∃ i enable, ip2meCalls swInterfaces e = sonicExtIp2meEnableDisable i enable := by
  cases e with
  | api i enable =>
    simp only [ip2meCalls, vlApiSonicExtIp2meEnableDisable]
    split_ifs
    · exact Or.inl rfl
    · exact Or.inr ⟨i, decide (enable ≠ 0), rfl⟩
  | cli line =>
    simp only [ip2meCalls]
    rcases sonicExtIp2meCommand_cases line with ⟨err, h⟩ | h | ⟨i, enable, h⟩
    · rw [h]
      exact Or.inl rfl
    · rw [h]
      exact Or.inl rfl
    · rw [h]
      exact Or.inr ⟨i, enable, rfl⟩
  | swInterfaceAdd | swInterfaceDel | setRoutes | arc => exact Or.inl rfl

/-- **Both families of a port are enabled equally often**: an event does the same to both. -/
theorem countsAfter_apply (swInterfaces : BitVec 32 → Bool) (c : Bool × BitVec 32 → ℕ)
    (e : Ip2meEvent) (isIp6 : Bool) (i : BitVec 32) :
    countsAfter swInterfaces c e (isIp6, i) =
      (portOp swInterfaces i e).foldl RefCount.Op.apply (c (isIp6, i)) := by
  have hcalls : RefCount.applyAll c (ip2meCalls swInterfaces e) (isIp6, i) =
      (((ip2meCalls swInterfaces e).filter (·.key = (false, i))).map
        fun call => if call.take then RefCount.Op.take else .drop).foldl RefCount.Op.apply
          (c (isIp6, i)) := by
    rcases ip2meCalls_cases swInterfaces e with h | ⟨j, enable, h⟩
    · rw [h]
      rfl
    · -- the call for the other family has another key, and the same effect on its own
      rw [h]
      unfold sonicExtIp2meEnableDisable
      by_cases hj : j = i
      · subst hj
        cases isIp6 <;> cases enable <;> simp [RefCount.apply, RefCount.Op.apply]
      · have hne : i ≠ j := Ne.symm hj
        simp [RefCount.apply, hj, hne]
  cases e with
  | swInterfaceDel j =>
    unfold countsAfter portOp
    by_cases hj : j = i
    · subst hj
      simp [RefCount.Op.apply]
    · have hne : i ≠ j := Ne.symm hj
      simp [hj, hne]
  | api | cli | swInterfaceAdd | setRoutes | arc => exact hcalls

theorem portOps_snoc (i : BitVec 32) (e : Ip2meEvent) (es : List Ip2meEvent) :
    ∀ swInterfaces, portOps i swInterfaces (es ++ [e]) =
      portOps i swInterfaces es ++ portOp (run swInterfacesAfter swInterfaces es) i e := by
  induction es with
  | nil =>
    intro swInterfaces
    exact List.append_nil _
  | cons e' es ih =>
    intro swInterfaces
    rw [List.cons_append, portOps, ih, portOps, List.append_assoc, run_cons]

/-! ## Histories -/

section Run

variable (swInterfaces : BitVec 32 → Bool) (r : Routes)

/-- The state is that after the history. -/
structure Follows (before : List Ip2meEvent) (s : Ip2meMain) : Prop where
  interfaces : s.swInterfaces = run swInterfacesAfter swInterfaces before
  routes : s.routes = run routesAfter r before
  counts : ∀ isIp6 i, s.counts (isIp6, i) = RefCount.level (portOps i swInterfaces before)

variable {swInterfaces r} {before : List Ip2meEvent} {s : Ip2meMain}

/-- A packet goes past the ACL if the node is enabled on its port and sends it there. -/
theorem Follows.bypasses_iff (h : Follows swInterfaces r before s) (isIp6 : Bool) (b : L2Buffer) :
    Bypasses swInterfaces r before isIp6 b ↔
      0 < s.counts (isIp6, b.swIfIndexRx) ∧ ToUs s.routes isIp6 b := by
  unfold Bypasses
  rw [h.counts, h.routes, RefCount.lt_level_iff]

/-- The next node of a packet of a history. -/
def sentTo (swInterfaces : BitVec 32 → Bool) (r : Routes) (before : List Ip2meEvent)
    (isIp6 : Bool) (b : L2Buffer) : BitVec 16 :=
  if Bypasses swInterfaces r before isIp6 b then ip2meNextArcEnd else b.featNext.setWidth 16

/-- The state after an event that is no frame. -/
theorem Follows.after (h : Follows swInterfaces r before s) (e : Ip2meEvent) :
    Follows swInterfaces r (before ++ [e])
      { s with
        swInterfaces := swInterfacesAfter s.swInterfaces e
        counts := countsAfter s.swInterfaces s.counts e
        routes := routesAfter s.routes e } where
  interfaces := by
    rw [run_snoc, h.interfaces]
  routes := by
    rw [run_snoc, h.routes]
  counts := by
    intro isIp6 i
    show countsAfter s.swInterfaces s.counts e (isIp6, i) = _
    rw [countsAfter_apply, portOps_snoc, RefCount.level_append, h.counts, h.interfaces]

/-- One frame on an arc. -/
theorem Follows.arc (h : Follows swInterfaces r before s) (nodeTraces isIp6 : Bool)
    {bufs : List L2Buffer} (hok : ArcOk s.routes (.arc isIp6 bufs)) :
    ∃ s' sent, ip2meStep nodeTraces s (.arc isIp6 bufs) = some (s', sent) ∧
      s'.swInterfaces = s.swInterfaces ∧ s'.counts = s.counts ∧ s'.routes = s.routes ∧
      sent.Perm (bufs.map fun b => (b, sentTo swInterfaces r before isIp6 b)) ∧
      (∀ f, s'.counters f .hit = s.counters f .hit + BitVec.ofNat 64
        (bufs.countP fun b => isIp6 = f ∧ Bypasses swInterfaces r before isIp6 b)) ∧
      s'.ip2meHits = s.ip2meHits + BitVec.ofNat 64
        (bufs.countP fun b => Bypasses swInterfaces r before isIp6 b) := by
  obtain ⟨hlen, hports⟩ := hok
  have hvisited := sonicExtIp2meInline_eq s nodeTraces isIp6
    (bufs.filter fun b => 0 < s.counts (isIp6, b.swIfIndexRx))
    ((List.length_filter_le _ _).trans hlen) fun b hb => hports b (List.mem_filter.1 hb).1
  -- of the packets that the node sees, those for the switch are the ones that go past the ACL
  have hcount : (bufs.filter fun b => 0 < s.counts (isIp6, b.swIfIndexRx)).countP
      (fun b => ToUs s.routes isIp6 b) =
        bufs.countP fun b => Bypasses swInterfaces r before isIp6 b := by
    rw [List.countP_filter]
    apply List.countP_congr
    intro b _
    simp only [Bool.and_eq_true, decide_eq_true_eq, h.bypasses_iff]
    exact and_comm
  rw [hcount] at hvisited
  simp only [ip2meStep, hvisited, Option.bind_eq_bind, Option.bind_some]
  refine ⟨_, _, rfl, rfl, rfl, rfl, ?_, ?_, rfl⟩
  · have hin : ∀ b ∈ bufs.filter fun b => 0 < s.counts (isIp6, b.swIfIndexRx),
        ip2meNext s.routes isIp6 b = sentTo swInterfaces r before isIp6 b := by
      intro b hb
      have hcount : 0 < s.counts (isIp6, b.swIfIndexRx) := by simpa using (List.mem_filter.1 hb).2
      simp only [ip2meNext, sentTo, h.bypasses_iff, hcount, true_and]
    have hout : ∀ b ∈ bufs.filter fun b => !(0 < s.counts (isIp6, b.swIfIndexRx)),
        b.featNext.setWidth 16 = sentTo swInterfaces r before isIp6 b := by
      intro b hb
      have hcount : ¬ 0 < s.counts (isIp6, b.swIfIndexRx) := by simpa using (List.mem_filter.1 hb).2
      simp only [sentTo, h.bypasses_iff, hcount, false_and, if_false]
    rw [List.map_congr_left fun b hb => by rw [hin b hb],
      List.map_congr_left (l := bufs.filter fun b => !_) fun b hb => by rw [hout b hb],
      ← List.map_append]
    exact (List.filter_append_perm _ bufs).map _
  · -- only the counters of the family's own node change
    intro f
    by_cases hf : f = isIp6
    · subst hf
      simp only [Function.update_self, ip2meError_eq_hit, hcount, true_and]
    · have hne : isIp6 ≠ f := Ne.symm hf
      simp [Function.update_of_ne hf, hne]

/-- One event. -/
theorem Follows.step (h : Follows swInterfaces r before s) (nodeTraces : Bool) {e : Ip2meEvent}
    (hok : ArcOk s.routes e) :
    ∃ s' sent, ip2meStep nodeTraces s e = some (s', sent) ∧
      Follows swInterfaces r (before ++ [e]) s' ∧
      (∀ isIp6 bufs, e = .arc isIp6 bufs →
        sent.Perm (bufs.map fun b => (b, sentTo swInterfaces r before isIp6 b))) ∧
      (∀ f, s'.counters f .hit = s.counters f .hit + BitVec.ofNat 64
        (arcCount (fun isIp6 b => isIp6 = f ∧ Bypasses swInterfaces r before isIp6 b) e)) ∧
      s'.ip2meHits = s.ip2meHits + BitVec.ofNat 64
        (arcCount (fun isIp6 b => Bypasses swInterfaces r before isIp6 b) e) := by
  have hafter := h.after e
  cases e with
  | arc isIp6 bufs =>
    obtain ⟨s', sent, hstep, hifs, hcounts, hroutes, hsent, hhit, hhits⟩ :=
      h.arc nodeTraces isIp6 hok
    refine ⟨s', sent, hstep, ?_, ?_, hhit, hhits⟩
    · exact ⟨hifs.trans hafter.interfaces, hroutes.trans hafter.routes,
        fun f i => (congrFun hcounts (f, i)).trans (hafter.counts f i)⟩
    · rintro _ _ ⟨rfl, rfl⟩
      exact hsent
  | api | cli | swInterfaceAdd | swInterfaceDel | setRoutes =>
    refine ⟨_, _, rfl, hafter, ?_, ?_, ?_⟩
    · intro isIp6 bufs hne
      cases hne
    · exact fun f => (BitVec.add_zero _).symm
    · exact (BitVec.add_zero _).symm

/-- The history goes on. -/
theorem Follows.run (nodeTraces : Bool) (es : List Ip2meEvent) :
    ∀ {before : List Ip2meEvent} {s : Ip2meMain}, Follows swInterfaces r before s →
      Allowed routesAfter ArcOk s.routes es →
      ∃ s' sents, ip2meRun nodeTraces s es = some (s', sents) ∧
        (∀ (n : ℕ) isIp6 bufs, es[n]? = some (.arc isIp6 bufs) → ∃ sent, sents[n]? = some sent ∧
          sent.Perm (bufs.map fun b =>
            (b, sentTo swInterfaces r (before ++ es.take n) isIp6 b))) ∧
        (∀ f, s'.counters f .hit = s.counters f .hit + BitVec.ofNat 64
          (tally (fun before isIp6 b => isIp6 = f ∧ Bypasses swInterfaces r before isIp6 b)
            before es)) ∧
        s'.ip2meHits = s.ip2meHits + BitVec.ofNat 64
          (tally (fun before isIp6 b => Bypasses swInterfaces r before isIp6 b) before es) := by
  induction es with
  | nil =>
    intro before s _ _
    refine ⟨s, [], rfl, ?_, ?_, ?_⟩
    · intro n isIp6 bufs hn
      cases hn
    · exact fun f => (BitVec.add_zero _).symm
    · exact (BitVec.add_zero _).symm
  | cons e es ih =>
    intro before s h hok
    obtain ⟨s₁, sent, hstep, h₁, hsent, hhit, hhits⟩ := h.step nodeTraces hok.1
    have hroutes : s₁.routes = routesAfter s.routes e := by
      rw [h₁.routes, run_snoc, h.routes]
    -- the rest of the history, with this event among what went before
    obtain ⟨s', sents, hrun, hsents, hhit', hhits'⟩ := ih h₁ (hroutes ▸ hok.2)
    refine ⟨s', sent :: sents, ?_, ?_, ?_, ?_⟩
    · rw [ip2meRun, hstep]
      simp only [Option.bind_eq_bind, Option.bind_some, hrun]
    · intro n isIp6 bufs hn
      cases n with
      | zero =>
        rw [List.take_zero, List.append_nil]
        exact ⟨sent, rfl, hsent isIp6 bufs (Option.some.inj hn)⟩
      | succ n =>
        have htake : before ++ (e :: es).take (n + 1) = (before ++ [e]) ++ es.take n := by
          rw [List.take_succ_cons, List.append_assoc]
          rfl
        rw [htake]
        exact hsents n isIp6 bufs hn
    · intro f
      rw [hhit', hhit, tally, BitVec.ofNat_add, BitVec.add_assoc]
    · rw [hhits', hhits, tally, BitVec.ofNat_add, BitVec.add_assoc]

end Run

/-- **Local traffic goes past the ACL, and nothing else does.**  In every history no access goes
wrong; a packet that comes is sent on once, past the ACL exactly if since some moment of its port
the node was enabled there more often than disabled and its destination is an address of the
switch; and the hits are counted, for each family and together. -/
theorem ip2me_run (swInterfaces : BitVec 32 → Bool) (r : Routes) (nodeTraces : Bool)
    (es : List Ip2meEvent) (hok : Allowed routesAfter ArcOk r es) :
    ∃ s sents, ip2meRun nodeTraces (Ip2meMain.start swInterfaces r) es = some (s, sents) ∧
      (∀ (n : ℕ) isIp6 bufs, es[n]? = some (.arc isIp6 bufs) → ∃ sent, sents[n]? = some sent ∧
        sent.Perm (bufs.map fun b => (b, if Bypasses swInterfaces r (es.take n) isIp6 b then
          ip2meNextArcEnd else b.featNext.setWidth 16))) ∧
      (∀ f, s.counters f .hit = BitVec.ofNat 64
        (tally (fun before isIp6 b => isIp6 = f ∧ Bypasses swInterfaces r before isIp6 b) [] es)) ∧
      s.ip2meHits = BitVec.ofNat 64
        (tally (fun before isIp6 b => Bypasses swInterfaces r before isIp6 b) [] es) := by
  have hstart : Follows swInterfaces r [] (Ip2meMain.start swInterfaces r) :=
    ⟨rfl, rfl, fun _ _ => rfl⟩
  obtain ⟨s, sents, hrun, hsents, hhit, hhits⟩ := hstart.run nodeTraces es hok
  refine ⟨s, sents, hrun, hsents, ?_, ?_⟩
  · intro f
    rw [hhit f]
    exact BitVec.zero_add _
  · rw [hhits]
    exact BitVec.zero_add _

/-- Port 1 has FIB 0, where `10.0.0.1` is an address of the switch. -/
def oneAddress : Routes where
  ip4 := ⟨[BitVec.allOnes 32, 0], fun _ dst => if dst = 0x0a000001 then 7 else 8⟩
  ip6 := ⟨[BitVec.allOnes 32, 0], fun _ _ => 8⟩
  loadBalanceGetOrNull lbi :=
    if lbi = 7 then some ⟨.receive, []⟩ else if lbi = 8 then some ⟨.other, []⟩ else none

/-- A packet for `10.0.0.x` that comes in on port 1. -/
def toHost (x : BitVec 8) : L2Buffer where
  data i := if i = 30 then 10 else if i = 33 then x else 0
  currentData := 0
  currentLength := 60
  l2HdrOffset := 0
  swIfIndexRx := 1
  swIfIndexTx := 0
  sonicExt := ⟨0, 0, ⟨0, 0⟩⟩
  l3HdrOffset := 14
  featNext := 3
  isTraced := false

/-- The port is enabled twice and disabled once. -/
def twiceEnabled : List Ip2meEvent :=
  [.api 1 1, .cli [.swInterface 1, .on], .cli [.swInterface 1], .api 1 0,
    .arc false [toHost 2, toHost 1]]

/-- It is still enabled: the packet for the switch goes past the ACL, the other one does not. -/
theorem ip2me_run_twice :
    ∃ s sents sent, ip2meRun false (Ip2meMain.start (fun _ => true) oneAddress) twiceEnabled =
        some (s, sents) ∧
      sents[4]? = some sent ∧ sent.Perm [(toHost 2, 3), (toHost 1, ip2meNextArcEnd)] ∧
      s.ip2meHits = 1 := by
  obtain ⟨s, sents, hrun, hsents, -, hhits⟩ := ip2me_run (fun _ => true) oneAddress false
    twiceEnabled ⟨trivial, trivial, trivial, trivial,
      ⟨by decide, by simp [toHost, oneAddress, Routes.fibIndices, routesAfter]⟩, trivial⟩
  obtain ⟨sent, hsent, hperm⟩ := hsents 4 false _ rfl
  exact ⟨s, sents, sent, hrun, hsent, hperm, hhits⟩

end SonicExt
