/-
# The IP flow hashes

`ip4_compute_flow_hash` and `ip6_compute_flow_hash` as
`0011-sonic-inner-aware-flow-hash.patch` leaves them, and as its removed and context
lines give them before the patch (`...Upstream`).

The patch shows how the hashed header is chosen.  What the lines it does not show
make of the selected addresses, ports, protocol, TEID and flow label is a parameter
(`FlowHashTail`), the same before and after.
-/
import SonicVpp.InnerResolve

open PacketBytes Ip

namespace InnerHash

/-! ## Configuration -/

/-- `flow_hash_config_t`, with the bits of `foreach_flow_hash_bit`. -/
@[reducible] def FlowHashConfig := BitVec 32

/-- `IP_FLOW_HASH_SRC_ADDR`. -/
def FlowHashConfig.srcAddr (cfg : FlowHashConfig) : Bool := BitVec.getLsbD cfg 0

/-- `IP_FLOW_HASH_DST_ADDR`. -/
def FlowHashConfig.dstAddr (cfg : FlowHashConfig) : Bool := BitVec.getLsbD cfg 1

/-- `IP_FLOW_HASH_SRC_PORT`. -/
def FlowHashConfig.srcPort (cfg : FlowHashConfig) : Bool := BitVec.getLsbD cfg 2

/-- `IP_FLOW_HASH_DST_PORT`. -/
def FlowHashConfig.dstPort (cfg : FlowHashConfig) : Bool := BitVec.getLsbD cfg 3

/-- `IP_FLOW_HASH_PROTO`. -/
def FlowHashConfig.proto (cfg : FlowHashConfig) : Bool := BitVec.getLsbD cfg 4

/-- `IP_FLOW_HASH_REVERSE_SRC_DST`. -/
def FlowHashConfig.reverseSrcDst (cfg : FlowHashConfig) : Bool := BitVec.getLsbD cfg 5

/-- `IP_FLOW_HASH_FL`. -/
def FlowHashConfig.fl (cfg : FlowHashConfig) : Bool := BitVec.getLsbD cfg 7

/-- `IP_FLOW_HASH_GTPV1_TEID`. -/
def FlowHashConfig.gtpv1Teid (cfg : FlowHashConfig) : Bool := BitVec.getLsbD cfg 8

/-- `IP_FLOW_HASH_PEEK_INNER`. -/
def FlowHashConfig.peekInner (cfg : FlowHashConfig) : Bool := BitVec.getLsbD cfg 9

/-! ## What the hash mixes -/

/-- The selected address words `a` and `b`, ports, protocol, TEID and flow label that
the hash mixes; the address words have 32 bits for IPv4 and 64 for IPv6. -/
structure HashFields (w : ℕ) where
  a : BitVec w
  b : BitVec w
  srcPort : BitVec 16
  dstPort : BitVec 16
  protocol : BitVec 8
  teid : Option (BitVec 32)
  flowLabel : Option (BitVec 32)
  deriving DecidableEq

/-- The lines of the two hashes that the patch does not show. -/
structure FlowHashTail where
  ip4 : FlowHashConfig → HashFields 32 → BitVec 32
  ip6 : FlowHashConfig → HashFields 64 → BitVec 32

/-- A TCP or UDP port, if it is selected. -/
def hashPort (m : Mem) (isTcpUdp selected : Bool) (port : ℕ) : BitVec 16 :=
  if isTcpUdp && selected then loadU16 m port else 0

/-- The GTPv1 TEID behind a UDP header to port 2152, if it is selected: offset 4 of
the header that follows the UDP header. -/
def hashTeid (m : Mem) (cfg : FlowHashConfig) (isUdp : Bool) (udp : ℕ) : Option (BitVec 32) :=
  if isUdp && cfg.gtpv1Teid && netU16 m (udp + 2) = 2152 then some (loadU32 m (udp + 8 + 4))
  else none

/-- The header a hash is computed from: source and destination words, protocol, and
the pointers and flags the port and TEID reads use. -/
structure HashedHeader (w : ℕ) where
  src : BitVec w
  dst : BitVec w
  protocol : BitVec 8
  isTcpUdp : Bool
  isUdp : Bool
  tcp : ℕ
  udp : ℕ
  deriving DecidableEq

/-- The selection both hashes share. -/
def hashFields {w : ℕ} (m : Mem) (cfg : FlowHashConfig) (flowLabel : Option (BitVec 32))
    (x : HashedHeader w) : HashFields w :=
  let t1 := if cfg.srcAddr then x.src else 0
  let t2 := if cfg.dstAddr then x.dst else 0
  { a := if cfg.reverseSrcDst then t2 else t1
    b := if cfg.reverseSrcDst then t1 else t2
    srcPort := hashPort m x.isTcpUdp cfg.srcPort x.tcp
    dstPort := hashPort m x.isTcpUdp cfg.dstPort (x.tcp + 2)
    protocol := if cfg.proto then x.protocol else 0
    teid := hashTeid m cfg x.isUdp x.udp
    flowLabel := flowLabel }

/-! ## IPv4 -/

/-- `ip6_addr_fold_u32`. -/
def ip6AddrFoldU32 (m : Mem) (a : ℕ) : BitVec 32 :=
  loadU32 m a ^^^ loadU32 m (a + 4) ^^^ loadU32 m (a + 8) ^^^ loadU32 m (a + 12)

/-- The header an IPv4 hash takes from the outer packet. -/
def ip4OuterHeader (m : Mem) (ip : ℕ) : HashedHeader 32 where
  src := loadU32 m (ip + 12)
  dst := loadU32 m (ip + 16)
  protocol := ip4Protocol m ip
  isTcpUdp := isTcpUdp (ip4Protocol m ip)
  isUdp := ip4Protocol m ip = protocolUdp
  tcp := ip + ip4HeaderSize
  udp := ip + ip4HeaderSize

/-- The header an IPv4 hash takes from a resolved inner packet. -/
def ip4InnerHeader (m : Mem) (h : IpInnerHdr) : HashedHeader 32 where
  src := if h.isV6 then ip6AddrFoldU32 m (h.ip + 8) else loadU32 m (h.ip + 12)
  dst := if h.isV6 then ip6AddrFoldU32 m (h.ip + 24) else loadU32 m (h.ip + 16)
  protocol := h.protocol
  isTcpUdp := isTcpUdp h.protocol
  isUdp := h.protocol = protocolUdp
  tcp := h.l4
  udp := h.l4

/-- The peek of `ip4_compute_flow_hash`, bounded by the total length. -/
def ip4Peek (m : Mem) (ip : ℕ) : Option IpInnerHdr :=
  if ip4IsFragment m ip then none
  else if ip4HeaderBytes m ip ≤ ip4Length m ip then
    ipInnerResolve m (ip4Protocol m ip) (ip + ip4HeaderBytes m ip)
      (ip4Length m ip - ip4HeaderBytes m ip)
  else none

/-- The inner header that `ip4_compute_flow_hash` uses. -/
def ip4Inner (m : Mem) (ip : ℕ) (cfg : FlowHashConfig) : Option IpInnerHdr :=
  if cfg.peekInner then ip4Peek m ip else none

/-- What `ip4_compute_flow_hash` mixes. -/
def ip4HashFields (m : Mem) (ip : ℕ) (cfg : FlowHashConfig) : HashFields 32 :=
  hashFields m cfg none <|
    match ip4Inner m ip cfg with
    | some h => ip4InnerHeader m h
    | none => ip4OuterHeader m ip

/-- `ip4_compute_flow_hash`. -/
def ip4ComputeFlowHash (tail : FlowHashTail) (m : Mem) (ip : ℕ) (cfg : FlowHashConfig) :
    BitVec 32 :=
  tail.ip4 cfg (ip4HashFields m ip cfg)

/-- `ip4_compute_flow_hash` before the patch. -/
def ip4ComputeFlowHashUpstream (tail : FlowHashTail) (m : Mem) (ip : ℕ) (cfg : FlowHashConfig) :
    BitVec 32 :=
  tail.ip4 cfg (hashFields m cfg none (ip4OuterHeader m ip))

/-! ## IPv6 -/

/-- Both halves of an IPv6 address, combined. -/
def ip6AddrFoldU64 (m : Mem) (a : ℕ) : BitVec 64 := loadU64 m a ^^^ loadU64 m (a + 8)

/-- The hop-by-hop step of the patched walk, bounded by the payload length: next
header, position and bytes walked. -/
def ip6WalkHopByHop (m : Mem) (ip : ℕ) : BitVec 8 × ℕ × ℕ :=
  let protocol := ip6Protocol m ip
  let cur := ip + ip6HeaderSize
  if protocol = protocolIp6HopByHopOptions && 2 ≤ ip6PayloadLength m ip then
    if extBytes m cur ≤ ip6PayloadLength m ip then
      (extProtocol m cur, cur + extBytes m cur, extBytes m cur)
    else (protocol, cur, 0)
  else (protocol, cur, 0)

/-- `sizeof (ip6_fragment_ext_header_t)`. -/
def ip6FragmentHeaderSize : ℕ := 8

/-- A header without ports: `tcp` is not read. -/
def ip6NoPorts (m : Mem) (ip : ℕ) (protocol : BitVec 8) : HashedHeader 64 where
  src := ip6AddrFoldU64 m (ip + 8)
  dst := ip6AddrFoldU64 m (ip + 24)
  protocol := protocol
  isTcpUdp := false
  isUdp := false
  tcp := ip + ip6HeaderSize
  udp := ip + ip6HeaderSize

/-- A header with ports at `tcp`.  `udp` stays at the end of the IPv6 header, whatever
was walked. -/
def ip6Ports (m : Mem) (ip : ℕ) (protocol : BitVec 8) (isUdp : Bool) (tcp : ℕ) :
    HashedHeader 64 where
  src := ip6AddrFoldU64 m (ip + 8)
  dst := ip6AddrFoldU64 m (ip + 24)
  protocol := protocol
  isTcpUdp := true
  isUdp := isUdp
  tcp := tcp
  udp := ip + ip6HeaderSize

/-- TCP or UDP directly behind the IPv6 header. -/
def ip6Direct (m : Mem) (ip : ℕ) : HashedHeader 64 :=
  ip6Ports m ip (ip6Protocol m ip) (ip6Protocol m ip = protocolUdp) (ip + ip6HeaderSize)

/-- The header an IPv6 hash takes from a resolved inner packet. -/
def ip6InnerHeader (m : Mem) (h : IpInnerHdr) : HashedHeader 64 where
  src := if h.isV6 then ip6AddrFoldU64 m (h.ip + 8) else (loadU32 m (h.ip + 12)).setWidth 64
  dst := if h.isV6 then ip6AddrFoldU64 m (h.ip + 24) else (loadU32 m (h.ip + 16)).setWidth 64
  protocol := h.protocol
  isTcpUdp := isTcpUdp h.protocol
  isUdp := h.protocol = protocolUdp
  tcp := h.l4
  udp := h.l4

/-- The peek of `ip6_compute_flow_hash`, past a hop-by-hop header and bounded by the
payload length.  A Fragment header (`outer_fragmented`), TCP or UDP excludes it. -/
def ip6Peek (m : Mem) (ip : ℕ) : Option IpInnerHdr :=
  let (protocol, cur, walked) := ip6WalkHopByHop m ip
  if isTcpUdp (ip6Protocol m ip) || protocol = protocolIpv6Fragmentation || isTcpUdp protocol
  then none
  else if walked ≤ ip6PayloadLength m ip then
    ipInnerResolve m protocol cur (ip6PayloadLength m ip - walked)
  else none

/-- The inner header that `ip6_compute_flow_hash` uses. -/
def ip6Inner (m : Mem) (ip : ℕ) (cfg : FlowHashConfig) : Option IpInnerHdr :=
  if cfg.peekInner then ip6Peek m ip else none

/-- The header that `ip6_compute_flow_hash` takes from the outer packet. -/
def ip6OuterHeader (m : Mem) (ip : ℕ) : HashedHeader 64 :=
  if isTcpUdp (ip6Protocol m ip) then ip6Direct m ip
  else
    let (protocol, cur, walked) := ip6WalkHopByHop m ip
    if protocol = protocolIpv6Fragmentation then
      if walked + ip6FragmentHeaderSize ≤ ip6PayloadLength m ip then
        ip6NoPorts m ip (extProtocol m cur)
      else ip6NoPorts m ip protocol
    else if isTcpUdp protocol then ip6Ports m ip protocol (protocol = protocolUdp) cur
    else ip6NoPorts m ip protocol

/-- The flow label word, if it is selected. -/
def ip6FlowLabel (m : Mem) (ip : ℕ) (cfg : FlowHashConfig) : Option (BitVec 32) :=
  if cfg.fl then some (loadU32 m ip) else none

/-- What `ip6_compute_flow_hash` mixes. -/
def ip6HashFields (m : Mem) (ip : ℕ) (cfg : FlowHashConfig) : HashFields 64 :=
  hashFields m cfg (ip6FlowLabel m ip cfg) <|
    match ip6Inner m ip cfg with
    | some h => ip6InnerHeader m h
    | none => ip6OuterHeader m ip

/-- `ip6_compute_flow_hash`. -/
def ip6ComputeFlowHash (tail : FlowHashTail) (m : Mem) (ip : ℕ) (cfg : FlowHashConfig) :
    BitVec 32 :=
  tail.ip6 cfg (ip6HashFields m ip cfg)

/-- The header `ip6_compute_flow_hash` took before the patch: no length is checked,
and `is_udp` is that of the first next header. -/
def ip6UpstreamHeader (m : Mem) (ip : ℕ) : HashedHeader 64 :=
  if isTcpUdp (ip6Protocol m ip) then ip6Direct m ip
  else
    let (protocol, cur) :=
      if ip6Protocol m ip = protocolIp6HopByHopOptions then
        (extProtocol m (ip + ip6HeaderSize),
          ip + ip6HeaderSize + extBytes m (ip + ip6HeaderSize))
      else (ip6Protocol m ip, ip + ip6HeaderSize)
    if protocol = protocolIpv6Fragmentation then ip6NoPorts m ip (extProtocol m cur)
    else if isTcpUdp protocol then
      ip6Ports m ip protocol (ip6Protocol m ip = protocolUdp) cur
    else ip6NoPorts m ip protocol

/-- `ip6_compute_flow_hash` before the patch. -/
def ip6ComputeFlowHashUpstream (tail : FlowHashTail) (m : Mem) (ip : ℕ) (cfg : FlowHashConfig) :
    BitVec 32 :=
  tail.ip6 cfg (hashFields m cfg (ip6FlowLabel m ip cfg) (ip6UpstreamHeader m ip))

end InnerHash
