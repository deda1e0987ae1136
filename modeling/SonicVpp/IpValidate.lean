/-
# The plugin `ip_validate`

The nodes `ip4-validate` and `ip6-validate` drop unicast packets that have a group address as
their Ethernet destination, or an IP address that must not be seen on the wire.

What the nodes are for is said by a `Policy`: destinations that are exempt, and a list of
prefixes, each for the source or for the destination and with its error; the first one that
matches decides.  The code compares shifted words and single bytes and does so in this order
(`ip4ValidateX1_eq`, `ip6ValidateX1_eq`), so a run of a node over any frames sends and counts
what the policy says.
-/
import SonicVpp.FrameNode
import SonicVpp.PacketBytes

open PacketBytes

namespace IpValidate

/-! ## The nodes -/

/-- The buffer of a packet: its bytes, where the current header and the Ethernet header start,
the next node on the feature arc, and what a trace records. -/
structure Buffer where
  data : Mem
  currentData : ℕ
  l2HdrOffset : ℕ
  featNext : BitVec 32
  swIfIndexRx : BitVec 32
  isTraced : Bool

/-- `IP4_VALIDATE_ERROR_*`. -/
inductive Ip4Error
  | valid
  | srcLoopback
  | srcMulticast
  | srcClassE
  | srcUnspecified
  | srcLinkLocal
  | dstLoopback
  | dstLinkLocal
  | l2McastBcast
  deriving DecidableEq, Repr

/-- `IP6_VALIDATE_ERROR_*`. -/
inductive Ip6Error
  | valid
  | srcMulticast
  | srcUnspecified
  | srcLoopback
  | dstUnspecified
  | dstLoopback
  | l2McastBcast
  deriving DecidableEq, Repr

/-- The errors in the order of their counters. -/
def ip4Errors : List Ip4Error :=
  [.valid, .srcLoopback, .srcMulticast, .srcClassE, .srcUnspecified, .srcLinkLocal, .dstLoopback,
    .dstLinkLocal, .l2McastBcast]

/-- The errors in the order of their counters. -/
def ip6Errors : List Ip6Error :=
  [.valid, .srcMulticast, .srcUnspecified, .srcLoopback, .dstUnspecified, .dstLoopback,
    .l2McastBcast]

/-- `IP4_VALIDATE_NEXT_DROP` and `IP6_VALIDATE_NEXT_DROP`. -/
def nextDrop : BitVec 16 := 0

/-- `*next = (u16) feat_next`. -/
def Buffer.nextFeature (b : Buffer) : BitVec 16 := b.featNext.setWidth 16

/-- `ethernet_buffer_get_header`. -/
def Buffer.eth (b : Buffer) : ℕ := b.l2HdrOffset

/-- `eth->dst_address[0] & 0x01`. -/
def Buffer.groupMac (b : Buffer) : Bool := b.data b.eth &&& 0x01 ≠ 0

/-- `ip4_validate_x1`. -/
def ip4ValidateX1 (b : Buffer) : Ip4Error × BitVec 16 :=
  let src := netU32 b.data (b.currentData + 12)
  let dst := netU32 b.data (b.currentData + 16)
  if dst = 0xFFFFFFFF ∨ dst >>> 28 = 0xE then (.valid, b.nextFeature)
  else if b.groupMac then (.l2McastBcast, nextDrop)
  else if src >>> 24 = 127 then (.srcLoopback, nextDrop)
  else if src >>> 28 = 0xE then (.srcMulticast, nextDrop)
  else if src >>> 28 = 0xF then (.srcClassE, nextDrop)
  else if src = 0 then (.srcUnspecified, nextDrop)
  else if src >>> 16 = 0xA9FE then (.srcLinkLocal, nextDrop)
  else if dst >>> 24 = 127 then (.dstLoopback, nextDrop)
  else if dst >>> 16 = 0xA9FE then (.dstLinkLocal, nextDrop)
  else (.valid, b.nextFeature)

/-- `ip6_validate_address_is_zero`. -/
def ip6ValidateAddressIsZero (m : Mem) (a : ℕ) : Bool := loadU64 m a = 0 ∧ loadU64 m (a + 8) = 0

/-- `ip6_validate_address_is_loopback`: `clib_host_to_net_u64 (1)` is the word with a one in its
last byte. -/
def ip6ValidateAddressIsLoopback (m : Mem) (a : ℕ) : Bool :=
  loadU64 m a = 0 ∧ loadU64 m (a + 8) = 0x0100000000000000

/-- `ip6_validate_x1`. -/
def ip6ValidateX1 (b : Buffer) : Ip6Error × BitVec 16 :=
  let src := b.currentData + 8
  let dst := b.currentData + 24
  if b.data dst = 0xFF then (.valid, b.nextFeature)
  else if b.groupMac then (.l2McastBcast, nextDrop)
  else if b.data src = 0xFF then (.srcMulticast, nextDrop)
  else if ip6ValidateAddressIsZero b.data src then (.srcUnspecified, nextDrop)
  else if ip6ValidateAddressIsLoopback b.data src then (.srcLoopback, nextDrop)
  else if ip6ValidateAddressIsZero b.data dst then (.dstUnspecified, nextDrop)
  else if ip6ValidateAddressIsLoopback b.data dst then (.dstLoopback, nextDrop)
  else (.valid, b.nextFeature)

/-- `ip4_validate_trace_t` and `ip6_validate_trace_t`: the addresses are copied as they are. -/
structure Trace where
  swIfIndex : BitVec 32
  nextIndex : BitVec 32
  srcAddr : List (BitVec 8)
  dstAddr : List (BitVec 8)

/-- What is traced of a packet, if the node traces: `src`, `dst` and the length of an address. -/
def traceOne (src dst length : ℕ) (nodeTraces : Bool) (b : Buffer) (next : BitVec 16) :
    List Trace :=
  if nodeTraces && b.isTraced then
    [⟨b.swIfIndexRx, next.setWidth 32, bytesAt b.data (b.currentData + src) length,
      bytesAt b.data (b.currentData + dst) length⟩]
  else []

/-- `ip4_validate_trace_one`. -/
def ip4ValidateTraceOne : Bool → Buffer → BitVec 16 → List Trace := traceOne 12 16 4

/-- `ip6_validate_trace_one`. -/
def ip6ValidateTraceOne : Bool → Buffer → BitVec 16 → List Trace := traceOne 8 24 16

/-- `ip4_validate_node`, frame after frame. -/
def ip4ValidateNode (nodeTraces prefetches : Bool) :
    (Ip4Error → BitVec 64) → List (List Buffer) →
      Option (List (BitVec 16) × (Ip4Error → BitVec 64)) :=
  FrameNode.run ip4ValidateX1 (ip4ValidateTraceOne nodeTraces) ip4Errors prefetches

/-- `ip6_validate_node`, frame after frame. -/
def ip6ValidateNode (nodeTraces prefetches : Bool) :
    (Ip6Error → BitVec 64) → List (List Buffer) →
      Option (List (BitVec 16) × (Ip6Error → BitVec 64)) :=
  FrameNode.run ip6ValidateX1 (ip6ValidateTraceOne nodeTraces) ip6Errors prefetches

/-! ## The policy -/

/-- A prefix of addresses. -/
structure AddressPrefix (w : ℕ) where
  addr : BitVec w
  len : ℕ

/-- The address is under the prefix: their first bits are the same. -/
def AddressPrefix.Covers {w : ℕ} (p : AddressPrefix w) (a : BitVec w) : Prop :=
  a.toNat / 2 ^ (w - p.len) = p.addr.toNat / 2 ^ (w - p.len)

instance {w : ℕ} (p : AddressPrefix w) (a : BitVec w) : Decidable (p.Covers a) :=
  inferInstanceAs (Decidable (_ = _))

/-- Which address of a packet a rule is about. -/
inductive Side
  | src
  | dst
  deriving DecidableEq, Repr

/-- A rule: packets with this address under the prefix are dropped for the error. -/
structure Rule (ε : Type) (w : ℕ) where
  side : Side
  pre : AddressPrefix w
  error : ε

/-- What must not be seen on the wire. -/
structure Policy (ε : Type) (w : ℕ) where
  exempt : List (AddressPrefix w)
  l2Error : ε
  rules : List (Rule ε w)

/-- What a packet is for the policy. -/
structure Packet (w : ℕ) where
  src : BitVec w
  dst : BitVec w
  groupMac : Bool

/-- The address that a rule is about. -/
def Packet.address {w : ℕ} (p : Packet w) : Side → BitVec w
  | .src => p.src
  | .dst => p.dst

section Verdict

variable {ε : Type} {w : ℕ}

/-- The address that the rule is about is under its prefix. -/
def Rule.Matches (r : Rule ε w) (p : Packet w) : Prop := r.pre.Covers (p.address r.side)

instance (r : Rule ε w) (p : Packet w) : Decidable (r.Matches p) :=
  inferInstanceAs (Decidable (r.pre.Covers (p.address r.side)))

/-- The error of the first rule that matches. -/
def firstError : List (Rule ε w) → Packet w → Option ε
  | [], _ => none
  | r :: rules, p => if r.Matches p then some r.error else firstError rules p

/-- Why a packet is dropped, if it is. -/
def Policy.verdict (policy : Policy ε w) (p : Packet w) : Option ε :=
  if ∃ e ∈ policy.exempt, e.Covers p.dst then none
  else if p.groupMac then some policy.l2Error
  else firstError policy.rules p

/-- The first bits as they are read with a shift. -/
theorem covers_iff_ushiftRight {p : AddressPrefix w} {k : ℕ} (hk : w - p.len = k) {c : BitVec w}
    (hc : p.addr.toNat / 2 ^ k = c.toNat) (a : BitVec w) : p.Covers a ↔ a >>> k = c := by
  unfold AddressPrefix.Covers
  rw [hk, hc, ← BitVec.toNat_inj, BitVec.toNat_ushiftRight, Nat.shiftRight_eq_div_pow]

/-- A prefix that is a whole address. -/
theorem covers_iff_eq {p : AddressPrefix w} (hlen : p.len = w) (a : BitVec w) :
    p.Covers a ↔ a = p.addr := by
  unfold AddressPrefix.Covers
  rw [hlen, Nat.sub_self, Nat.pow_zero, Nat.div_one, Nat.div_one, BitVec.toNat_inj]

end Verdict

/-! ### IPv4 -/

/-- What `ip4-validate` is for: broadcast and multicast are exempt. -/
def ip4Policy : Policy Ip4Error 32 where
  exempt := [⟨0xFFFFFFFF, 32⟩, ⟨0xE0000000, 4⟩]
  l2Error := .l2McastBcast
  rules :=
    [⟨.src, ⟨0x7F000000, 8⟩, .srcLoopback⟩, ⟨.src, ⟨0xE0000000, 4⟩, .srcMulticast⟩,
      ⟨.src, ⟨0xF0000000, 4⟩, .srcClassE⟩, ⟨.src, ⟨0, 32⟩, .srcUnspecified⟩,
      ⟨.src, ⟨0xA9FE0000, 16⟩, .srcLinkLocal⟩, ⟨.dst, ⟨0x7F000000, 8⟩, .dstLoopback⟩,
      ⟨.dst, ⟨0xA9FE0000, 16⟩, .dstLinkLocal⟩]

/-- The packet in a buffer. -/
def Buffer.ip4Packet (b : Buffer) : Packet 32 where
  src := netU32 b.data (b.currentData + 12)
  dst := netU32 b.data (b.currentData + 16)
  groupMac := b.groupMac

/-- What comes of a verdict. -/
def sentFor {ε : Type} (valid : ε) (b : Buffer) : Option ε → ε × BitVec 16
  | none => (valid, b.nextFeature)
  | some e => (e, nextDrop)

/-- **The code of `ip4-validate` is its policy.** -/
theorem ip4ValidateX1_eq (b : Buffer) :
    ip4ValidateX1 b = sentFor .valid b (ip4Policy.verdict b.ip4Packet) := by
  have hbroadcast : ∀ a : BitVec 32, (⟨0xFFFFFFFF, 32⟩ : AddressPrefix 32).Covers a ↔
      a = 0xFFFFFFFF := covers_iff_eq rfl
  have hmulticast : ∀ a : BitVec 32, (⟨0xE0000000, 4⟩ : AddressPrefix 32).Covers a ↔
      a >>> 28 = 0xE := covers_iff_ushiftRight rfl rfl
  have hloopback : ∀ a : BitVec 32, (⟨0x7F000000, 8⟩ : AddressPrefix 32).Covers a ↔
      a >>> 24 = 127 := covers_iff_ushiftRight rfl rfl
  have hclassE : ∀ a : BitVec 32, (⟨0xF0000000, 4⟩ : AddressPrefix 32).Covers a ↔
      a >>> 28 = 0xF := covers_iff_ushiftRight rfl rfl
  have hunspecified : ∀ a : BitVec 32, (⟨0, 32⟩ : AddressPrefix 32).Covers a ↔ a = 0 :=
    covers_iff_eq rfl
  have hlinkLocal : ∀ a : BitVec 32, (⟨0xA9FE0000, 16⟩ : AddressPrefix 32).Covers a ↔
      a >>> 16 = 0xA9FE := covers_iff_ushiftRight rfl rfl
  simp only [Policy.verdict, ip4Policy, Buffer.ip4Packet, firstError, Rule.Matches,
    Packet.address, List.mem_cons, List.not_mem_nil, or_false, exists_eq_or_imp, exists_eq_left,
    hbroadcast, hmulticast, hloopback, hclassE, hunspecified, hlinkLocal]
  -- the same tests in the same order on both sides, with what is sent in place of the errors
  simp only [apply_ite (sentFor Ip4Error.valid b)]
  rfl

/-! ### IPv6 -/

/-- An IPv6 address. -/
def ip6Addr (m : Mem) (a : ℕ) : BitVec 128 :=
  (netU32 m a ++ netU32 m (a + 4)) ++ (netU32 m (a + 8) ++ netU32 m (a + 12))

/-- What `ip6-validate` is for: multicast is exempt. -/
def ip6Policy : Policy Ip6Error 128 where
  exempt := [⟨0xFF000000000000000000000000000000, 8⟩]
  l2Error := .l2McastBcast
  rules :=
    [⟨.src, ⟨0xFF000000000000000000000000000000, 8⟩, .srcMulticast⟩,
      ⟨.src, ⟨0, 128⟩, .srcUnspecified⟩, ⟨.src, ⟨1, 128⟩, .srcLoopback⟩,
      ⟨.dst, ⟨0, 128⟩, .dstUnspecified⟩, ⟨.dst, ⟨1, 128⟩, .dstLoopback⟩]

/-- The packet in a buffer. -/
def Buffer.ip6Packet (b : Buffer) : Packet 128 where
  src := ip6Addr b.data (b.currentData + 8)
  dst := ip6Addr b.data (b.currentData + 24)
  groupMac := b.groupMac

section Words

theorem toNat_append_add {m n : ℕ} (x : BitVec m) (y : BitVec n) :
    (x ++ y).toNat = x.toNat * 2 ^ n + y.toNat := by
  rw [BitVec.toNat_append, ← Nat.shiftLeft_add_eq_or_of_lt y.isLt, Nat.shiftLeft_eq]

variable (m : Mem) (a : ℕ)

theorem netU32_toNat : (netU32 m a).toNat =
    (m a).toNat * 2 ^ 24 + (m (a + 1)).toNat * 2 ^ 16 + (m (a + 2)).toNat * 2 ^ 8 +
      (m (a + 3)).toNat := by
  unfold netU32 netU16
  rw [toNat_append_add, toNat_append_add, toNat_append_add]
  simp only [Nat.add_assoc, Nat.reduceAdd]
  omega

theorem loadU32_toNat : (loadU32 m a).toNat =
    (m a).toNat + (m (a + 1)).toNat * 2 ^ 8 + (m (a + 2)).toNat * 2 ^ 16 +
      (m (a + 3)).toNat * 2 ^ 24 := by
  unfold loadU32 loadU16
  rw [toNat_append_add, toNat_append_add, toNat_append_add]
  simp only [Nat.add_assoc, Nat.reduceAdd]
  omega

theorem loadU64_toNat : (loadU64 m a).toNat =
    (m a).toNat + (m (a + 1)).toNat * 2 ^ 8 + (m (a + 2)).toNat * 2 ^ 16 +
      (m (a + 3)).toNat * 2 ^ 24 + (m (a + 4)).toNat * 2 ^ 32 + (m (a + 5)).toNat * 2 ^ 40 +
      (m (a + 6)).toNat * 2 ^ 48 + (m (a + 7)).toNat * 2 ^ 56 := by
  unfold loadU64
  rw [toNat_append_add, loadU32_toNat, loadU32_toNat]
  simp only [Nat.add_assoc, Nat.reduceAdd]
  omega

/-- The bytes of an address, from the first. -/
theorem ip6Addr_toNat : (ip6Addr m a).toNat =
    ((netU32 m a).toNat * 2 ^ 32 + (netU32 m (a + 4)).toNat) * 2 ^ 64 +
      ((netU32 m (a + 8)).toNat * 2 ^ 32 + (netU32 m (a + 12)).toNat) := by
  unfold ip6Addr
  rw [toNat_append_add, toNat_append_add, toNat_append_add]

/-- A word is zero in the order of the host if it is in network order. -/
theorem loadU64_eq_zero_iff :
    loadU64 m a = 0 ↔ (netU32 m a).toNat = 0 ∧ (netU32 m (a + 4)).toNat = 0 := by
  rw [← BitVec.toNat_inj, loadU64_toNat, netU32_toNat, netU32_toNat]
  simp only [Nat.add_assoc, Nat.reduceAdd]
  constructor
  · intro h
    have hzero : (0 : BitVec 64).toNat = 0 := rfl
    rw [hzero] at h
    omega
  · intro h
    have hzero : (0 : BitVec 64).toNat = 0 := rfl
    rw [hzero]
    omega

/-- And it is one in network order if the last byte is. -/
theorem loadU64_eq_one_iff :
    loadU64 m a = 0x0100000000000000 ↔
      (netU32 m a).toNat = 0 ∧ (netU32 m (a + 4)).toNat = 1 := by
  have hone : (0x0100000000000000 : BitVec 64).toNat = 2 ^ 56 := rfl
  have hbyte := fun k => (m (a + k)).isLt
  rw [← BitVec.toNat_inj, loadU64_toNat, netU32_toNat, netU32_toNat, hone]
  have h0 := (m a).isLt
  have h1 := hbyte 1
  have h2 := hbyte 2
  have h3 := hbyte 3
  have h4 := hbyte 4
  have h5 := hbyte 5
  have h6 := hbyte 6
  have h7 := hbyte 7
  simp only [Nat.add_assoc, Nat.reduceAdd]
  constructor
  · intro h
    omega
  · intro h
    omega

theorem addressIsZero_iff : ip6ValidateAddressIsZero m a = true ↔ ip6Addr m a = 0 := by
  unfold ip6ValidateAddressIsZero
  rw [decide_eq_true_iff, loadU64_eq_zero_iff, loadU64_eq_zero_iff, ← BitVec.toNat_inj,
    ip6Addr_toNat]
  have hzero : (0 : BitVec 128).toNat = 0 := rfl
  rw [hzero]
  simp only [Nat.add_assoc, Nat.reduceAdd]
  omega

theorem addressIsLoopback_iff : ip6ValidateAddressIsLoopback m a = true ↔ ip6Addr m a = 1 := by
  unfold ip6ValidateAddressIsLoopback
  rw [decide_eq_true_iff, loadU64_eq_zero_iff, loadU64_eq_one_iff, ← BitVec.toNat_inj,
    ip6Addr_toNat]
  have hone : (1 : BitVec 128).toNat = 1 := rfl
  rw [hone]
  simp only [Nat.add_assoc, Nat.reduceAdd]
  have hlow := (netU32 m (a + 12)).isLt
  omega

/-- The first byte of an address, as a prefix. -/
theorem multicast_iff :
    (⟨0xFF000000000000000000000000000000, 8⟩ : AddressPrefix 128).Covers (ip6Addr m a) ↔
      m a = 0xFF := by
  have h1 := (netU32 m (a + 4)).isLt
  have h2 := (netU32 m (a + 8)).isLt
  have h3 := (netU32 m (a + 12)).isLt
  have hb1 := (m (a + 1)).isLt
  have hb2 := (m (a + 2)).isLt
  have hb3 := (m (a + 3)).isLt
  have hff : (0xFF : BitVec 8).toNat = 255 := rfl
  unfold AddressPrefix.Covers
  rw [ip6Addr_toNat, netU32_toNat m a, ← BitVec.toNat_inj, hff]
  show _ / 2 ^ 120 = 255 ↔ _
  omega

end Words

/-- **The code of `ip6-validate` is its policy.** -/
theorem ip6ValidateX1_eq (b : Buffer) :
    ip6ValidateX1 b = sentFor .valid b (ip6Policy.verdict b.ip6Packet) := by
  have hunspecified : ∀ a : BitVec 128, (⟨0, 128⟩ : AddressPrefix 128).Covers a ↔ a = 0 :=
    covers_iff_eq rfl
  have hloopback : ∀ a : BitVec 128, (⟨1, 128⟩ : AddressPrefix 128).Covers a ↔ a = 1 :=
    covers_iff_eq rfl
  simp only [Policy.verdict, ip6Policy, Buffer.ip6Packet, firstError, Rule.Matches,
    Packet.address, List.mem_singleton, exists_eq_left, multicast_iff, hunspecified, hloopback,
    ← addressIsZero_iff, ← addressIsLoopback_iff]
  simp only [apply_ite (sentFor Ip6Error.valid b)]
  rfl

/-! ## Runs -/

section Runs

variable {ε τ : Type} [DecidableEq ε] {w : ℕ}

/-- Where the policy sends a packet: on along the feature arc, or to the drop. -/
def Policy.next (policy : Policy ε w) (packet : Buffer → Packet w) (b : Buffer) : BitVec 16 :=
  if policy.verdict (packet b) = none then b.nextFeature else nextDrop

/-- How many of the packets count for an error; a packet that is not dropped counts for `valid`. -/
def Policy.count (policy : Policy ε w) (packet : Buffer → Packet w) (valid : ε)
    (bufs : List Buffer) (e : ε) : ℕ :=
  bufs.countP fun b => (policy.verdict (packet b)).getD valid = e

/-- A node whose code is its policy. -/
theorem run_policy {x1 : Buffer → ε × BitVec 16} {trace : Buffer → BitVec 16 → List τ}
    {errors : List ε} {policy : Policy ε w} {packet : Buffer → Packet w} {valid : ε}
    (hx1 : ∀ b, x1 b = sentFor valid b (policy.verdict (packet b))) (hnodup : errors.Nodup)
    (hall : ∀ e, e ∈ errors) (prefetches : Bool) (counters : ε → BitVec 64)
    {frames : List (List Buffer)} (hlen : ∀ bufs ∈ frames, bufs.length ≤ FrameNode.frameSize) :
    FrameNode.run x1 trace errors prefetches counters frames =
      some (frames.flatten.map (policy.next packet), fun e =>
        counters e + BitVec.ofNat 64 (policy.count packet valid frames.flatten e)) := by
  have hnext : ∀ b, (x1 b).2 = policy.next packet b := by
    intro b
    unfold Policy.next
    rw [hx1]
    cases policy.verdict (packet b) with
    | none => rfl
    | some e => rfl
  have herror : ∀ b, (x1 b).1 = (policy.verdict (packet b)).getD valid := by
    intro b
    rw [hx1]
    cases policy.verdict (packet b) with
    | none => rfl
    | some e => rfl
  rw [FrameNode.run_eq prefetches hnodup hall frames hlen]
  unfold Policy.count
  simp only [hnext, herror]

end Runs

/-- **`ip4-validate` over a run.**  Whatever the frames are, a packet goes on along its feature
arc exactly if the policy has nothing against it, and is dropped otherwise; each counter gets the
packets of its error, and all of them together every packet once.  No access to the arrays of the
node goes wrong. -/
theorem ip4_validate_run (nodeTraces prefetches : Bool) (counters : Ip4Error → BitVec 64)
    {frames : List (List Buffer)} (hlen : ∀ bufs ∈ frames, bufs.length ≤ FrameNode.frameSize) :
    ip4ValidateNode nodeTraces prefetches counters frames =
        some (frames.flatten.map (ip4Policy.next Buffer.ip4Packet), fun e => counters e +
          BitVec.ofNat 64 (ip4Policy.count Buffer.ip4Packet .valid frames.flatten e)) ∧
      (ip4Errors.map (ip4Policy.count Buffer.ip4Packet .valid frames.flatten)).sum =
        frames.flatten.length := by
  have hall : ∀ e, e ∈ ip4Errors := by
    intro e
    cases e <;> decide
  exact ⟨run_policy ip4ValidateX1_eq (by decide) hall prefetches counters hlen,
    FrameNode.sum_countP (by decide) hall _ _⟩

/-- A packet with an Ethernet header of zeros. -/
def bufferOf (header : List (BitVec 8)) : Buffer where
  data := ofList (List.replicate 14 0 ++ header)
  currentData := 14
  l2HdrOffset := 0
  featNext := 1
  swIfIndexRx := 1
  isTraced := false

/-- From `src` to 10.0.0.1. -/
def ip4From (src : List (BitVec 8)) : Buffer :=
  bufferOf (List.replicate 12 0 ++ src ++ [10, 0, 0, 1])

/-- A frame of thirteen packets, of which 127.0.0.1 and 169.254.0.1 sent one each, and a frame of
one packet from 127.0.0.1. -/
def ip4Frames : List (List Buffer) :=
  [List.replicate 6 (ip4From [10, 0, 0, 2]) ++ [ip4From [127, 0, 0, 1]] ++
      List.replicate 5 (ip4From [10, 0, 0, 2]) ++ [ip4From [169, 254, 0, 1]],
    [ip4From [127, 0, 0, 1]]]

/-- Three packets are dropped and counted, and eleven go on. -/
theorem ip4_validate_run_frames : ∃ counters,
    ip4ValidateNode false true (fun _ => 0) ip4Frames =
        some (List.replicate 6 1 ++ [nextDrop] ++ List.replicate 5 1 ++ [nextDrop, nextDrop],
          counters) ∧
      counters .valid = 11 ∧ counters .srcLoopback = 2 ∧ counters .srcLinkLocal = 1 := by
  have hlen : ∀ bufs ∈ ip4Frames, bufs.length ≤ FrameNode.frameSize := by decide
  have hnexts : ip4Frames.flatten.map (ip4Policy.next Buffer.ip4Packet) =
      List.replicate 6 1 ++ [nextDrop] ++ List.replicate 5 1 ++ [nextDrop, nextDrop] := by decide
  obtain ⟨hrun, -⟩ := ip4_validate_run false true (fun _ => 0) hlen
  rw [hnexts] at hrun
  exact ⟨_, hrun, by decide, by decide, by decide⟩

/-- **`ip6-validate` over a run.** -/
theorem ip6_validate_run (nodeTraces prefetches : Bool) (counters : Ip6Error → BitVec 64)
    {frames : List (List Buffer)} (hlen : ∀ bufs ∈ frames, bufs.length ≤ FrameNode.frameSize) :
    ip6ValidateNode nodeTraces prefetches counters frames =
        some (frames.flatten.map (ip6Policy.next Buffer.ip6Packet), fun e => counters e +
          BitVec.ofNat 64 (ip6Policy.count Buffer.ip6Packet .valid frames.flatten e)) ∧
      (ip6Errors.map (ip6Policy.count Buffer.ip6Packet .valid frames.flatten)).sum =
        frames.flatten.length := by
  have hall : ∀ e, e ∈ ip6Errors := by
    intro e
    cases e <;> decide
  exact ⟨run_policy ip6ValidateX1_eq (by decide) hall prefetches counters hlen,
    FrameNode.sum_countP (by decide) hall _ _⟩

/-- From `head::last` to 2000::. -/
def ip6From (head last : BitVec 8) : Buffer :=
  bufferOf (List.replicate 8 0 ++ [head] ++ List.replicate 14 0 ++ [last] ++ [0x20] ++
    List.replicate 15 0)

/-- A frame of thirteen packets, of which ::1 and :: sent one each, and a frame of one packet
from ::1. -/
def ip6Frames : List (List Buffer) :=
  [List.replicate 6 (ip6From 0x20 1) ++ [ip6From 0 1] ++ List.replicate 5 (ip6From 0x20 1) ++
      [ip6From 0 0],
    [ip6From 0 1]]

theorem ip6_validate_run_frames : ∃ counters,
    ip6ValidateNode false true (fun _ => 0) ip6Frames =
        some (List.replicate 6 1 ++ [nextDrop] ++ List.replicate 5 1 ++ [nextDrop, nextDrop],
          counters) ∧
      counters .valid = 11 ∧ counters .srcLoopback = 2 ∧ counters .srcUnspecified = 1 := by
  have hlen : ∀ bufs ∈ ip6Frames, bufs.length ≤ FrameNode.frameSize := by decide
  have hnexts : ip6Frames.flatten.map (ip6Policy.next Buffer.ip6Packet) =
      List.replicate 6 1 ++ [nextDrop] ++ List.replicate 5 1 ++ [nextDrop, nextDrop] := by decide
  obtain ⟨hrun, -⟩ := ip6_validate_run false true (fun _ => 0) hlen
  rw [hnexts] at hrun
  exact ⟨_, hrun, by decide, by decide, by decide⟩

end IpValidate
