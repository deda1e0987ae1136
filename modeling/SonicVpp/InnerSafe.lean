/-
# The resolver and the memory it reads

`ip_inner_resolve` once more, with every load and every subtraction spelled out: a load past the
view of `remaining` bytes, a subtraction that would wrap and a loop that has used up its turns are
faults.  The checked functions follow the source statement by statement; each returns what its
counterpart in `InnerResolve` does, so no fault occurs on any bytes.

A position is an offset from `payload`.
-/
import SonicVpp.InnerResolve

open PacketBytes Ip

namespace InnerHash

/-! ## Loads and subtractions -/

/-- What can go wrong. -/
inductive Fault
  | read (offset : ℕ)
  | underflow
  | outOfTurns
  deriving DecidableEq, Repr

/-- The bytes at `payload`, of which `size` may be read. -/
structure View where
  m : Mem
  payload : ℕ
  size : ℕ

/-- A byte. -/
def View.u8 (v : View) (i : ℕ) : Except Fault (BitVec 8) :=
  if i < v.size then .ok (v.m (v.payload + i)) else .error (.read i)

/-- `clib_net_to_host_u16 (clib_mem_unaligned (..., u16))`. -/
def View.netU16 (v : View) (i : ℕ) : Except Fault (BitVec 16) := do
  let b0 ← v.u8 i
  let b1 ← v.u8 (i + 1)
  .ok (b0 ++ b1)

/-- A 32-bit word, as the host loads it. -/
def View.u32 (v : View) (i : ℕ) : Except Fault (BitVec 32) := do
  let b0 ← v.u8 i
  let b1 ← v.u8 (i + 1)
  let b2 ← v.u8 (i + 2)
  let b3 ← v.u8 (i + 3)
  .ok ((b3 ++ b2) ++ (b1 ++ b0))

/-- `a - b` on `u32`. -/
def subU32 (a b : ℕ) : Except Fault ℕ := if a < b then .error .underflow else .ok (a - b)

variable {v : View} {i : ℕ}

theorem View.u8_eq (hi : i < v.size) : v.u8 i = .ok (v.m (v.payload + i)) := if_pos hi

theorem View.netU16_eq (hi : i + 1 < v.size) :
    v.netU16 i = .ok (PacketBytes.netU16 v.m (v.payload + i)) := by
  rw [View.netU16, View.u8_eq (by omega), View.u8_eq hi]
  rfl

theorem View.u32_eq (hi : i + 3 < v.size) : v.u32 i = .ok (loadU32 v.m (v.payload + i)) := by
  rw [View.u32, View.u8_eq (by omega), View.u8_eq (by omega), View.u8_eq (by omega), View.u8_eq hi]
  rfl

theorem subU32_eq {a b : ℕ} (h : b ≤ a) : subU32 a b = .ok (a - b) := if_neg (by omega)

/-- The version of an IPv4 header is the high half of its first byte. -/
theorem ushiftRight_four_eq (b : BitVec 8) : b >>> 4 = 4 ↔ b.extractLsb' 4 4 = 4 := by
  have hb := b.isLt
  simp only [BitVec.toNat_eq, BitVec.toNat_ushiftRight, BitVec.extractLsb'_toNat,
    Nat.shiftRight_eq_div_pow]
  show b.toNat / 2 ^ 4 = 4 ↔ b.toNat / 2 ^ 4 % 2 ^ 4 = 4
  omega

/-- On a little-endian host the version of an IPv6 header is in the second half byte of the word
that `ip_version_traffic_class_and_flow_label` is loaded as. -/
theorem loadU32_version (m : Mem) (i : ℕ) : (loadU32 m i >>> 4) &&& 0xf = 6 ↔ version m i = 6 := by
  have happend : ∀ {k n : ℕ} (x : BitVec k) (y : BitVec n),
      (x ++ y).toNat = x.toNat * 2 ^ n + y.toNat := by
    intro k n x y
    rw [BitVec.toNat_append, ← Nat.shiftLeft_add_eq_or_of_lt y.isLt, Nat.shiftLeft_eq]
  have hmask : ∀ x : ℕ, x &&& 15 = x % 16 := fun x => Nat.and_two_pow_sub_one_eq_mod x 4
  have h0 := (m i).isLt
  simp only [version, BitVec.toNat_eq, BitVec.toNat_and, BitVec.toNat_ushiftRight,
    BitVec.extractLsb'_toNat, Nat.shiftRight_eq_div_pow, loadU32, loadU16, happend]
  show _ &&& 15 = 6 ↔ (m i).toNat / 2 ^ 4 % 2 ^ 4 = 6
  rw [hmask]
  omega

/-! ## The checked functions -/

/-- `ip_inner_v6_walk_ext_headers`, with a number of turns. -/
def ipInnerV6WalkExtHeadersChecked (v : View) :
    ℕ → ℕ → ℕ → BitVec 8 → Except Fault (BitVec 8 × ℕ × ℕ)
  | 0, _, _, _ => .error .outOfTurns
  | turns + 1, pp, remaining, protocol =>
    if isWalkedExt protocol then
      if remaining < 2 then .ok (0, pp, remaining)
      else do
        let length ← v.u8 (pp + 1)
        let ehLen := (length.toNat + 1) * 8
        if remaining < ehLen then .ok (0, pp, remaining)
        else do
          let protocol ← v.u8 pp
          let remaining ← subU32 remaining ehLen
          ipInnerV6WalkExtHeadersChecked v turns (pp + ehLen) remaining protocol
    else if protocol = protocolIpv6Fragmentation || protocol = protocolIpsecEsp
      || protocol = protocolIpsecAh then .ok (0, pp, remaining)
    else .ok (protocol, pp, remaining)

/-- `ip_inner_resolve_v4`. -/
def ipInnerResolveV4Checked (v : View) (payload remaining : ℕ) :
    Except Fault (Option IpInnerHdr) :=
  if remaining < ip4HeaderSize + ipInnerL4MinBytes then .ok none
  else do
    let ipVersionAndHeaderLength ← v.u8 payload
    if ipVersionAndHeaderLength >>> 4 ≠ 4 then .ok none
    else do
      let flagsAndFragmentOffset ← v.netU16 (payload + 6)
      if flagsAndFragmentOffset &&& 0x3fff ≠ 0 then .ok none
      else do
        let protocol ← v.u8 (payload + 9)
        .ok (some ⟨v.payload + payload, false, v.payload + payload + ip4HeaderSize, protocol⟩)

/-- `ip_inner_resolve_v6`. -/
def ipInnerResolveV6Checked (v : View) (turns payload remaining : ℕ) :
    Except Fault (Option IpInnerHdr) :=
  if remaining < ip6HeaderSize + ipInnerL4MinBytes then .ok none
  else do
    let word ← v.u32 payload
    if (word >>> 4) &&& 0xf ≠ 6 then .ok none
    else do
      let left ← subU32 remaining ip6HeaderSize
      let nextHeader ← v.u8 (payload + 6)
      let (protocol, cur, left) ←
        ipInnerV6WalkExtHeadersChecked v turns (payload + ip6HeaderSize) left nextHeader
      if protocol = 0 || left < ipInnerL4MinBytes then .ok none
      else .ok (some ⟨v.payload + payload, true, v.payload + cur, protocol⟩)

/-- `ip_inner_gre_skip_optional_fields`. -/
def ipInnerGreSkipOptionalFieldsChecked (v : View) (gre remaining : ℕ) :
    Except Fault (Option (BitVec 16 × ℕ)) :=
  if remaining < 4 then .ok none
  else do
    let greFlags ← v.netU16 gre
    let hdrLen := greBytes greFlags
    if remaining < hdrLen then .ok none
    else do
      let greProto ← v.netU16 (gre + 2)
      .ok (some (greProto, hdrLen))

/-- The dispatch on the effective GRE protocol. -/
def ipInnerResolveByTypeChecked (v : View) (turns payload remaining : ℕ)
    (effectiveProto : BitVec 16) : Except Fault (Option IpInnerHdr) :=
  if effectiveProto = ethernetTypeIp4 then ipInnerResolveV4Checked v payload remaining
  else if effectiveProto = ethernetTypeIp6 then ipInnerResolveV6Checked v turns payload remaining
  else .ok none

/-- `ip_inner_resolve_gre`. -/
def ipInnerResolveGreChecked (v : View) (turns payload remaining : ℕ) (greProto : BitVec 16) :
    Except Fault (Option IpInnerHdr) :=
  if greProto = greProtocolTeb then
    if remaining < ethernetHeaderSize + 1 then .ok none
    else do
      let ethType ← v.netU16 (payload + 12)
      if ethType = ethernetTypeIp4 ∨ ethType = ethernetTypeIp6 then do
        let remaining ← subU32 remaining ethernetHeaderSize
        ipInnerResolveByTypeChecked v turns (payload + ethernetHeaderSize) remaining ethType
      else .ok none
  else ipInnerResolveByTypeChecked v turns payload remaining greProto

/-- `ip_inner_resolve`. -/
def ipInnerResolveChecked (v : View) (turns : ℕ) (outerProtocol : BitVec 8) :
    Except Fault (Option IpInnerHdr) :=
  if outerProtocol = protocolIpInIp then ipInnerResolveV4Checked v 0 v.size
  else if outerProtocol = protocolIpv6 then ipInnerResolveV6Checked v turns 0 v.size
  else if outerProtocol = protocolGre then do
    match ← ipInnerGreSkipOptionalFieldsChecked v 0 v.size with
    | none => .ok none
    | some (greProto, consumed) => do
      let remaining ← subU32 v.size consumed
      ipInnerResolveGreChecked v turns consumed remaining greProto
  else .ok none

/-! ## No fault

In every call the position and the bytes left make at most the size of the view; this is what
the checks of the source keep up. -/

theorem walkChecked_eq (turns pp remaining : ℕ) (protocol : BitVec 8)
    (hview : pp + remaining ≤ v.size) (hturns : remaining / 8 < turns) :
    ∃ cur, ipInnerV6WalkExtHeadersChecked v turns pp remaining protocol
        = .ok ((ipInnerV6WalkExtHeaders v.m (v.payload + pp) remaining protocol).1, cur,
          (ipInnerV6WalkExtHeaders v.m (v.payload + pp) remaining protocol).2.2) ∧
      v.payload + cur = (ipInnerV6WalkExtHeaders v.m (v.payload + pp) remaining protocol).2.1 := by
  -- by induction on the turns: a header that is passed takes eight bytes or more
  induction turns generalizing pp remaining protocol with
  | zero => omega
  | succ turns ih =>
    rw [ipInnerV6WalkExtHeaders, ipInnerV6WalkExtHeadersChecked]
    by_cases hw : isWalkedExt protocol = true
    · rw [if_pos hw, if_pos hw]
      by_cases h2 : remaining < 2
      · rw [if_pos h2, if_pos h2]
        exact ⟨pp, rfl, rfl⟩
      · have hbytes : ((v.m (v.payload + (pp + 1))).toNat + 1) * 8 = extBytes v.m (v.payload + pp) := by
          rw [extBytes, Nat.add_assoc]
        rw [if_neg h2, if_neg h2, View.u8_eq (by omega)]
        show ∃ cur, (if remaining < ((v.m (v.payload + (pp + 1))).toNat + 1) * 8 then _ else _) = _ ∧ _
        rw [hbytes]
        by_cases hlen : remaining < extBytes v.m (v.payload + pp)
        · rw [if_pos hlen, if_pos hlen]
          exact ⟨pp, rfl, rfl⟩
        · have h8 : 8 ≤ extBytes v.m (v.payload + pp) := by simp only [extBytes]; omega
          rw [if_neg hlen, if_neg hlen, View.u8_eq (by omega), subU32_eq (by omega), Nat.add_assoc]
          exact ih (pp + extBytes v.m (v.payload + pp)) _ _ (by omega) (by omega)
    · rw [if_neg hw, if_neg hw]
      split
      · exact ⟨pp, rfl, rfl⟩
      · exact ⟨pp, rfl, rfl⟩

theorem resolveV4Checked_eq {payload remaining : ℕ} (hview : payload + remaining ≤ v.size) :
    ipInnerResolveV4Checked v payload remaining
      = .ok (ipInnerResolveV4 v.m (v.payload + payload) remaining) := by
  unfold ipInnerResolveV4Checked ipInnerResolveV4
  by_cases hlen : remaining < ip4HeaderSize + ipInnerL4MinBytes
  · rw [if_pos hlen, if_pos hlen]
  · have h28 : 28 ≤ remaining := by
      simp only [ip4HeaderSize, ipInnerL4MinBytes] at hlen
      omega
    rw [if_neg hlen, if_neg hlen, View.u8_eq (by omega)]
    show (if v.m (v.payload + payload) >>> 4 ≠ 4 then _ else _) = _
    by_cases hver : version v.m (v.payload + payload) = 4
    · have hver' : v.m (v.payload + payload) >>> 4 = 4 := (ushiftRight_four_eq _).2 hver
      rw [if_neg (not_not.2 hver'), if_neg (not_not.2 hver), View.netU16_eq (by omega),
        View.u8_eq (by omega)]
      show (if netU16 v.m (v.payload + (payload + 6)) &&& 0x3fff ≠ 0 then _ else _) = _
      simp only [ip4IsFragment, decide_eq_true_eq, Nat.add_assoc]
      split
      · rfl
      · rfl
    · have hver' : v.m (v.payload + payload) >>> 4 ≠ 4 := fun h => hver ((ushiftRight_four_eq _).1 h)
      rw [if_pos hver', if_pos hver]

theorem resolveV6Checked_eq {turns payload remaining : ℕ} (hview : payload + remaining ≤ v.size)
    (hturns : remaining / 8 < turns) :
    ipInnerResolveV6Checked v turns payload remaining
      = .ok (ipInnerResolveV6 v.m (v.payload + payload) remaining) := by
  unfold ipInnerResolveV6Checked ipInnerResolveV6
  by_cases hlen : remaining < ip6HeaderSize + ipInnerL4MinBytes
  · rw [if_pos hlen, if_pos hlen]
  · have h48 : 48 ≤ remaining := by
      simp only [ip6HeaderSize, ipInnerL4MinBytes] at hlen
      omega
    have h40 : ip6HeaderSize = 40 := rfl
    rw [if_neg hlen, if_neg hlen, View.u32_eq (by omega)]
    show (if (loadU32 v.m (v.payload + payload) >>> 4) &&& 0xf ≠ 6 then _ else _) = _
    by_cases hver : version v.m (v.payload + payload) = 6
    · rw [if_neg (not_not.2 ((loadU32_version _ _).2 hver)), if_neg (not_not.2 hver),
        subU32_eq (by omega), View.u8_eq (by omega)]
      have hview' : payload + ip6HeaderSize + (remaining - ip6HeaderSize) ≤ v.size := by omega
      obtain ⟨cur, hwalk, hcur⟩ := walkChecked_eq turns (payload + ip6HeaderSize)
        (remaining - ip6HeaderSize) (ip6Protocol v.m (v.payload + payload)) hview' (by omega)
      rw [← Nat.add_assoc] at hwalk hcur
      show (ipInnerV6WalkExtHeadersChecked v turns (payload + ip6HeaderSize)
        (remaining - ip6HeaderSize) (v.m (v.payload + (payload + 6))) >>= _) = _
      rw [← Nat.add_assoc v.payload payload 6]
      rw [show v.m (v.payload + payload + 6) = ip6Protocol v.m (v.payload + payload) from rfl, hwalk]
      revert hcur
      generalize ipInnerV6WalkExtHeaders v.m (v.payload + payload + ip6HeaderSize)
        (remaining - ip6HeaderSize) (ip6Protocol v.m (v.payload + payload)) = walk
      obtain ⟨protocol, at', left⟩ := walk
      intro hcur
      show (if _ then _ else _) = Except.ok (if _ then _ else _)
      simp only at hcur
      subst hcur
      split
      · rfl
      · rfl
    · rw [if_pos fun h => hver ((loadU32_version _ _).1 h), if_pos hver]

theorem greSkipChecked_eq {gre remaining : ℕ} (hview : gre + remaining ≤ v.size) :
    ipInnerGreSkipOptionalFieldsChecked v gre remaining
      = .ok (ipInnerGreSkipOptionalFields v.m (v.payload + gre) remaining) := by
  unfold ipInnerGreSkipOptionalFieldsChecked ipInnerGreSkipOptionalFields
  by_cases h4 : remaining < 4
  · rw [if_pos h4, if_pos h4]
  · rw [if_neg h4, if_neg h4, View.netU16_eq (by omega), View.netU16_eq (by omega), Nat.add_assoc]
    show (if remaining < greBytes (netU16 v.m (v.payload + gre)) then _ else _) = _
    simp only
    split
    · rfl
    · rfl

theorem resolveByTypeChecked_eq {turns payload remaining : ℕ}
    (hview : payload + remaining ≤ v.size) (hturns : remaining / 8 < turns) (proto : BitVec 16) :
    ipInnerResolveByTypeChecked v turns payload remaining proto
      = .ok (ipInnerResolveByType v.m (v.payload + payload) remaining proto) := by
  unfold ipInnerResolveByTypeChecked ipInnerResolveByType
  rw [resolveV4Checked_eq hview, resolveV6Checked_eq hview hturns]
  split
  · rfl
  · split
    · rfl
    · rfl

theorem resolveGreChecked_eq {turns payload remaining : ℕ} (hview : payload + remaining ≤ v.size)
    (hturns : remaining / 8 < turns) (proto : BitVec 16) :
    ipInnerResolveGreChecked v turns payload remaining proto
      = .ok (ipInnerResolveGre v.m (v.payload + payload) remaining proto) := by
  unfold ipInnerResolveGreChecked ipInnerResolveGre
  by_cases hteb : proto = greProtocolTeb
  · rw [if_pos hteb, if_pos hteb]
    by_cases hlen : remaining < ethernetHeaderSize + 1
    · rw [if_pos hlen, if_pos hlen]
    · have h15 : 15 ≤ remaining := by
        simp only [ethernetHeaderSize] at hlen
        omega
      have h14 : ethernetHeaderSize = 14 := rfl
      rw [if_neg hlen, if_neg hlen, View.netU16_eq (by omega), subU32_eq (by omega),
        ← Nat.add_assoc v.payload payload 12]
      show (if netU16 v.m (v.payload + payload + 12) = ethernetTypeIp4
        ∨ netU16 v.m (v.payload + payload + 12) = ethernetTypeIp6 then _ else _) = _
      split
      · rw [Nat.add_assoc v.payload payload ethernetHeaderSize]
        exact resolveByTypeChecked_eq (by omega) (by omega) _
      · rfl
  · rw [if_neg hteb, if_neg hteb]
    exact resolveByTypeChecked_eq hview hturns proto

/-- No fault occurs. -/
theorem resolveChecked_eq {turns : ℕ} (hturns : v.size / 8 < turns) (outerProtocol : BitVec 8) :
    ipInnerResolveChecked v turns outerProtocol
      = .ok (ipInnerResolve v.m outerProtocol v.payload v.size) := by
  have hview : 0 + v.size ≤ v.size := by omega
  unfold ipInnerResolveChecked ipInnerResolve
  rw [resolveV4Checked_eq hview, resolveV6Checked_eq hview hturns, greSkipChecked_eq hview,
    Nat.add_zero]
  split
  · rfl
  · split
    · rfl
    · split
      · cases hskip : ipInnerGreSkipOptionalFields v.m v.payload v.size with
        | none => rfl
        | some x =>
          obtain ⟨proto, consumed⟩ := x
          have hle := greSkip_le hskip
          show (subU32 v.size consumed >>= _) = _
          rw [subU32_eq hle]
          exact resolveGreChecked_eq (by omega) (by omega) proto
      · rfl

/-- **The resolver is total and memory-safe.**  With `remaining / 8 + 1` turns for the loop it
returns without a fault: every byte it reads is within `remaining`, no subtraction wraps, and a
header that it returns lies within `remaining` with the eight bytes at `l4`. -/
theorem ipInnerResolve_safe (m : Mem) (outerProtocol : BitVec 8) (payload remaining : ℕ)
    {turns : ℕ} (hturns : remaining / 8 < turns) :
    ipInnerResolveChecked ⟨m, payload, remaining⟩ turns outerProtocol
        = .ok (ipInnerResolve m outerProtocol payload remaining) ∧
      ∀ h, ipInnerResolve m outerProtocol payload remaining = some h →
        payload ≤ h.ip ∧
        h.ip + (if h.isV6 then ip6HeaderSize else ip4HeaderSize) ≤ payload + remaining ∧
        payload ≤ h.l4 ∧ h.l4 + 8 ≤ payload + remaining := by
  refine ⟨resolveChecked_eq hturns outerProtocol, fun h hres => ?_⟩
  obtain ⟨hstart, hheader, -, hl4⟩ := ipInnerResolve_inside hres
  simp only [ipInnerL4MinBytes] at hl4
  exact ⟨hstart, by omega, by omega, hl4⟩

/-- An IPv6 packet with a hop-by-hop header before its eight bytes of UDP. -/
def hopByHopPacket : List (BitVec 8) :=
  [0x60, 0, 0, 0, 0, 16, 0, 64] ++ List.replicate 32 1 ++ [17, 0, 1, 4, 0, 0, 0, 0]
    ++ [0, 1, 0, 2, 0, 8, 0, 0]

/-- It is resolved in eight turns, up to the last of its 56 bytes. -/
theorem ipInnerResolve_safe_hopByHop :
    ipInnerResolveChecked ⟨ofList hopByHopPacket, 0, 56⟩ 8 41 = .ok (some ⟨0, true, 48, 17⟩) ∧
      ipInnerResolve (ofList hopByHopPacket) 41 0 56 = some ⟨0, true, 48, 17⟩ ∧
      48 + 8 ≤ 0 + 56 := by
  have hrun : ipInnerResolveChecked ⟨ofList hopByHopPacket, 0, 56⟩ 8 41
      = .ok (some ⟨0, true, 48, 17⟩) := by decide +kernel
  have hturns : 56 / 8 < 8 := by decide
  obtain ⟨hsafe, hinside⟩ := ipInnerResolve_safe (ofList hopByHopPacket) 41 0 56 hturns
  have hres := Except.ok.inj (hsafe.symm.trans hrun)
  exact ⟨hrun, hres, (hinside _ hres).2.2.2⟩

end InnerHash
