/-
# The VXLAN tunnel table (`vnet_vxlan_add_del_tunnel`)

The tunnel add/delete request of the patched VXLAN plugin
(`0017-sonic-vxlan-vnet-source-independent-decap.patch`): the flag decode, the
tunnel pool, the two decap maps `vxlan4_tunnel_by_key` / `vxlan6_tunnel_by_key`
with their exact and source-independent entries, and the L3-promiscuous marks of
`l2_bvi`.

The lines of `vnet_vxlan_add_del_tunnel` that the patch does not show enter as
data of the request (`VxlanEnv`): whether the checks between the flag decode and
the copy of the arguments pass, which pool slot and interface index the tunnel
gets, and which bihash insertions fail.  A bihash is a key-value store; a failing
insertion leaves it as it was.

Freeing a slot of the pool does not clear it: `freed` keeps what was last there, and
`pool_elt_at_index` reads it.
-/
import SonicVpp.SlotPool

namespace Vxlan

/-! ## Addresses -/

/-- `ip46_address_t`: an IPv4 address occupies the low 32 bits. -/
@[reducible] def Ip46 := BitVec 128

/-- The `ip4` member of the union set, the padding zero. -/
def ip46OfIp4 (a : BitVec 32) : Ip46 := a.setWidth 128

/-- The `ip4` member of the union. -/
def ip46Ip4 (a : Ip46) : BitVec 32 := a.setWidth 32

/-- `ip6.as_u64[0]` and `ip6.as_u64[1]`. -/
def asU64 (a : Ip46) (i : ℕ) : BitVec 64 :=
  if i = 0 then a.extractLsb' 64 64 else a.extractLsb' 0 64

@[simp] theorem ip46Ip4_ip46OfIp4 (a : BitVec 32) : ip46Ip4 (ip46OfIp4 a) = a := by
  simp [ip46Ip4, ip46OfIp4]

/-- An address is determined by its two halves. -/
theorem asU64_inj {a b : Ip46} (h0 : asU64 a 0 = asU64 b 0) (h1 : asU64 a 1 = asU64 b 1) :
    a = b := by
  apply BitVec.eq_of_getLsbD_eq
  intro i hi
  by_cases h64 : i < 64
  · have := congrArg (fun x : BitVec 64 => x.getLsbD i) h1
    simpa [asU64, BitVec.getLsbD_extractLsb', h64] using this
  · have hi' : i - 64 < 64 := by omega
    have := congrArg (fun x : BitVec 64 => x.getLsbD (i - 64)) h0
    simpa [asU64, BitVec.getLsbD_extractLsb', hi', show 64 + (i - 64) = i from by omega]
      using this

/-- The address-class tests of VPP that the plugin calls. -/
structure VppIp where
  ip4AddressIsMulticast : BitVec 32 → Bool
  ip6AddressIsMulticast : BitVec 128 → Bool
  ip46AddressIsMulticast : Ip46 → Bool

/-- The tests as VPP has them: `224.0.0.0/4`, `ff00::/8`, and for an
`ip46_address_t` the one its padding selects. -/
def VppIp.vpp : VppIp where
  ip4AddressIsMulticast a := a.extractLsb' 28 4 = 0xe#4
  ip6AddressIsMulticast a := a.extractLsb' 120 8 = 0xff#8
  ip46AddressIsMulticast a :=
    if a.extractLsb' 32 96 = 0#96 then a.extractLsb' 28 4 = 0xe#4
    else a.extractLsb' 120 8 = 0xff#8

/-! ## Tunnels and decap information -/

/-- The local (`src`) and remote (`dst`) address of a tunnel, of one family. -/
inductive TunnelAddrs
  | ip4 (src dst : BitVec 32)
  | ip6 (src dst : BitVec 128)
  deriving DecidableEq, Repr

/-- `is_ip6`. -/
def TunnelAddrs.isIp6 : TunnelAddrs → Bool
  | .ip4 _ _ => false
  | .ip6 _ _ => true

/-- `src`, the local address. -/
def TunnelAddrs.src : TunnelAddrs → Ip46
  | .ip4 s _ => ip46OfIp4 s
  | .ip6 s _ => s

/-- `dst`, the remote address or the multicast group. -/
def TunnelAddrs.dst : TunnelAddrs → Ip46
  | .ip4 _ d => ip46OfIp4 d
  | .ip6 _ d => d

/-- The fields of a request or a tunnel that its keys are built from. -/
structure VxlanParams where
  addrs : TunnelAddrs
  encapFibIndex : BitVec 32
  srcPort : BitVec 16
  vni : BitVec 24
  deriving DecidableEq, Repr

/-- `vxlan_tunnel_t`.  The family is that of the request that created it. -/
structure VxlanTunnel extends VxlanParams where
  decapNextIndex : BitVec 32
  swIfIndex : BitVec 32
  devInstance : ℕ
  decapAny : Bool
  deriving DecidableEq, Repr

/-- `vxlan_decap_info_t`: the interface index and the word that holds either the
next index and the error or the local address of a multicast tunnel. -/
structure VxlanDecapInfo where
  swIfIndex : BitVec 32
  word : BitVec 32
  deriving DecidableEq, Repr

/-- `{ .sw_if_index, .next_index, .error }`. -/
def VxlanDecapInfo.ofAction (swIfIndex : BitVec 32) (nextIndex : BitVec 16) (error : BitVec 8) :
    VxlanDecapInfo :=
  ⟨swIfIndex, error.setWidth 32 <<< 16 ||| nextIndex.setWidth 32⟩

/-- `{ .sw_if_index, .local_ip }`. -/
def VxlanDecapInfo.ofLocalIp (swIfIndex localIp : BitVec 32) : VxlanDecapInfo :=
  ⟨swIfIndex, localIp⟩

/-- The `local_ip` member of the union. -/
def VxlanDecapInfo.localIp (d : VxlanDecapInfo) : BitVec 32 := d.word

/-- `VXLAN_INPUT_NEXT_DROP`. -/
def vxlanInputNextDrop : BitVec 16 := 0

/-- `VXLAN_INPUT_NEXT_L2_INPUT`. -/
def vxlanInputNextL2Input : BitVec 32 := 1

/-- `VXLAN_DECAP_ANY_FLAG`. -/
def vxlanDecapAnyFlag : BitVec 32 := 1#32 <<< 31

/-! ## Keys -/

/-- The last key word. -/
@[reducible] def VxlanKeyTail := BitVec 64

/-- `((u64) port << 48) | ((u64) fib_index << 32) | vni_reserved`.  A fib index from
`2 ^ 16` on runs into the port. -/
def vxlanKeyTail (port : BitVec 16) (fibIndex vniReserved : BitVec 32) : VxlanKeyTail :=
  port.setWidth 64 <<< 48 ||| fibIndex.setWidth 64 <<< 32 ||| vniReserved.setWidth 64

/-- `vxlan4_tunnel_key_t`. -/
structure Vxlan4TunnelKey where
  key0 : BitVec 64
  key1 : VxlanKeyTail
  deriving DecidableEq, Repr

/-- `vxlan6_tunnel_key_t`. -/
structure Vxlan6TunnelKey where
  key0 : BitVec 64
  key1 : BitVec 64
  key2 : VxlanKeyTail
  deriving DecidableEq, Repr

/-- The VNI word of the header, the reserved byte zero (`vni << 8`). -/
def vniWord (vni : BitVec 24) : BitVec 32 := vni.setWidth 32 <<< 8

/-- `((u64) hi << 32) | lo`. -/
def addrPair (hi lo : BitVec 32) : BitVec 64 := hi.setWidth 64 <<< 32 ||| lo.setWidth 64

/-- The port, fib and VNI part of the keys of a tunnel. -/
def VxlanParams.tail (p : VxlanParams) : VxlanKeyTail :=
  vxlanKeyTail p.srcPort p.encapFibIndex (vniWord p.vni)

section Keys

variable (up : VppIp)

/-- The exact IPv4 key: local and remote address, or the group of a multicast
tunnel. -/
def VxlanParams.key4 (p : VxlanParams) : Vxlan4TunnelKey :=
  ⟨if up.ip46AddressIsMulticast p.addrs.dst then (ip46Ip4 p.addrs.dst).setWidth 64
    else addrPair (ip46Ip4 p.addrs.src) (ip46Ip4 p.addrs.dst), p.tail⟩

end Keys

/-- The exact IPv6 key: the remote address (or the group) alone. -/
def VxlanParams.key6 (p : VxlanParams) : Vxlan6TunnelKey :=
  ⟨asU64 p.addrs.dst 0, asU64 p.addrs.dst 1, p.tail⟩

/-- The source-independent IPv4 key of a local address (`key4w`). -/
def key4w (src : Ip46) (tail : VxlanKeyTail) : Vxlan4TunnelKey :=
  ⟨(ip46Ip4 src).setWidth 64 <<< 32, tail⟩

/-- The source-independent IPv6 key of a local address (`key6w`). -/
def key6w (src : Ip46) (tail : VxlanKeyTail) : Vxlan6TunnelKey :=
  ⟨asU64 src 0, asU64 src 1, tail⟩

/-- The two halves of `addrPair` can be read back. -/
theorem addrPair_inj {a b c d : BitVec 32} (h : addrPair a b = addrPair c d) :
    a = c ∧ b = d := by
  have hbit : ∀ i, (addrPair a b).getLsbD i = (addrPair c d).getLsbD i := by
    intro i; rw [h]
  simp only [addrPair, BitVec.getLsbD_or, BitVec.getLsbD_shiftLeft, BitVec.getLsbD_setWidth] at hbit
  constructor
  · apply BitVec.eq_of_getLsbD_eq
    intro i hi
    have := hbit (i + 32)
    simpa [show i + 32 < 64 from by omega, show i < 64 from by omega,
      BitVec.getLsbD_of_ge _ (i + 32) (by omega : 32 ≤ i + 32)] using this
  · apply BitVec.eq_of_getLsbD_eq
    intro i hi
    have := hbit i
    simpa [show i < 64 from by omega, hi] using this

/-- A source-independent IPv4 key is the pair with the remote address zero. -/
theorem key4w_key0 (src : Ip46) (tail : VxlanKeyTail) :
    (key4w src tail).key0 = addrPair (ip46Ip4 src) 0#32 := by
  simp [key4w, addrPair]

/-- The VNI can be read back from the VNI word. -/
theorem vniWord_inj {a b : BitVec 24} (h : vniWord a = vniWord b) : a = b := by
  apply BitVec.eq_of_getLsbD_eq
  intro i hi
  have := congrArg (fun x : BitVec 32 => x.getLsbD (i + 8)) h
  simpa [vniWord, show i + 8 < 32 from by omega, show i < 32 from by omega] using this

/-- The low half of a key tail is the VNI word. -/
theorem getLsbD_vxlanKeyTail_low (port : BitVec 16) (fibIndex vniReserved : BitVec 32) {i : ℕ}
    (hi : i < 32) : (vxlanKeyTail port fibIndex vniReserved).getLsbD i = vniReserved.getLsbD i := by
  simp [vxlanKeyTail, show i < 48 from by omega, hi, show i < 64 from by omega]

/-- A fib index below `2 ^ 16` has no bit from 16 on. -/
theorem getLsbD_of_fibFits {fibIndex : BitVec 32} (hf : fibIndex.toNat < 2 ^ 16) {i : ℕ}
    (hi : 16 ≤ i) : fibIndex.getLsbD i = false := by
  rw [BitVec.getLsbD]
  exact Nat.testBit_lt_two_pow (lt_of_lt_of_le hf (Nat.pow_le_pow_right Nat.two_pos hi))

/-- Port, fib index and VNI word can be read back from a key tail if the fib index
fits the 16 bits it has there. -/
theorem vxlanKeyTail_inj {port port' : BitVec 16} {fib fib' vni vni' : BitVec 32}
    (hf : fib.toNat < 2 ^ 16) (hf' : fib'.toNat < 2 ^ 16)
    (h : vxlanKeyTail port fib vni = vxlanKeyTail port' fib' vni') :
    port = port' ∧ fib = fib' ∧ vni = vni' := by
  have hbit : ∀ i, (vxlanKeyTail port fib vni).getLsbD i
      = (vxlanKeyTail port' fib' vni').getLsbD i := by
    intro i; rw [h]
  refine ⟨?_, ?_, ?_⟩
  · apply BitVec.eq_of_getLsbD_eq
    intro i hi
    have := hbit (i + 48)
    simpa [vxlanKeyTail, show i + 48 < 64 from by omega, show i + 16 < 64 from by omega,
      show i < 64 from by omega, getLsbD_of_fibFits hf (show 16 ≤ i + 16 from by omega),
      getLsbD_of_fibFits hf' (show 16 ≤ i + 16 from by omega)] using this
  · apply BitVec.eq_of_getLsbD_eq
    intro i hi
    by_cases h16 : i < 16
    · have := hbit (i + 32)
      simpa [vxlanKeyTail, show i + 32 < 64 from by omega, show i + 32 < 48 from by omega,
        show i < 64 from by omega] using this
    · rw [getLsbD_of_fibFits hf (by omega), getLsbD_of_fibFits hf' (by omega)]
  · apply BitVec.eq_of_getLsbD_eq
    intro i hi
    have := hbit i
    rwa [getLsbD_vxlanKeyTail_low _ _ _ hi, getLsbD_vxlanKeyTail_low _ _ _ hi] at this

/-- Equal key tails come from equal port, fib and VNI, if the fib indexes fit. -/
theorem tail_inj {p q : VxlanParams} (hp : p.encapFibIndex.toNat < 2 ^ 16)
    (hq : q.encapFibIndex.toNat < 2 ^ 16) (h : p.tail = q.tail) :
    p.srcPort = q.srcPort ∧ p.encapFibIndex = q.encapFibIndex ∧ p.vni = q.vni := by
  obtain ⟨hport, hfib, hvni⟩ := vxlanKeyTail_inj hp hq h
  exact ⟨hport, hfib, vniWord_inj hvni⟩

/-! ## State -/

/-- `vxlan_main_t`, as far as the tunnels go, and the L3-promiscuous marks that
`l2_bvi_set_l3_promiscuous` keeps.  `freed` is the tunnel that the memory of a slot
held when the slot was last freed. -/
structure VxlanMain where
  vxlan4TunnelByKey : Vxlan4TunnelKey → Option VxlanDecapInfo
  vxlan6TunnelByKey : Vxlan6TunnelKey → Option ℕ
  tunnels : SlotPool VxlanTunnel
  freed : ℕ → Option VxlanTunnel
  tunnelIndexBySwIfIndex : BitVec 32 → Option ℕ
  l3Promiscuous : BitVec 32 → Bool

/-- No tunnels, both maps empty. -/
def VxlanMain.init : VxlanMain :=
  ⟨fun _ => none, fun _ => none, SlotPool.empty, fun _ => none, fun _ => none, fun _ => false⟩

/-- `pool_elt_at_index (vxm->tunnels, i)`: the tunnel in slot `i`, or what is left of the
last one there. -/
def VxlanMain.poolEltAtIndex (vxm : VxlanMain) (i : ℕ) : Option VxlanTunnel :=
  (vxm.tunnels.elt i).or (vxm.freed i)

theorem poolEltAtIndex_live {vxm : VxlanMain} {i : ℕ} {t : VxlanTunnel}
    (h : vxm.tunnels.elt i = some t) : vxm.poolEltAtIndex i = some t := by
  rw [VxlanMain.poolEltAtIndex, h, Option.some_or]

/-- `vnet_vxlan_add_del_tunnel_args_t`. -/
structure VxlanArgs extends VxlanParams where
  isAdd : Bool
  decapNextIndex : BitVec 32
  deriving DecidableEq, Repr

/-- What code outside the patch decides during a request: whether the checks it
does not show pass, the pool slot and interface index given to a new tunnel, and
which bihash insertions fail. -/
structure VxlanEnv where
  checksPass : Bool
  devInstance : ℕ
  swIfIndex : BitVec 32
  exactAddFails : Bool
  wildAddFails : Bool
  repointFails : Bool
  deriving DecidableEq, Repr

/-- Return values.  `danglingTunnel` stands for `pool_elt_at_index` outside the pool,
which C leaves undefined. -/
inductive VxlanRv
  | ok
  | tunnelExist
  | checkFailed
  | invalidRegistration
  | noSuchEntry
  | danglingTunnel
  deriving DecidableEq, Repr

/-! ## bihash operations -/

section Bihash

variable {κ ν : Type} [DecidableEq κ]

/-- `clib_bihash_add_del (.., 1 /* add */)`: the map afterwards, and whether the
insertion failed. -/
def bihashAdd (m : κ → Option ν) (k : κ) (v : ν) (fails : Bool) : (κ → Option ν) × Bool :=
  if fails then (m, true) else (Function.update m k (some v), false)

/-- `clib_bihash_add_del (.., 0 /* del */)`. -/
def bihashDel (m : κ → Option ν) (k : κ) : κ → Option ν := Function.update m k none

/-- The insertions of a tunnel add: the exact entry, then the source-independent
one `keyw` of a decap-any tunnel; if that fails, the exact entry is rolled back. -/
def addEntries (m : κ → Option ν) (key : κ) (keyw : Option κ) (v : ν)
    (exactFails wildFails : Bool) : (κ → Option ν) × Bool :=
  let (m, addFailed) := bihashAdd m key v exactFails
  match addFailed, keyw with
  | false, some w =>
    let (m, wFailed) := bihashAdd m w v wildFails
    if wFailed then (bihashDel m key, true) else (m, false)
  | _, _ => (m, addFailed)

/-- The changes of a tunnel delete: the exact entry goes; the source-independent
entry `keyw` is re-pointed at the survivor, or dropped when there is none or the
re-pointing insertion fails. -/
def delEntries (m : κ → Option ν) (key : κ) (keyw : Option κ) (survivor : Option ν)
    (repointFails : Bool) : κ → Option ν :=
  let m := bihashDel m key
  match keyw, survivor with
  | none, _ => m
  | some w, none => bihashDel m w
  | some w, some v =>
    let (m, failed) := bihashAdd m w v repointFails
    if failed then bihashDel m w else m

end Bihash

/-! ## The request -/

/-- The decode of `VXLAN_DECAP_ANY_FLAG`: the flag, and the next index with the
flag stripped and `~0` replaced by L2 input. -/
def decodeDecapNext (decapNextIndex : BitVec 32) : Bool × BitVec 32 :=
  let decapAny := decapNextIndex ≠ BitVec.allOnes 32 ∧ decapNextIndex &&& vxlanDecapAnyFlag ≠ 0
  let next := if decapAny then decapNextIndex &&& ~~~vxlanDecapAnyFlag else decapNextIndex
  (decide decapAny, if next = BitVec.allOnes 32 then vxlanInputNextL2Input else next)

/-- The tunnel an add request fills in. -/
def VxlanArgs.tunnel (a : VxlanArgs) (e : VxlanEnv) : VxlanTunnel where
  toVxlanParams := a.toVxlanParams
  decapNextIndex := (decodeDecapNext a.decapNextIndex).2
  swIfIndex := e.swIfIndex
  devInstance := e.devInstance
  decapAny := (decodeDecapNext a.decapNextIndex).1

/-- `l2_bvi_set_l3_promiscuous`. -/
def l2BviSetL3Promiscuous (bitmap : BitVec 32 → Bool) (swIfIndex : BitVec 32) (enable : Bool) :
    BitVec 32 → Bool :=
  if swIfIndex = BitVec.allOnes 32 then bitmap else Function.update bitmap swIfIndex enable

section Request

variable (up : VppIp)

/-- A decap-any tunnel with a unicast remote: the kind that stands behind a
source-independent entry. -/
def VxlanTunnel.ownsWildcard (t : VxlanTunnel) : Bool :=
  t.decapAny && !up.ip46AddressIsMulticast t.addrs.dst

/-- The decap info of the exact IPv4 entry of a tunnel. -/
def VxlanTunnel.decapInfo (t : VxlanTunnel) : VxlanDecapInfo :=
  if up.ip46AddressIsMulticast t.addrs.dst then
    VxlanDecapInfo.ofLocalIp t.swIfIndex (ip46Ip4 t.addrs.src)
  else VxlanDecapInfo.ofAction t.swIfIndex (t.decapNextIndex.setWidth 16) 0

/-- The survivor test both deletes share: another decap-any tunnel with a unicast
remote and the same VNI, fib and port. -/
def survivorMatch (i : ℕ) (t : VxlanTunnel) (j : ℕ) (st : VxlanTunnel) : Bool :=
  j ≠ i && st.ownsWildcard up && st.vni = t.vni && st.encapFibIndex = t.encapFibIndex
    && st.srcPort = t.srcPort

/-- The IPv4 test adds the low 32 bits of the local address. -/
def survivor4Match (i : ℕ) (t : VxlanTunnel) (j : ℕ) (st : VxlanTunnel) : Bool :=
  survivorMatch up i t j st && ip46Ip4 st.addrs.src = ip46Ip4 t.addrs.src

/-- The IPv6 test adds all 128 bits of the local address. -/
def survivor6Match (i : ℕ) (t : VxlanTunnel) (j : ℕ) (st : VxlanTunnel) : Bool :=
  survivorMatch up i t j st && st.addrs.src = t.addrs.src

/-- The search of the exact key that opens every request. -/
def tunnelFound (vxm : VxlanMain) (a : VxlanArgs) : Bool :=
  if a.addrs.isIp6 then (vxm.vxlan6TunnelByKey a.key6).isSome
  else (vxm.vxlan4TunnelByKey (a.key4 up)).isSome

/-- The add half of `vnet_vxlan_add_del_tunnel`. -/
def vxlanAddTunnel (vxm : VxlanMain) (a : VxlanArgs) (e : VxlanEnv) : VxlanMain × VxlanRv :=
  if tunnelFound up vxm a then (vxm, .tunnelExist)
  else if !e.checksPass then (vxm, .checkFailed)
  else
    let t := a.tunnel e
    let done (vxm : VxlanMain) : VxlanMain :=
      { vxm with
        tunnels := vxm.tunnels.fill t.devInstance t
        tunnelIndexBySwIfIndex :=
          Function.update vxm.tunnelIndexBySwIfIndex t.swIfIndex (some t.devInstance)
        l3Promiscuous :=
          if t.decapAny then l2BviSetL3Promiscuous vxm.l3Promiscuous t.swIfIndex true
          else vxm.l3Promiscuous }
    -- `pool_put` of the slot the tunnel was built in
    let free (vxm : VxlanMain) : VxlanMain :=
      { vxm with freed := Function.update vxm.freed t.devInstance (some t) }
    if a.addrs.isIp6 then
      let keyw := if t.ownsWildcard up then some (key6w t.addrs.src a.tail) else none
      let (m, addFailed) := addEntries vxm.vxlan6TunnelByKey a.key6 keyw t.devInstance
        e.exactAddFails e.wildAddFails
      let vxm := { vxm with vxlan6TunnelByKey := m }
      if addFailed then (free vxm, .invalidRegistration) else (done vxm, .ok)
    else
      let keyw := if t.ownsWildcard up then some (key4w t.addrs.src a.tail) else none
      let (m, addFailed) := addEntries vxm.vxlan4TunnelByKey (a.key4 up) keyw (t.decapInfo up)
        e.exactAddFails e.wildAddFails
      let vxm := { vxm with vxlan4TunnelByKey := m }
      if addFailed then (free vxm, .invalidRegistration) else (done vxm, .ok)

/-- The pool index a delete request names: the value of the exact IPv6 entry, or
the index of the interface in the exact IPv4 entry. -/
def deleteIndex (vxm : VxlanMain) (a : VxlanArgs) : Option (Option ℕ) :=
  if a.addrs.isIp6 then (vxm.vxlan6TunnelByKey a.key6).map some
  else (vxm.vxlan4TunnelByKey (a.key4 up)).map fun p => vxm.tunnelIndexBySwIfIndex p.swIfIndex

/-- The delete half, once the tunnel `t` is read from slot `i`, live or not. -/
def vxlanRemoveTunnel (vxm : VxlanMain) (a : VxlanArgs) (e : VxlanEnv) (i : ℕ)
    (t : VxlanTunnel) : VxlanMain :=
  let vxm := { vxm with
    tunnelIndexBySwIfIndex := Function.update vxm.tunnelIndexBySwIfIndex t.swIfIndex none
    l3Promiscuous :=
      if t.decapAny then l2BviSetL3Promiscuous vxm.l3Promiscuous t.swIfIndex false
      else vxm.l3Promiscuous }
  let vxm :=
    if a.addrs.isIp6 then
      let keyw := if t.ownsWildcard up then some (key6w t.addrs.src a.tail) else none
      let survivor := (vxm.tunnels.first (survivor6Match up i t)).map fun st => st.1
      { vxm with vxlan6TunnelByKey :=
          delEntries vxm.vxlan6TunnelByKey a.key6 keyw survivor e.repointFails }
    else
      let keyw := if t.ownsWildcard up then some (key4w t.addrs.src a.tail) else none
      let survivor := (vxm.tunnels.first (survivor4Match up i t)).map fun st =>
        VxlanDecapInfo.ofAction st.2.swIfIndex (st.2.decapNextIndex.setWidth 16) 0
      { vxm with vxlan4TunnelByKey :=
          delEntries vxm.vxlan4TunnelByKey (a.key4 up) keyw survivor e.repointFails }
  { vxm with tunnels := vxm.tunnels.clear i, freed := Function.update vxm.freed i (some t) }

/-- The delete half of `vnet_vxlan_add_del_tunnel`. -/
def vxlanDelTunnel (vxm : VxlanMain) (a : VxlanArgs) (e : VxlanEnv) : VxlanMain × VxlanRv :=
  match deleteIndex up vxm a with
  | none => (vxm, .noSuchEntry)
  | some none => (vxm, .danglingTunnel)
  | some (some i) =>
    match vxm.poolEltAtIndex i with
    | none => (vxm, .danglingTunnel)
    | some t => (vxlanRemoveTunnel up vxm a e i t, .ok)

/-- `vnet_vxlan_add_del_tunnel`. -/
def vnetVxlanAddDelTunnel (vxm : VxlanMain) (a : VxlanArgs) (e : VxlanEnv) :
    VxlanMain × VxlanRv :=
  if a.isAdd then vxlanAddTunnel up vxm a e else vxlanDelTunnel up vxm a e

/-- A request together with what the environment decides about it. -/
@[reducible] def VxlanRequest := VxlanArgs × VxlanEnv

/-- One step of the tunnel table. -/
def vxlanStep (vxm : VxlanMain) (r : VxlanRequest) : VxlanMain :=
  (vnetVxlanAddDelTunnel up vxm r.1 r.2).1

end Request

/-- What VPP guarantees of the environment of an add: the pool slot is vacant, and
the interface index is valid and no other live tunnel's.  (A slot that was freed twice may
be handed out twice; an add into a slot in use is not admissible here.) -/
def Admissible (vxm : VxlanMain) (r : VxlanRequest) : Prop :=
  r.1.isAdd = true → vxm.tunnels.Vacant r.2.devInstance ∧ r.2.swIfIndex ≠ BitVec.allOnes 32 ∧
    ∀ i t, vxm.tunnels.elt i = some t → t.swIfIndex ≠ r.2.swIfIndex

end Vxlan
