/-
# Restoring the wire frame (`sonic_ext_redirect_to_ingress_tap`)

The capture node stamps every frame at device-input with its outermost VLAN tag.
When a redirect node later hands the frame to the tap of the ingress port, the L2
position is restored and the tag pushed again if the frame seems to have lost it
(`capture_node.c`, `sonic_ext.c`).

Buffer positions are relative to the start of the data area; negative positions are
the pre-data headroom.  The frame is in one buffer.
-/
import Mathlib

namespace SonicExt

/-! ## Buffer data -/

/-- The bytes around a buffer's data area, by position. -/
@[reducible] def BufferData := ℤ → BitVec 8

/-- The `n` bytes from position `i` on. -/
def bytesFrom (data : BufferData) (i : ℤ) (n : ℕ) : List (BitVec 8) :=
  (List.range n).map fun k : ℕ => data (i + k)

/-- `clib_memcpy_fast` of the bytes `bs` to position `i`. -/
def memcpy (data : BufferData) (i : ℤ) (bs : List (BitVec 8)) : BufferData := fun j =>
  if i ≤ j ∧ j < i + bs.length then bs.getD (j - i).toNat 0 else data j

/-- A 16-bit field in network order. -/
def fieldU16 (data : BufferData) (i : ℤ) : BitVec 16 := data i ++ data (i + 1)

theorem bytesFrom_eq_iff {data : BufferData} {i : ℤ} {n : ℕ} {bs : List (BitVec 8)} :
    bytesFrom data i n = bs ↔ bs.length = n ∧ ∀ k < n, bs[k]? = some (data (i + k)) := by
  constructor
  · rintro rfl
    refine ⟨by simp [bytesFrom], fun k hk => ?_⟩
    simp [bytesFrom, hk]
  · rintro ⟨hlen, hbytes⟩
    apply List.ext_getElem?
    intro k
    by_cases hk : k < n
    · rw [hbytes k hk]
      simp [bytesFrom, hk]
    · rw [List.getElem?_eq_none (by simp [bytesFrom]; omega),
        List.getElem?_eq_none (by omega)]

theorem memcpy_inside {data : BufferData} {i : ℤ} {bs : List (BitVec 8)} {k : ℕ}
    (hk : k < bs.length) : bs[k]? = some (memcpy data i bs (i + k)) := by
  unfold memcpy
  rw [if_pos ⟨by omega, by omega⟩, show (i + (k : ℤ) - i).toNat = k from by omega]
  simp [hk]

theorem memcpy_outside {data : BufferData} {i j : ℤ} {bs : List (BitVec 8)}
    (hj : ¬ (i ≤ j ∧ j < i + bs.length)) : memcpy data i bs j = data j := by
  unfold memcpy
  rw [if_neg hj]

/-! ## Buffers -/

/-- `ETHERNET_TYPE_VLAN`, `ETHERNET_TYPE_DOT1AD` or `ETHERNET_TYPE_VLAN_9100`. -/
def isTpid (etype : BitVec 16) : Bool := etype = 0x8100 || etype = 0x88a8 || etype = 0x9100

/-- The raw tag of `orig_vlan_tag`: TPID and TCI; both zero stand for no tag. -/
structure VlanTag where
  tpid : BitVec 16
  tci : BitVec 16
  deriving DecidableEq, Repr

/-- The four bytes of a tag as they are copied into a frame. -/
def VlanTag.bytes (t : VlanTag) : List (BitVec 8) :=
  [t.tpid.extractLsb' 8 8, t.tpid.extractLsb' 0 8, t.tci.extractLsb' 8 8, t.tci.extractLsb' 0 8]

/-- `SONIC_EXT_BUFFER_MAGIC`. -/
def sonicExtBufferMagic : BitVec 32 := 0x534e4358

/-- `sonic_ext_buffer_opaque_t`. -/
structure SonicExtBuffer where
  magic : BitVec 32
  origRxSwIfIndex : BitVec 32
  origVlanTag : VlanTag
  deriving DecidableEq, Repr

/-- The fields of a buffer that capture and redirect use. -/
structure Buffer where
  data : BufferData
  currentData : ℤ
  currentLength : ℤ
  l2HdrOffset : ℤ
  swIfIndexRx : BitVec 32
  swIfIndexTx : BitVec 32
  sonicExt : SonicExtBuffer

/-- `VLIB_BUFFER_PRE_DATA_SIZE`. -/
def vlibBufferPreDataSize : ℤ := 128

/-- The bytes from the current position to the end. -/
def Buffer.current (b : Buffer) : List (BitVec 8) :=
  bytesFrom b.data b.currentData b.currentLength.toNat

/-- The bytes from the L2 header to the end. -/
def Buffer.l2Frame (b : Buffer) : List (BitVec 8) :=
  bytesFrom b.data b.l2HdrOffset (b.currentData + b.currentLength - b.l2HdrOffset).toNat

/-- `vlib_buffer_advance`. -/
def vlibBufferAdvance (b : Buffer) (adv : ℤ) : Buffer :=
  { b with currentData := b.currentData + adv, currentLength := b.currentLength - adv }

/-! ## Capture and redirect -/

/-- `sonic_ext_capture_node`, for one buffer. -/
def sonicExtCaptureNode (b : Buffer) : Buffer :=
  let etype := fieldU16 b.data (b.currentData + 12)
  { b with sonicExt :=
    { magic := sonicExtBufferMagic
      origRxSwIfIndex := b.swIfIndexRx
      origVlanTag :=
        if isTpid etype then ⟨etype, fieldU16 b.data (b.currentData + 14)⟩ else ⟨0, 0⟩ } }

/-- What VPP and the LCP plugin know: the software interfaces (the parent, for a
sub-interface) and the host tap of the pair of a phy. -/
structure IngressMain where
  swInterfaceSup : BitVec 32 → Option (Option (BitVec 32))
  lcpItfPairFindByPhy : BitVec 32 → Option (BitVec 32)

/-- The outputs of a redirect besides the buffer. -/
structure RedirectResult where
  rv : Bool
  hostTap : BitVec 32
  pushedTpid : BitVec 16
  pushedVlanId : BitVec 16
  deriving DecidableEq, Repr

/-- The restore part of `sonic_ext_redirect_to_ingress_tap`: go back to the L2 header
and push the captured tag if the frame at hand does not start with one. -/
def restoreL2 (b : Buffer) : Buffer × BitVec 16 × BitVec 16 :=
  let tag := b.sonicExt.origVlanTag
  let b := vlibBufferAdvance b (b.l2HdrOffset - b.currentData)
  if tag ≠ ⟨0, 0⟩ ∧ b.currentData ≥ 4 ∧ !isTpid (fieldU16 b.data (b.currentData + 12)) then
    let saveMacs := bytesFrom b.data b.currentData 12
    let b := vlibBufferAdvance b (-4)
    let data := memcpy (memcpy b.data b.currentData saveMacs) (b.currentData + 12) tag.bytes
    ({ b with data := data, l2HdrOffset := b.l2HdrOffset - 4 }, tag.tpid, tag.tci &&& 0x0fff)
  else (b, 0, 0)

/-- `sonic_ext_redirect_to_ingress_tap`. -/
def sonicExtRedirectToIngressTap (main : IngressMain) (b : Buffer)
    (origRx excludedTap : BitVec 32) : Buffer × RedirectResult :=
  match main.swInterfaceSup origRx with
  | none => (b, ⟨false, BitVec.allOnes 32, 0, 0⟩)
  | some sup =>
    match main.lcpItfPairFindByPhy (sup.getD origRx) with
    | none => (b, ⟨false, BitVec.allOnes 32, 0, 0⟩)
    | some hostTap =>
      if hostTap = excludedTap then (b, ⟨false, hostTap, 0, 0⟩)
      else
        let (b, pushedTpid, pushedVlanId) :=
          restoreL2 { b with sonicExt := { b.sonicExt with magic := 0 } }
        ({ b with swIfIndexTx := hostTap }, ⟨true, hostTap, pushedTpid, pushedVlanId⟩)

/-! ## The frame after a redirect -/

/-- The frame has an outermost VLAN tag. -/
def Tagged (F : List (BitVec 8)) : Prop := isTpid (F.getD 12 0 ++ F.getD 13 0) = true

/-- A second tag behind the outermost one. -/
def DoubleTagged (F : List (BitVec 8)) : Prop := isTpid (F.getD 16 0 ++ F.getD 17 0) = true

/-- The frame with its outermost tag popped: the MAC addresses moved up by 4. -/
def popTag (F : List (BitVec 8)) : List (BitVec 8) := F.take 12 ++ F.drop 16

theorem popTag_length {F : List (BitVec 8)} (hF : 18 ≤ F.length) :
    (popTag F).length = F.length - 4 := by
  simp only [popTag, List.length_append, List.length_take, List.length_drop]
  omega

theorem popTag_getElem? {F : List (BitVec 8)} (hF : 18 ≤ F.length) (k : ℕ) :
    (popTag F)[k]? = if k < 12 then F[k]? else F[k + 4]? := by
  have h12 : (F.take 12).length = 12 := by simp; omega
  unfold popTag
  by_cases hk : k < 12
  · rw [if_pos hk, List.getElem?_append_left (by omega), List.getElem?_take_of_lt hk]
  · rw [if_neg hk, List.getElem?_append_right (by omega), h12, List.getElem?_drop,
      show 16 + (k - 12) = k + 4 from by omega]

/-- A byte of a frame, read with a default. -/
theorem getD_of_getElem? {F : List (BitVec 8)} {k : ℕ} {x : BitVec 8} (h : F[k]? = some x) :
    F.getD k 0 = x := by
  simp [List.getD, h]

/-- The bytes of a tag taken from a frame. -/
theorem vlanTag_bytes (a b c d : BitVec 8) :
    (⟨a ++ b, c ++ d⟩ : VlanTag).bytes = [a, b, c, d] := by
  simp only [VlanTag.bytes, BitVec.extractLsb'_append_eq_left, BitVec.extractLsb'_append_eq_right]

/-- What the capture node stamps on a frame that starts at the current position. -/
theorem capture_tag {b : Buffer} {F : List (BitVec 8)} (hF : 18 ≤ F.length)
    (hb : b.current = F) :
    (sonicExtCaptureNode b).sonicExt.origVlanTag =
      if isTpid (F.getD 12 0 ++ F.getD 13 0)
        then ⟨F.getD 12 0 ++ F.getD 13 0, F.getD 14 0 ++ F.getD 15 0⟩ else ⟨0, 0⟩ := by
  obtain ⟨hlen, hbytes⟩ := bytesFrom_eq_iff.1 hb
  have hbyte : ∀ k < 18, F.getD k 0 = b.data (b.currentData + k) := fun k hk =>
    getD_of_getElem? (hbytes k (by omega))
  have h12 := hbyte 12 (by omega)
  have h13 := hbyte 13 (by omega)
  have h14 := hbyte 14 (by omega)
  have h15 := hbyte 15 (by omega)
  simp only [sonicExtCaptureNode, fieldU16, h12, h13, h14, h15, Nat.cast_ofNat, add_assoc]
  rfl

/-- The tag of a tagged frame is not zero. -/
theorem tag_ne_zero {t : BitVec 16} (ht : isTpid t = true) (c : BitVec 16) :
    (⟨t, c⟩ : VlanTag) ≠ ⟨0, 0⟩ := by
  intro h
  have h0 : t = 0 := congrArg VlanTag.tpid h
  rw [h0] at ht
  revert ht
  decide

/-- The tag is pushed again. -/
def Pushes (b : Buffer) : Prop :=
  b.sonicExt.origVlanTag ≠ ⟨0, 0⟩ ∧ 4 ≤ b.l2HdrOffset ∧
    isTpid (fieldU16 b.data (b.l2HdrOffset + 12)) = false

/-- Without a push the restored frame is the one at the L2 header. -/
theorem restoreL2_keeps {b : Buffer} (h : ¬ Pushes b) : (restoreL2 b).1.current = b.l2Frame := by
  have hpos : b.currentData + (b.l2HdrOffset - b.currentData) = b.l2HdrOffset := by ring
  have hlen : b.currentLength - (b.l2HdrOffset - b.currentData)
      = b.currentData + b.currentLength - b.l2HdrOffset := by ring
  simp only [restoreL2, vlibBufferAdvance, hpos]
  rw [if_neg]
  · simp only [Buffer.current, Buffer.l2Frame, hlen]
  · rintro ⟨htag, hoff, hty⟩
    exact h ⟨htag, hoff, by simpa using hty⟩

/-- A push on a frame that lost the captured tag restores it. -/
theorem restoreL2_pushes {b : Buffer} {F : List (BitVec 8)} (hF : 18 ≤ F.length)
    (hframe : b.l2Frame = popTag F)
    (htag : b.sonicExt.origVlanTag
      = ⟨F.getD 12 0 ++ F.getD 13 0, F.getD 14 0 ++ F.getD 15 0⟩) (h : Pushes b) :
    (restoreL2 b).1.current = F := by
  have hpos : b.currentData + (b.l2HdrOffset - b.currentData) = b.l2HdrOffset := by ring
  obtain ⟨hlen, hbytes⟩ := bytesFrom_eq_iff.1 hframe
  rw [popTag_length hF] at hlen
  have hmacs : (bytesFrom b.data b.l2HdrOffset 12).length = 12 := by simp [bytesFrom]
  have htagb : b.sonicExt.origVlanTag.bytes
      = [F.getD 12 0, F.getD 13 0, F.getD 14 0, F.getD 15 0] := by rw [htag, vlanTag_bytes]
  simp only [restoreL2, vlibBufferAdvance, hpos]
  rw [if_pos ⟨h.1, h.2.1, by simp [h.2.2]⟩]
  simp only [Buffer.current, htagb]
  -- byte by byte: the addresses, the tag and the rest come from different writes
  refine bytesFrom_eq_iff.2 ⟨by omega, fun k hk => ?_⟩
  have hkF : k < F.length := by omega
  by_cases h12 : k < 12
  · -- the MAC addresses, copied four bytes down
    rw [memcpy_outside (by simp only [List.length_cons, List.length_nil]; omega),
      ← memcpy_inside (by rw [hmacs]; exact h12)]
    have hpop := hbytes k (by omega)
    rw [popTag_getElem? hF, if_pos h12] at hpop
    rw [hpop]
    exact (bytesFrom_eq_iff.1 rfl).2 k h12 |>.symm
  · by_cases h16 : k < 16
    · -- the captured tag
      have hk' : k = 12 ∨ k = 13 ∨ k = 14 ∨ k = 15 := by omega
      have hpos : b.l2HdrOffset + -4 + (k : ℤ) = b.l2HdrOffset + -4 + 12 + ((k - 12 : ℕ) : ℤ) := by
        omega
      rw [hpos, ← memcpy_inside (by simp only [List.length_cons, List.length_nil]; omega)]
      rcases hk' with rfl | rfl | rfl | rfl <;> simp [List.getD, hkF]
    · -- the rest of the frame stays in place
      rw [memcpy_outside (by simp only [List.length_cons, List.length_nil]; omega),
        memcpy_outside (by rw [hmacs]; omega)]
      have hpop := hbytes (k - 4) (by omega)
      rw [popTag_getElem? hF, if_neg (by omega), show k - 4 + 4 = k from by omega] at hpop
      rw [hpop, show b.l2HdrOffset + ((k - 4 : ℕ) : ℤ) = b.l2HdrOffset + -4 + (k : ℤ) from by omega]

/-- A redirect that succeeds leaves the restored frame. -/
theorem redirect_current {main : IngressMain} {b : Buffer} {origRx excludedTap : BitVec 32}
    (hrv : (sonicExtRedirectToIngressTap main b origRx excludedTap).2.rv = true) :
    (sonicExtRedirectToIngressTap main b origRx excludedTap).1.current
      = (restoreL2 { b with sonicExt := { b.sonicExt with magic := 0 } }).1.current := by
  unfold sonicExtRedirectToIngressTap at hrv ⊢
  cases hsw : main.swInterfaceSup origRx with
  | none => rw [hsw] at hrv; cases hrv
  | some sup =>
    cases hpair : main.lcpItfPairFindByPhy (sup.getD origRx) with
    | none => simp only [hsw, hpair] at hrv; cases hrv
    | some hostTap =>
      simp only [hsw, hpair] at hrv ⊢
      by_cases hex : hostTap = excludedTap
      · rw [if_pos hex] at hrv; cases hrv
      · rw [if_neg hex]
        rfl

/-- **The redirected packet, exactly.**  A captured frame that is still whole, or has
lost its outermost tag, is the wire frame again after a successful redirect iff it is
whole, or no second tag follows the lost one and the L2 header is at least 4 bytes into
the data area. -/
theorem redirect_restores_iff (main : IngressMain) (b₀ b : Buffer) (origRx excludedTap : BitVec 32)
    (F : List (BitVec 8)) (hF : 18 ≤ F.length) (hcap : b₀.current = F)
    (hstamp : b.sonicExt = (sonicExtCaptureNode b₀).sonicExt)
    (hstate : b.l2Frame = F ∨ (Tagged F ∧ b.l2Frame = popTag F))
    (hrv : (sonicExtRedirectToIngressTap main b origRx excludedTap).2.rv = true) :
    (sonicExtRedirectToIngressTap main b origRx excludedTap).1.current = F ↔
      b.l2Frame = F ∨ (¬ DoubleTagged F ∧ 4 ≤ b.l2HdrOffset) := by
  rw [redirect_current hrv]
  have htag := capture_tag hF hcap
  rw [← hstamp] at htag
  have hlenPop : popTag F ≠ F := by
    intro h
    have := congrArg List.length h
    rw [popTag_length hF] at this
    omega
  rcases hstate with hwhole | ⟨htagged, hpopped⟩
  · -- whole: an untagged frame has no captured tag, a tagged one still shows it
    have hno : ¬ Pushes { b with sonicExt := { b.sonicExt with magic := 0 } } := by
      rintro ⟨hne, -, hty⟩
      obtain ⟨hlen, hbytes⟩ := bytesFrom_eq_iff.1 hwhole
      have h12 := getD_of_getElem? (hbytes 12 (by omega))
      have h13 := getD_of_getElem? (hbytes 13 (by omega))
      simp only [htag, h12, h13, Nat.cast_ofNat] at hne
      simp only [fieldU16, add_assoc] at hty
      rw [show (12 : ℤ) + 1 = 13 from rfl] at hty
      rw [hty] at hne
      exact hne rfl
    rw [restoreL2_keeps hno]
    exact ⟨fun _ => Or.inl hwhole, fun _ => hwhole⟩
  · rw [show isTpid (F.getD 12 0 ++ F.getD 13 0) = true from htagged, if_pos rfl] at htag
    -- popped: the push depends on the residual ethertype and the position
    have hpush : Pushes { b with sonicExt := { b.sonicExt with magic := 0 } } ↔
        ¬ DoubleTagged F ∧ 4 ≤ b.l2HdrOffset := by
      obtain ⟨hlen, hbytes⟩ := bytesFrom_eq_iff.1 hpopped
      rw [popTag_length hF] at hlen
      have hres : ∀ k, k = 12 ∨ k = 13 → F.getD (k + 4) 0 = b.data (b.l2HdrOffset + k) := by
        intro k hk
        have := hbytes k (by omega)
        rw [popTag_getElem? hF, if_neg (by omega)] at this
        exact getD_of_getElem? this
      have h16 := hres 12 (Or.inl rfl)
      have h17 := hres 13 (Or.inr rfl)
      have hety : fieldU16 b.data (b.l2HdrOffset + 12) = F.getD 16 0 ++ F.getD 17 0 := by
        simp only [fieldU16, h16, h17, Nat.cast_ofNat, add_assoc]
        rfl
      simp only [Pushes, DoubleTagged, htag, hety, tag_ne_zero htagged, ne_eq, not_false_eq_true,
        true_and, Bool.not_eq_true]
      exact and_comm
    by_cases hp : Pushes { b with sonicExt := { b.sonicExt with magic := 0 } }
    · have hrest := restoreL2_pushes
        (b := { b with sonicExt := { b.sonicExt with magic := 0 } }) hF hpopped htag hp
      rw [hrest]
      exact ⟨fun _ => Or.inr (hpush.1 hp), fun _ => rfl⟩
    · rw [restoreL2_keeps hp]
      constructor
      · intro h
        exact absurd (hpopped.symm.trans h) hlenPop
      · rintro (h | h)
        · exact h
        · exact absurd (hpush.2 h) hp

/-- A data area that holds `bs` from position `i` on, and zeros elsewhere. -/
def dataWith (i : ℤ) (bs : List (BitVec 8)) : BufferData := memcpy (fun _ => 0) i bs

/-- Port 1 with tap 101, nothing else. -/
def onePort : IngressMain where
  swInterfaceSup := fun i => if i = 1 then some none else none
  lcpItfPairFindByPhy := fun i => if i = 1 then some 101 else none

/-- A buffer received on port 1 with `bs` from position `i` on, at the L2 header. -/
def portBuffer (i : ℤ) (bs : List (BitVec 8)) (seb : SonicExtBuffer) : Buffer where
  data := dataWith i bs
  currentData := i
  currentLength := bs.length
  l2HdrOffset := i
  swIfIndexRx := 1
  swIfIndexTx := BitVec.allOnes 32
  sonicExt := seb

/-- VLAN 20 over the stack `inner`, with source and destination 2 and 4 in every byte. -/
def vlan20Frame (inner : List (BitVec 8)) : List (BitVec 8) :=
  [2, 2, 2, 2, 2, 2, 4, 4, 4, 4, 4, 4, 0x81, 0x00, 0x00, 0x14] ++ inner

/-- The stamp the capture node leaves on a frame received at the start of the data area. -/
def stampOf (F : List (BitVec 8)) : SonicExtBuffer :=
  (sonicExtCaptureNode (portBuffer 0 F ⟨0, 0, ⟨0, 0⟩⟩)).sonicExt

theorem redirect_restores_single :
    (sonicExtRedirectToIngressTap onePort
      (portBuffer 4 (popTag (vlan20Frame [0x08, 0x06, 7])) (stampOf (vlan20Frame [0x08, 0x06, 7])))
      1 (BitVec.allOnes 32)).1.current = vlan20Frame [0x08, 0x06, 7] :=
  (redirect_restores_iff onePort (portBuffer 0 (vlan20Frame [0x08, 0x06, 7]) ⟨0, 0, ⟨0, 0⟩⟩)
    (portBuffer 4 (popTag (vlan20Frame [0x08, 0x06, 7])) (stampOf (vlan20Frame [0x08, 0x06, 7])))
    1 (BitVec.allOnes 32) (vlan20Frame [0x08, 0x06, 7]) (by decide) (by decide) rfl
    (Or.inr ⟨by unfold Tagged; decide, by decide⟩) (by decide)).2
    (Or.inr ⟨by unfold DoubleTagged; decide, by decide⟩)

/-- VLAN 20 over VLAN 30: after a pop the frame still starts with a tag, and the lost one
is not pushed again. -/
theorem doubleTagged_not_restored :
    let F := vlan20Frame [0x81, 0x00, 0x00, 0x1e, 0x08, 0x06, 7]
    let b := portBuffer 4 (popTag F) (stampOf F)
    b.l2Frame = popTag F ∧ 4 - vlibBufferPreDataSize ≤ b.l2HdrOffset ∧
      (sonicExtRedirectToIngressTap onePort b 1 (BitVec.allOnes 32)).2.rv = true ∧
      (sonicExtRedirectToIngressTap onePort b 1 (BitVec.allOnes 32)).1.current ≠ F := by
  decide

end SonicExt
