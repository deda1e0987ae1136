/-
# Bytes in memory

A packet buffer is a function from addresses to bytes.  Words are loaded in the
byte order of a little-endian host, or read as network-order fields.  What a
computation depends on is said with `AgreeBelow`: two memories that hold the same
bytes below an address.
-/
import Mathlib

namespace PacketBytes

/-- The bytes of memory, by address. -/
@[reducible] def Mem := ℕ → BitVec 8

/-- A buffer that starts at address 0 and is zero past its end. -/
def ofList (bs : List (BitVec 8)) : Mem := fun i => bs.getD i 0

/-- A 16-bit word, as the host loads it. -/
def loadU16 (m : Mem) (i : ℕ) : BitVec 16 := m (i + 1) ++ m i

/-- A 32-bit word, as the host loads it. -/
def loadU32 (m : Mem) (i : ℕ) : BitVec 32 := loadU16 m (i + 2) ++ loadU16 m i

/-- A 64-bit word, as the host loads it. -/
def loadU64 (m : Mem) (i : ℕ) : BitVec 64 := loadU32 m (i + 4) ++ loadU32 m i

/-- A 16-bit field in network order. -/
def netU16 (m : Mem) (i : ℕ) : BitVec 16 := m i ++ m (i + 1)

/-- A 32-bit field in network order. -/
def netU32 (m : Mem) (i : ℕ) : BitVec 32 := netU16 m i ++ netU16 m (i + 2)

/-- The `n` bytes from address `i` on. -/
def bytesAt (m : Mem) (i n : ℕ) : List (BitVec 8) := (List.range n).map fun k => m (i + k)

theorem bytesAt_eq_iff {m m' : Mem} {i j n : ℕ} :
    bytesAt m i n = bytesAt m' j n ↔ ∀ k < n, m (i + k) = m' (j + k) := by
  simp [bytesAt, List.map_inj_left]

/-! ### Parts of a buffer -/

theorem bytesAt_length (m : Mem) (i n : ℕ) : (bytesAt m i n).length = n := by
  simp [bytesAt]

theorem bytesAt_add (m : Mem) (i a b : ℕ) :
    bytesAt m i (a + b) = bytesAt m i a ++ bytesAt m (i + a) b := by
  simp only [bytesAt, List.range_add, List.map_append, List.map_map]
  congr 1
  apply List.map_congr_left
  intro k _
  show m (i + (a + k)) = m (i + a + k)
  rw [Nat.add_assoc]

/-- The first bytes, and the others. -/
theorem bytesAt_eq_append {m : Mem} {i n : ℕ} {xs ys : List (BitVec 8)} :
    bytesAt m i n = xs ++ ys ↔ xs.length ≤ n ∧ xs = bytesAt m i xs.length ∧
      ys = bytesAt m (i + xs.length) (n - xs.length) := by
  constructor
  · intro h
    have hlen : n = xs.length + ys.length := by
      rw [← List.length_append, ← h, bytesAt_length]
    have hle : xs.length ≤ n := by omega
    rw [← Nat.add_sub_cancel' hle, bytesAt_add] at h
    obtain ⟨hxs, hys⟩ := List.append_inj h (bytesAt_length ..)
    exact ⟨hle, hxs.symm, hys.symm⟩
  · rintro ⟨hle, hxs, hys⟩
    have hsplit : bytesAt m i n
        = bytesAt m i xs.length ++ bytesAt m (i + xs.length) (n - xs.length) := by
      rw [← bytesAt_add, Nat.add_sub_cancel' hle]
    rw [hsplit, ← hxs, ← hys]

/-- A part of a buffer, as a buffer of its own. -/
theorem ofList_bytesAt (m : Mem) (i : ℕ) {n k : ℕ} (hk : k < n) :
    ofList (bytesAt m i n) k = m (i + k) := by
  simp [ofList, bytesAt, List.getD_eq_getElem?_getD, hk]

/-! ## Loads of equal bytes -/

section Loads

variable {m m' : Mem} {i j : ℕ}

theorem loadU16_congr (h : ∀ k < 2, m (i + k) = m' (j + k)) : loadU16 m i = loadU16 m' j := by
  have h0 : m i = m' j := h 0 (by omega)
  simp only [loadU16, h0, h 1 (by omega)]

theorem netU16_congr (h : ∀ k < 2, m (i + k) = m' (j + k)) : netU16 m i = netU16 m' j := by
  have h0 : m i = m' j := h 0 (by omega)
  simp only [netU16, h0, h 1 (by omega)]

theorem netU32_congr (h : ∀ k < 4, m (i + k) = m' (j + k)) : netU32 m i = netU32 m' j := by
  have hhi : netU16 m i = netU16 m' j := netU16_congr fun k hk => h k (by omega)
  have hlo : netU16 m (i + 2) = netU16 m' (j + 2) := netU16_congr fun k hk => by
    have := h (2 + k) (by omega)
    rwa [← Nat.add_assoc, ← Nat.add_assoc] at this
  simp only [netU32, hhi, hlo]

theorem loadU32_congr (h : ∀ k < 4, m (i + k) = m' (j + k)) : loadU32 m i = loadU32 m' j := by
  have hlo : loadU16 m i = loadU16 m' j := loadU16_congr fun k hk => h k (by omega)
  have hhi : loadU16 m (i + 2) = loadU16 m' (j + 2) := loadU16_congr fun k hk => by
    have := h (2 + k) (by omega)
    rwa [← Nat.add_assoc, ← Nat.add_assoc] at this
  simp only [loadU32, hlo, hhi]

theorem loadU64_congr (h : ∀ k < 8, m (i + k) = m' (j + k)) : loadU64 m i = loadU64 m' j := by
  have hlo : loadU32 m i = loadU32 m' j := loadU32_congr fun k hk => h k (by omega)
  have hhi : loadU32 m (i + 4) = loadU32 m' (j + 4) := loadU32_congr fun k hk => by
    have := h (4 + k) (by omega)
    rwa [← Nat.add_assoc, ← Nat.add_assoc] at this
  simp only [loadU64, hlo, hhi]

/-- The bytes of a 16-bit word can be read back. -/
theorem loadU16_inj (h : loadU16 m i = loadU16 m' j) : m i = m' j ∧ m (i + 1) = m' (j + 1) := by
  have hlo := congrArg (fun x : BitVec 16 => x.extractLsb' 0 8) h
  have hhi := congrArg (fun x : BitVec 16 => x.extractLsb' 8 8) h
  simp only [loadU16, BitVec.extractLsb'_append_eq_right] at hlo
  simp only [loadU16, BitVec.extractLsb'_append_eq_left] at hhi
  exact ⟨hlo, hhi⟩

/-- So can the halves of a 32-bit word. -/
theorem loadU32_inj (h : loadU32 m i = loadU32 m' j) :
    loadU16 m i = loadU16 m' j ∧ loadU16 m (i + 2) = loadU16 m' (j + 2) := by
  have hlo := congrArg (fun x : BitVec 32 => x.extractLsb' 0 16) h
  have hhi := congrArg (fun x : BitVec 32 => x.extractLsb' 16 16) h
  simp only [loadU32, BitVec.extractLsb'_append_eq_right] at hlo
  simp only [loadU32, BitVec.extractLsb'_append_eq_left] at hhi
  exact ⟨hlo, hhi⟩

/-- The bytes of a 32-bit word can be read back. -/
theorem bytesAt_of_loadU32 (h : loadU32 m i = loadU32 m' j) : bytesAt m i 4 = bytesAt m' j 4 := by
  obtain ⟨hlo, hhi⟩ := loadU32_inj h
  obtain ⟨h0, h1⟩ := loadU16_inj hlo
  obtain ⟨h2, h3⟩ := loadU16_inj hhi
  rw [bytesAt_eq_iff]
  intro k hk
  interval_cases k
  · exact h0
  · exact h1
  · exact h2
  · exact h3

/-- Two 64-bit words are the same exactly if their bytes are. -/
theorem loadU64_eq_iff : loadU64 m i = loadU64 m' j ↔ bytesAt m i 8 = bytesAt m' j 8 := by
  constructor
  · intro h
    have hlo := congrArg (fun x : BitVec 64 => x.extractLsb' 0 32) h
    have hhi := congrArg (fun x : BitVec 64 => x.extractLsb' 32 32) h
    simp only [loadU64, BitVec.extractLsb'_append_eq_right] at hlo
    simp only [loadU64, BitVec.extractLsb'_append_eq_left] at hhi
    have hsplit : ∀ (n : Mem) k, bytesAt n k 8 = bytesAt n k 4 ++ bytesAt n (k + 4) 4 :=
      fun n k => bytesAt_add n k 4 4
    rw [hsplit, hsplit, bytesAt_of_loadU32 hlo, bytesAt_of_loadU32 hhi]
  · intro h
    exact loadU64_congr (bytesAt_eq_iff.1 h)

/-- The highest byte of a 32-bit word can be read back. -/
theorem loadU32_top (h : loadU32 m i = loadU32 m' j) : m (i + 3) = m' (j + 3) :=
  (loadU16_inj (loadU32_inj h).2).2

/-- The high half of a 64-bit word. -/
theorem loadU64_high (m : Mem) (i : ℕ) : (loadU64 m i).extractLsb' 32 32 = loadU32 m (i + 4) := by
  simp only [loadU64, BitVec.extractLsb'_append_eq_left]

end Loads

/-! ## Agreement below an address -/

/-- The same bytes below `n`. -/
def AgreeBelow (n : ℕ) (m m' : Mem) : Prop := ∀ i < n, m i = m' i

section Agree

variable {n : ℕ} {m m' : Mem}

theorem AgreeBelow.mono {n' : ℕ} (h : AgreeBelow n m m') (hn : n' ≤ n) : AgreeBelow n' m m' :=
  fun i hi => h i (by omega)

theorem AgreeBelow.loadU16 (h : AgreeBelow n m m') {i : ℕ} (hi : i + 2 ≤ n) :
    loadU16 m i = loadU16 m' i :=
  loadU16_congr fun k hk => h (i + k) (by omega)

theorem AgreeBelow.netU16 (h : AgreeBelow n m m') {i : ℕ} (hi : i + 2 ≤ n) :
    netU16 m i = netU16 m' i :=
  netU16_congr fun k hk => h (i + k) (by omega)

theorem AgreeBelow.loadU32 (h : AgreeBelow n m m') {i : ℕ} (hi : i + 4 ≤ n) :
    loadU32 m i = loadU32 m' i :=
  loadU32_congr fun k hk => h (i + k) (by omega)

theorem AgreeBelow.loadU64 (h : AgreeBelow n m m') {i : ℕ} (hi : i + 8 ≤ n) :
    loadU64 m i = loadU64 m' i :=
  loadU64_congr fun k hk => h (i + k) (by omega)

/-- Changing a byte at or beyond `n` keeps the agreement. -/
theorem agreeBelow_update (m : Mem) {i : ℕ} (hi : n ≤ i) (v : BitVec 8) :
    AgreeBelow n m (Function.update m i v) := by
  intro j hj
  rw [Function.update_of_ne (by omega)]

end Agree

/-! ## Agreement from an address on -/

/-- The same bytes from `a` and from `a'` on. -/
def SameFrom (m : Mem) (a : ℕ) (m' : Mem) (a' : ℕ) : Prop := ∀ k, m (a + k) = m' (a' + k)

section SameFrom

variable {m m' : Mem} {a a' : ℕ}

theorem SameFrom.trans {m'' : Mem} {a'' : ℕ} (h : SameFrom m a m' a') (h' : SameFrom m' a' m'' a'') :
    SameFrom m a m'' a'' :=
  fun k => (h k).trans (h' k)

theorem SameFrom.add (h : SameFrom m a m' a') (x : ℕ) : SameFrom m (a + x) m' (a' + x) := by
  intro k
  rw [Nat.add_assoc, Nat.add_assoc]
  exact h (x + k)

theorem SameFrom.byte (h : SameFrom m a m' a') : m a = m' a' := h 0

theorem SameFrom.netU16 (h : SameFrom m a m' a') : netU16 m a = netU16 m' a' :=
  netU16_congr fun k _ => h k

theorem SameFrom.loadU16 (h : SameFrom m a m' a') : loadU16 m a = loadU16 m' a' :=
  loadU16_congr fun k _ => h k

theorem SameFrom.loadU32 (h : SameFrom m a m' a') : loadU32 m a = loadU32 m' a' :=
  loadU32_congr fun k _ => h k

theorem SameFrom.loadU64 (h : SameFrom m a m' a') : loadU64 m a = loadU64 m' a' :=
  loadU64_congr fun k _ => h k

theorem SameFrom.bytesAt (h : SameFrom m a m' a') (n : ℕ) : bytesAt m a n = bytesAt m' a' n :=
  bytesAt_eq_iff.2 fun k _ => h k

end SameFrom

end PacketBytes
