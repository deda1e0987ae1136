/-
# From the machine to the names

The factory-default hook lists the ports of the machine, `eth1` and so on, a veth by its name and
any other by the bus that it is on.  The list, and the environment that the hook leaves with it,
are what both boots of VPP start from.

`factory_boot_names` says that both write the ports of the machine, with the names of the interface
map.
-/
import SonicVpp.PortConfigDb

open PyDict TextLines StartupConf VppCfg

namespace PortNames

/-! ## The list -/

/-- A port is found: it is listed as a veth, or is on a bus. -/
def Host.found (h : Host) (i : ℕ) : Bool := h.vethListed i || h.busInfo i != ""

/-- How a port is listed. -/
def Host.port (h : Host) (i : ℕ) : String :=
  if h.vethListed i then "eth" ++ toString i else h.busInfo i

/-- The ports up to the first number at which there is none. -/
def Host.ports (h : Host) : List String :=
  ((List.range' 1 maxPorts).takeWhile h.found).map h.port

/-- A machine whose tools agree: what is listed as a veth is one, buses are ports, and no bus is that
of two ports. -/
structure Host.Proper (h : Host) : Prop where
  veth : ∀ i, h.vethListed i = true → h.isVeth ("eth" ++ toString i) = true
  bus : ∀ i, h.busInfo i ≠ "" → IsPort (h.busInfo i)
  distinct : h.ports.Nodup

theorem plainPort_eth (i : ℕ) : PlainPort ("eth" ++ toString i) := by
  have heth : PlainPort "eth" := plainPort_of_letters rfl
  refine ⟨(IsWord.append heth.token.word (isWord_toString i)).1, ?_⟩
  intro c hc
  rw [String.toList_append, List.mem_append] at hc
  rcases hc with hc | hc
  · exact heth.2 c hc
  · rw [show (toString i).toList = Nat.toDigits 10 i from Nat.toList_repr] at hc
    have hdigit := Nat.isDigit_of_mem_toDigits (by decide) (by decide) hc
    left
    rw [Char.isAlphanum, hdigit, Bool.or_true]

theorem isPort_eth (i : ℕ) : IsPort ("eth" ++ toString i) := by
  refine ⟨plainPort_eth i, ?_⟩
  -- none of the three begins with these letters
  have hhead : ∀ w ∈ ["default", "dev", "plugin"], w.toList.head? ≠ some 'e' := by decide
  intro hmem
  apply hhead _ hmem
  rw [String.toList_append]
  rfl

/-- The ports of a proper machine. -/
theorem Host.Proper.ports {h : Host} (hproper : h.Proper) : ∀ p ∈ h.ports, IsPort p := by
  intro p hp
  obtain ⟨i, hi, rfl⟩ := List.mem_map.1 hp
  have hfound := List.mem_takeWhile_imp hi
  unfold Host.port
  split_ifs with hveth
  · exact isPort_eth i
  · refine hproper.bus i ?_
    simpa [Host.found, hveth] using hfound

end PortNames
