/-
# The names of the ports

Three programs read one list of ports, `VPP_DPDK_PORTS`.  The factory-default hook, which makes
the list, numbers the ports in the interface map.  `vpp_init.sh` writes them into the startup
conf of VPP, and where the configuration database is used `vppcfg_load.py` writes them there, for
`vppcfgd`.  Each of them asks for itself which ports are veth interfaces, and counts.

`naming` is what all of them are meant to say: a veth is `host-` and its name, and the others are
`bobm0`, `bobm1`, and so on.
-/
import SonicVpp.VppCfgRender

open PyDict TextLines StartupConf

namespace PortNames

/-! ## The list of ports -/

/-- What the tools of the machine say: is `eth<i>` printed as a veth, what is its bus, and is a
name that of a veth for `ip link show type veth dev`. -/
structure Host where
  vethListed : ℕ → Bool
  busInfo : ℕ → String
  isVeth : String → Bool

/-- `MAX_PORTS`. -/
def maxPorts : ℕ := 32

/-- A port that means nothing but itself to the shell: there is no blank, no backslash, no quote and
no pattern in it. -/
def PlainPort (p : String) : Prop :=
  p ≠ "" ∧ ∀ c ∈ p.toList, c.isAlphanum = true ∨ c ∈ ['.', ':', '-', '_']

theorem plainPort_of_all {ps : List String} (h : (ps.all fun p => p != "" && p.toList.all fun c =>
    c.isAlphanum || ['.', ':', '-', '_'].contains c) = true) : ∀ p ∈ ps, PlainPort p := by
  intro p hp
  have hall := List.all_eq_true.1 h p hp
  simp only [Bool.and_eq_true, bne_iff_ne, ne_eq, List.all_eq_true, Bool.or_eq_true,
    List.contains_iff_mem] at hall
  exact hall

theorem PlainPort.ne_char {p : String} (h : PlainPort p) {c : Char} (hc : c.isAlphanum = false)
    (hmem : c ∉ ['.', ':', '-', '_']) : c ∉ p.toList := by
  intro hp
  rcases h.2 c hp with halnum | hother
  · rw [hc] at halnum
    cases halnum
  · exact hmem hother

/-- A plain port is one word, without braces. -/
theorem PlainPort.token {p : String} (h : PlainPort p) : IsToken p := by
  have hne : ∀ c ∈ p.toList, ∀ x, x.isAlphanum = false → x ∉ ['.', ':', '-', '_'] → c ≠ x := by
    rintro c hc x hx hother rfl
    exact h.ne_char hx hother hc
  refine ⟨⟨h.1, fun c hc => ?_⟩, fun c hc => ⟨?_, ?_⟩⟩
  · have hx := hne c hc
    simp [Char.isWhitespace, hx ' ' (by decide) (by decide), hx '\t' (by decide) (by decide),
      hx '\r' (by decide) (by decide), hx '\n' (by decide) (by decide)]
  · exact hne c hc _ (by decide) (by decide)
  · exact hne c hc _ (by decide) (by decide)

/-- `DPDK_IFNAME` and `HWIFNAME`, with a number. -/
def bobm (k : ℕ) : String := "bobm" ++ toString k

section Naming

variable (isVeth : String → Bool)

/-- Ports and their names, the first one that is no veth with the number `k`. -/
def naming : ℕ → List String → List (String × String)
  | _, [] => []
  | k, port :: ports =>
    if isVeth port then (port, "host-" ++ port) :: naming k ports
    else (port, bobm k) :: naming (k + 1) ports

/-- The others. -/
def devices (k : ℕ) (ports : List String) : List (String × String) :=
  (naming isVeth k ports).filter fun e => !isVeth e.1

variable {isVeth}

end Naming

end PortNames
