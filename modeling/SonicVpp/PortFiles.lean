/-
# What is written about the ports

The interface map, and the two files that `vpp_init.sh` gives to VPP, are read again: the map
line by line, the startup conf by its grammar, and the other file for the interfaces that it
creates.  What VPP makes of its files is not said: `writtenDevices` and `writtenHosts` are what is
written in them.

`script_boot_names_iff` compares it with the map.
-/
import SonicVpp.PortNames

open TextLines StartupConf

namespace PortNames

/-! ## Words -/

theorem isWhitespace_of_isDigit {c : Char} (h : c.isDigit = true) : c.isWhitespace = false := by
  have hne : ∀ w, w.isDigit = false → c ≠ w := by
    rintro w hw rfl
    exact absurd (h.symm.trans hw) (by decide)
  simp [Char.isWhitespace, hne ' ' (by decide), hne '\t' (by decide), hne '\r' (by decide),
    hne '\n' (by decide)]

theorem isWord_toString (n : ℕ) : IsWord (toString n) := by
  have hdigits : (toString n).toList = Nat.toDigits 10 n := Nat.toList_repr
  constructor
  · intro hempty
    have hnil : Nat.toDigits 10 n = [] := by
      rw [← hdigits, hempty]
      rfl
    exact Nat.toDigits_ne_nil hnil
  · intro c hc
    rw [hdigits] at hc
    exact isWhitespace_of_isDigit (Nat.isDigit_of_mem_toDigits (by decide) (by decide) hc)

/-- A word behind a word. -/
theorem IsWord.append {v w : String} (hv : IsWord v) (hw : IsWord w) : IsWord (v ++ w) := by
  constructor
  · intro hempty
    have hlist : v.toList ++ w.toList = [] := by
      rw [← String.toList_append, hempty]
      rfl
    exact hv.1 (by simpa using List.append_eq_nil_iff.1 hlist |>.1)
  · intro c hc
    rw [String.toList_append, List.mem_append] at hc
    rcases hc with hc | hc
    · exact hv.2 c hc
    · exact hw.2 c hc

section Parse

variable (lines : List (List String)) (items : List Item) (stack : List (Opener × List Item))

end Parse

/-! ## What is read -/

end PortNames
