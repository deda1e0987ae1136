/-
# The ports through the configuration database

`load_config` puts the ports into the configuration database; `vppcfgd` merges them into its
template, and its commit writes the startup conf and the commands for VPP.  From a template that
has no ports of its own, the ports of the list are written with the names of the interface map
(`conf_db_boot_names_iff`).
-/
import SonicVpp.PortFiles
import SonicVpp.VppCfgSurvives
import SonicVpp.VppCfgRoundTrip

open PyDict TextLines StartupConf VppCfg

namespace PortNames

/-! ## What `load_config` writes -/

theorem plainPort_of_letters {p : String} (h : ([p].all fun p => p != "" && p.toList.all fun c =>
    c.isAlphanum || ['.', ':', '-', '_'].contains c) = true) : PlainPort p :=
  plainPort_of_all h p List.mem_cons_self

/-- A port as a configuration can have it. -/
structure IsPort (p : String) : Prop where
  plain : PlainPort p
  names : p ∉ ["default", "dev", "plugin"]

theorem IsPort.token {p : String} (h : IsPort p) : IsToken p := h.plain.token

theorem IsPort.ne {p : String} (h : IsPort p) : p ≠ "default" ∧ p ≠ "dev" ∧ p ≠ "plugin" := by
  have hall := h.names
  simpa only [List.mem_cons, List.not_mem_nil, or_false, not_or] using hall

end PortNames
