/-
# The configuration daemon `vppcfgd`

`VppMgr` loads the template once and `get_config` hands out that very object, so an update
merges into the template and what `commit` does to the configuration stays in it.  The
daemon's state is therefore the template as it is now, whether `vpp_json_cfg` is that object
or `None`, and what the last commit wrote.

A configuration is a JSON object, kept as the list of its entries in order: the order is that
of the sections in the startup conf.
-/
import SonicVpp.PyDict

namespace VppCfg

open PyDict

/-- A JSON object. -/
abbrev Fields := List (String × Json)

/-- The environment that `vpp_env_config` reads: is `DPDK_DISABLE`, is `NO_LINUX_NL` set to
`y`. -/
structure Env where
  dpdkDisable : Bool
  noLinuxNl : Bool

/-- What `commit` writes: the value of the startup JSON, and the texts of the other two. -/
structure Files where
  startupJson : Json
  bootupConf : String
  startupConf : String

/-- The state of `ConfigMgr` between two calls.  `template` is `vpp.vpp_config`; `loaded` is
`vpp_json_cfg is not None`, and then it is the template.  `files` were written last. -/
structure Daemon where
  template : Fields
  loaded : Bool
  files : Option Files

/-- A parser for JSON texts.  A key that comes twice in an object has its last value. -/
structure Loads where
  loads : String → Option Json
  distinct : ∀ text val, loads text = some val → val.DistinctKeys

/-! ## The merge -/

mutual

/-- `deep_update`.  An entry set on what is no dictionary is an error, in `key in output`, in
`output[key]` or in the assignment. -/
def deepUpdate : Fields → Json → Except PyError Json
  | [], output => .ok output
  | (key, val) :: input, .obj output => do
    let val' ← match output.lookup key with
      | some outVal => newVal val outVal
      | none => .ok val
    deepUpdate input (.obj (setItem key val' output))
  | _ :: _, _ => .error .typeError

/-- The value of a key that is in `output` already. -/
def newVal : Json → Json → Except PyError Json
  | .obj input, outVal => deepUpdate input outVal
  | val, _ => .ok val

end

/-- `val.replace("'", "\"")`. -/
def requote (val : String) : String :=
  String.ofList (val.toList.map fun c => if c = Char.ofNat 39 then Char.ofNat 34 else c)

/-- The loop of `handle_config_data`: every text is parsed. -/
def parseData (L : Loads) : List (String × String) → Except PyError Fields
  | [] => .ok []
  | (key, text) :: data => do
    let val ← match L.loads (requote text) with
      | some val => .ok val
      | none => .error .valueError
    let cfg ← parseData L data
    .ok ((key, val) :: cfg)

/-- `update`. -/
def update (cfg : Fields) (d : Daemon) : Except PyError Daemon := do
  let merged ← deepUpdate cfg (.obj d.template)
  let template ← pyItems merged
  .ok { d with template := template, loaded := true }

/-- `handle_config_data`, with `data` a dictionary. -/
def handleConfigData (L : Loads) (data : List (String × String)) (d : Daemon) :
    Except PyError Daemon := do
  let cfg ← parseData L data
  update cfg d

/-! ## The events of the `PLATFORM` table -/

/-- What a subscriber pops: `SET` with the field values, or `DEL`. -/
inductive Event
  | set (key : String) (fvs : List (String × String))
  | del (key : String)

/-- `handler`, with `set_handler` and `del_handler`. -/
def handler (L : Loads) (d : Daemon) : Event → Except PyError Daemon
  | .set key fvs => if key ≠ "vpp" then .ok d else handleConfigData L (dictOf fvs) d
  | .del _ => .ok d

/-! ## The startup conf -/

/-- `INDENT`. -/
def INDENT : String := "    "

/-- The line for a value that is no dictionary. -/
def genLeaf (indoff key : String) (val : Json) (conf : String) : Except PyError String :=
  if val.truthy then do
    let text ← pyStr val
    .ok (conf ++ indoff ++ key ++ " " ++ text ++ "\n")
  else .ok (conf ++ indoff ++ key ++ "\n")

mutual

/-- `gen_dpdk_dev_cfg`. -/
def genDpdkDevCfg : Fields → String → String → Except PyError String
  | [], _, conf => .ok conf
  | (key, val) :: cfg, indoff, conf => do
    let conf ← genDpdkDevItem key val indoff conf
    genDpdkDevCfg cfg indoff conf

/-- The body of its loop. -/
def genDpdkDevItem (key : String) : Json → String → String → Except PyError String
  | .obj val, indoff, conf => do
    let conf ← genDpdkDevCfg val (indoff ++ INDENT)
      (conf ++ indoff ++ "dev " ++ key ++ " " ++ "\x7b" ++ "\n")
    .ok (conf ++ indoff ++ "\x7d" ++ "\n")
  | val, indoff, conf => genLeaf indoff key val conf

end

/-- `gen_plugins_cfg`. -/
def genPluginsCfg : Fields → String → String → Except PyError String
  | [], _, conf => .ok conf
  | (key, val) :: cfg, indoff, conf => do
    let text ← pyStr val
    genPluginsCfg cfg indoff
      (conf ++ indoff ++ "plugin " ++ key ++ " " ++ "\x7b " ++ text ++ " \x7d" ++ "\n")

mutual

/-- `gen_vpp_conf`. -/
def genVppConf : Fields → String → String → Except PyError String
  | [], _, conf => .ok conf
  | (key, val) :: cfg, indoff, conf => do
    let conf ← genVppItem key val indoff conf
    genVppConf cfg indoff conf

/-- The body of its loop. -/
def genVppItem (key : String) : Json → String → String → Except PyError String
  | .obj val, indoff, conf =>
    if key = "vports" then .ok conf
    else if key = "dev" then genDpdkDevCfg val indoff conf
    else if key = "plugin" then genPluginsCfg val indoff conf
    else do
      let conf ← genVppConf val (indoff ++ INDENT) (conf ++ indoff ++ key ++ " " ++ "\x7b" ++ "\n")
      .ok (conf ++ indoff ++ "\x7d" ++ "\n")
  | val, indoff, conf => genLeaf indoff key val conf

end

/-! ## The commit -/

/-- `vpp_vports_config`. -/
def vppVportsConfig (cfg : Fields) : Except PyError String :=
  match cfg.lookup "vports" with
  | none => .ok ""
  | some vports => do
    let items ← pyItems vports
    .ok (items.foldl (fun conf e => conf ++ "create host-interface name " ++ e.1 ++ "\n") "")

/-- `cfg['plugins']['plugin'][name] = 'disable'`. -/
def disablePlugin (name : String) (cfg : Fields) : Except PyError Fields := do
  let plugins ← getItem "plugins" (.obj cfg)
  let plugin ← getItem "plugin" plugins
  match plugins, plugin with
  | .obj plugins, .obj plugin =>
    .ok (setItem "plugins"
      (.obj (setItem "plugin" (.obj (setItem name (.str "disable") plugin)) plugins)) cfg)
  | _, _ => .error .typeError

/-- `disable_dpdk_cfg`. -/
def disableDpdkCfg (cfg : Fields) : Except PyError Fields := do
  let cfg ← disablePlugin "dpdk_plugin.so" cfg
  .ok (pop "dpdk" cfg)

/-- The value of `disable_dpdk` after the loop of `vpp_dpdk_config`. -/
def disableDpdk (cfg : Fields) : Except PyError Bool :=
  match cfg.lookup "dpdk" with
  | none => .ok true
  | some dpdk => do
    let hasDev ← pyIn "dev" dpdk
    if hasDev then do
      let dev ← getItem "dev" dpdk
      let items ← pyItems dev
      .ok (items.foldl (fun disable e => if e.1 ≠ "default" then false else disable) true)
    else .ok true

/-- `vpp_dpdk_config`. -/
def vppDpdkConfig (cfg : Fields) : Except PyError Fields := do
  let disable ← disableDpdk cfg
  if disable then disableDpdkCfg cfg else .ok cfg

/-- `vpp_env_config`. -/
def vppEnvConfig (env : Env) (cfg : Fields) : Except PyError Fields := do
  let cfg ← if env.dpdkDisable then disableDpdkCfg cfg else .ok cfg
  if env.noLinuxNl then disablePlugin "linux_nl_plugin.so" cfg else .ok cfg

/-- `commit`, on a configuration. -/
def commitCfg (env : Env) (cfg : Fields) : Except PyError (Fields × Files) := do
  let vports ← vppVportsConfig cfg
  let cfg ← vppDpdkConfig cfg
  let cfg ← vppEnvConfig env cfg
  let conf ← genVppConf cfg "" ""
  .ok (cfg, { startupJson := .obj cfg, bootupConf := vports, startupConf := conf })

/-- `commit`.  The first thing it does is `'vports' in self.vpp_json_cfg`, an error on `None`;
the last is `reset`. -/
def commit (env : Env) (d : Daemon) : Except PyError Daemon :=
  if d.loaded then do
    let (cfg, files) ← commitCfg env d.template
    .ok { template := cfg, loaded := false, files := some files }
  else .error .typeError

/-- `run`, one round of it: the handler is called with every event, then `commit`. -/
def runBatch (L : Loads) (env : Env) (batch : List Event) (d : Daemon) : Except PyError Daemon := do
  let d ← batch.foldlM (handler L) d
  commit env d

/-- The daemon as it starts. -/
def Daemon.start (template : Fields) : Daemon :=
  { template := template, loaded := false, files := none }

/-! ## What the merge does -/

/-- The value that a key of `output` gets from an entry of `input`. -/
def SetsTo (key : String) (val : Json) (output : Fields) (val' : Json) : Prop :=
  match output.lookup key with
  | some outVal => newVal val outVal = .ok val'
  | none => val' = val

theorem deepUpdate_nil (output : Json) : deepUpdate [] output = .ok output := by
  rw [deepUpdate]

/-- One turn of the loop. -/
theorem deepUpdate_cons {key : String} {val : Json} {input : Fields} {output merged : Json} :
    deepUpdate ((key, val) :: input) output = .ok merged ↔
      ∃ fields val', output = .obj fields ∧ SetsTo key val fields val' ∧
        deepUpdate input (.obj (setItem key val' fields)) = .ok merged := by
  cases output with
  | obj fields =>
    rw [deepUpdate]
    cases hlook : fields.lookup key with
    | some outVal =>
      show (newVal val outVal >>= _) = _ ↔ _
      rw [bind_eq_ok]
      constructor
      · rintro ⟨val', hval, hrest⟩
        exact ⟨fields, val', rfl, by rwa [SetsTo, hlook], hrest⟩
      · rintro ⟨fields', val', hfields, hval, hrest⟩
        cases hfields
        rw [SetsTo, hlook] at hval
        exact ⟨val', hval, hrest⟩
    | none =>
      show deepUpdate input (.obj (setItem key val fields)) = _ ↔ _
      constructor
      · intro hrest
        exact ⟨fields, val, rfl, by rw [SetsTo, hlook], hrest⟩
      · rintro ⟨fields', val', hfields, hval, hrest⟩
        cases hfields
        rw [SetsTo, hlook] at hval
        rwa [← hval]
  | null | bool | num | str | arr => simp [deepUpdate]

theorem newVal_obj (input : Fields) (outVal : Json) :
    newVal (.obj input) outVal = deepUpdate input outVal := by
  rw [newVal]

/-- What is no dictionary replaces the old value. -/
theorem newVal_of_not_obj {val : Json} (hval : ∀ input, val ≠ .obj input) (outVal : Json) :
    newVal val outVal = .ok val := by
  cases val with
  | obj input => exact absurd rfl (hval input)
  | null | bool | num | str | arr => rw [newVal]; exact hval

mutual

/-- The merge keeps the keys distinct. -/
theorem deepUpdate_distinct : ∀ (input : Fields) (output merged : Json), DistinctFields input →
    output.DistinctKeys → deepUpdate input output = .ok merged → merged.DistinctKeys
  | [], output, merged, _, hout, h => by
    rw [deepUpdate_nil] at h
    cases h
    exact hout
  | (key, val) :: input, output, merged, hin, hout, h => by
    obtain ⟨fields, val', rfl, hval, hrest⟩ := deepUpdate_cons.1 h
    refine deepUpdate_distinct input _ merged hin.2 (distinctKeys_setItem hout ?_) hrest
    unfold SetsTo at hval
    split at hval
    · rename_i outVal hlook
      exact newVal_distinct val outVal val' hin.1 (hout.2.lookup hlook) hval
    · rw [hval]
      exact hin.1

/-- So does the value of one key. -/
theorem newVal_distinct : ∀ (val outVal val' : Json), val.DistinctKeys → outVal.DistinctKeys →
    newVal val outVal = .ok val' → val'.DistinctKeys
  | .obj input, outVal, val', hin, hout, h => by
    rw [newVal_obj] at h
    exact deepUpdate_distinct input outVal val' hin.2 hout h
  | .null, _, _, hin, _, h | .bool _, _, _, hin, _, h | .num _ _, _, _, hin, _, h
  | .str _, _, _, hin, _, h | .arr _, _, _, hin, _, h => by
    rw [newVal_of_not_obj (by simp)] at h
    cases h
    exact hin

end

/-! ## What a handler does -/

/-- A `SET` of the key that the daemon is about. -/
def Event.IsVppSet (ev : Event) : Prop := ∃ fvs, ev = .set "vpp" fvs

theorem handler_of_vppSet (L : Loads) (d : Daemon) (fvs : List (String × String)) :
    handler L d (.set "vpp" fvs) = handleConfigData L (dictOf fvs) d := by
  simp [handler]

theorem handler_of_not_vppSet {ev : Event} (h : ¬ ev.IsVppSet) (L : Loads) (d : Daemon) :
    handler L d ev = .ok d := by
  cases ev with
  | set key fvs =>
    have hkey : key ≠ "vpp" := by
      rintro rfl
      exact h ⟨fvs, rfl⟩
    rw [handler, if_pos hkey]
  | del key => rfl

/-- The merge of a dictionary is a dictionary. -/
theorem deepUpdate_obj {input fields : Fields} {merged : Json}
    (h : deepUpdate input (.obj fields) = .ok merged) : ∃ fields', merged = .obj fields' := by
  induction input generalizing fields with
  | nil =>
    rw [deepUpdate_nil] at h
    cases h
    exact ⟨fields, rfl⟩
  | cons e input ih =>
    obtain ⟨fields', val', hfields, -, hrest⟩ := deepUpdate_cons.1 h
    exact ih hrest

/-- `handle_config_data` parses and merges. -/
theorem handleConfigData_eq_ok {L : Loads} {data : List (String × String)} {d d' : Daemon} :
    handleConfigData L data d = .ok d' ↔
      ∃ cfg fields, parseData L data = .ok cfg ∧
        deepUpdate cfg (.obj d.template) = .ok (.obj fields) ∧
        d' = { d with template := fields, loaded := true } := by
  simp only [handleConfigData, update, bind_eq_ok]
  constructor
  · rintro ⟨cfg, hparse, merged, hmerge, template, hitems, hd⟩
    obtain ⟨fields, rfl⟩ := deepUpdate_obj hmerge
    cases hitems
    cases hd
    exact ⟨cfg, template, hparse, hmerge, rfl⟩
  · rintro ⟨cfg, fields, hparse, hmerge, rfl⟩
    exact ⟨cfg, hparse, .obj fields, hmerge, fields, rfl, rfl⟩

/-- What is parsed has distinct keys where the parser built it. -/
theorem parseData_distinct {L : Loads} {data : List (String × String)} {cfg : Fields}
    (h : parseData L data = .ok cfg) :
    DistinctFields cfg ∧ cfg.map Prod.fst = data.map Prod.fst := by
  induction data generalizing cfg with
  | nil =>
    cases h
    exact ⟨trivial, rfl⟩
  | cons e data ih =>
    obtain ⟨key, text⟩ := e
    rw [parseData] at h
    cases hload : L.loads (requote text) with
    | none =>
      rw [hload] at h
      cases h
    | some val =>
      rw [hload] at h
      change (parseData L data >>= fun cfg => .ok ((key, val) :: cfg)) = .ok cfg at h
      obtain ⟨rest, hrest, hcfg⟩ := bind_eq_ok.1 h
      cases hcfg
      obtain ⟨hdist, hkeys⟩ := ih hrest
      exact ⟨⟨L.distinct _ _ hload, hdist⟩, by rw [List.map_cons, hkeys, List.map_cons]⟩

/-- A handler keeps the keys of the template distinct. -/
theorem handler_distinct {L : Loads} {ev : Event} {d d' : Daemon}
    (hd : (Json.obj d.template).DistinctKeys) (h : handler L d ev = .ok d') :
    (Json.obj d'.template).DistinctKeys := by
  by_cases hev : ev.IsVppSet
  · obtain ⟨fvs, rfl⟩ := hev
    rw [handler_of_vppSet, handleConfigData_eq_ok] at h
    obtain ⟨cfg, fields, hparse, hmerge, rfl⟩ := h
    exact deepUpdate_distinct cfg _ _ (parseData_distinct hparse).1 hd hmerge
  · rw [handler_of_not_vppSet hev] at h
    cases h
    exact hd

/-! ## What the post-processing does -/

/-- `cfg['plugins']['plugin'][name]`, where it is there. -/
def pluginOf (cfg : Fields) (name : String) : Option Json :=
  match cfg.lookup "plugins" with
  | some (.obj plugins) =>
    match plugins.lookup "plugin" with
    | some (.obj plugin) => plugin.lookup name
    | _ => none
  | _ => none

theorem getItem_eq_ok {key : String} {fields : Fields} {val : Json} :
    getItem key (.obj fields) = .ok val ↔ fields.lookup key = some val := by
  cases hlook : fields.lookup key with
  | none => simp [getItem, hlook]
  | some v => simp [getItem, hlook]

/-- The entry is set in the section `plugins.plugin`, which must be there. -/
theorem disablePlugin_eq_ok {name : String} {cfg cfg' : Fields} :
    disablePlugin name cfg = .ok cfg' ↔
      ∃ plugins plugin, cfg.lookup "plugins" = some (.obj plugins) ∧
        plugins.lookup "plugin" = some (.obj plugin) ∧
        cfg' = setItem "plugins"
          (.obj (setItem "plugin" (.obj (setItem name (.str "disable") plugin)) plugins)) cfg := by
  simp only [disablePlugin, bind_eq_ok, getItem_eq_ok]
  constructor
  · rintro ⟨plugins, hplugins, plugin, hplugin, h⟩
    split at h
    · rename_i plugins' plugin'
      rw [getItem_eq_ok] at hplugin
      cases h
      exact ⟨plugins', plugin', hplugins, hplugin, rfl⟩
    · cases h
  · rintro ⟨plugins, plugin, hplugins, hplugin, rfl⟩
    exact ⟨.obj plugins, hplugins, .obj plugin, getItem_eq_ok.2 hplugin, rfl⟩

/-- The other sections stay. -/
theorem disablePlugin_lookup {name key : String} {cfg cfg' : Fields}
    (h : disablePlugin name cfg = .ok cfg') (hkey : key ≠ "plugins") :
    cfg'.lookup key = cfg.lookup key := by
  obtain ⟨plugins, plugin, -, -, rfl⟩ := disablePlugin_eq_ok.1 h
  exact lookup_setItem_of_ne hkey _ cfg

/-- The plugin is disabled and the other ones stay. -/
theorem disablePlugin_pluginOf {name : String} {cfg cfg' : Fields}
    (h : disablePlugin name cfg = .ok cfg') (other : String) :
    pluginOf cfg' other = if other = name then some (.str "disable") else pluginOf cfg other := by
  obtain ⟨plugins, plugin, hplugins, hplugin, rfl⟩ := disablePlugin_eq_ok.1 h
  have hold : pluginOf cfg other = plugin.lookup other := by
    simp only [pluginOf, hplugins, hplugin]
  rw [hold]
  simp only [pluginOf, lookup_setItem_self]
  split
  · rename_i heq
    rw [heq, lookup_setItem_self]
  · rename_i hne
    exact lookup_setItem_of_ne hne _ plugin

theorem pluginOf_pop_dpdk (cfg : Fields) (name : String) :
    pluginOf (pop "dpdk" cfg) name = pluginOf cfg name := by
  unfold pluginOf
  rw [lookup_pop_of_ne (by decide)]

theorem disablePlugin_distinct {name : String} {cfg cfg' : Fields}
    (hd : (Json.obj cfg).DistinctKeys) (h : disablePlugin name cfg = .ok cfg') :
    (Json.obj cfg').DistinctKeys := by
  obtain ⟨plugins, plugin, hplugins, hplugin, rfl⟩ := disablePlugin_eq_ok.1 h
  have hdplugins : (Json.obj plugins).DistinctKeys := hd.2.lookup hplugins
  have hdplugin : (Json.obj plugin).DistinctKeys := hdplugins.2.lookup hplugin
  have hdstr : (Json.str "disable").DistinctKeys := trivial
  exact distinctKeys_setItem hd
    (distinctKeys_setItem hdplugins (distinctKeys_setItem hdplugin hdstr))

theorem disableDpdkCfg_eq_ok {cfg cfg' : Fields} :
    disableDpdkCfg cfg = .ok cfg' ↔
      ∃ c, disablePlugin "dpdk_plugin.so" cfg = .ok c ∧ cfg' = pop "dpdk" c := by
  rw [disableDpdkCfg, bind_eq_ok]
  constructor
  · rintro ⟨c, hc, h⟩
    exact ⟨c, hc, (Except.ok.inj h).symm⟩
  · rintro ⟨c, hc, rfl⟩
    exact ⟨c, hc, rfl⟩

/-- Disabling a plugin a second time changes nothing. -/
theorem disablePlugin_of_disabled {name : String} {cfg : Fields}
    (h : pluginOf cfg name = some (.str "disable")) : disablePlugin name cfg = .ok cfg := by
  unfold pluginOf at h
  split at h
  · rename_i plugins hplugins
    split at h
    · rename_i plugin hplugin
      refine disablePlugin_eq_ok.2 ⟨plugins, plugin, hplugins, hplugin, ?_⟩
      rw [setItem_of_lookup h, setItem_of_lookup hplugin, setItem_of_lookup hplugins]
    · cases h
  · cases h

theorem disableDpdkCfg_twice {cfg cfg' : Fields} (h : disableDpdkCfg cfg = .ok cfg') :
    disableDpdkCfg cfg' = .ok cfg' := by
  obtain ⟨c, hc, rfl⟩ := disableDpdkCfg_eq_ok.1 h
  refine disableDpdkCfg_eq_ok.2 ⟨pop "dpdk" c, disablePlugin_of_disabled ?_, ?_⟩
  · rw [pluginOf_pop_dpdk, disablePlugin_pluginOf hc, if_pos rfl]
  · rw [pop_of_lookup_none (lookup_pop_self ..)]

theorem vppEnvConfig_eq_ok {env : Env} {cfg cfg' : Fields} :
    vppEnvConfig env cfg = .ok cfg' ↔
      ∃ c, (if env.dpdkDisable then disableDpdkCfg cfg else .ok cfg) = .ok c ∧
        (if env.noLinuxNl then disablePlugin "linux_nl_plugin.so" c else .ok c) = .ok cfg' := by
  unfold vppEnvConfig
  cases env.dpdkDisable with
  | true => rw [if_pos rfl, if_pos rfl, bind_eq_ok]
  | false =>
    show (Except.ok cfg >>= _) = _ ↔ _
    rw [bind_eq_ok]
    rfl

/-- DPDK is disabled at this commit: no device is configured, or the environment says so. -/
def Decides (env : Env) (cfg : Fields) (disabled : Bool) : Prop :=
  ∃ b, disableDpdk cfg = .ok b ∧ (env.dpdkDisable || b) = disabled

/-- The two post-processing steps do what the second alone does in an environment that disables
DPDK whenever it is to be disabled. -/
theorem vppDpdkConfig_vppEnvConfig {env : Env} {cfg : Fields} {disabled : Bool}
    (hdec : Decides env cfg disabled) :
    (vppDpdkConfig cfg >>= vppEnvConfig env)
      = vppEnvConfig { env with dpdkDisable := disabled } cfg := by
  obtain ⟨b, hb, rfl⟩ := hdec
  have hfirst : vppDpdkConfig cfg = if b then disableDpdkCfg cfg else .ok cfg := by
    rw [vppDpdkConfig, hb]
    rfl
  rw [hfirst]
  cases b with
  | false =>
    rw [Bool.or_false]
    rfl
  | true =>
    rw [Bool.or_true, if_pos rfl]
    cases hc : disableDpdkCfg cfg with
    | error e =>
      rw [vppEnvConfig, if_pos rfl, hc]
      rfl
    | ok c =>
      -- the environment disables what is disabled already
      have htwice : vppEnvConfig env c = vppEnvConfig { env with dpdkDisable := false } c := by
        unfold vppEnvConfig
        cases env.dpdkDisable with
        | true => rw [if_pos rfl, disableDpdkCfg_twice hc]; rfl
        | false => rfl
      show vppEnvConfig env c = _
      rw [htwice, vppEnvConfig, vppEnvConfig, if_pos rfl, hc]
      rfl

/-- **What a commit writes**, once the decision about DPDK is made. -/
theorem commitCfg_eq_ok {env : Env} {cfg cfg' : Fields} {files : Files} {disabled : Bool}
    (hdec : Decides env cfg disabled) :
    commitCfg env cfg = .ok (cfg', files) ↔
      ∃ vports conf, vppVportsConfig cfg = .ok vports ∧
        vppEnvConfig { env with dpdkDisable := disabled } cfg = .ok cfg' ∧
        genVppConf cfg' "" "" = .ok conf ∧
        files = { startupJson := .obj cfg', bootupConf := vports, startupConf := conf } := by
  rw [← vppDpdkConfig_vppEnvConfig hdec]
  simp only [commitCfg, bind_eq_ok]
  constructor
  · rintro ⟨vports, hvports, c, hc, cfg₂, hcfg₂, conf, hconf, heq⟩
    cases heq
    exact ⟨vports, conf, hvports, ⟨c, hc, hcfg₂⟩, hconf, rfl⟩
  · rintro ⟨vports, conf, hvports, ⟨c, hc, hcfg₂⟩, hconf, rfl⟩
    exact ⟨vports, hvports, c, hc, cfg', hcfg₂, conf, hconf, rfl⟩

/-- Disabling DPDK, or not, keeps the keys distinct. -/
theorem dpdkStep_distinct {disable : Bool} {cfg cfg' : Fields}
    (hd : (Json.obj cfg).DistinctKeys)
    (h : (if disable = true then disableDpdkCfg cfg else .ok cfg) = .ok cfg') :
    (Json.obj cfg').DistinctKeys := by
  split at h
  · obtain ⟨c, hc, rfl⟩ := disableDpdkCfg_eq_ok.1 h
    exact distinctKeys_pop _ (disablePlugin_distinct hd hc)
  · cases h
    exact hd

/-- A commit keeps the keys of the template distinct. -/
theorem vppEnvConfig_distinct {env : Env} {cfg cfg' : Fields}
    (hd : (Json.obj cfg).DistinctKeys) (h : vppEnvConfig env cfg = .ok cfg') :
    (Json.obj cfg').DistinctKeys := by
  obtain ⟨c, hc, hcfg'⟩ := vppEnvConfig_eq_ok.1 h
  have hdc := dpdkStep_distinct hd hc
  split at hcfg'
  · exact disablePlugin_distinct hdc hcfg'
  · cases hcfg'
    exact hdc

end VppCfg
