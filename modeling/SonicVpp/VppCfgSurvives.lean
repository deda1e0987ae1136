/-
# The daemon and its exceptions

Nothing between an event and the files that are written checks the shape of a value, and
`commit` runs at the end of every round, with or without a configuration.  Here is what each
function needs to return: `Mergeable` for the merge, `Renderable` for the startup conf,
`Committable` for a commit.  From these the daemon survives a run exactly if every batch holds
a `SET` of `vpp` and every value has the shape that the code takes for granted.  The same
conditions tell which cuts of a sequence into batches are written at all, and those are written
alike if their commits agree about DPDK.

The input and output itself is taken to succeed: strings have no unpaired surrogates, which
`print` and `write` could not encode, and `print`, `open` and `write` raise nothing.
-/
import SonicVpp.VppCfgBatches

namespace VppCfg

open PyDict

/-! ## The merge -/

mutual

/-- An entry is only ever set on a dictionary. -/
def Mergeable : Fields → Json → Prop
  | [], _ => True
  | (key, val) :: input, output =>
    (∃ fields, output = .obj fields ∧ MergeableAt val (fields.lookup key)) ∧ Mergeable input output

/-- The value of a key, which may be there already. -/
def MergeableAt : Json → Option Json → Prop
  | .obj input, some outVal => Mergeable input outVal
  | _, _ => True

end

/-- The merge looks at the keys of the input only. -/
theorem mergeable_setItem {key : String} {input : Fields} (hkey : key ∉ input.map Prod.fst)
    (val : Json) (fields : Fields) :
    Mergeable input (.obj (setItem key val fields)) ↔ Mergeable input (.obj fields) := by
  induction input with
  | nil => simp [Mergeable]
  | cons e input ih =>
    obtain ⟨k, v⟩ := e
    rw [List.map_cons, List.mem_cons, not_or] at hkey
    simp only [Mergeable, Json.obj.injEq, exists_eq_left', ih hkey.2,
      lookup_setItem_of_ne (Ne.symm hkey.1)]

mutual

/-- **The merge returns** exactly if no entry is set on what is no dictionary. -/
theorem returns_deepUpdate : ∀ (input : Fields) (output : Json), (input.map Prod.fst).Nodup →
    DistinctFields input → (Returns (deepUpdate input output) ↔ Mergeable input output)
  | [], output, _, _ => by
    rw [deepUpdate_nil]
    exact ⟨fun _ => by rw [Mergeable]; trivial, fun _ => returns_ok _⟩
  | (key, val) :: input, output, hkeys, hin => by
    rw [List.map_cons, List.nodup_cons] at hkeys
    -- the first entry is set, and the rest is merged into what comes of it
    have ih := fun fields => returns_deepUpdate input (.obj fields) hkeys.2 hin.2
    rw [Mergeable]
    constructor
    · rintro ⟨merged, h⟩
      obtain ⟨fields, val', rfl, hval, hrest⟩ := deepUpdate_cons.1 h
      refine ⟨⟨fields, rfl, ?_⟩, (mergeable_setItem hkeys.1 val' fields).1 ((ih _).1 ⟨_, hrest⟩)⟩
      unfold SetsTo at hval
      split at hval
      · rename_i outVal hlook
        rw [hlook]
        exact (returns_newVal val outVal hin.1).1 ⟨val', hval⟩
      · rename_i hlook
        rw [hlook]
        cases val <;> simp [MergeableAt]
    · rintro ⟨⟨fields, rfl, hat⟩, hrest⟩
      have hset : ∃ val', SetsTo key val fields val' := by
        unfold SetsTo
        cases hlook : fields.lookup key with
        | none => exact ⟨val, rfl⟩
        | some outVal =>
          rw [hlook] at hat
          exact (returns_newVal val outVal hin.1).2 hat
      obtain ⟨val', hval⟩ := hset
      obtain ⟨merged, hmerged⟩ := (ih _).2 ((mergeable_setItem hkeys.1 val' fields).2 hrest)
      exact ⟨merged, deepUpdate_cons.2 ⟨fields, val', rfl, hval, hmerged⟩⟩

/-- So does the value of one key. -/
theorem returns_newVal : ∀ (val outVal : Json), val.DistinctKeys →
    (Returns (newVal val outVal) ↔ MergeableAt val (some outVal))
  | .obj input, outVal, hval => by
    rw [newVal_obj, MergeableAt]
    exact returns_deepUpdate input outVal hval.1 hval.2
  | .null, _, _ | .bool _, _, _ | .num _ _, _, _ | .str _, _, _ | .arr _, _, _ => by
    rw [newVal_of_not_obj (by simp)]
    simp [MergeableAt, returns_ok]

end

/-! ## The startup conf -/

/-- A value that is no dictionary is written if it is a string or counts as false. -/
def Leaf (val : Json) : Prop := val.truthy = true → val.isStr = true

theorem returns_pyStr (val : Json) : Returns (pyStr val) ↔ val.isStr = true := by
  cases val with
  | str s => exact ⟨fun _ => rfl, fun _ => returns_ok _⟩
  | null | bool | num | arr | obj => simp [pyStr, Json.isStr, not_returns_error]

theorem returns_genLeaf (indoff key conf : String) (val : Json) :
    Returns (genLeaf indoff key val conf) ↔ Leaf val := by
  unfold genLeaf Leaf
  split
  · rename_i htrue
    rw [returns_bind]
    constructor
    · rintro ⟨text, htext, -⟩ -
      exact (returns_pyStr val).1 ⟨text, htext⟩
    · intro h
      obtain ⟨text, htext⟩ := (returns_pyStr val).2 (h htrue)
      exact ⟨text, htext, returns_ok _⟩
  · rename_i hfalse
    exact ⟨fun _ h => absurd h hfalse, fun _ => returns_ok _⟩

mutual

/-- What `gen_dpdk_dev_cfg` can write. -/
def DevRenderable : Fields → Prop
  | [] => True
  | (_, val) :: cfg => DevItemRenderable val ∧ DevRenderable cfg

/-- One entry of it. -/
def DevItemRenderable : Json → Prop
  | .obj val => DevRenderable val
  | val => Leaf val

end

/-- What `gen_plugins_cfg` can write. -/
def PluginsRenderable (cfg : Fields) : Prop := ∀ e ∈ cfg, e.2.isStr = true

mutual

/-- What `gen_vpp_conf` can write. -/
def Renderable : Fields → Prop
  | [] => True
  | (key, val) :: cfg => ItemRenderable key val ∧ Renderable cfg

/-- One entry of it. -/
def ItemRenderable (key : String) : Json → Prop
  | .obj val =>
    if key = "vports" then True
    else if key = "dev" then DevRenderable val
    else if key = "plugin" then PluginsRenderable val
    else Renderable val
  | val => Leaf val

end

mutual

theorem returns_genDpdkDevCfg : ∀ (cfg : Fields) (indoff conf : String),
    Returns (genDpdkDevCfg cfg indoff conf) ↔ DevRenderable cfg
  | [], indoff, conf => by
    rw [genDpdkDevCfg, DevRenderable]
    exact ⟨fun _ => trivial, fun _ => returns_ok _⟩
  | (key, val) :: cfg, indoff, conf => by
    rw [genDpdkDevCfg, DevRenderable, returns_bind]
    constructor
    · rintro ⟨conf', hitem, hrest⟩
      exact ⟨(returns_genDpdkDevItem key val indoff conf).1 ⟨conf', hitem⟩,
        (returns_genDpdkDevCfg cfg indoff conf').1 hrest⟩
    · rintro ⟨hitem, hrest⟩
      obtain ⟨conf', hconf⟩ := (returns_genDpdkDevItem key val indoff conf).2 hitem
      exact ⟨conf', hconf, (returns_genDpdkDevCfg cfg indoff conf').2 hrest⟩

theorem returns_genDpdkDevItem (key : String) : ∀ (val : Json) (indoff conf : String),
    Returns (genDpdkDevItem key val indoff conf) ↔ DevItemRenderable val
  | .obj val, indoff, conf => by
    rw [genDpdkDevItem, DevItemRenderable, returns_bind,
      ← returns_genDpdkDevCfg val (indoff ++ INDENT)]
    exact ⟨fun ⟨conf', h, _⟩ => ⟨conf', h⟩, fun ⟨conf', h⟩ => ⟨conf', h, returns_ok _⟩⟩
  | .null, _, _ | .bool _, _, _ | .num _ _, _, _ | .str _, _, _ | .arr _, _, _ => by
    simp only [genDpdkDevItem, DevItemRenderable, returns_genLeaf]

end

theorem returns_genPluginsCfg (cfg : Fields) (indoff conf : String) :
    Returns (genPluginsCfg cfg indoff conf) ↔ PluginsRenderable cfg := by
  induction cfg generalizing conf with
  | nil =>
    rw [genPluginsCfg]
    exact ⟨fun _ e he => (List.not_mem_nil he).elim, fun _ => returns_ok _⟩
  | cons e cfg ih =>
    obtain ⟨key, val⟩ := e
    rw [genPluginsCfg, returns_bind, PluginsRenderable, List.forall_mem_cons, ← returns_pyStr]
    constructor
    · rintro ⟨text, htext, hrest⟩
      exact ⟨⟨text, htext⟩, (ih _).1 hrest⟩
    · rintro ⟨⟨text, htext⟩, hrest⟩
      exact ⟨text, htext, (ih _).2 hrest⟩

mutual

/-- **The startup conf is written** exactly if its values are strings or count as false. -/
theorem returns_genVppConf : ∀ (cfg : Fields) (indoff conf : String),
    Returns (genVppConf cfg indoff conf) ↔ Renderable cfg
  | [], indoff, conf => by
    rw [genVppConf, Renderable]
    exact ⟨fun _ => trivial, fun _ => returns_ok _⟩
  | (key, val) :: cfg, indoff, conf => by
    rw [genVppConf, Renderable, returns_bind]
    constructor
    · rintro ⟨conf', hitem, hrest⟩
      exact ⟨(returns_genVppItem key val indoff conf).1 ⟨conf', hitem⟩,
        (returns_genVppConf cfg indoff conf').1 hrest⟩
    · rintro ⟨hitem, hrest⟩
      obtain ⟨conf', hconf⟩ := (returns_genVppItem key val indoff conf).2 hitem
      exact ⟨conf', hconf, (returns_genVppConf cfg indoff conf').2 hrest⟩

/-- One entry of it. -/
theorem returns_genVppItem (key : String) : ∀ (val : Json) (indoff conf : String),
    Returns (genVppItem key val indoff conf) ↔ ItemRenderable key val
  | .obj val, indoff, conf => by
    rw [genVppItem, ItemRenderable]
    split
    · exact ⟨fun _ => trivial, fun _ => returns_ok _⟩
    · split
      · exact returns_genDpdkDevCfg val indoff conf
      · split
        · exact returns_genPluginsCfg val indoff conf
        · rw [returns_bind, ← returns_genVppConf val (indoff ++ INDENT)]
          exact ⟨fun ⟨conf', h, _⟩ => ⟨conf', h⟩, fun ⟨conf', h⟩ => ⟨conf', h, returns_ok _⟩⟩
  | .null, _, _ | .bool _, _, _ | .num _ _, _, _ | .str _, _, _ | .arr _, _, _ => by
    simp only [genVppItem, ItemRenderable, returns_genLeaf]

end

theorem renderable_iff (cfg : Fields) : Renderable cfg ↔ ∀ e ∈ cfg, ItemRenderable e.1 e.2 := by
  induction cfg with
  | nil => simp [Renderable]
  | cons e cfg ih => rw [Renderable, ih, List.forall_mem_cons]

/-! ## What the post-processing spares

The post-processing drops and replaces values before they are written, so these may be of any
type.  `SectionsOk replaced dropped cfg` leaves out the plugins in `replaced` and, where `dropped`
is set, the section `dpdk`. -/

/-- The values of `plugins.plugin`. -/
def PluginOk (replaced : String → Bool) : Json → Prop
  | .obj plugin => ∀ e ∈ plugin, replaced e.1 = true ∨ e.2.isStr = true
  | val => Leaf val

/-- The values of `plugins`. -/
def PluginsOk (replaced : String → Bool) : Json → Prop
  | .obj plugins => ∀ e ∈ plugins,
    if e.1 = "plugin" then PluginOk replaced e.2 else ItemRenderable e.1 e.2
  | val => Leaf val

/-- The values of a configuration. -/
def SectionsOk (replaced : String → Bool) (dropped : Bool) (cfg : Fields) : Prop :=
  ∀ e ∈ cfg, if e.1 = "plugins" then PluginsOk replaced e.2
    else (dropped = true ∧ e.1 = "dpdk") ∨ ItemRenderable e.1 e.2

theorem pluginOk_none (val : Json) :
    PluginOk (fun _ => false) val ↔ ItemRenderable "plugin" val := by
  cases val with
  | obj plugin => simp [PluginOk, ItemRenderable, PluginsRenderable]
  | null | bool | num | str | arr => simp [PluginOk, ItemRenderable]

theorem pluginsOk_none (val : Json) :
    PluginsOk (fun _ => false) val ↔ ItemRenderable "plugins" val := by
  cases val with
  | obj plugins =>
    have hentry : ∀ e : String × Json, (if e.1 = "plugin" then PluginOk (fun _ => false) e.2
        else ItemRenderable e.1 e.2) ↔ ItemRenderable e.1 e.2 := by
      intro e
      split
      · rename_i hkey
        rw [hkey, pluginOk_none]
      · exact Iff.rfl
    simp only [PluginsOk, hentry]
    rw [← renderable_iff]
    simp [ItemRenderable]
  | null | bool | num | str | arr => simp [PluginsOk, ItemRenderable]

/-- With nothing replaced and nothing dropped it is all of the configuration. -/
theorem sectionsOk_none (cfg : Fields) :
    SectionsOk (fun _ => false) false cfg ↔ Renderable cfg := by
  rw [renderable_iff]
  refine forall₂_congr fun e _ => ?_
  split
  · rename_i hkey
    rw [hkey, pluginsOk_none]
  · simp

/-- A plugin that gets disabled is replaced. -/
theorem sectionsOk_disablePlugin {name : String} {cfg cfg' : Fields}
    (hd : (Json.obj cfg).DistinctKeys) (h : disablePlugin name cfg = .ok cfg')
    (replaced : String → Bool) (dropped : Bool) :
    SectionsOk replaced dropped cfg' ↔
      SectionsOk (fun other => other == name || replaced other) dropped cfg := by
  obtain ⟨plugins, plugin, hplugins, hplugin, rfl⟩ := disablePlugin_eq_ok.1 h
  have hdplugins : (Json.obj plugins).DistinctKeys := hd.2.lookup hplugins
  have hdplugin : (Json.obj plugin).DistinctKeys := hdplugins.2.lookup hplugin
  refine forall_mem_setItem hd.1 hplugins ?_ fun e hne => ?_
  · refine forall_mem_setItem hdplugins.1 hplugin ?_ fun e hne => ?_
    · -- the plugin need not have been there
      show (∀ e ∈ setItem name _ plugin, _) ↔ ∀ e ∈ plugin, _
      simp only [mem_setItem hdplugin.1, Bool.or_eq_true, beq_iff_eq]
      constructor
      · intro h e he
        by_cases hname : e.1 = name
        · exact Or.inl (Or.inl hname)
        · exact (h e (Or.inr ⟨he, hname⟩)).imp Or.inr id
      · rintro h e (rfl | ⟨he, hname⟩)
        · exact Or.inr rfl
        · rcases h e he with (heq | hrep) | hstr
          · exact absurd heq hname
          · exact Or.inl hrep
          · exact Or.inr hstr
    · rw [if_neg hne, if_neg hne]
  · rw [if_neg hne, if_neg hne]

/-- A section that is taken out is dropped. -/
theorem sectionsOk_pop (replaced : String → Bool) (cfg : Fields) :
    SectionsOk replaced false (pop "dpdk" cfg) ↔ SectionsOk replaced true cfg := by
  unfold SectionsOk
  constructor
  · intro h e he
    by_cases hkey : e.1 = "dpdk"
    · rw [hkey, if_neg (by decide)]
      exact Or.inl ⟨rfl, rfl⟩
    · have := h e (List.mem_filter.2 ⟨he, by simpa using hkey⟩)
      simpa [hkey] using this
  · intro h e he
    obtain ⟨he, hkey⟩ := List.mem_filter.1 he
    have hkey' : e.1 ≠ "dpdk" := by simpa using hkey
    simpa [hkey'] using h e he

/-- What is left to write is what the post-processing spares. -/
theorem renderable_vppEnvConfig {env : Env} {cfg cfg' : Fields}
    (hd : (Json.obj cfg).DistinctKeys) (h : vppEnvConfig env cfg = .ok cfg') :
    Renderable cfg' ↔ SectionsOk (disabledPlugin env) env.dpdkDisable cfg := by
  obtain ⟨c, hc, hcfg'⟩ := vppEnvConfig_eq_ok.1 h
  have hdc := dpdkStep_distinct hd hc
  have hlast : Renderable cfg' ↔
      SectionsOk (fun name => env.noLinuxNl && name == "linux_nl_plugin.so") false c := by
    rw [← sectionsOk_none]
    cases hnl : env.noLinuxNl with
    | true =>
      rw [hnl, if_pos rfl] at hcfg'
      rw [sectionsOk_disablePlugin hdc hcfg']
      simp only [Bool.or_false, Bool.true_and]
    | false =>
      rw [hnl] at hcfg'
      cases hcfg'
      simp only [Bool.false_and]
  rw [hlast]
  unfold disabledPlugin
  cases henv : env.dpdkDisable with
  | true =>
    rw [henv, if_pos rfl] at hc
    obtain ⟨c', hc', rfl⟩ := disableDpdkCfg_eq_ok.1 hc
    rw [sectionsOk_pop, sectionsOk_disablePlugin hd hc']
    simp only [Bool.true_and]
  | false =>
    rw [henv] at hc
    cases hc
    simp only [Bool.false_and, Bool.false_or]

/-! ## The commit -/

/-- A device other than the defaults is configured. -/
def hasDevice (cfg : Fields) : Bool :=
  match cfg.lookup "dpdk" with
  | some (.obj dpdk) =>
    match dpdk.lookup "dev" with
    | some (.obj dev) => dev.any fun e => e.1 ≠ "default"
    | _ => false
  | _ => false

/-- The section `dpdk` is a dictionary and so is `dev` in it, if it is there; or `dev` is not in
it in the sense that `in` has for a string and for a list. -/
def DpdkOk : Json → Prop
  | .obj dpdk => ∀ val, dpdk.lookup "dev" = some val → ∃ dev, val = .obj dev
  | val => pyIn "dev" val = .ok false

/-- The loop over the devices. -/
theorem foldl_disable (items : Fields) (b : Bool) :
    items.foldl (fun disable e => if e.1 ≠ "default" then false else disable) b
      = (b && !items.any fun e => e.1 ≠ "default") := by
  induction items generalizing b with
  | nil => simp
  | cons e items ih =>
    rw [List.foldl_cons, ih, List.any_cons]
    by_cases he : e.1 = "default"
    · simp [he]
    · simp [he]

/-- A section `dpdk` that is no dictionary. -/
theorem disableDpdk_of_not_obj {cfg : Fields} {dpdk : Json} (hdpdk : cfg.lookup "dpdk" = some dpdk)
    (hget : getItem "dev" dpdk = .error .typeError) {b : Bool} :
    disableDpdk cfg = .ok b ↔ pyIn "dev" dpdk = .ok false ∧ b = true := by
  rw [disableDpdk, hdpdk]
  show (pyIn "dev" dpdk >>= _) = _ ↔ _
  rw [bind_eq_ok]
  constructor
  · rintro ⟨hasDev, hin, h⟩
    cases hasDev with
    | true =>
      rw [if_pos rfl, hget] at h
      cases h
    | false =>
      cases h
      exact ⟨hin, rfl⟩
  · rintro ⟨hin, rfl⟩
    exact ⟨false, hin, rfl⟩

/-- A section `dpdk` with the section `dev` in it. -/
theorem disableDpdk_of_dev {cfg dpdk : Fields} {dev : Json}
    (hdpdk : cfg.lookup "dpdk" = some (.obj dpdk)) (hdev : dpdk.lookup "dev" = some dev) {b : Bool} :
    disableDpdk cfg = .ok b ↔
      ∃ items, dev = .obj items ∧ b = !items.any fun e => e.1 ≠ "default" := by
  have hin : pyIn "dev" (.obj dpdk) = .ok true := by simp [pyIn, hdev]
  rw [disableDpdk, hdpdk]
  show (pyIn "dev" (.obj dpdk) >>= _) = _ ↔ _
  rw [hin]
  show (getItem "dev" (.obj dpdk) >>= _) = _ ↔ _
  rw [getItem_eq_ok.2 hdev]
  show (pyItems dev >>= _) = _ ↔ _
  rw [bind_eq_ok]
  simp only [foldl_disable, Bool.true_and]
  cases dev with
  | obj items =>
    constructor
    · rintro ⟨items', hitems, h⟩
      cases hitems
      exact ⟨items, rfl, (Except.ok.inj h).symm⟩
    · rintro ⟨items', hitems, rfl⟩
      cases hitems
      exact ⟨items, rfl, rfl⟩
  | null | bool | num | str | arr => simp [pyItems]

/-- **The decision about DPDK** is made if the sections have their shapes. -/
theorem disableDpdk_eq_ok {cfg : Fields} {b : Bool} :
    disableDpdk cfg = .ok b ↔
      (∀ val, cfg.lookup "dpdk" = some val → DpdkOk val) ∧ b = !hasDevice cfg := by
  cases hdpdk : cfg.lookup "dpdk" with
  | none =>
    have hdis : disableDpdk cfg = .ok true := by rw [disableDpdk, hdpdk]
    simp [hdis, hasDevice, hdpdk, eq_comm]
  | some dpdk =>
    simp only [Option.some.injEq, forall_eq']
    cases dpdk with
    | obj fields =>
      cases hdev : fields.lookup "dev" with
      | none =>
        have hdis : disableDpdk cfg = .ok true := by
          rw [disableDpdk, hdpdk]
          show (pyIn "dev" (.obj fields) >>= _) = _
          rw [show pyIn "dev" (.obj fields) = .ok false by simp [pyIn, hdev]]
          rfl
        simp [hdis, hasDevice, hdpdk, DpdkOk, hdev, eq_comm]
      | some dev =>
        rw [disableDpdk_of_dev hdpdk hdev]
        simp only [hasDevice, hdpdk, DpdkOk, hdev, Option.some.injEq, forall_eq']
        cases dev with
        | obj items => simp
        | null | bool | num | str | arr => simp
    | null | bool | num | str | arr =>
      rw [disableDpdk_of_not_obj hdpdk rfl]
      simp only [hasDevice, hdpdk, DpdkOk, Bool.not_false]

/-- The section in which plugins are disabled is there. -/
def HasPluginSection (cfg : Fields) : Prop :=
  ∃ plugins plugin, cfg.lookup "plugins" = some (.obj plugins) ∧
    plugins.lookup "plugin" = some (.obj plugin)

theorem returns_disablePlugin (name : String) {cfg : Fields} :
    Returns (disablePlugin name cfg) ↔ HasPluginSection cfg := by
  constructor
  · rintro ⟨cfg', h⟩
    obtain ⟨plugins, plugin, hplugins, hplugin, -⟩ := disablePlugin_eq_ok.1 h
    exact ⟨plugins, plugin, hplugins, hplugin⟩
  · rintro ⟨plugins, plugin, hplugins, hplugin⟩
    exact ⟨_, disablePlugin_eq_ok.2 ⟨plugins, plugin, hplugins, hplugin, rfl⟩⟩

/-- The section is there after DPDK was disabled. -/
theorem HasPluginSection.disableDpdkCfg {cfg cfg' : Fields}
    (h : disableDpdkCfg cfg = .ok cfg') : HasPluginSection cfg' := by
  obtain ⟨c, hc, -⟩ := disableDpdkCfg_eq_ok.1 (disableDpdkCfg_twice h)
  exact (returns_disablePlugin _).1 ⟨c, hc⟩

/-- The post-processing returns if the section is there, or if nothing is to be disabled. -/
theorem returns_vppEnvConfig {env : Env} {cfg : Fields} :
    Returns (vppEnvConfig env cfg) ↔
      (env.dpdkDisable = true ∨ env.noLinuxNl = true → HasPluginSection cfg) := by
  constructor
  · rintro ⟨cfg', h⟩ hor
    obtain ⟨c, hc, hcfg'⟩ := vppEnvConfig_eq_ok.1 h
    split at hc
    · obtain ⟨c', hc', -⟩ := disableDpdkCfg_eq_ok.1 hc
      exact (returns_disablePlugin _).1 ⟨c', hc'⟩
    · rename_i henv
      cases hc
      rw [if_pos (hor.resolve_left henv)] at hcfg'
      exact (returns_disablePlugin _).1 ⟨cfg', hcfg'⟩
  · intro h
    -- taking `dpdk` out leaves the plugins for the second step
    have hfirst : ∃ c, (if env.dpdkDisable then disableDpdkCfg cfg else .ok cfg) = .ok c ∧
        (env.noLinuxNl = true → HasPluginSection c) := by
      split
      · rename_i henv
        obtain ⟨c', hc'⟩ := (returns_disablePlugin _).2 (h (Or.inl henv))
        have hc : disableDpdkCfg cfg = .ok (pop "dpdk" c') := disableDpdkCfg_eq_ok.2 ⟨c', hc', rfl⟩
        exact ⟨_, hc, fun _ => HasPluginSection.disableDpdkCfg hc⟩
      · exact ⟨cfg, rfl, fun hnl => h (Or.inr hnl)⟩
    obtain ⟨c, hc, hsection⟩ := hfirst
    have hlast : ∃ cfg', (if env.noLinuxNl then disablePlugin "linux_nl_plugin.so" c else .ok c)
        = .ok cfg' := by
      split
      · rename_i hnl
        exact (returns_disablePlugin _).2 (hsection hnl)
      · exact ⟨c, rfl⟩
    obtain ⟨cfg', hcfg'⟩ := hlast
    exact ⟨cfg', vppEnvConfig_eq_ok.2 ⟨c, hc, hcfg'⟩⟩

/-- The environment as it counts at a commit: DPDK is disabled without a device, too. -/
def effective (env : Env) (cfg : Fields) : Env :=
  { env with dpdkDisable := env.dpdkDisable || !hasDevice cfg }

/-- A configuration with the shapes and the values that a commit takes for granted. -/
structure Committable (env : Env) (cfg : Fields) : Prop where
  vports : ∀ val, cfg.lookup "vports" = some val → ∃ ports, val = .obj ports
  dpdk : ∀ val, cfg.lookup "dpdk" = some val → DpdkOk val
  plugin : (effective env cfg).dpdkDisable = true ∨ env.noLinuxNl = true → HasPluginSection cfg
  values : SectionsOk (disabledPlugin (effective env cfg)) (effective env cfg).dpdkDisable cfg

theorem returns_vppVportsConfig {cfg : Fields} :
    Returns (vppVportsConfig cfg) ↔
      ∀ val, cfg.lookup "vports" = some val → ∃ ports, val = .obj ports := by
  unfold vppVportsConfig
  cases cfg.lookup "vports" with
  | none => simp [returns_ok]
  | some vports =>
    show Returns (pyItems vports >>= _) ↔ _
    rw [returns_bind]
    cases vports with
    | obj ports => simp [pyItems, returns_ok]
    | null | bool | num | str | arr => simp [pyItems]

/-- **A commit returns** exactly if the configuration is committable. -/
theorem returns_commitCfg {env : Env} {cfg : Fields} (hd : (Json.obj cfg).DistinctKeys) :
    Returns (commitCfg env cfg) ↔ Committable env cfg := by
  constructor
  · rintro ⟨⟨cfg', files⟩, h⟩
    have hdis : ∃ b, disableDpdk cfg = .ok b := by
      simp only [commitCfg, vppDpdkConfig, bind_eq_ok] at h
      obtain ⟨-, -, -, ⟨b, hb, -⟩, -⟩ := h
      exact ⟨b, hb⟩
    obtain ⟨b, hb⟩ := hdis
    obtain ⟨hdpdk, rfl⟩ := disableDpdk_eq_ok.1 hb
    obtain ⟨vports, conf, hvports, hpost, hconf, -⟩ := (commitCfg_eq_ok ⟨_, hb, rfl⟩).1 h
    refine ⟨returns_vppVportsConfig.1 ⟨vports, hvports⟩, hdpdk, ?_, ?_⟩
    · exact returns_vppEnvConfig.1 ⟨cfg', hpost⟩
    · exact (renderable_vppEnvConfig hd hpost).1 ((returns_genVppConf cfg' "" "").1 ⟨conf, hconf⟩)
  · rintro ⟨hvports, hdpdk, hplugin, hvalues⟩
    obtain ⟨vports, hvports⟩ := returns_vppVportsConfig.2 hvports
    obtain ⟨cfg', hpost⟩ := returns_vppEnvConfig.2 hplugin
    obtain ⟨conf, hconf⟩ :=
      (returns_genVppConf cfg' "" "").2 ((renderable_vppEnvConfig hd hpost).2 hvalues)
    exact ⟨_, (commitCfg_eq_ok ⟨_, disableDpdk_eq_ok.2 ⟨hdpdk, rfl⟩, rfl⟩).2
      ⟨vports, conf, hvports, hpost, hconf, rfl⟩⟩

/-! ## Runs of the daemon -/

/-- Every field value of a `SET` is, requoted, the text of a JSON object. -/
def Event.WellFormed (L : Loads) : Event → Prop
  | .set _ fvs => ∀ e ∈ fvs, ∃ fields, L.loads (requote e.2) = some (.obj fields)
  | .del _ => True

/-- The values of a `SET` of `vpp` fit the configuration. -/
def EventOk (L : Loads) (d : Daemon) : Event → Prop
  | .set key fvs => key = "vpp" → ∀ cfg, parseData L (dictOf fvs) = .ok cfg →
      Mergeable cfg (.obj d.template)
  | .del _ => True

theorem returns_parseData {L : Loads} {data : List (String × String)}
    (h : ∀ e ∈ data, ∃ fields, L.loads (requote e.2) = some (.obj fields)) :
    Returns (parseData L data) := by
  induction data with
  | nil => exact returns_ok _
  | cons e data ih =>
    obtain ⟨key, text⟩ := e
    obtain ⟨fields, hload⟩ := h _ List.mem_cons_self
    obtain ⟨rest, hrest⟩ := ih fun x hx => h x (List.mem_cons_of_mem _ hx)
    refine ⟨(key, .obj fields) :: rest, ?_⟩
    rw [parseData, hload]
    show (parseData L data >>= _) = _
    rw [hrest]
    rfl

/-- **A handler returns** exactly if the event fits. -/
theorem returns_handler {L : Loads} {d : Daemon} {ev : Event} (hev : ev.WellFormed L) :
    Returns (handler L d ev) ↔ EventOk L d ev := by
  by_cases hvpp : ev.IsVppSet
  · obtain ⟨fvs, rfl⟩ := hvpp
    obtain ⟨cfg, hcfg⟩ := returns_parseData fun e he => hev e (mem_of_mem_dictOf he)
    obtain ⟨hdist, hkeys⟩ := parseData_distinct hcfg
    have hnodup : (cfg.map Prod.fst).Nodup := hkeys ▸ dictOf_nodup fvs
    -- the texts are JSON objects, so only the merge can raise
    have hok : EventOk L d (.set "vpp" fvs) ↔ Mergeable cfg (.obj d.template) := by
      constructor
      · exact fun h => h rfl cfg hcfg
      · intro h _ cfg' hcfg'
        rw [hcfg] at hcfg'
        cases hcfg'
        exact h
    rw [hok, ← returns_deepUpdate cfg _ hnodup hdist, handler_of_vppSet]
    constructor
    · rintro ⟨d', hd'⟩
      obtain ⟨cfg', fields, hcfg', hmerge, -⟩ := handleConfigData_eq_ok.1 hd'
      rw [hcfg] at hcfg'
      cases hcfg'
      exact ⟨_, hmerge⟩
    · rintro ⟨merged, hmerge⟩
      obtain ⟨fields, rfl⟩ := deepUpdate_obj hmerge
      exact ⟨_, handleConfigData_eq_ok.2 ⟨cfg, fields, hcfg, hmerge, rfl⟩⟩
  · rw [handler_of_not_vppSet hvpp]
    refine ⟨fun _ => ?_, fun _ => returns_ok d⟩
    cases ev with
    | set key fvs => exact fun hkey => absurd ⟨fvs, by rw [hkey]⟩ hvpp
    | del key => trivial

/-- A configuration is loaded once a `SET` of `vpp` was handled. -/
theorem events_loaded {L : Loads} {batch : List Event} {d d' : Daemon}
    (h : batch.foldlM (handler L) d = .ok d') :
    d'.loaded = true ↔ d.loaded = true ∨ ∃ ev ∈ batch, ev.IsVppSet := by
  induction batch generalizing d with
  | nil =>
    cases h
    simp
  | cons ev batch ih =>
    rw [List.foldlM_cons, bind_eq_ok] at h
    obtain ⟨d₁, hd₁, h⟩ := h
    rw [ih h]
    by_cases hev : ev.IsVppSet
    · have hloaded : d₁.loaded = true := by
        obtain ⟨fvs, rfl⟩ := hev
        rw [handler_of_vppSet, handleConfigData_eq_ok] at hd₁
        obtain ⟨cfg, fields, -, -, rfl⟩ := hd₁
        rfl
      exact ⟨fun _ => Or.inr ⟨ev, List.mem_cons_self, hev⟩, fun _ => Or.inl hloaded⟩
    · rw [handler_of_not_vppSet hev] at hd₁
      cases hd₁
      simp [hev]

/-- What the code takes for granted about a batch: it holds a `SET` of `vpp`, its values fit the
configuration, and the commit can write the outcome. -/
structure BatchOk (L : Loads) (env : Env) (d : Daemon) (batch : List Event) : Prop where
  vppSet : ∃ ev ∈ batch, ev.IsVppSet
  events : Along (handler L) (EventOk L) d batch
  commit : ∀ d', batch.foldlM (handler L) d = .ok d' → Committable env d'.template

/-- A round of the daemon: no exception is raised, and a batch without a `SET` of `vpp` leaves the
files as they are. -/
structure Survives (L : Loads) (env : Env) (d : Daemon) (batch : List Event) : Prop where
  returns : Returns (runBatch L env batch d)
  files : (∀ ev ∈ batch, ¬ ev.IsVppSet) →
    ∀ d', runBatch L env batch d = .ok d' → d'.files = d.files

/-- What holds between two rounds. -/
structure Idle (d : Daemon) : Prop where
  distinct : (Json.obj d.template).DistinctKeys
  loaded : d.loaded = false

theorem returns_commit {env : Env} {d : Daemon} (hd : (Json.obj d.template).DistinctKeys) :
    Returns (commit env d) ↔ d.loaded = true ∧ Committable env d.template := by
  rw [← returns_commitCfg hd]
  constructor
  · rintro ⟨d', h⟩
    obtain ⟨hloaded, cfg, files, hcfg, -⟩ := commit_eq_ok.1 h
    exact ⟨hloaded, _, hcfg⟩
  · rintro ⟨hloaded, ⟨cfg, files⟩, hcfg⟩
    exact ⟨_, commit_eq_ok.2 ⟨hloaded, cfg, files, hcfg, rfl⟩⟩

/-- The events of a batch one by one: each merge in the state that it finds. -/
theorem returns_events {L : Loads} {d : Daemon} {batch : List Event}
    (hwf : ∀ ev ∈ batch, ev.WellFormed L) :
    Returns (batch.foldlM (handler L) d) ↔ Along (handler L) (EventOk L) d batch := by
  rw [returns_foldlM_iff]
  exact along_iff_of_invariant (Event.WellFormed L) (fun _ => True)
    (fun _ _ _ hev => returns_handler hev) (fun _ _ _ _ _ _ => trivial) trivial hwf

/-- A round returns exactly if the code may take the batch for granted. -/
theorem returns_runBatch {L : Loads} {env : Env} {d : Daemon} {batch : List Event} (hd : Idle d)
    (hwf : ∀ ev ∈ batch, ev.WellFormed L) :
    Returns (runBatch L env batch d) ↔ BatchOk L env d batch := by
  have hevents := returns_events (d := d) hwf
  rw [runBatch, returns_bind]
  constructor
  · rintro ⟨d₁, hd₁, hcommit⟩
    obtain ⟨hloaded, hok⟩ := (returns_commit (events_distinct hd.distinct hd₁)).1 hcommit
    refine ⟨?_, hevents.1 ⟨d₁, hd₁⟩, ?_⟩
    · rcases (events_loaded hd₁).1 hloaded with h | h
      · rw [hd.loaded] at h
        cases h
      · exact h
    · intro d' hd'
      rw [hd₁] at hd'
      cases hd'
      exact hok
  · rintro ⟨hset, hok, hcommit⟩
    obtain ⟨d₁, hd₁⟩ := hevents.2 hok
    exact ⟨d₁, hd₁, (returns_commit (events_distinct hd.distinct hd₁)).2
      ⟨(events_loaded hd₁).2 (Or.inr hset), hcommit d₁ hd₁⟩⟩

/-- **One round.** -/
theorem survives_iff {L : Loads} {env : Env} {d : Daemon} {batch : List Event} (hd : Idle d)
    (hwf : ∀ ev ∈ batch, ev.WellFormed L) :
    Survives L env d batch ↔ BatchOk L env d batch := by
  rw [← returns_runBatch hd hwf]
  constructor
  · intro h
    exact h.returns
  · intro h
    refine ⟨h, fun hnone => ?_⟩
    -- a batch that returns has a `SET` of `vpp`
    obtain ⟨ev, hev, hvpp⟩ := ((returns_runBatch hd hwf).1 h).vppSet
    exact absurd hvpp (hnone ev hev)

/-- A round ends as it began. -/
theorem Idle.runBatch {L : Loads} {env : Env} {d d' : Daemon} {batch : List Event} (hd : Idle d)
    (h : runBatch L env batch d = .ok d') : Idle d' := by
  obtain ⟨d₁, hd₁, hcommit⟩ := runBatch_eq_ok.1 h
  have hdist := events_distinct hd.distinct hd₁
  obtain ⟨-, cfg, files, hcfg, rfl⟩ := commit_eq_ok.1 hcommit
  obtain ⟨b, hb⟩ : ∃ b, disableDpdk d₁.template = .ok b := by
    have hok := (returns_commitCfg hdist).1 ⟨_, hcfg⟩
    exact ⟨_, disableDpdk_eq_ok.2 ⟨hok.dpdk, rfl⟩⟩
  obtain ⟨-, -, -, hpost, -, -⟩ := (commitCfg_eq_ok ⟨b, hb, rfl⟩).1 hcfg
  exact ⟨vppEnvConfig_distinct hdist hpost, rfl⟩

/-- **The daemon survives** every round of a run exactly if every batch has a `SET` of `vpp` and
values of the shapes that the code takes for granted. -/
theorem daemon_survives_iff (L : Loads) (env : Env) {template : Fields}
    (htemplate : (Json.obj template).DistinctKeys) {batches : List (List Event)}
    (hwf : ∀ batch ∈ batches, ∀ ev ∈ batch, ev.WellFormed L) :
    Along (fun d batch => runBatch L env batch d) (Survives L env) (Daemon.start template) batches
      ↔ Along (fun d batch => runBatch L env batch d) (BatchOk L env) (Daemon.start template)
        batches := by
  refine along_iff_of_invariant (fun batch => ∀ ev ∈ batch, ev.WellFormed L) Idle ?_ ?_
    ⟨htemplate, rfl⟩ hwf
  · intro d batch hd hev
    exact survives_iff hd hev
  · intro d batch d' hd _ h
    exact hd.runBatch h

/-! ## A device that comes late -/

/-- The texts of the two updates below and the objects that they stand for. -/
def lateLoads : Loads where
  loads text :=
    if text = "\x7b\x7d" then some (.obj [])
    else if text = "\x7b\"dev\": \x7b\"0000:00:08.0\": \x7b\x7d\x7d\x7d" then
      some (.obj [("dev", .obj [("0000:00:08.0", .obj [])])])
    else none
  distinct := by
    intro text val h
    split at h
    · cases h
      simp [Json.DistinctKeys, DistinctFields]
    · split at h
      · cases h
        simp [Json.DistinctKeys, DistinctFields]
      · cases h

/-- A template with the plugin enabled and the defaults for the devices. -/
def lateTemplate : Fields :=
  [("plugins", .obj [("plugin", .obj [("dpdk_plugin.so", .str "enable")])]),
    ("dpdk", .obj [("dev", .obj [("default", .obj [])])])]

/-- An update of another section. -/
def unixUpdate : Event := .set "vpp" [("unix", "\x7b\x7d")]

/-- The update that names a device. -/
def deviceUpdate : Event :=
  .set "vpp" [("dpdk", "\x7b'dev': \x7b'0000:00:08.0': \x7b\x7d\x7d\x7d")]

/-- What the startup JSON says about a plugin. -/
def Files.plugin (name : String) (files : Files) : Option Json :=
  match files.startupJson with
  | .obj cfg => pluginOf cfg name
  | _ => none

theorem lateTemplate_distinct : (Json.obj lateTemplate).DistinctKeys := by
  simp [lateTemplate, Json.DistinctKeys, DistinctFields]

theorem lateUpdates_wellFormed : ∀ ev ∈ [unixUpdate, deviceUpdate], ev.WellFormed lateLoads := by
  simp only [List.mem_cons, List.not_mem_nil, or_false, forall_eq, forall_eq_or_imp]
  refine ⟨fun e he => ?_, fun e he => ?_⟩
  · obtain rfl := List.mem_singleton.1 he
    exact ⟨_, rfl⟩
  · obtain rfl := List.mem_singleton.1 he
    exact ⟨_, rfl⟩

/-- The two updates come in one batch, and the daemon survives. -/
theorem daemon_survives_late :
    Along (fun d batch => runBatch lateLoads ⟨false, false⟩ batch d)
        (Survives lateLoads ⟨false, false⟩) (Daemon.start lateTemplate)
        [[unixUpdate, deviceUpdate]] ∧
      Along (fun d batch => runBatch lateLoads ⟨false, false⟩ batch d)
        (BatchOk lateLoads ⟨false, false⟩) (Daemon.start lateTemplate)
        [[unixUpdate, deviceUpdate]] := by
  have hwf : ∀ batch ∈ [[unixUpdate, deviceUpdate]], ∀ ev ∈ batch, ev.WellFormed lateLoads := by
    intro batch hbatch ev hev
    obtain rfl := List.mem_singleton.1 hbatch
    exact lateUpdates_wellFormed ev hev
  have hsurvives : Along (fun d batch => runBatch lateLoads ⟨false, false⟩ batch d)
      (Survives lateLoads ⟨false, false⟩) (Daemon.start lateTemplate)
      [[unixUpdate, deviceUpdate]] := by
    refine ⟨⟨⟨_, rfl⟩, fun hnone => ?_⟩, fun _ _ => trivial⟩
    exact absurd ⟨_, rfl⟩ (hnone unixUpdate List.mem_cons_self)
  exact ⟨hsurvives,
    (daemon_survives_iff lateLoads ⟨false, false⟩ lateTemplate_distinct hwf).1 hsurvives⟩

/-- **A batch without a `SET` of `vpp`** ends the daemon: there is nothing to commit. -/
theorem del_raises :
    HasPluginSection lateTemplate ∧ Event.WellFormed lateLoads (.del "vpp") ∧
      runBatch lateLoads ⟨false, false⟩ [.del "vpp"] (Daemon.start lateTemplate)
        = .error .typeError ∧
      ¬ Survives lateLoads ⟨false, false⟩ (Daemon.start lateTemplate) [.del "vpp"] := by
  refine ⟨⟨_, _, rfl, rfl⟩, trivial, rfl, ?_⟩
  rintro ⟨⟨d', hd'⟩, -⟩
  cases hd'

/-! ## Two cuts of one sequence -/

/-- A run returns exactly if the code may take every batch for granted. -/
theorem returns_runBatches {L : Loads} {env : Env} {batches : List (List Event)} {d : Daemon}
    (hd : Idle d) (hwf : ∀ batch ∈ batches, ∀ ev ∈ batch, ev.WellFormed L) :
    Returns (runBatches L env batches d) ↔
      Along (fun d batch => runBatch L env batch d) (BatchOk L env) d batches := by
  rw [runBatches, returns_foldlM_iff]
  refine along_iff_of_invariant (fun batch => ∀ ev ∈ batch, ev.WellFormed L) Idle ?_ ?_ hd hwf
  · intro d batch hd hev
    exact returns_runBatch hd hev
  · intro d batch d' hd _ h
    exact hd.runBatch h

/-- Batches without an event in them are no batches. -/
theorem eq_nil_of_flatten {xs : List (List Event)} (hxs : [] ∉ xs) (h : xs.flatten = []) :
    xs = [] := by
  cases xs with
  | nil => rfl
  | cons x xs =>
    rw [List.flatten_cons, List.append_eq_nil_iff] at h
    exact absurd (h.1 ▸ List.mem_cons_self) hxs

/-- Two runs over the same events write the same, if their commits agree. -/
theorem runBatches_files_eq {L : Loads} {env : Env} {disabled : Bool} {template : Fields}
    (htemplate : (Json.obj template).DistinctKeys) {bs cs : List (List Event)}
    (hbs : [] ∉ bs) (hcs : [] ∉ cs) (hcut : bs.flatten = cs.flatten)
    (hmerge : Returns (bs.flatten.foldlM (handler L) (Daemon.start template)))
    (hagreeb : CommitsAgree L env disabled (Daemon.start template) bs)
    (hagreec : CommitsAgree L env disabled (Daemon.start template) cs) {d e : Daemon}
    (hb : runBatches L env bs (Daemon.start template) = .ok d)
    (hc : runBatches L env cs (Daemon.start template) = .ok e) : d.files = e.files := by
  by_cases hempty : bs.flatten = []
  · -- no event, no batch
    obtain rfl := eq_nil_of_flatten hbs hempty
    obtain rfl := eq_nil_of_flatten hcs hcut.symm
    cases hb
    cases hc
    rfl
  · obtain ⟨r', hr'⟩ := hmerge
    have hneb : bs ≠ [] := by
      rintro rfl
      exact hempty rfl
    have hnec : cs ≠ [] := by
      rintro rfl
      exact hempty hcut
    obtain ⟨a, a', fa, hda, hdeca, hsa, hca, hfa⟩ :=
      runBatches_last hneb htemplate hagreeb rfl hb hr'
    obtain ⟨b, b', fb, hdb, hdecb, hsb, hcb, hfb⟩ :=
      runBatches_last hnec htemplate hagreec rfl hc (hcut ▸ hr')
    rw [hfa, hfb, commitCfg_files_eq hda hdb hdeca hdecb (hsa.trans hsb.symm) hca hcb]

/-- **Batching.**  Two cuts of one sequence of events into non-empty batches, whose commits all
decide alike about DPDK and find the plugins that they disable, return and write the same files
exactly if the code may take every batch of both for granted. -/
theorem batches_write_same (L : Loads) (env : Env) (disabled : Bool) {template : Fields}
    (htemplate : (Json.obj template).DistinctKeys) {bs cs : List (List Event)}
    (hbs : [] ∉ bs) (hcs : [] ∉ cs) (hcut : bs.flatten = cs.flatten)
    (hwf : ∀ ev ∈ bs.flatten, ev.WellFormed L)
    (hshapes : Along (handler L) (EventOk L) (Daemon.start template) bs.flatten)
    (hagreeb : CommitsAgree L env disabled (Daemon.start template) bs)
    (hagreec : CommitsAgree L env disabled (Daemon.start template) cs) :
    (∃ d e, runBatches L env bs (Daemon.start template) = .ok d ∧
      runBatches L env cs (Daemon.start template) = .ok e ∧ d.files = e.files) ↔
    Along (fun d batch => runBatch L env batch d) (BatchOk L env) (Daemon.start template) bs ∧
      Along (fun d batch => runBatch L env batch d) (BatchOk L env) (Daemon.start template) cs := by
  have hidle : Idle (Daemon.start template) := ⟨htemplate, rfl⟩
  have hwfb : ∀ batch ∈ bs, ∀ ev ∈ batch, ev.WellFormed L := fun batch hbatch ev hev =>
    hwf ev (List.mem_flatten_of_mem hbatch hev)
  have hwfc : ∀ batch ∈ cs, ∀ ev ∈ batch, ev.WellFormed L := fun batch hbatch ev hev =>
    hwf ev (hcut ▸ List.mem_flatten_of_mem hbatch hev)
  rw [← returns_runBatches hidle hwfb, ← returns_runBatches hidle hwfc]
  constructor
  · rintro ⟨d, e, hd, he, -⟩
    exact ⟨⟨d, hd⟩, ⟨e, he⟩⟩
  · rintro ⟨⟨d, hd⟩, ⟨e, he⟩⟩
    have hmerge := (returns_events hwf).2 hshapes
    exact ⟨d, e, hd, he,
      runBatches_files_eq htemplate hbs hcs hcut hmerge hagreeb hagreec hd he⟩

/-- With `DPDK_DISABLE` set, the two updates may come together or one by one. -/
theorem batches_write_same_disabled :
    (∃ d e, runBatches lateLoads ⟨true, false⟩ [[unixUpdate, deviceUpdate]]
        (Daemon.start lateTemplate) = .ok d ∧
      runBatches lateLoads ⟨true, false⟩ [[unixUpdate], [deviceUpdate]]
        (Daemon.start lateTemplate) = .ok e ∧ d.files = e.files) ∧
    Along (fun d batch => runBatch lateLoads ⟨true, false⟩ batch d)
        (BatchOk lateLoads ⟨true, false⟩) (Daemon.start lateTemplate)
        [[unixUpdate], [deviceUpdate]] := by
  have hidle : Idle (Daemon.start lateTemplate) := ⟨lateTemplate_distinct, rfl⟩
  have htogether : [] ∉ [[unixUpdate, deviceUpdate]] := by simp
  have hapart : [] ∉ [[unixUpdate], [deviceUpdate]] := by simp
  have hok : Along (fun d batch => runBatch lateLoads ⟨true, false⟩ batch d)
        (BatchOk lateLoads ⟨true, false⟩) (Daemon.start lateTemplate)
        [[unixUpdate, deviceUpdate]] ∧
      Along (fun d batch => runBatch lateLoads ⟨true, false⟩ batch d)
        (BatchOk lateLoads ⟨true, false⟩) (Daemon.start lateTemplate)
        [[unixUpdate], [deviceUpdate]] := by
    refine ⟨(returns_runBatches hidle ?_).1 ⟨_, rfl⟩, (returns_runBatches hidle ?_).1 ⟨_, rfl⟩⟩
    · intro batch hbatch ev hev
      obtain rfl := List.mem_singleton.1 hbatch
      exact lateUpdates_wellFormed ev hev
    · intro batch hbatch ev hev
      apply lateUpdates_wellFormed
      exact List.mem_flatten_of_mem hbatch hev
  refine ⟨(batches_write_same lateLoads ⟨true, false⟩ true lateTemplate_distinct htogether hapart
    rfl lateUpdates_wellFormed ((returns_events lateUpdates_wellFormed).1 ⟨_, rfl⟩) ?_ ?_).2 hok,
    hok.2⟩
  · intro d' hd'
    cases hd'
    refine ⟨⟨false, rfl, rfl⟩, fun h => absurd rfl h, fun d'' _ => trivial⟩
  · intro d' hd'
    cases hd'
    refine ⟨⟨true, rfl, rfl⟩, fun _ name hname => ?_, fun d'' hd'' => ?_⟩
    · simp only [disabledPlugin, Bool.true_and, Bool.false_and, Bool.or_false,
        beq_iff_eq] at hname
      rw [hname]
      rfl
    · cases hd''
      intro d₁ hd₁
      cases hd₁
      exact ⟨⟨false, rfl, rfl⟩, fun h => absurd rfl h, fun d'' _ => trivial⟩

/-- **A commit too many.**  Taken together, the two updates keep DPDK.  With a commit between them
the plugin stays disabled, and the section `dpdk` has lost what the template had in it. -/
theorem early_commit_disables :
    [[unixUpdate, deviceUpdate]].flatten = [[unixUpdate], [deviceUpdate]].flatten ∧
    ∃ d e, runBatches lateLoads ⟨false, false⟩ [[unixUpdate, deviceUpdate]]
        (Daemon.start lateTemplate) = .ok d ∧
      runBatches lateLoads ⟨false, false⟩ [[unixUpdate], [deviceUpdate]]
        (Daemon.start lateTemplate) = .ok e ∧
      d.files.bind (Files.plugin "dpdk_plugin.so") = some (.str "enable") ∧
      e.files.bind (Files.plugin "dpdk_plugin.so") = some (.str "disable") ∧
      d.files ≠ e.files := by
  refine ⟨rfl, _, _, rfl, rfl, rfl, rfl, ?_⟩
  intro h
  have hplugin : some (Json.str "enable") = some (Json.str "disable") :=
    congrArg (fun files => files.bind (Files.plugin "dpdk_plugin.so")) h
  simp at hplugin

end VppCfg
