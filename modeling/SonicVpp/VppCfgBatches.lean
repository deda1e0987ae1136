/-
# The written configuration and the batches

An early commit writes into the template: it sets the entries of plugins to `disable`, and
drops the section `dpdk`.  `seen env cfg` is what is left of a configuration when all this is
disregarded.  Merging an update commutes with it (`deepUpdate_view`), a commit that has its
entries in place is not noticed (`vppEnvConfig_seen`), and what the last commit writes is a
function of it (`commitCfg_files_eq`).  So what a run writes in the end is what the updates make
without any commit between them, as far as it is seen (`runBatches_last`).
-/
import SonicVpp.VppCfg

namespace VppCfg

open PyDict

/-! ## Views that the merge respects -/

/-- What is shown of a key after the merge depends on what was shown of it before. -/
def Respects (h : Json → Json) : Prop :=
  ∀ val a b a' b', h a = h b → newVal val a = .ok a' → newVal val b = .ok b' → h a' = h b'

theorem respects_id : Respects fun val => val := by
  intro val a b a' b' hab ha hb
  rw [show a = b from hab, hb] at ha
  exact (Except.ok.inj ha).symm

theorem respects_const (c : Json) : Respects fun _ => c := fun _ _ _ _ _ _ _ _ => rfl

variable {drop : String → Bool} {g : String → Json → Json}

/-- One entry set in two dictionaries that show the same. -/
theorem view_setItem_congr (hg : ∀ key, drop key = false → Respects (g key)) {key : String}
    {val : Json} {x y : Fields} {vx vy : Json} (hxy : view drop g x = view drop g y)
    (hx : SetsTo key val x vx) (hy : SetsTo key val y vy) :
    view drop g (setItem key vx x) = view drop g (setItem key vy y) := by
  cases hkey : drop key with
  | true => rw [view_setItem_of_drop hkey, view_setItem_of_drop hkey, hxy]
  | false =>
    rw [view_setItem hkey, view_setItem hkey, hxy]
    congr 1
    -- the key is in both dictionaries, with values that show the same, or in none
    have hlook : (x.lookup key).map (g key) = (y.lookup key).map (g key) := by
      rw [← lookup_view hkey, hxy, lookup_view hkey]
    unfold SetsTo at hx hy
    cases hlx : x.lookup key with
    | none =>
      cases hly : y.lookup key with
      | none =>
        rw [hlx] at hx
        rw [hly] at hy
        rw [hx, hy]
      | some b =>
        rw [hlx, hly] at hlook
        cases hlook
    | some a =>
      cases hly : y.lookup key with
      | none =>
        rw [hlx, hly] at hlook
        cases hlook
      | some b =>
        rw [hlx] at hx
        rw [hly] at hy
        rw [hlx, hly] at hlook
        exact hg key hkey val a b vx vy (Option.some.inj hlook) hx hy

/-- **The merge and a view.**  Two dictionaries that show the same do so after an update. -/
theorem deepUpdate_view (hg : ∀ key, drop key = false → Respects (g key)) {input : Fields}
    {a b a' b' : Json} (hab : a.view drop g = b.view drop g)
    (ha : deepUpdate input a = .ok a') (hb : deepUpdate input b = .ok b') :
    a'.view drop g = b'.view drop g := by
  induction input generalizing a b with
  | nil =>
    rw [deepUpdate_nil] at ha hb
    cases ha
    cases hb
    exact hab
  | cons e input ih =>
    obtain ⟨x, vx, rfl, hx, hrestx⟩ := deepUpdate_cons.1 ha
    obtain ⟨y, vy, rfl, hy, hresty⟩ := deepUpdate_cons.1 hb
    apply ih _ hrestx hresty
    simp only [Json.view, Json.obj.injEq] at hab ⊢
    exact view_setItem_congr hg hab hx hy

theorem respects_view (hg : ∀ key, drop key = false → Respects (g key)) :
    Respects (Json.view drop g) := by
  intro val a b a' b' hab ha hb
  by_cases hval : ∃ input, val = .obj input
  · obtain ⟨input, rfl⟩ := hval
    rw [newVal_obj] at ha hb
    exact deepUpdate_view hg hab ha hb
  · rw [newVal_of_not_obj fun input h => hval ⟨input, h⟩] at ha hb
    cases ha
    cases hb
    rfl

/-! ## What a commit does not touch -/

/-- The plugins that a commit disables in this environment. -/
def disabledPlugin (env : Env) (name : String) : Bool :=
  (env.dpdkDisable && name == "dpdk_plugin.so") || (env.noLinuxNl && name == "linux_nl_plugin.so")

/-- What is seen of the section `plugins.plugin`. -/
def seenPlugin (env : Env) (name : String) (val : Json) : Json :=
  if disabledPlugin env name then .str "disable" else val

/-- What is seen of the section `plugins`. -/
def seenPlugins (env : Env) (key : String) (val : Json) : Json :=
  if key = "plugin" then val.view (fun _ => false) (seenPlugin env) else val

/-- What is seen of a section. -/
def seenSection (env : Env) (key : String) (val : Json) : Json :=
  if key = "plugins" then val.view (fun _ => false) (seenPlugins env) else val

/-- The section that a commit drops. -/
def droppedSection (env : Env) (key : String) : Bool := env.dpdkDisable && key == "dpdk"

/-- What is seen of a configuration. -/
def seen (env : Env) (cfg : Fields) : Fields := view (droppedSection env) (seenSection env) cfg

theorem seenPlugin_respects (env : Env) (name : String) : Respects (seenPlugin env name) := by
  unfold seenPlugin
  cases disabledPlugin env name with
  | true => exact respects_const _
  | false => exact respects_id

theorem seenPlugins_respects (env : Env) (key : String) : Respects (seenPlugins env key) := by
  unfold seenPlugins
  by_cases hkey : key = "plugin"
  · simp only [hkey, if_true]
    exact respects_view fun name _ => seenPlugin_respects env name
  · simp only [hkey, if_false]
    exact respects_id

theorem seenSection_respects (env : Env) (key : String) : Respects (seenSection env key) := by
  unfold seenSection
  by_cases hkey : key = "plugins"
  · simp only [hkey, if_true]
    exact respects_view fun key _ => seenPlugins_respects env key
  · simp only [hkey, if_false]
    exact respects_id

/-- A handler, called with one event in two states that are seen alike. -/
theorem handler_seen (env : Env) {L : Loads} {ev : Event} {d r d' r' : Daemon}
    (hdr : seen env d.template = seen env r.template) (hd : handler L d ev = .ok d')
    (hr : handler L r ev = .ok r') : seen env d'.template = seen env r'.template := by
  by_cases hev : ev.IsVppSet
  · obtain ⟨fvs, rfl⟩ := hev
    rw [handler_of_vppSet, handleConfigData_eq_ok] at hd hr
    obtain ⟨cfg, fields, hparse, hmerge, rfl⟩ := hd
    obtain ⟨cfg', fields', hparse', hmerge', rfl⟩ := hr
    rw [hparse] at hparse'
    cases hparse'
    have hview : (Json.obj d.template).view (droppedSection env) (seenSection env)
        = (Json.obj r.template).view (droppedSection env) (seenSection env) := congrArg Json.obj hdr
    exact Json.obj.inj
      (deepUpdate_view (fun key _ => seenSection_respects env key) hview hmerge hmerge')
  · rw [handler_of_not_vppSet hev] at hd hr
    cases hd
    cases hr
    exact hdr

theorem seenPlugin_disable (env : Env) (name : String) :
    seenPlugin env name (.str "disable") = .str "disable" := by
  unfold seenPlugin
  split <;> rfl

/-- Disabling a plugin is seen as that. -/
theorem disablePlugin_seen (env : Env) {name : String} {cfg cfg' : Fields}
    (h : disablePlugin name cfg = .ok cfg') :
    disablePlugin name (seen env cfg) = .ok (seen env cfg') := by
  obtain ⟨plugins, plugin, hplugins, hplugin, rfl⟩ := disablePlugin_eq_ok.1 h
  have hkeep : droppedSection env "plugins" = false := by simp [droppedSection]
  refine disablePlugin_eq_ok.2 ⟨view (fun _ => false) (seenPlugins env) plugins,
    view (fun _ => false) (seenPlugin env) plugin, ?_, ?_, ?_⟩
  · rw [seen, lookup_view hkeep, hplugins]
    rfl
  · rw [lookup_view rfl, hplugin]
    rfl
  · rw [seen, view_setItem hkeep]
    congr 1
    show Json.obj (view _ (seenPlugins env) (setItem "plugin" _ plugins)) = _
    rw [view_setItem rfl]
    show Json.obj (setItem "plugin" (Json.obj (view _ (seenPlugin env) (setItem name _ plugin))) _)
      = _
    rw [view_setItem rfl, seenPlugin_disable]

/-- A plugin that is in the configuration is disabled without being noticed. -/
theorem disablePlugin_not_seen {env : Env} {name : String} {cfg cfg' : Fields} {old : Json}
    (hname : disabledPlugin env name = true) (hold : pluginOf cfg name = some old)
    (h : disablePlugin name cfg = .ok cfg') : seen env cfg' = seen env cfg := by
  obtain ⟨plugins, plugin, hplugins, hplugin, rfl⟩ := disablePlugin_eq_ok.1 h
  simp only [pluginOf, hplugins, hplugin] at hold
  refine view_setItem_of_eq hplugins (congrArg Json.obj ?_)
  refine view_setItem_of_eq hplugin (congrArg Json.obj ?_)
  apply view_setItem_of_eq hold
  simp only [seenPlugin, hname, if_true]

theorem seen_pop_dpdk {env : Env} (henv : env.dpdkDisable = true) (cfg : Fields) :
    seen env (pop "dpdk" cfg) = seen env cfg := by
  apply view_pop
  simp [droppedSection, henv]

/-- The section is not there to be taken out. -/
theorem pop_dpdk_seen {env : Env} (henv : env.dpdkDisable = true) (cfg : Fields) :
    pop "dpdk" (seen env cfg) = seen env cfg := by
  apply pop_of_lookup_none
  rw [List.lookup_eq_none_iff]
  intro e he
  obtain ⟨x, hx, rfl⟩ := List.mem_map.1 he
  have hdrop : droppedSection env x.1 = false := by simpa using List.of_mem_filter hx
  simp only [droppedSection, henv, Bool.true_and, beq_eq_false_iff_ne] at hdrop
  simpa using hdrop.symm

/-- The post-processing is seen as that. -/
theorem vppEnvConfig_seen {env : Env} {cfg cfg' : Fields} (h : vppEnvConfig env cfg = .ok cfg') :
    vppEnvConfig env (seen env cfg) = .ok (seen env cfg') := by
  obtain ⟨c, hc, hcfg'⟩ := vppEnvConfig_eq_ok.1 h
  refine vppEnvConfig_eq_ok.2 ⟨seen env c, ?_, ?_⟩
  · cases henv : env.dpdkDisable with
    | true =>
      rw [henv, if_pos rfl] at hc
      obtain ⟨c', hc', rfl⟩ := disableDpdkCfg_eq_ok.1 hc
      rw [if_pos rfl, disableDpdkCfg_eq_ok]
      refine ⟨seen env c', disablePlugin_seen env hc', ?_⟩
      rw [seen_pop_dpdk henv, pop_dpdk_seen henv]
    | false =>
      rw [henv] at hc
      cases hc
      rfl
  · cases hnl : env.noLinuxNl with
    | true =>
      rw [hnl, if_pos rfl] at hcfg'
      exact disablePlugin_seen env hcfg'
    | false =>
      rw [hnl] at hcfg'
      cases hcfg'
      rfl

/-- The plugins that a commit is to disable are in the configuration. -/
def HasPlugins (env : Env) (cfg : Fields) : Prop :=
  ∀ name, disabledPlugin env name = true → (pluginOf cfg name).isSome

/-- The post-processing of a configuration that has the plugins is not noticed. -/
theorem vppEnvConfig_not_seen {env : Env} {cfg cfg' : Fields} (hhas : HasPlugins env cfg)
    (h : vppEnvConfig env cfg = .ok cfg') : seen env cfg' = seen env cfg := by
  obtain ⟨c, hc, hcfg'⟩ := vppEnvConfig_eq_ok.1 h
  have hfirst : seen env c = seen env cfg ∧ HasPlugins env c := by
    split at hc
    · rename_i henv
      obtain ⟨c', hc', rfl⟩ := disableDpdkCfg_eq_ok.1 hc
      have hname : disabledPlugin env "dpdk_plugin.so" = true := by simp [disabledPlugin, henv]
      obtain ⟨old, hold⟩ := Option.isSome_iff_exists.1 (hhas _ hname)
      refine ⟨by rw [seen_pop_dpdk henv, disablePlugin_not_seen hname hold hc'], ?_⟩
      intro name hdis
      rw [pluginOf_pop_dpdk, disablePlugin_pluginOf hc']
      split
      · rfl
      · exact hhas name hdis
    · cases hc
      exact ⟨rfl, hhas⟩
  rw [← hfirst.1]
  split at hcfg'
  · rename_i hnl
    have hname : disabledPlugin env "linux_nl_plugin.so" = true := by simp [disabledPlugin, hnl]
    obtain ⟨old, hold⟩ := Option.isSome_iff_exists.1 (hfirst.2 _ hname)
    exact disablePlugin_not_seen hname hold hcfg'
  · cases hcfg'
    rfl

/-- A configuration with the plugins disabled and the section dropped shows all that it has. -/
theorem seen_eq_self {env : Env} {cfg : Fields} (hd : (Json.obj cfg).DistinctKeys)
    (hdpdk : env.dpdkDisable = true → cfg.lookup "dpdk" = none)
    (hplugin : ∀ name val, disabledPlugin env name = true → pluginOf cfg name = some val →
      val = .str "disable") : seen env cfg = cfg := by
  apply view_eq_self hd.1
  intro key val hval
  constructor
  · simp only [droppedSection, Bool.and_eq_false_iff, beq_eq_false_iff_ne]
    by_cases hkey : key = "dpdk"
    · subst hkey
      left
      by_contra henv
      rw [hdpdk (by simpa using henv)] at hval
      cases hval
    · exact Or.inr hkey
  · unfold seenSection
    split
    · rename_i hkey
      subst hkey
      cases val with
      | obj plugins =>
        have hdplugins : (Json.obj plugins).DistinctKeys := hd.2.lookup hval
        -- one level down, to the object `plugin`, and another to the plugins
        refine congrArg Json.obj (view_eq_self hdplugins.1 fun key' val' hval' => ⟨rfl, ?_⟩)
        unfold seenPlugins
        split
        · rename_i hkey'
          subst hkey'
          cases val' with
          | obj plugin =>
            have hdplugin : (Json.obj plugin).DistinctKeys := hdplugins.2.lookup hval'
            refine congrArg Json.obj (view_eq_self hdplugin.1 fun name v hv => ⟨rfl, ?_⟩)
            unfold seenPlugin
            split
            · rename_i hname
              exact (hplugin name v hname (by simp only [pluginOf, hval, hval', hv])).symm
            · rfl
          | null | bool | num | str | arr => rfl
        · rfl
      | null | bool | num | str | arr => rfl
    · rfl

/-- So does what a commit leaves. -/
theorem vppEnvConfig_seen_self {env : Env} {cfg cfg' : Fields}
    (hd : (Json.obj cfg).DistinctKeys) (h : vppEnvConfig env cfg = .ok cfg') :
    seen env cfg' = cfg' := by
  have hd' := vppEnvConfig_distinct hd h
  obtain ⟨c, hc, hcfg'⟩ := vppEnvConfig_eq_ok.1 h
  have hdpdk : env.dpdkDisable = true →
      c.lookup "dpdk" = none ∧ pluginOf c "dpdk_plugin.so" = some (.str "disable") := by
    intro henv
    rw [henv, if_pos rfl] at hc
    obtain ⟨c', hc', rfl⟩ := disableDpdkCfg_eq_ok.1 hc
    refine ⟨lookup_pop_self .., ?_⟩
    rw [pluginOf_pop_dpdk, disablePlugin_pluginOf hc', if_pos rfl]
  -- the second step disables the other plugin, or nothing, and leaves the rest
  have hnl : cfg'.lookup "dpdk" = c.lookup "dpdk" ∧ ∀ name, pluginOf cfg' name
      = if env.noLinuxNl = true ∧ name = "linux_nl_plugin.so" then some (.str "disable")
        else pluginOf c name := by
    split at hcfg'
    · rename_i henv
      refine ⟨disablePlugin_lookup hcfg' (by decide), ?_⟩
      intro name
      rw [disablePlugin_pluginOf hcfg', henv]
      simp only [true_and]
    · rename_i henv
      cases hcfg'
      exact ⟨rfl, fun name => (if_neg fun h => henv h.1).symm⟩
  apply seen_eq_self hd'
  · intro henv
    rw [hnl.1]
    exact (hdpdk henv).1
  · intro name val hname hval
    rw [hnl.2] at hval
    split at hval
    · exact (Option.some.inj hval).symm
    · rename_i hne
      simp only [disabledPlugin, Bool.or_eq_true, Bool.and_eq_true, beq_iff_eq] at hname
      obtain ⟨henv, rfl⟩ | hother := hname
      · rw [(hdpdk henv).2] at hval
        exact (Option.some.inj hval).symm
      · exact absurd hother hne

/-- **The last commit.**  Two configurations that are seen alike, with the same decision about
DPDK, are written alike. -/
theorem commitCfg_files_eq {env : Env} {disabled : Bool} {a b a' b' : Fields} {fa fb : Files}
    (hda : (Json.obj a).DistinctKeys) (hdb : (Json.obj b).DistinctKeys)
    (hdeca : Decides env a disabled) (hdecb : Decides env b disabled)
    (hab : seen { env with dpdkDisable := disabled } a = seen { env with dpdkDisable := disabled } b)
    (ha : commitCfg env a = .ok (a', fa)) (hb : commitCfg env b = .ok (b', fb)) : fa = fb := by
  obtain ⟨va, ca, hva, hpa, hca, rfl⟩ := (commitCfg_eq_ok hdeca).1 ha
  obtain ⟨vb, cb, hvb, hpb, hcb, rfl⟩ := (commitCfg_eq_ok hdecb).1 hb
  have hcfg : a' = b' := by
    have hsa := vppEnvConfig_seen hpa
    have hsb := vppEnvConfig_seen hpb
    rw [hab, hsb, vppEnvConfig_seen_self hda hpa, vppEnvConfig_seen_self hdb hpb] at hsa
    exact (Except.ok.inj hsa).symm
  have hvports : va = vb := by
    have hkeep : droppedSection { env with dpdkDisable := disabled } "vports" = false := by
      simp [droppedSection]
    have hlook : ∀ c : Fields,
        (seen { env with dpdkDisable := disabled } c).lookup "vports" = c.lookup "vports" := by
      intro c
      rw [seen, lookup_view hkeep]
      cases c.lookup "vports" <;> rfl
    rw [vppVportsConfig, ← hlook a, hab, hlook b, ← vppVportsConfig, hvb] at hva
    exact (Except.ok.inj hva).symm
  subst hcfg hvports
  rw [hca] at hcb
  cases hcb
  rfl

/-! ## Runs -/

/-- The rounds of a run, one batch each. -/
def runBatches (L : Loads) (env : Env) (batches : List (List Event)) (d : Daemon) :
    Except PyError Daemon :=
  batches.foldlM (fun d batch => runBatch L env batch d) d

/-- Every commit of the run decides about DPDK as `disabled` says, and at every commit before the
last one the plugins that it disables are in the configuration. -/
def CommitsAgree (L : Loads) (env : Env) (disabled : Bool) : Daemon → List (List Event) → Prop
  | _, [] => True
  | d, batch :: batches => ∀ d', batch.foldlM (handler L) d = .ok d' →
      Decides env d'.template disabled ∧
      (batches ≠ [] → HasPlugins { env with dpdkDisable := disabled } d'.template) ∧
      ∀ d'', commit env d' = .ok d'' → CommitsAgree L env disabled d'' batches

theorem commit_eq_ok {env : Env} {d d' : Daemon} :
    commit env d = .ok d' ↔ d.loaded = true ∧ ∃ cfg files,
      commitCfg env d.template = .ok (cfg, files) ∧
      d' = { template := cfg, loaded := false, files := some files } := by
  unfold commit
  cases d.loaded with
  | true =>
    rw [if_pos rfl, bind_eq_ok]
    constructor
    · rintro ⟨⟨cfg, files⟩, hc, hd⟩
      exact ⟨rfl, cfg, files, hc, (Except.ok.inj hd).symm⟩
    · rintro ⟨-, cfg, files, hc, rfl⟩
      exact ⟨(cfg, files), hc, rfl⟩
  | false => simp

theorem runBatch_eq_ok {L : Loads} {env : Env} {batch : List Event} {d d' : Daemon} :
    runBatch L env batch d = .ok d' ↔
      ∃ d₁, batch.foldlM (handler L) d = .ok d₁ ∧ commit env d₁ = .ok d' := by
  rw [runBatch, bind_eq_ok]

/-- The events of a batch in two states that are seen alike. -/
theorem events_seen (env : Env) {L : Loads} {batch : List Event} {d r d' r' : Daemon}
    (hdr : seen env d.template = seen env r.template)
    (hd : batch.foldlM (handler L) d = .ok d') (hr : batch.foldlM (handler L) r = .ok r') :
    seen env d'.template = seen env r'.template := by
  induction batch generalizing d r with
  | nil =>
    cases hd
    cases hr
    exact hdr
  | cons ev batch ih =>
    rw [List.foldlM_cons, bind_eq_ok] at hd hr
    obtain ⟨d₁, hd₁, hd⟩ := hd
    obtain ⟨r₁, hr₁, hr⟩ := hr
    exact ih (handler_seen env hdr hd₁ hr₁) hd hr

theorem events_distinct {L : Loads} {batch : List Event} {d d' : Daemon}
    (hd : (Json.obj d.template).DistinctKeys) (h : batch.foldlM (handler L) d = .ok d') :
    (Json.obj d'.template).DistinctKeys := by
  induction batch generalizing d with
  | nil =>
    cases h
    exact hd
  | cons ev batch ih =>
    rw [List.foldlM_cons, bind_eq_ok] at h
    obtain ⟨d₁, hd₁, h⟩ := h
    exact ih (handler_distinct hd hd₁) h

/-- **A run.**  The configuration that its last commit is given is seen as the one that the
events make without any commit between them. -/
theorem runBatches_last {L : Loads} {env : Env} {disabled : Bool} {batches : List (List Event)}
    (hne : batches ≠ []) {d d' r r' : Daemon} (hd : (Json.obj d.template).DistinctKeys)
    (hagree : CommitsAgree L env disabled d batches)
    (hdr : seen { env with dpdkDisable := disabled } d.template
      = seen { env with dpdkDisable := disabled } r.template)
    (hrun : runBatches L env batches d = .ok d')
    (hr : batches.flatten.foldlM (handler L) r = .ok r') :
    ∃ a a' files, (Json.obj a).DistinctKeys ∧ Decides env a disabled ∧
      seen { env with dpdkDisable := disabled } a
        = seen { env with dpdkDisable := disabled } r'.template ∧
      commitCfg env a = .ok (a', files) ∧ d'.files = some files := by
  induction batches generalizing d r with
  | nil => exact absurd rfl hne
  | cons batch batches ih =>
    rw [runBatches, List.foldlM_cons, bind_eq_ok] at hrun
    -- the first round beside the same events without a commit
    obtain ⟨d₂, hround, hrun⟩ := hrun
    obtain ⟨d₁, hevents, hcommit⟩ := runBatch_eq_ok.1 hround
    obtain ⟨hdec, hhas, hnext⟩ := hagree d₁ hevents
    obtain ⟨-, cfg, files, hcfg, rfl⟩ := commit_eq_ok.1 hcommit
    rw [List.flatten_cons, List.foldlM_append, bind_eq_ok] at hr
    obtain ⟨r₁, hr₁, hr⟩ := hr
    have hd₁ := events_distinct hd hevents
    have hseen := events_seen _ hdr hevents hr₁
    by_cases hlast : batches = []
    · subst hlast
      cases hrun
      cases hr
      exact ⟨d₁.template, cfg, files, hd₁, hdec, hseen, hcfg, rfl⟩
    · -- a commit in between leaves what is seen as it was
      obtain ⟨-, -, -, hpost, -, -⟩ := (commitCfg_eq_ok hdec).1 hcfg
      refine ih hlast (vppEnvConfig_distinct hd₁ hpost) (hnext _ hcommit) ?_ hrun hr
      rw [vppEnvConfig_not_seen (hhas hlast) hpost]
      exact hseen

end VppCfg
