/-
# What `gen_vpp_conf` writes

Three printers share one string: `gen_vpp_conf` for sections, `gen_dpdk_dev_cfg` below a key
`dev`, at any depth, and `gen_plugins_cfg` below `plugin`.  Each writes the items of
`startup.conf` one by one, so what is written is the text of a list of items (`confItems`).

`parseConf_genVppConf` says that these items are read back.  It does not say that they are
the configuration.
-/
import SonicVpp.VppCfg
import SonicVpp.StartupConf

open PyDict TextLines StartupConf

namespace VppCfg

/-! ## Configurations -/

mutual

/-- A value that can stand at a key: a string without blanks and braces, or an object.  At
`dev` and `plugin` there are objects that are not empty: of objects and empty strings, and
of strings. -/
def ConfValue (key : String) : Json → Prop
  | .str s => (s ≠ "" → IsToken s) ∧ key ≠ "dev" ∧ key ≠ "plugin"
  | .obj fields => ConfTree fields ∧
      (key = "dev" → fields ≠ [] ∧ ∀ e ∈ fields, e.2 = .str "" ∨ ∃ f, e.2 = .obj f) ∧
      (key = "plugin" → fields ≠ [] ∧ ∀ e ∈ fields, ∃ s, s ≠ "" ∧ e.2 = .str s)
  | _ => False

/-- An object with keys without blanks and braces. -/
def ConfTree : Fields → Prop
  | [] => True
  | (key, val) :: fields => IsToken key ∧ ConfValue key val ∧ ConfTree fields

end

theorem confTree_iff (fields : Fields) :
    ConfTree fields ↔ ∀ e ∈ fields, IsToken e.1 ∧ ConfValue e.1 e.2 := by
  induction fields with
  | nil => simp [ConfTree]
  | cons e fields ih => rw [ConfTree, ih, List.forall_mem_cons, and_assoc]

/-! ## Items -/

mutual

/-- The items of `gen_dpdk_dev_cfg`. -/
def devItems : Fields → List Item
  | [] => []
  | (key, val) :: fields => devItem key val ++ devItems fields

/-- Those of an entry. -/
def devItem (key : String) : Json → List Item
  | .obj fields => [.dev key (devItems fields)]
  | .str s => [.leaf key s]
  | _ => []

end

/-- The items of `gen_plugins_cfg`. -/
def pluginItems : Fields → List Item
  | [] => []
  | (key, .str s) :: fields => .plugin key s :: pluginItems fields
  | _ :: fields => pluginItems fields

mutual

/-- The items of `gen_vpp_conf`. -/
def confItems : Fields → List Item
  | [] => []
  | (key, val) :: fields => confItem key val ++ confItems fields

/-- Those of an entry. -/
def confItem (key : String) : Json → List Item
  | .obj fields =>
    if key = "vports" then []
    else if key = "dev" then devItems fields
    else if key = "plugin" then pluginItems fields
    else [.block key (confItems fields)]
  | .str s => [.leaf key s]
  | _ => []

end

/-! ## The text -/

/-- The text of items. -/
def itemsText (indoff : String) (items : List Item) : String :=
  textOf (itemsLines INDENT indoff items)

theorem itemsLines_append (step indent : String) (items items' : List Item) :
    itemsLines step indent (items ++ items')
      = itemsLines step indent items ++ itemsLines step indent items' := by
  induction items with
  | nil => rw [itemsLines]; rfl
  | cons i items ih => rw [List.cons_append, itemsLines, itemsLines, ih, List.append_assoc]

theorem itemsText_append (indoff : String) (items items' : List Item) :
    itemsText indoff (items ++ items') = itemsText indoff items ++ itemsText indoff items' := by
  unfold itemsText
  rw [itemsLines_append, textOf_append]

theorem itemsText_nil (indoff : String) : itemsText indoff [] = "" := by
  unfold itemsText
  rw [itemsLines]
  rfl

theorem itemsText_cons (indoff : String) (i : Item) (items : List Item) :
    itemsText indoff (i :: items) = itemsText indoff [i] ++ itemsText indoff items :=
  itemsText_append indoff [i] items

/-- The line of a string. -/
theorem genLeaf_str (indoff key s conf : String) :
    genLeaf indoff key (.str s) conf = .ok (conf ++ itemsText indoff [.leaf key s]) := by
  unfold genLeaf itemsText
  rw [itemsLines, itemsLines, Item.lines, List.append_nil]
  by_cases hs : s = ""
  · have hfalsy : (Json.str s).truthy = false := by simp [Json.truthy, hs]
    rw [hfalsy, if_neg Bool.false_ne_true, if_pos hs]
    simp [textOf, Line.text, unwords, String.append_assoc]
  · have htruthy : (Json.str s).truthy = true := by simp [Json.truthy, hs]
    rw [htruthy, if_pos rfl, if_neg hs]
    simp [textOf, Line.text, unwords, String.append_assoc, pyStr, bind, Except.bind]

/-- The lines of a block, and of a device. -/
theorem itemsText_block (indoff key : String) (items : List Item) :
    itemsText indoff [.block key items] = indoff ++ key ++ " " ++ "\x7b" ++ "\n"
      ++ itemsText (indoff ++ INDENT) items ++ (indoff ++ "\x7d" ++ "\n") := by
  unfold itemsText
  rw [itemsLines, itemsLines, Item.lines, List.append_nil, textOf_append, textOf]
  simp [textOf, Line.text, unwords, String.append_assoc]

theorem itemsText_dev (indoff name : String) (items : List Item) :
    itemsText indoff [.dev name items] = indoff ++ "dev " ++ name ++ " " ++ "\x7b" ++ "\n"
      ++ itemsText (indoff ++ INDENT) items ++ (indoff ++ "\x7d" ++ "\n") := by
  have hdev : "dev " = "dev" ++ " " := by decide
  unfold itemsText
  rw [itemsLines, itemsLines, Item.lines, List.append_nil, textOf_append, textOf, hdev]
  simp [textOf, Line.text, unwords, String.append_assoc]

theorem itemsText_plugin (indoff name val : String) :
    itemsText indoff [.plugin name val]
      = indoff ++ "plugin " ++ name ++ " " ++ "\x7b " ++ val ++ " \x7d" ++ "\n" := by
  have hplugin : "plugin " = "plugin" ++ " " := by decide
  have hopen : "\x7b " = "\x7b" ++ " " := by decide
  have hclose : " \x7d" = " " ++ "\x7d" := by decide
  unfold itemsText
  rw [itemsLines, itemsLines, Item.lines, List.append_nil, hplugin, hopen, hclose]
  simp only [textOf, Line.text, unwords, String.append_assoc, String.append_empty]

/-! ## The printers -/

/-- Statement by statement. -/
theorem ok_bind {α β : Type} (a : α) (k : α → Except PyError β) : (Except.ok a >>= k) = k a := rfl

mutual

/-- `gen_dpdk_dev_cfg` writes the items of the devices. -/
theorem genDpdkDevCfg_eq : ∀ (cfg : Fields) (indoff conf : String), ConfTree cfg →
    genDpdkDevCfg cfg indoff conf = .ok (conf ++ itemsText indoff (devItems cfg))
  | [], indoff, conf, _ => by
    rw [genDpdkDevCfg, devItems, itemsText_nil, String.append_empty]
  | (key, val) :: cfg, indoff, conf, h => by
    rw [ConfTree] at h
    rw [genDpdkDevCfg, genDpdkDevItem_eq key val indoff conf h.2.1, ok_bind,
      genDpdkDevCfg_eq cfg indoff _ h.2.2, devItems, itemsText_append, String.append_assoc]

theorem genDpdkDevItem_eq : ∀ (key : String) (val : Json) (indoff conf : String),
    ConfValue key val →
    genDpdkDevItem key val indoff conf = .ok (conf ++ itemsText indoff (devItem key val))
  | key, .obj cfg, indoff, conf, h => by
    rw [ConfValue] at h
    rw [genDpdkDevItem, genDpdkDevCfg_eq cfg _ _ h.1, ok_bind, devItem, itemsText_dev]
    simp only [String.append_assoc]
  | key, .str s, indoff, conf, _ => by
    rw [genDpdkDevItem, genLeaf_str, devItem]
    simp
  | _, .null, _, _, h => absurd h (by simp [ConfValue])
  | _, .bool _, _, _, h => absurd h (by simp [ConfValue])
  | _, .num _ _, _, _, h => absurd h (by simp [ConfValue])
  | _, .arr _, _, _, h => absurd h (by simp [ConfValue])

end

/-- `gen_plugins_cfg` writes those of the plugins. -/
theorem genPluginsCfg_eq (cfg : Fields) (indoff conf : String)
    (h : ∀ e ∈ cfg, ∃ s, s ≠ "" ∧ e.2 = .str s) :
    genPluginsCfg cfg indoff conf = .ok (conf ++ itemsText indoff (pluginItems cfg)) := by
  induction cfg generalizing conf with
  | nil => rw [genPluginsCfg, pluginItems, itemsText_nil, String.append_empty]
  | cons e cfg ih =>
    obtain ⟨key, val⟩ := e
    obtain ⟨⟨s, -, rfl⟩, hcfg⟩ := List.forall_mem_cons.1 h
    rw [genPluginsCfg, pyStr, ok_bind, ih _ hcfg, pluginItems, itemsText_cons, itemsText_plugin]
    simp only [String.append_assoc]

mutual

/-- `gen_vpp_conf` writes the items of a section. -/
theorem genVppConf_eq : ∀ (cfg : Fields) (indoff conf : String), ConfTree cfg →
    genVppConf cfg indoff conf = .ok (conf ++ itemsText indoff (confItems cfg))
  | [], indoff, conf, _ => by
    rw [genVppConf, confItems, itemsText_nil, String.append_empty]
  | (key, val) :: cfg, indoff, conf, h => by
    rw [ConfTree] at h
    rw [genVppConf, genVppItem_eq key val indoff conf h.2.1, ok_bind,
      genVppConf_eq cfg indoff _ h.2.2, confItems, itemsText_append, String.append_assoc]

theorem genVppItem_eq : ∀ (key : String) (val : Json) (indoff conf : String),
    ConfValue key val →
    genVppItem key val indoff conf = .ok (conf ++ itemsText indoff (confItem key val))
  | key, .obj cfg, indoff, conf, h => by
    rw [ConfValue] at h
    obtain ⟨hcfg, -, hplugin⟩ := h
    -- three keys are special, in the order in which the code asks for them
    rw [genVppItem, confItem]
    split_ifs with hv hd hp
    · rw [itemsText_nil, String.append_empty]
    · exact genDpdkDevCfg_eq cfg indoff conf hcfg
    · exact genPluginsCfg_eq cfg indoff conf (hplugin hp).2
    · rw [genVppConf_eq cfg _ _ hcfg, ok_bind, itemsText_block]
      simp only [String.append_assoc]
  | key, .str s, indoff, conf, _ => by
    rw [genVppItem, genLeaf_str, confItem]
    simp
  | _, .null, _, _, h => absurd h (by simp [ConfValue])
  | _, .bool _, _, _, h => absurd h (by simp [ConfValue])
  | _, .num _ _, _, _, h => absurd h (by simp [ConfValue])
  | _, .arr _, _, _, h => absurd h (by simp [ConfValue])

end

/-! ## Reading it back -/

theorem itemsWritable_append {items items' : List Item} (h : ItemsWritable items)
    (h' : ItemsWritable items') : ItemsWritable (items ++ items') := by
  induction items with
  | nil => exact h'
  | cons i items ih =>
    rw [ItemsWritable] at h
    exact ⟨h.1, ih h.2⟩

/-- A string with its key. -/
theorem writable_leaf {key s : String} (hkey : IsToken key) (h : ConfValue key (.str s)) :
    ItemsWritable [.leaf key s] := by
  rw [ConfValue] at h
  refine ⟨⟨hkey, ?_⟩, trivial⟩
  intro hs
  exact ⟨h.1 hs, h.2.1⟩

mutual

theorem devItems_writable : ∀ {cfg : Fields}, ConfTree cfg → ItemsWritable (devItems cfg)
  | [], _ => trivial
  | (_, _) :: _, h => by
    rw [ConfTree] at h
    rw [devItems]
    exact itemsWritable_append (devItem_writable h.1 h.2.1) (devItems_writable h.2.2)

theorem devItem_writable : ∀ {key : String} {val : Json}, IsToken key → ConfValue key val →
    ItemsWritable (devItem key val)
  | _, .obj _, hkey, h => by
    rw [ConfValue] at h
    rw [devItem]
    exact ⟨⟨hkey, devItems_writable h.1⟩, trivial⟩
  | _, .str _, hkey, h => by
    rw [devItem]
    exact writable_leaf hkey h
  | _, .null, _, h => absurd h (by simp [ConfValue])
  | _, .bool _, _, h => absurd h (by simp [ConfValue])
  | _, .num _ _, _, h => absurd h (by simp [ConfValue])
  | _, .arr _, _, h => absurd h (by simp [ConfValue])

end

theorem pluginItems_writable {cfg : Fields} (hcfg : ConfTree cfg)
    (h : ∀ e ∈ cfg, ∃ s, s ≠ "" ∧ e.2 = .str s) : ItemsWritable (pluginItems cfg) := by
  induction cfg with
  | nil => trivial
  | cons e cfg ih =>
    obtain ⟨key, val⟩ := e
    obtain ⟨⟨s, hs, rfl⟩, hrest⟩ := List.forall_mem_cons.1 h
    rw [ConfTree, ConfValue] at hcfg
    obtain ⟨hkey, hval, hcfg⟩ := hcfg
    rw [pluginItems]
    exact ⟨⟨hkey, hval.1 hs⟩, ih hcfg hrest⟩

mutual

theorem confItems_writable : ∀ {cfg : Fields}, ConfTree cfg → ItemsWritable (confItems cfg)
  | [], _ => trivial
  | (_, _) :: _, h => by
    rw [ConfTree] at h
    rw [confItems]
    exact itemsWritable_append (confItem_writable h.1 h.2.1) (confItems_writable h.2.2)

theorem confItem_writable : ∀ {key : String} {val : Json}, IsToken key → ConfValue key val →
    ItemsWritable (confItem key val)
  | key, .obj cfg, hkey, h => by
    rw [ConfValue] at h
    obtain ⟨hcfg, -, hplugin⟩ := h
    rw [confItem]
    split_ifs with hv hd hp
    · trivial
    · exact devItems_writable hcfg
    · exact pluginItems_writable hcfg (hplugin hp).2
    · exact ⟨⟨hkey, confItems_writable hcfg⟩, trivial⟩
  | _, .str _, hkey, h => by
    rw [confItem]
    exact writable_leaf hkey h
  | _, .null, _, h => absurd h (by simp [ConfValue])
  | _, .bool _, _, h => absurd h (by simp [ConfValue])
  | _, .num _ _, _, h => absurd h (by simp [ConfValue])
  | _, .arr _, _, h => absurd h (by simp [ConfValue])

end

/-- **The items are read back from the startup conf.** -/
theorem parseConf_genVppConf {cfg : Fields} (h : ConfTree cfg) :
    ∃ text, genVppConf cfg "" "" = .ok text ∧ parseConf text = some (confItems cfg) := by
  have hblank : Blank INDENT := by
    intro c hc
    have hfour : INDENT.toList = List.replicate 4 ' ' := by decide
    rw [hfour] at hc
    exact List.eq_of_mem_replicate hc
  have hempty : Blank "" := by
    intro c hc
    exact absurd hc (by simp)
  refine ⟨itemsText "" (confItems cfg), ?_, parseConf_textOf hblank hempty (confItems_writable h)⟩
  rw [genVppConf_eq cfg "" "" h, String.empty_append]

end VppCfg
