/-
# What is lost on the way through `startup.conf`

The items of a section are collected into a configuration again: those with `dev` and those
with `plugin` under these two keys, in one object each.  All but the object-valued entries
`vports` should come back.

What comes back is that, except below `dev`.  There `gen_dpdk_dev_cfg` prints an empty string
without the word `dev`, an object of a device with it, and an object `vports` as a device.  So
the configuration comes back if and only if all devices have names, and strings for their
options (`DevicesFlat`).
-/
import SonicVpp.VppCfgRender
import SonicVpp.JsonOverlay

open PyDict TextLines StartupConf

namespace VppCfg

/-! ## Collecting -/

/-- A named value is added to the object at a key. -/
def group (key name : String) (val : Json) (cfg : Fields) : Fields :=
  match cfg.lookup key with
  | some (.obj fields) => setItem key (.obj (fields ++ [(name, val)])) cfg
  | _ => cfg ++ [(key, .obj [(name, val)])]

mutual

/-- A section with one item more. -/
def addItem : Item → Fields → Fields
  | .leaf key val, cfg => cfg ++ [(key, .str val)]
  | .block key items, cfg => cfg ++ [(key, .obj (collectInto items []))]
  | .devName name, cfg => group "dev" name (.str "") cfg
  | .dev name items, cfg => group "dev" name (.obj (collectInto items [])) cfg
  | .plugin name val, cfg => group "plugin" name (.str val) cfg

/-- A section with more items. -/
def collectInto : List Item → Fields → Fields
  | [], cfg => cfg
  | i :: items, cfg => collectInto items (addItem i cfg)

end

/-- The configuration of a list of items. -/
def collect (items : List Item) : Fields := collectInto items []

mutual

/-- A configuration without its object-valued entries `vports`. -/
def withoutVports : Fields → Fields
  | [] => []
  | (key, val) :: fields => keptEntry key val ++ withoutVports fields

/-- What is left of an entry. -/
def keptEntry (key : String) : Json → Fields
  | .obj fields => if key = "vports" then [] else [(key, .obj (withoutVports fields))]
  | val => [(key, val)]

end

/-- All devices have options, and no options in them; none is called `vports`. -/
def FlatDevices (fields : Fields) : Prop :=
  ∀ e ∈ fields, e.1 ≠ "vports" ∧ ∃ opts, e.2 = .obj opts ∧ ∀ o ∈ opts, ∃ s, o.2 = .str s

mutual

/-- The devices of all sections that are printed. -/
def DevicesFlat : Fields → Prop
  | [] => True
  | (key, val) :: fields => EntryFlat key val ∧ DevicesFlat fields

/-- Those of an entry. -/
def EntryFlat (key : String) : Json → Prop
  | .obj fields =>
    if key = "dev" then FlatDevices fields
    else key ≠ "vports" → key ≠ "plugin" → DevicesFlat fields
  | _ => True

end

theorem devicesFlat_iff (fields : Fields) :
    DevicesFlat fields ↔ ∀ e ∈ fields, EntryFlat e.1 e.2 := by
  induction fields with
  | nil => simp [DevicesFlat]
  | cons e fields ih => rw [DevicesFlat, ih, List.forall_mem_cons]

/-! ## Groups -/

/-- Setting a key changes no entry with another value. -/
theorem mem_setItem_of_ne {key : String} {old val : Json} {cfg : Fields} {e : String × Json}
    (hold : cfg.lookup key = some old) (he : e ∈ cfg) (hne : e.2 ≠ old) :
    e ∈ setItem key val cfg := by
  induction cfg with
  | nil => exact absurd he List.not_mem_nil
  | cons x cfg ih =>
    rw [setItem]
    by_cases hk : x.1 = key
    · rw [List.lookup_cons, hk, beq_self_eq_true] at hold
      rw [if_pos hk]
      rcases List.mem_cons.1 he with rfl | he
      · exact absurd (Option.some.inj hold) hne
      · exact List.mem_cons_of_mem _ he
    · have hkx : (key == x.1) = false := by simpa using Ne.symm hk
      rw [List.lookup_cons, hkx] at hold
      rw [if_neg hk]
      rcases List.mem_cons.1 he with rfl | he
      · exact List.mem_cons_self
      · exact List.mem_cons_of_mem _ (ih hold he)

section Group

variable {key name : String} {val : Json} {cfg : Fields}

theorem group_of_not_obj (h : ∀ f, cfg.lookup key ≠ some (.obj f)) :
    group key name val cfg = cfg ++ [(key, .obj [(name, val)])] := by
  unfold group
  split
  · rename_i f hf
    exact absurd hf (h f)
  · rfl

theorem group_of_lookup {fields : Fields} (h : cfg.lookup key = some (.obj fields)) :
    group key name val cfg = setItem key (.obj (fields ++ [(name, val)])) cfg := by
  unfold group
  rw [h]

/-- Entries with other keys, in front of those with the key. -/
theorem setItem_append (h : cfg.lookup key = none) (cfg' : Fields) :
    setItem key val (cfg ++ cfg') = cfg ++ setItem key val cfg' := by
  induction cfg with
  | nil => rfl
  | cons e cfg ih =>
    have hne : (key == e.1) = false := by
      simpa using List.lookup_eq_none_iff.1 h e List.mem_cons_self
    rw [List.lookup_cons, hne] at h
    rw [List.cons_append, setItem, if_neg (fun hk => by simp [hk] at hne), ih h]
    rfl

/-- A group is made, or found, behind them. -/
theorem group_append (h : cfg.lookup key = none) (cfg' : Fields) :
    group key name val (cfg ++ cfg') = cfg ++ group key name val cfg' := by
  have hlook : (cfg ++ cfg').lookup key = cfg'.lookup key := by
    rw [List.lookup_append, h, Option.none_or]
  unfold group
  rw [hlook]
  split
  · exact setItem_append h cfg'
  · exact List.append_assoc ..

/-- Strings stay. -/
theorem mem_group {k s : String} (h : (k, Json.str s) ∈ cfg) :
    (k, Json.str s) ∈ group key name val cfg := by
  unfold group
  split
  · rename_i f hf
    exact mem_setItem_of_ne hf h (by simp)
  · exact List.mem_append_left _ h

/-- Other keys stay as they are. -/
theorem lookup_group_of_ne {k : String} (h : k ≠ key) :
    (group key name val cfg).lookup k = cfg.lookup k := by
  unfold group
  split
  · exact lookup_setItem_of_ne h _ cfg
  · have hne : (k == key) = false := by simpa using h
    rw [List.lookup_append, List.lookup_cons, hne]
    simp

end Group

/-! ## Sections -/

theorem collectInto_append (items items' : List Item) (cfg : Fields) :
    collectInto (items ++ items') cfg = collectInto items' (collectInto items cfg) := by
  induction items generalizing cfg with
  | nil => rw [collectInto]; rfl
  | cons i items ih => rw [List.cons_append, collectInto, collectInto, ih]

theorem collectInto_singleton (i : Item) (cfg : Fields) : collectInto [i] cfg = addItem i cfg := by
  rw [collectInto, collectInto]

/-- What each item leaves in front of it, all of them leave. -/
theorem collectInto_frame {items : List Item} {cfg : Fields}
    (h : ∀ i ∈ items, ∀ cfg', addItem i (cfg ++ cfg') = cfg ++ addItem i cfg') (cfg' : Fields) :
    collectInto items (cfg ++ cfg') = cfg ++ collectInto items cfg' := by
  induction items generalizing cfg' with
  | nil => rw [collectInto, collectInto]
  | cons i items ih =>
    obtain ⟨hi, hitems⟩ := List.forall_mem_cons.1 h
    rw [collectInto, collectInto, hi, ih hitems]

/-- A key that no item sets. -/
theorem lookup_collectInto {items : List Item} {key : String}
    (h : ∀ i ∈ items, ∀ cfg, (addItem i cfg).lookup key = cfg.lookup key) (cfg : Fields) :
    (collectInto items cfg).lookup key = cfg.lookup key := by
  induction items generalizing cfg with
  | nil => rw [collectInto]
  | cons i items ih =>
    obtain ⟨hi, hitems⟩ := List.forall_mem_cons.1 h
    rw [collectInto, ih hitems, hi]

/-- Below `dev` there are strings and devices. -/
theorem mem_devItems {fields : Fields} {i : Item} (hi : i ∈ devItems fields) :
    (∃ e ∈ fields, ∃ s, e.2 = .str s ∧ i = .leaf e.1 s) ∨ ∃ name items, i = .dev name items := by
  induction fields with
  | nil => exact absurd hi (by simp [devItems])
  | cons e fields ih =>
    obtain ⟨key, val⟩ := e
    rw [devItems, List.mem_append] at hi
    rcases hi with hi | hi
    · cases val <;> simp only [devItem, List.mem_singleton, List.not_mem_nil] at hi
      case obj f => exact Or.inr ⟨key, _, hi⟩
      case str s => exact Or.inl ⟨_, List.mem_cons_self, s, rfl, hi⟩
    · rcases ih hi with ⟨e, he, hs⟩ | hdev
      · exact Or.inl ⟨e, List.mem_cons_of_mem _ he, hs⟩
      · exact Or.inr hdev

theorem mem_pluginItems {fields : Fields} {i : Item} (hi : i ∈ pluginItems fields) :
    ∃ name val, i = .plugin name val := by
  induction fields with
  | nil => exact absurd hi (by simp [pluginItems])
  | cons e fields ih =>
    obtain ⟨key, val⟩ := e
    cases val <;> simp only [pluginItems, List.mem_cons] at hi
    case str s =>
      rcases hi with rfl | hi
      · exact ⟨key, s, rfl⟩
      · exact ih hi
    all_goals exact ih hi

/-- What an entry of a configuration is collected to. -/
def image (key : String) (val : Json) : Fields := collect (confItem key val)

/-- The image of an entry comes behind the section so far. -/
theorem collectInto_confItem {cfg : Fields} {key : String} {val : Json} (hval : ConfValue key val)
    (hdev : key = "dev" → cfg.lookup "dev" = none)
    (hplugin : key = "plugin" → cfg.lookup "plugin" = none) :
    collectInto (confItem key val) cfg = cfg ++ image key val := by
  have hleaf : ∀ k s cfg', addItem (.leaf k s) (cfg ++ cfg') = cfg ++ addItem (.leaf k s) cfg' := by
    intro k s cfg'
    rw [addItem, addItem, List.append_assoc]
  -- no item looks at what is in front, but those that look for their own key
  have hframe : ∀ i ∈ confItem key val, ∀ cfg',
      addItem i (cfg ++ cfg') = cfg ++ addItem i cfg' := by
    intro i hi cfg'
    cases val <;> simp only [ConfValue] at hval
    case str s =>
      rw [confItem, List.mem_singleton] at hi
      rw [hi]
      exact hleaf key s cfg'
    case obj f =>
      rw [confItem] at hi
      split_ifs at hi with hv hd hp
      · exact absurd hi List.not_mem_nil
      · rcases mem_devItems hi with ⟨e, -, s, -, rfl⟩ | ⟨name, items, rfl⟩
        · exact hleaf e.1 s cfg'
        · rw [addItem, addItem, group_append (hdev hd)]
      · obtain ⟨name, v, rfl⟩ := mem_pluginItems hi
        rw [addItem, addItem, group_append (hplugin hp)]
      · rw [List.mem_singleton] at hi
        rw [hi, addItem, addItem, List.append_assoc]
  unfold image collect
  rw [← collectInto_frame hframe, List.append_nil]

/-- It has neither of the two keys, unless it is the image of the entry with that key. -/
theorem lookup_image {key g : String} {val : Json} (hval : ConfValue key val) (hne : key ≠ g)
    (hg : g = "dev" ∨ g = "plugin") : (image key val).lookup g = none := by
  have hother : ∀ (k : String) (v : Json) (cfg : Fields), k ≠ g →
      (cfg ++ [(k, v)]).lookup g = cfg.lookup g := by
    intro k v cfg hk
    have hgk : (g == k) = false := by simpa using Ne.symm hk
    rw [List.lookup_append, List.lookup_cons, hgk]
    simp
  have hframe : ∀ i ∈ confItem key val, ∀ cfg, (addItem i cfg).lookup g = cfg.lookup g := by
    intro i hi cfg
    cases val <;> simp only [ConfValue] at hval
    case str s =>
      rw [confItem, List.mem_singleton] at hi
      rw [hi, addItem, hother _ _ _ hne]
    case obj f =>
      rw [confItem] at hi
      split_ifs at hi with hv hd hp
      · exact absurd hi List.not_mem_nil
      · obtain rfl : g = "plugin" := hg.resolve_left (fun h => hne (hd.trans h.symm))
        rcases mem_devItems hi with ⟨e, he, s, hs, rfl⟩ | ⟨name, items, rfl⟩
        · -- a string below `dev` has another key
          have hleaf := ((confTree_iff f).1 hval.1 e he).2
          rw [hs, ConfValue] at hleaf
          rw [addItem, hother _ _ _ hleaf.2.2]
        · exact lookup_group_of_ne (by decide)
      · obtain rfl : g = "dev" := hg.resolve_right (fun h => hne (hp.trans h.symm))
        obtain ⟨name, v, rfl⟩ := mem_pluginItems hi
        exact lookup_group_of_ne (by decide)
      · rw [List.mem_singleton] at hi
        rw [hi, addItem, hother _ _ _ hne]
  exact lookup_collectInto hframe []

/-- **A section is the images of its entries.** -/
theorem collect_confItems {fields : Fields} (hfields : ConfTree fields)
    (hkeys : (fields.map Prod.fst).Nodup) :
    collect (confItems fields) = fields.flatMap fun e => image e.1 e.2 := by
  -- `cfg` is what was collected before: it has neither of the keys that are still to come
  have hloop : ∀ (fields cfg : Fields), ConfTree fields → (fields.map Prod.fst).Nodup →
      (∀ g, g = "dev" ∨ g = "plugin" → g ∈ fields.map Prod.fst → cfg.lookup g = none) →
      collectInto (confItems fields) cfg
        = cfg ++ fields.flatMap fun e => image e.1 e.2 := by
    intro fields
    induction fields with
    | nil =>
      intro cfg _ _ _
      rw [confItems, collectInto]
      exact (List.append_nil cfg).symm
    | cons e fields ih =>
      intro cfg hfields hkeys hcfg
      obtain ⟨key, val⟩ := e
      rw [ConfTree] at hfields
      rw [List.map_cons, List.nodup_cons] at hkeys
      rw [confItems, collectInto_append, collectInto_confItem hfields.2.1, ih _ hfields.2.2 hkeys.2,
        List.flatMap_cons, List.append_assoc]
      · intro g hg hmem
        have hne : key ≠ g := by
          rintro rfl
          exact hkeys.1 hmem
        rw [List.lookup_append, hcfg g hg (List.mem_cons_of_mem _ hmem), Option.none_or]
        exact lookup_image hfields.2.1 hne hg
      · rintro rfl
        exact hcfg "dev" (Or.inl rfl) List.mem_cons_self
      · rintro rfl
        exact hcfg "plugin" (Or.inr rfl) List.mem_cons_self
  unfold collect
  rw [hloop fields [] hfields hkeys (fun _ _ _ => rfl), List.nil_append]

/-! ## Devices -/

/-- Strings that were collected stay. -/
theorem mem_collectInto {k s : String} {items : List Item} {cfg : Fields}
    (h : (k, Json.str s) ∈ cfg) : (k, Json.str s) ∈ collectInto items cfg := by
  induction items generalizing cfg with
  | nil => rwa [collectInto]
  | cons i items ih =>
    rw [collectInto]
    apply ih
    cases i <;> rw [addItem]
    case leaf => exact List.mem_append_left _ h
    case block => exact List.mem_append_left _ h
    all_goals exact mem_group h

/-- A string below `dev` is not among the devices. -/
theorem mem_collectInto_devItems {k s : String} {fields : Fields} (h : (k, Json.str s) ∈ fields)
    (cfg : Fields) : (k, Json.str s) ∈ collectInto (devItems fields) cfg := by
  induction fields generalizing cfg with
  | nil => exact absurd h List.not_mem_nil
  | cons e fields ih =>
    rw [devItems, collectInto_append]
    rcases List.mem_cons.1 h with rfl | h
    · apply mem_collectInto
      rw [devItem, collectInto_singleton, addItem]
      exact List.mem_append_right _ List.mem_cons_self
    · exact ih h _

/-- The devices. -/
def devices : Fields → Fields
  | [] => []
  | (name, .obj opts) :: fields => (name, .obj (collect (devItems opts))) :: devices fields
  | _ :: fields => devices fields

/-- If all have options, they are one object. -/
theorem collect_devItems {fields : Fields} (hne : fields ≠ [])
    (h : ∀ e ∈ fields, ∃ opts, e.2 = .obj opts) :
    collect (devItems fields) = [("dev", .obj (devices fields))] := by
  -- `found` is the object so far, which each device finds and adds to
  have hrest : ∀ fields found : Fields, (∀ e ∈ fields, ∃ opts, e.2 = .obj opts) →
      collectInto (devItems fields) [("dev", .obj found)]
        = [("dev", .obj (found ++ devices fields))] := by
    intro fields
    induction fields with
    | nil =>
      intro found _
      rw [devItems, collectInto, devices, List.append_nil]
    | cons e fields ih =>
      intro found h
      obtain ⟨name, val⟩ := e
      obtain ⟨⟨opts, rfl⟩, hfields⟩ := List.forall_mem_cons.1 h
      rw [devItems, devItem, collectInto_append, collectInto_singleton, addItem,
        group_of_lookup rfl, setItem, if_pos rfl, ih _ hfields, devices, List.append_assoc]
      rfl
  cases fields with
  | nil => exact absurd rfl hne
  | cons e fields =>
    obtain ⟨name, val⟩ := e
    obtain ⟨⟨opts, rfl⟩, hfields⟩ := List.forall_mem_cons.1 h
    unfold collect
    rw [devItems, devItem, collectInto_append, collectInto_singleton, addItem,
      group_of_not_obj (by simp), List.nil_append, hrest _ _ hfields, devices]
    rfl

theorem keptEntry_str (key s : String) : keptEntry key (.str s) = [(key, .str s)] := by
  rw [keptEntry]
  simp

/-- Strings are collected as they are. -/
theorem collect_devItems_strings {opts : Fields} (h : ∀ o ∈ opts, ∃ s, o.2 = .str s) :
    collect (devItems opts) = opts := by
  have hloop : ∀ opts cfg : Fields, (∀ o ∈ opts, ∃ s, o.2 = .str s) →
      collectInto (devItems opts) cfg = cfg ++ opts := by
    intro opts
    induction opts with
    | nil =>
      intro cfg _
      rw [devItems, collectInto, List.append_nil]
    | cons o opts ih =>
      intro cfg h
      obtain ⟨key, val⟩ := o
      obtain ⟨⟨s, rfl⟩, hopts⟩ := List.forall_mem_cons.1 h
      rw [devItems, devItem, collectInto_append, collectInto_singleton, addItem, ih _ hopts,
        List.append_assoc]
      rfl
  exact hloop opts [] h

/-- And they are not taken out. -/
theorem withoutVports_strings {opts : Fields} (h : ∀ o ∈ opts, ∃ s, o.2 = .str s) :
    withoutVports opts = opts := by
  induction opts with
  | nil => rw [withoutVports]
  | cons o opts ih =>
    obtain ⟨key, val⟩ := o
    obtain ⟨⟨s, rfl⟩, hopts⟩ := List.forall_mem_cons.1 h
    rw [withoutVports, keptEntry_str, ih hopts]
    rfl

/-! ### Entries at all depths -/

mutual

/-- The number of entries in a value. -/
def entriesIn : Json → Nat
  | .obj fields => entries fields
  | _ => 0

/-- In a dictionary. -/
def entries : Fields → Nat
  | [] => 0
  | (_, val) :: fields => entriesIn val + 1 + entries fields

end

theorem entries_append (cfg cfg' : Fields) : entries (cfg ++ cfg') = entries cfg + entries cfg' := by
  induction cfg with
  | nil => rw [entries, Nat.zero_add]; rfl
  | cons e cfg ih =>
    rw [List.cons_append, entries, entries, ih]
    omega

theorem entries_setItem {key : String} {old : Json} {cfg : Fields}
    (h : cfg.lookup key = some old) (val : Json) :
    entries (setItem key val cfg) + entriesIn old = entries cfg + entriesIn val := by
  induction cfg with
  | nil => cases h
  | cons e cfg ih =>
    rw [setItem]
    by_cases hk : e.1 = key
    · rw [List.lookup_cons, hk, beq_self_eq_true] at h
      obtain rfl := Option.some.inj h
      rw [if_pos hk, entries, entries]
      omega
    · have hke : (key == e.1) = false := by simpa using Ne.symm hk
      rw [List.lookup_cons, hke] at h
      have hrest := ih h
      rw [if_neg hk, entries, entries]
      omega

/-- A group has an entry more, and so has a section without that group. -/
theorem entries_group (key name : String) (val : Json) (cfg : Fields) :
    entries cfg + (entriesIn val + 1) ≤ entries (group key name val cfg) ∧
      ((∀ f, cfg.lookup key ≠ some (.obj f)) →
        entries cfg + (entriesIn val + 1) < entries (group key name val cfg)) := by
  by_cases hnew : ∀ f, cfg.lookup key ≠ some (.obj f)
  · have hsize : entries (group key name val cfg) = entries cfg + (entriesIn val + 1) + 1 := by
      rw [group_of_not_obj hnew, entries_append, entries, entriesIn, entries, entries, entries]
      omega
    exact ⟨by omega, fun _ => by omega⟩
  · push Not at hnew
    obtain ⟨f, hf⟩ := hnew
    have hset := entries_setItem hf (.obj (f ++ [(name, val)]))
    rw [entriesIn, entriesIn, entries_append, entries, entries] at hset
    rw [group_of_lookup hf]
    exact ⟨by omega, fun h => absurd hf (h f)⟩

mutual

/-- Nothing is added where `vports` is taken out. -/
theorem entries_withoutVports_le : ∀ fields : Fields, entries (withoutVports fields) ≤ entries fields
  | [] => Nat.le_refl _
  | (key, val) :: fields => by
    have hentry := entries_keptEntry_le key val
    have hrest := entries_withoutVports_le fields
    rw [withoutVports, entries_append, entries]
    omega

theorem entries_keptEntry_le : ∀ (key : String) (val : Json),
    entries (keptEntry key val) ≤ entriesIn val + 1
  | key, .obj fields => by
    have hfields := entries_withoutVports_le fields
    rw [keptEntry, entriesIn]
    split_ifs
    · exact Nat.zero_le _
    · rw [entries, entriesIn, entries]
      omega
  | _, .null => Nat.le_refl _
  | _, .bool _ => Nat.le_refl _
  | _, .num _ _ => Nat.le_refl _
  | _, .str _ => Nat.le_refl _
  | _, .arr _ => Nat.le_refl _

end

mutual

/-- Nothing is lost below `dev`. -/
theorem entries_devItems_le : ∀ (fields cfg : Fields), ConfTree fields →
    entries cfg + entries fields ≤ entries (collectInto (devItems fields) cfg)
  | [], cfg, _ => by
    rw [devItems, collectInto]
    exact Nat.le_refl _
  | (key, val) :: fields, cfg, h => by
    rw [ConfTree] at h
    have hentry := entries_devItem_le key val cfg h.2.1
    have hrest := entries_devItems_le fields (collectInto (devItem key val) cfg) h.2.2
    rw [devItems, collectInto_append, entries]
    omega

theorem entries_devItem_le : ∀ (key : String) (val : Json) (cfg : Fields), ConfValue key val →
    entries cfg + (entriesIn val + 1) ≤ entries (collectInto (devItem key val) cfg)
  | key, .obj fields, cfg, h => by
    rw [ConfValue] at h
    have hfields := entries_devItems_le fields [] h.1
    have hgroup := (entries_group "dev" key (.obj (collectInto (devItems fields) [])) cfg).1
    rw [entriesIn] at hgroup
    rw [devItem, collectInto_singleton, addItem, entriesIn]
    rw [entries] at hfields
    omega
  | key, .str s, cfg, _ => by
    rw [devItem, collectInto_singleton, addItem, entries_append]
    exact Nat.le_refl _
  | _, .null, _, h => absurd h (by simp [ConfValue])
  | _, .bool _, _, h => absurd h (by simp [ConfValue])
  | _, .num _ _, _, h => absurd h (by simp [ConfValue])
  | _, .arr _, _, h => absurd h (by simp [ConfValue])

end

/-- An object among the options of a device is an entry `dev` that was not there. -/
theorem entries_devItems_lt {fields cfg : Fields} (hfields : ConfTree fields)
    (hobj : ∃ e ∈ fields, ∃ f, e.2 = .obj f) (hcfg : ∀ f, cfg.lookup "dev" ≠ some (.obj f)) :
    entries cfg + entries fields < entries (collectInto (devItems fields) cfg) := by
  induction fields generalizing cfg with
  | nil => simp at hobj
  | cons e fields ih =>
    obtain ⟨key, val⟩ := e
    rw [ConfTree] at hfields
    obtain ⟨-, hval, hfields⟩ := hfields
    rw [devItems, collectInto_append, entries]
    cases val <;> simp only [ConfValue] at hval
    case str s =>
      -- a string is no object at `dev`, and the object is still to come
      obtain ⟨e, he, f, hf⟩ := hobj
      have hmem : e ∈ fields := by
        rcases List.mem_cons.1 he with rfl | he
        · exact absurd hf (by simp)
        · exact he
      rw [devItem, collectInto_singleton, addItem]
      have hcfg' : ∀ g, (cfg ++ [(key, Json.str s)]).lookup "dev" ≠ some (.obj g) := by
        intro g
        have hne : ("dev" == key) = false := by simpa using Ne.symm hval.2.1
        rw [List.lookup_append, List.lookup_cons, hne]
        simpa using hcfg g
      have hrest := ih hfields ⟨e, hmem, f, hf⟩ hcfg'
      rw [entries_append, entries, entries] at hrest
      omega
    case obj f =>
      -- this object makes the entry
      have hin := entries_devItems_le f [] hval.1
      have hgroup :=
        (entries_group "dev" key (.obj (collectInto (devItems f) [])) cfg).2 hcfg
      have hrest := entries_devItems_le fields
        (group "dev" key (.obj (collectInto (devItems f) [])) cfg) hfields
      rw [entriesIn] at hgroup
      rw [entries] at hin
      rw [devItem, collectInto_singleton, addItem, entriesIn]
      omega

/-- What is left of the options of a device is what is collected only if they are strings. -/
theorem strings_of_collect {opts : Fields} (hopts : ConfTree opts)
    (h : collect (devItems opts) = withoutVports opts) : ∀ o ∈ opts, ∃ s, o.2 = .str s := by
  have hstrings : ¬ ∃ e ∈ opts, ∃ f, e.2 = .obj f := by
    intro hobj
    have hlt : entries [] + entries opts < entries (collectInto (devItems opts) []) :=
      entries_devItems_lt hopts hobj (by simp)
    have hle := entries_withoutVports_le opts
    unfold collect at h
    rw [h, entries] at hlt
    omega
  push Not at hstrings
  intro o ho
  have hval := ((confTree_iff opts).1 hopts o ho).2
  have hnot := hstrings o ho
  obtain ⟨key, val⟩ := o
  cases val <;> simp only [ConfValue] at hval
  case str s => exact ⟨s, rfl⟩
  case obj f => exact absurd rfl (hnot f)

/-! ### Below `dev` -/

theorem length_devices {fields : Fields} (h : ∀ e ∈ fields, ∃ opts, e.2 = .obj opts) :
    (devices fields).length = fields.length := by
  induction fields with
  | nil => rfl
  | cons e fields ih =>
    obtain ⟨name, val⟩ := e
    obtain ⟨⟨opts, rfl⟩, hfields⟩ := List.forall_mem_cons.1 h
    rw [devices, List.length_cons, List.length_cons, ih hfields]

theorem length_keptEntry_le (key : String) (val : Json) : (keptEntry key val).length ≤ 1 := by
  cases val <;> rw [keptEntry.eq_def]
  case obj f =>
    dsimp only
    split_ifs
    · exact Nat.zero_le _
    · exact Nat.le_refl _
  all_goals exact Nat.le_refl _

theorem length_withoutVports_le (fields : Fields) :
    (withoutVports fields).length ≤ fields.length := by
  induction fields with
  | nil => exact Nat.le_refl _
  | cons e fields ih =>
    have hentry := length_keptEntry_le e.1 e.2
    rw [withoutVports, List.length_append, List.length_cons]
    omega

/-- The devices are what is left of the object if and only if they are flat. -/
theorem devices_iff {fields : Fields} (hfields : ConfTree fields)
    (hobj : ∀ e ∈ fields, ∃ opts, e.2 = .obj opts) :
    devices fields = withoutVports fields ↔ FlatDevices fields := by
  induction fields with
  | nil => simp [devices, withoutVports, FlatDevices]
  | cons e fields ih =>
    obtain ⟨name, val⟩ := e
    obtain ⟨⟨opts, rfl⟩, hrest⟩ := List.forall_mem_cons.1 hobj
    rw [ConfTree, ConfValue] at hfields
    obtain ⟨-, ⟨hopts, -⟩, hfields⟩ := hfields
    unfold FlatDevices
    rw [devices, withoutVports, keptEntry, List.forall_mem_cons]
    by_cases hv : name = "vports"
    · -- an entry is missing on the right
      rw [if_pos hv]
      constructor
      · intro h
        have hlen := congrArg List.length h
        have hle := length_withoutVports_le fields
        rw [List.length_cons, length_devices hrest, List.nil_append] at hlen
        omega
      · rintro ⟨⟨hname, -⟩, -⟩
        exact absurd hv hname
    · rw [if_neg hv, List.singleton_append, List.cons.injEq, Prod.mk.injEq, Json.obj.injEq,
        ih hfields hrest]
      constructor
      · rintro ⟨⟨-, h⟩, hflat⟩
        exact ⟨⟨hv, opts, rfl, strings_of_collect hopts h⟩, hflat⟩
      · rintro ⟨⟨-, opts', heq, hstr⟩, hflat⟩
        obtain rfl := Json.obj.inj heq
        exact ⟨⟨rfl, by rw [collect_devItems_strings hstr, withoutVports_strings hstr]⟩, hflat⟩

/-- So an object at `dev` comes back if and only if its devices are flat. -/
theorem collect_devItems_iff {fields : Fields} (hfields : ConfTree fields) (hne : fields ≠ [])
    (hform : ∀ e ∈ fields, e.2 = .str "" ∨ ∃ f, e.2 = .obj f) :
    collect (devItems fields) = [("dev", .obj (withoutVports fields))] ↔ FlatDevices fields := by
  constructor
  · intro h
    have hobj : ∀ e ∈ fields, ∃ f, e.2 = .obj f := by
      intro e he
      refine (hform e he).resolve_left ?_
      intro hstr
      have hmem : (e.1, Json.str "") ∈ fields := by rwa [← hstr]
      have hleft : (e.1, Json.str "") ∈ collect (devItems fields) := mem_collectInto_devItems hmem []
      rw [h, List.mem_singleton] at hleft
      exact absurd hleft (by simp)
    rw [collect_devItems hne hobj] at h
    exact (devices_iff hfields hobj).1 (by simpa using h)
  · intro hflat
    have hobj : ∀ e ∈ fields, ∃ f, e.2 = .obj f := by
      intro e he
      obtain ⟨-, opts, hopts, -⟩ := hflat e he
      exact ⟨opts, hopts⟩
    rw [collect_devItems hne hobj, (devices_iff hfields hobj).2 hflat]

/-- An object at `plugin` always does. -/
theorem collect_pluginItems {fields : Fields} (hne : fields ≠ [])
    (h : ∀ e ∈ fields, ∃ s, s ≠ "" ∧ e.2 = .str s) :
    collect (pluginItems fields) = [("plugin", .obj fields)] := by
  -- `found` is the object so far, which each plugin finds and adds to
  have hrest : ∀ fields found : Fields, (∀ e ∈ fields, ∃ s, s ≠ "" ∧ e.2 = .str s) →
      collectInto (pluginItems fields) [("plugin", .obj found)]
        = [("plugin", .obj (found ++ fields))] := by
    intro fields
    induction fields with
    | nil =>
      intro found _
      rw [pluginItems, collectInto, List.append_nil]
    | cons e fields ih =>
      intro found h
      obtain ⟨name, val⟩ := e
      obtain ⟨⟨s, -, rfl⟩, hfields⟩ := List.forall_mem_cons.1 h
      rw [pluginItems, collectInto, addItem, group_of_lookup rfl, setItem, if_pos rfl,
        ih _ hfields, List.append_assoc]
      rfl
  cases fields with
  | nil => exact absurd rfl hne
  | cons e fields =>
    obtain ⟨name, val⟩ := e
    obtain ⟨⟨s, -, rfl⟩, hfields⟩ := List.forall_mem_cons.1 h
    unfold collect
    rw [pluginItems, collectInto, addItem, group_of_not_obj (by simp), List.nil_append,
      hrest _ _ hfields]
    rfl

/-! ## Round trip -/

/-- Two lists that are made entry by entry are equal only if what is made of each entry is,
where at most one entry may be made to lists of different lengths. -/
theorem eq_of_flatMap_eq (key : String) {f g : String × Json → Fields} {fields : Fields}
    (hkeys : (fields.map Prod.fst).Nodup)
    (hlen : ∀ e ∈ fields, e.1 ≠ key → (f e).length = (g e).length)
    (h : fields.flatMap f = fields.flatMap g) : ∀ e ∈ fields, f e = g e := by
  induction fields with
  | nil => exact fun e he => absurd he List.not_mem_nil
  | cons x fields ih =>
    rw [List.map_cons, List.nodup_cons] at hkeys
    obtain ⟨hx, hfields⟩ := List.forall_mem_cons.1 hlen
    rw [List.flatMap_cons, List.flatMap_cons] at h
    have hsplit : f x = g x ∧ fields.flatMap f = fields.flatMap g := by
      by_cases hk : x.1 = key
      · -- no other entry has this key, so what comes behind has one length
        refine List.append_inj' h ?_
        rw [List.length_flatMap, List.length_flatMap]
        congr 1
        refine List.map_congr_left ?_
        intro e he
        refine hfields e he ?_
        rintro rfl
        rw [hk] at hkeys
        exact hkeys.1 (List.mem_map_of_mem he)
      · exact List.append_inj h (hx hk)
    rw [List.forall_mem_cons]
    exact ⟨hsplit.1, ih hkeys.2 hfields hsplit.2⟩

theorem withoutVports_eq (fields : Fields) :
    withoutVports fields = fields.flatMap fun e => keptEntry e.1 e.2 := by
  induction fields with
  | nil => rw [withoutVports]; rfl
  | cons e fields ih => rw [withoutVports, List.flatMap_cons, ih]

/-- Outside `dev` an entry has as many images as are left of it. -/
theorem length_image {key : String} {val : Json} (hval : ConfValue key val) (hdev : key ≠ "dev") :
    (image key val).length = (keptEntry key val).length := by
  unfold image
  cases val <;> simp only [ConfValue] at hval
  case str s =>
    rw [confItem, keptEntry_str]
    rfl
  case obj f =>
    rw [confItem, keptEntry]
    split_ifs with hv hp
    · rfl
    · rw [collect_pluginItems (hval.2.2 hp).1 (hval.2.2 hp).2]
      rfl
    · rfl

/-- A section comes back if and only if its entries do. -/
theorem collect_confItems_iff {fields : Fields} (hfields : ConfTree fields)
    (hkeys : (fields.map Prod.fst).Nodup)
    (hentries : ∀ e ∈ fields, (image e.1 e.2 = keptEntry e.1 e.2 ↔ EntryFlat e.1 e.2)) :
    collect (confItems fields) = withoutVports fields ↔ DevicesFlat fields := by
  rw [collect_confItems hfields hkeys, withoutVports_eq, devicesFlat_iff]
  have hconf := (confTree_iff fields).1 hfields
  constructor
  · intro h e he
    rw [← hentries e he]
    refine eq_of_flatMap_eq "dev" hkeys ?_ h e he
    exact fun e he hne => length_image (hconf e he).2 hne
  · intro h
    refine List.flatMap_congr ?_
    exact fun e he => (hentries e he).2 (h e he)

/-- An entry comes back if and only if its devices are flat. -/
theorem image_iff (val : Json) : ∀ key : String, ConfValue key val → val.DistinctKeys →
    (image key val = keptEntry key val ↔ EntryFlat key val) := by
  induction val using Json.byFields with
  | leaf val hleaf =>
    intro key hval _
    cases val <;> simp only [ConfValue] at hval
    case str s =>
      rw [keptEntry_str, EntryFlat]
      · exact iff_of_true rfl trivial
      · simp
    case obj f _ => exact absurd rfl (hleaf f)
  | obj f ih =>
    intro key hval hdistinct
    rw [ConfValue] at hval
    obtain ⟨hf, hdev, hplugin⟩ := hval
    obtain ⟨hkeys, hdistinct⟩ := hdistinct
    rw [distinctFields_iff] at hdistinct
    have hconf := (confTree_iff f).1 hf
    unfold image
    rw [confItem, keptEntry, EntryFlat]
    by_cases hv : key = "vports"
    · rw [if_pos hv, if_pos hv, if_neg (by rw [hv]; decide)]
      exact iff_of_true rfl (fun h => absurd hv h)
    by_cases hd : key = "dev"
    · rw [if_neg hv, if_neg hv, if_pos hd, if_pos hd, hd]
      exact collect_devItems_iff hf (hdev hd).1 (hdev hd).2
    by_cases hp : key = "plugin"
    · -- plugins have strings, and nothing in them is called `vports`
      have hstrings : ∀ e ∈ f, ∃ s, e.2 = .str s := by
        intro e he
        obtain ⟨s, -, hs⟩ := (hplugin hp).2 e he
        exact ⟨s, hs⟩
      rw [if_neg hv, if_neg hv, if_neg hd, if_neg hd, if_pos hp,
        collect_pluginItems (hplugin hp).1 (hplugin hp).2, withoutVports_strings hstrings, hp]
      exact iff_of_true rfl (fun _ h => absurd rfl h)
    · -- a section that is printed as one: by the same for its entries
      have hsection := collect_confItems_iff hf hkeys
        (fun e he => ih e he e.1 (hconf e he).2 (hdistinct e he))
      unfold collect at hsection ⊢
      rw [if_neg hv, if_neg hv, if_neg hd, if_neg hd, if_neg hp, collectInto_singleton, addItem,
        List.nil_append, List.singleton_inj, Prod.mk.injEq, Json.obj.injEq, hsection]
      exact ⟨fun h _ _ => h.2, fun h => ⟨rfl, h hv hp⟩⟩

/-- **The startup conf is read back as the configuration, without `vports`, if and only if all
devices are flat.** -/
theorem reads_back_iff (cfg : Fields) (hcfg : ConfTree cfg) (hkeys : (Json.obj cfg).DistinctKeys) :
    ∃ text, genVppConf cfg "" "" = .ok text ∧
      ((parseConf text).map collect = some (withoutVports cfg) ↔ DevicesFlat cfg) := by
  obtain ⟨text, htext, hparse⟩ := parseConf_genVppConf hcfg
  have hconf := (confTree_iff cfg).1 hcfg
  have hdistinct := (distinctFields_iff cfg).1 hkeys.2
  refine ⟨text, htext, ?_⟩
  rw [hparse, Option.map_some, Option.some.injEq]
  exact collect_confItems_iff hcfg hkeys.1
    (fun e he => image_iff e.2 e.1 (hconf e he).2 (hdistinct e he))

/-- A configuration with a device, plugins and ports. -/
def withDevice : Fields :=
  [("unix", .obj [("nodaemon", .str ""), ("gid", .str "vpp")]),
    ("dpdk", .obj [("dev", .obj [("default", .obj [("num-rx-queues", .str "1")])]),
      ("uio-driver", .str "vfio-pci")]),
    ("plugins", .obj [("plugin", .obj [("default", .str "disable")])]),
    ("vports", .obj [("veth0", .str "")])]

/-- It is read back, but for the ports. -/
theorem reads_back_withDevice : ∃ text, genVppConf withDevice "" "" = .ok text ∧
    (parseConf text).map collect = some
      [("unix", .obj [("nodaemon", .str ""), ("gid", .str "vpp")]),
        ("dpdk", .obj [("dev", .obj [("default", .obj [("num-rx-queues", .str "1")])]),
          ("uio-driver", .str "vfio-pci")]),
        ("plugins", .obj [("plugin", .obj [("default", .str "disable")])])] := by
  have htoken : ∀ w ∈ ["unix", "nodaemon", "gid", "vpp", "dpdk", "dev", "default",
      "num-rx-queues", "1", "uio-driver", "vfio-pci", "plugins", "plugin", "disable", "vports",
      "veth0"], IsToken w := isToken_of_all rfl
  have hconf : ConfTree withDevice := by
    simp only [List.forall_mem_cons] at htoken
    simp [withDevice, ConfTree, ConfValue, htoken]
  have hkeys : (Json.obj withDevice).DistinctKeys := by
    simp [withDevice, Json.DistinctKeys, DistinctFields]
  obtain ⟨text, htext, hback⟩ := reads_back_iff withDevice hconf hkeys
  refine ⟨text, htext, hback.2 ?_⟩
  simp [withDevice, DevicesFlat, EntryFlat, FlatDevices]

/-- A configuration with a device that has no options. -/
def withoutOptions : Fields :=
  [("dpdk", .obj [("dev", .obj [("0000:00:04.0", .str "")])])]

/-- It is printed as an entry of `dpdk`, and read back as one. -/
theorem withoutOptions_lost : ConfTree withoutOptions ∧
    (Json.obj withoutOptions).DistinctKeys ∧
    ∃ text, genVppConf withoutOptions "" "" = .ok text ∧
      (parseConf text).map collect = some [("dpdk", .obj [("0000:00:04.0", .str "")])] ∧
      withoutVports withoutOptions = withoutOptions ∧
      (parseConf text).map collect ≠ some (withoutVports withoutOptions) := by
  have hconf : ConfTree withoutOptions := by
    have htoken : ∀ w ∈ ["dpdk", "dev", "0000:00:04.0"], IsToken w := isToken_of_all rfl
    simp only [List.forall_mem_cons] at htoken
    simp [withoutOptions, ConfTree, ConfValue, htoken]
  obtain ⟨text, htext, hparse⟩ := parseConf_genVppConf hconf
  have hback : (parseConf text).map collect
      = some [("dpdk", .obj [("0000:00:04.0", .str "")])] := by
    rw [hparse]
    rfl
  have hkept : withoutVports withoutOptions = withoutOptions := rfl
  refine ⟨hconf, by simp [withoutOptions, Json.DistinctKeys, DistinctFields], text, htext, hback,
    hkept, ?_⟩
  rw [hback, hkept]
  simp [withoutOptions]

end VppCfg
