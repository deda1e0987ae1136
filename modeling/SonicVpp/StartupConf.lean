/-
# The grammar of `startup.conf`

A configuration is a list of items: `key`, `key value`, `key { ... }`, `dev NAME`,
`dev NAME { ... }` and `plugin NAME { value }`.  Each item, and each line that opens or
closes one, is a line of its own, and indentation does not count.

`parseConf` reads a text with a stack of the items that are open.  `parseConf_textOf` says
that it reads back what is written.
-/
import SonicVpp.TextLines

open TextLines

namespace StartupConf

/-! ## Items -/

/-- An item; `leaf key ""` is `key` alone. -/
inductive Item
  | leaf (key val : String)
  | block (key : String) (items : List Item)
  | devName (name : String)
  | dev (name : String) (items : List Item)
  | plugin (name val : String)

/-- The first line of an item that is not closed. -/
inductive Opener
  | block (key : String)
  | dev (name : String)

/-- The item, with what is in it. -/
def Opener.close (items : List Item) : Opener → Item
  | .block key => .block key items
  | .dev name => .dev name items

/-! ## Reading -/

/-- What a line is. -/
inductive LineKind
  | blank
  | item (i : Item)
  | opens (o : Opener)
  | closes
  | bad

/-- A line by its words. -/
def classify : List String → LineKind
  | [] => .blank
  | [k] => if k = "\x7d" then .closes else .item (.leaf k "")
  | [k, v] =>
    if v = "\x7b" then .opens (.block k)
    else if k = "dev" then .item (.devName v)
    else .item (.leaf k v)
  | [k, n, b] => if k = "dev" ∧ b = "\x7b" then .opens (.dev n) else .bad
  | [k, n, b, v, e] =>
    if k = "plugin" ∧ b = "\x7b" ∧ e = "\x7d" then .item (.plugin n v) else .bad
  | _ => .bad

theorem classify_block (key : String) : classify [key, "\x7b"] = .opens (.block key) := by
  rw [classify, if_pos rfl]

theorem classify_dev (name : String) : classify ["dev", name, "\x7b"] = .opens (.dev name) := by
  rw [classify, if_pos ⟨rfl, rfl⟩]

theorem classify_plugin (name val : String) :
    classify ["plugin", name, "\x7b", val, "\x7d"] = .item (.plugin name val) := by
  rw [classify, if_pos ⟨rfl, rfl, rfl⟩]

/-- The lines, with the items so far and those around them. -/
def parseLines : List (List String) → List Item → List (Opener × List Item) → Option (List Item)
  | [], items, [] => some items
  | [], _, _ :: _ => none
  | line :: lines, items, stack =>
    match classify line with
    | .blank => parseLines lines items stack
    | .item i => parseLines lines (items ++ [i]) stack
    | .opens o => parseLines lines [] ((o, items) :: stack)
    | .closes =>
      match stack with
      | [] => none
      | (o, outer) :: stack => parseLines lines (outer ++ [o.close items]) stack
    | .bad => none

/-- The items of a text. -/
def parseConf (text : String) : Option (List Item) := parseLines (readLines text) [] []

/-! ## Writing -/

mutual

/-- The lines of an item; what is in it is indented by `step`. -/
def Item.lines (step indent : String) : Item → List Line
  | .leaf key val => if val = "" then [⟨indent, [key]⟩] else [⟨indent, [key, val]⟩]
  | .block key items =>
    ⟨indent, [key, "\x7b"]⟩ :: itemsLines step (indent ++ step) items ++ [⟨indent, ["\x7d"]⟩]
  | .devName name => [⟨indent, ["dev", name]⟩]
  | .dev name items =>
    ⟨indent, ["dev", name, "\x7b"]⟩ :: itemsLines step (indent ++ step) items
      ++ [⟨indent, ["\x7d"]⟩]
  | .plugin name val => [⟨indent, ["plugin", name, "\x7b", val, "\x7d"]⟩]

/-- The lines of items. -/
def itemsLines (step indent : String) : List Item → List Line
  | [] => []
  | i :: items => i.lines step indent ++ itemsLines step indent items

end

/-! ## What can be written -/

/-- A word without braces. -/
structure IsToken (w : String) : Prop where
  word : IsWord w
  braces : ∀ c ∈ w.toList, c ≠ Char.ofNat 123 ∧ c ≠ Char.ofNat 125

mutual

/-- An item of tokens; a `key value` is no `dev NAME`. -/
def Item.Writable : Item → Prop
  | .leaf key val => IsToken key ∧ (val ≠ "" → IsToken val ∧ key ≠ "dev")
  | .block key items => IsToken key ∧ ItemsWritable items
  | .devName name => IsToken name
  | .dev name items => IsToken name ∧ ItemsWritable items
  | .plugin name val => IsToken name ∧ IsToken val

/-- Items that can be written. -/
def ItemsWritable : List Item → Prop
  | [] => True
  | i :: items => i.Writable ∧ ItemsWritable items

end

/-- Tokens can be told by looking at their letters. -/
theorem isToken_of_all {ws : List String} (h : (ws.all fun w => w != "" && w.toList.all fun c =>
    !c.isWhitespace && (c != Char.ofNat 123 && c != Char.ofNat 125)) = true) :
    ∀ w ∈ ws, IsToken w := by
  intro w hw
  obtain ⟨hne, hletters⟩ := Bool.and_eq_true_iff.1 (List.all_eq_true.1 h w hw)
  have hall : ∀ c ∈ w.toList,
      c.isWhitespace = false ∧ c ≠ Char.ofNat 123 ∧ c ≠ Char.ofNat 125 := by
    intro c hc
    simpa using List.all_eq_true.1 hletters c hc
  exact ⟨⟨by simpa using hne, fun c hc => (hall c hc).1⟩, fun c hc => (hall c hc).2⟩

/-- A token is no brace. -/
theorem IsToken.ne_open {w : String} (h : IsToken w) : w ≠ "\x7b" := by
  rintro rfl
  exact (h.braces (Char.ofNat 123) (by decide)).1 rfl

theorem IsToken.ne_close {w : String} (h : IsToken w) : w ≠ "\x7d" := by
  rintro rfl
  exact (h.braces (Char.ofNat 125) (by decide)).2 rfl

/-- Braces are words. -/
theorem isWord_brace : IsWord "\x7b" ∧ IsWord "\x7d" :=
  ⟨isWord_of_all (by decide) rfl, isWord_of_all (by decide) rfl⟩

/-- And so are the words that open an item. -/
theorem isWord_dev : IsWord "dev" := isWord_of_all (by decide) rfl

theorem isWord_plugin : IsWord "plugin" := isWord_of_all (by decide) rfl

/-! ## Round trip -/

theorem blank_append {s s' : String} (h : Blank s) (h' : Blank s') : Blank (s ++ s') := by
  intro c hc
  rw [String.toList_append, List.mem_append] at hc
  rcases hc with hc | hc
  · exact h c hc
  · exact h' c hc

mutual

/-- The lines of an item can be read. -/
theorem Item.lines_readable (step : String) (hstep : Blank step) :
    ∀ (i : Item) (indent : String), Blank indent → i.Writable →
      ∀ l ∈ i.lines step indent, l.Readable
  | .leaf key val, indent, hindent, ⟨hkey, hval⟩, l, hl => by
    rw [Item.lines] at hl
    split at hl
    · obtain rfl := List.mem_singleton.1 hl
      exact ⟨hindent, by simpa using hkey.word⟩
    · rename_i hne
      obtain rfl := List.mem_singleton.1 hl
      exact ⟨hindent, by simpa using ⟨hkey.word, (hval hne).1.word⟩⟩
  | .block key items, indent, hindent, ⟨hkey, hitems⟩, l, hl => by
    rw [Item.lines, List.cons_append, List.mem_cons, List.mem_append, List.mem_singleton] at hl
    rcases hl with rfl | hl | rfl
    · exact ⟨hindent, by simpa using ⟨hkey.word, isWord_brace.1⟩⟩
    · exact itemsLines_readable step hstep items _ (blank_append hindent hstep) hitems l hl
    · exact ⟨hindent, by simpa using isWord_brace.2⟩
  | .devName name, indent, hindent, hname, l, hl => by
    rw [Item.lines] at hl
    obtain rfl := List.mem_singleton.1 hl
    exact ⟨hindent, by simpa using ⟨isWord_dev, IsToken.word hname⟩⟩
  | .dev name items, indent, hindent, ⟨hname, hitems⟩, l, hl => by
    rw [Item.lines, List.cons_append, List.mem_cons, List.mem_append, List.mem_singleton] at hl
    rcases hl with rfl | hl | rfl
    · exact ⟨hindent, by simpa using ⟨isWord_dev, hname.word, isWord_brace.1⟩⟩
    · exact itemsLines_readable step hstep items _ (blank_append hindent hstep) hitems l hl
    · exact ⟨hindent, by simpa using isWord_brace.2⟩
  | .plugin name val, indent, hindent, ⟨hname, hval⟩, l, hl => by
    rw [Item.lines] at hl
    obtain rfl := List.mem_singleton.1 hl
    exact ⟨hindent, by
      simpa using ⟨isWord_plugin, hname.word, isWord_brace.1, hval.word, isWord_brace.2⟩⟩

/-- So can those of items. -/
theorem itemsLines_readable (step : String) (hstep : Blank step) :
    ∀ (items : List Item) (indent : String), Blank indent → ItemsWritable items →
      ∀ l ∈ itemsLines step indent items, l.Readable
  | [], _, _, _, l, hl => by
    rw [itemsLines] at hl
    exact absurd hl List.not_mem_nil
  | i :: items, indent, hindent, ⟨hi, hitems⟩, l, hl => by
    rw [itemsLines, List.mem_append] at hl
    rcases hl with hl | hl
    · exact Item.lines_readable step hstep i indent hindent hi l hl
    · exact itemsLines_readable step hstep items indent hindent hitems l hl

end

section Lines

variable (lines : List (List String)) (items : List Item) (stack : List (Opener × List Item))

/-- A line with an item. -/
theorem parseLines_of_item {line : List String} {i : Item} (h : classify line = .item i) :
    parseLines (line :: lines) items stack = parseLines lines (items ++ [i]) stack := by
  rw [parseLines.eq_def]
  simp only [h]

/-- A line that opens an item. -/
theorem parseLines_of_opens {line : List String} {o : Opener} (h : classify line = .opens o) :
    parseLines (line :: lines) items stack = parseLines lines [] ((o, items) :: stack) := by
  rw [parseLines.eq_def]
  simp only [h]

/-- A line that closes one. -/
theorem parseLines_brace (o : Opener) (outer : List Item) :
    parseLines (["\x7d"] :: lines) items ((o, outer) :: stack)
      = parseLines lines (outer ++ [o.close items]) stack := by
  rw [parseLines.eq_def]
  simp only [classify, if_true]

end Lines

mutual

/-- The lines of an item are read as that item. -/
theorem parseLines_item (step : String) :
    ∀ (i : Item) (indent : String) (rest : List (List String)) (before : List Item)
      (stack : List (Opener × List Item)), i.Writable →
      parseLines ((i.lines step indent).map Line.words ++ rest) before stack
        = parseLines rest (before ++ [i]) stack
  | .leaf key val, indent, rest, before, stack, ⟨hkey, hval⟩ => by
    rw [Item.lines]
    split
    · rename_i hnone
      rw [hnone]
      exact parseLines_of_item rest before stack (if_neg hkey.ne_close)
    · rename_i hne
      -- two words: no block is opened, and no device is named
      obtain ⟨hv, hdev⟩ := hval hne
      apply parseLines_of_item
      rw [classify, if_neg hv.ne_open, if_neg hdev]
  | .block key items, indent, rest, before, stack, ⟨_, hitems⟩ => by
    -- it is opened, its items are read on the stack, and it is closed
    rw [Item.lines, List.cons_append, List.map_cons, List.map_append, List.cons_append,
      List.append_assoc, parseLines_of_opens _ _ _ (classify_block key),
      parseLines_items step items _ _ _ _ hitems]
    exact parseLines_brace rest items stack (.block key) before
  | .devName name, indent, rest, before, stack, hname => by
    rw [Item.lines]
    apply parseLines_of_item
    rw [classify, if_neg (IsToken.ne_open hname), if_pos rfl]
  | .dev name items, indent, rest, before, stack, ⟨_, hitems⟩ => by
    rw [Item.lines, List.cons_append, List.map_cons, List.map_append, List.cons_append,
      List.append_assoc, parseLines_of_opens _ _ _ (classify_dev name),
      parseLines_items step items _ _ _ _ hitems]
    exact parseLines_brace rest items stack (.dev name) before
  | .plugin name val, indent, rest, before, stack, _ => by
    rw [Item.lines]
    exact parseLines_of_item rest before stack (classify_plugin name val)

/-- And those of items as those items. -/
theorem parseLines_items (step : String) :
    ∀ (items : List Item) (indent : String) (rest : List (List String)) (before : List Item)
      (stack : List (Opener × List Item)), ItemsWritable items →
      parseLines ((itemsLines step indent items).map Line.words ++ rest) before stack
        = parseLines rest (before ++ items) stack
  | [], _, rest, before, stack, _ => by
    rw [itemsLines, List.map_nil, List.nil_append, List.append_nil]
  | i :: items, indent, rest, before, stack, ⟨hi, hitems⟩ => by
    rw [itemsLines, List.map_append, List.append_assoc,
      parseLines_item step i indent _ before stack hi,
      parseLines_items step items indent rest _ stack hitems, List.append_assoc]
    rfl

end

/-- **What is written is read back.** -/
theorem parseConf_textOf {step indent : String} (hstep : Blank step) (hindent : Blank indent)
    {items : List Item} (hitems : ItemsWritable items) :
    parseConf (textOf (itemsLines step indent items)) = some items := by
  unfold parseConf
  rw [readLines_textOf (itemsLines_readable step hstep items indent hindent hitems),
    parseLines_items step items indent _ _ _ hitems]
  rfl

end StartupConf
