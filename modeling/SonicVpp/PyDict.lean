/-
# Dictionaries and JSON values

Python dictionaries keep the order in which their keys were first set.  Here a dictionary is
the list of its entries; `setItem` changes a value in its place or adds the entry at the end.
A JSON value is what `json.loads` returns.

An expression that raises an exception is an `Except`; `Returns` says that it does not.
-/
import Mathlib

namespace PyDict

/-! ## Dictionaries -/

section Dict

variable {β : Type*}

/-- `d[key] = val`. -/
def setItem (key : String) (val : β) : List (String × β) → List (String × β)
  | [] => [(key, val)]
  | (k, v) :: d => if k = key then (k, val) :: d else (k, v) :: setItem key val d

/-- `d.pop(key, None)`. -/
def pop (key : String) (d : List (String × β)) : List (String × β) := d.filter fun e => e.1 ≠ key

/-- `dict(items)`. -/
def dictOf (items : List (String × β)) : List (String × β) :=
  items.foldl (fun d e => setItem e.1 e.2 d) []

/-- Reading the key that was set. -/
theorem lookup_setItem_self (key : String) (val : β) (d : List (String × β)) :
    (setItem key val d).lookup key = some val := by
  induction d with
  | nil => simp [setItem]
  | cons e d ih =>
    rw [setItem]
    by_cases hk : e.1 = key
    · rw [if_pos hk, ← hk]
      simp
    · rw [if_neg hk, List.lookup_cons]
      have hne : (key == e.1) = false := by simpa using Ne.symm hk
      rw [hne]
      exact ih

/-- Reading another key. -/
theorem lookup_setItem_of_ne {key k : String} (hne : k ≠ key) (val : β) (d : List (String × β)) :
    (setItem key val d).lookup k = d.lookup k := by
  induction d with
  | nil =>
    have hk : (k == key) = false := by simpa using hne
    simp [setItem, List.lookup_cons, hk]
  | cons e d ih =>
    rw [setItem]
    by_cases hk : e.1 = key
    · have hke : (k == e.1) = false := by simpa [hk] using hne
      rw [if_pos hk, List.lookup_cons, List.lookup_cons, hke]
    · rw [if_neg hk, List.lookup_cons, List.lookup_cons, ih]

/-- Setting what is there changes nothing. -/
theorem setItem_of_lookup {key : String} {val : β} {d : List (String × β)}
    (h : d.lookup key = some val) : setItem key val d = d := by
  induction d with
  | nil => cases h
  | cons e d ih =>
    rw [setItem]
    by_cases hk : e.1 = key
    · rw [List.lookup_cons, hk, beq_self_eq_true] at h
      obtain rfl := Option.some.inj h
      rw [if_pos hk]
    · have hke : (key == e.1) = false := by simpa using Ne.symm hk
      rw [List.lookup_cons, hke] at h
      rw [if_neg hk, ih h]

/-- A key that is not there is not taken out. -/
theorem pop_of_lookup_none {key : String} {d : List (String × β)} (h : d.lookup key = none) :
    pop key d = d := by
  unfold pop
  rw [List.filter_eq_self]
  intro e he
  have hne : (key != e.1) = true := List.lookup_eq_none_iff.1 h e he
  exact decide_eq_true (Ne.symm (by simpa using hne))

/-- A key that was set is not set twice. -/
theorem setItem_keys (key : String) (val : β) (d : List (String × β)) :
    (setItem key val d).map Prod.fst
      = if key ∈ d.map Prod.fst then d.map Prod.fst else d.map Prod.fst ++ [key] := by
  induction d with
  | nil => rfl
  | cons e d ih =>
    rw [setItem]
    by_cases hk : e.1 = key
    · simp [hk]
    · rw [if_neg hk, List.map_cons, ih]
      by_cases hmem : key ∈ d.map Prod.fst
      · rw [if_pos hmem, List.map_cons, if_pos (List.mem_cons_of_mem _ hmem)]
      · rw [if_neg hmem, List.map_cons, if_neg, List.cons_append]
        rintro (- | ⟨-, h⟩)
        · exact hk rfl
        · exact hmem h

theorem setItem_nodup (key : String) (val : β) {d : List (String × β)}
    (h : (d.map Prod.fst).Nodup) : ((setItem key val d).map Prod.fst).Nodup := by
  rw [setItem_keys]
  split
  · exact h
  · rename_i hmem
    exact List.nodup_append_comm.1 (List.nodup_cons.2 ⟨hmem, h⟩)

/-- A dictionary has each of its keys once. -/
theorem dictOf_nodup (items : List (String × β)) : ((dictOf items).map Prod.fst).Nodup := by
  have hloop : ∀ (items d : List (String × β)), (d.map Prod.fst).Nodup →
      ((items.foldl (fun d e => setItem e.1 e.2 d) d).map Prod.fst).Nodup := by
    intro items
    induction items with
    | nil => exact fun d h => h
    | cons e items ih =>
      intro d h
      apply ih
      exact setItem_nodup e.1 e.2 h
  exact hloop items [] List.nodup_nil

theorem eq_or_mem_of_mem_setItem {key : String} {val : β} {d : List (String × β)}
    {e : String × β} (h : e ∈ setItem key val d) : e = (key, val) ∨ e ∈ d := by
  induction d with
  | nil => simpa [setItem] using h
  | cons x d ih =>
    rw [setItem] at h
    split at h
    · rename_i hk
      rcases List.mem_cons.1 h with rfl | h
      · exact Or.inl (by rw [← hk])
      · exact Or.inr (List.mem_cons_of_mem _ h)
    · rcases List.mem_cons.1 h with rfl | h
      · exact Or.inr List.mem_cons_self
      · rcases ih h with h | h
        · exact Or.inl h
        · exact Or.inr (List.mem_cons_of_mem _ h)

/-- The entries of a dictionary are those that it was made of. -/
theorem mem_of_mem_dictOf {items : List (String × β)} {e : String × β} (he : e ∈ dictOf items) :
    e ∈ items := by
  have hloop : ∀ (items d : List (String × β)),
      e ∈ items.foldl (fun d x => setItem x.1 x.2 d) d → e ∈ items ∨ e ∈ d := by
    intro items
    induction items with
    | nil => exact fun d h => Or.inr h
    | cons x items ih =>
      intro d h
      rcases ih _ h with h | h
      · exact Or.inl (List.mem_cons_of_mem _ h)
      · rcases eq_or_mem_of_mem_setItem h with rfl | h
        · exact Or.inl List.mem_cons_self
        · exact Or.inr h
  rcases hloop items [] he with h | h
  · exact h
  · cases h

/-- What is read from a dictionary is one of its entries. -/
theorem mem_of_lookup {key : String} {val : β} {d : List (String × β)}
    (h : d.lookup key = some val) : (key, val) ∈ d := by
  induction d with
  | nil => cases h
  | cons e d ih =>
    rw [List.lookup_cons] at h
    by_cases hk : key = e.1
    · rw [hk, beq_self_eq_true] at h
      obtain rfl := Option.some.inj h
      rw [hk]
      exact List.mem_cons_self
    · have hke : (key == e.1) = false := by simpa using hk
      rw [hke] at h
      exact List.mem_cons_of_mem _ (ih h)

/-- The entries after a key was set. -/
theorem mem_setItem {key : String} {val : β} {d : List (String × β)}
    (hd : (d.map Prod.fst).Nodup) {e : String × β} :
    e ∈ setItem key val d ↔ e = (key, val) ∨ (e ∈ d ∧ e.1 ≠ key) := by
  induction d with
  | nil => simp [setItem]
  | cons x d ih =>
    rw [List.map_cons, List.nodup_cons] at hd
    rw [setItem]
    by_cases hk : x.1 = key
    · rw [if_pos hk, List.mem_cons, List.mem_cons, hk]
      have hother : e ∈ d → e.1 ≠ key := by
        intro he heq
        exact hd.1 (hk ▸ heq ▸ List.mem_map_of_mem he)
      constructor
      · rintro (he | he)
        · exact Or.inl he
        · exact Or.inr ⟨Or.inr he, hother he⟩
      · rintro (he | ⟨rfl | he, hne⟩)
        · exact Or.inl he
        · exact absurd hk hne
        · exact Or.inr he
    · rw [if_neg hk, List.mem_cons, List.mem_cons, ih hd.2]
      constructor
      · rintro (rfl | he | ⟨he, hne⟩)
        · exact Or.inr ⟨Or.inl rfl, hk⟩
        · exact Or.inl he
        · exact Or.inr ⟨Or.inr he, hne⟩
      · rintro (he | ⟨rfl | he, hne⟩)
        · exact Or.inr (Or.inl he)
        · exact Or.inl rfl
        · exact Or.inr (Or.inr ⟨he, hne⟩)

/-! ### A part of a dictionary

`view drop g d` leaves the keys in `drop` out and shows every other value `v` as `g key v`. -/

/-- What is seen of a dictionary. -/
def view (drop : String → Bool) (g : String → β → β) (d : List (String × β)) :
    List (String × β) :=
  (d.filter fun e => !drop e.1).map fun e => (e.1, g e.1 e.2)

variable {drop : String → Bool} {g : String → β → β}

theorem view_cons_of_drop {k : String} (hdrop : drop k = true) (v : β) (d : List (String × β)) :
    view drop g ((k, v) :: d) = view drop g d := by
  simp [view, hdrop]

theorem view_cons {k : String} (hdrop : drop k = false) (v : β) (d : List (String × β)) :
    view drop g ((k, v) :: d) = (k, g k v) :: view drop g d := by
  simp [view, hdrop]

/-- Reading a key that is seen. -/
theorem lookup_view {key : String} (hkey : drop key = false) (d : List (String × β)) :
    (view drop g d).lookup key = (d.lookup key).map (g key) := by
  induction d with
  | nil => rfl
  | cons e d ih =>
    obtain ⟨k, v⟩ := e
    cases hdrop : drop k with
    | true =>
      have hke : (key == k) = false := by
        simp only [beq_eq_false_iff_ne]
        rintro rfl
        exact Bool.false_ne_true (hkey.symm.trans hdrop)
      rw [view_cons_of_drop hdrop, ih, List.lookup_cons, hke]
    | false =>
      rw [view_cons hdrop, List.lookup_cons, List.lookup_cons, ih]
      by_cases hk : key = k
      · simp [hk]
      · have hke : (key == k) = false := by simpa using hk
        simp [hke]

/-- Setting a key that is not seen. -/
theorem view_setItem_of_drop {key : String} (hkey : drop key = true) (val : β)
    (d : List (String × β)) : view drop g (setItem key val d) = view drop g d := by
  induction d with
  | nil => rw [setItem, view_cons_of_drop hkey]
  | cons e d ih =>
    obtain ⟨k, v⟩ := e
    rw [setItem]
    split
    · rename_i hk
      have hdrop : drop k = true := by rw [hk, hkey]
      rw [view_cons_of_drop hdrop, view_cons_of_drop hdrop]
    · cases hdrop : drop k with
      | true => rw [view_cons_of_drop hdrop, view_cons_of_drop hdrop, ih]
      | false => rw [view_cons hdrop, view_cons hdrop, ih]

/-- Setting a key that is seen. -/
theorem view_setItem {key : String} (hkey : drop key = false) (val : β) (d : List (String × β)) :
    view drop g (setItem key val d) = setItem key (g key val) (view drop g d) := by
  induction d with
  | nil => rw [setItem, view_cons hkey]; rfl
  | cons e d ih =>
    obtain ⟨k, v⟩ := e
    rw [setItem]
    by_cases hk : k = key
    · have hdrop : drop k = false := by rw [hk, hkey]
      rw [if_pos hk, view_cons hdrop, view_cons hdrop, setItem, if_pos hk, hk]
    · rw [if_neg hk]
      cases hdrop : drop k with
      | true => rw [view_cons_of_drop hdrop, view_cons_of_drop hdrop, ih]
      | false => rw [view_cons hdrop, view_cons hdrop, setItem, if_neg hk, ih]

/-- Taking out a key that is not seen. -/
theorem view_pop {key : String} (hkey : drop key = true) (d : List (String × β)) :
    view drop g (pop key d) = view drop g d := by
  unfold view pop
  rw [List.filter_filter]
  congr 1
  apply List.filter_congr
  intro e _
  by_cases hk : e.1 = key
  · simp [hk, hkey]
  · simp [hk]

/-- A value that is seen as another one was is set without being noticed. -/
theorem view_setItem_of_eq {key : String} {val old : β} {d : List (String × β)}
    (hold : d.lookup key = some old) (heq : g key val = g key old) :
    view drop g (setItem key val d) = view drop g d := by
  cases hkey : drop key with
  | true => exact view_setItem_of_drop hkey val d
  | false =>
    rw [view_setItem hkey]
    apply setItem_of_lookup
    rw [lookup_view hkey, hold, heq]
    rfl

/-- What is an entry of a dictionary is read from it. -/
theorem lookup_of_mem {d : List (String × β)} (hd : (d.map Prod.fst).Nodup) {e : String × β}
    (he : e ∈ d) : d.lookup e.1 = some e.2 := by
  induction d with
  | nil => cases he
  | cons x d ih =>
    rw [List.map_cons, List.nodup_cons] at hd
    rw [List.lookup_cons]
    rcases List.mem_cons.1 he with rfl | he
    · simp
    · have hne : (e.1 == x.1) = false := by
        simp only [beq_eq_false_iff_ne]
        intro heq
        exact hd.1 (heq ▸ List.mem_map_of_mem he)
      rw [hne]
      exact ih hd.2 he

/-- What holds of every entry after a value was replaced. -/
theorem forall_mem_setItem {key : String} {val old : β} {d : List (String × β)}
    (hd : (d.map Prod.fst).Nodup) (hold : d.lookup key = some old) {P Q : String × β → Prop}
    (hkey : P (key, val) ↔ Q (key, old)) (hother : ∀ e, e.1 ≠ key → (P e ↔ Q e)) :
    (∀ e ∈ setItem key val d, P e) ↔ ∀ e ∈ d, Q e := by
  constructor
  · intro h e he
    by_cases hk : e.1 = key
    · have heq : e = (key, old) := by
        have hlook := lookup_of_mem hd he
        rw [hk, hold] at hlook
        exact Prod.ext hk (Option.some.inj hlook).symm
      rw [heq]
      exact hkey.1 (h _ ((mem_setItem hd).2 (Or.inl rfl)))
    · exact (hother e hk).1 (h e ((mem_setItem hd).2 (Or.inr ⟨he, hk⟩)))
  · intro h e he
    rcases (mem_setItem hd).1 he with rfl | ⟨he, hk⟩
    · exact hkey.2 (h _ (mem_of_lookup hold))
    · exact (hother e hk).2 (h e he)

/-- A dictionary that shows all that it has. -/
theorem view_eq_self {d : List (String × β)} (hd : (d.map Prod.fst).Nodup)
    (h : ∀ key val, d.lookup key = some val → drop key = false ∧ g key val = val) :
    view drop g d = d := by
  have hall : ∀ e ∈ d, drop e.1 = false ∧ g e.1 e.2 = e.2 :=
    fun e he => h e.1 e.2 (lookup_of_mem hd he)
  clear h hd
  induction d with
  | nil => rfl
  | cons e d ih =>
    obtain ⟨hdrop, hg⟩ := hall e List.mem_cons_self
    obtain ⟨k, v⟩ := e
    rw [view_cons hdrop, ih fun x hx => hall x (List.mem_cons_of_mem _ hx), hg]

/-- Reading another key than the one that is taken out. -/
theorem lookup_pop_of_ne {key k : String} (hne : k ≠ key) (d : List (String × β)) :
    (pop key d).lookup k = d.lookup k := by
  induction d with
  | nil => rfl
  | cons e d ih =>
    unfold pop at ih ⊢
    rw [List.filter_cons]
    by_cases hk : e.1 = key
    · have hke : (k == e.1) = false := by simpa [hk] using hne
      rw [if_neg (by simpa using hk), ih, List.lookup_cons, hke]
    · rw [if_pos (by simpa using hk), List.lookup_cons, List.lookup_cons, ih]

/-- Reading the key that was taken out. -/
theorem lookup_pop_self (key : String) (d : List (String × β)) : (pop key d).lookup key = none := by
  rw [List.lookup_eq_none_iff]
  intro e he
  have hne : e.1 ≠ key := by simpa using List.of_mem_filter he
  simpa using hne.symm

end Dict

/-! ## JSON values -/

/-- A value that `json.loads` returns.  A number is kept as its text, and whether it is 0. -/
inductive Json
  | null
  | bool (b : Bool)
  | num (text : String) (isZero : Bool)
  | str (s : String)
  | arr (items : List Json)
  | obj (fields : List (String × Json))

/-- `bool(val)`. -/
def Json.truthy : Json → Bool
  | .null => false
  | .bool b => b
  | .num _ isZero => !isZero
  | .str s => s ≠ ""
  | .arr items => !items.isEmpty
  | .obj fields => !fields.isEmpty

/-- `isinstance(val, str)`. -/
def Json.isStr : Json → Bool
  | .str _ => true
  | _ => false

/-- The exceptions that operators of Python raise on a value of another type than expected,
and on a missing key, and `Exception` itself. -/
inductive PyError
  | typeError
  | attributeError
  | keyError
  | valueError
  | exception
  deriving DecidableEq, Repr

/-- `key in val`. -/
def pyIn (key : String) : Json → Except PyError Bool
  | .obj fields => .ok (fields.lookup key).isSome
  | .str s => .ok (key.toList <:+: s.toList)
  | .arr items => .ok (items.any fun item => match item with | .str s => s = key | _ => false)
  | _ => .error .typeError

/-- `val[key]`, for a key that is a string. -/
def getItem (key : String) : Json → Except PyError Json
  | .obj fields =>
    match fields.lookup key with
    | some val => .ok val
    | none => .error .keyError
  | _ => .error .typeError

/-- `val.items()`. -/
def pyItems : Json → Except PyError (List (String × Json))
  | .obj fields => .ok fields
  | _ => .error .attributeError

/-- `a + val` and `val + a`, for a string `a`: the string in `val`. -/
def pyStr : Json → Except PyError String
  | .str s => .ok s
  | _ => .error .typeError

/-- What is seen of a value: of a dictionary the keys and values as `view` shows them. -/
def Json.view (drop : String → Bool) (g : String → Json → Json) : Json → Json
  | .obj fields => .obj (PyDict.view drop g fields)
  | val => val

mutual

/-- A dictionary, the dictionaries that are its values and so on have distinct keys. -/
def Json.DistinctKeys : Json → Prop
  | .obj fields => (fields.map Prod.fst).Nodup ∧ DistinctFields fields
  | _ => True

/-- The dictionaries among the values of a dictionary have distinct keys. -/
def DistinctFields : List (String × Json) → Prop
  | [] => True
  | (_, val) :: fields => val.DistinctKeys ∧ DistinctFields fields

end

theorem distinctFields_iff (fields : List (String × Json)) :
    DistinctFields fields ↔ ∀ e ∈ fields, e.2.DistinctKeys := by
  induction fields with
  | nil => simp [DistinctFields]
  | cons e fields ih => simp [DistinctFields, ih]

/-- A value of a dictionary. -/
theorem DistinctFields.lookup {fields : List (String × Json)} (h : DistinctFields fields)
    {key : String} {val : Json} (hval : fields.lookup key = some val) : val.DistinctKeys := by
  rw [distinctFields_iff] at h
  exact h (key, val) (mem_of_lookup hval)

/-- Setting a value keeps the keys distinct. -/
theorem distinctKeys_setItem {fields : List (String × Json)} {key : String} {val : Json}
    (h : (Json.obj fields).DistinctKeys) (hval : val.DistinctKeys) :
    (Json.obj (setItem key val fields)).DistinctKeys := by
  obtain ⟨hkeys, hfields⟩ := h
  refine ⟨setItem_nodup key val hkeys, ?_⟩
  rw [distinctFields_iff] at hfields ⊢
  intro e he
  rcases (mem_setItem hkeys).1 he with rfl | ⟨he', -⟩
  · exact hval
  · exact hfields e he'

/-- So does taking a key out. -/
theorem distinctKeys_pop {fields : List (String × Json)} (key : String)
    (h : (Json.obj fields).DistinctKeys) : (Json.obj (pop key fields)).DistinctKeys := by
  obtain ⟨hkeys, hfields⟩ := h
  refine ⟨hkeys.sublist ((List.filter_sublist ..).map _), ?_⟩
  rw [distinctFields_iff] at hfields ⊢
  intro e he
  exact hfields e (List.mem_of_mem_filter he)

/-! ## Exceptions -/

/-- No exception is raised. -/
def Returns {ε α : Type} (x : Except ε α) : Prop := ∃ a, x = .ok a

/-- A sequence of two statements that returned. -/
theorem bind_eq_ok {ε α γ : Type} {x : Except ε α} {f : α → Except ε γ} {c : γ} :
    (x >>= f) = .ok c ↔ ∃ a, x = .ok a ∧ f a = .ok c := by
  cases x with
  | error e =>
    constructor
    · intro h
      cases h
    · rintro ⟨a, ha, -⟩
      cases ha
  | ok a =>
    constructor
    · intro h
      exact ⟨a, rfl, h⟩
    · rintro ⟨a', ha, h⟩
      cases ha
      exact h

/-- Two statements: the first returns, and the second does with its value. -/
theorem returns_bind {ε α γ : Type} {x : Except ε α} {f : α → Except ε γ} :
    Returns (x >>= f) ↔ ∃ a, x = .ok a ∧ Returns (f a) := by
  constructor
  · rintro ⟨c, hc⟩
    obtain ⟨a, ha, hf⟩ := bind_eq_ok.1 hc
    exact ⟨a, ha, c, hf⟩
  · rintro ⟨a, ha, c, hf⟩
    exact ⟨c, bind_eq_ok.2 ⟨a, ha, hf⟩⟩

/-! ### Steps that may raise

A step `step s a` returns the next state or raises.  `Along step P s as` says that `P` holds of
every action of the run `as` in the state in which it is taken, up to a step that raises. -/

section Along

variable {ε σ α : Type} (step : σ → α → Except ε σ)

/-- A property of every step that is taken. -/
def Along (P : σ → α → Prop) : σ → List α → Prop
  | _, [] => True
  | s, a :: as => P s a ∧ ∀ s', step s a = .ok s' → Along P s' as

/-- A run returns as long as every step does. -/
theorem returns_foldlM_iff {s : σ} {as : List α} :
    Returns (as.foldlM step s) ↔ Along step (fun s a => Returns (step s a)) s as := by
  induction as generalizing s with
  | nil => exact ⟨fun _ => trivial, fun _ => ⟨s, rfl⟩⟩
  | cons a as ih =>
    rw [List.foldlM_cons, returns_bind]
    constructor
    · rintro ⟨s', hs', hrest⟩
      refine ⟨⟨s', hs'⟩, fun s'' hs'' => ?_⟩
      rw [hs'] at hs''
      cases hs''
      exact ih.1 hrest
    · rintro ⟨⟨s', hs'⟩, hrest⟩
      exact ⟨s', hs', ih.2 (hrest s' hs')⟩

variable {step}

/-- Two properties that agree wherever the invariant holds are met along the same runs. -/
theorem along_iff_of_invariant (ok : α → Prop) (inv : σ → Prop) {P Q : σ → α → Prop}
    (hiff : ∀ s a, inv s → ok a → (P s a ↔ Q s a))
    (hstep : ∀ s a s', inv s → ok a → step s a = .ok s' → inv s') :
    ∀ {as : List α} {s : σ}, inv s → (∀ a ∈ as, ok a) → (Along step P s as ↔ Along step Q s as) := by
  intro as
  induction as with
  | nil => intro s _ _; exact Iff.rfl
  | cons a as ih =>
    intro s hs hok
    have ha : ok a := hok a List.mem_cons_self
    have hrest : ∀ s', step s a = .ok s' → (Along step P s' as ↔ Along step Q s' as) :=
      fun s' hs' => ih (hstep s a s' hs ha hs') fun b hb => hok b (List.mem_cons_of_mem _ hb)
    constructor
    · rintro ⟨hP, h⟩
      exact ⟨(hiff s a hs ha).1 hP, fun s' hs' => (hrest s' hs').1 (h s' hs')⟩
    · rintro ⟨hQ, h⟩
      exact ⟨(hiff s a hs ha).2 hQ, fun s' hs' => (hrest s' hs').2 (h s' hs')⟩

end Along

theorem returns_ok {ε α : Type} (a : α) : Returns (.ok a : Except ε α) := ⟨a, rfl⟩

theorem not_returns_error {ε α : Type} (e : ε) : ¬ Returns (.error e : Except ε α) := by
  rintro ⟨a, ha⟩
  cases ha

end PyDict
