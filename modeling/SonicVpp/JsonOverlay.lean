/-
# Overlays of JSON values

`v.over w` lays `v` over `w`: two dictionaries are merged key by key, and anything else in
`v` hides what `w` has in its place.  The keys of `w` keep their order, and the new ones
come after them.

What is where is said with paths.  The laws are for values of which one does not put a
dictionary where the other has something else (`Compatible`); for others `over` hides the
value of `w`, and a program may do something else.
-/
import SonicVpp.PyDict

namespace PyDict

/-! ## Induction on values -/

mutual

/-- A property of all values: of those that are no dictionaries, and of a dictionary if it
has it of its values. -/
theorem Json.byFields {P : Json → Prop} (leaf : ∀ v, (∀ f, v ≠ .obj f) → P v)
    (obj : ∀ f, (∀ e ∈ f, P e.2) → P (.obj f)) : ∀ v : Json, P v
  | .null => leaf _ (by simp)
  | .bool _ => leaf _ (by simp)
  | .num _ _ => leaf _ (by simp)
  | .str _ => leaf _ (by simp)
  | .arr _ => leaf _ (by simp)
  | .obj f => obj f (fieldsByFields leaf obj f)

/-- The same for the values of a dictionary. -/
theorem fieldsByFields {P : Json → Prop} (leaf : ∀ v, (∀ f, v ≠ .obj f) → P v)
    (obj : ∀ f, (∀ e ∈ f, P e.2) → P (.obj f)) : ∀ f : List (String × Json), ∀ e ∈ f, P e.2
  | [], _, he => absurd he List.not_mem_nil
  | (_, v) :: f, e, he => by
    rcases List.mem_cons.1 he with rfl | he
    · exact Json.byFields leaf obj v
    · exact fieldsByFields leaf obj f e he

end

/-! ## Dictionaries with the same keys -/

section Dict

variable {β : Type*}

/-- A key is in a dictionary if it can be read. -/
theorem lookup_isSome_iff {k : String} {d : List (String × β)} :
    (d.lookup k).isSome ↔ k ∈ d.map Prod.fst := by
  induction d with
  | nil => simp
  | cons e d ih =>
    rw [List.lookup_cons, List.map_cons, List.mem_cons]
    by_cases hk : k = e.1
    · simp [hk]
    · have hke : (k == e.1) = false := by simpa using hk
      rw [hke, ← ih]
      simp [hk]

/-- And if not, not. -/
theorem lookup_eq_none_iff_keys {k : String} {d : List (String × β)} :
    d.lookup k = none ↔ k ∉ d.map Prod.fst := by
  rw [← lookup_isSome_iff, Bool.not_eq_true, Option.isSome_eq_false_iff, Option.isNone_iff_eq_none]

/-- Two dictionaries with the same keys in the same order, and the same values. -/
theorem dict_ext {d d' : List (String × β)} (hnodup : (d.map Prod.fst).Nodup)
    (hkeys : d.map Prod.fst = d'.map Prod.fst) (hlook : ∀ k, d.lookup k = d'.lookup k) :
    d = d' := by
  induction d generalizing d' with
  | nil => exact (List.map_eq_nil_iff.1 hkeys.symm).symm
  | cons e d ih =>
    cases d' with
    | nil => exact absurd hkeys (by simp)
    | cons e' d' =>
      rw [List.map_cons, List.map_cons, List.cons.injEq] at hkeys
      rw [List.map_cons, List.nodup_cons] at hnodup
      have hval : e.2 = e'.2 := by
        have hfirst := hlook e.1
        rw [List.lookup_cons, List.lookup_cons, hkeys.1, beq_self_eq_true] at hfirst
        exact Option.some.inj hfirst
      -- the first key comes no second time, so the rests agree at all keys
      have hrest : ∀ k, d.lookup k = d'.lookup k := by
        intro k
        by_cases hk : k = e.1
        · subst hk
          rw [lookup_eq_none_iff_keys.2 hnodup.1,
            lookup_eq_none_iff_keys.2 (by rw [← hkeys.2]; exact hnodup.1)]
        · have hke : (k == e.1) = false := by simpa using hk
          have hke' : (k == e'.1) = false := by rw [← hkeys.1]; exact hke
          have hother := hlook k
          rw [List.lookup_cons, List.lookup_cons, hke, hke'] at hother
          exact hother
      rw [ih hnodup.2 hkeys.2 hrest, Prod.ext hkeys.1 hval]

end Dict

/-! ## Overlays -/

mutual

/-- `v` over `w`. -/
def Json.over : Json → Json → Json
  | .obj f, .obj g => .obj (overlay f g)
  | v, _ => v

/-- A dictionary over another one. -/
def overlay : List (String × Json) → List (String × Json) → List (String × Json)
  | [], g => g
  | (k, v) :: f, g =>
    overlay f (setItem k (match g.lookup k with | some w => v.over w | none => v) g)

end

/-- What stands at a key after one value there, if any, is laid over another. -/
def overAt : Option Json → Option Json → Option Json
  | some v, some w => some (v.over w)
  | some v, none => some v
  | none, w => w

theorem over_obj (f g : List (String × Json)) : (Json.obj f).over (.obj g) = .obj (overlay f g) := by
  rw [Json.over]

/-- What is no dictionary hides everything. -/
theorem over_of_not_obj {v : Json} (hv : ∀ f, v ≠ .obj f) (w : Json) : v.over w = v := by
  cases v with
  | obj f => exact absurd rfl (hv f)
  | null | bool | num | str | arr => rw [Json.over]; simp

/-- And a dictionary hides what is none. -/
theorem over_not_obj (v : Json) {w : Json} (hw : ∀ g, w ≠ .obj g) : v.over w = v := by
  cases w with
  | obj g => exact absurd rfl (hw g)
  | null | bool | num | str | arr => rw [Json.over]; simp

theorem overlay_cons (k : String) (v : Json) (f g : List (String × Json)) :
    overlay ((k, v) :: f) g = overlay f (setItem k ((overAt (some v) (g.lookup k)).getD v) g) := by
  rw [overlay]
  cases g.lookup k with
  | none => rfl
  | some w => rfl

/-- **The values of an overlay.** -/
theorem lookup_overlay {f : List (String × Json)} (hf : (f.map Prod.fst).Nodup) (k : String) :
    ∀ g : List (String × Json), (overlay f g).lookup k = overAt (f.lookup k) (g.lookup k) := by
  induction f with
  | nil =>
    intro g
    rw [overlay]
    rfl
  | cons e f ih =>
    intro g
    rw [List.map_cons, List.nodup_cons] at hf
    rw [overlay_cons, ih hf.2, List.lookup_cons]
    by_cases hk : k = e.1
    · subst hk
      rw [lookup_eq_none_iff_keys.2 hf.1, lookup_setItem_self, beq_self_eq_true]
      cases g.lookup e.1 with
      | none => rfl
      | some w => rfl
    · have hke : (k == e.1) = false := by simpa using hk
      rw [lookup_setItem_of_ne hk, hke]

/-- **The keys of an overlay**: those that were there, and then the new ones. -/
theorem keys_overlay {f : List (String × Json)} (hf : (f.map Prod.fst).Nodup) :
    ∀ g : List (String × Json), (overlay f g).map Prod.fst
      = g.map Prod.fst ++ (f.map Prod.fst).filter fun k => k ∉ g.map Prod.fst := by
  induction f with
  | nil =>
    intro g
    rw [overlay]
    simp
  | cons e f ih =>
    intro g
    rw [List.map_cons, List.nodup_cons] at hf
    rw [overlay_cons, ih hf.2, setItem_keys, List.map_cons]
    by_cases hmem : e.1 ∈ g.map Prod.fst
    · rw [if_pos hmem, List.filter_cons_of_neg (by simpa using hmem)]
    · rw [if_neg hmem, List.filter_cons_of_pos (by simpa using hmem), List.append_assoc]
      congr 2
      rw [List.singleton_append]
      congr 1
      apply List.filter_congr
      intro k hk
      have hne : k ≠ e.1 := by
        rintro rfl
        exact hf.1 hk
      simp [hne]

/-- An overlay has distinct keys. -/
theorem nodup_overlay {f g : List (String × Json)} (hf : (f.map Prod.fst).Nodup)
    (hg : (g.map Prod.fst).Nodup) : ((overlay f g).map Prod.fst).Nodup := by
  rw [keys_overlay hf]
  refine hg.append (hf.filter _) ?_
  intro k hk hk'
  exact absurd hk (by simpa using (List.mem_filter.1 hk').2)

/-- A key of an overlay is one of either. -/
theorem mem_keys_overlay {f : List (String × Json)} (hf : (f.map Prod.fst).Nodup)
    (g : List (String × Json)) (k : String) :
    k ∈ (overlay f g).map Prod.fst ↔ k ∈ f.map Prod.fst ∨ k ∈ g.map Prod.fst := by
  rw [keys_overlay hf, List.mem_append, List.mem_filter, decide_eq_true_eq]
  tauto

/-! ## Paths -/

/-- The value at a path of keys. -/
def Json.valueAt : List String → Json → Option Json
  | [], v => some v
  | k :: p, .obj f => (f.lookup k).bind (Json.valueAt p)
  | _ :: _, _ => none

/-- No path leads to a dictionary in `v` and to something else in `w`. -/
def Compatible (v w : Json) : Prop :=
  ∀ p f, v.valueAt p = some (.obj f) → ∀ u, w.valueAt p = some u → ∃ g, u = .obj g

theorem valueAt_nil (v : Json) : v.valueAt [] = some v := by
  cases v with
  | obj | null | bool | num | str | arr => rfl

theorem valueAt_cons_obj (k : String) (p : List String) (f : List (String × Json)) :
    (Json.obj f).valueAt (k :: p) = (f.lookup k).bind (Json.valueAt p) := rfl

/-- A path that leads on leads through a dictionary. -/
theorem valueAt_cons_eq_some {k : String} {p : List String} {v u : Json} :
    v.valueAt (k :: p) = some u ↔
      ∃ f v', v = .obj f ∧ f.lookup k = some v' ∧ v'.valueAt p = some u := by
  cases v with
  | obj f =>
    rw [valueAt_cons_obj, Option.bind_eq_some_iff]
    constructor
    · rintro ⟨v', hlook, hval⟩
      exact ⟨f, v', rfl, hlook, hval⟩
    · rintro ⟨f', v', hf, hlook, hval⟩
      cases hf
      exact ⟨v', hlook, hval⟩
  | null | bool | num | str | arr => simp [Json.valueAt]

/-- Under a dictionary there is one. -/
theorem Compatible.obj {f : List (String × Json)} {w : Json} (h : Compatible (.obj f) w) :
    ∃ g, w = .obj g :=
  h [] f (valueAt_nil _) w (valueAt_nil _)

/-- Values under the same key. -/
theorem Compatible.lookup {f g : List (String × Json)} (h : Compatible (.obj f) (.obj g))
    {k : String} {v w : Json} (hv : f.lookup k = some v) (hw : g.lookup k = some w) :
    Compatible v w := by
  intro p f' hp u hu
  apply h (k :: p) f'
  · rw [valueAt_cons_obj, hv]
    exact hp
  · rw [valueAt_cons_obj, hw]
    exact hu

/-- Dictionaries are compatible if their values are. -/
theorem compatible_obj {f g : List (String × Json)}
    (h : ∀ k v w, f.lookup k = some v → g.lookup k = some w → Compatible v w) :
    Compatible (.obj f) (.obj g) := by
  intro p f' hf u hu
  cases p with
  | nil =>
    rw [valueAt_nil] at hu
    exact ⟨g, (Option.some.inj hu).symm⟩
  | cons k p =>
    obtain ⟨_, v, hv, hlook, hval⟩ := valueAt_cons_eq_some.1 hf
    obtain ⟨_, w, hw, hlook', hval'⟩ := valueAt_cons_eq_some.1 hu
    cases hv
    cases hw
    exact h k v w hlook hlook' p f' hval u hval'

theorem Compatible.refl (v : Json) : Compatible v v := by
  intro p f hp u hu
  exact ⟨f, Option.some.inj (hu.symm.trans hp)⟩

/-- What stands at a key of an overlay. -/
theorem overAt_eq_some {v w : Option Json} {u : Json} (h : overAt v w = some u) :
    (∃ v', v = some v' ∧ w = none ∧ u = v') ∨ (v = none ∧ w = some u) ∨
      ∃ v' w', v = some v' ∧ w = some w' ∧ u = v'.over w' := by
  cases v with
  | none => exact Or.inr (Or.inl ⟨rfl, h⟩)
  | some v' =>
    cases w with
    | none => exact Or.inl ⟨v', rfl, rfl, (Option.some.inj h).symm⟩
    | some w' => exact Or.inr (Or.inr ⟨v', w', rfl, rfl, (Option.some.inj h).symm⟩)

/-- **What an overlay has at a path of the upper value**: that value, over what was there. -/
theorem valueAt_over {p : List String} :
    ∀ {v w u : Json}, v.DistinctKeys → Compatible v w → v.valueAt p = some u →
      (v.over w).valueAt p = overAt (some u) (w.valueAt p) := by
  induction p with
  | nil =>
    intro v w u _ _ hu
    rw [valueAt_nil] at hu
    obtain rfl := Option.some.inj hu
    rw [valueAt_nil, valueAt_nil]
    rfl
  | cons k p ih =>
    intro v w u hv hcompat hu
    obtain ⟨f, v', rfl, hlook, hval⟩ := valueAt_cons_eq_some.1 hu
    obtain ⟨g, rfl⟩ := hcompat.obj
    rw [over_obj, valueAt_cons_obj, valueAt_cons_obj, lookup_overlay hv.1, hlook]
    cases hw : g.lookup k with
    | none => exact hval
    | some w' => exact ih (hv.2.lookup hlook) (hcompat.lookup hlook hw) hval

/-- **And elsewhere**: what was there, unless it is below something that hides it. -/
theorem valueAt_over_of_none {p : List String} :
    ∀ {v w : Json}, v.DistinctKeys → Compatible v w → v.valueAt p = none →
      (∀ q, q <+: p → ∀ u, v.valueAt q = some u → ∃ f, u = .obj f) →
      (v.over w).valueAt p = w.valueAt p := by
  induction p with
  | nil =>
    intro v w _ _ hnone
    rw [valueAt_nil] at hnone
    exact absurd hnone (Option.some_ne_none v)
  | cons k p ih =>
    intro v w hv hcompat hnone hpath
    obtain ⟨f, rfl⟩ := hpath [] List.nil_prefix v (valueAt_nil v)
    obtain ⟨g, rfl⟩ := hcompat.obj
    rw [valueAt_cons_obj] at hnone
    rw [over_obj, valueAt_cons_obj, valueAt_cons_obj, lookup_overlay hv.1]
    cases hlook : f.lookup k with
    | none => rfl
    | some v' =>
      rw [hlook] at hnone
      cases hw : g.lookup k with
      | none => exact hnone
      | some w' =>
        refine ih (hv.2.lookup hlook) (hcompat.lookup hlook hw) hnone ?_
        intro q hq u hu
        apply hpath (k :: q) (List.cons_prefix_cons.2 ⟨rfl, hq⟩)
        rw [valueAt_cons_obj, hlook]
        exact hu

/-! ## Laws -/

/-- Overlays of values with distinct keys have distinct keys. -/
theorem distinctKeys_over (v : Json) :
    ∀ {w : Json}, v.DistinctKeys → w.DistinctKeys → (v.over w).DistinctKeys := by
  induction v using Json.byFields with
  | leaf v hleaf =>
    intro w hv _
    rw [over_of_not_obj hleaf]
    exact hv
  | obj f ih =>
    intro w hv hw
    cases w with
    | obj g =>
      rw [over_obj]
      refine ⟨nodup_overlay hv.1 hw.1, ?_⟩
      rw [distinctFields_iff]
      intro e he
      have hlook := lookup_of_mem (nodup_overlay hv.1 hw.1) he
      rw [lookup_overlay hv.1] at hlook
      rcases overAt_eq_some hlook with ⟨v', hv', -, heq⟩ | ⟨-, hw'⟩ | ⟨v', w', hv', hw', heq⟩
      · rw [heq]
        exact hv.2.lookup hv'
      · exact hw.2.lookup hw'
      · rw [heq]
        exact ih _ (mem_of_lookup hv') (hv.2.lookup hv') (hw.2.lookup hw')
    | null | bool | num | str | arr =>
      rw [over_not_obj _ (by simp)]
      exact hv

/-- A value laid over itself. -/
theorem over_self (v : Json) : v.DistinctKeys → v.over v = v := by
  induction v using Json.byFields with
  | leaf v hleaf =>
    intro _
    exact over_of_not_obj hleaf v
  | obj f ih =>
    intro hv
    rw [over_obj]
    congr 1
    apply dict_ext (nodup_overlay hv.1 hv.1)
    · rw [keys_overlay hv.1, List.filter_eq_nil_iff.2 (by simp), List.append_nil]
    · intro k
      rw [lookup_overlay hv.1]
      cases hlook : f.lookup k with
      | none => rfl
      | some v' =>
        show some (v'.over v') = some v'
        rw [ih _ (mem_of_lookup hlook) (hv.2.lookup hlook)]

/-- **Laying the same value over it again changes nothing.** -/
theorem over_idem (v : Json) :
    ∀ {w : Json}, v.DistinctKeys → w.DistinctKeys → v.over (v.over w) = v.over w := by
  induction v using Json.byFields with
  | leaf v hleaf =>
    intro w _ _
    rw [over_of_not_obj hleaf, over_of_not_obj hleaf]
  | obj f ih =>
    intro w hv hw
    by_cases hobj : ∃ g, w = .obj g
    · obtain ⟨g, rfl⟩ := hobj
      have hnodup := nodup_overlay hv.1 hw.1
      rw [over_obj, over_obj]
      congr 1
      -- the second overlay finds all its keys, and writes what is there
      apply dict_ext (nodup_overlay hv.1 hnodup)
      · rw [keys_overlay hv.1 (overlay f g), List.filter_eq_nil_iff.2, List.append_nil]
        intro k hk
        simpa using (mem_keys_overlay hv.1 g k).2 (Or.inl hk)
      · intro k
        rw [lookup_overlay hv.1, lookup_overlay hv.1]
        cases hlook : f.lookup k with
        | none => rfl
        | some v' =>
          cases hw' : g.lookup k with
          | none =>
            show some (v'.over v') = some v'
            rw [over_self v' (hv.2.lookup hlook)]
          | some w' =>
            show some (v'.over (v'.over w')) = some (v'.over w')
            rw [ih _ (mem_of_lookup hlook) (hv.2.lookup hlook) (hw.2.lookup hw')]
    · rw [over_not_obj (.obj f) (not_exists.1 hobj)]
      exact over_self _ hv

/-- **One value after the other is both at once.** -/
theorem over_over (b : Json) :
    ∀ {a o : Json}, b.DistinctKeys → a.DistinctKeys → o.DistinctKeys → Compatible a o →
      Compatible b a → Compatible b o → b.over (a.over o) = (b.over a).over o := by
  induction b using Json.byFields with
  | leaf b hleaf =>
    intro a o _ _ _ _ _ _
    rw [over_of_not_obj hleaf, over_of_not_obj hleaf, over_of_not_obj hleaf]
  | obj fb ih =>
    intro a o hb ha ho hao hba hbo
    obtain ⟨fa, rfl⟩ := hba.obj
    obtain ⟨fo, rfl⟩ := hbo.obj
    have hab := nodup_overlay hb.1 ha.1
    have hao' := nodup_overlay ha.1 ho.1
    rw [over_obj, over_obj, over_obj, over_obj]
    congr 1
    apply dict_ext (nodup_overlay hb.1 hao')
    · -- the keys of `o`, the new ones of `a`, and those of `b` that are in neither
      rw [keys_overlay hb.1, keys_overlay ha.1, keys_overlay hab, keys_overlay hb.1,
        List.filter_append, List.filter_filter, List.append_assoc]
      congr 2
      apply List.filter_congr
      intro k _
      apply Bool.eq_iff_iff.2
      simp only [Bool.and_eq_true, decide_eq_true_eq, List.mem_append, List.mem_filter]
      tauto
    · intro k
      rw [lookup_overlay hb.1, lookup_overlay ha.1, lookup_overlay hab, lookup_overlay hb.1]
      -- a key that one of the three has not is as in the other two
      cases hlb : fb.lookup k with
      | none => rfl
      | some vb =>
        cases hla : fa.lookup k with
        | none => rfl
        | some va =>
          cases hlo : fo.lookup k with
          | none => rfl
          | some vo =>
            show some (vb.over (va.over vo)) = some ((vb.over va).over vo)
            rw [ih _ (mem_of_lookup hlb) (hb.2.lookup hlb) (ha.2.lookup hla) (ho.2.lookup hlo)
              (hao.lookup hla hlo) (hba.lookup hlb hla) (hbo.lookup hlb hlo)]

/-- What is laid over a value does not put a dictionary in the place of something else. -/
theorem Compatible.over_left {b a o : Json} (hb : b.DistinctKeys) (hao : Compatible a o)
    (hba : Compatible b a) (hbo : Compatible b o) : Compatible (b.over a) o := by
  intro p
  induction p generalizing b a o with
  | nil =>
    intro f hf u hu
    by_cases hobj : ∃ fb, b = .obj fb
    · obtain ⟨fb, rfl⟩ := hobj
      exact hbo [] fb (valueAt_nil _) u hu
    · rw [over_of_not_obj (not_exists.1 hobj), valueAt_nil] at hf
      exact absurd ⟨f, Option.some.inj hf⟩ hobj
  | cons k p ih =>
    intro f hf u hu
    by_cases hobj : ∃ fb, b = .obj fb
    · obtain ⟨fb, rfl⟩ := hobj
      obtain ⟨fa, rfl⟩ := hba.obj
      obtain ⟨fo, vo, rfl, hlo, huo⟩ := valueAt_cons_eq_some.1 hu
      rw [over_obj] at hf
      obtain ⟨fab, vab, hfab, hlook, hval⟩ := valueAt_cons_eq_some.1 hf
      cases hfab
      rw [lookup_overlay hb.1] at hlook
      rcases overAt_eq_some hlook with ⟨vb, hlb, -, rfl⟩ | ⟨-, hla⟩ | ⟨vb, va, hlb, hla, rfl⟩
      · exact hbo.lookup hlb hlo p f hval u huo
      · exact hao.lookup hla hlo p f hval u huo
      · exact ih (hb.2.lookup hlb) (hao.lookup hla hlo) (hba.lookup hlb hla) (hbo.lookup hlb hlo) f
          hval u huo
    · rw [over_of_not_obj (not_exists.1 hobj)] at hf
      obtain ⟨fb, -, hfb, -⟩ := valueAt_cons_eq_some.1 hf
      exact absurd ⟨fb, hfb⟩ hobj

/-- And what may be laid over two values may be laid over both. -/
theorem Compatible.over_right {b a o : Json} (ha : a.DistinctKeys) (hao : Compatible a o)
    (hba : Compatible b a) (hbo : Compatible b o) : Compatible b (a.over o) := by
  intro p
  induction p generalizing b a o with
  | nil =>
    intro f hf u hu
    rw [valueAt_nil] at hf hu
    obtain rfl := Option.some.inj hf
    obtain rfl := Option.some.inj hu
    obtain ⟨fa, rfl⟩ := hba.obj
    obtain ⟨fo, rfl⟩ := hao.obj
    exact ⟨overlay fa fo, over_obj fa fo⟩
  | cons k p ih =>
    intro f hf u hu
    obtain ⟨fb, vb, rfl, hlb, hvb⟩ := valueAt_cons_eq_some.1 hf
    obtain ⟨fa, rfl⟩ := hba.obj
    obtain ⟨fo, rfl⟩ := hao.obj
    rw [over_obj] at hu
    obtain ⟨fao, vao, hfao, hlook, huao⟩ := valueAt_cons_eq_some.1 hu
    cases hfao
    rw [lookup_overlay ha.1] at hlook
    rcases overAt_eq_some hlook with ⟨va, hla, -, rfl⟩ | ⟨-, hlo⟩ | ⟨va, vo, hla, hlo, rfl⟩
    · exact hba.lookup hlb hla p f hvb u huao
    · exact hbo.lookup hlb hlo p f hvb u huao
    · exact ih (ha.2.lookup hla) (hao.lookup hla hlo) (hba.lookup hlb hla) (hbo.lookup hlb hlo) f
        hvb u huao

end PyDict
