/-
# The managers of `vppcfgd` and their queues

A `Manager` is about one table.  A SET that comes before everything it depends on is in the
`Directory` is put into the manager's queue, and so is one that its `set_handler` is not ready
for; the `Directory` calls `on_deps_change` when a value is put under a path that somebody has
subscribed to, and the queue is tried again.

What `set_handler` and `del_handler` do is left open: they have a state of their own, which all
managers share, and may raise.  They do not call the `Directory`.  The calls are recorded, so
that what happened to every SET can be said.
-/
import SonicVpp.PyDict

open PyDict

namespace VppCfgd

/-- The data of an event, as `dict(fvs)` makes it. -/
abbrev Data := List (String × String)

/-- `op`: `SET_COMMAND`, `DEL_COMMAND` or something else. -/
inductive Op
  | set
  | del
  | other (op : String)

/-- A dependency: `db, table, path`. -/
structure Dep where
  db : String
  table : String
  path : String

/-! ## The directory -/

/-- `Directory.data`: the dictionary of every slot. -/
abbrev Store := List (String × List (String × Json))

/-- `get_slot_name`. -/
def getSlotName (db table : String) : String := db ++ "__" ++ table

/-- The slot of a dependency. -/
def Dep.slot (dep : Dep) : String := getSlotName dep.db dep.table

/-- `path.split("/")`. -/
def splitPath (path : String) : List String := (path.toList.splitOn '/').map String.ofList

/-- The loop of `path_traverse`. -/
def traverse : List String → Json → Except PyError (Option Json)
  | [], d => .ok (some d)
  | p :: ps, d => do
    if ← pyIn p d then
      let d ← getItem p d
      traverse ps d
    else .ok none

/-- `path_traverse`. -/
def pathTraverse (data : Store) (slot path : String) : Except PyError (Option Json) :=
  match data.lookup slot with
  | none => .ok none
  | some d => if path = "" then .ok (some (.obj d)) else traverse (splitPath path) (.obj d)

/-- `path_exist`. -/
def pathExist (data : Store) (dep : Dep) : Except PyError Bool := do
  let found ← pathTraverse data dep.slot dep.path
  .ok found.isSome

/-- `available_deps`: after the first dependency that is missing no other one is looked up. -/
def availableDeps (data : Store) : List Dep → Except PyError Bool
  | [] => .ok true
  | dep :: deps => do
    if ← pathExist data dep then availableDeps data deps else .ok false

/-! ## Managers -/

/-- A `Manager`. -/
structure Manager where
  deps : List Dep
  setQueue : List (String × Data)

/-- A call of a handler, and what `set_handler` returned. -/
inductive Call
  | set (key : String) (data : Data) (res : Bool)
  | del (key : String)

/-- The state of the handlers, and the calls of all managers so far. -/
structure World (σ : Type) where
  state : σ
  calls : List (ℕ × Call)

/-- `set_handler` and `del_handler` of the managers. -/
structure Handlers (σ : Type) where
  setHandler : ℕ → σ → String → Data → Except PyError (Bool × σ)
  delHandler : ℕ → σ → String → Except PyError σ

section Manager

variable {σ : Type} (H : Handlers σ)

/-- A call of `set_handler`. -/
def callSet (id : ℕ) (w : World σ) (key : String) (data : Data) :
    Except PyError (Bool × World σ) := do
  let (res, state) ← H.setHandler id w.state key data
  .ok (res, ⟨state, w.calls ++ [(id, .set key data res)]⟩)

/-- `handler`. -/
def Manager.handler (store : Store) (id : ℕ) (m : Manager) (w : World σ) (key : String) (op : Op)
    (data : Data) : Except PyError (Manager × World σ) :=
  match op with
  | .set => do
    if ← availableDeps store m.deps then
      let (res, w) ← callSet H id w key data
      .ok (if res then m else { m with setQueue := m.setQueue ++ [(key, data)] }, w)
    else .ok ({ m with setQueue := m.setQueue ++ [(key, data)] }, w)
  | .del => do
    let state ← H.delHandler id w.state key
    .ok (m, ⟨state, w.calls ++ [(id, .del key)]⟩)
  | .other _ => .ok (m, w)

/-- The loop of `on_deps_change`, which collects the new queue. -/
def retryQueue (id : ℕ) : List (String × Data) → World σ →
    Except PyError (List (String × Data) × World σ)
  | [], w => .ok ([], w)
  | (key, data) :: queue, w => do
    let (res, w) ← callSet H id w key data
    let (newQueue, w) ← retryQueue id queue w
    .ok (if res then newQueue else (key, data) :: newQueue, w)

/-- `on_deps_change`. -/
def Manager.onDepsChange (store : Store) (id : ℕ) (m : Manager) (w : World σ) :
    Except PyError (Manager × World σ) := do
  if ← availableDeps store m.deps then
    let (queue, w) ← retryQueue H id m.setQueue w
    .ok ({ m with setQueue := queue }, w)
  else .ok (m, w)

end Manager

/-! ## The system -/

/-- The directory with its values and its subscriptions, the managers and their handlers.
`notify` has the managers to call, by slot and path. -/
structure System (σ : Type) where
  data : Store
  notify : List (String × List (String × List ℕ))
  managers : List Manager
  world : World σ

/-- `self.notify[slot][path].append(handler)`. -/
def subscribeDep (id : ℕ) (notify : List (String × List (String × List ℕ))) (dep : Dep) :
    List (String × List (String × List ℕ)) :=
  let paths := (notify.lookup dep.slot).getD []
  setItem dep.slot (setItem dep.path ((paths.lookup dep.path).getD [] ++ [id]) paths) notify

/-- A new manager subscribes to what it depends on. -/
def System.addManager {σ : Type} (s : System σ) (deps : List Dep) : System σ :=
  { s with
    notify := deps.foldl (subscribeDep s.managers.length) s.notify
    managers := s.managers ++ [⟨deps, []⟩] }

/-- The system as it starts, with the dependencies of its managers. -/
def System.start {σ : Type} (state : σ) (managers : List (List Dep)) : System σ :=
  managers.foldl System.addManager ⟨[], [], [], ⟨state, []⟩⟩

/-- What happens: an event for a manager, or a call of the directory. -/
inductive Action
  | event (id : ℕ) (key : String) (op : Op) (data : Data)
  | put (db table key : String) (value : Json)
  | get (db table key : String)
  | getSlot (db table : String)
  | remove (db table key : String)
  | removeSlot (db table : String)

/-- `self.data[slot][key] = value`. -/
def putItem (data : Store) (slot key : String) (value : Json) : Store :=
  setItem slot (setItem key value ((data.lookup slot).getD [])) data

/-- `self.data[slot]`: a slot that is missing is made. -/
def touchSlot (data : Store) (slot : String) : Store :=
  match data.lookup slot with
  | some _ => data
  | none => setItem slot [] data

section Step

variable {σ : Type} (H : Handlers σ)

/-- One handler that is registered in the directory. -/
def System.notifyOne (s : System σ) (id : ℕ) : Except PyError (System σ) :=
  match s.managers[id]? with
  | none => .ok s
  | some m => do
    let (m, w) ← m.onDepsChange H s.data id s.world
    .ok { s with managers := s.managers.set id m, world := w }

/-- The handlers of one path. -/
def System.notifyPath (db table : String) (s : System σ) (handlers : String × List ℕ) :
    Except PyError (System σ) := do
  if ← pathExist s.data ⟨db, table, handlers.1⟩ then
    handlers.2.foldlM (System.notifyOne H) s
  else .ok s

/-- `put`. -/
def System.put (s : System σ) (db table key : String) (value : Json) :
    Except PyError (System σ) :=
  let slot := getSlotName db table
  let s := { s with data := putItem s.data slot key value }
  match s.notify.lookup slot with
  | none => .ok s
  | some paths => paths.foldlM (System.notifyPath H db table) s

/-- `remove`. -/
def System.remove (s : System σ) (db table key : String) : System σ :=
  let slot := getSlotName db table
  match s.data.lookup slot with
  | none => s
  | some d =>
    match d.lookup key with
    | none => s
    | some _ => { s with data := setItem slot (pop key d) s.data }

/-- One action. -/
def step (s : System σ) : Action → Except PyError (System σ)
  | .event id key op data =>
    match s.managers[id]? with
    | none => .ok s
    | some m => do
      let (m, w) ← m.handler H s.data id s.world key op data
      .ok { s with managers := s.managers.set id m, world := w }
  | .put db table key value => s.put H db table key value
  | .get db table key => do
    let s := { s with data := touchSlot s.data (getSlotName db table) }
    let _ ← getItem key (.obj ((s.data.lookup (getSlotName db table)).getD []))
    .ok s
  | .getSlot db table => .ok { s with data := touchSlot s.data (getSlotName db table) }
  | .remove db table key => .ok (s.remove db table key)
  | .removeSlot db table => .ok { s with data := pop (getSlotName db table) s.data }

end Step

/-! ## What the handlers were called with -/

/-- The SETs that the manager's `set_handler` has accepted, in order. -/
def accepted (id : ℕ) (calls : List (ℕ × Call)) : List (String × Data) :=
  calls.filterMap fun c => match c with
    | (j, .set key data true) => if j = id then some (key, data) else none
    | _ => none

/-- The keys that its `del_handler` was called with. -/
def deleted (id : ℕ) (calls : List (ℕ × Call)) : List String :=
  calls.filterMap fun c => match c with
    | (j, .del key) => if j = id then some key else none
    | _ => none

/-- The SETs among the actions that are for the manager. -/
def setsFor (id : ℕ) (actions : List Action) : List (String × Data) :=
  actions.filterMap fun a => match a with
    | .event j key .set data => if j = id then some (key, data) else none
    | _ => none

/-- The DELs. -/
def delsFor (id : ℕ) (actions : List Action) : List String :=
  actions.filterMap fun a => match a with
    | .event j key .del _ => if j = id then some key else none
    | _ => none

theorem accepted_append (id : ℕ) (calls calls' : List (ℕ × Call)) :
    accepted id (calls ++ calls') = accepted id calls ++ accepted id calls' :=
  List.filterMap_append ..

theorem deleted_append (id : ℕ) (calls calls' : List (ℕ × Call)) :
    deleted id (calls ++ calls') = deleted id calls ++ deleted id calls' :=
  List.filterMap_append ..

/-- SETs that were tried, with the results: the calls. -/
def triedCalls (id : ℕ) (tried : List ((String × Data) × Bool)) : List (ℕ × Call) :=
  tried.map fun t => (id, .set t.1.1 t.1.2 t.2)

theorem accepted_tried_self (id : ℕ) (tried : List ((String × Data) × Bool)) :
    accepted id (triedCalls id tried) = (tried.filter Prod.snd).map Prod.fst := by
  induction tried with
  | nil => rfl
  | cons t tried ih =>
    obtain ⟨⟨key, data⟩, res⟩ := t
    unfold accepted triedCalls at ih ⊢
    cases res with
    | true => simp [ih]
    | false => simpa using ih

theorem accepted_tried_of_ne {id j : ℕ} (hne : j ≠ id) (tried : List ((String × Data) × Bool)) :
    accepted id (triedCalls j tried) = [] := by
  unfold accepted triedCalls
  rw [List.filterMap_eq_nil_iff]
  rintro c hc
  obtain ⟨⟨⟨key, data⟩, res⟩, -, rfl⟩ := List.mem_map.1 hc
  cases res with
  | true => simp [hne]
  | false => rfl

theorem deleted_tried (id j : ℕ) (tried : List ((String × Data) × Bool)) :
    deleted id (triedCalls j tried) = [] := by
  unfold deleted triedCalls
  rw [List.filterMap_eq_nil_iff]
  rintro c hc
  obtain ⟨t, -, rfl⟩ := List.mem_map.1 hc
  rfl

/-! ## What one call does -/

section Specs

variable {σ : Type} {H : Handlers σ} {id : ℕ} {store : Store}

theorem callSet_ok {w w' : World σ} {key : String} {data : Data} {res : Bool}
    (h : callSet H id w key data = .ok (res, w')) :
    H.setHandler id w.state key data = .ok (res, w'.state) ∧
      w'.calls = w.calls ++ triedCalls id [((key, data), res)] := by
  obtain ⟨⟨res', state⟩, hset, heq⟩ := bind_eq_ok.1 h
  cases heq
  exact ⟨hset, rfl⟩

/-- A queue that is tried again: every SET of it once, in order, and the new queue has those
that were not accepted. -/
theorem retryQueue_ok (queue : List (String × Data)) :
    ∀ {w w' : World σ} {newQueue : List (String × Data)},
      retryQueue H id queue w = .ok (newQueue, w') →
      ∃ tried, tried.map Prod.fst = queue ∧ w'.calls = w.calls ++ triedCalls id tried ∧
        newQueue = (tried.filter fun t => !t.2).map Prod.fst ∧
        ∀ t ∈ tried, ∃ st st', H.setHandler id st t.1.1 t.1.2 = .ok (t.2, st') := by
  induction queue with
  | nil =>
    intro w w' newQueue h
    cases h
    exact ⟨[], rfl, (List.append_nil _).symm, rfl, fun _ h => absurd h List.not_mem_nil⟩
  | cons e queue ih =>
    intro w w' newQueue h
    obtain ⟨key, data⟩ := e
    obtain ⟨⟨res, w₁⟩, hcall, h⟩ := bind_eq_ok.1 h
    obtain ⟨⟨rest, w₂⟩, hrest, heq⟩ := bind_eq_ok.1 h
    cases heq
    -- the head is tried first, then the rest of the queue
    obtain ⟨tried, hfst, hcalls, hnew, hres⟩ := ih hrest
    obtain ⟨hset, hcalls₁⟩ := callSet_ok hcall
    refine ⟨((key, data), res) :: tried, ?_, ?_, ?_, ?_⟩
    · rw [List.map_cons, hfst]
    · rw [hcalls, hcalls₁, List.append_assoc]
      rfl
    · cases res with
      | true => simp [hnew]
      | false => simp [hnew]
    · rintro t (- | ⟨-, ht⟩)
      · exact ⟨_, _, hset⟩
      · exact hres t ht

/-- What a manager does with a SET: it tries it, or leaves it for later. -/
theorem handler_set_ok {m m' : Manager} {w w' : World σ} {key : String} {data : Data}
    (h : m.handler H store id w key .set data = .ok (m', w')) :
    (∃ res st st', availableDeps store m.deps = .ok true ∧
        H.setHandler id st key data = .ok (res, st') ∧
        w'.calls = w.calls ++ triedCalls id [((key, data), res)] ∧
        m' = { m with setQueue := m.setQueue ++ if res then [] else [(key, data)] }) ∨
      (availableDeps store m.deps = .ok false ∧ w' = w ∧
        m' = { m with setQueue := m.setQueue ++ [(key, data)] }) := by
  obtain ⟨available, havail, h⟩ := bind_eq_ok.1 h
  cases available with
  | true =>
    obtain ⟨⟨res, w₁⟩, hcall, heq⟩ := bind_eq_ok.1 h
    cases heq
    obtain ⟨hset, hcalls⟩ := callSet_ok hcall
    refine Or.inl ⟨res, w.state, _, havail, hset, hcalls, ?_⟩
    cases res with
    | true => simp
    | false => simp
  | false =>
    cases h
    exact Or.inr ⟨havail, rfl, rfl⟩

theorem handler_del_ok {m m' : Manager} {w w' : World σ} {key : String} {data : Data}
    (h : m.handler H store id w key .del data = .ok (m', w')) :
    m' = m ∧ w'.calls = w.calls ++ [(id, .del key)] := by
  obtain ⟨state, -, heq⟩ := bind_eq_ok.1 h
  cases heq
  exact ⟨rfl, rfl⟩

/-- What a manager does when it is notified. -/
theorem onDepsChange_ok {m m' : Manager} {w w' : World σ}
    (h : m.onDepsChange H store id w = .ok (m', w')) :
    (∃ tried, availableDeps store m.deps = .ok true ∧ tried.map Prod.fst = m.setQueue ∧
        w'.calls = w.calls ++ triedCalls id tried ∧
        m' = { m with setQueue := (tried.filter fun t => !t.2).map Prod.fst } ∧
        ∀ t ∈ tried, ∃ st st', H.setHandler id st t.1.1 t.1.2 = .ok (t.2, st')) ∨
      (availableDeps store m.deps = .ok false ∧ m' = m ∧ w' = w) := by
  obtain ⟨available, havail, h⟩ := bind_eq_ok.1 h
  cases available with
  | true =>
    obtain ⟨⟨queue, w₁⟩, hretry, heq⟩ := bind_eq_ok.1 h
    cases heq
    obtain ⟨tried, hfst, hcalls, hnew, hres⟩ := retryQueue_ok m.setQueue hretry
    exact Or.inl ⟨tried, havail, hfst, hcalls, by rw [hnew], hres⟩
  | false =>
    cases h
    exact Or.inr ⟨havail, rfl, rfl⟩

end Specs

/-! ## Runs that may raise -/

/-- What every step that returns preserves holds at the end. -/
theorem foldlM_invariant {ε τ α : Type} {f : τ → α → Except ε τ} (inv : τ → Prop) :
    ∀ {as : List α} {t t' : τ}, (∀ t t' a, inv t → a ∈ as → f t a = .ok t' → inv t') → inv t →
      as.foldlM f t = .ok t' → inv t' := by
  intro as
  induction as with
  | nil =>
    intro t t' _ ht h
    cases h
    exact ht
  | cons a as ih =>
    intro t t' hstep ht h
    rw [List.foldlM_cons] at h
    obtain ⟨t₁, hfirst, hrest⟩ := bind_eq_ok.1 h
    exact ih (fun t t' b ht hb => hstep t t' b ht (List.mem_cons_of_mem _ hb))
      (hstep t t₁ a ht List.mem_cons_self hfirst) hrest

/-! ## What is said of one manager -/

/-- A property of the SETs that a manager has accepted, the keys that it has deleted and its
queue. -/
def About {σ : Type} (id : ℕ)
    (P : List (String × Data) → List String → List (String × Data) → Prop) (s : System σ) : Prop :=
  ∀ m, s.managers[id]? = some m →
    P (accepted id s.world.calls) (deleted id s.world.calls) m.setQueue

section About

variable {σ : Type} {H : Handlers σ} {id : ℕ}
  {P : List (String × Data) → List String → List (String × Data) → Prop}

/-- Another manager: its calls and its queue do not count. -/
theorem About.of_ne {s : System σ} {j : ℕ} (hP : About id P s) (hne : j ≠ id) {m' : Manager}
    {w' : World σ} {calls : List (ℕ × Call)} (hcalls : w'.calls = s.world.calls ++ calls)
    (hacc : accepted id calls = []) (hdel : deleted id calls = []) :
    About id P { s with managers := s.managers.set j m', world := w' } := by
  intro m hm
  rw [List.getElem?_set_ne hne] at hm
  show P (accepted id w'.calls) (deleted id w'.calls) m.setQueue
  rw [hcalls, accepted_append, deleted_append, hacc, hdel, List.append_nil, List.append_nil]
  exact hP m hm

/-- The manager itself. -/
theorem About.of_self {s : System σ} {m m' : Manager} {w' : World σ}
    (hm : s.managers[id]? = some m)
    (h : P (accepted id w'.calls) (deleted id w'.calls) m'.setQueue) :
    About id P { s with managers := s.managers.set id m', world := w' } := by
  intro m'' hm''
  rw [List.getElem?_set_self (List.getElem?_eq_some_iff.1 hm).1] at hm''
  obtain rfl := Option.some.inj hm''
  exact h

/-- The property stays when a queue is tried again, whatever the results are. -/
def KeptByRetry (H : Handlers σ) (id : ℕ)
    (P : List (String × Data) → List String → List (String × Data) → Prop) : Prop :=
  ∀ (acc : List (String × Data)) (dels : List String) (tried : List ((String × Data) × Bool)),
    (∀ t ∈ tried, ∃ st st', H.setHandler id st t.1.1 t.1.2 = .ok (t.2, st')) →
    P acc dels (tried.map Prod.fst) →
    P (acc ++ (tried.filter Prod.snd).map Prod.fst) dels
      ((tried.filter fun t => !t.2).map Prod.fst)

theorem About.notifyOne {s s' : System σ} {j : ℕ} (hP : About id P s)
    (hretry : KeptByRetry H id P) (h : s.notifyOne H j = .ok s') : About id P s' := by
  unfold System.notifyOne at h
  cases hm : s.managers[j]? with
  | none =>
    rw [hm] at h
    cases h
    exact hP
  | some m =>
    rw [hm] at h
    obtain ⟨⟨m', w'⟩, hdeps, heq⟩ := bind_eq_ok.1 h
    cases heq
    rcases onDepsChange_ok hdeps with ⟨tried, -, hfst, hcalls, rfl, hres⟩ | ⟨-, rfl, rfl⟩
    · by_cases hj : j = id
      · subst hj
        refine About.of_self hm ?_
        rw [hcalls, accepted_append, deleted_append, deleted_tried, List.append_nil,
          accepted_tried_self]
        apply hretry _ _ tried hres
        rw [hfst]
        exact hP m hm
      · exact hP.of_ne hj hcalls (accepted_tried_of_ne hj tried) (deleted_tried id j tried)
    · by_cases hj : j = id
      · subst hj
        exact About.of_self hm (hP _ hm)
      · exact hP.of_ne hj (List.append_nil _).symm rfl rfl

theorem About.put {s s' : System σ} {db table key : String} {value : Json} (hP : About id P s)
    (hretry : KeptByRetry H id P) (h : s.put H db table key value = .ok s') : About id P s' := by
  unfold System.put at h
  dsimp only at h
  cases hpaths : s.notify.lookup (getSlotName db table) with
  | none =>
    rw [hpaths] at h
    cases h
    exact hP
  | some paths =>
    rw [hpaths] at h
    refine foldlM_invariant (About id P) ?_ (by exact hP) h
    intro t t' handlers ht _ hpath
    obtain ⟨found, -, hpath⟩ := bind_eq_ok.1 hpath
    cases found with
    | true => exact foldlM_invariant _ (fun t t' j ht _ hj => ht.notifyOne hretry hj) ht hpath
    | false =>
      cases hpath
      exact ht

/-- What a manager does does not count for another one. -/
theorem handler_calls_of_ne {store : Store} {j : ℕ} (hne : j ≠ id) {m m' : Manager}
    {w w' : World σ} {key : String} {op : Op} {data : Data}
    (h : m.handler H store j w key op data = .ok (m', w')) :
    ∃ calls, w'.calls = w.calls ++ calls ∧ accepted id calls = [] ∧ deleted id calls = [] := by
  cases op with
  | set =>
    rcases handler_set_ok h with ⟨res, -, -, -, -, hcalls, -⟩ | ⟨-, rfl, -⟩
    · exact ⟨_, hcalls, accepted_tried_of_ne hne _, deleted_tried id j _⟩
    · exact ⟨[], (List.append_nil _).symm, rfl, rfl⟩
  | del =>
    obtain ⟨-, hcalls⟩ := handler_del_ok h
    exact ⟨_, hcalls, rfl, by simp [deleted, hne]⟩
  | other op =>
    cases h
    exact ⟨[], (List.append_nil _).symm, rfl, rfl⟩

/-- An action that is no event for the manager. -/
def Action.Elsewhere (id : ℕ) (a : Action) : Prop := ∀ key op data, a ≠ .event id key op data

theorem Action.Elsewhere.none_for {a : Action} (ha : a.Elsewhere id) :
    setsFor id [a] = [] ∧ delsFor id [a] = [] := by
  cases a with
  | event j key op data =>
    have hj : j ≠ id := by
      rintro rfl
      exact ha key op data rfl
    cases op with
    | set => exact ⟨by simp [setsFor, hj], rfl⟩
    | del => exact ⟨rfl, by simp [delsFor, hj]⟩
    | other op => exact ⟨rfl, rfl⟩
  | put | get | getSlot | remove | removeSlot => exact ⟨rfl, rfl⟩

/-- What is said of the manager stays true when something else happens. -/
theorem About.step_elsewhere {s s' : System σ} {a : Action} (hP : About id P s)
    (hretry : KeptByRetry H id P) (ha : a.Elsewhere id) (h : step H s a = .ok s') :
    About id P s' := by
  cases a with
  | event j key op data =>
    have hj : j ≠ id := by
      rintro rfl
      exact ha key op data rfl
    unfold step at h
    dsimp only at h
    cases hm : s.managers[j]? with
    | none =>
      rw [hm] at h
      cases h
      exact hP
    | some m =>
      rw [hm] at h
      obtain ⟨⟨m', w'⟩, hhandler, heq⟩ := bind_eq_ok.1 h
      cases heq
      -- another manager's handler leaves this one's queue and calls alone
      obtain ⟨calls, hcalls, hacc, hdel⟩ := handler_calls_of_ne hj hhandler
      exact hP.of_ne hj hcalls hacc hdel
  | put db table key value => exact hP.put hretry h
  | get db table key =>
    obtain ⟨-, -, heq⟩ := bind_eq_ok.1 h
    cases heq
    exact hP
  | getSlot db table =>
    cases h
    exact hP
  | remove db table key =>
    cases h
    unfold System.remove
    dsimp only
    split
    · exact hP
    · split
      · exact hP
      · exact hP
  | removeSlot db table =>
    cases h
    exact hP

end About

/-! ## No SET is lost -/

/-- The SETs of a manager so far are those that were accepted and those in the queue. -/
def Balanced {σ : Type} (id : ℕ) (sets : List (String × Data)) (dels : List String) :
    System σ → Prop :=
  About id fun acc del queue => (acc ++ queue).Perm sets ∧ del = dels

section Balance

variable {σ : Type} {H : Handlers σ} {id : ℕ} {sets : List (String × Data)} {dels : List String}

/-- A queue that is tried again loses nothing: accepted or not, every SET is one of it. -/
theorem balanced_keptByRetry : KeptByRetry H id fun acc del queue =>
    (acc ++ queue).Perm sets ∧ del = dels := by
  rintro acc del tried - ⟨hperm, hdel⟩
  refine ⟨?_, hdel⟩
  rw [List.append_assoc, ← List.map_append]
  exact (((List.filter_append_perm Prod.snd tried).map Prod.fst).append_left acc).trans hperm

/-- An event for the manager itself. -/
theorem Balanced.handled {s : System σ} {m m' : Manager} {w' : World σ} {key : String} {op : Op}
    {data : Data} (hbal : Balanced id sets dels s) (hm : s.managers[id]? = some m)
    (h : m.handler H s.data id s.world key op data = .ok (m', w')) :
    Balanced id (sets ++ setsFor id [.event id key op data])
      (dels ++ delsFor id [.event id key op data])
      { s with managers := s.managers.set id m', world := w' } := by
  obtain ⟨hperm, hdel⟩ := hbal m hm
  refine About.of_self hm ?_
  show (accepted id w'.calls ++ m'.setQueue).Perm _ ∧ deleted id w'.calls = _
  cases op with
  | set =>
    have hsets : setsFor id [.event id key .set data] = [(key, data)] := by simp [setsFor]
    have hdels : delsFor id [.event id key .set data] = [] := rfl
    rw [hsets, hdels, List.append_nil]
    rcases handler_set_ok h with ⟨res, -, -, -, -, hcalls, rfl⟩ | ⟨-, rfl, rfl⟩
    · rw [hcalls, accepted_append, deleted_append, deleted_tried, List.append_nil,
        accepted_tried_self]
      refine ⟨?_, hdel⟩
      cases res with
      | true =>
        -- accepted: before the SETs that are still in the queue
        show (accepted id s.world.calls ++ [(key, data)] ++ (m.setQueue ++ [])).Perm _
        rw [List.append_nil, List.append_assoc]
        refine (List.perm_append_comm.append_left _).trans ?_
        rw [← List.append_assoc]
        exact hperm.append_right _
      | false =>
        show (accepted id s.world.calls ++ [] ++ (m.setQueue ++ [(key, data)])).Perm _
        rw [List.append_nil, ← List.append_assoc]
        exact hperm.append_right _
    · refine ⟨?_, hdel⟩
      show (accepted id s.world.calls ++ (m.setQueue ++ [(key, data)])).Perm _
      rw [← List.append_assoc]
      exact hperm.append_right _
  | del =>
    have hsets : setsFor id [.event id key .del data] = [] := rfl
    have hdels : delsFor id [.event id key .del data] = [key] := by simp [delsFor]
    obtain ⟨rfl, hcalls⟩ := handler_del_ok h
    have hacc : accepted id [(id, Call.del key)] = [] := rfl
    have hdel' : deleted id [(id, Call.del key)] = [key] := by simp [deleted]
    rw [hsets, hdels, hcalls, accepted_append, deleted_append, hacc, hdel', List.append_nil,
      List.append_nil, hdel]
    exact ⟨hperm, rfl⟩
  | other op =>
    cases h
    have hsets : setsFor id [.event id key (.other op) data] = [] := rfl
    have hdels : delsFor id [.event id key (.other op) data] = [] := rfl
    rw [hsets, hdels, List.append_nil, List.append_nil]
    exact ⟨hperm, hdel⟩

/-- **One action.** -/
theorem Balanced.step {s s' : System σ} {a : Action} (hbal : Balanced id sets dels s)
    (h : step H s a = .ok s') :
    Balanced id (sets ++ setsFor id [a]) (dels ++ delsFor id [a]) s' := by
  by_cases ha : a.Elsewhere id
  · obtain ⟨hsets, hdels⟩ := ha.none_for
    rw [hsets, hdels, List.append_nil, List.append_nil]
    exact About.step_elsewhere hbal balanced_keptByRetry ha h
  · unfold Action.Elsewhere at ha
    push Not at ha
    obtain ⟨key, op, data, rfl⟩ := ha
    unfold VppCfgd.step at h
    dsimp only at h
    cases hm : s.managers[id]? with
    | none =>
      rw [hm] at h
      cases h
      intro m hm'
      rw [hm] at hm'
      cases hm'
    | some m =>
      rw [hm] at h
      obtain ⟨⟨m', w'⟩, hhandler, heq⟩ := bind_eq_ok.1 h
      cases heq
      exact hbal.handled hm hhandler

theorem Balanced.run (actions : List Action) :
    ∀ {s s' : System σ} {sets : List (String × Data)} {dels : List String},
      Balanced id sets dels s → actions.foldlM (VppCfgd.step H) s = .ok s' →
      Balanced id (sets ++ setsFor id actions) (dels ++ delsFor id actions) s' := by
  induction actions with
  | nil =>
    intro s s' sets dels hbal h
    cases h
    rwa [show setsFor id [] = [] from rfl, show delsFor id [] = [] from rfl, List.append_nil,
      List.append_nil]
  | cons a actions ih =>
    intro s s' sets dels hbal h
    rw [List.foldlM_cons] at h
    obtain ⟨s₁, hfirst, hrest⟩ := bind_eq_ok.1 h
    have hsets : setsFor id (a :: actions) = setsFor id [a] ++ setsFor id actions :=
      List.filterMap_append (l := [a]) ..
    have hdels : delsFor id (a :: actions) = delsFor id [a] ++ delsFor id actions :=
      List.filterMap_append (l := [a]) ..
    rw [hsets, hdels, ← List.append_assoc, ← List.append_assoc]
    exact ih (hbal.step hfirst) hrest

end Balance

/-! ## The start -/

/-- The manager is called when something is put under the path. -/
def Listens (notify : List (String × List (String × List ℕ))) (id : ℕ) (dep : Dep) : Prop :=
  ∃ paths ids, notify.lookup dep.slot = some paths ∧ paths.lookup dep.path = some ids ∧ id ∈ ids

theorem listens_subscribeDep (id : ℕ) (notify : List (String × List (String × List ℕ)))
    (dep : Dep) : Listens (subscribeDep id notify dep) id dep :=
  ⟨_, _, lookup_setItem_self .., lookup_setItem_self .., List.mem_append_right _ (by simp)⟩

/-- Subscriptions are kept. -/
theorem Listens.subscribeDep {notify : List (String × List (String × List ℕ))} {id : ℕ}
    {dep : Dep} (h : Listens notify id dep) (j : ℕ) (dep' : Dep) :
    Listens (subscribeDep j notify dep') id dep := by
  obtain ⟨paths, ids, hpaths, hids, hmem⟩ := h
  unfold VppCfgd.subscribeDep
  by_cases hslot : dep.slot = dep'.slot
  · rw [hslot] at hpaths
    rw [hpaths]
    by_cases hpath : dep.path = dep'.path
    · rw [hpath] at hids
      refine ⟨_, _, by rw [hslot]; exact lookup_setItem_self .., ?_, List.mem_append_left [j] hmem⟩
      rw [hpath, Option.getD_some, hids, Option.getD_some]
      exact lookup_setItem_self ..
    · refine ⟨_, ids, by rw [hslot]; exact lookup_setItem_self .., ?_, hmem⟩
      rw [lookup_setItem_of_ne hpath]
      exact hids
  · refine ⟨paths, ids, ?_, hids, hmem⟩
    rw [lookup_setItem_of_ne hslot]
    exact hpaths

/-- The state before the first action: the queues are empty, nothing has been called, and every
manager listens to what it depends on. -/
structure Fresh {σ : Type} (s : System σ) : Prop where
  queue : ∀ m ∈ s.managers, m.setQueue = []
  calls : s.world.calls = []
  listens : ∀ i m, s.managers[i]? = some m → ∀ dep ∈ m.deps, Listens s.notify i dep

section Start

variable {σ : Type}

theorem foldl_subscribeDep_listens (id : ℕ) (deps : List Dep) :
    ∀ notify : List (String × List (String × List ℕ)),
      (∀ dep ∈ deps, Listens (deps.foldl (subscribeDep id) notify) id dep) ∧
      ∀ i dep, Listens notify i dep → Listens (deps.foldl (subscribeDep id) notify) i dep := by
  induction deps with
  | nil => exact fun notify => ⟨fun _ h => absurd h List.not_mem_nil, fun _ _ h => h⟩
  | cons d deps ih =>
    intro notify
    obtain ⟨hnew, hold⟩ := ih (subscribeDep id notify d)
    refine ⟨?_, fun i dep h => hold i dep (h.subscribeDep id d)⟩
    intro dep hdep
    rcases List.mem_cons.1 hdep with rfl | hdep
    · exact hold id dep (listens_subscribeDep id notify dep)
    · exact hnew dep hdep

theorem Fresh.addManager {s : System σ} (hs : Fresh s) (deps : List Dep) :
    Fresh (s.addManager deps) := by
  obtain ⟨hnew, hold⟩ := foldl_subscribeDep_listens s.managers.length deps s.notify
  refine ⟨?_, hs.calls, ?_⟩
  · intro m hm
    rcases List.mem_append.1 hm with hm | hm
    · exact hs.queue m hm
    · rw [List.mem_singleton.1 hm]
  · intro i m hm dep hdep
    have hm' : (s.managers ++ [⟨deps, []⟩])[i]? = some m := hm
    by_cases hi : i < s.managers.length
    · rw [List.getElem?_append_left hi] at hm'
      exact hold i dep (hs.listens i m hm' dep hdep)
    · -- the new manager is the last one
      rw [List.getElem?_append_right (Nat.le_of_not_lt hi)] at hm'
      have hlast : i - s.managers.length = 0 := by
        have hlt := (List.getElem?_eq_some_iff.1 hm').1
        rw [List.length_singleton] at hlt
        omega
      rw [hlast] at hm'
      obtain rfl := Option.some.inj hm'
      obtain rfl : i = s.managers.length := by omega
      exact hnew dep hdep

theorem fresh_start (state : σ) (managers : List (List Dep)) :
    Fresh (System.start state managers) := by
  have hloop : ∀ (managers : List (List Dep)) (s : System σ), Fresh s →
      Fresh (managers.foldl System.addManager s) := by
    intro managers
    induction managers with
    | nil => exact fun s hs => hs
    | cons deps managers ih => exact fun s hs => ih _ (hs.addManager deps)
  apply hloop
  exact ⟨fun _ h => absurd h List.not_mem_nil, rfl, fun i m h => by cases h⟩

end Start

/-- A `set_handler` that counts. -/
def countSets : Handlers ℕ where
  setHandler _ n _ _ := .ok (true, n + 1)
  delHandler _ n _ := .ok n

/-- A SET that waits for the metadata of the device, the metadata, and another SET. -/
def metadataRun : List Action :=
  [.event 0 "vpp" .set [("dpdk", "")], .put "CONFIG_DB" "DEVICE_METADATA" "localhost" .null,
    .event 0 "vpp" .set []]

/-- What the manager depends on. -/
def metadataDeps : List (List Dep) := [[⟨"CONFIG_DB", "DEVICE_METADATA", ""⟩]]

theorem metadataRun_ok : ∃ s m,
    metadataRun.foldlM (step countSets) (System.start 0 metadataDeps) = .ok s ∧
      s.managers[0]? = some m ∧ availableDeps s.data m.deps = .ok true :=
  ⟨_, _, rfl, rfl, rfl⟩

theorem availableDeps_true_iff {store : Store} {deps : List Dep} :
    availableDeps store deps = .ok true ↔ ∀ dep ∈ deps, pathExist store dep = .ok true := by
  induction deps with
  | nil => exact ⟨fun _ _ h => absurd h List.not_mem_nil, fun _ => rfl⟩
  | cons dep deps ih =>
    rw [availableDeps, bind_eq_ok, List.forall_mem_cons, ← ih]
    constructor
    · rintro ⟨found, hfound, h⟩
      cases found with
      | true => exact ⟨hfound, h⟩
      | false => cases h
    · rintro ⟨hfound, h⟩
      exact ⟨true, hfound, h⟩

/-- Only the slot of a dependency matters for it. -/
theorem pathExist_congr {store store' : Store} {dep : Dep}
    (h : store'.lookup dep.slot = store.lookup dep.slot) :
    pathExist store' dep = pathExist store dep := by
  unfold pathExist pathTraverse
  rw [h]

theorem pathExist_true_iff {store : Store} {dep : Dep} :
    pathExist store dep = .ok true ↔ ∃ d, store.lookup dep.slot = some d ∧
      (dep.path = "" ∨ ∃ v, traverse (splitPath dep.path) (.obj d) = .ok (some v)) := by
  unfold pathExist pathTraverse
  rw [bind_eq_ok]
  cases store.lookup dep.slot with
  | none =>
    constructor
    · rintro ⟨found, hfound, h⟩
      cases hfound
      cases h
    · rintro ⟨d, hd, -⟩
      cases hd
  | some d =>
    dsimp only
    by_cases hpath : dep.path = ""
    · rw [if_pos hpath]
      exact ⟨fun _ => ⟨d, rfl, Or.inl hpath⟩, fun _ => ⟨_, rfl, rfl⟩⟩
    · rw [if_neg hpath]
      constructor
      · rintro ⟨found, hfound, h⟩
        cases found with
        | none => cases h
        | some v => exact ⟨d, rfl, Or.inr ⟨v, hfound⟩⟩
      · rintro ⟨d', hd', hrest⟩
        obtain rfl := Option.some.inj hd'
        obtain ⟨v, hv⟩ := hrest.resolve_left hpath
        exact ⟨_, hv, rfl⟩

/-- What is found after a key was taken out of the slot's dictionary was there before. -/
theorem traverse_pop {ps : List String} {key : String} {d : List (String × Json)} {v : Json}
    (hps : ps ≠ []) (h : traverse ps (.obj (pop key d)) = .ok (some v)) :
    traverse ps (.obj d) = .ok (some v) := by
  cases ps with
  | nil => exact absurd rfl hps
  | cons p ps =>
    have hne : p ≠ key := by
      rintro rfl
      rw [traverse, pyIn, lookup_pop_self] at h
      cases h
    have hin : pyIn p (.obj (pop key d)) = pyIn p (.obj d) := by
      rw [pyIn, pyIn, lookup_pop_of_ne hne]
    have hget : getItem p (.obj (pop key d)) = getItem p (.obj d) := by
      rw [getItem, getItem, lookup_pop_of_ne hne]
    rw [traverse, hin, hget] at h
    rw [traverse]
    exact h

theorem splitPath_ne_nil (path : String) : splitPath path ≠ [] := by
  unfold splitPath
  rw [Ne, List.map_eq_nil_iff]
  exact List.splitOn_ne_nil '/' path.toList

theorem pathExist_of_pop {store : Store} {dep : Dep} {slot key : String}
    {d : List (String × Json)} (hd : store.lookup slot = some d)
    (h : pathExist (setItem slot (pop key d) store) dep = .ok true) :
    pathExist store dep = .ok true := by
  by_cases hslot : dep.slot = slot
  · rw [pathExist_true_iff] at h ⊢
    obtain ⟨d', hd', hrest⟩ := h
    rw [hslot, lookup_setItem_self] at hd'
    obtain rfl := Option.some.inj hd'
    refine ⟨d, by rw [hslot]; exact hd, ?_⟩
    rcases hrest with hpath | ⟨v, hv⟩
    · exact Or.inl hpath
    · exact Or.inr ⟨v, traverse_pop (splitPath_ne_nil _) hv⟩
  · rwa [pathExist_congr (lookup_setItem_of_ne hslot ..)] at h

theorem pathExist_of_popSlot {store : Store} {dep : Dep} {slot : String}
    (h : pathExist (pop slot store) dep = .ok true) : pathExist store dep = .ok true := by
  by_cases hslot : dep.slot = slot
  · obtain ⟨d, hd, -⟩ := pathExist_true_iff.1 h
    rw [hslot, lookup_pop_self] at hd
    cases hd
  · rwa [pathExist_congr (lookup_pop_of_ne hslot _)] at h

/-! ## SETs are accepted in order -/

section Order

variable {σ : Type} {H : Handlers σ} {id : ℕ} {sets : List (String × Data)}

/-- A `set_handler` that is always ready, as that of `VppCfgMgr`. -/
def Handlers.Ready (H : Handlers σ) : Prop :=
  ∀ id st key data res st', H.setHandler id st key data = .ok (res, st') → res = true

/-- Slots that are read are there.  Reading another one makes it, and nobody is told. -/
def ReadsThere (s : System σ) : Action → Prop
  | .get db table _ => (s.data.lookup (getSlotName db table)).isSome
  | .getSlot db table => (s.data.lookup (getSlotName db table)).isSome
  | _ => True

/-- The manager has no SET in its queue when it could be accepted. -/
def Drained (id : ℕ) (s : System σ) : Prop :=
  ∀ m, s.managers[id]? = some m → availableDeps s.data m.deps = .ok true → m.setQueue = []

/-- The SETs have been accepted in the order in which they came, and the others wait in that
order, for something they depend on. -/
structure InOrder (id : ℕ) (sets : List (String × Data)) (s : System σ) : Prop where
  order : About id (fun acc _ queue => acc ++ queue = sets) s
  drained : Drained id s
  listens : ∀ m, s.managers[id]? = some m → ∀ dep ∈ m.deps, Listens s.notify id dep

theorem tried_all_true (hready : H.Ready) {tried : List ((String × Data) × Bool)}
    (hres : ∀ t ∈ tried, ∃ st st', H.setHandler id st t.1.1 t.1.2 = .ok (t.2, st')) :
    tried.filter Prod.snd = tried ∧ (tried.filter fun t => !t.2) = [] := by
  have hall : ∀ t ∈ tried, t.2 = true := by
    intro t ht
    obtain ⟨st, st', hset⟩ := hres t ht
    exact hready _ _ _ _ _ _ hset
  exact ⟨List.filter_eq_self.2 hall, List.filter_eq_nil_iff.2 fun t ht => by simp [hall t ht]⟩

theorem ordered_keptByRetry (hready : H.Ready) :
    KeptByRetry H id fun acc _ queue => acc ++ queue = sets := by
  intro acc dels tried hres heq
  obtain ⟨hfilter, hnone⟩ := tried_all_true hready hres
  rw [hfilter, hnone, List.map_nil, List.append_nil]
  exact heq

/-- Nothing but the queues and the world is changed. -/
structure SameShape (s s' : System σ) : Prop where
  data : s'.data = s.data
  notify : s'.notify = s.notify
  deps : ∀ (i : ℕ) (m' : Manager), s'.managers[i]? = some m' →
    ∃ m : Manager, s.managers[i]? = some m ∧ m.deps = m'.deps

theorem SameShape.refl (s : System σ) : SameShape s s :=
  ⟨rfl, rfl, fun _ m h => ⟨m, h, rfl⟩⟩

theorem SameShape.trans {s s' s'' : System σ} (h : SameShape s s') (h' : SameShape s' s'') :
    SameShape s s'' where
  data := h'.data.trans h.data
  notify := h'.notify.trans h.notify
  deps := by
    intro i m'' hm''
    obtain ⟨m', hm', hdeps'⟩ := h'.deps i m'' hm''
    obtain ⟨m, hm, hdeps⟩ := h.deps i m' hm'
    exact ⟨m, hm, hdeps.trans hdeps'⟩

/-- One manager is put in the place of another one with the same dependencies. -/
theorem sameShape_set {s : System σ} {j : ℕ} {m m' : Manager} {w : World σ}
    (hm : s.managers[j]? = some m) (hdeps : m'.deps = m.deps) :
    SameShape s { s with managers := s.managers.set j m', world := w } := by
  refine ⟨rfl, rfl, ?_⟩
  intro i m'' hm''
  by_cases hj : j = i
  · subst hj
    rw [List.getElem?_set_self (List.getElem?_eq_some_iff.1 hm).1] at hm''
    obtain rfl := Option.some.inj hm''
    exact ⟨m, hm, hdeps.symm⟩
  · rw [List.getElem?_set_ne hj] at hm''
    exact ⟨m'', hm'', rfl⟩

variable (id)

/-- A manager that is notified has an empty queue if what it depends on is there; others keep
theirs. -/
theorem notifyOne_ok (hready : H.Ready) {s s' : System σ} {j : ℕ}
    (h : s.notifyOne H j = .ok s') :
    SameShape s s' ∧ Drained j s' ∧ (Drained id s → Drained id s') := by
  unfold System.notifyOne at h
  cases hm : s.managers[j]? with
  | none =>
    rw [hm] at h
    cases h
    refine ⟨SameShape.refl s, ?_, fun h => h⟩
    intro m hm'
    rw [hm] at hm'
    cases hm'
  | some m =>
    rw [hm] at h
    obtain ⟨⟨m', w'⟩, hdeps, heq⟩ := bind_eq_ok.1 h
    cases heq
    have hself : m'.deps = m.deps ∧
        (availableDeps s.data m.deps = .ok true → m'.setQueue = []) := by
      rcases onDepsChange_ok hdeps with ⟨tried, -, -, -, rfl, hres⟩ | ⟨hfalse, rfl, -⟩
      · -- every SET that is tried is accepted
        refine ⟨rfl, fun _ => ?_⟩
        show ((tried.filter fun t => !t.2).map Prod.fst) = []
        rw [(tried_all_true hready hres).2]
        rfl
      · refine ⟨rfl, fun htrue => ?_⟩
        rw [hfalse] at htrue
        cases htrue
    have hdrained : Drained j { s with managers := s.managers.set j m', world := w' } := by
      intro m'' hm'' havail
      rw [List.getElem?_set_self (List.getElem?_eq_some_iff.1 hm).1] at hm''
      obtain rfl := Option.some.inj hm''
      rw [hself.1] at havail
      exact hself.2 havail
    refine ⟨sameShape_set hm hself.1, hdrained, ?_⟩
    intro hold
    by_cases hj : j = id
    · subst hj
      exact hdrained
    · intro m'' hm'' havail
      rw [List.getElem?_set_ne hj] at hm''
      exact hold m'' hm'' havail

/-- So has one that is among several. -/
theorem notifyOnes_ok (hready : H.Ready) (ids : List ℕ) : ∀ {s s' : System σ},
    ids.foldlM (System.notifyOne H) s = .ok s' →
    SameShape s s' ∧ (id ∈ ids ∨ Drained id s → Drained id s') := by
  induction ids with
  | nil =>
    intro s s' h
    cases h
    exact ⟨SameShape.refl s, fun h => h.resolve_left List.not_mem_nil⟩
  | cons j ids ih =>
    intro s s' h
    rw [List.foldlM_cons] at h
    obtain ⟨s₁, hfirst, hrest⟩ := bind_eq_ok.1 h
    obtain ⟨hshape₁, hself, hkeep⟩ := notifyOne_ok id hready hfirst
    obtain ⟨hshape, hrest⟩ := ih hrest
    refine ⟨hshape₁.trans hshape, ?_⟩
    rintro (hmem | hold)
    · rcases List.mem_cons.1 hmem with rfl | hmem
      · exact hrest (Or.inr hself)
      · exact hrest (Or.inl hmem)
    · exact hrest (Or.inr (hkeep hold))

theorem notifyPath_ok (hready : H.Ready) {db table : String} {s s' : System σ}
    {handlers : String × List ℕ} (h : s.notifyPath H db table handlers = .ok s') :
    SameShape s s' ∧ ((id ∈ handlers.2 ∧ pathExist s.data ⟨db, table, handlers.1⟩ = .ok true) ∨
      Drained id s → Drained id s') := by
  obtain ⟨found, hfound, h⟩ := bind_eq_ok.1 h
  cases found with
  | true =>
    obtain ⟨hshape, hdrained⟩ := notifyOnes_ok id hready handlers.2 h
    exact ⟨hshape, fun h => hdrained (h.imp And.left fun h => h)⟩
  | false =>
    cases h
    refine ⟨SameShape.refl s, ?_⟩
    rintro (⟨-, htrue⟩ | hold)
    · rw [hfound] at htrue
      cases htrue
    · exact hold

theorem notifyPaths_ok (hready : H.Ready) {db table : String} (paths : List (String × List ℕ)) :
    ∀ {s s' : System σ}, paths.foldlM (System.notifyPath H db table) s = .ok s' →
      SameShape s s' ∧ ((∃ e ∈ paths, id ∈ e.2 ∧ pathExist s.data ⟨db, table, e.1⟩ = .ok true) ∨
        Drained id s → Drained id s') := by
  induction paths with
  | nil =>
    intro s s' h
    cases h
    refine ⟨SameShape.refl s, ?_⟩
    rintro (⟨e, he, -⟩ | hold)
    · exact absurd he List.not_mem_nil
    · exact hold
  | cons e paths ih =>
    intro s s' h
    rw [List.foldlM_cons] at h
    obtain ⟨s₁, hfirst, hrest⟩ := bind_eq_ok.1 h
    obtain ⟨hshape₁, hdrained₁⟩ := notifyPath_ok id hready hfirst
    obtain ⟨hshape, hdrained⟩ := ih hrest
    refine ⟨hshape₁.trans hshape, ?_⟩
    rw [hshape₁.data] at hdrained
    rintro (⟨e', he', hmem, hpath⟩ | hold)
    · rcases List.mem_cons.1 he' with rfl | he'
      · exact hdrained (Or.inr (hdrained₁ (Or.inl ⟨hmem, hpath⟩)))
      · exact hdrained (Or.inl ⟨e', he', hmem, hpath⟩)
    · exact hdrained (Or.inr (hdrained₁ (Or.inr hold)))

variable {id}

/-- The manager listens, and its dependencies stay the same. -/
theorem listens_of_sameShape {s s' : System σ} (hshape : SameShape s s')
    (h : ∀ m, s.managers[id]? = some m → ∀ dep ∈ m.deps, Listens s.notify id dep) :
    ∀ m, s'.managers[id]? = some m → ∀ dep ∈ m.deps, Listens s'.notify id dep := by
  intro m' hm' dep hdep
  obtain ⟨m, hm, hdeps⟩ := hshape.deps id m' hm'
  rw [hshape.notify]
  exact h m hm dep (hdeps ▸ hdep)

/-- A manager that can accept after a put but could not before depends on the slot. -/
theorem availableDeps_putItem {store : Store} {slot key : String} {value : Json} {deps : List Dep}
    (havail : availableDeps (putItem store slot key value) deps = .ok true)
    (hbefore : availableDeps store deps ≠ .ok true) :
    ∃ dep ∈ deps, dep.slot = slot ∧ pathExist (putItem store slot key value) dep = .ok true := by
  rw [Ne, availableDeps_true_iff] at hbefore
  rw [availableDeps_true_iff] at havail
  push Not at hbefore
  obtain ⟨dep, hdep, hmissing⟩ := hbefore
  refine ⟨dep, hdep, ?_, havail dep hdep⟩
  by_contra hne
  have hsame : pathExist (putItem store slot key value) dep = pathExist store dep :=
    pathExist_congr (lookup_setItem_of_ne hne ..)
  exact hmissing (hsame ▸ havail dep hdep)

/-- **A value is put.**  If the manager could not accept its queue before and can now, one of
its dependencies is new, and the directory calls the manager. -/
theorem InOrder.put (hready : H.Ready) {s s' : System σ} {db table key : String} {value : Json}
    (hord : InOrder id sets s) (h : s.put H db table key value = .ok s') :
    InOrder id sets s' := by
  have horder := hord.order.put (ordered_keptByRetry hready) h
  unfold System.put at h
  dsimp only at h
  cases hpaths : s.notify.lookup (getSlotName db table) with
  | none =>
    rw [hpaths] at h
    cases h
    refine ⟨horder, ?_, hord.listens⟩
    intro m hm havail
    by_cases hbefore : availableDeps s.data m.deps = .ok true
    · exact hord.drained m hm hbefore
    · -- nobody listens to the slot, so no manager depends on it
      obtain ⟨dep, hdep, hslot, -⟩ := availableDeps_putItem havail hbefore
      obtain ⟨paths, ids, hlook, -⟩ := hord.listens m hm dep hdep
      rw [hslot, hpaths] at hlook
      cases hlook
  | some paths =>
    rw [hpaths] at h
    obtain ⟨hshape, hdrained⟩ := notifyPaths_ok id hready paths h
    refine ⟨horder, hdrained ?_, listens_of_sameShape hshape hord.listens⟩
    by_cases hpath : ∃ e ∈ paths, id ∈ e.2 ∧
        pathExist (putItem s.data (getSlotName db table) key value) ⟨db, table, e.1⟩ = .ok true
    · exact Or.inl hpath
    · refine Or.inr ?_
      intro m hm havail
      by_cases hbefore : availableDeps s.data m.deps = .ok true
      · exact hord.drained m hm hbefore
      · -- the manager listens to the dependency, so it is called
        obtain ⟨dep, hdep, hslot, hexist⟩ := availableDeps_putItem havail hbefore
        obtain ⟨paths', ids, hlook, hids, hmem⟩ := hord.listens m hm dep hdep
        rw [hslot, hpaths] at hlook
        obtain rfl := Option.some.inj hlook
        refine absurd ⟨(dep.path, ids), mem_of_lookup hids, hmem, ?_⟩ hpath
        rw [← hexist]
        unfold pathExist
        rw [hslot]
        rfl

/-- Less is in the directory. -/
theorem InOrder.of_data {s : System σ} (hord : InOrder id sets s) {data : Store}
    (hless : ∀ dep, pathExist data dep = .ok true → pathExist s.data dep = .ok true) :
    InOrder id sets { s with data := data } where
  order := hord.order
  drained := by
    intro m hm havail
    apply hord.drained m hm
    rw [availableDeps_true_iff] at havail ⊢
    exact fun dep hdep => hless dep (havail dep hdep)
  listens := hord.listens

/-- An event for the manager itself: if it can accept a SET, none is waiting. -/
theorem InOrder.handled (hready : H.Ready) {s : System σ} {m m' : Manager} {w' : World σ}
    {key : String} {op : Op} {data : Data} (hord : InOrder id sets s)
    (hm : s.managers[id]? = some m)
    (h : m.handler H s.data id s.world key op data = .ok (m', w')) :
    InOrder id (sets ++ setsFor id [.event id key op data])
      { s with managers := s.managers.set id m', world := w' } := by
  have heq : accepted id s.world.calls ++ m.setQueue = sets := hord.order m hm
  have hdrained := hord.drained m hm
  cases op with
  | set =>
    have hsets : setsFor id [.event id key .set data] = [(key, data)] := by simp [setsFor]
    rw [hsets]
    rcases handler_set_ok h with ⟨res, st, st', havail, hset, hcalls, rfl⟩ | ⟨havail, rfl, rfl⟩
    · -- the dependencies are there: nothing waits in front of the SET
      obtain rfl := hready _ _ _ _ _ _ hset
      have hempty := hdrained havail
      refine ⟨About.of_self hm ?_, ?_, listens_of_sameShape (sameShape_set hm rfl) hord.listens⟩
      · rw [hcalls, accepted_append, accepted_tried_self]
        rw [hempty, List.append_nil] at heq
        rw [hempty, heq]
        simp
      · intro m'' hm'' _
        rw [List.getElem?_set_self (List.getElem?_eq_some_iff.1 hm).1] at hm''
        obtain rfl := Option.some.inj hm''
        rw [hempty]
        rfl
    · -- they are not: it waits behind the others
      refine ⟨About.of_self hm ?_, ?_, listens_of_sameShape (sameShape_set hm rfl) hord.listens⟩
      · rw [← heq, List.append_assoc]
      · intro m'' hm'' htrue
        rw [List.getElem?_set_self (List.getElem?_eq_some_iff.1 hm).1] at hm''
        obtain rfl := Option.some.inj hm''
        rw [havail] at htrue
        cases htrue
  | del =>
    have hsets : setsFor id [.event id key .del data] = [] := rfl
    obtain ⟨rfl, hcalls⟩ := handler_del_ok h
    have hacc : accepted id [(id, Call.del key)] = [] := rfl
    rw [hsets, List.append_nil]
    refine ⟨About.of_self hm ?_, ?_, listens_of_sameShape (sameShape_set hm rfl) hord.listens⟩
    · rw [hcalls, accepted_append, hacc, List.append_nil]
      exact heq
    · intro m'' hm'' havail
      rw [List.getElem?_set_self (List.getElem?_eq_some_iff.1 hm).1] at hm''
      obtain rfl := Option.some.inj hm''
      exact hdrained havail
  | other op =>
    cases h
    have hsets : setsFor id [.event id key (.other op) data] = [] := rfl
    rw [hsets, List.append_nil]
    refine ⟨About.of_self hm heq, ?_, listens_of_sameShape (sameShape_set hm rfl) hord.listens⟩
    intro m'' hm'' havail
    rw [List.getElem?_set_self (List.getElem?_eq_some_iff.1 hm).1] at hm''
    obtain rfl := Option.some.inj hm''
    exact hdrained havail

/-- An event for another manager is no SET for this one. -/
theorem setsFor_of_ne {j : ℕ} {key : String} {op : Op} {data : Data} (hj : j ≠ id) :
    setsFor id [.event j key op data] = [] := by
  cases op with
  | set => simp [setsFor, hj]
  | del | other => rfl

/-- An event, for the manager or for another one. -/
theorem InOrder.event (hready : H.Ready) {s s' : System σ} {j : ℕ} {key : String} {op : Op}
    {data : Data} (hord : InOrder id sets s) (h : step H s (.event j key op data) = .ok s') :
    InOrder id (sets ++ setsFor id [.event j key op data]) s' := by
  unfold VppCfgd.step at h
  dsimp only at h
  cases hm : s.managers[j]? with
  | none =>
    rw [hm] at h
    cases h
    by_cases hj : j = id
    · subst hj
      refine ⟨?_, hord.drained, hord.listens⟩
      intro m hm'
      rw [hm] at hm'
      cases hm'
    · rw [setsFor_of_ne hj, List.append_nil]
      exact hord
  | some m =>
    rw [hm] at h
    obtain ⟨⟨m', w'⟩, hhandler, heq⟩ := bind_eq_ok.1 h
    cases heq
    by_cases hj : j = id
    · subst hj
      exact hord.handled hready hm hhandler
    · obtain ⟨calls, hcalls, hacc, hdel⟩ := handler_calls_of_ne hj hhandler
      rw [setsFor_of_ne hj, List.append_nil]
      refine ⟨hord.order.of_ne hj hcalls hacc hdel, ?_, ?_⟩
      · intro m'' hm'' havail
        rw [List.getElem?_set_ne hj] at hm''
        exact hord.drained m'' hm'' havail
      · intro m'' hm'' dep hdep
        rw [List.getElem?_set_ne hj] at hm''
        exact hord.listens m'' hm'' dep hdep

/-- **One action.** -/
theorem InOrder.step (hready : H.Ready) {s s' : System σ} {a : Action}
    (hord : InOrder id sets s) (hthere : ReadsThere s a) (h : step H s a = .ok s') :
    InOrder id (sets ++ setsFor id [a]) s' := by
  cases a with
  | event j key op data =>
    exact hord.event hready h
  | put db table key value =>
    rw [show setsFor id [.put db table key value] = [] from rfl, List.append_nil]
    exact hord.put hready h
  | get db table key =>
    obtain ⟨-, -, heq⟩ := bind_eq_ok.1 h
    cases heq
    -- the slot is there, so reading it does not create it
    obtain ⟨d, hd⟩ := Option.isSome_iff_exists.1 hthere
    rw [show setsFor id [.get db table key] = [] from rfl, List.append_nil]
    apply hord.of_data
    intro dep hdep
    rwa [touchSlot, hd] at hdep
  | getSlot db table =>
    cases h
    obtain ⟨d, hd⟩ := Option.isSome_iff_exists.1 hthere
    rw [show setsFor id [.getSlot db table] = [] from rfl, List.append_nil]
    apply hord.of_data
    intro dep hdep
    rwa [touchSlot, hd] at hdep
  | remove db table key =>
    cases h
    rw [show setsFor id [.remove db table key] = [] from rfl, List.append_nil]
    unfold System.remove
    dsimp only
    split
    · exact hord
    · rename_i d hd
      split
      · exact hord
      · exact hord.of_data fun dep hdep => pathExist_of_pop hd hdep
  | removeSlot db table =>
    cases h
    rw [show setsFor id [.removeSlot db table] = [] from rfl, List.append_nil]
    exact hord.of_data fun dep hdep => pathExist_of_popSlot hdep

theorem InOrder.run (hready : H.Ready) (actions : List Action) :
    ∀ {s s' : System σ} {sets : List (String × Data)}, InOrder id sets s →
      Along (VppCfgd.step H) ReadsThere s actions → actions.foldlM (VppCfgd.step H) s = .ok s' →
      InOrder id (sets ++ setsFor id actions) s' := by
  induction actions with
  | nil =>
    intro s s' sets hord _ h
    cases h
    rwa [show setsFor id [] = [] from rfl, List.append_nil]
  | cons a actions ih =>
    intro s s' sets hord hthere h
    rw [List.foldlM_cons] at h
    obtain ⟨s₁, hfirst, hrest⟩ := bind_eq_ok.1 h
    have hsets : setsFor id (a :: actions) = setsFor id [a] ++ setsFor id actions :=
      List.filterMap_append (l := [a]) ..
    rw [hsets, ← List.append_assoc]
    exact ih (hord.step hready hthere.1 hfirst) (hthere.2 s₁ hfirst) hrest

/-- **SETs are handled in the order in which they came.**  If `set_handler` is always ready and
nobody reads a slot that is not there, the SETs that a manager has accepted are the first ones
that it got, in order; the others are in its queue, in order, and while there are any, something
that the manager depends on is missing. -/
theorem sets_in_order (hready : H.Ready) {state : σ} {managers : List (List Dep)}
    {actions : List Action} {s : System σ}
    (hthere : Along (VppCfgd.step H) ReadsThere (System.start state managers) actions)
    (hrun : actions.foldlM (VppCfgd.step H) (System.start state managers) = .ok s) {m : Manager}
    (hm : s.managers[id]? = some m) :
    accepted id s.world.calls ++ m.setQueue = setsFor id actions ∧
      (availableDeps s.data m.deps = .ok true → m.setQueue = []) := by
  have hfresh := fresh_start state managers
  have hstart : InOrder id [] (System.start state managers) := by
    refine ⟨?_, ?_, hfresh.listens id⟩
    · intro m hm
      rw [hfresh.calls, hfresh.queue m (List.mem_of_getElem? hm)]
      rfl
    · intro m hm _
      exact hfresh.queue m (List.mem_of_getElem? hm)
  have hord := hstart.run hready actions hthere hrun
  exact ⟨hord.order m hm, hord.drained m hm⟩

end Order

/-- The queue is empty after the metadata has come. -/
theorem sets_in_order_metadata : ∃ s m,
    metadataRun.foldlM (step countSets) (System.start 0 metadataDeps) = .ok s ∧
      s.managers[0]? = some m ∧
      accepted 0 s.world.calls ++ m.setQueue = [("vpp", [("dpdk", "")]), ("vpp", [])] ∧
      m.setQueue = [] := by
  have hready : countSets.Ready := by
    intro id st key data res st' h
    cases h
    rfl
  have hthere : Along (step countSets) ReadsThere (System.start 0 metadataDeps) metadataRun :=
    ⟨trivial, fun _ _ => ⟨trivial, fun _ _ => ⟨trivial, fun _ _ => trivial⟩⟩⟩
  obtain ⟨s, m, hrun, hm, havail⟩ := metadataRun_ok
  obtain ⟨horder, hdrained⟩ := sets_in_order hready hthere hrun hm
  exact ⟨s, m, hrun, hm, horder, hdrained havail⟩

end VppCfgd
