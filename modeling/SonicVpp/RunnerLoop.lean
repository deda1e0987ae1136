/-
# The main loop of `vppcfgd`

The `Runner` has one subscriber for every table that a manager was added for.  When the selector
says that something is there, `run` goes through the subscribers in an order that nobody knows
(they are a set), pops each until it gives no key, calls the handlers of the table with what was
popped, and commits.

The selector and the subscribers are of a library.  Nothing is said here of what they hold or of
what they give: a run is told what `select` and `pop` return, call by call, and all that follows
is about what was popped.  What is popped does not depend on what the handlers do, so the loop is
split: `serve` says what a run pops and when it commits, and the run of the system is `act` along
that.  Every message that is popped reaches its managers once, in order (`every_set_accounted`); a
round empties every subscriber and commits what came of it (`round_hands_over`); and the loop with
the managers of `do_work` is the daemon that takes its events in batches (`loop_runs_batches`).
-/
import SonicVpp.ManagerQueue
import SonicVpp.VppCfgSurvives

open PyDict

namespace VppCfgd

/-- What `pop` returns: `key, op, fvs`. -/
structure Message where
  key : String
  op : Op
  fvs : List (String × String)

/-- A table: the number of its database, and its name. -/
abbrev Table := ℕ × String

/-- What a manager is made with. -/
structure ManagerInit where
  db : String
  table : String
  deps : List Dep

/-! ## The runner -/

/-- `callbacks` has the managers to call, by table; the handlers of a manager are its number.
There is a subscriber for a table, or there is none. -/
structure Runner where
  callbacks : Table → Option (List ℕ)
  subscribers : List Table

section Runner

variable (dbId : String → ℕ)

/-- The table that a manager is about. -/
def ManagerInit.at (init : ManagerInit) : Table := (dbId init.db, init.table)

/-- `add_manager`. -/
def Runner.addManager (r : Runner) (init : ManagerInit) (id : ℕ) : Runner :=
  let t := init.at dbId
  { callbacks := Function.update r.callbacks t (some ((r.callbacks t).getD [] ++ [id]))
    subscribers :=
      match r.callbacks t with
      | none => r.subscribers ++ [t]
      | some _ => r.subscribers }

/-- The runner that `do_work` makes: the managers are added in their order. -/
def Runner.start (managers : List ManagerInit) : Runner :=
  managers.zipIdx.foldl (fun r m => r.addManager dbId m.1 m.2) ⟨fun _ => none, []⟩

end Runner

/-! ## The loop -/

/-- What `select` says: a subscriber has something, nothing came in time, or an error. -/
inductive SelectState
  | object
  | timeout
  | error

/-- What happens: `select` returns, and the subscribers are in this order; the subscriber whose
turn it is pops a message; or the subscribers are through, and the configuration is committed. -/
inductive Happening
  | select (state : SelectState) (order : List Table)
  | pop (msg : Message)
  | commit

/-- The runner between two calls, with the subscribers whose turn in this round is still to come;
`none` while it waits in `select`. -/
structure Loop (σ : Type) where
  todo : Option (List Table)
  system : System σ

section Loop

variable {σ : Type} (r : Runner) (H : Handlers σ) (cfgCommit : σ → Except PyError σ)

/-- The handlers of the table are called with a message. -/
def dispatch (t : Table) (msg : Message) (s : System σ) : Except PyError (System σ) :=
  ((r.callbacks t).getD []).foldlM
    (fun s id => step H s (.event id msg.key msg.op (dictOf msg.fvs))) s

/-- `commit`, on the state that the handlers share. -/
def System.commit (s : System σ) : Except PyError (System σ) := do
  let state ← cfgCommit s.world.state
  .ok { s with world := { s.world with state := state } }

/-- `run`, one call.  A runner that waits takes an answer of `select`: it raises on an error, and
begins a round with all its subscribers, or waits again.  In a round it pops the subscriber whose
turn it is, calls the handlers, and leaves it when there is no key; after the last one it commits.
What is not called does not happen. -/
def loopStep (l : Loop σ) : Happening → Except PyError (Loop σ)
  | .select state order =>
    match l.todo, state with
    | none, .error => .error .exception
    | none, .object =>
      .ok (if order.Perm r.subscribers then { l with todo := some order } else l)
    | _, _ => .ok l
  | .pop msg =>
    match l.todo with
    | some (t :: order) =>
      if msg.key = "" then .ok { l with todo := some order }
      else do
        let system ← dispatch r H t msg l.system
        .ok { l with system := system }
    | _ => .ok l
  | .commit =>
    match l.todo with
    | some [] => do
      let system ← l.system.commit cfgCommit
      .ok { todo := none, system := system }
    | _ => .ok l

/-- The loop as it starts. -/
def Loop.start (state : σ) (managers : List ManagerInit) : Loop σ where
  todo := none
  system := System.start state (managers.map ManagerInit.deps)

end Loop

/-! ## What is popped, and when it is committed -/

/-- What the runner does. -/
inductive Served
  | pop (t : Table) (msg : Message)
  | commit
  | raise

/-- One happening: the subscribers that are still to come, and what was done. -/
def serve (r : Runner) (todo : Option (List Table)) :
    Happening → Option (List Table) × List Served
  | .select state order =>
    match todo, state with
    | none, .error => (none, [.raise])
    | none, .object => (if order.Perm r.subscribers then some order else none, [])
    | _, _ => (todo, [])
  | .pop msg =>
    match todo with
    | some (t :: order) => (some (if msg.key = "" then order else t :: order), [.pop t msg])
    | _ => (todo, [])
  | .commit =>
    match todo with
    | some [] => (none, [.commit])
    | _ => (todo, [])

/-- A run. -/
def serveAll (r : Runner) (todo : Option (List Table)) :
    List Happening → Option (List Table) × List Served
  | [] => (todo, [])
  | a :: as =>
    let (todo₁, first) := serve r todo a
    let (todo₂, rest) := serveAll r todo₁ as
    (todo₂, first ++ rest)

theorem serveAll_cons (r : Runner) (todo : Option (List Table)) (a : Happening)
    (as : List Happening) :
    serveAll r todo (a :: as) =
      ((serveAll r (serve r todo a).1 as).1,
        (serve r todo a).2 ++ (serveAll r (serve r todo a).1 as).2) := rfl

section Act

variable {σ : Type} (r : Runner) (H : Handlers σ) (cfgCommit : σ → Except PyError σ)

/-- What one thing that the runner does means for the system. -/
def act (s : System σ) : Served → Except PyError (System σ)
  | .pop t msg => if msg.key = "" then .ok s else dispatch r H t msg s
  | .commit => s.commit cfgCommit
  | .raise => .error .exception

variable {r H cfgCommit}

/-- **One happening.**  The subscribers take their turns, and the system follows. -/
theorem loopStep_eq (l : Loop σ) (a : Happening) :
    loopStep r H cfgCommit l a =
      (serve r l.todo a).2.foldlM (act r H cfgCommit) l.system >>= fun system =>
        .ok ⟨(serve r l.todo a).1, system⟩ := by
  obtain ⟨todo, system⟩ := l
  cases a with
  | select state order =>
    cases todo with
    | none =>
      cases state with
      | object =>
        show Except.ok _ = Except.ok _
        unfold serve
        dsimp only
        split
        · rfl
        · rfl
      | timeout => rfl
      | error => rfl
    | some order' => rfl
  | pop msg =>
    cases todo with
    | none => rfl
    | some order =>
      cases order with
      | nil => rfl
      | cons t order =>
        show _ = ((act r H cfgCommit system (.pop t msg) >>= fun s => pure s) >>= _)
        rw [bind_pure]
        -- a message without a key ends the turn of the subscriber, and tells nobody
        unfold loopStep act serve
        dsimp only
        by_cases hkey : msg.key = ""
        · rw [if_pos hkey, if_pos hkey, if_pos hkey]
          rfl
        · rw [if_neg hkey, if_neg hkey, if_neg hkey]
  | commit =>
    cases todo with
    | none => rfl
    | some order =>
      cases order with
      | nil =>
        show _ = (((system.commit cfgCommit) >>= fun s => pure s) >>= _)
        rw [bind_pure]
        rfl
      | cons t order => rfl

/-- **A run.** -/
theorem loop_eq (as : List Happening) : ∀ l : Loop σ,
    as.foldlM (loopStep r H cfgCommit) l =
      (serveAll r l.todo as).2.foldlM (act r H cfgCommit) l.system >>= fun system =>
        .ok ⟨(serveAll r l.todo as).1, system⟩ := by
  induction as with
  | nil => exact fun l => rfl
  | cons a as ih =>
    intro l
    rw [List.foldlM_cons, loopStep_eq, bind_assoc, serveAll_cons, List.foldlM_append, bind_assoc]
    congr 1
    funext system
    exact ih _

end Act

/-- The messages that were popped from the subscriber of a table. -/
def poppedFrom (t : Table) (served : List Served) : List Message :=
  served.filterMap fun e => match e with
    | .pop t' msg => if t' = t then some msg else none
    | _ => none

theorem poppedFrom_append (t : Table) (served served' : List Served) :
    poppedFrom t (served ++ served') = poppedFrom t served ++ poppedFrom t served' :=
  List.filterMap_append ..

/-! ## Who is called -/

section Registration

variable (dbId : String → ℕ)

/-- The managers of a table, in their order. -/
def managersOf (t : Table) (managers : List ManagerInit) : List ℕ :=
  (managers.zipIdx.filter fun m => m.1.at dbId = t).map Prod.snd

theorem managersOf_append (t : Table) (managers : List ManagerInit) (init : ManagerInit) :
    managersOf dbId t (managers ++ [init]) =
      managersOf dbId t managers ++ if init.at dbId = t then [managers.length] else [] := by
  unfold managersOf
  rw [List.zipIdx_append, List.filter_append, List.map_append, Nat.zero_add]
  by_cases hat : init.at dbId = t
  · simp [hat]
  · simp [hat]

/-- A manager is called for its own table, and once. -/
theorem count_managersOf {managers : List ManagerInit} {id : ℕ} {init : ManagerInit}
    (hinit : managers[id]? = some init) (t : Table) :
    (managersOf dbId t managers).count id = if init.at dbId = t then 1 else 0 := by
  have hmem : id ∈ managersOf dbId t managers ↔ init.at dbId = t := by
    unfold managersOf
    rw [List.mem_map]
    constructor
    · rintro ⟨⟨init', id'⟩, hm, rfl⟩
      obtain ⟨hm, hat⟩ := List.mem_filter.1 hm
      rw [List.mk_mem_zipIdx_iff_getElem?, hinit] at hm
      cases hm
      simpa using hat
    · intro hat
      refine ⟨(init, id), List.mem_filter.2 ⟨?_, by simpa using hat⟩, rfl⟩
      rwa [List.mk_mem_zipIdx_iff_getElem?]
  have hnodup : (managersOf dbId t managers).Nodup := by
    have hsub : (managersOf dbId t managers).Sublist (managers.zipIdx.map Prod.snd) :=
      List.filter_sublist.map _
    apply hsub.nodup
    rw [List.zipIdx_map_snd]
    exact List.nodup_range'
  rw [List.Nodup.count hnodup]
  simp only [hmem]

/-- The last manager is added last. -/
theorem start_append_singleton (managers : List ManagerInit) (init : ManagerInit) :
    Runner.start dbId (managers ++ [init]) =
      (Runner.start dbId managers).addManager dbId init managers.length := by
  unfold Runner.start
  rw [List.zipIdx_append, List.foldl_append, Nat.zero_add]
  rfl

/-- The subscribers after a manager was added. -/
theorem mem_addManager_subscribers {r : Runner} (init : ManagerInit) (id : ℕ)
    (hsubs : ∀ t, t ∈ r.subscribers ↔ r.callbacks t ≠ none) (t : Table) :
    t ∈ (r.addManager dbId init id).subscribers ↔ t ∈ r.subscribers ∨ t = init.at dbId := by
  unfold Runner.addManager
  dsimp only
  cases hcb : r.callbacks (init.at dbId) with
  | none => simp
  | some ids =>
    -- its table has a subscriber already
    constructor
    · exact Or.inl
    · rintro (ht | rfl)
      · exact ht
      · rw [hsubs, hcb]
        simp

/-- **The runner of `do_work`.**  Every table of a manager has one subscriber, and its handlers
are those of the managers that are about it. -/
theorem runner_start (managers : List ManagerInit) :
    (∀ t, ((Runner.start dbId managers).callbacks t).getD [] = managersOf dbId t managers) ∧
      (∀ t, t ∈ (Runner.start dbId managers).subscribers ↔
        (Runner.start dbId managers).callbacks t ≠ none) ∧
      (∀ init ∈ managers, init.at dbId ∈ (Runner.start dbId managers).subscribers) ∧
      (Runner.start dbId managers).subscribers.Nodup := by
  induction managers using List.reverseRecOn with
  | nil => exact ⟨fun t => rfl, fun t => by simp [Runner.start], by simp, List.nodup_nil⟩
  | append_singleton managers init ih =>
    obtain ⟨hcalls, hsubs, hall, hnodup⟩ := ih
    rw [start_append_singleton]
    generalize Runner.start dbId managers = r at hcalls hsubs hall hnodup
    have hmem := mem_addManager_subscribers dbId init managers.length hsubs
    refine ⟨?_, ?_, ?_, ?_⟩
    · intro t
      rw [managersOf_append, ← hcalls]
      unfold Runner.addManager
      by_cases hat : init.at dbId = t
      · subst hat
        simp
      · have hne : t ≠ init.at dbId := Ne.symm hat
        simp [hat, hne]
    · intro t
      rw [hmem, hsubs]
      unfold Runner.addManager
      by_cases hat : t = init.at dbId
      · subst hat
        simp
      · simp [hat]
    · intro init' hinit'
      rw [hmem]
      rcases List.mem_append.1 hinit' with hold | hnew
      · exact Or.inl (hall init' hold)
      · rw [List.mem_singleton.1 hnew]
        exact Or.inr rfl
    · unfold Runner.addManager
      dsimp only
      cases hcb : r.callbacks (init.at dbId) with
      | none =>
        refine List.nodup_append.2 ⟨hnodup, List.nodup_singleton _, ?_⟩
        intro t ht t' ht'
        obtain rfl := List.mem_singleton.1 ht'
        rintro rfl
        exact (hsubs _).1 ht hcb
      | some ids => exact hnodup

end Registration

/-! ## Every message reaches its managers -/

/-- The SETs among messages.  What has no key is nothing. -/
def setsIn (msgs : List Message) : List (String × Data) :=
  msgs.filterMap fun msg => match msg.op with
    | .set => if msg.key = "" then none else some (msg.key, dictOf msg.fvs)
    | _ => none

/-- The keys of the DELs. -/
def delsIn (msgs : List Message) : List String :=
  msgs.filterMap fun msg => match msg.op with
    | .del => if msg.key = "" then none else some msg.key
    | _ => none

theorem setsIn_append (msgs msgs' : List Message) :
    setsIn (msgs ++ msgs') = setsIn msgs ++ setsIn msgs' := List.filterMap_append ..

theorem delsIn_append (msgs msgs' : List Message) :
    delsIn (msgs ++ msgs') = delsIn msgs ++ delsIn msgs' := List.filterMap_append ..

/-- What is said to many, as one of them hears it. -/
theorem filterMap_map_count {α : Type} (f : Action → Option α) (g : ℕ → Action) (id : ℕ)
    (hne : ∀ j, j ≠ id → f (g j) = none) (ids : List ℕ) :
    (ids.map g).filterMap f = (List.replicate (ids.count id) [g id]).flatten.filterMap f := by
  induction ids with
  | nil => rfl
  | cons j ids ih =>
    rw [List.map_cons, List.count_cons]
    by_cases hj : j = id
    · subst hj
      rw [beq_self_eq_true, if_pos rfl, List.replicate_succ, List.flatten_cons,
        List.filterMap_append, ← ih]
      exact List.filterMap_append (l := [g j]) ..
    · rw [List.filterMap_cons_none (hne j hj), ih]
      simp [hj]

section Accounts

variable {σ : Type} {r : Runner} {H : Handlers σ} {cfgCommit : σ → Except PyError σ} {id : ℕ}
  {table : Table} {sets : List (String × Data)} {dels : List String}

/-- What the managers of a table are told of a message, as one of them hears it: it is told once if
the table is its own. -/
theorem popped_heard (hcount : ∀ t, ((r.callbacks t).getD []).count id =
      if table = t then 1 else 0) {α : Type} {f : Action → Option α} {pick : Message → Option α}
    {g : ℕ → Action} {msg : Message} (hne : ∀ j, j ≠ id → f (g j) = none)
    (hpick : f (g id) = pick msg) (t : Table) :
    (((r.callbacks t).getD []).map g).filterMap f =
      (poppedFrom table [.pop t msg]).filterMap pick := by
  rw [filterMap_map_count f g id hne, hcount]
  by_cases ht : table = t
  · subst ht
    simp [poppedFrom, List.filterMap_cons, hpick]
  · have hother : t ≠ table := Ne.symm ht
    simp [poppedFrom, ht, hother]

/-- A message for a table: the managers of this table get it. -/
theorem Balanced.dispatch (hcount : ∀ t, ((r.callbacks t).getD []).count id =
      if table = t then 1 else 0) {s s' : System σ} {t : Table} {msg : Message}
    (hkey : msg.key ≠ "") (hbal : Balanced id sets dels s) (h : dispatch r H t msg s = .ok s') :
    Balanced id (sets ++ setsIn (poppedFrom table [.pop t msg]))
      (dels ++ delsIn (poppedFrom table [.pop t msg])) s' := by
  unfold VppCfgd.dispatch at h
  have hrun : (((r.callbacks t).getD []).map fun j =>
      Action.event j msg.key msg.op (dictOf msg.fvs)).foldlM (VppCfgd.step H) s = .ok s' := by
    rw [List.foldlM_map]
    exact h
  have hbal' := hbal.run _ hrun
  have hsets : setsFor id (((r.callbacks t).getD []).map fun j =>
      Action.event j msg.key msg.op (dictOf msg.fvs)) = setsIn (poppedFrom table [.pop t msg]) := by
    apply popped_heard hcount
    · intro j hj
      cases msg.op <;> simp [hj]
    · cases msg.op <;> simp [hkey]
  have hdels : delsFor id (((r.callbacks t).getD []).map fun j =>
      Action.event j msg.key msg.op (dictOf msg.fvs)) = delsIn (poppedFrom table [.pop t msg]) := by
    apply popped_heard hcount
    · intro j hj
      cases msg.op <;> simp [hj]
    · cases msg.op <;> simp [hkey]
  rwa [hsets, hdels] at hbal'

/-- One thing that the runner does. -/
theorem Balanced.act (hcount : ∀ t, ((r.callbacks t).getD []).count id =
      if table = t then 1 else 0) {s s' : System σ} {e : Served} (hbal : Balanced id sets dels s)
    (h : act r H cfgCommit s e = .ok s') :
    Balanced id (sets ++ setsIn (poppedFrom table [e])) (dels ++ delsIn (poppedFrom table [e]))
      s' := by
  cases e with
  | commit =>
    -- the commit calls no handler
    obtain ⟨state, -, heq⟩ := bind_eq_ok.1 h
    cases heq
    rw [show poppedFrom table [.commit] = [] from rfl]
    show Balanced id (sets ++ []) (dels ++ []) _
    rw [List.append_nil, List.append_nil]
    exact hbal
  | raise => cases h
  | pop t msg =>
    unfold VppCfgd.act at h
    dsimp only at h
    by_cases hkey : msg.key = ""
    · rw [if_pos hkey] at h
      cases h
      have hnone : setsIn (poppedFrom table [.pop t msg]) = [] ∧
          delsIn (poppedFrom table [.pop t msg]) = [] := by
        by_cases ht : t = table
        · cases hop : msg.op <;> simp [poppedFrom, setsIn, delsIn, hop, hkey, ht]
        · simp [poppedFrom, setsIn, delsIn, ht]
      rw [hnone.1, hnone.2, List.append_nil, List.append_nil]
      exact hbal
    · rw [if_neg hkey] at h
      exact hbal.dispatch hcount hkey h

theorem Balanced.acts (hcount : ∀ t, ((r.callbacks t).getD []).count id =
      if table = t then 1 else 0) (served : List Served) :
    ∀ {s s' : System σ} {sets : List (String × Data)} {dels : List String},
      Balanced id sets dels s → served.foldlM (VppCfgd.act r H cfgCommit) s = .ok s' →
      Balanced id (sets ++ setsIn (poppedFrom table served))
        (dels ++ delsIn (poppedFrom table served)) s' := by
  induction served with
  | nil =>
    intro s s' sets dels hbal h
    cases h
    show Balanced id (sets ++ []) (dels ++ []) s
    rw [List.append_nil, List.append_nil]
    exact hbal
  | cons e served ih =>
    intro s s' sets dels hbal h
    rw [List.foldlM_cons] at h
    obtain ⟨s₁, hfirst, hrest⟩ := bind_eq_ok.1 h
    have hpopped : poppedFrom table (e :: served) =
        poppedFrom table [e] ++ poppedFrom table served := poppedFrom_append table [e] served
    rw [hpopped, setsIn_append, delsIn_append, ← List.append_assoc, ← List.append_assoc]
    exact ih (hbal.act hcount hfirst) hrest

/-- What one manager has got when a run is over: what it had, and what was popped for it. -/
theorem run_accounted (dbId : String → ℕ) {managers : List ManagerInit} {as : List Happening}
    {l l' : Loop σ}
    (hrun : as.foldlM (loopStep (Runner.start dbId managers) H cfgCommit) l = .ok l')
    {init : ManagerInit} (hinit : managers[id]? = some init)
    (hbal : Balanced id sets dels l.system) :
    let q := serveAll (Runner.start dbId managers) l.todo as
    l'.todo = q.1 ∧ Balanced id (sets ++ setsIn (poppedFrom (init.at dbId) q.2))
      (dels ++ delsIn (poppedFrom (init.at dbId) q.2)) l'.system := by
  have hcount : ∀ t, (((Runner.start dbId managers).callbacks t).getD []).count id =
      if init.at dbId = t then 1 else 0 := by
    intro t
    rw [(runner_start dbId managers).1, count_managersOf dbId hinit]
  rw [loop_eq] at hrun
  obtain ⟨system, hsystem, heq⟩ := bind_eq_ok.1 hrun
  cases heq
  exact ⟨rfl, hbal.acts hcount _ hsystem⟩

end Accounts

/-- Numbers for the databases. -/
def platformDbId (db : String) : ℕ := if db = "CONFIG_DB" then 4 else 6

/-- The managers that `do_work` makes. -/
def platformManagers : List ManagerInit :=
  [⟨"CONFIG_DB", "PLATFORM", []⟩, ⟨"STATE_DB", "PLATFORM", []⟩]

/-- What `do_work` makes of them. -/
abbrev platformRunner : Runner := Runner.start platformDbId platformManagers

/-- What `pop` returns when there is nothing. -/
def noMessage : Message := ⟨"", .other "", []⟩

/-- The second subscriber has a SET and a DEL, the first one nothing. -/
def platformTurns : List Happening :=
  [.pop ⟨"vpp", .set, []⟩, .pop ⟨"vpp", .del, []⟩, .pop noMessage, .pop noMessage, .commit]

/-- The subscribers in the order of this round. -/
def platformOrder : List Table := [(6, "PLATFORM"), (4, "PLATFORM")]

theorem platform_managers_one :
    platformManagers[1]? = some ⟨"STATE_DB", "PLATFORM", []⟩ := rfl

/-- A round over the subscribers: each is popped until it gives no key, and after the last one
there is the commit. -/
inductive Drains : List Table → List Served → Prop
  | commit : Drains [] [.commit]
  | leave {t : Table} {order : List Table} {msg : Message} {served : List Served}
      (hkey : msg.key = "") (h : Drains order served) : Drains (t :: order) (.pop t msg :: served)
  | take {t : Table} {order : List Table} {msg : Message} {served : List Served}
      (hkey : msg.key ≠ "") (h : Drains (t :: order) served) :
      Drains (t :: order) (.pop t msg :: served)

/-- An answer of `select`, which is not called in a round. -/
def Happening.IsSelect (a : Happening) : Prop := ∃ state order, a = .select state order

section Round

variable {r : Runner}

/-- A runner that waits pops nothing and commits nothing. -/
theorem serveAll_waiting {as : List Happening} (has : ∀ a ∈ as, ¬ a.IsSelect) :
    serveAll r none as = (none, []) := by
  induction as with
  | nil => rfl
  | cons a as ih =>
    rw [List.forall_mem_cons] at has
    have hfirst : serve r none a = (none, []) := by
      cases a with
      | select state order => exact absurd ⟨state, order, rfl⟩ has.1
      | pop msg => rfl
      | commit => rfl
    rw [serveAll_cons, hfirst, ih has.2]
    rfl

/-- What is done until the runner waits again is a round. -/
theorem drains_of_done {as : List Happening} (has : ∀ a ∈ as, ¬ a.IsSelect) :
    ∀ {order : List Table}, (serveAll r (some order) as).1 = none →
      Drains order (serveAll r (some order) as).2 := by
  induction as with
  | nil => exact fun hdone => absurd hdone (Option.some_ne_none _)
  | cons a as ih =>
    rw [List.forall_mem_cons] at has
    intro order hdone
    rw [serveAll_cons] at hdone ⊢
    cases a with
    | select state order' => exact absurd ⟨state, order', rfl⟩ has.1
    | pop msg =>
      cases order with
      | nil => exact ih has.2 hdone
      | cons t order =>
        by_cases hkey : msg.key = ""
        · have hserve : serve r (some (t :: order)) (.pop msg) = (some order, [.pop t msg]) := by
            simp [serve, hkey]
          rw [hserve] at hdone ⊢
          exact .leave hkey (ih has.2 hdone)
        · have hserve : serve r (some (t :: order)) (.pop msg) =
              (some (t :: order), [.pop t msg]) := by
            simp [serve, hkey]
          rw [hserve] at hdone ⊢
          exact .take hkey (ih has.2 hdone)
    | commit =>
      cases order with
      | nil =>
        have hserve : serve r (some []) .commit = (none, [.commit]) := rfl
        rw [hserve, serveAll_waiting has.2]
        exact .commit
      | cons t order => exact ih has.2 hdone

variable {order : List Table} {served : List Served}

/-- A round commits once, when everything has been popped. -/
theorem Drains.commits (h : Drains order served) :
    ∃ pops, served = pops ++ [.commit] ∧ ∀ e ∈ pops, ∃ t ∈ order, ∃ msg, e = .pop t msg := by
  induction h with
  | commit => exact ⟨[], rfl, fun e he => absurd he List.not_mem_nil⟩
  | @leave t order msg served _ _ ih =>
    obtain ⟨pops, rfl, hpops⟩ := ih
    refine ⟨.pop t msg :: pops, rfl, List.forall_mem_cons.2 ⟨⟨t, List.mem_cons_self, msg, rfl⟩, ?_⟩⟩
    intro e he
    obtain ⟨t', ht', hmsg⟩ := hpops e he
    exact ⟨t', List.mem_cons_of_mem _ ht', hmsg⟩
  | @take t order msg served _ _ ih =>
    obtain ⟨pops, rfl, hpops⟩ := ih
    exact ⟨.pop t msg :: pops, rfl,
      List.forall_mem_cons.2 ⟨⟨t, List.mem_cons_self, msg, rfl⟩, hpops⟩⟩

/-- A subscriber that is not in the order is not popped. -/
theorem Drains.poppedFrom_of_not_mem (h : Drains order served) {t : Table} (ht : t ∉ order) :
    poppedFrom t served = [] := by
  obtain ⟨pops, rfl, hpops⟩ := h.commits
  unfold poppedFrom
  rw [List.filterMap_eq_nil_iff]
  intro e he
  rcases List.mem_append.1 he with he | he
  · obtain ⟨t', ht', msg, rfl⟩ := hpops e he
    have hne : t' ≠ t := fun h => ht (h ▸ ht')
    simp [hne]
  · obtain rfl := List.mem_singleton.1 he
    rfl

/-- **Each subscriber is emptied**: it is popped up to the first message without a key, and no
further. -/
theorem Drains.empties (h : Drains order served) (hnodup : order.Nodup) {t : Table}
    (ht : t ∈ order) : ∃ drained last, poppedFrom t served = drained ++ [last] ∧
      (∀ msg ∈ drained, msg.key ≠ "") ∧ last.key = "" := by
  induction h with
  | commit => exact absurd ht List.not_mem_nil
  | @leave t' order msg served hkey h ih =>
    rw [List.nodup_cons] at hnodup
    by_cases htt : t' = t
    · subst htt
      refine ⟨[], msg, ?_, fun msg hmsg => absurd hmsg List.not_mem_nil, hkey⟩
      have hrest := h.poppedFrom_of_not_mem hnodup.1
      show poppedFrom t' ([.pop t' msg] ++ served) = _
      rw [poppedFrom_append, hrest]
      simp [poppedFrom]
    · have ht' : t ∈ order := (List.mem_cons.1 ht).resolve_left (Ne.symm htt)
      obtain ⟨drained, last, hpopped, hkeys⟩ := ih hnodup.2 ht'
      refine ⟨drained, last, ?_, hkeys⟩
      show poppedFrom t ([.pop t' msg] ++ served) = _
      rw [poppedFrom_append, hpopped]
      simp [poppedFrom, htt]
  | @take t' order msg served hkey h ih =>
    obtain ⟨drained, last, hpopped, hkeys, hlast⟩ := ih hnodup ht
    have hfirst : poppedFrom t (.pop t' msg :: served) =
        poppedFrom t [.pop t' msg] ++ poppedFrom t served := poppedFrom_append t [_] served
    by_cases htt : t' = t
    · subst htt
      refine ⟨msg :: drained, last, ?_, List.forall_mem_cons.2 ⟨hkey, hkeys⟩, hlast⟩
      rw [hfirst, hpopped]
      simp [poppedFrom]
    · refine ⟨drained, last, ?_, hkeys, hlast⟩
      rw [hfirst, hpopped]
      simp [poppedFrom, htt]

end Round

/-- What has no key is no SET and no DEL. -/
theorem setsIn_last {drained : List Message} {last : Message} (hlast : last.key = "") :
    setsIn (drained ++ [last]) = setsIn drained ∧ delsIn (drained ++ [last]) = delsIn drained := by
  rw [setsIn_append, delsIn_append]
  cases hop : last.op <;> simp [setsIn, delsIn, hop, hlast]

/-- **A round hands over what it pops, and commits it.**  From any state in which the runner waits,
with any order of the subscribers: when it waits again, every subscriber was popped up to the first
message without a key, once; a manager has got everything before that, and has accepted it or put
it into its queue; and there was one commit, after all of this. -/
theorem round_hands_over {σ : Type} {H : Handlers σ} {cfgCommit : σ → Except PyError σ} {id : ℕ}
    (dbId : String → ℕ) {managers : List ManagerInit} {turns : List Happening}
    {order : List Table} {l l' : Loop σ} (hidle : l.todo = none)
    (horder : order.Perm (Runner.start dbId managers).subscribers)
    (hturns : ∀ a ∈ turns, ¬ a.IsSelect)
    (hround : (.select .object order :: turns).foldlM
      (loopStep (Runner.start dbId managers) H cfgCommit) l = .ok l') (hdone : l'.todo = none)
    {init : ManagerInit} {m m' : Manager} (hinit : managers[id]? = some init)
    (hm : l.system.managers[id]? = some m) (hm' : l'.system.managers[id]? = some m') :
    ∃ pops drained last,
      (serveAll (Runner.start dbId managers) none (.select .object order :: turns)).2 =
        pops ++ [.commit] ∧ (∀ e ∈ pops, ∃ t ∈ order, ∃ msg, e = .pop t msg) ∧
      poppedFrom (init.at dbId) pops = drained ++ [last] ∧
      (∀ msg ∈ drained, msg.key ≠ "") ∧ last.key = "" ∧
      (accepted id l'.system.world.calls ++ m'.setQueue).Perm
        (accepted id l.system.world.calls ++ m.setQueue ++ setsIn drained) ∧
      deleted id l'.system.world.calls = deleted id l.system.world.calls ++ delsIn drained := by
  have hbal : Balanced id (accepted id l.system.world.calls ++ m.setQueue)
      (deleted id l.system.world.calls) l.system := by
    intro x hx
    rw [hm] at hx
    cases hx
    exact ⟨List.Perm.refl _, rfl⟩
  obtain ⟨htodo, hbal'⟩ := run_accounted dbId hround hinit hbal
  rw [hidle] at htodo hbal'
  have hselect : serve (Runner.start dbId managers) none (.select .object order) =
      (some order, []) := by
    simp [serve, horder]
  have hserved : serveAll (Runner.start dbId managers) none (.select .object order :: turns) =
      serveAll (Runner.start dbId managers) (some order) turns := by
    rw [serveAll_cons, hselect]
    rfl
  rw [hserved] at htodo hbal' ⊢
  have hdrains := drains_of_done hturns (htodo.symm.trans hdone)
  obtain ⟨-, -, hall, hnodup⟩ := runner_start dbId managers
  have hmem : init.at dbId ∈ order :=
    horder.mem_iff.2 (hall init (List.mem_of_getElem? hinit))
  obtain ⟨pops, hpops, honly⟩ := hdrains.commits
  obtain ⟨drained, last, hpopped, hkeys, hlast⟩ :=
    hdrains.empties (horder.nodup_iff.2 hnodup) hmem
  obtain ⟨hsets, hdels⟩ := hbal' m' hm'
  rw [hpopped, (setsIn_last hlast).1] at hsets
  rw [hpopped, (setsIn_last hlast).2] at hdels
  refine ⟨pops, drained, last, hpops, honly, ?_, hkeys, hlast, hsets, hdels⟩
  -- the commit is no message
  rw [hpops, poppedFrom_append] at hpopped
  rw [← hpopped]
  exact (List.append_nil _).symm

/-- The second subscriber has both messages, and the first one has none. -/
theorem round_hands_over_platform : ∃ l' m' pops drained last,
    (.select .object platformOrder :: platformTurns).foldlM
        (loopStep platformRunner countSets .ok) (Loop.start 0 platformManagers) = .ok l' ∧
      l'.system.managers[1]? = some m' ∧
      poppedFrom (6, "PLATFORM") pops = drained ++ [last] ∧ last.key = "" ∧
      (accepted 1 l'.system.world.calls ++ m'.setQueue).Perm (setsIn drained) := by
  have hturns : ∀ a ∈ platformTurns, ¬ a.IsSelect := by
    intro a ha
    rintro ⟨state, order, rfl⟩
    simp [platformTurns] at ha
  obtain ⟨l', m', hround, hdone, hm'⟩ : ∃ l' m',
      (.select .object platformOrder :: platformTurns).foldlM
        (loopStep platformRunner countSets .ok) (Loop.start 0 platformManagers) = .ok l' ∧
      l'.todo = none ∧ l'.system.managers[1]? = some m' := ⟨_, _, rfl, rfl, rfl⟩
  obtain ⟨pops, drained, last, -, -, hpopped, -, hlast, hperm, -⟩ :=
    round_hands_over platformDbId rfl (by decide) hturns hround hdone platform_managers_one rfl hm'
  exact ⟨l', m', pops, drained, last, hround, hm', hpopped, hlast, hperm⟩

/-! ## The managers of `do_work` -/

/-- `VppCfgMgr`: `set_handler` and `del_handler`. -/
def vppCfgMgr (L : VppCfg.Loads) : Handlers VppCfg.Daemon where
  setHandler _ d key data :=
    if key ≠ "vpp" then .ok (true, d)
    else do
      let d ← VppCfg.handleConfigData L data d
      .ok (true, d)
  delHandler _ d _ := .ok d

/-- The event that a message is to a `VppCfgMgr`.  A message without a key, or with an operation
that is no SET and no DEL, is none. -/
def Message.event (msg : Message) : Option VppCfg.Event :=
  if msg.key = "" then none
  else match msg.op with
    | .set => some (.set msg.key msg.fvs)
    | .del => some (.del msg.key)
    | .other _ => none

/-- The messages that were popped, up to an error of `select`. -/
def popped : List Served → List Message
  | [] => []
  | .pop _ msg :: served => msg :: popped served
  | .commit :: served => popped served
  | .raise :: _ => []

/-- `select` was in error. -/
def raised (served : List Served) : Bool :=
  served.any fun e => match e with
    | .raise => true
    | _ => false

/-- The events between the commits, and those after the last one, up to an error of `select`. -/
def batches : List Served → List (List VppCfg.Event) × List VppCfg.Event
  | [] => ([], [])
  | .commit :: served => ([] :: (batches served).1, (batches served).2)
  | .pop _ msg :: served =>
    match batches served with
    | ([], last) => ([], msg.event.toList ++ last)
    | (batch :: rest, last) => ((msg.event.toList ++ batch) :: rest, last)
  | .raise :: _ => ([], [])

/-- The batches have what was popped, in order. -/
theorem batches_flatten (served : List Served) :
    (batches served).1.flatten ++ (batches served).2 =
      (popped served).filterMap Message.event := by
  induction served with
  | nil => rfl
  | cons e served ih =>
    cases e with
    | commit => exact ih
    | raise => rfl
    | pop t msg =>
      have hpopped : (popped (.pop t msg :: served)).filterMap Message.event =
          msg.event.toList ++ (popped served).filterMap Message.event := by
        show (msg :: popped served).filterMap _ = _
        cases hev : msg.event with
        | none => rw [List.filterMap_cons_none hev]; rfl
        | some ev => rw [List.filterMap_cons_some hev]; rfl
      rw [hpopped, ← ih, batches]
      generalize batches served = b
      obtain ⟨bs, last⟩ := b
      cases bs with
      | nil => rfl
      | cons batch rest => simp

section Platform

variable (L : VppCfg.Loads) (env : VppCfg.Env)

/-- What one thing that the runner does means for the daemon. -/
def daemonAct (d : VppCfg.Daemon) : Served → Except PyError VppCfg.Daemon
  | .pop _ msg => msg.event.toList.foldlM (VppCfg.handler L) d
  | .commit => VppCfg.commit env d
  | .raise => .error .exception

/-- The batches, the events after the last one, and the error of `select`, if there was one. -/
def runServed (served : List Served) (d : VppCfg.Daemon) : Except PyError VppCfg.Daemon :=
  VppCfg.runBatches L env (batches served).1 d >>= fun d =>
    (batches served).2.foldlM (VppCfg.handler L) d >>= fun d =>
      if raised served then .error .exception else .ok d

/-- Events and commits, taken in batches. -/
theorem daemonAct_batches (served : List Served) : ∀ d : VppCfg.Daemon,
    served.foldlM (daemonAct L env) d = runServed L env served d := by
  induction served with
  | nil => exact fun d => rfl
  | cons e served ih =>
    intro d
    rw [List.foldlM_cons]
    unfold runServed
    cases e with
    | raise => rfl
    | commit =>
      show (VppCfg.commit env d >>= _) = (VppCfg.runBatches L env ([] :: _) d >>= _)
      unfold VppCfg.runBatches
      rw [List.foldlM_cons, bind_assoc]
      show _ = VppCfg.commit env d >>= _
      congr 1
      funext d'
      exact ih d'
    | pop t msg =>
      have hraised : raised (.pop t msg :: served) = raised served := rfl
      show (msg.event.toList.foldlM (VppCfg.handler L) d >>= _) = _
      rw [funext ih, hraised, batches]
      unfold runServed
      -- the event joins the first batch, or the one that is still open
      generalize batches served = b
      obtain ⟨bs, last⟩ := b
      cases bs with
      | nil =>
        show (_ >>= fun d => last.foldlM _ d >>= _) = List.foldlM _ d (_ ++ last) >>= _
        rw [List.foldlM_append, bind_assoc]
      | cons batch rest =>
        unfold VppCfg.runBatches VppCfg.runBatch
        simp only [List.foldlM_cons, List.foldlM_append, bind_assoc]

variable {L env}

/-- The queues of the managers are empty. -/
def NothingQueued {σ : Type} (s : System σ) : Prop := s.managers = [⟨[], []⟩, ⟨[], []⟩]

/-- An event for one of the two managers. -/
theorem step_platform {s : System VppCfg.Daemon} (hs : NothingQueued s) {id : ℕ} (hid : id < 2)
    {msg : Message} (hkey : msg.key ≠ "") :
    (∃ e, step (vppCfgMgr L) s (.event id msg.key msg.op (dictOf msg.fvs)) = .error e ∧
        msg.event.toList.foldlM (VppCfg.handler L) s.world.state = .error e) ∨
      ∃ s', step (vppCfgMgr L) s (.event id msg.key msg.op (dictOf msg.fvs)) = .ok s' ∧
        msg.event.toList.foldlM (VppCfg.handler L) s.world.state = .ok s'.world.state ∧
        NothingQueued s' := by
  have hm : s.managers[id]? = some ⟨[], []⟩ := by
    rw [hs]
    interval_cases id
    · rfl
    · rfl
  -- the managers depend on nothing, so they never queue
  have hset : s.managers.set id ⟨[], []⟩ = s.managers := by
    obtain ⟨h, hget⟩ := List.getElem?_eq_some_iff.1 hm
    rw [← hget]
    exact List.set_getElem_self h
  unfold step Message.event
  dsimp only
  rw [hm, if_neg hkey]
  dsimp only
  cases hop : msg.op with
  | other op =>
    refine Or.inr ⟨_, rfl, rfl, ?_⟩
    show s.managers.set id ⟨[], []⟩ = _
    rw [hset, hs]
  | del =>
    refine Or.inr ⟨_, rfl, rfl, ?_⟩
    show s.managers.set id ⟨[], []⟩ = _
    rw [hset, hs]
  | set =>
    show (∃ e, _ ∧ ([VppCfg.Event.set msg.key msg.fvs].foldlM (VppCfg.handler L) s.world.state) = _)
      ∨ ∃ s', _ ∧ ([VppCfg.Event.set msg.key msg.fvs].foldlM (VppCfg.handler L) s.world.state) = _ ∧
        _
    rw [List.foldlM_cons]
    unfold Manager.handler callSet vppCfgMgr VppCfg.handler
    dsimp only
    by_cases hvpp : msg.key ≠ "vpp"
    · rw [if_pos hvpp, if_pos hvpp]
      refine Or.inr ⟨_, rfl, rfl, ?_⟩
      show s.managers.set id ⟨[], []⟩ = _
      rw [hset, hs]
    · rw [if_neg hvpp, if_neg hvpp]
      cases hdata : VppCfg.handleConfigData L (dictOf msg.fvs) s.world.state with
      | error e => exact Or.inl ⟨e, rfl, rfl⟩
      | ok d =>
        refine Or.inr ⟨_, rfl, rfl, ?_⟩
        show s.managers.set id ⟨[], []⟩ = _
        rw [hset, hs]

/-- A table that has a subscriber has one manager. -/
theorem platform_callbacks {dbId : String → ℕ} (hne : dbId "CONFIG_DB" ≠ dbId "STATE_DB")
    {t : Table} (ht : t ∈ (Runner.start dbId platformManagers).subscribers) :
    ∃ id < 2, ((Runner.start dbId platformManagers).callbacks t).getD [] = [id] := by
  have hsubs : (Runner.start dbId platformManagers).subscribers =
      [(dbId "CONFIG_DB", "PLATFORM"), (dbId "STATE_DB", "PLATFORM")] := by
    have hne' : (dbId "STATE_DB", "PLATFORM") ≠ (dbId "CONFIG_DB", "PLATFORM") := by
      simpa using Ne.symm hne
    simp [Runner.start, platformManagers, Runner.addManager, ManagerInit.at,
      Function.update_of_ne hne']
  rw [(runner_start dbId platformManagers).1]
  rw [hsubs, List.mem_cons, List.mem_singleton] at ht
  rcases ht with rfl | rfl
  · exact ⟨0, by omega, by simp [managersOf, platformManagers, ManagerInit.at, Ne.symm hne]⟩
  · exact ⟨1, by omega, by simp [managersOf, platformManagers, ManagerInit.at, hne]⟩

/-- One thing that the runner does, for the daemon. -/
theorem act_platform {r : Runner} {e : Served}
    (he : ∀ t msg, e = .pop t msg → ∃ id < 2, (r.callbacks t).getD [] = [id])
    {s : System VppCfg.Daemon} (hs : NothingQueued s) :
    (∃ err, act r (vppCfgMgr L) (VppCfg.commit env) s e = .error err ∧
        daemonAct L env s.world.state e = .error err) ∨
      ∃ s', act r (vppCfgMgr L) (VppCfg.commit env) s e = .ok s' ∧
        daemonAct L env s.world.state e = .ok s'.world.state ∧ NothingQueued s' := by
  cases e with
  | commit =>
    unfold act System.commit daemonAct
    dsimp only
    cases hcommit : VppCfg.commit env s.world.state with
    | error err => exact Or.inl ⟨err, rfl, rfl⟩
    | ok d => exact Or.inr ⟨_, rfl, rfl, hs⟩
  | raise => exact Or.inl ⟨.exception, rfl, rfl⟩
  | pop t msg =>
    obtain ⟨id, hid, hids⟩ := he t msg rfl
    unfold act daemonAct
    dsimp only
    by_cases hkey : msg.key = ""
    · rw [if_pos hkey]
      refine Or.inr ⟨s, rfl, ?_, hs⟩
      unfold Message.event
      rw [if_pos hkey]
      rfl
    · rw [if_neg hkey]
      unfold dispatch
      rw [hids, List.foldlM_cons]
      show (∃ err, (_ >>= pure) = _ ∧ _) ∨ ∃ s', (_ >>= pure) = _ ∧ _
      rw [bind_pure]
      exact step_platform hs hid hkey

theorem acts_platform {r : Runner} (served : List Served) :
    (∀ t msg, .pop t msg ∈ served → ∃ id < 2, (r.callbacks t).getD [] = [id]) →
      ∀ {s : System VppCfg.Daemon}, NothingQueued s →
        (∃ err, served.foldlM (act r (vppCfgMgr L) (VppCfg.commit env)) s = .error err ∧
          served.foldlM (daemonAct L env) s.world.state = .error err) ∨
        ∃ s', served.foldlM (act r (vppCfgMgr L) (VppCfg.commit env)) s = .ok s' ∧
          served.foldlM (daemonAct L env) s.world.state = .ok s'.world.state ∧
          NothingQueued s' := by
  induction served with
  | nil => exact fun _ s hs => Or.inr ⟨s, rfl, rfl, hs⟩
  | cons e served ih =>
    intro hone s hs
    rw [List.foldlM_cons, List.foldlM_cons]
    have he : ∀ t msg, e = .pop t msg → ∃ id < 2, (r.callbacks t).getD [] = [id] := by
      rintro t msg rfl
      exact hone t msg List.mem_cons_self
    rcases act_platform he hs with ⟨err, hact, hdaemon⟩ | ⟨s', hact, hdaemon, hs'⟩
    · rw [hact, hdaemon]
      exact Or.inl ⟨err, rfl, rfl⟩
    · rw [hact, hdaemon]
      exact ih (fun t msg hmem => hone t msg (List.mem_cons_of_mem _ hmem)) hs'

end Platform

/-! ## What is popped has a subscriber -/

/-- The turns of a round are those of subscribers. -/
def Subscribed (r : Runner) (todo : Option (List Table)) : Prop :=
  ∀ order, todo = some order → ∀ t ∈ order, t ∈ r.subscribers

theorem Subscribed.serve {r : Runner} {todo : Option (List Table)} (hq : Subscribed r todo)
    (a : Happening) :
    Subscribed r (serve r todo a).1 ∧
      ∀ t msg, .pop t msg ∈ (serve r todo a).2 → t ∈ r.subscribers := by
  cases a with
  | select state order =>
    cases todo with
    | some order' => exact ⟨hq, fun t msg hmem => absurd hmem List.not_mem_nil⟩
    | none =>
      cases state with
      | timeout => exact ⟨hq, fun t msg hmem => absurd hmem List.not_mem_nil⟩
      | error => exact ⟨hq, fun t msg hmem => by cases List.mem_singleton.1 hmem⟩
      | object =>
        refine ⟨?_, fun t msg hmem => absurd hmem List.not_mem_nil⟩
        intro order' horder' t ht
        unfold VppCfgd.serve at horder'
        dsimp only at horder'
        split at horder'
        · rename_i hperm
          cases horder'
          exact hperm.mem_iff.1 ht
        · cases horder'
  | pop msg =>
    cases todo with
    | none => exact ⟨hq, fun t msg hmem => absurd hmem List.not_mem_nil⟩
    | some order =>
      cases order with
      | nil => exact ⟨hq, fun t msg hmem => absurd hmem List.not_mem_nil⟩
      | cons t order =>
        have hall := hq _ rfl
        refine ⟨?_, fun t' msg' hmem => ?_⟩
        · intro order' horder' t' ht'
          unfold VppCfgd.serve at horder'
          dsimp only at horder'
          split at horder'
          · cases horder'
            exact hall t' (List.mem_cons_of_mem _ ht')
          · cases horder'
            exact hall t' ht'
        · cases List.mem_singleton.1 hmem
          exact hall t List.mem_cons_self
  | commit =>
    cases todo with
    | none => exact ⟨hq, fun t msg hmem => absurd hmem List.not_mem_nil⟩
    | some order =>
      cases order with
      | nil =>
        refine ⟨fun order' horder' => ?_, fun t msg hmem => ?_⟩
        · cases horder'
        · cases List.mem_singleton.1 hmem
      | cons t order => exact ⟨hq, fun t msg hmem => absurd hmem List.not_mem_nil⟩

theorem Subscribed.serveAll {r : Runner} (as : List Happening) :
    ∀ {todo : Option (List Table)}, Subscribed r todo →
      ∀ t msg, .pop t msg ∈ (serveAll r todo as).2 → t ∈ r.subscribers := by
  induction as with
  | nil => exact fun _ t msg hmem => absurd hmem List.not_mem_nil
  | cons a as ih =>
    intro todo hq t msg hmem
    rw [serveAll_cons] at hmem
    rcases List.mem_append.1 hmem with hfirst | hrest
    · exact (hq.serve a).2 t msg hfirst
    · exact ih (hq.serve a).1 t msg hrest

/-- **Nothing is uncommitted while the runner waits.**  If it does not wait at first, it commits
before it does. -/
theorem batches_closed {r : Runner} (as : List Happening) : ∀ {todo : Option (List Table)},
    (serveAll r todo as).1 = none →
      (batches (serveAll r todo as).2).2 = [] ∧
        (todo ≠ none → (batches (serveAll r todo as).2).1 ≠ []) := by
  induction as with
  | nil => exact fun htodo => ⟨rfl, fun hne => absurd htodo hne⟩
  | cons a as ih =>
    intro todo htodo
    rw [serveAll_cons] at htodo ⊢
    obtain ⟨hlast, hbatch⟩ := ih htodo
    cases a with
    | select state order =>
      cases todo with
      | some order' => exact ⟨hlast, hbatch⟩
      | none =>
        cases state with
        | error => exact ⟨rfl, fun hne => absurd rfl hne⟩
        | timeout => exact ⟨hlast, fun hne => absurd rfl hne⟩
        | object => exact ⟨hlast, fun hne => absurd rfl hne⟩
    | pop msg =>
      cases todo with
      | none => exact ⟨hlast, fun hne => absurd rfl hne⟩
      | some order =>
        cases order with
        | nil => exact ⟨hlast, hbatch⟩
        | cons t order =>
          -- the message goes into the first of the batches that follow
          have hsome := hbatch (Option.some_ne_none _)
          have hserved : (serve r (some (t :: order)) (.pop msg)).2 = [.pop t msg] := rfl
          rw [hserved, List.singleton_append, batches]
          generalize batches _ = b at hlast hsome ⊢
          obtain ⟨bs, last⟩ := b
          cases bs with
          | nil => exact absurd rfl hsome
          | cons batch rest => exact ⟨hlast, fun _ => List.cons_ne_nil _ _⟩
    | commit =>
      cases todo with
      | none => exact ⟨hlast, fun hne => absurd rfl hne⟩
      | some order =>
        cases order with
        | nil => exact ⟨hlast, fun _ => List.cons_ne_nil _ _⟩
        | cons t order => exact ⟨hlast, hbatch⟩

/-- **The loop is the daemon that takes its events in batches.**  Whatever `select` and `pop`
return, the state of the configuration is what the batches make of the template, an exception
included, and an error of `select` is one.  The batches have the events of both tables in the order
in which they were popped; and while the runner waits there is no event that was not committed. -/
theorem loop_runs_batches {dbId : String → ℕ} (hne : dbId "CONFIG_DB" ≠ dbId "STATE_DB")
    (L : VppCfg.Loads) (env : VppCfg.Env) (template : VppCfg.Fields) (as : List Happening) :
    let r := Runner.start dbId platformManagers
    let q := serveAll r none as
    let bs := batches q.2
    (as.foldlM (loopStep r (vppCfgMgr L) (VppCfg.commit env))
          (Loop.start (.start template) platformManagers)).map (fun l => l.system.world.state) =
        VppCfg.runBatches L env bs.1 (.start template) >>= (fun d =>
          bs.2.foldlM (VppCfg.handler L) d >>= fun d =>
            if raised q.2 then .error .exception else .ok d) ∧
      bs.1.flatten ++ bs.2 = (popped q.2).filterMap Message.event ∧
      (q.1 = none → bs.2 = []) := by
  intro r q bs
  refine ⟨?_, batches_flatten q.2, fun htodo => (batches_closed as htodo).1⟩
  have hwait : Subscribed r none := fun order h => by cases h
  have hpops := hwait.serveAll as
  have hone : ∀ t msg, .pop t msg ∈ q.2 → ∃ id < 2, (r.callbacks t).getD [] = [id] :=
    fun t msg hmem => platform_callbacks hne (hpops t msg hmem)
  have hstart : NothingQueued
      (Loop.start (VppCfg.Daemon.start template) platformManagers).system := rfl
  have hbatches := daemonAct_batches L env q.2 (.start template)
  unfold runServed at hbatches
  rw [loop_eq, ← hbatches]
  rcases acts_platform q.2 hone hstart with
    ⟨err, hacts, hdaemon⟩ | ⟨s', hacts, hdaemon, -⟩
  · show Except.map _ ((q.2.foldlM _ _) >>= _) = _
    rw [hacts]
    exact hdaemon.symm
  · show Except.map _ ((q.2.foldlM _ _) >>= _) = _
    rw [hacts]
    exact hdaemon.symm

/-- An update that comes in the second database is one batch. -/
theorem loop_runs_batches_late :
    ([.select .object platformOrder, .pop ⟨"vpp", .set, [("unix", "\x7b\x7d")]⟩, .pop noMessage,
          .pop noMessage, .commit, .select .timeout []].foldlM
          (loopStep platformRunner (vppCfgMgr VppCfg.lateLoads) (VppCfg.commit ⟨true, false⟩))
          (Loop.start (.start VppCfg.lateTemplate) platformManagers)).map
        (fun l => l.system.world.state) =
      VppCfg.runBatches VppCfg.lateLoads ⟨true, false⟩ [[VppCfg.unixUpdate]]
        (.start VppCfg.lateTemplate) := by
  have hne : platformDbId "CONFIG_DB" ≠ platformDbId "STATE_DB" := by decide
  have hrun := (loop_runs_batches hne VppCfg.lateLoads ⟨true, false⟩ VppCfg.lateTemplate
    [.select .object platformOrder, .pop ⟨"vpp", .set, [("unix", "\x7b\x7d")]⟩, .pop noMessage,
      .pop noMessage, .commit, .select .timeout []]).1
  exact hrun

end VppCfgd
