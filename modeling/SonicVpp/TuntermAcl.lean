/-
# The tunnel termination ACL plugin (`tunterm_acl_api.c`, `tunterm_acl_redirect.c`)

An ACL is a classify table with one session for each destination address.  The plugin
keeps a redirect entry behind every session (a pool, and a hash from match and table to
the pool index), the address family of every table it created, and for every interface
the tables attached for IPv4 and IPv6.

`vnet_classify_main`, the FIB and the feature arcs are VPP's.  Tables are kept here as
maps from masked keys to entries; what a call to VPP answers where that is not fixed by
the state (a new table, a session that cannot be added, a feature that cannot be enabled)
comes with the request.  The path API is a parameter.
-/
import SonicVpp.RunInvariant
import SonicVpp.SlotPool

namespace TuntermAcl

/-! ## Data -/

/-- The error codes of `rv`; `none` stands for 0, and `upstream` for a code that VPP
answers. -/
inductive ApiError
  | invalidValue
  | invalidValue2
  | invalidValue3
  | invalidSwIfIndex
  | invalidAddressFamily
  | rsrcInUse
  | noSuchTable
  | noSuchEntry
  | upstream (rv : ℤ)
  deriving DecidableEq, Repr

/-- `~0` as an index. -/
def invalidIndex : ℕ := 0xffffffff

/-- `e->action` of a session. -/
inductive ClassifyAction
  | none
  | setMetadata
  | other
  deriving DecidableEq, Repr

/-- What a session of a classify table says. -/
structure ClassifyEntry where
  nextIndex : ℕ
  opaqueIndex : ℕ
  action : ClassifyAction
  metadata : ℕ
  deriving DecidableEq, Repr

/-- A classify table: its mask, and its sessions by masked key. -/
structure ClassifyTable where
  mask : List (BitVec 8)
  sessions : List (BitVec 8) → Option ClassifyEntry

/-- The bytes under the mask of a table. -/
def ClassifyTable.masked (t : ClassifyTable) (bytes : List (BitVec 8)) : List (BitVec 8) :=
  List.zipWith (· &&& ·) bytes t.mask

/-- `vnet_classify_find_entry`. -/
def ClassifyTable.findEntry (t : ClassifyTable) (bytes : List (BitVec 8)) :
    Option ClassifyEntry :=
  t.sessions (t.masked bytes)

/-- `dpo_id_t`, as far as the plugin reads it. -/
structure DpoId where
  dpoiNextNode : ℕ
  dpoiIndex : ℕ
  deriving DecidableEq, Repr

/-- `dpo_proto_t`, as far as the plugin tells its values apart. -/
inductive DpoProto
  | ip4
  | ip6
  | other
  deriving DecidableEq, Repr

/-- `tunterm_acl_redirect_t`. -/
structure TuntermAclRedirect (FibPath : Type) where
  matchBytes : List (BitVec 8)
  tableIndex : ℕ
  path : FibPath
  dpo : DpoId
  opaqueIndex : ℕ
  isIp6 : Bool

/-- `tunterm_acl_redirect_main_t`, with the tables of `vnet_classify_main`. -/
structure RedirectMain (FibPath : Type) where
  pool : SlotPool (TuntermAclRedirect FibPath)
  sessionByMatchAndTableIndex : List (BitVec 8) × ℕ → Option ℕ
  tables : ℕ → Option ClassifyTable

/-- The FIB and the pool allocator. -/
structure Upstream (ApiPath FibPath : Type) where
  fibApiPathDecode : ApiPath → Except ApiError FibPath
  resolve : FibPath → Bool → DpoId
  poolGet : SlotPool.Allocator (TuntermAclRedirect FibPath)

/-- `vl_api_address_t`: the family (0 for IPv4, 1 for IPv6) and the bytes of the union. -/
structure ApiAddress where
  af : ℕ
  un : List (BitVec 8)
  deriving DecidableEq, Repr

/-- `vl_api_tunterm_acl_rule_t`. -/
structure TuntermAclRule (ApiPath : Type) where
  dst : ApiAddress
  path : ApiPath

/-! ## Redirect entries -/

section Redirect

variable {ApiPath FibPath : Type} (up : Upstream ApiPath FibPath)

/-- `vnet_classify_add_del_session` with `is_add`; `fails` is the error of an add that
VPP cannot make. -/
def vnetClassifyAddSession (tables : ℕ → Option ClassifyTable) (tableIndex : ℕ)
    (matchBytes : List (BitVec 8)) (e : ClassifyEntry) (fails : Option ApiError) :
    Option ApiError × (ℕ → Option ClassifyTable) :=
  match tables tableIndex with
  | none => (some .noSuchTable, tables)
  | some t =>
    match fails with
    | some rv => (some rv, tables)
    | none =>
      (none, Function.update tables tableIndex
        (some { t with sessions := Function.update t.sessions (t.masked matchBytes) (some e) }))

/-- `vnet_classify_add_del_session` without `is_add`. -/
def vnetClassifyDelSession (tables : ℕ → Option ClassifyTable) (tableIndex : ℕ)
    (matchBytes : List (BitVec 8)) : Option ApiError × (ℕ → Option ClassifyTable) :=
  match tables tableIndex with
  | none => (some .noSuchTable, tables)
  | some t =>
    match t.sessions (t.masked matchBytes) with
    | none => (some .noSuchEntry, tables)
    | some _ =>
      (none, Function.update tables tableIndex
        (some { t with sessions := Function.update t.sessions (t.masked matchBytes) none }))

/-- The session of a redirect entry. -/
def TuntermAclRedirect.session (ipr : TuntermAclRedirect FibPath) : ClassifyEntry where
  nextIndex := ipr.dpo.dpoiNextNode
  opaqueIndex := ipr.opaqueIndex
  action := .setMetadata
  metadata := ipr.dpo.dpoiIndex

/-- `tunterm_acl_redirect_stack`, for the entry at `i` of the pool. -/
def tuntermAclRedirectStack (m : RedirectMain FibPath) (i : ℕ)
    (ipr : TuntermAclRedirect FibPath) (fails : Option ApiError) :
    Option ApiError × RedirectMain FibPath :=
  let ipr := { ipr with dpo := up.resolve ipr.path ipr.isIp6 }
  let (rv, tables) :=
    vnetClassifyAddSession m.tables ipr.tableIndex ipr.matchBytes ipr.session fails
  (rv, { m with pool := m.pool.fill i ipr, tables := tables })

/-- `tunterm_acl_redirect_find`, with the pool index. -/
def tuntermAclRedirectFind (m : RedirectMain FibPath) (tableIndex : ℕ)
    (matchBytes : List (BitVec 8)) : Option ℕ :=
  m.sessionByMatchAndTableIndex (matchBytes, tableIndex)

/-- `tunterm_acl_redirect_add`. -/
def tuntermAclRedirectAdd (m : RedirectMain FibPath) (tableIndex opaqueIndex : ℕ)
    (proto : DpoProto) (matchBytes : List (BitVec 8)) (rpath : FibPath)
    (fails : Option ApiError) : Option ApiError × RedirectMain FibPath :=
  match proto with
  | .other => (some .invalidAddressFamily, m)
  | _ =>
    let ipr : TuntermAclRedirect FibPath :=
      ⟨matchBytes, tableIndex, rpath, ⟨0, 0⟩, opaqueIndex, proto = .ip6⟩
    match tuntermAclRedirectFind m tableIndex matchBytes with
    | some i => tuntermAclRedirectStack up m i ipr fails
    | none =>
      let i := up.poolGet.slot m.pool
      let hash := Function.update m.sessionByMatchAndTableIndex (matchBytes, tableIndex) (some i)
      tuntermAclRedirectStack up { m with sessionByMatchAndTableIndex := hash } i ipr fails

/-- `tunterm_acl_redirect_del_ipr`, for the entry at `i` of the pool. -/
def tuntermAclRedirectDelIpr (m : RedirectMain FibPath) (i : ℕ)
    (ipr : TuntermAclRedirect FibPath) : Option ApiError × RedirectMain FibPath :=
  let (rv, tables) := vnetClassifyDelSession m.tables ipr.tableIndex ipr.matchBytes
  match rv with
  | some e => (some e, m)
  | none =>
    let hash := Function.update m.sessionByMatchAndTableIndex (ipr.matchBytes, ipr.tableIndex) none
    (none, ⟨m.pool.clear i, hash, tables⟩)

/-- The `to_be_deleted` loop of `tunterm_acl_redirect_clear`. -/
def clearLoop : List ℕ → RedirectMain FibPath → Option ApiError × RedirectMain FibPath
  | [], m => (none, m)
  | i :: is, m =>
    match m.pool.elt i with
    | none => clearLoop is m
    | some ipr =>
      let (rv, m') := tuntermAclRedirectDelIpr m i ipr
      match rv with
      | some e => (some e, m')
      | none => clearLoop is m'

/-- The pool indices of the entries of a table, in pool order. -/
def RedirectMain.entriesOf (m : RedirectMain FibPath) (tableIndex : ℕ) : List ℕ :=
  m.pool.indices fun ipr => ipr.tableIndex = tableIndex

/-- `tunterm_acl_redirect_clear`. -/
def tuntermAclRedirectClear (m : RedirectMain FibPath) (tableIndex : ℕ) :
    Option ApiError × RedirectMain FibPath :=
  clearLoop (m.entriesOf tableIndex) m

/-! ## The rules of a request -/

/-- `bytes_matched`. -/
def bytesMatched (isIpv6 : Bool) : ℕ := if isIpv6 then 16 else 4

/-- The mask of a new table. -/
def tableMask (isIpv6 : Bool) : List (BitVec 8) :=
  (List.range 16).map fun i => if i < bytesMatched isIpv6 then 0xff else 0

/-- The match of a destination address. -/
def matchOf (isIpv6 : Bool) (un : List (BitVec 8)) : List (BitVec 8) :=
  (List.range 16).map fun i => if i < bytesMatched isIpv6 then un.getD i 0 else 0

/-- The body of the rule loop of `update_classify_table_and_sessions`. -/
def addRule (isIpv6 : Bool) (tableIndex : ℕ) (m : RedirectMain FibPath)
    (rule : TuntermAclRule ApiPath) (fails : Option ApiError) :
    Option ApiError × RedirectMain FibPath :=
  match up.fibApiPathDecode rule.path with
  | .error rv => (some rv, m)
  | .ok path =>
    if (if isIpv6 then 1 else 0) ≠ rule.dst.af then (some .invalidValue3, m)
    else
      tuntermAclRedirectAdd up m tableIndex 0 (if isIpv6 then .ip6 else .ip4)
        (matchOf isIpv6 rule.dst.un) path fails

/-- The rule loop of `update_classify_table_and_sessions`, from rule `n` on; `fails n` is
the error of the session that rule `n` adds. -/
def addRules (isIpv6 : Bool) (tableIndex : ℕ) (fails : ℕ → Option ApiError) :
    ℕ → List (TuntermAclRule ApiPath) → RedirectMain FibPath →
      Option ApiError × RedirectMain FibPath
  | _, [], m => (none, m)
  | n, rule :: rules, m =>
    let (rv, m') := addRule up isIpv6 tableIndex m rule (fails n)
    match rv with
    | some e => (some e, m')
    | none => addRules isIpv6 tableIndex fails (n + 1) rules m'

end Redirect

/-! ## The handlers -/

/-- `tunterm_acl_main_t`, with the interfaces of VPP and how often
`tunterm-ip4-vxlan-bypass` is enabled on each. -/
structure TuntermAclMain (FibPath : Type) where
  redirect : RedirectMain FibPath
  classifyTableIndexIsV6 : List Bool
  classifyTableIndexBySwIfIndexV4 : List ℕ
  classifyTableIndexBySwIfIndexV6 : List ℕ
  swInterfaces : ℕ → Bool
  bypassCount : ℕ → ℕ

/-- What a handler leaves behind.  `inBounds` says that it stayed inside
`classify_table_index_is_v6`; a read outside gives 0 here, and a write is lost. -/
structure Outcome (FibPath : Type) where
  rv : Option ApiError
  main : TuntermAclMain FibPath
  inBounds : Bool

/-- `vec_validate_init_empty`. -/
def vecValidateInitEmpty {α : Type} (v : List α) (i : ℕ) (e : α) : List α :=
  v ++ List.replicate (i + 1 - v.length) e

/-- `tunterm_acl_add_replace`: the rules are those that the message holds in full. -/
structure AddReplace (ApiPath : Type) where
  tuntermAclIndex : ℕ
  isIpv6 : Bool
  count : ℕ
  r : List (TuntermAclRule ApiPath)

/-- What VPP answers during a `tunterm_acl_add_replace`: the table that
`vnet_classify_add_del_table` creates, and the sessions it cannot add. -/
structure AddReplaceEnv where
  addTable : Except ApiError ℕ
  sessionFails : ℕ → Option ApiError

section Handlers

variable {ApiPath FibPath : Type} (up : Upstream ApiPath FibPath)

/-- The part of `update_classify_table_and_sessions` behind the creation of the table. -/
def updateSessions (s : TuntermAclMain FibPath) (isIpv6 : Bool)
    (rules : List (TuntermAclRule ApiPath)) (tableIndex : ℕ)
    (fails : ℕ → Option ApiError) : Outcome FibPath :=
  let af := s.classifyTableIndexIsV6[tableIndex]?
  let inBounds := rules.isEmpty || af.isSome
  if !rules.isEmpty && af.getD false ≠ isIpv6 then ⟨some .invalidValue2, s, inBounds⟩
  else
    match tuntermAclRedirectClear s.redirect tableIndex with
    | (some e, m) => ⟨some e, { s with redirect := m }, inBounds⟩
    | (none, m) =>
      let (rv, m) := addRules up isIpv6 tableIndex fails 0 rules m
      ⟨rv, { s with redirect := m }, inBounds⟩

/-- The plugin after `vnet_classify_add_del_table` has created the table `tableIndex`. -/
def TuntermAclMain.addTable (s : TuntermAclMain FibPath) (isIpv6 : Bool) (tableIndex : ℕ) :
    TuntermAclMain FibPath :=
  { s with
    redirect := { s.redirect with
      tables := Function.update s.redirect.tables tableIndex
        (some ⟨tableMask isIpv6, fun _ => none⟩) }
    classifyTableIndexIsV6 :=
      (vecValidateInitEmpty s.classifyTableIndexIsV6 tableIndex false).set tableIndex isIpv6 }

/-- `update_classify_table_and_sessions`, with the index it leaves in
`tunterm_acl_index`. -/
def updateClassifyTableAndSessions (s : TuntermAclMain FibPath) (isIpv6 : Bool)
    (rules : List (TuntermAclRule ApiPath)) (tuntermAclIndex : ℕ) (env : AddReplaceEnv) :
    Outcome FibPath × ℕ :=
  if tuntermAclIndex = invalidIndex then
    match env.addTable with
    | .error rv => (⟨some rv, s, true⟩, tuntermAclIndex)
    | .ok tableIndex =>
      (updateSessions up (s.addTable isIpv6 tableIndex) isIpv6 rules tableIndex env.sessionFails,
        tableIndex)
  else (updateSessions up s isIpv6 rules tuntermAclIndex env.sessionFails, tuntermAclIndex)

/-- `vl_api_tunterm_acl_add_replace_t_handler`, with the index of the reply. -/
def tuntermAclAddReplace (s : TuntermAclMain FibPath) (mp : AddReplace ApiPath)
    (env : AddReplaceEnv) : Outcome FibPath × ℕ :=
  if mp.r.length < mp.count then (⟨some .invalidValue, s, true⟩, mp.tuntermAclIndex)
  else updateClassifyTableAndSessions up s mp.isIpv6 (mp.r.take mp.count) mp.tuntermAclIndex env

/-- `vl_api_tunterm_acl_del_t_handler`. -/
def tuntermAclDel (s : TuntermAclMain FibPath) (tuntermAclIndex : ℕ) : Outcome FibPath :=
  if tuntermAclIndex = invalidIndex then ⟨some .invalidValue, s, true⟩
  else if tuntermAclIndex ∈ s.classifyTableIndexBySwIfIndexV4 then ⟨some .rsrcInUse, s, true⟩
  else if tuntermAclIndex ∈ s.classifyTableIndexBySwIfIndexV6 then ⟨some .rsrcInUse, s, true⟩
  else
    match tuntermAclRedirectClear s.redirect tuntermAclIndex with
    | (some e, m) => ⟨some e, { s with redirect := m }, true⟩
    | (none, m) =>
      -- `vnet_classify_delete_table_index`, then the family goes back to 0
      ⟨none,
        { s with
          redirect := { m with tables := Function.update m.tables tuntermAclIndex none }
          classifyTableIndexIsV6 := s.classifyTableIndexIsV6.set tuntermAclIndex false },
        tuntermAclIndex < s.classifyTableIndexIsV6.length⟩

/-- Enable the bypass feature on an interface unless it is enabled; `fails` is the error
that `vnet_feature_enable_disable` answers. -/
def enableBypass (s : TuntermAclMain FibPath) (swIfIndex : ℕ) (fails : Option ApiError) :
    Option ApiError × TuntermAclMain FibPath :=
  if 0 < s.bypassCount swIfIndex then (none, s)
  else
    match fails with
    | some e => (some e, s)
    | none =>
      (none, { s with
        bypassCount := Function.update s.bypassCount swIfIndex (s.bypassCount swIfIndex + 1) })

/-- Disable the bypass feature on an interface. -/
def disableBypass (s : TuntermAclMain FibPath) (swIfIndex : ℕ) (fails : Option ApiError) :
    Option ApiError × TuntermAclMain FibPath :=
  match fails with
  | some e => (some e, s)
  | none =>
    (none, { s with
      bypassCount := Function.update s.bypassCount swIfIndex (s.bypassCount swIfIndex - 1) })

/-- Put `tableIndex` into the slot of the interface for one family. -/
def TuntermAclMain.setSlot (s : TuntermAclMain FibPath) (isIpv6 : Bool)
    (swIfIndex tableIndex : ℕ) : TuntermAclMain FibPath :=
  if isIpv6 then
    { s with classifyTableIndexBySwIfIndexV6 :=
        s.classifyTableIndexBySwIfIndexV6.set swIfIndex tableIndex }
  else
    { s with classifyTableIndexBySwIfIndexV4 :=
        s.classifyTableIndexBySwIfIndexV4.set swIfIndex tableIndex }

/-- Both arrays made long enough for the interface. -/
def TuntermAclMain.validateSlots (s : TuntermAclMain FibPath) (swIfIndex : ℕ) :
    TuntermAclMain FibPath :=
  { s with
    classifyTableIndexBySwIfIndexV6 :=
      vecValidateInitEmpty s.classifyTableIndexBySwIfIndexV6 swIfIndex invalidIndex
    classifyTableIndexBySwIfIndexV4 :=
      vecValidateInitEmpty s.classifyTableIndexBySwIfIndexV4 swIfIndex invalidIndex }

/-- The `is_add` branch of `vl_api_tunterm_acl_interface_add_del_t_handler`: the slot is
set before the feature is enabled. -/
def attachAcl (s : TuntermAclMain FibPath) (isIpv6 : Bool) (swIfIndex tuntermAclIndex : ℕ)
    (fails : Option ApiError) : Option ApiError × TuntermAclMain FibPath :=
  enableBypass (s.setSlot isIpv6 swIfIndex tuntermAclIndex) swIfIndex fails

/-- The other branch: the feature is disabled if one of the slots is empty, and the slot
of the family is emptied after that. -/
def detachAcl (s : TuntermAclMain FibPath) (isIpv6 : Bool) (swIfIndex tuntermAclIndex : ℕ)
    (fails : Option ApiError) : Option ApiError × TuntermAclMain FibPath :=
  let v4 := s.classifyTableIndexBySwIfIndexV4.getD swIfIndex invalidIndex
  let v6 := s.classifyTableIndexBySwIfIndexV6.getD swIfIndex invalidIndex
  if tuntermAclIndex ≠ v4 ∧ tuntermAclIndex ≠ v6 then (some .invalidValue2, s)
  else if v4 = invalidIndex ∨ v6 = invalidIndex then
    match disableBypass s swIfIndex fails with
    | (some e, s) => (some e, s)
    | (none, s) => (none, s.setSlot isIpv6 swIfIndex invalidIndex)
  else (none, s.setSlot isIpv6 swIfIndex invalidIndex)

/-- `vl_api_tunterm_acl_interface_add_del_t_handler`. -/
def tuntermAclInterfaceAddDel (s : TuntermAclMain FibPath) (isAdd : Bool)
    (swIfIndex tuntermAclIndex : ℕ) (fails : Option ApiError) : Outcome FibPath :=
  if tuntermAclIndex = invalidIndex then ⟨some .invalidValue, s, true⟩
  else if !s.swInterfaces swIfIndex then ⟨some .invalidSwIfIndex, s, true⟩
  else
    let s := s.validateSlots swIfIndex
    let af := s.classifyTableIndexIsV6[tuntermAclIndex]?
    let isIpv6 := af.getD false
    let (rv, s) :=
      if isAdd then attachAcl s isIpv6 swIfIndex tuntermAclIndex fails
      else detachAcl s isIpv6 swIfIndex tuntermAclIndex fails
    ⟨rv, s, af.isSome⟩

end Handlers

/-! ## Runs -/

/-- The plugin with the ACLs that are live: created by the plugin, for the given family,
and not deleted since. -/
structure AclWorld (FibPath : Type) where
  main : TuntermAclMain FibPath
  live : ℕ → Option Bool

/-- The steps of a run: the three requests, with what VPP answers during each, another
user of the classifier that creates, changes or deletes a table, and interfaces that come
and go. -/
inductive AclEvent (ApiPath : Type)
  | addReplace (mp : AddReplace ApiPath) (env : AddReplaceEnv)
  | del (tuntermAclIndex : ℕ)
  | interfaceAddDel (isAdd : Bool) (swIfIndex tuntermAclIndex : ℕ) (fails : Option ApiError)
  | otherTable (tableIndex : ℕ) (t : Option ClassifyTable)
  | createInterface (swIfIndex : ℕ)
  | deleteInterface (swIfIndex : ℕ)

/-- The ACL that a `tunterm_acl_add_replace` creates, if any. -/
def AddReplace.created {ApiPath : Type} (mp : AddReplace ApiPath) (env : AddReplaceEnv) :
    Option ℕ :=
  if mp.r.length < mp.count ∨ mp.tuntermAclIndex ≠ invalidIndex then none
  else env.addTable.toOption

section Runs

variable {ApiPath FibPath : Type} (up : Upstream ApiPath FibPath)

/-- One step of a run.  A deleted interface loses its features, nothing else. -/
def aclStep (w : AclWorld FibPath) : AclEvent ApiPath → AclWorld FibPath
  | .addReplace mp env =>
    { main := (tuntermAclAddReplace up w.main mp env).1.main
      live := (mp.created env).elim w.live fun i => Function.update w.live i (some mp.isIpv6) }
  | .del i =>
    { main := (tuntermAclDel w.main i).main
      live := if (tuntermAclDel w.main i).rv = none then Function.update w.live i none
        else w.live }
  | .interfaceAddDel isAdd swIfIndex i fails =>
    { w with main := (tuntermAclInterfaceAddDel w.main isAdd swIfIndex i fails).main }
  | .otherTable i t =>
    { w with main := { w.main with
        redirect := { w.main.redirect with
          tables := Function.update w.main.redirect.tables i t } } }
  | .createInterface i =>
    { w with main := { w.main with
        swInterfaces := Function.update w.main.swInterfaces i true } }
  | .deleteInterface i =>
    { w with main := { w.main with
        swInterfaces := Function.update w.main.swInterfaces i false
        bypassCount := Function.update w.main.bypassCount i 0 } }

/-- What VPP guarantees: a new table has a free index, another user leaves the tables of
live ACLs alone, and a new interface has a free index. -/
def Admissible (w : AclWorld FibPath) : AclEvent ApiPath → Prop
  | .addReplace mp env => ∀ i, mp.created env = some i →
      w.main.redirect.tables i = none ∧ i < invalidIndex
  | .otherTable i _ => w.live i = none
  | .createInterface i => w.main.swInterfaces i = false
  | _ => True

/-- The request names a live ACL, or creates one. -/
def NamesLive (w : AclWorld FibPath) : AclEvent ApiPath → Prop
  | .addReplace mp _ => mp.tuntermAclIndex ≠ invalidIndex → w.live mp.tuntermAclIndex ≠ none
  | .del i => w.live i ≠ none
  | .interfaceAddDel _ _ i _ => w.live i ≠ none
  | _ => True

/-- No interface is deleted. -/
def KeepsInterfaces : AclEvent ApiPath → Prop
  | .deleteInterface _ => False
  | _ => True

/-- Before the first request: no ACL, no interface, and whatever tables other users have. -/
def AclWorld.init (tables : ℕ → Option ClassifyTable) : AclWorld FibPath where
  main := ⟨⟨SlotPool.empty, fun _ => none, tables⟩, [], [], [], fun _ => false, fun _ => 0⟩
  live := fun _ => none

end Runs

/-- A FIB with one path for each adjacency, all behind one node. -/
def plainFib : Upstream (Option ℕ) ℕ where
  fibApiPathDecode path := path.elim (.error (.upstream (-1))) .ok
  resolve path _ := ⟨2, path⟩
  poolGet := SlotPool.firstHole

end TuntermAcl
