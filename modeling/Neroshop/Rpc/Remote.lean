import Neroshop.Rpc.Reply
import Neroshop.Rpc.Wire

/-!
# Whether a remote request is answered

The threads that receive requests call the dispatcher without a handler, so a
method that faults leaves its request without a reply and ends the process.
Of the strings that another node supplies, only the target of `find_node` is
read in a way that can fail; the value of `map` is validated like one of `put`.
-/

namespace Neroshop.Rpc

open Neroshop.Foundation Neroshop.Node Neroshop.Routing

/-- The ids that `find_node` compares are all of the length it can read. -/
structure Findable (node : LocalNode) (target : String) : Prop where
  target : (chars target).length = 64
  ids : ∀ remote ∈ node.routingTable.getNodes, (chars remote.id).length = 64

/-- The arguments of a query that its method reads without a fault. -/
structure Readable (env : Externals) (node : LocalNode) (query : Query) :
    Prop where
  target : query.query = "find_node" → ∀ target,
    query.args.lookup "target" = some target → Findable node target
  value : query.query = "map" → ∀ key value,
    query.args.lookup "key" = some key →
    query.args.lookup "value" = some value → ¬ MalformedValue env key value

section FindNode

theorem hexStringToNodeId_returns (uninitialized : XorId) {hex : String} :
    (∃ id, hexStringToNodeId uninitialized hex = .ok id) ↔
      (chars hex).length = 64 := by
  unfold hexStringToNodeId
  split
  · next hlength => exact iff_of_false (by simp) hlength
  · next hlength => exact iff_of_true ⟨_, rfl⟩ (not_not.mp hlength)

theorem scoreNodes_returns (uninitialized targetId : XorId)
    {nodes : List RemoteNode} :
    (∃ scored, RoutingTable.scoreNodes uninitialized targetId nodes =
        .ok scored) ↔
      ∀ node ∈ nodes, (chars node.id).length = 64 := by
  induction nodes with
  | nil => simp [RoutingTable.scoreNodes]
  | cons node nodes ih =>
      rw [List.forall_mem_cons, ← ih, ← hexStringToNodeId_returns uninitialized]
      simp only [RoutingTable.scoreNodes, bind, Except.bind, pure, Except.pure]
      cases hexStringToNodeId uninitialized node.id with
      | error fault => simp
      | ok nodeId =>
          cases RoutingTable.scoreNodes uninitialized targetId nodes with
          | error fault => simp
          | ok scored => simp

theorem findNode_returns {setting : Setting} {node : LocalNode}
    {target : String} {count : Nat} :
    (∃ nodes, node.findNode setting target count = .ok nodes) ↔
      Findable node target := by
  have hfindable : Findable node target ↔
      (chars target).length = 64 ∧
        ∀ remote ∈ node.routingTable.getNodes, (chars remote.id).length = 64 :=
    ⟨fun h => ⟨h.target, h.ids⟩, fun h => ⟨h.1, h.2⟩⟩
  rw [hfindable, LocalNode.findNode, RoutingTable.findClosestNodes,
    ← hexStringToNodeId_returns setting.uninitialized]
  simp only [bind, Except.bind, pure, Except.pure]
  cases hexStringToNodeId setting.uninitialized target with
  | error fault => simp
  | ok targetId =>
      rw [← scoreNodes_returns setting.uninitialized targetId]
      dsimp only
      cases RoutingTable.scoreNodes setting.uninitialized targetId
          node.routingTable.getNodes with
      | error fault => simp
      | ok scored => simp

end FindNode

/-! ## The methods -/

section Methods

variable {env : Externals} {setting : Setting} {node : LocalNode}
  {query : Query} {message : DhtMessage}

theorem returns_onTables {α : Type} {call : Store → Except Fault α × Store} :
    Returns (LocalNode.onTables call) node ↔
      ∃ value, (call node.tables).1 = .ok value := by
  simp only [Returns, LocalNode.onTables, EStateM.run]
  cases hcall : call node.tables with
  | mk result tables => cases result <;> simp

theorem run_onTables {α : Type} {call : Store → Except Fault α × Store}
    {value : α} {tables : Store} (h : call node.tables = (.ok value, tables)) :
    (LocalNode.onTables call).run node =
      .ok value { node with tables := tables } := by
  simp only [LocalNode.onTables, EStateM.run, h]

theorem handleFindNode_returns :
    Returns (handleFindNode setting query.args message) node ↔
      ∀ target, query.args.lookup "target" = some target →
        Findable node target := by
  unfold handleFindNode
  cases query.args.lookup "target" with
  | none => simp
  | some target =>
      dsimp only
      rw [returns_get_bind, returns_bind_of_forall fun _ _ => returns_pure _,
        returns_ofExcept, findNode_returns]
      simp

theorem handleGetProviders_returns :
    Returns (handleGetProviders setting query.args message) node := by
  unfold handleGetProviders
  cases query.args.lookup "key" with
  | none => exact returns_pure _
  | some key => exact returns_get_bind.mpr (returns_pure _)

theorem handleGet_returns :
    Returns (handleGet setting query.args message false) node := by
  unfold handleGet
  cases query.args.lookup "key" with
  | none => exact returns_pure _
  | some key => exact returns_get_bind.mpr (returns_pure _)

theorem handlePut_returns :
    Returns (handlePut env setting query.args message false) node ↔
      ∀ key value, query.args.lookup "key" = some key →
        query.args.lookup "value" = some value →
        ∃ success, (put env setting.moment node.tables key value).1 =
          .ok success := by
  unfold handlePut
  split
  · next key value hkey hvalue =>
      rw [Bool.not_false, if_pos rfl,
        returns_bind_of_forall fun _ _ => returns_pure _, LocalNode.store,
        returns_onTables]
      simp [hkey, hvalue]
  · next harguments =>
      refine iff_of_true (by simp) fun key value hkey hvalue => ?_
      exact absurd hvalue (harguments key value hkey)

/-- A value that is valid leaves the tables as they are. -/
theorem validate_store {moment : Moment} {store after : Store}
    {key value : String}
    (h : Node.validate env moment store key value = (.ok true, after)) :
    after = store := by
  unfold Node.validate at h
  split at h
  · cases h
  · cases h
  · split at h
    · exact (Prod.mk.inj h).2.symm
    · cases h
    · cases h

theorem validate_returns (moment : Moment) (store : Store)
    {key value : String} :
    (∃ valid, (Node.validate env moment store key value).1 = .ok valid) ↔
      ¬ MalformedValue env key value := by
  rw [← validateDocument_returns, Node.validate]
  cases validateDocument env key value with
  | error fault => simp
  | ok result =>
      refine iff_of_true ?_ ⟨result, rfl⟩
      cases result with
      | none => exact ⟨false, rfl⟩
      | some json =>
          dsimp only
          split <;> exact ⟨_, rfl⟩

theorem validate_fst_congr (moment : Moment) (tables other : Store)
    (key value : String) :
    (Node.validate env moment tables key value).1 =
      (Node.validate env moment other key value).1 := by
  unfold Node.validate
  cases validateDocument env key value with
  | error fault => rfl
  | ok result =>
      cases result with
      | none => rfl
      | some json =>
          dsimp only
          cases expiry moment.clock json <;> rfl

theorem run_validate (node : LocalNode) (key value : String) :
    (LocalNode.validate env setting key value).run node =
      ended (Node.validate env setting.moment node.tables key value).1
        { node with
          tables := (Node.validate env setting.moment node.tables key value).2 }
        := by
  rw [LocalNode.validate, EStateM.run]
  unfold LocalNode.onTables
  dsimp only
  cases Node.validate env setting.moment node.tables key value with
  | mk result tables => cases result <;> rfl

theorem map_returns {key value : String} :
    Returns (LocalNode.map env setting key value) node ↔
      ∃ mapped, node.keyMapper.add env setting.moment node.tables.mappings key
        value = .ok mapped := by
  simp only [Returns, LocalNode.map, EStateM.run]
  cases node.keyMapper.add env setting.moment node.tables.mappings key value
    with
  | error fault => simp
  | ok mapped => simp

theorem handleMap_returns
    (hadd : ∀ key value after, query.args.lookup "key" = some key →
      query.args.lookup "value" = some value →
      Node.validate env setting.moment node.tables key value =
        (.ok true, after) →
      ∃ mapped, node.keyMapper.add env setting.moment node.tables.mappings key
        value = .ok mapped) :
    Returns (handleMap env setting query.args message) node ↔
      ∀ key value, query.args.lookup "key" = some key →
        query.args.lookup "value" = some value →
        ¬ MalformedValue env key value := by
  unfold handleMap
  split
  swap
  · next harguments =>
      refine iff_of_true (returns_pure _) fun key value hkey hvalue => ?_
      exact absurd hvalue (harguments key value hkey)
  next key value hkey hvalue =>
  have hmalformed : (∀ key' value', query.args.lookup "key" = some key' →
      query.args.lookup "value" = some value' →
      ¬ MalformedValue env key' value') ↔ ¬ MalformedValue env key value := by
    simp [hkey, hvalue]
  rw [hmalformed, ← validate_returns setting.moment node.tables,
    LocalNode.validate, returns_bind]
  constructor
  · rintro ⟨valid, middle, hvalidate, -⟩
    exact returns_onTables.mp ⟨valid, middle, hvalidate⟩
  rintro ⟨valid, hvalid⟩
  cases hvalidate : Node.validate env setting.moment node.tables key value with
  | mk result tables =>
  rw [hvalidate] at hvalid
  dsimp only at hvalid
  subst hvalid
  refine ⟨valid, { node with tables := tables }, run_onTables hvalidate, ?_⟩
  cases valid with
  | false => exact returns_pure _
  | true =>
      have hsame : tables = node.tables := validate_store hvalidate
      subst hsame
      rw [if_pos rfl, returns_bind_of_forall fun _ _ => returns_pure _]
      exact map_returns.mpr (hadd key value _ hkey hvalue hvalidate)

/-- Only `find_node` and `map` can fail where storing and indexing do not. -/
theorem handleMethod_returns
    (hput : query.query = "put" → ∀ key value,
      query.args.lookup "key" = some key →
      query.args.lookup "value" = some value →
      ∃ success, (put env setting.moment node.tables key value).1 = .ok success)
    (hadd : query.query = "map" → ∀ key value after,
      query.args.lookup "key" = some key →
      query.args.lookup "value" = some value →
      Node.validate env setting.moment node.tables key value =
        (.ok true, after) →
      ∃ mapped, node.keyMapper.add env setting.moment node.tables.mappings key
        value = .ok mapped) :
    Returns (handleMethod env setting false query message) node ↔
      Readable env node query := by
  have hreadable (hfind : query.query ≠ "find_node")
      (hmap : query.query ≠ "map") : Readable env node query :=
    ⟨fun h => absurd h hfind, fun h => absurd h hmap⟩
  unfold handleMethod
  split
  · next h =>
      exact iff_of_true (returns_pure _) (hreadable (by simp [h]) (by simp [h]))
  split
  · next h =>
      rw [handleFindNode_returns]
      exact ⟨fun htarget => ⟨fun _ => htarget, by simp [h]⟩,
        fun hquery => hquery.target h⟩
  split
  · next h =>
      exact iff_of_true handleGetProviders_returns
        (hreadable (by simp [h]) (by simp [h]))
  split
  · next h =>
      exact iff_of_true handleGet_returns
        (hreadable (by simp [h]) (by simp [h]))
  split
  · next h =>
      exact iff_of_true (handlePut_returns.mpr (hput h))
        (hreadable (by simp [h]) (by simp [h]))
  split
  · next h =>
      rw [handleMap_returns (hadd h)]
      exact ⟨fun hvalue => ⟨by simp [h], fun _ => hvalue⟩,
        fun hquery => hquery.value h⟩
  · next hfind _ _ _ hmap =>
      simp only [Bool.false_eq_true, and_false, if_false]
      exact iff_of_true (returns_pure _) (hreadable hfind hmap)

end Methods

/-! ## The reply -/

section Replies

variable {env : Externals} {setting : Setting} {node : LocalNode}
  {parseFromArray : List UInt8 → Option DhtMessage} {request : List UInt8}

theorem protobufProcess_returns {ipcMode : Bool} :
    Returns (protobufProcess env setting parseFromArray request ipcMode) node ↔
      ∀ query, Admitted ipcMode parseFromArray request query →
        Returns (handleMethod env setting ipcMode query
          (startResponse query node)) node := by
  by_cases h : ∃ query, Admitted ipcMode parseFromArray request query
  · obtain ⟨query, hadmitted⟩ := h
    rw [hadmitted.process, returns_get_bind,
      returns_bind_of_forall fun _ _ => returns_pure _]
    exact ⟨fun hreturns other hother => hadmitted.unique hother ▸ hreturns,
      fun hreturns => hreturns query hadmitted⟩
  · rw [not_exists] at h
    obtain ⟨text, hprocess⟩ := process_of_not_admitted h
    rw [hprocess]
    exact iff_of_true (returns_pure _) fun query hquery =>
      absurd hquery (h query)

/--
Where storing and indexing return, a request from another node is answered
exactly when its arguments can be read.
-/
theorem protobufProcess_answers_iff
    (hput : ∀ query key value, Admitted false parseFromArray request query →
      query.query = "put" → query.args.lookup "key" = some key →
      query.args.lookup "value" = some value →
      ∃ success, (put env setting.moment node.tables key value).1 = .ok success)
    (hadd : ∀ query key value, Admitted false parseFromArray request query →
      query.query = "map" → query.args.lookup "key" = some key →
      query.args.lookup "value" = some value →
      ∃ mapped, node.keyMapper.add env setting.moment node.tables.mappings key
        value = .ok mapped) :
    Returns (protobufProcess env setting parseFromArray request false) node ↔
      ∀ query, Admitted false parseFromArray request query →
        Readable env node query := by
  rw [protobufProcess_returns]
  refine forall₂_congr fun query hadmitted => ?_
  exact handleMethod_returns
    (fun h key value => hput query key value hadmitted h)
    (fun h key value _ hkey hvalue _ =>
      hadd query key value hadmitted h hkey hvalue)

end Replies

/-! ## A target that is no id -/

def findQuery (target : String) : WireQuery :=
  ⟨"1.0", "find_node", [("id", "a"), ("target", target)], "a1b2"⟩

def parseFinds : List UInt8 → Option DhtMessage :=
  WireQuery.parser [findQuery "abc", findQuery lonelyNode.id]

theorem put_returns_of_unparsed {env : Externals} {moment : Moment}
    {store : Store} {key value : String} (hparse : env.parse value = .error .parseError) :
    ∃ success, (put env moment store key value).1 = .ok success := by
  by_cases hstored : store.data.lookup key = some value
  · exact ⟨true, by rw [put_of_stored hstored]⟩
  · have hdocument : validateDocument env key value = .ok none :=
      validateDocument_of_not_shaped
        (fun hoverflowing => by cases hparse.symm.trans hoverflowing.parsed)
        fun json metadata hshaped => by
          cases hparse.symm.trans hshaped.parsed
    exact ⟨false, by rw [put_of_unaccepted hstored hdocument]⟩

/-- A node without peers and data, which stores and indexes without a fault. -/
theorem findNode_faults :
    (protobufProcess (.ofDocuments []) lonelySetting parseFinds
        (findQuery "abc").bytes false).run lonelyNode =
      .error .invalidArgument lonelyNode ∧
    (∀ key value, ∃ success, (put (.ofDocuments []) lonelySetting.moment
      lonelyNode.tables key value).1 = .ok success) ∧
    ∀ key value, ∃ mapped, lonelyNode.keyMapper.add (.ofDocuments [])
      lonelySetting.moment lonelyNode.tables.mappings key value =
        .ok mapped := by
  refine ⟨?_, fun _ _ => put_returns_of_unparsed rfl, fun _ _ => ⟨_, rfl⟩⟩
  have hparse : parseFinds (findQuery "abc").bytes =
      some (.query (findQuery "abc").toQuery) := by
    decide
  simp only [protobufProcess, hparse]
  rw [if_neg (by decide), if_neg (by decide)]
  have htarget : (findQuery "abc").toQuery.args.lookup "target" = some "abc" := by
    decide
  have hfind : lonelyNode.findNode lonelySetting "abc" maxClosestNodes =
      .error .invalidArgument := by
    rw [LocalNode.findNode, RoutingTable.findClosestNodes, hexStringToNodeId,
      if_pos (by decide)]
    rfl
  have hmethod : handleMethod (.ofDocuments []) lonelySetting false
      (findQuery "abc").toQuery
      (startResponse (findQuery "abc").toQuery lonelyNode) =
        handleFindNode lonelySetting (findQuery "abc").toQuery.args
          (startResponse (findQuery "abc").toQuery lonelyNode) := (rfl)
  rw [run_get_bind, hmethod, handleFindNode, htarget, EStateM.run_bind]
  dsimp only
  rw [run_get_bind, hfind]
  rfl

theorem protobufProcess_answers_nodeId :
    Returns (protobufProcess (.ofDocuments []) lonelySetting parseFinds
      (findQuery lonelyNode.id).bytes false) lonelyNode := by
  have hparse : parseFinds (findQuery lonelyNode.id).bytes =
      some (.query (findQuery lonelyNode.id).toQuery) := by
    decide
  have hquery (query)
      (h : Admitted false parseFinds (findQuery lonelyNode.id).bytes query) :
      query = (findQuery lonelyNode.id).toQuery := by
    simpa using h.parsed.symm.trans hparse
  refine (protobufProcess_answers_iff
    (fun _ _ _ _ _ _ _ => put_returns_of_unparsed rfl)
    (fun _ _ _ _ _ _ _ => ⟨_, rfl⟩)).mpr fun query hadmitted => ?_
  rw [hquery query hadmitted]
  refine ⟨fun _ target htarget => ?_, fun hmap => ?_⟩
  · have hid : target = lonelyNode.id :=
      Option.some.inj (htarget.symm.trans (by decide))
    exact hid ▸ ⟨by decide +kernel, by decide +kernel⟩
  · exact absurd hmap (by decide)

end Neroshop.Rpc
