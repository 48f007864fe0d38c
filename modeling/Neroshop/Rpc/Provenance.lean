import Neroshop.Rpc.Admission
import Neroshop.Rpc.Answers
import Neroshop.Rpc.Removal

/-!
# Where providers come from

A peer becomes a provider of a key when it replies to a put of it, or sends a
map message for it.  No other call adds one.  What a peer replies to a put, a
get or a question for providers says what it held when it replied, or what it
holds behind it.
-/

namespace Neroshop.Rpc

open Neroshop.Foundation Neroshop.Node Neroshop.Routing

/-- A provider that is new is allowed; the node keeps its place. -/
structure AdmitsOnly (allowed : String → Provider → Prop)
    (node after : LocalNode) : Prop where
  providers : ∀ key, ∀ provider ∈ after.getProviders key,
    provider ∈ node.getProviders key ∨ allowed key provider
  address : after.address = node.address
  networkType : after.networkType = node.networkType

variable {allowed : String → Provider → Prop}

instance : IsPreorder LocalNode (AdmitsOnly allowed) where
  refl _ := ⟨fun _ _ => .inl, rfl, rfl⟩
  trans _ _ _ hfirst hsecond :=
    ⟨fun key provider h => (hsecond.providers key provider h).elim
      (hfirst.providers key provider) .inr,
      hsecond.address.trans hfirst.address,
      hsecond.networkType.trans hfirst.networkType⟩

theorem AdmitsOnly.mono {weaker : String → Provider → Prop}
    {node after : LocalNode} (h : AdmitsOnly allowed node after)
    (hallowed : ∀ key provider, allowed key provider → weaker key provider) :
    AdmitsOnly weaker node after :=
  ⟨fun key provider hmem =>
    (h.providers key provider hmem).imp_right (hallowed key provider),
    h.address, h.networkType⟩

/-- Values are neither added nor removed. -/
structure SameHeld (node after : LocalNode) : Prop where
  data : after.tables.data = node.tables.data
  hashTable : after.tables.hashTable = node.tables.hashTable

instance : IsPreorder LocalNode SameHeld where
  refl _ := ⟨rfl, rfl⟩
  trans _ _ _ hfirst hsecond :=
    ⟨hsecond.data.trans hfirst.data, hsecond.hashTable.trans hfirst.hashTable⟩

/-! ## The calls on the node -/

section Calls

variable {env : Externals} {setting : Setting} {peers : Peers}
  {args : StringMap} {message : DhtMessage} {ipcMode : Bool}

theorem onTables_admits {α : Type} (call : Store → Except Fault α × Store) :
    Relates (AdmitsOnly allowed) (LocalNode.onTables call) :=
  relates_onTables fun _ => ⟨fun _ _ => .inl, rfl, rfl⟩

theorem map_admits (key value : String) :
    Relates (AdmitsOnly allowed) (LocalNode.map env setting key value) := by
  intro node
  simp only [stateAfter, LocalNode.map, EStateM.run]
  cases node.keyMapper.add env setting.moment node.tables.mappings key value
    with
  | error fault => exact refl_of (AdmitsOnly allowed) node
  | ok mapped => exact ⟨fun _ _ => .inl, rfl, rfl⟩

theorem addProvider_admits {dataHash : String} {peer : Provider}
    (h : allowed dataHash peer) :
    Relates (AdmitsOnly allowed) (addProvider dataHash peer) := by
  intro node
  refine ⟨fun key provider hmem => ?_, ?_, ?_⟩
  · rw [getProviders_addProvider] at hmem
    split_ifs at hmem with hknown hkey
    · exact .inl hmem
    · subst hkey
      refine (List.mem_append.mp hmem).imp_right fun hpeer => ?_
      rwa [List.mem_singleton.mp hpeer]
    · exact .inl hmem
  · rw [addProvider, stateAfter_modify]
    dsimp only
    split <;> rfl
  · rw [addProvider, stateAfter_modify]
    dsimp only
    split <;> rfl

theorem removeProvider_admits (dataHash : String) (peer : Provider) :
    Relates (AdmitsOnly allowed) (removeProvider dataHash peer) := by
  intro node
  refine ⟨fun key provider hmem => .inl ?_, rfl, rfl⟩
  rw [getProviders_removeProvider] at hmem
  split_ifs at hmem with hkey
  · exact hkey ▸ (List.mem_filter.mp hmem).1
  · exact hmem

/-- Whoever replies to a put with a response becomes a provider. -/
theorem putTo_admits {stage : Stage} {key : String} {remote : RemoteNode}
    (h : ∀ reply, peers.answer stage (toProvider remote) =
      .received (some reply) → reply.hasResponse = true →
        allowed key (toProvider remote)) :
    Relates (AdmitsOnly allowed) (putTo peers stage key remote) := by
  unfold putTo
  split
  · exact relates_pure _
  · exact relates_pure _
  · exact relates_throw _
  · exact relates_pure _
  · rename_i reply hanswer
    split
    case isTrue hresponse =>
      exact relates_bind_pure (addProvider_admits (h reply hanswer hresponse))
    case isFalse => exact relates_pure _

theorem getFrom_admits (stage : Stage) (key : String) (peer : Provider) :
    Relates (AdmitsOnly allowed) (getFrom env setting peers stage key peer) := by
  unfold getFrom
  split
  · exact relates_pure _
  · exact relates_bind_pure (removeProvider_admits _ _)
  · exact relates_pure _
  · exact relates_pure _
  · exact relates_bind_pure (removeProvider_admits _ _)
  · split
    · exact relates_pure _
    · exact relates_bind_pure (onTables_admits _)
  · exact relates_pure _

/-! ## The dispatcher -/

/-- What `send_put` and `send_get` come to when they are over, and what they do
to the node meanwhile is looked at elsewhere. -/
def detached (setting : Setting) (sent : Nat) (found : String) :
    Setting :=
  { setting with
    publish := fun _ _ => pure sent
    retrieve := fun _ => pure found }

theorem storeAndCache_admits (key value : String) :
    Relates (AdmitsOnly allowed) (storeAndCache env setting key value) := by
  unfold storeAndCache
  refine relates_bind (onTables_admits _) fun stored => ?_
  split
  · refine relates_bind (onTables_admits _) fun cached => ?_
    split
    · exact relates_bind (relates_ofExcept _) fun publishable =>
        relates_bind_pure (map_admits _ _)
    · exact relates_pure _
  · exact relates_pure _

variable {sent : Nat} {found : String}

theorem sendGet_detached_admits (key : String) : Relates (AdmitsOnly allowed)
    (LocalNode.sendGet (detached setting sent found) key) := by
  refine relates_of_stateAfter fun node => ?_
  rw [stateAfter, EStateM.run, LocalNode.sendGet]
  split_ifs <;> rfl

theorem handlePut_admits : Relates (AdmitsOnly allowed)
    (handlePut env (detached setting sent found) args message ipcMode) := by
  unfold handlePut
  split
  · split
    · exact relates_bind_pure (onTables_admits _)
    · refine relates_bind ?_ fun _ => relates_bind (storeAndCache_admits _ _)
        fun cached => relates_pure _
      unfold LocalNode.sendPut
      refine relates_bind (relates_ofExcept _) fun publishable => ?_
      split <;> exact relates_pure _
  · exact relates_pure _

theorem handleGet_admits : Relates (AdmitsOnly allowed)
    (handleGet (detached setting sent found) args message ipcMode) := by
  unfold handleGet
  split
  · exact relates_pure _
  split
  · exact relates_bind_pure relates_get
  split
  · unfold handleStatus
    refine relates_bind relates_get fun _ => ?_
    exact relates_bind_pure (relates_ofExcept _)
  · exact relates_bind_pure (sendGet_detached_admits _)

theorem removeIf_admits (condition : Bool)
    (call : Store → Except Fault Bool × Store) (code : DhtResultCode) :
    Relates (AdmitsOnly allowed)
      (removeIf condition (LocalNode.onTables call) code) := by
  unfold removeIf
  split
  · exact relates_bind_pure (onTables_admits _)
  · exact relates_pure _

theorem handleRemove_admits :
    Relates (AdmitsOnly allowed) (handleRemove setting args message) := by
  unfold handleRemove
  split
  · exact relates_pure _
  refine relates_bind relates_get fun _ => ?_
  refine relates_bind (removeIf_admits _ _ _) fun _ => ?_
  refine relates_bind relates_get fun _ => ?_
  refine relates_bind (removeIf_admits _ _ _) fun _ => ?_
  refine relates_bind relates_get fun _ => ?_
  exact relates_bind_pure (removeIf_admits _ _ _)

theorem handleMethod_admits {query : Query} : Relates (AdmitsOnly allowed)
    (handleMethod env (detached setting sent found) ipcMode query message) := by
  unfold handleMethod
  split
  · exact relates_pure _
  split
  · unfold handleFindNode
    split
    · exact relates_pure _
    · refine relates_bind relates_get fun _ => ?_
      exact relates_bind_pure (relates_ofExcept _)
  split
  · unfold handleGetProviders
    split
    · exact relates_pure _
    · exact relates_bind_pure relates_get
  split
  · exact handleGet_admits
  split
  · exact handlePut_admits
  split
  · unfold handleMap
    split
    · refine relates_bind (onTables_admits _) fun valid => ?_
      split
      · exact relates_bind_pure (map_admits _ _)
      · exact relates_pure _
    · exact relates_pure _
  split
  · exact handleRemove_admits
  split
  · exact relates_bind_pure (onTables_admits _)
  · exact relates_pure _

theorem protobufProcess_admits
    {parseFromArray : List UInt8 → Option DhtMessage} {request : List UInt8} :
    Relates (AdmitsOnly allowed) (protobufProcess env
      (detached setting sent found) parseFromArray request ipcMode) := by
  unfold protobufProcess
  split
  · exact relates_pure _
  · split
    · exact relates_pure _
    split
    · exact relates_pure _
    · refine relates_bind relates_get fun _ => ?_
      exact relates_bind_pure handleMethod_admits
  · exact relates_pure _

end Calls

/-! ## The callbacks -/

section Callbacks

variable {network : Network}

theorem onPing_admits (buffer : List UInt8) (senderDest : String) :
    Relates (AdmitsOnly allowed) (onPing network buffer senderDest) := by
  intro node
  refine ⟨fun key provider hmem => .inl ?_, ?_, ?_⟩
  · rwa [getProviders_onPing] at hmem
  all_goals
    rcases onPing_cases with hsame | ⟨sender, -, -, hafter⟩
    · rw [hsame]
    · rw [hafter, stateAfter_admitPeer]
      split <;> rfl

theorem onPing_held (buffer : List UInt8) (senderDest : String) :
    Relates SameHeld (onPing network buffer senderDest) := by
  intro node
  rcases onPing_cases with hsame | ⟨sender, -, -, hafter⟩
  · rw [hsame]
    exact refl_of SameHeld node
  · rw [hafter, stateAfter_admitPeer]
    split <;> exact ⟨rfl, rfl⟩

theorem addProvider_held (dataHash : String) (peer : Provider) :
    Relates SameHeld (addProvider dataHash peer) := fun node => by
  have htables := addProvider_tables dataHash peer node
  exact ⟨congrArg Store.data htables, congrArg Store.hashTable htables⟩

theorem onMap_held (buffer : List UInt8) (senderDest : String) :
    Relates SameHeld (onMap network buffer senderDest) := by
  intro node
  rcases onMap_cases with hsame | ⟨sender, key, -, -, hafter⟩
  · rw [hsame]
    exact refl_of SameHeld node
  · rw [hafter]
    exact addProvider_held _ _ node

/-- The sender of a map message becomes a provider of the key that it names. -/
theorem onMap_admits {buffer : List UInt8} {senderDest : String}
    {node : LocalNode} (hcovered : Covered node.networkType)
    (h : ∀ query key port,
      network.parseFromArray buffer = some (.query query) →
      query.query = "map" → query.args.lookup "key" = some key →
        allowed key ⟨network.addressOf senderDest node.networkType, port⟩) :
    AdmitsOnly allowed node
      (stateAfter (onMap network buffer senderDest) node) := by
  rw [stateAfter_onMap]
  split
  case h_2 => exact refl_of (AdmitsOnly allowed) node
  case h_1 sender hread =>
  split
  case h_2 => exact refl_of (AdmitsOnly allowed) node
  case h_1 key hkey =>
  split
  case isFalse => exact refl_of (AdmitsOnly allowed) node
  case isTrue hderives =>
  obtain ⟨-, query, hparse, hmethod, -, -, -, hargs⟩ :=
    readSender_eq_some.mp hread
  refine addProvider_admits ?_ node
  rw [(readSender_covered hcovered hread hderives).1]
  exact h query key sender.port hparse hmethod (hargs ▸ hkey)

/-- What runs behind the reply to a query. -/
def callbacks (network : Network) (buffer : List UInt8) (senderDest : String) :
    NodeCall Unit := do
  onPing network buffer senderDest
  onMap network buffer senderDest

theorem callbacks_admits {buffer : List UInt8} {senderDest : String}
    {node : LocalNode} (hcovered : Covered node.networkType)
    (h : ∀ query key port,
      network.parseFromArray buffer = some (.query query) →
      query.query = "map" → query.args.lookup "key" = some key →
        allowed key ⟨network.addressOf senderDest node.networkType, port⟩) :
    AdmitsOnly allowed node
      (stateAfter (callbacks network buffer senderDest) node) := by
  have hping := @onPing_admits allowed network buffer senderDest node
  rw [callbacks, stateAfter_bind]
  rw [stateAfter] at hping
  cases hrun : (onPing network buffer senderDest).run node with
  | error fault after =>
      rw [hrun] at hping
      exact hping
  | ok value middle =>
      rw [hrun] at hping
      rw [← hping.networkType] at hcovered h
      exact trans_of (AdmitsOnly allowed) hping (onMap_admits hcovered h)

theorem callbacks_held (buffer : List UInt8) (senderDest : String) :
    Relates SameHeld (callbacks network buffer senderDest) :=
  relates_bind (onPing_held _ _) fun _ => onMap_held _ _

end Callbacks

/-! ## What a reply says -/

section Replies

variable {env : Externals} {setting : Setting} {node after sender : LocalNode}
  {parseFromArray : List UInt8 → Option DhtMessage} {bytes : List UInt8}
  {key value tid : String} {reply : DhtMessage}

/-- An offer that is taken is stored, or a value that is not older is. -/
theorem put_keeps {moment : Moment} {store : Store}
    (h : (put env moment store key value).1 = .ok true) :
    ∃ stored, (put env moment store key value).2.data.lookup key = some stored ∧
      (stored = value ∨ judgeTexts env value stored = .ok .keep) := by
  have houtcome := put_outcome env moment store key value
  generalize (put env moment store key value).1 = result at houtcome h
  generalize (put env moment store key value).2 = tables at houtcome ⊢
  cases houtcome with
  | stored hstored => exact ⟨value, hstored, .inl rfl⟩
  | fault | unaccepted | malformedExpiry | expired => cases h
  | inserted => exact ⟨value, insertData_lookup _ _ _, .inl rfl⟩
  | updated json current hcurrent =>
      simp only [Node.set, hcurrent, Option.getD_some] at h ⊢
      cases hjudge : judgeTexts env value current with
      | error fault => simp [hjudge] at h
      | ok update =>
      cases update with
      | reject => simp [hjudge] at h
      | keep => exact ⟨current, hcurrent, .inr hjudge⟩
      | replace => exact ⟨value, insertData_lookup _ _ _, .inl rfl⟩

/-- A query of a call other than `send_remove` reaches its method. -/
theorem reply_of_sent {call : SendCall}
    (hparse : parseFromArray bytes = some (.query (call.query sender tid)))
    (hcall : ∀ key, call ≠ .sendRemove key)
    (hrun : (protobufProcess env setting parseFromArray bytes false).run node =
      .ok reply after) :
    ∃ outcome, (handleMethod env setting false (call.query sender tid)
        (startResponse (call.query sender tid) node)).run node =
          .ok outcome after ∧
      reply = finishReply outcome.1 outcome.2 := by
  have hadmitted : Admitted false parseFromArray bytes (call.query sender tid) :=
    ⟨hparse, rfl, .inr ((id_sent_iff call).mpr hcall)⟩
  rcases protobufProcess_cases hrun with
    ⟨text, -, hearly⟩ | ⟨query, outcome, hother, houtcome, hreply⟩
  · exact absurd hadmitted (hearly _)
  · cases hother.unique hadmitted
    exact ⟨outcome, houtcome, hreply⟩

theorem sendMapV2_of_method {call : SendCall}
    (hmethod : (call.query sender tid).query = "map")
    (hkey : (call.query sender tid).args.lookup "key" = some key) :
    ∃ value, call = .sendMapV2 key value := by
  cases call with
  | sendMapV2 named value =>
      refine ⟨value, ?_⟩
      rw [SendCall.query, SendCall.args,
        Finmap.lookup_insert_of_ne _ (show "key" ≠ "value" by decide),
        Finmap.lookup_insert] at hkey
      rw [Option.some.inj hkey]
  | sendPing | sendFindNode | sendPut | sendGet | sendGetProviders
  | sendRemove => exact absurd hmethod (by simp [SendCall.query, SendCall.method])

theorem code_of_hasResponse {outcome : Outcome}
    (h : (finishReply outcome.1 outcome.2).hasResponse = true) :
    outcome.1 = .success := by
  by_contra hcode
  rw [(finishReply_of_failure outcome.2 hcode).2.1] at h
  cases h

theorem put_reply_holds
    (hparse : parseFromArray bytes =
      some (.query ((SendCall.sendPut key value).query sender tid)))
    (hrun : (protobufProcess env setting parseFromArray bytes false).run node =
      .ok reply after) (hreply : reply.hasResponse = true) :
    ∃ stored, after.tables.data.lookup key = some stored ∧
      (stored = value ∨ judgeTexts env value stored = .ok .keep) := by
  obtain ⟨outcome, houtcome, rfl⟩ := reply_of_sent hparse nofun hrun
  have hkey : ((SendCall.sendPut key value).args sender).lookup "key" =
      some key := by
    simp [SendCall.args, Finmap.lookup_insert_of_ne]
  have hvalue : ((SendCall.sendPut key value).args sender).lookup "value" =
      some value := by
    simp [SendCall.args]
  rw [handleMethod_sent] at houtcome
  simp only [handlePut, hkey, hvalue, Bool.not_false, if_true, run_bind_eq_ok,
    run_pure_eq_ok] at houtcome
  obtain ⟨success, middle, hstore, rfl, rfl⟩ := houtcome
  have hcode := code_of_hasResponse hreply
  rw [failWith_eq] at hcode
  cases success with
  | false => cases hcode
  | true =>
  simp only [LocalNode.store, LocalNode.onTables, EStateM.run] at hstore
  cases hput : put env setting.moment node.tables key value with
  | mk result tables =>
  rw [hput] at hstore
  cases result with
  | error fault => cases hstore
  | ok success =>
  cases hstore
  have hkeeps := @put_keeps env key value setting.moment node.tables
  rw [hput] at hkeeps
  exact hkeeps rfl

/-- The value is under the key, in memory or in the cache. -/
def HoldsValue (key value : String) (node : LocalNode) : Prop :=
  node.tables.data.lookup key = some value ∨
    node.tables.hashTable.lookup key = some value

/-- Some value is. -/
def HoldsKey (key : String) (node : LocalNode) : Prop :=
  ∃ value, HoldsValue key value node

theorem holdsValue_heldValue (h : heldValue setting node key ≠ "") :
    HoldsValue key (heldValue setting node key) node := by
  rw [heldValue] at h ⊢
  split_ifs at h ⊢ with hdata hcached
  · obtain ⟨value, hvalue⟩ := Option.isSome_iff_exists.mp hdata
    rw [LocalNode.getValue, hvalue]
    exact .inl hvalue
  · rw [LocalNode.getCached] at h ⊢
    split_ifs at h ⊢
    · cases hrow : node.tables.hashTable.lookup key with
      | none => simp [hrow] at h
      | some value => exact .inr hrow
    · exact absurd rfl h
  · exact absurd rfl h

theorem holds_of_hasKey
    (h : (node.hasKey key || node.hasKeyCached setting key) = true) :
    HoldsKey key node := by
  rcases (Bool.or_eq_true ..).mp h with hdata | hcached
  · obtain ⟨value, hvalue⟩ := Option.isSome_iff_exists.mp hdata
    exact ⟨value, .inl hvalue⟩
  · rw [LocalNode.hasKeyCached, Store.findsHashTable, Bool.and_eq_true,
      Bool.and_eq_true] at hcached
    obtain ⟨value, hvalue⟩ := Option.isSome_iff_exists.mp hcached.2.2
    exact ⟨value, .inr hvalue⟩

theorem get_reply_holds {response : Response}
    (hparse : parseFromArray bytes =
      some (.query ((SendCall.sendGet key).query sender tid)))
    (hrun : (protobufProcess env setting parseFromArray bytes false).run node =
      .ok (.response response) after)
    (hvalue : response.response.data.lookup "value" = some value) :
    HoldsValue key value node := by
  obtain ⟨outcome, houtcome, hreply⟩ := reply_of_sent hparse nofun hrun
  have hkey : ((SendCall.sendGet key).args sender).lookup "key" = some key := by
    simp [SendCall.args]
  have hcode : outcome.1 = .success := by
    apply code_of_hasResponse
    rw [← hreply]
    rfl
  rw [handleMethod_sent] at houtcome
  simp only [handleGet, hkey, Bool.not_false, if_true, run_get_bind,
    run_pure_eq_ok] at houtcome
  obtain ⟨rfl, rfl⟩ := houtcome
  rw [replyValue] at hcode hreply
  split_ifs at hcode hreply with hempty
  rw [finishReply_of_success (by simp)] at hreply
  cases hreply
  cases (Finmap.lookup_insert _).symm.trans hvalue
  exact holdsValue_heldValue hempty

/-- Whom a node names as a provider: itself, if it holds the key, and those
that it has. -/
theorem getProviders_reply_names {response : Response}
    (hparse : parseFromArray bytes =
      some (.query ((SendCall.sendGetProviders key).query sender tid)))
    (hrun : (protobufProcess env setting parseFromArray bytes false).run node =
      .ok (.response response) after) :
    ∀ nodeInfo ∈ response.response.nodes,
      (nodeInfo.address = node.address ∧ HoldsKey key node) ∨
        ∃ provider ∈ node.getProviders key,
          nodeInfo.address = provider.address := by
  obtain ⟨outcome, houtcome, hreply⟩ := reply_of_sent hparse nofun hrun
  have hkey : ((SendCall.sendGetProviders key).args sender).lookup "key" =
      some key := by
    simp [SendCall.args]
  rw [handleMethod_sent] at houtcome
  simp only [handleGetProviders, hkey, run_get_bind, run_pure_eq_ok] at houtcome
  obtain ⟨rfl, rfl⟩ := houtcome
  rw [finishReply_of_success (by simp)] at hreply
  cases hreply
  intro nodeInfo hmem
  obtain ⟨provider, hprovider, rfl⟩ : ∃ provider ∈ providersOf setting node key,
      providerInfo provider = nodeInfo := by
    simpa [Response.addNodes, Response.addData, Response.empty] using hmem
  rw [providersOf] at hprovider
  split_ifs at hprovider with hhas
  · rcases List.mem_cons.mp hprovider with rfl | hmem
    · exact .inl ⟨rfl, holds_of_hasKey hhas⟩
    · exact .inr ⟨provider, hmem, rfl⟩
  · exact .inr ⟨provider, hprovider, rfl⟩

end Replies

end Neroshop.Rpc
