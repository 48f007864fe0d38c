import Neroshop.Rpc.Peers

/-!
# Requests that store nothing

Of all that a request makes a node do, only `put` writes to the table `data`.
Everything else leaves the values there or removes some: `validate` discards
the key of an expired offer, and that is also what happens to the keys of the
values that other nodes reply with.
-/

namespace Neroshop.Rpc

open Neroshop.Foundation Neroshop.Node

def SameTables (node after : LocalNode) : Prop := after.tables = node.tables

/-- What is in `data` afterwards was there before. -/
def DataShrinks (node after : LocalNode) : Prop :=
  ∀ key value, after.tables.data.lookup key = some value →
    node.tables.data.lookup key = some value

instance : IsPreorder LocalNode SameTables where
  refl _ := rfl
  trans _ _ _ hfirst hsecond := Eq.trans hsecond hfirst

instance : IsPreorder LocalNode DataShrinks where
  refl _ _ _ h := h
  trans _ _ _ hfirst hsecond key value h :=
    hfirst key value (hsecond key value h)

theorem SameTables.dataShrinks {node after : LocalNode}
    (h : SameTables node after) : DataShrinks node after := by
  intro key value hlookup
  rwa [h] at hlookup

section Calls

variable {env : Externals} {setting : Setting} {peers : Peers}
  {args : StringMap} {message : DhtMessage} {ipcMode : Bool}

/-! ## The calls on the node -/

theorem relates_onTables {α : Type} {call : Store → Except Fault α × Store}
    {relation : LocalNode → LocalNode → Prop}
    (h : ∀ node : LocalNode,
      relation node { node with tables := (call node.tables).2 }) :
    Relates relation (LocalNode.onTables call) := by
  intro node
  have hafter := h node
  rw [stateAfter]
  simp only [LocalNode.onTables, EStateM.run]
  cases hcall : call node.tables with
  | mk result tables =>
      rw [hcall] at hafter
      cases result <;> exact hafter

theorem shrinks_erase {node : LocalNode} {after : Store} {key : String}
    (hdata : after.data = node.tables.data.erase key) :
    DataShrinks node { node with tables := after } := by
  intro other value hlookup
  simp only [hdata] at hlookup
  by_cases hother : other = key
  · subst hother
    simp at hlookup
  · rwa [Finmap.lookup_erase_ne hother] at hlookup

theorem validate_shrinks (key value : String) :
    Relates DataShrinks (LocalNode.validate env setting key value) := by
  refine relates_onTables fun node => ?_
  unfold Node.validate
  split
  · exact refl_of DataShrinks node
  · exact refl_of DataShrinks node
  · split
    · exact refl_of DataShrinks node
    · exact refl_of DataShrinks node
    · exact shrinks_erase rfl

theorem remove_shrinks (key : String) :
    Relates DataShrinks (LocalNode.remove key) :=
  relates_onTables fun _ => shrinks_erase rfl

theorem removeAll_shrinks : Relates DataShrinks LocalNode.removeAll :=
  relates_onTables fun _ _ _ h => by simp at h

theorem cache_shrinks (key value : String) :
    Relates DataShrinks (LocalNode.cache setting key value) := by
  refine relates_onTables fun node => ?_
  split <;> exact fun _ _ h => h

theorem deleteRow_shrinks (statement : SqlStatement) {delete : Store → Store}
    (hdelete : ∀ tables, (delete tables).data = tables.data) :
    Relates DataShrinks (LocalNode.deleteRow setting statement delete) :=
  relates_onTables fun node _ _ h => by rwa [← hdelete node.tables]

theorem map_shrinks (key value : String) :
    Relates DataShrinks (LocalNode.map env setting key value) := by
  intro node
  simp only [stateAfter, LocalNode.map, EStateM.run]
  cases node.keyMapper.add env setting.moment node.tables.mappings key value
    with
  | error fault => exact refl_of DataShrinks node
  | ok mapped => exact fun _ _ h => h

/-! ## The requests to other nodes -/

theorem addProvider_tables (dataHash : String) (peer : Provider) :
    Relates SameTables (addProvider dataHash peer) := by
  intro node
  change SameTables node (if _ then _ else _)
  split <;> rfl

theorem removeProvider_tables (dataHash : String) (peer : Provider) :
    Relates SameTables (removeProvider dataHash peer) :=
  fun _ => rfl

theorem putTo_tables (stage : Stage) (key : String)
    (remote : Routing.RemoteNode) :
    Relates SameTables (putTo peers stage key remote) := by
  unfold putTo
  split
  · exact relates_pure _
  · exact relates_pure _
  · exact relates_throw _
  · exact relates_pure _
  · split
    · exact relates_bind_pure (addProvider_tables _ _)
    · exact relates_pure _

theorem putToAll_tables (stage : Stage) (key : String)
    (nodes : List Routing.RemoteNode) :
    Relates SameTables (putToAll peers stage key nodes) :=
  relates_foldlM (fun _ _ => relates_bind_pure (putTo_tables _ _ _)) nodes 0

theorem sendPut_tables (key : String) :
    Relates SameTables (sendPut setting peers key) := by
  unfold sendPut
  refine relates_bind relates_get fun node => ?_
  refine relates_bind (relates_ofExcept _) fun closest => ?_
  refine relates_bind (putToAll_tables _ _ _) fun nodesSent => ?_
  split
  · exact relates_pure _
  split
  · exact relates_pure _
  refine relates_bind relates_get fun node => ?_
  refine relates_bind (relates_ofExcept _) fun allNodes => ?_
  dsimp only
  split
  · exact relates_pure _
  · exact relates_bind_pure (putToAll_tables _ _ _)

theorem publish_tables (key value : String) : Relates SameTables
    (LocalNode.sendPut env (peers.connect env setting) key value) := by
  unfold LocalNode.sendPut
  refine relates_bind (relates_ofExcept _) fun publishable => ?_
  split
  · exact sendPut_tables key
  · exact relates_pure _

theorem getFrom_shrinks (stage : Stage) (key : String) (peer : Provider) :
    Relates DataShrinks (getFrom env setting peers stage key peer) := by
  have hremove := (removeProvider_tables key peer).mono
    fun _ _ => SameTables.dataShrinks
  unfold getFrom
  split
  · exact relates_pure _
  · exact relates_bind_pure hremove
  · exact relates_pure _
  · exact relates_pure _
  · exact relates_bind_pure hremove
  · split
    · exact relates_pure _
    · exact relates_bind_pure (validate_shrinks _ _)
  · exact relates_pure _

theorem getFromFirst_shrinks (stage : Stage) (key : String)
    (providers : List Provider) :
    Relates DataShrinks (getFromFirst env setting peers stage key providers) := by
  induction providers with
  | nil => exact relates_pure _
  | cons peer rest ih =>
      refine relates_bind (getFrom_shrinks _ _ _) fun found => ?_
      cases found with
      | none => exact ih
      | some value => exact relates_pure _

theorem sendGet_shrinks (key : String) :
    Relates DataShrinks (sendGet env setting peers key) := by
  unfold sendGet
  refine relates_bind relates_get fun node => ?_
  refine relates_bind (getFromFirst_shrinks _ _ _) fun found => ?_
  cases found with
  | some value => exact relates_pure _
  | none =>
      refine relates_bind ?_ fun providers => ?_
      · refine relates_bind relates_get fun node => ?_
        exact relates_bind_pure (relates_ofExcept _)
      · exact relates_bind_pure (getFromFirst_shrinks _ _ _)

theorem retrieve_shrinks (key : String) : Relates DataShrinks
    (LocalNode.sendGet (peers.connect env setting) key) := by
  intro node
  simp only [stateAfter, EStateM.run, LocalNode.sendGet]
  by_cases hdata : node.hasKey key = true
  · rw [if_pos hdata]
    exact refl_of DataShrinks node
  rw [if_neg hdata]
  by_cases hcached : node.hasKeyCached (peers.connect env setting) key = true
  · rw [if_pos hcached]
    exact refl_of DataShrinks node
  · rw [if_neg hcached]
    exact sendGet_shrinks key node

/-! ## The methods -/

theorem handleFindNode_shrinks :
    Relates DataShrinks (handleFindNode setting args message) := by
  unfold handleFindNode
  split
  · exact relates_pure _
  · refine relates_bind relates_get fun _ => ?_
    exact relates_bind_pure (relates_ofExcept _)

theorem handleGetProviders_shrinks :
    Relates DataShrinks (handleGetProviders setting args message) := by
  unfold handleGetProviders
  split
  · exact relates_pure _
  · exact relates_bind_pure relates_get

theorem handleGet_shrinks : Relates DataShrinks
    (handleGet (peers.connect env setting) args message ipcMode) := by
  unfold handleGet
  split
  · exact relates_pure _
  split
  · exact relates_bind_pure relates_get
  split
  · unfold handleStatus
    refine relates_bind relates_get fun _ => ?_
    exact relates_bind_pure (relates_ofExcept _)
  · exact relates_bind_pure (retrieve_shrinks _)

theorem handleMap_shrinks :
    Relates DataShrinks (handleMap env setting args message) := by
  unfold handleMap
  split
  · refine relates_bind (validate_shrinks _ _) fun valid => ?_
    split
    · exact relates_bind_pure (map_shrinks _ _)
    · exact relates_pure _
  · exact relates_pure _

theorem removeIf_shrinks (found : Bool) {removal : NodeCall Bool}
    (code : DhtResultCode) (h : Relates DataShrinks removal) :
    Relates DataShrinks (removeIf found removal code) := by
  unfold removeIf
  split
  · exact relates_bind_pure h
  · exact relates_pure _

theorem handleRemove_shrinks :
    Relates DataShrinks (handleRemove setting args message) := by
  unfold handleRemove
  split
  · exact relates_pure _
  refine relates_bind relates_get fun _ => ?_
  refine relates_bind (removeIf_shrinks _ _ (remove_shrinks _)) fun _ => ?_
  refine relates_bind relates_get fun _ => ?_
  refine relates_bind
    (removeIf_shrinks _ _ (deleteRow_shrinks _ fun _ => rfl)) fun _ => ?_
  refine relates_bind relates_get fun _ => ?_
  exact relates_bind_pure
    (removeIf_shrinks _ _ (deleteRow_shrinks _ fun _ => rfl))

/-- A query that is no `put` brings no value into `data`. -/
theorem handleMethod_shrinks {query : Query} (hput : query.query ≠ "put") :
    Relates DataShrinks
      (handleMethod env (peers.connect env setting) ipcMode query message) := by
  unfold handleMethod
  split
  · exact relates_pure _
  split
  · exact handleFindNode_shrinks
  split
  · exact handleGetProviders_shrinks
  split
  · exact handleGet_shrinks
  split
  · exact handleMap_shrinks
  split
  · exact handleRemove_shrinks
  split
  · exact relates_bind_pure removeAll_shrinks
  · exact relates_pure _

end Calls

end Neroshop.Rpc
