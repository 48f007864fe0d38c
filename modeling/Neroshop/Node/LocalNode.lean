import Neroshop.Foundation.Effects
import Neroshop.Node.KeyMapper
import Neroshop.Node.Put
import Neroshop.Routing.Table

/-!
# The local node

The state of a running node and the calls that the dispatcher makes on it.  A
call runs on the state and returns or faults; its changes stay in either case.
What other nodes answer to `send_put` and `send_get` is left to parameters.
-/

namespace Neroshop.Node

open Neroshop.Foundation Neroshop.Routing

inductive NetworkType where
  | i2p
  | tor
  | reticulum
  | clearnet
  deriving DecidableEq, Repr

def NetworkType.text : NetworkType → String
  | .i2p => "I2P"
  | .tor => "Tor"
  | .reticulum => "Reticulum"
  | .clearnet => "Clearnet"

inductive NodeStatus where
  | dead
  | inactive
  | active
  deriving DecidableEq, Repr

def NodeStatus.toInt (status : NodeStatus) : Int := status.ctorIdx

/-- `NEROSHOP_DHT_MAX_HEALTH_CHECKS`. -/
def maxHealthChecks : Nat := 3

def getStatus (checkCounter : Nat) : NodeStatus :=
  if checkCounter = 0 then .active
  else if checkCounter < maxHealthChecks then .inactive
  else .dead

structure Provider where
  address : String
  port : Nat
  deriving DecidableEq, Repr

structure LocalNode where
  id : String
  address : String
  port : Nat
  networkType : NetworkType
  tables : Store
  providers : Finmap fun _ : String => List Provider
  routingTable : RoutingTable
  keyMapper : KeyMapper

abbrev NodeCall := EStateM Fault LocalNode

structure Setting where
  moment : Moment
  uninitialized : XorId
  sort : List RoutingTable.ScoredNode → List RoutingTable.ScoredNode
  /-- Failed health checks of the nodes in the table. -/
  checkCounter : RemoteNode → Nat
  /-- `get_data_ram_usage`, which depends on the allocator. -/
  dataRamUsage : Int
  /-- Where there is a Tor manager, how far it has got. -/
  bootstrapProgress : Option Int
  /-- `send_put` of a publishable value: how many nodes have acknowledged it. -/
  publish : (key value : String) → NodeCall Nat
  /-- `send_get` of a key that the node does not hold itself. -/
  retrieve : (key : String) → NodeCall String

def isValuePublishable (env : Externals) (value : String) : Except Fault Bool :=
  match env.parse value with
  | .error .parseError => .ok false
  | .error .outOfRange => .error .outOfRange
  | .ok json =>
      match json.string? "metadata" with
      | some metadata => .ok (metadata ≠ "listing")
      | none => .ok false

namespace LocalNode

variable (env : Externals) (setting : Setting)

/-! ## Reading -/

def hasKey (node : LocalNode) (key : String) : Bool :=
  (node.tables.data.lookup key).isSome

def getValue (node : LocalNode) (key : String) : String :=
  (node.tables.data.lookup key).getD ""

def hasKeyCached (node : LocalNode) (key : String) : Bool :=
  setting.moment.executes .selectTables &&
    node.tables.findsHashTable setting.moment key

def getCached (node : LocalNode) (key : String) : String :=
  if setting.moment.executes .selectTables ∧
      setting.moment.executes .selectValue
  then (node.tables.hashTable.lookup key).getD "" else ""

def getProviders (node : LocalNode) (dataHash : String) : List Provider :=
  (node.providers.lookup dataHash).getD []

def findNode (node : LocalNode) (target : String) (count : Nat) :
    Except Fault (List RemoteNode) :=
  node.routingTable.findClosestNodes setting.sort setting.uninitialized target
    count

def getPeerCount (node : LocalNode) : Nat := node.routingTable.getNodeCount

/-- `get_active_peer_count` and `get_idle_peer_count`. -/
def countPeers (node : LocalNode) (status : NodeStatus) : Nat :=
  node.routingTable.getNodes.countP fun remote =>
    getStatus (setting.checkCounter remote) = status

def getDistance (node : LocalNode) (remote : RemoteNode) :
    Except Fault Nat := do
  let remoteId ← hexStringToNodeId setting.uninitialized remote.id
  let nodeId ← hexStringToNodeId setting.uninitialized node.id
  return xorDistanceBitIndex remoteId nodeId

/-! ## Writing -/

def onTables {α : Type} (call : Store → Except Fault α × Store) : NodeCall α :=
  fun node =>
    match call node.tables with
    | (.ok value, after) => .ok value { node with tables := after }
    | (.error fault, after) => .error fault { node with tables := after }

/-- `Node::store`, which is `put`. -/
def store (key value : String) : NodeCall Bool :=
  onTables fun tables => put env setting.moment tables key value

def validate (key value : String) : NodeCall Bool :=
  onTables fun tables => Node.validate env setting.moment tables key value

def remove (key : String) : NodeCall Bool :=
  onTables fun tables =>
    (.ok ((tables.remove key).data.lookup key).isNone, tables.remove key)

def removeAll : NodeCall Bool :=
  onTables fun tables => (.ok true, { tables with data := ∅ })

/-- `Node::cache`, which updates the row where there is one. -/
def cache (key value : String) : NodeCall Bool :=
  onTables fun tables =>
    if setting.moment.executes .upsertHashTable
    then (.ok true,
      { tables with hashTable := tables.hashTable.insert key value })
    else (.ok false, tables)

/-- A `DELETE` that is sent where a `SELECT` has found a row. -/
def deleteRow (statement : SqlStatement) (delete : Store → Store) :
    NodeCall Bool :=
  onTables fun tables =>
    (.ok (setting.moment.executes statement), delete tables)

def map (key value : String) : NodeCall Unit := fun node =>
  match node.keyMapper.add env setting.moment node.tables.mappings key value with
  | .ok (mapper, rows) =>
      .ok () { node with
        keyMapper := mapper, tables := { node.tables with mappings := rows } }
  | .error fault => .error fault node

def sendPut (key value : String) : NodeCall Nat := do
  if ← ofExcept (isValuePublishable env value) then setting.publish key value
  else return 0

def sendGet (key : String) : NodeCall String := fun node =>
  if node.hasKey key then .ok (node.getValue key) node
  else if node.hasKeyCached setting key then .ok (node.getCached setting key) node
  else setting.retrieve key node

end LocalNode

end Neroshop.Node
