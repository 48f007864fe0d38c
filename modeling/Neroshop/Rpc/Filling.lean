import Neroshop.Routing.Closest
import Neroshop.Rpc.OwnId

/-!
# Filling the routing table

`join` asks the bootstrap nodes for what is close to the own id, `refresh` asks
the nodes of the table for what is close to a random id of a bucket, and both
ping what they are told before they add it.  `rebuild_routing_table` pings the
rows that a hardcoded node has kept.  Each of them is here a thread that waits
at every message it sends.
-/

namespace Neroshop.Rpc

open Neroshop.Foundation Neroshop.Node Neroshop.Routing

abbrev Endpoint := String × Nat

/-- `join`, or what `refresh` does for one bucket: the peers that have not been
asked yet, and for what. -/
structure Round where
  /-- `join` pings a peer before it asks it. -/
  pings : Bool
  target : String
  peers : List Endpoint
  deriving DecidableEq

/-- Where the thread is. -/
inductive Filling where
  | visiting (round : Round)
  /-- `find_node` goes to the peer. -/
  | asking (round : Round) (peer : Endpoint)
  /-- The first of the nodes that have been received is pinged. -/
  | checking (round : Round) (nodes : List RemoteNode)
  | adding (round : Round) (nodes : List RemoteNode) (node : RemoteNode)
  /-- The first of the rows is pinged. -/
  | rebuilding (rows : List Endpoint)
  | restoring (rows : List Endpoint) (node : RemoteNode)
  /-- It has left the array of buckets, or thrown. -/
  | crashed (round : Round)
  deriving DecidableEq

/-- What a thread is given where it waits. -/
inductive Heard where
  /-- The message is not sent, or not answered in time. -/
  | nothing
  /-- A response that has the transaction id. -/
  | response (message : List UInt8)
  /-- It does not wait. -/
  | proceeds
  deriving DecidableEq

/-- What `send_ping` and `send_find_node` ask, or another call of the node. -/
inductive Question where
  | ping
  | findNode (target : String)
  | other
  deriving DecidableEq

/-- Whom a thread that waits has asked what. -/
def Filling.asks : Filling → Option (String × Question)
  | .visiting ⟨true, _, peer :: _⟩ => some (peer.1, .ping)
  | .asking round peer => some (peer.1, .findNode round.target)
  | .checking _ (node :: _) => some (node.address, .ping)
  | .rebuilding (row :: _) => some (row.1, .ping)
  | _ => none

section Step

variable (network : Network) (networkType : NetworkType)

/-- The nodes of a reply are looked up before they are pinged. -/
def Filling.receive (round : Round) (table : RoutingTable)
    (message : List UInt8) : Filling :=
  match network.sendFindNode table message with
  | .ok [] => .visiting round
  | .ok (node :: nodes) => .checking round (node :: nodes)
  | .error _ => .crashed round

/-- Where the thread goes on, and the table as it leaves it.  A ping looks at
nothing in its response. -/
def Filling.step (table : RoutingTable) :
    Filling → Heard → Option (Filling × RoutingTable)
  | .visiting ⟨true, target, peer :: peers⟩, .response _ =>
      some (.asking ⟨true, target, peers⟩ peer, table)
  | .visiting ⟨true, target, _ :: peers⟩, .nothing =>
      some (.visiting ⟨true, target, peers⟩, table)
  | .visiting ⟨false, target, peer :: peers⟩, .proceeds =>
      some (.asking ⟨false, target, peers⟩ peer, table)
  | .asking round _, .nothing => some (.visiting round, table)
  | .asking round _, .response message =>
      some (.receive network round table message, table)
  | .checking round [], .proceeds => some (.visiting round, table)
  | .checking round (node :: nodes), .response _ =>
      some (.adding round nodes node, table)
  | .checking round (_ :: nodes), .nothing => some (.checking round nodes, table)
  | .adding round nodes node, .proceeds =>
      match table.addNode network.uninitialized node with
      | .ok (_, next) => some (.checking round nodes, next)
      | .error _ => some (.crashed round, table)
  | .rebuilding ((address, port) :: rows), .response _ =>
      if Health.isHardcodedAt (network.bootstrapNodes networkType) address
          (port % 2 ^ 16)
      then some (.rebuilding rows, table)
      else some (.restoring rows
        (.ofAddress network.sha3256 address (port % 2 ^ 16)), table)
  | .rebuilding (_ :: rows), .nothing => some (.rebuilding rows, table)
  | .restoring rows node, .proceeds =>
      match table.addNode network.uninitialized node with
      | .ok (_, next) => some (.rebuilding rows, next)
      | .error _ => none
  | _, _ => none

end Step

/-! ## What is received -/

section Received

variable {network : Network} {table : RoutingTable}

theorem mem_newNodes {nodeInfos : List NodeInfo} {nodes : List RemoteNode}
    (h : network.newNodes table nodeInfos = .ok nodes) {node : RemoteNode}
    (hnode : node ∈ nodes) : ∃ nodeInfo ∈ nodeInfos,
      node = .ofAddress network.sha3256 nodeInfo.address
        (nodeInfo.port % 2 ^ 16) := by
  induction nodeInfos generalizing nodes with
  | nil =>
      cases h
      cases hnode
  | cons nodeInfo nodeInfos ih =>
      rw [Network.newNodes] at h
      obtain ⟨hasNode, -, h⟩ := bind_eq_ok.mp h
      obtain ⟨rest, hrest, h⟩ := bind_eq_ok.mp h
      have hlater : node ∈ rest → ∃ later ∈ nodeInfo :: nodeInfos,
          node = .ofAddress network.sha3256 later.address
            (later.port % 2 ^ 16) := by
        intro hmem
        obtain ⟨later, hlater, heq⟩ := ih hrest hmem
        exact ⟨later, List.mem_cons_of_mem _ hlater, heq⟩
      cases hasNode with
      | true =>
          cases h
          exact hlater hnode
      | false =>
          cases h
          rcases List.mem_cons.mp hnode with rfl | hmem
          · exact ⟨nodeInfo, List.mem_cons_self, rfl⟩
          · exact hlater hmem

theorem newNodes_returns {nodeInfos : List NodeInfo}
    (h : ∀ nodeInfo ∈ nodeInfos,
      (network.sha3256 nodeInfo.address).xorId ≠ table.id) :
    ∃ nodes, network.newNodes table nodeInfos = .ok nodes := by
  induction nodeInfos with
  | nil => exact ⟨[], rfl⟩
  | cons nodeInfo nodeInfos ih =>
      rw [List.forall_mem_cons] at h
      obtain ⟨hasNode, hhas⟩ := hasNode_other network.uninitialized h.1
      obtain ⟨nodes, hnodes⟩ := ih h.2
      refine ⟨if hasNode then nodes else .ofAddress network.sha3256
        nodeInfo.address (nodeInfo.port % 2 ^ 16) :: nodes, ?_⟩
      rw [Network.newNodes, RemoteNode.ofAddress, hhas, hnodes]
      rfl

/-- The nodes that a message lists. -/
def Network.listed (network : Network) (message : List UInt8) : List NodeInfo :=
  match network.parseFromArray message with
  | some (.response response) => response.response.nodes
  | _ => []

theorem sendFindNode_eq (message : List UInt8) :
    network.sendFindNode table message =
      network.newNodes table (network.listed message) := by
  rw [Network.sendFindNode, Network.listed]
  cases network.parseFromArray message with
  | none => rfl
  | some parsed => cases parsed <;> rfl

theorem mem_findClosestNodes {sort : List RoutingTable.ScoredNode →
      List RoutingTable.ScoredNode} (hsort : SortsByDistance sort)
    (hsound : Sound network.sha3256 table) {uninitialized : XorId}
    {target : String} {count : Nat} {nodes : List RemoteNode}
    (h : table.findClosestNodes sort uninitialized target count = .ok nodes)
    {node : RemoteNode} (hnode : node ∈ nodes) :
    node ∈ table.getNodes ∧ ∀ hex : NodeIdHex, target = hex.text →
      (network.sha3256 node.address).xorId ≠ hex.xorId := by
  obtain ⟨targetId, hread, -⟩ := bind_eq_ok.mp h
  rw [findClosestNodes_of_read hsound hread] at h
  obtain rfl := Except.ok.inj h
  have hmem := (arranged_perm hsort targetId).mem_iff.mp
    (List.mem_of_mem_take hnode)
  rw [RoutingTable.candidates, List.mem_filter, decide_eq_true_eq] at hmem
  refine ⟨hmem.1, ?_⟩
  rintro hex rfl
  rw [hexStringToNodeId_text, Except.ok.injEq] at hread
  rw [hread]
  exact hmem.2

end Received

end Neroshop.Rpc
