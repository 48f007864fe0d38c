import Mathlib.Data.List.FinRange
import Mathlib.Data.List.Nodup
import Mathlib.Data.List.Perm.Basic
import Neroshop.Routing.NodeId

/-!
# The routing table

A table has one bucket for each bit of an id.  The functions on ids compute
the bucket from the id they are given; those on addresses scan all buckets.
An id the caller passes is read into an array that may hold anything before.
-/

namespace Neroshop.Routing

open Neroshop.Foundation

/-- `NEROSHOP_DHT_NODES_PER_BUCKET`. -/
def nodesPerBucket : Nat := 20

/-- A remote node as far as the table reads it. -/
structure RemoteNode where
  id : String
  address : String
  port : Nat
  deriving DecidableEq, Repr

structure RoutingTable where
  id : XorId
  buckets : Fin 256 → List RemoteNode

namespace RoutingTable

def create (id : XorId) : RoutingTable := ⟨id, fun _ => []⟩

def setBucket (table : RoutingTable) (bucketIndex : Fin 256)
    (nodes : List RemoteNode) : RoutingTable :=
  { table with buckets := Function.update table.buckets bucketIndex nodes }

def addNode (uninitialized : XorId) (table : RoutingTable)
    (node : RemoteNode) : Except Fault (Bool × RoutingTable) := do
  let nodeId ← hexStringToNodeId uninitialized node.id
  let bucketIndex := xorDistanceBitIndex table.id nodeId
  if nodeId = table.id then return (false, table)
  if h : bucketIndex < 256 then
    let nodes := table.buckets ⟨bucketIndex, h⟩
    if nodes.any (fun existing => existing.id = node.id) then
      return (false, table)
    if nodesPerBucket ≤ nodes.length then return (false, table)
    return (true, table.setBucket ⟨bucketIndex, h⟩ (nodes ++ [node]))
  else return (false, table)

/-- `remove_node` by address: the first bucket with a match loses all of them. -/
def removeNodeByAddress (table : RoutingTable) (nodeAddr : String) :
    Bool × RoutingTable :=
  match (List.finRange 256).find? fun i =>
      (table.buckets i).any fun node => node.address = nodeAddr with
  | none => (false, table)
  | some i =>
      (true, table.setBucket i
        ((table.buckets i).filter fun node => node.address ≠ nodeAddr))

/-- `remove_node` by id, which does not test the bucket it computes. -/
def removeNode (uninitialized : XorId) (table : RoutingTable)
    (nodeIdHex : String) : Except Fault (Bool × RoutingTable) :=
  match hexStringToNodeId uninitialized nodeIdHex with
  | .error _ => .ok (false, table)
  | .ok nodeId =>
      if h : xorDistanceBitIndex table.id nodeId < 256 then
        let i : Fin 256 := ⟨xorDistanceBitIndex table.id nodeId, h⟩
        if (table.buckets i).any fun node => node.id = nodeIdHex then
          .ok (true, table.setBucket i
            ((table.buckets i).eraseP fun node => node.id = nodeIdHex))
        else .ok (false, table)
      else .error .outOfBounds

/-- The bucket that `get_node` and `has_node` look into. -/
def bucketOf (uninitialized : XorId) (table : RoutingTable)
    (nodeIdHex : String) : Except Fault (List RemoteNode) := do
  let nodeId ← hexStringToNodeId uninitialized nodeIdHex
  if h : xorDistanceBitIndex table.id nodeId < 256
  then return table.buckets ⟨xorDistanceBitIndex table.id nodeId, h⟩
  else throw .outOfBounds

def getNode (uninitialized : XorId) (table : RoutingTable)
    (nodeIdHex : String) : Except Fault (Option RemoteNode) := do
  let nodes ← table.bucketOf uninitialized nodeIdHex
  return nodes.find? fun node => node.id = nodeIdHex

def hasNode (uninitialized : XorId) (table : RoutingTable)
    (nodeIdHex : String) : Except Fault Bool := do
  let nodes ← table.bucketOf uninitialized nodeIdHex
  return nodes.any fun node => node.id = nodeIdHex

def hasNodeByAddress (table : RoutingTable) (address : String) : Bool :=
  (List.finRange 256).any fun i =>
    (table.buckets i).any fun node => node.address = address

def getNodes (table : RoutingTable) : List RemoteNode :=
  (List.finRange 256).flatMap table.buckets

def getNodeCount (table : RoutingTable) : Nat :=
  ((List.finRange 256).map fun i => (table.buckets i).length).sum

structure ScoredNode where
  node : RemoteNode
  distance : Nat
  deriving DecidableEq, Repr

/-- The nodes with their distances; one whose id is the target is left out. -/
def scoreNodes (uninitialized targetId : XorId) :
    List RemoteNode → Except Fault (List ScoredNode)
  | [] => .ok []
  | node :: nodes => do
      let nodeId ← hexStringToNodeId uninitialized node.id
      let distance := xorDistanceBitIndex targetId nodeId
      let scored ← scoreNodes uninitialized targetId nodes
      return if distance = 256 then scored else ⟨node, distance⟩ :: scored

/--
`find_closest_nodes`.  `sort` is the sort by distance, which may put nodes at
one distance in any order.
-/
def findClosestNodes (sort : List ScoredNode → List ScoredNode)
    (uninitialized : XorId) (table : RoutingTable) (key : String)
    (count : Nat) : Except Fault (List RemoteNode) := do
  let targetId ← hexStringToNodeId uninitialized key
  let scored ← scoreNodes uninitialized targetId table.getNodes
  return ((sort scored).take count).map ScoredNode.node

section Buckets

variable (uninitialized : XorId) {table : RoutingTable} {hex : NodeIdHex}

theorem bucketOf_self (hself : hex.xorId = table.id) :
    table.bucketOf uninitialized hex.text = .error .outOfBounds := by
  have hindex : xorDistanceBitIndex table.id hex.xorId = 256 :=
    xorDistanceBitIndex_eq_size.mpr hself.symm
  simp only [bucketOf, hexStringToNodeId_text, bind, Except.bind]
  rw [dif_neg (by omega)]
  rfl

theorem bucketOf_of_ne (hne : hex.xorId ≠ table.id) :
    table.bucketOf uninitialized hex.text =
      .ok (table.buckets ⟨_, xorDistanceBitIndex_lt hne⟩) := by
  simp only [bucketOf, hexStringToNodeId_text, bind, Except.bind]
  rw [dif_pos (xorDistanceBitIndex_lt hne)]
  rfl

end Buckets

section Content

variable {table : RoutingTable} {node : RemoteNode}

theorem mem_getNodes :
    node ∈ table.getNodes ↔ ∃ i, node ∈ table.buckets i := by
  simp [getNodes]

theorem getNodeCount_eq (table : RoutingTable) :
    table.getNodeCount = table.getNodes.length := by
  simp [getNodeCount, getNodes, List.length_flatMap]

theorem hasNodeByAddress_iff {address : String} :
    table.hasNodeByAddress address = true ↔
      ∃ node ∈ table.getNodes, node.address = address := by
  simp only [hasNodeByAddress, List.any_eq_true, List.mem_finRange, true_and,
    decide_eq_true_eq, mem_getNodes]
  constructor
  · rintro ⟨i, node, hmem, haddress⟩
    exact ⟨node, ⟨i, hmem⟩, haddress⟩
  · rintro ⟨node, ⟨i, hmem⟩, haddress⟩
    exact ⟨i, node, hmem, haddress⟩

theorem getNodes_perm (table : RoutingTable) (i : Fin 256) :
    table.getNodes.Perm (table.buckets i ++
      ((List.finRange 256).erase i).flatMap table.buckets) :=
  (List.perm_cons_erase (List.mem_finRange i)).flatMap_right table.buckets

theorem getNodes_setBucket_perm (table : RoutingTable) (i : Fin 256)
    (nodes : List RemoteNode) :
    (table.setBucket i nodes).getNodes.Perm (nodes ++
      ((List.finRange 256).erase i).flatMap table.buckets) := by
  have hsame : ((List.finRange 256).erase i).flatMap
        (table.setBucket i nodes).buckets =
      ((List.finRange 256).erase i).flatMap table.buckets := by
    refine List.flatMap_congr fun j hj => ?_
    have hne : j ≠ i := fun h =>
      (List.nodup_finRange 256).not_mem_erase (h ▸ hj)
    simp [setBucket, hne]
  have hperm := getNodes_perm (table.setBucket i nodes) i
  rw [hsame] at hperm
  simpa [setBucket] using hperm

theorem getNodes_add_perm (table : RoutingTable) (i : Fin 256)
    (node : RemoteNode) :
    (table.setBucket i (table.buckets i ++ [node])).getNodes.Perm
      (node :: table.getNodes) := by
  refine (getNodes_setBucket_perm table i _).trans ?_
  rw [List.append_assoc]
  exact List.perm_middle.trans ((getNodes_perm table i).symm.cons node)

theorem getNodes_remove_perm {i : Fin 256} {nodes : List RemoteNode}
    (h : (table.buckets i).Perm (node :: nodes)) :
    table.getNodes.Perm (node :: (table.setBucket i nodes).getNodes) := by
  refine (getNodes_perm table i).trans ((h.append_right _).trans ?_)
  exact ((getNodes_setBucket_perm table i nodes).symm.cons node)

end Content

end RoutingTable

end Neroshop.Routing
