import Neroshop.Rpc.Process

/-!
# Asking other nodes

`send_put` and `send_get` ask one node after the other and wait for each.  What
a node replies, if anything, is up to it; a reply changes the providers of the
key, and a value that is replied with is validated and not stored.
-/

namespace Neroshop.Rpc

open Neroshop.Foundation Neroshop.Node Neroshop.Routing

inductive Answer where
  /-- `send_query` throws. -/
  | unsent
  /-- No reply before the timeout. -/
  | silent
  /-- The promise was dropped, so its future throws. -/
  | broken
  | received (reply : Option DhtMessage)

/-- The requests that one call sends, each kind to every node at most once. -/
inductive Stage where
  | put
  | putReplacement
  | getProviders
  | getOwnProvider
  | getFoundProvider
  deriving DecidableEq, Repr

structure Peers where
  shuffle : List RemoteNode → List RemoteNode
  answer : Stage → Provider → Answer

def addProvider (dataHash : String) (peer : Provider) : NodeCall Unit :=
  modify fun node =>
    let peers := node.getProviders dataHash
    if peers.any fun existing => existing.address = peer.address then node
    else { node with
      providers := node.providers.insert dataHash (peers ++ [peer]) }

/-- An entry that becomes empty is removed. -/
def removeProvider (dataHash : String) (peer : Provider) : NodeCall Unit :=
  modify fun node =>
    let peers := (node.getProviders dataHash).filter (· ≠ peer)
    { node with
      providers := if peers = [] then node.providers.erase dataHash
        else node.providers.insert dataHash peers }

def toProvider (remote : RemoteNode) : Provider := ⟨remote.address, remote.port⟩

section Requests

variable (env : Externals) (setting : Setting) (peers : Peers)

/-! ## Storing -/

/-- Whether the node counts as sent to; one that replies becomes a provider. -/
def putTo (stage : Stage) (key : String) (remote : RemoteNode) :
    NodeCall Bool :=
  match peers.answer stage (toProvider remote) with
  | .unsent => pure false
  | .silent => pure false
  | .broken => throw .runtimeError
  | .received none => pure false
  | .received (some reply) => do
      if reply.hasResponse then addProvider key (toProvider remote)
      return true

def putToAll (stage : Stage) (key : String) (nodes : List RemoteNode) :
    NodeCall Nat :=
  nodes.foldlM (fun count remote => do
    return if ← putTo peers stage key remote then count + 1 else count) 0

def sendPut (key : String) : NodeCall Nat := do
  let node ← get
  let closest ← ofExcept (node.findNode setting key replicationFactor)
  let closestNodes := peers.shuffle closest
  let nodesSent ← putToAll peers .put key closestNodes
  if closestNodes.length < replicationFactor then return nodesSent
  if replicationFactor ≤ nodesSent then return nodesSent
  let node ← get
  let allNodes ← ofExcept (node.findNode setting key node.getPeerCount)
  let replacements := allNodes.filter (· ∉ closestNodes)
  let remaining := replicationFactor - nodesSent
  if replacements.length < remaining then return nodesSent
  let replaced ← putToAll peers .putReplacement key (replacements.take remaining)
  return nodesSent + replaced

/-! ## Retrieving -/

def getFrom (stage : Stage) (key : String) (peer : Provider) :
    NodeCall (Option String) :=
  match peers.answer stage peer with
  | .unsent => pure none
  | .silent => do
      removeProvider key peer
      return none
  | .broken => pure none
  | .received none => pure none
  | .received (some (.error _)) => do
      removeProvider key peer
      return none
  | .received (some (.response reply)) =>
      match reply.response.data.lookup "value" with
      | none => pure none
      | some value => do
          return if ← LocalNode.validate env setting key value then some value
            else none
  | .received (some _) => pure none

def getFromFirst (stage : Stage) (key : String) :
    List Provider → NodeCall (Option String)
  | [] => pure none
  | peer :: rest => do
      match ← getFrom env setting peers stage key peer with
      | some value => return some value
      | none => getFromFirst stage key rest

/-- The providers in a reply, whose ports are cut to 16 bits. -/
def repliedProviders : Answer → List Provider
  | .received (some (.response reply)) => reply.response.nodes.map fun info =>
      ⟨info.address, info.port % 2 ^ 16⟩
  | _ => []

def sendGetProviders (key : String) : NodeCall (List Provider) := do
  let node ← get
  let closest ← ofExcept (node.findNode setting key maxClosestNodes)
  let active := (peers.shuffle closest).filter fun remote =>
    getStatus (setting.checkCounter remote) = .active
  return (active.flatMap fun remote =>
    repliedProviders (peers.answer .getProviders (toProvider remote))).eraseDups

def sendGet (key : String) : NodeCall String := do
  let node ← get
  match ← getFromFirst env setting peers .getOwnProvider key
      (node.getProviders key) with
  | some value => return value
  | none => do
      let providers ← sendGetProviders setting peers key
      let found ← getFromFirst env setting peers .getFoundProvider key providers
      return found.getD ""

/-- The setting of a node whose requests go to these peers. -/
def Peers.connect : Setting :=
  { setting with
    publish := fun key _ => sendPut setting peers key
    retrieve := fun key => sendGet env setting peers key }

end Requests

end Neroshop.Rpc
