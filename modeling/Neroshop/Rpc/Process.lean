import Neroshop.Node.LocalNode
import Neroshop.Rpc.Message

/-!
# Dispatching a request

`protobufProcess` answers one request.  It prepares a response with the
transaction id, lets the method fill it in and choose a result code, and at the
end turns it into an error unless that code is a success.  The methods that
set an error themselves go on to set the version of a response.  The reply is
the message that is then serialized.
-/

namespace Neroshop.Rpc

open Neroshop.Foundation Neroshop.Node

/-- `NEROSHOP_DHT_VERSION`. -/
def dhtVersion : String := "1.0"

/-- `NEROSHOP_DHT_REPLICATION_FACTOR`. -/
def replicationFactor : Nat := 3

/-- `NEROSHOP_DHT_MAX_CLOSEST_NODES`. -/
def maxClosestNodes : Nat := 20

/-- Sets an error, and then the version of a response. -/
def DhtMessage.overwriteError (message : DhtMessage) (code : DhtResultCode)
    (text : String) : DhtMessage :=
  (message.onError fun error =>
      { error with code := code.toInt, message := text }).onResponse
    fun response => { response with version := dhtVersion }

def earlyReply (text : String) : DhtMessage :=
  DhtMessage.notSet.overwriteError .parseError text

abbrev Outcome := DhtResultCode × DhtMessage

/-- A method that fails without an error of its own for the code. -/
def failWith (code : DhtResultCode) (message : DhtMessage) : Outcome :=
  if code = .success then (code, message)
  else (code, message.overwriteError code code.text)

section Methods

variable (env : Externals) (setting : Setting) (args : StringMap)
  (message : DhtMessage)

def nodeInfo (remote : Routing.RemoteNode) : NodeInfo :=
  ⟨remote.address, remote.port, "", 0, 0⟩

def handleFindNode : NodeCall Outcome :=
  match args.lookup "target" with
  | none => pure (.parseError, message)
  | some target => do
      let node ← get
      let nodes ← ofExcept (node.findNode setting target maxClosestNodes)
      return (.success, message.onResponse fun response =>
        response.addNodes (nodes.map nodeInfo))

def providerInfo (provider : Provider) : NodeInfo :=
  ⟨provider.address, provider.port, "", 0, 0⟩

def providersOf (node : LocalNode) (key : String) : List Provider :=
  if node.hasKey key || node.hasKeyCached setting key
  then ⟨node.address, node.port⟩ :: node.getProviders key
  else node.getProviders key

def handleGetProviders : NodeCall Outcome :=
  match args.lookup "key" with
  | none => pure (.parseError, message)
  | some key => do
      let node ← get
      return (.success, message.onResponse fun response =>
        response.addNodes ((providersOf setting node key).map providerInfo))

def heldValue (node : LocalNode) (key : String) : String :=
  if node.hasKey key then node.getValue key
  else if node.hasKeyCached setting key then node.getCached setting key
  else ""

def statusData (node : LocalNode) : List (String × String) :=
  [("connected_peers", toString node.getPeerCount),
    ("active_peers", toString (node.countPeers setting .active)),
    ("idle_peers", toString (node.countPeers setting .inactive)),
    ("data_count", toString node.tables.data.keys.card),
    ("data_ram_usage", toString setting.dataRamUsage),
    ("host", node.address),
    ("port", toString node.port),
    ("network_type", node.networkType.text)] ++
  setting.bootstrapProgress.toList.map fun progress =>
    ("tor_bootstrap_percent", toString progress)

def peerInfo (node : LocalNode) (remote : Routing.RemoteNode) :
    Except Fault NodeInfo := do
  let distance ← node.getDistance setting remote
  return ⟨remote.address, remote.port, remote.id,
    (getStatus (setting.checkCounter remote)).toInt, distance⟩

def handleStatus : NodeCall Outcome := do
  let node ← get
  let infos ← ofExcept (node.routingTable.getNodes.mapM (peerInfo setting node))
  return (.success, message.onResponse fun response =>
    ((statusData setting node).foldl
      (fun response (name, value) => response.addData name value)
      response).addNodes infos)

def replyValue (value : String) (failed : DhtMessage) : Outcome :=
  if value = "" then (.retrieveFailed, failed)
  else (.success, message.onResponse fun response =>
    response.addData "value" value)

def handleGet (ipcMode : Bool) : NodeCall Outcome :=
  match args.lookup "key" with
  | none => pure (.parseError, message)
  | some key =>
      let failed := message.overwriteError .retrieveFailed "Key not found"
      if !ipcMode then do
        let node ← get
        -- here the error's code is set once more after the response's version
        return replyValue message (heldValue setting node key)
          (failed.onError fun error =>
            { error with code := DhtResultCode.retrieveFailed.toInt })
      else if key = "status" then handleStatus setting message
      else do
        let value ← LocalNode.sendGet setting key
        return replyValue message value failed

/--
`Node::store`, `Node::cache` and `Node::map`, each after the one before.  A
value that the node has stored and cached is publishable or not.
-/
def storeAndCache (key value : String) : NodeCall (Option Bool) := do
  if ← LocalNode.store env setting key value then
    if ← LocalNode.cache setting key value then do
      let publishable ← ofExcept (isValuePublishable env value)
      LocalNode.map env setting key value
      return some publishable
    else return none
  else return none

/-- The code by the number of nodes that have acknowledged the value. -/
def sentCode (putMessagesSent : Nat) : DhtResultCode :=
  if putMessagesSent < replicationFactor ∧ 0 < putMessagesSent
  then .storePartial
  else if putMessagesSent = 0 then .storeFailed else .success

/-- The code of a value that the node has stored and cached itself. -/
def cachedCode (putMessagesSent : Nat) (publishable : Bool) : DhtResultCode :=
  if !publishable then .success
  else if putMessagesSent = 0 then .storeToSelf
  else sentCode putMessagesSent

def putCode (putMessagesSent : Nat) : Option Bool → DhtResultCode
  | some publishable => cachedCode putMessagesSent publishable
  | none => sentCode putMessagesSent

def handlePut (ipcMode : Bool) : NodeCall Outcome :=
  match args.lookup "key", args.lookup "value" with
  | some key, some value =>
      if !ipcMode then do
        let success ← LocalNode.store env setting key value
        return failWith (if success then .success else .storeFailed) message
      else do
        let sent ← LocalNode.sendPut env setting key value
        let cached ← storeAndCache env setting key value
        let code := putCode sent cached
        return if code = .storePartial then (code, message)
          else failWith code message
  | _, _ => pure (.parseError, message)

def handleMap : NodeCall Outcome :=
  match args.lookup "key", args.lookup "value" with
  | some key, some value => do
      if ← LocalNode.validate env setting key value then
        LocalNode.map env setting key value
      return (.success, message)
  | _, _ => pure (.parseError, message)

/-- A removal replaces the code of the one before. -/
def removeIf (found : Bool) (removal : NodeCall Bool) (code : DhtResultCode) :
    NodeCall DhtResultCode :=
  if found then do
    return if ← removal then .success else .removeFailed
  else pure code

def handleRemove : NodeCall Outcome :=
  match args.lookup "key" with
  | none => pure (.parseError, message)
  | some key => do
      let node ← get
      let code ← removeIf (node.hasKey key) (LocalNode.remove key) .success
      let node ← get
      let code ← removeIf (node.tables.findsHashTable setting.moment key)
        (LocalNode.deleteRow setting .deleteHashTable fun tables =>
          tables.deleteHashTable setting.moment key) code
      let node ← get
      let code ← removeIf (node.tables.findsMappings setting.moment key)
        (LocalNode.deleteRow setting .deleteMappings fun tables =>
          tables.deleteMappings setting.moment key) code
      return failWith code message

def handleClear : NodeCall Outcome := do
  let removed ← LocalNode.removeAll
  return failWith (if removed then .success else .removeFailed) message

end Methods

def handleMethod (env : Externals) (setting : Setting) (ipcMode : Bool)
    (query : Query) (message : DhtMessage) : NodeCall Outcome :=
  if query.query = "ping" then pure (.success, message)
  else if query.query = "find_node" then
    handleFindNode setting query.args message
  else if query.query = "get_providers" then
    handleGetProviders setting query.args message
  else if query.query = "get" then
    handleGet setting query.args message ipcMode
  else if query.query = "put" then
    handlePut env setting query.args message ipcMode
  else if query.query = "map" then handleMap env setting query.args message
  else if query.query = "remove" ∧ ipcMode then
    handleRemove setting query.args message
  else if query.query = "clear" ∧ ipcMode then handleClear message
  else pure (.parseError, message.overwriteError .parseError "Unknown method")

def startResponse (query : Query) (node : LocalNode) : DhtMessage :=
  DhtMessage.notSet.onResponse fun response =>
    { response with tid := query.tid, version := dhtVersion }.addData "id" node.id

/-- An unsuccessful code sets an error, and its text unless there is one. -/
def finishReply (code : DhtResultCode) (message : DhtMessage) : DhtMessage :=
  let message :=
    if code ≠ .success then message.onError fun error =>
      { error with
        code := code.toInt
        message := if error.message = "" then code.text else error.message }
    else message
  if !message.hasResponse && !message.hasError
  then message.onResponse fun response => { response with version := dhtVersion }
  else message

def protobufProcess (env : Externals) (setting : Setting)
    (parseFromArray : List UInt8 → Option DhtMessage) (request : List UInt8)
    (ipcMode : Bool) : NodeCall DhtMessage :=
  match parseFromArray request with
  | none => pure (earlyReply "Parse error")
  | some (.query query) =>
      if query.version ≠ dhtVersion then pure (earlyReply "Version mismatch")
      else if !ipcMode ∧ (query.args.lookup "id").isNone then
        pure (earlyReply "Missing id in args")
      else do
        let node ← get
        let (code, message) ← handleMethod env setting ipcMode query
          (startResponse query node)
        return finishReply code message
  | some _ => pure (earlyReply "No query message")

end Neroshop.Rpc
