import Neroshop.Foundation.Transition
import Neroshop.Rpc.Filling
import Neroshop.Rpc.Pending
import Neroshop.Rpc.Remote

/-!
# The overlay of the routing tables

The nodes of a network run their threads and their callbacks in any order.  The
network reports the address of a sender as it is, and a node looks at it where
it gets a query.  A response it gives to the thread that waits under the
transaction id, whoever has sent it, and the thread goes on some time later.  A
thread that gives up erases what it finds under its id; one whose request has
been displaced throws, and does nothing more.  Members that are not honest send
what they like.
-/

namespace Neroshop.Rpc

open Neroshop.Foundation Neroshop.Node Neroshop.Routing

/-- A ping or a `find_node` on its way. -/
structure OverlayQuery where
  asker : String
  peer : String
  question : Question
  tid : String
  deriving DecidableEq

/-- A response on its way.  Who sends it, and what it replies to, is not in the
message. -/
structure OverlayReply where
  asker : String
  replier : String
  question : Question
  message : List UInt8
  deriving DecidableEq

structure FillingThread where
  owner : String
  filling : Filling
  /-- The id under which it waits, and the response that it has been given. -/
  waits : Option (String × Option (List UInt8))
  deriving DecidableEq

structure Overlay where
  /-- By the address of the node. -/
  nodes : String → LocalNode
  threads : Nat → Option FillingThread
  /-- `pending_requests` of each node: which thread waits under an id. -/
  pending : String → String → Option Nat
  queries : List OverlayQuery
  replies : List OverlayReply

namespace Overlay

def table (overlay : Overlay) (owner : String) : RoutingTable :=
  (overlay.nodes owner).routingTable

def setNode (overlay : Overlay) (owner : String) (node : LocalNode) : Overlay :=
  { overlay with nodes := Function.update overlay.nodes owner node }

def setTable (overlay : Overlay) (owner : String) (table : RoutingTable) :
    Overlay :=
  overlay.setNode owner
    { overlay.nodes owner with routingTable := table }

def setThread (overlay : Overlay) (thread : Nat) (running : FillingThread) :
    Overlay :=
  { overlay with
    threads := Function.update overlay.threads thread (some running) }

def setPending (overlay : Overlay) (owner tid : String)
    (thread : Option Nat) : Overlay :=
  { overlay with
    pending := Function.update overlay.pending owner
      (Function.update (overlay.pending owner) tid thread) }

end Overlay

inductive OverlayEvent where
  | join (thread : Nat) (owner : String)
  /-- Of one bucket, with the random id that is drawn for it. -/
  | refresh (thread : Nat) (owner target : String)
  | rebuild (thread : Nat) (owner : String) (rows : List Endpoint)
  /-- With what is drawn for the transaction id. -/
  | asks (thread : Nat) (draw : UInt32)
  /-- Sending fails, or nobody responds in time. -/
  | givesUp (thread : Nat)
  | receives (reply : OverlayReply)
  /-- With the response that it has been given. -/
  | wakes (thread : Nat)
  | proceeds (thread : Nat)
  /-- Another call of the node registers or erases a request under the id. -/
  | displaces (owner tid : String)
  /-- `on_ping` and `on_map` of a node that a datagram has reached. -/
  | callback (owner : String) (buffer : List UInt8) (senderDest : String)
  /-- The heartbeat gives a node up. -/
  | removes (owner : String) (hex : NodeIdHex)
  | answers (query : OverlayQuery) (message : List UInt8)
  /-- To another call. -/
  | answersOther (asker replier : String) (message : List UInt8)
  /-- By a member that is not honest. -/
  | forges (reply : OverlayReply)

/-- Who takes part in the network. -/
structure Membership where
  member : String → Bool
  honest : String → Bool
  member_of_honest : ∀ address, honest address = true → member address = true

def Membership.AllHonest (membership : Membership) : Prop :=
  ∀ address, membership.member address = true →
    membership.honest address = true

def Network.responseTid (network : Network) (message : List UInt8) :
    Option String :=
  (network.parseFromArray message).bind DhtMessage.responseTid

section Events

variable (network : Network) (networkType : NetworkType) (setting : Setting)
  (membership : Membership)

/-- The thread that a node starts has not been started before. -/
def Overlay.starts (overlay : Overlay) (thread : Nat) (owner : String)
    (filling : Filling) : Option Overlay :=
  match overlay.threads thread with
  | some _ => none
  | none => some (overlay.setThread thread ⟨owner, filling, none⟩)

def Overlay.advance (overlay : Overlay) (thread : Nat) (running : FillingThread)
    (heard : Heard) : Option Overlay :=
  (running.filling.step network networkType (overlay.table running.owner)
    heard).map fun (next, table) =>
      (overlay.setTable running.owner table).setThread thread
        ⟨running.owner, next, none⟩

/-- The peer runs `find_node` for the target and lists what it finds, and nobody
looks at what a pong lists. -/
def Overlay.lists (overlay : Overlay) (query : OverlayQuery)
    (nodeInfos : List NodeInfo) : Bool :=
  match query.question with
  | .ping | .other => true
  | .findNode target =>
      match (overlay.nodes query.peer).findNode setting target maxClosestNodes with
      | .ok nodes => nodeInfos = nodes.map nodeInfo
      | .error _ => false

/-- An honest response to the query. -/
def Overlay.tells (overlay : Overlay) (query : OverlayQuery)
    (message : List UInt8) : Bool :=
  match network.parseFromArray message with
  | some (.response response) =>
      response.tid = query.tid && overlay.lists setting query response.response.nodes
  | _ => false

def Overlay.step (overlay : Overlay) : OverlayEvent → Option Overlay
  | .join thread owner =>
      overlay.starts thread owner (.visiting ⟨true, (network.sha3256 owner).text,
        network.bootstrapNodes networkType⟩)
  | .refresh thread owner target =>
      match (overlay.nodes owner).findNode setting target maxClosestNodes with
      | .ok nodes => overlay.starts thread owner (.visiting ⟨false, target,
          nodes.map fun node => (node.address, node.port)⟩)
      | .error _ => none
  | .rebuild thread owner rows =>
      overlay.starts thread owner (.rebuilding rows)
  | .asks thread draw =>
      match overlay.threads thread with
      | some ⟨owner, filling, none⟩ =>
          -- what waits under the same id is displaced
          filling.asks.map fun (peer, question) =>
            let tid := generateTransactionId draw
            { (overlay.setPending owner tid thread).setThread thread
                ⟨owner, filling, some (tid, none)⟩ with
              queries := ⟨owner, peer, question, tid⟩ :: overlay.queries }
      | _ => none
  | .givesUp thread =>
      match overlay.threads thread with
      | some ⟨owner, filling, some (tid, given)⟩ =>
          -- the entry may be that of another thread by now
          (overlay.setPending owner tid none).advance network networkType
            thread ⟨owner, filling, some (tid, given)⟩ .nothing
      | _ => none
  | .receives reply =>
      if reply ∈ overlay.replies then do
        let tid ← network.responseTid reply.message
        let thread ← overlay.pending reply.asker tid
        let running ← overlay.threads thread
        some ((overlay.setPending reply.asker tid none).setThread thread
          ⟨running.owner, running.filling, some (tid, some reply.message)⟩)
      else none
  | .wakes thread =>
      match overlay.threads thread with
      | some ⟨owner, filling, some (tid, some message)⟩ =>
          overlay.advance network networkType thread
            ⟨owner, filling, some (tid, some message)⟩ (.response message)
      | _ => none
  | .proceeds thread =>
      match overlay.threads thread with
      | some running =>
          overlay.advance network networkType thread running .proceeds
      | none => none
  | .displaces owner tid => some (overlay.setPending owner tid none)
  | .callback owner buffer senderDest =>
      if membership.member (network.addressOf senderDest networkType)
      then some (overlay.setNode owner (stateAfter
        ((TableEvent.query buffer senderDest).exec network)
        (overlay.nodes owner)))
      else none
  | .removes owner hex =>
      some (overlay.setNode owner (stateAfter
        ((TableEvent.removeNode hex).exec network) (overlay.nodes owner)))
  | .answers query message =>
      if query ∈ overlay.queries ∧ membership.honest query.peer ∧
          overlay.tells network setting query message
      then some { overlay with
        replies := ⟨query.asker, query.peer, query.question, message⟩ ::
          overlay.replies }
      else none
  | .answersOther asker replier message =>
      if membership.member replier
      then some { overlay with
        replies := ⟨asker, replier, .other, message⟩ :: overlay.replies }
      else none
  | .forges reply =>
      if membership.member reply.replier ∧ ¬ membership.honest reply.replier
      then some { overlay with replies := reply :: overlay.replies }
      else none

/-- The response that a thread takes under its id is that of the member that it
has asked, and of an honest one to what it has asked. -/
def Overlay.Genuine (overlay : Overlay) : OverlayEvent → Prop
  | .receives reply =>
      ∀ tid ∈ network.responseTid reply.message,
        ∀ thread ∈ overlay.pending reply.asker tid,
          ∀ running ∈ overlay.threads thread,
            ∀ asked ∈ running.filling.asks, reply.replier = asked.1 ∧
              (membership.honest asked.1 = true → reply.question = asked.2)
  | _ => True

instance (overlay : Overlay) : (event : OverlayEvent) →
    Decidable (overlay.Genuine network membership event)
  | .receives reply => inferInstanceAs (Decidable
      (∀ tid ∈ network.responseTid reply.message,
        ∀ thread ∈ overlay.pending reply.asker tid,
          ∀ running ∈ overlay.threads thread,
            ∀ asked ∈ running.filling.asks, reply.replier = asked.1 ∧
              (membership.honest asked.1 = true → reply.question = asked.2)))
  | .join .. | .refresh .. | .rebuild .. | .asks .. | .givesUp .. | .wakes ..
  | .proceeds .. | .displaces .. | .callback .. | .removes .. | .answers ..
  | .answersOther .. | .forges .. => .isTrue trivial

/-- Nodes with empty tables. -/
structure Overlay.Initial (overlay : Overlay) : Prop where
  table : ∀ owner, overlay.table owner =
    .create (network.sha3256 owner).xorId
  networkType : ∀ owner, (overlay.nodes owner).networkType = networkType
  threads : ∀ thread, overlay.threads thread = none
  queries : overlay.queries = []
  replies : overlay.replies = []

end Events

/-! ## What is kept -/

section Safe

-- what a thread takes is genuine
variable (network : Network) (networkType : NetworkType)
  (membership : Membership) (genuine : Prop)

/-- What an honest member adds or lists is no seed, under a port. -/
def Membership.Proper (address : String) (port : Nat) : Prop :=
  genuine → membership.AllHonest →
    (address, port) ∉ network.bootstrapNodes networkType ∧ port < 2 ^ 16

structure Listable (node : RemoteNode) : Prop where
  derived : node = .ofAddress network.sha3256 node.address node.port
  proper : membership.Proper network networkType genuine node.address node.port

/-- A node that may be added has answered, or sent a ping. -/
structure Addable (node : RemoteNode) : Prop
    extends Listable network networkType membership genuine node where
  member : genuine → membership.member node.address = true

def Filling.Safe (owner : String) : Filling → Prop
  | .checking _ nodes =>
      ∀ node ∈ nodes, Listable network networkType membership genuine node
  | .adding _ nodes node =>
      (∀ node ∈ nodes, Listable network networkType membership genuine node) ∧
        Addable network networkType membership genuine node
  | .restoring _ node => Addable network networkType membership genuine node
  | .crashed round => genuine → membership.AllHonest →
      round.target ≠ (network.sha3256 owner).text
  | _ => True

/-- It lists neither a seed nor the target itself. -/
def Network.ListsProperly (target : String) (message : List UInt8) : Prop :=
  ∀ nodeInfo ∈ network.listed message,
    (nodeInfo.address, nodeInfo.port % 2 ^ 16) ∉
        network.bootstrapNodes networkType ∧
      ∀ hex : NodeIdHex, target = hex.text →
        (network.sha3256 nodeInfo.address).xorId ≠ hex.xorId

structure OverlayReply.Safe (reply : OverlayReply) : Prop where
  member : membership.member reply.replier = true
  lists : genuine → membership.AllHonest → ∀ target,
    reply.question = .findNode target →
      network.ListsProperly networkType target reply.message

/-- What is asked of a response that a thread takes. -/
structure HeardSafe (filling : Filling) (heard : Heard) : Prop where
  member : genuine → ∀ message, heard = .response message →
    ∀ asked ∈ filling.asks, membership.member asked.1 = true
  lists : genuine → membership.AllHonest → ∀ message, heard = .response message →
    ∀ peer target, filling.asks = some (peer, .findNode target) →
      network.ListsProperly networkType target message

structure FillingThread.Safe (running : FillingThread) : Prop where
  filling : running.filling.Safe network networkType membership genuine
    running.owner
  given : ∀ tid message, running.waits = some (tid, some message) →
    HeardSafe network networkType membership genuine running.filling
      (.response message)

structure TableSafe (owner : String) (table : RoutingTable) : Prop where
  sound : Sound network.sha3256 table
  own : table.id = (network.sha3256 owner).xorId
  nodes : ∀ node ∈ table.getNodes,
    Addable network networkType membership genuine node

structure Overlay.Safe (overlay : Overlay) : Prop where
  table : ∀ owner,
    TableSafe network networkType membership genuine owner (overlay.table owner)
  threads : ∀ thread running, overlay.threads thread = some running →
    running.Safe network networkType membership genuine
  replies : ∀ reply ∈ overlay.replies,
    reply.Safe network networkType membership genuine
  onNetwork : ∀ owner, (overlay.nodes owner).networkType = networkType

end Safe

/-! ## Tables -/

section Tables

variable {network : Network} {networkType : NetworkType}
  {membership : Membership} {genuine : Prop} {owner : String}
  {table next : RoutingTable}

theorem TableSafe.addNode
    (h : TableSafe network networkType membership genuine owner table)
    {node : RemoteNode}
    (hnode : Addable network networkType membership genuine node) :
    ∃ added next, table.addNode network.uninitialized node = .ok (added, next) ∧
      TableSafe network networkType membership genuine owner next := by
  obtain ⟨added, next, hadd, hadds, hsound, hid⟩ := h.sound.addNode
    network.uninitialized node.address node.port
  rw [← hnode.derived] at hadd hadds
  refine ⟨added, next, hadd, hsound, hid.trans h.own, fun other hother => ?_⟩
  cases added with
  | false =>
      rw [hadds.refused rfl] at hother
      exact h.nodes other hother
  | true =>
      rcases List.mem_cons.mp ((hadds.added rfl).mem_iff.mp hother) with rfl | hmem
      · exact hnode
      · exact h.nodes other hmem

theorem TableSafe.of_addNode
    (h : TableSafe network networkType membership genuine owner table)
    {node : RemoteNode}
    (hnode : Addable network networkType membership genuine node) {added : Bool}
    (hadd : table.addNode network.uninitialized node = .ok (added, next)) :
    TableSafe network networkType membership genuine owner next := by
  obtain ⟨_, after, hafter, hsafe⟩ := h.addNode hnode
  rw [hadd] at hafter
  cases hafter
  exact hsafe

theorem TableSafe.removeNode
    (h : TableSafe network networkType membership genuine owner table)
    (uninitialized : XorId) {hex : NodeIdHex} {removed : Bool}
    (hremove : table.removeNode uninitialized hex.text = .ok (removed, next)) :
    TableSafe network networkType membership genuine owner next := by
  by_cases hself : hex.xorId = table.id
  · rw [removeNode_self uninitialized hself] at hremove
    cases hremove
  obtain ⟨_, after, hafter, hremoves, hsound, hid⟩ :=
    h.sound.removeNode uninitialized hself
  rw [hremove] at hafter
  cases hafter
  refine ⟨hsound, hid.trans h.own, fun node hnode => h.nodes node ?_⟩
  cases removed with
  | false => rwa [(hremoves.missing rfl).1] at hnode
  | true =>
      obtain ⟨gone, -, hperm⟩ := hremoves.removed.mp rfl
      exact hperm.mem_iff.mpr (List.mem_cons_of_mem _ hnode)

end Tables

/-! ## Callbacks -/

section Callbacks

variable {network : Network} {membership : Membership} {genuine : Prop}
  {node : LocalNode}
  {buffer : List UInt8} {senderDest : String}

theorem senderPort_lt {args : StringMap} {port : Nat}
    (h : senderPort args = some port) : port < 2 ^ 16 := by
  rw [senderPort] at h
  split at h
  · cases h
    decide
  · obtain ⟨number, -, rfl⟩ := Option.map_eq_some_iff.mp h
    omega

/-- The table is as it is, or the sender has been given to `add_node` and is no
seed. -/
theorem admittedTable_cases {sender : Sender} {routingTable : RoutingTable}
    (h : network.admittedTable node sender = .ok routingTable) :
    routingTable = node.routingTable ∨
      (sender.address, sender.port) ∉
          network.bootstrapNodes node.networkType ∧
        ∃ added, node.routingTable.addNode network.uninitialized
          (.ofAddress network.sha3256 sender.address sender.port) =
            .ok (added, routingTable) := by
  obtain ⟨hasNode, -, h⟩ := bind_eq_ok.mp h
  cases hasNode with
  | true => exact .inl (Except.ok.inj h).symm
  | false =>
  obtain ⟨hardcoded, hseed, h⟩ := bind_eq_ok.mp h
  cases hardcoded with
  | true => exact .inl (Except.ok.inj h).symm
  | false =>
  obtain ⟨⟨added, after⟩, hadd, h⟩ := bind_eq_ok.mp h
  obtain rfl := Except.ok.inj h
  refine .inr ⟨?_, added, hadd⟩
  rw [Network.isHardcodedOn] at hseed
  split at hseed
  · cases hseed
  · exact of_decide_eq_false (Except.ok.inj hseed)

theorem routingTable_query :
    (stateAfter ((TableEvent.query buffer senderDest).exec network)
      node).routingTable =
      (stateAfter (onPing network buffer senderDest) node).routingTable := by
  have hmap : ∀ middle : LocalNode, (stateAfter (onMap network buffer senderDest >>=
      fun _ => (pure false : NodeCall Bool)) middle).routingTable =
        middle.routingTable := fun middle => by
    rw [stateAfter_bind_of_forall fun _ _ => rfl]
    exact routingTable_onMap
  rw [TableEvent.exec, stateAfter_bind, stateAfter]
  cases (onPing network buffer senderDest).run node with
  | ok value middle => exact hmap middle
  | error fault middle => rfl

theorem TableSafe.query {owner : String} (hcovered : Covered node.networkType)
    (h : TableSafe network node.networkType membership genuine owner node.routingTable)
    (hmember : membership.member
      (network.addressOf senderDest node.networkType) = true) :
    TableSafe network node.networkType membership genuine owner
      (stateAfter ((TableEvent.query buffer senderDest).exec network)
        node).routingTable := by
  rw [routingTable_query]
  have hcases : stateAfter (onPing network buffer senderDest) node = node ∨ _ :=
    onPing_cases
  rcases hcases with hsame | ⟨sender, hread, hderives, hafter⟩
  · rwa [hsame]
  rw [hafter, stateAfter_admitPeer]
  cases htable : network.admittedTable node sender with
  | error fault => exact h
  | ok routingTable =>
      rcases admittedTable_cases htable with rfl | ⟨hseed, added, hadd⟩
      · exact h
      obtain ⟨haddress, -⟩ := readSender_covered hcovered hread hderives
      obtain ⟨-, _, -, -, -, -, hport, -⟩ := readSender_eq_some.mp hread
      exact h.of_addNode ⟨⟨rfl, fun _ _ => ⟨hseed, senderPort_lt hport⟩⟩,
        fun _ => haddress ▸ hmember⟩ hadd

end Callbacks

/-! ## Threads -/

section Threads

variable {network : Network} {networkType : NetworkType}
  {membership : Membership} {genuine : Prop} {owner : String}
  {table : RoutingTable}

theorem listable_of_received {nodeInfos : List NodeInfo}
    (hproper : genuine → membership.AllHonest → ∀ nodeInfo ∈ nodeInfos,
      (nodeInfo.address, nodeInfo.port % 2 ^ 16) ∉
        network.bootstrapNodes networkType)
    {nodes : List RemoteNode}
    (hnodes : network.newNodes table nodeInfos = .ok nodes) :
    ∀ node ∈ nodes, Listable network networkType membership genuine node := by
  intro node hnode
  obtain ⟨nodeInfo, hmem, rfl⟩ := mem_newNodes hnodes hnode
  exact ⟨rfl, fun hgenuine hhonest =>
    ⟨hproper hgenuine hhonest nodeInfo hmem, Nat.mod_lt _ (by decide)⟩⟩

theorem Filling.receive_safe
    (htable : TableSafe network networkType membership genuine owner table)
    {round : Round} {message : List UInt8}
    (hlists : genuine → membership.AllHonest →
      network.ListsProperly networkType round.target message) :
    (Filling.receive network round table message).Safe network networkType
      membership genuine owner := by
  rw [Filling.receive, sendFindNode_eq]
  cases hnodes : network.newNodes table (network.listed message) with
  | ok nodes =>
      have hlistable := listable_of_received
        (fun hgenuine hhonest nodeInfo hmem =>
          (hlists hgenuine hhonest nodeInfo hmem).1) hnodes
      cases nodes with
      | nil => exact trivial
      | cons node nodes => exact hlistable
  | error fault =>
      intro hgenuine hhonest hself
      obtain ⟨nodes, hok⟩ := @newNodes_returns network table
        (network.listed message)
        fun nodeInfo hmem => htable.own ▸
          (hlists hgenuine hhonest nodeInfo hmem).2 _ hself
      rw [hnodes] at hok
      cases hok

theorem heardSafe_of_not_response {filling : Filling} {heard : Heard}
    (h : ∀ message, heard ≠ .response message) :
    HeardSafe network networkType membership genuine filling heard where
  member _ message hheard := absurd hheard (h message)
  lists _ _ message hheard := absurd hheard (h message)

/-- A thread that has been given no response. -/
theorem Filling.Safe.running {filling : Filling}
    (h : filling.Safe network networkType membership genuine owner)
    {waits : Option (String × Option (List UInt8))}
    (hwaits : ∀ tid message, waits ≠ some (tid, some message)) :
    FillingThread.Safe network networkType membership genuine
      ⟨owner, filling, waits⟩ :=
  ⟨h, fun tid message hgiven => absurd hgiven (hwaits tid message)⟩

theorem Filling.step_safe
    (htable : TableSafe network networkType membership genuine owner table)
    {filling next : Filling}
    (hfilling : filling.Safe network networkType membership genuine owner)
    {heard : Heard}
    (hheard : HeardSafe network networkType membership genuine filling heard)
    {after : RoutingTable}
    (hstep : filling.step network networkType table heard =
      some (next, after)) :
    TableSafe network networkType membership genuine owner after ∧
      next.Safe network networkType membership genuine owner := by
  unfold Filling.step at hstep
  split at hstep
  -- a ping or a request goes to the next peer
  · cases hstep
    exact ⟨htable, trivial⟩
  · cases hstep
    exact ⟨htable, trivial⟩
  · cases hstep
    exact ⟨htable, trivial⟩
  · cases hstep
    exact ⟨htable, trivial⟩
  -- a response has come
  · cases hstep
    exact ⟨htable, Filling.receive_safe htable fun hgenuine hhonest =>
      hheard.lists hgenuine hhonest _ rfl _ _ rfl⟩
  · cases hstep
    exact ⟨htable, trivial⟩
  -- a node that has been received answers, or does not
  · cases hstep
    refine ⟨htable, (List.forall_mem_cons.mp hfilling).2,
      (List.forall_mem_cons.mp hfilling).1, fun hgenuine => ?_⟩
    exact hheard.member hgenuine _ rfl _ rfl
  · cases hstep
    exact ⟨htable, (List.forall_mem_cons.mp hfilling).2⟩
  -- it is added
  · split at hstep
    · rename_i hadd
      cases hstep
      exact ⟨htable.of_addNode hfilling.2 hadd, hfilling.1⟩
    · rename_i hadd
      obtain ⟨_, _, hok, -⟩ := htable.addNode hfilling.2
      rw [hadd] at hok
      cases hok
  -- a row answers, and is a seed or is not
  · split at hstep
    · cases hstep
      exact ⟨htable, trivial⟩
    · rename_i hseed
      cases hstep
      refine ⟨htable, ⟨rfl, fun _ _ => ⟨?_, Nat.mod_lt _ (by decide)⟩⟩,
        fun hgenuine => hheard.member hgenuine _ rfl _ rfl⟩
      exact of_decide_eq_false (Bool.eq_false_iff.mpr hseed)
  · cases hstep
    exact ⟨htable, trivial⟩
  · split at hstep
    · rename_i hadd
      cases hstep
      exact ⟨htable.of_addNode hfilling hadd, trivial⟩
    · cases hstep
  · cases hstep

end Threads

/-! ## The overlay -/

namespace Overlay

variable {network : Network} {networkType : NetworkType} {setting : Setting}
  {membership : Membership} {genuine : Prop} {overlay : Overlay}

theorem table_setNode (owner other : String) (node : LocalNode) :
    (overlay.setNode owner node).table other =
      if other = owner then node.routingTable else overlay.table other := by
  rw [table, setNode]
  dsimp only
  rw [Function.update_apply]
  split <;> rfl

theorem Safe.setNode (h : overlay.Safe network networkType membership genuine)
    {owner : String} {node : LocalNode}
    (htable : TableSafe network networkType membership genuine owner
      node.routingTable)
    (hnetwork : node.networkType = networkType) :
    (overlay.setNode owner node).Safe network networkType membership genuine where
  table other := by
    rw [table_setNode]
    split
    case isTrue hsame => exact hsame ▸ htable
    case isFalse => exact h.table other
  threads := h.threads
  replies := h.replies
  onNetwork other := by
    rw [Overlay.setNode]
    dsimp only
    rw [Function.update_apply]
    split
    case isTrue => exact hnetwork
    case isFalse => exact h.onNetwork other

theorem Safe.setThread (h : overlay.Safe network networkType membership genuine)
    {running : FillingThread}
    (hrunning : running.Safe network networkType membership genuine)
    (thread : Nat) :
    (overlay.setThread thread running).Safe network networkType membership
      genuine where
  table := h.table
  threads other started hstarted := by
    rw [Overlay.setThread] at hstarted
    dsimp only at hstarted
    rw [Function.update_apply] at hstarted
    split at hstarted
    · cases hstarted
      exact hrunning
    · exact h.threads other started hstarted
  replies := h.replies
  onNetwork := h.onNetwork

/-- What waits for what is of no account. -/
theorem Safe.setPending (h : overlay.Safe network networkType membership genuine)
    (owner tid : String) (thread : Option Nat) :
    (overlay.setPending owner tid thread).Safe network networkType membership
      genuine :=
  ⟨h.table, h.threads, h.replies, h.onNetwork⟩

theorem Safe.addReply (h : overlay.Safe network networkType membership genuine)
    {reply : OverlayReply}
    (hreply : reply.Safe network networkType membership genuine) :
    Safe network networkType membership genuine
      { overlay with replies := reply :: overlay.replies } where
  table := h.table
  threads := h.threads
  replies := List.forall_mem_cons.mpr ⟨hreply, h.replies⟩
  onNetwork := h.onNetwork

theorem Safe.starts (h : overlay.Safe network networkType membership genuine)
    {thread : Nat} {owner : String} {filling : Filling}
    (hfilling : filling.Safe network networkType membership genuine owner)
    {next : Overlay} (hstep : overlay.starts thread owner filling = some next) :
    next.Safe network networkType membership genuine := by
  rw [Overlay.starts] at hstep
  split at hstep
  · cases hstep
  · cases hstep
    exact h.setThread (hfilling.running (by simp)) thread

theorem Safe.advance (h : overlay.Safe network networkType membership genuine)
    {thread : Nat} {running : FillingThread} {heard : Heard}
    (hfilling : running.filling.Safe network networkType membership genuine
      running.owner)
    (hheard : HeardSafe network networkType membership genuine running.filling
      heard)
    {next : Overlay}
    (hstep : overlay.advance network networkType thread running heard =
      some next) : next.Safe network networkType membership genuine := by
  obtain ⟨⟨after, table⟩, hafter, rfl⟩ := Option.map_eq_some_iff.mp hstep
  obtain ⟨htable, hsafe⟩ :=
    Filling.step_safe (h.table running.owner) hfilling hheard hafter
  have hset : (overlay.setTable running.owner table).Safe network networkType
      membership genuine := h.setNode htable (h.onNetwork running.owner)
  exact hset.setThread (hsafe.running (by simp)) thread

/-- A node lists what is in its table, without the target. -/
theorem Safe.tells (h : overlay.Safe network networkType membership genuine)
    (hsort : SortsByDistance setting.sort) {query : OverlayQuery}
    {message : List UInt8}
    (htells : overlay.tells network setting query message = true)
    (hgenuine : genuine) (hhonest : membership.AllHonest) {target : String}
    (htarget : query.question = .findNode target) :
    network.ListsProperly networkType target message := by
  intro nodeInfo hmem
  rw [Overlay.tells] at htells
  split at htells
  case h_2 => cases htells
  case h_1 response hparse =>
    rw [Network.listed, hparse] at hmem
    dsimp only at hmem
    have hlists := (Bool.and_eq_true_iff.mp htells).2
    rw [Overlay.lists, htarget] at hlists
    dsimp only at hlists
    split at hlists
    case h_2 => cases hlists
    case h_1 nodes hnodes =>
      rw [of_decide_eq_true hlists] at hmem
      obtain ⟨node, hnode, rfl⟩ := List.mem_map.mp hmem
      obtain ⟨hheld, hother⟩ := mem_findClosestNodes hsort
        (h.table query.peer).sound hnodes hnode
      have hproper :=
        ((h.table query.peer).nodes node hheld).proper hgenuine hhonest
      refine ⟨?_, hother⟩
      change (node.address, node.port % 2 ^ 16) ∉ _
      rw [Nat.mod_eq_of_lt hproper.2]
      exact hproper.1

/-- A genuine response is as good as the member that sends it. -/
theorem Safe.heard (h : overlay.Safe network networkType membership genuine)
    {reply : OverlayReply} (hreply : reply ∈ overlay.replies) {tid : String}
    (htid : network.responseTid reply.message = some tid) {thread : Nat}
    (hthread : overlay.pending reply.asker tid = some thread)
    {running : FillingThread}
    (hrunning : overlay.threads thread = some running)
    (hgenuine : genuine → overlay.Genuine network membership (.receives reply)) :
    HeardSafe network networkType membership genuine running.filling
      (.response reply.message) where
  member htrue message _ asked hasked := by
    rw [← (hgenuine htrue tid htid thread hthread running hrunning asked hasked).1]
    exact (h.replies reply hreply).member
  lists htrue hhonest message hmessage peer target hasks := by
    cases hmessage
    obtain ⟨hpeer, hquestion⟩ :=
      hgenuine htrue tid htid thread hthread running hrunning _ hasks
    refine (h.replies reply hreply).lists htrue hhonest target (hquestion ?_)
    exact hhonest _ (hpeer ▸ (h.replies reply hreply).member)

theorem Safe.step (h : overlay.Safe network networkType membership genuine)
    (hsort : SortsByDistance setting.sort) (hcovered : Covered networkType)
    {event : OverlayEvent}
    (hgenuine : genuine → overlay.Genuine network membership event)
    {next : Overlay}
    (hstep : overlay.step network networkType setting membership event =
      some next) : next.Safe network networkType membership genuine := by
  cases event with
  | join thread owner =>
      refine h.starts ?_ hstep
      exact trivial
  | refresh thread owner target =>
      simp only [Overlay.step] at hstep
      split at hstep
      · refine h.starts ?_ hstep
        exact trivial
      · cases hstep
  | rebuild thread owner rows =>
      refine h.starts ?_ hstep
      exact trivial
  | asks thread draw =>
      simp only [Overlay.step] at hstep
      split at hstep
      case h_2 => cases hstep
      case h_1 owner filling hthread =>
        obtain ⟨⟨peer, question⟩, -, rfl⟩ := Option.map_eq_some_iff.mp hstep
        have hfilling := (h.threads _ _ hthread).filling
        have hset := (h.setPending owner (generateTransactionId draw)
          thread).setThread (@Filling.Safe.running _ _ _ _ _ _ hfilling
            (some (generateTransactionId draw, none)) (by simp)) thread
        exact ⟨hset.table, hset.threads, hset.replies, hset.onNetwork⟩
  | givesUp thread =>
      simp only [Overlay.step] at hstep
      split at hstep
      case h_2 => cases hstep
      case h_1 owner filling tid given hthread =>
        exact (h.setPending owner tid none).advance (h.threads _ _ hthread).filling
          (heardSafe_of_not_response (by simp)) hstep
  | receives reply =>
      simp only [Overlay.step, Option.bind_eq_bind] at hstep
      split at hstep
      case isFalse => cases hstep
      case isTrue hreply =>
        simp only [Option.bind_eq_some_iff] at hstep
        obtain ⟨tid, htid, thread, hthread, running, hrunning, ⟨⟩⟩ := hstep
        have hheard := h.heard hreply htid hthread hrunning hgenuine
        have hgiven : FillingThread.Safe network networkType membership genuine
            ⟨running.owner, running.filling, some (tid, some reply.message)⟩ := by
          refine ⟨(h.threads _ _ hrunning).filling, fun _ message hmessage => ?_⟩
          cases hmessage
          exact hheard
        exact (h.setPending reply.asker tid none).setThread hgiven thread
  | wakes thread =>
      simp only [Overlay.step] at hstep
      split at hstep
      case h_2 => cases hstep
      case h_1 owner filling tid message hthread =>
        have hrunning := h.threads _ _ hthread
        exact h.advance hrunning.filling (hrunning.given tid message rfl) hstep
  | proceeds thread =>
      simp only [Overlay.step] at hstep
      split at hstep
      case h_2 => cases hstep
      case h_1 running hthread =>
        exact h.advance (h.threads _ _ hthread).filling
          (heardSafe_of_not_response (by simp)) hstep
  | displaces owner tid =>
      cases hstep
      exact h.setPending owner tid none
  | callback owner buffer senderDest =>
      simp only [Overlay.step] at hstep
      split at hstep
      case isTrue hmember =>
        cases hstep
        have hnetwork := h.onNetwork owner
        refine h.setNode ?_
          ((sameSelf_exec network (.query buffer senderDest) _).2.trans hnetwork)
        have htable := h.table owner
        subst hnetwork
        exact htable.query hcovered hmember
      case isFalse => cases hstep
  | removes owner hex =>
      cases hstep
      refine h.setNode ?_ ((sameSelf_exec network (.removeNode hex) _).2.trans
        (h.onNetwork owner))
      have htable := h.table owner
      rw [TableEvent.exec, onRoutingTable, stateAfter, run_get_bind]
      cases hremove : (overlay.nodes owner).routingTable.removeNode
          network.uninitialized hex.text with
      | error fault => exact htable
      | ok removed => exact htable.removeNode network.uninitialized hremove
  | answers query message =>
      simp only [Overlay.step] at hstep
      split at hstep
      case isTrue htells =>
        cases hstep
        refine h.addReply ⟨membership.member_of_honest _ htells.2.1, ?_⟩
        exact fun hgenuine hhonest target htarget =>
          h.tells hsort htells.2.2 hgenuine hhonest htarget
      case isFalse => cases hstep
  | answersOther asker replier message =>
      simp only [Overlay.step] at hstep
      split at hstep
      case isTrue hmember =>
        cases hstep
        exact h.addReply ⟨hmember, fun _ _ _ hother => by cases hother⟩
      case isFalse => cases hstep
  | forges reply =>
      simp only [Overlay.step] at hstep
      split at hstep
      case isTrue hforges =>
        cases hstep
        exact h.addReply ⟨hforges.1, fun _ hhonest =>
          absurd (hhonest reply.replier hforges.1) hforges.2⟩
      case isFalse => cases hstep

variable (membership genuine) in
theorem Initial.safe (h : overlay.Initial network networkType) :
    overlay.Safe network networkType membership genuine where
  table owner := by
    rw [h.table owner]
    exact ⟨sound_create _, rfl, by simp [RoutingTable.getNodes, RoutingTable.create]⟩
  threads thread running hthread := by
    rw [h.threads thread] at hthread
    cases hthread
  replies := by simp [h.replies]
  onNetwork := h.networkType

variable {final : Overlay} {events : List OverlayEvent}

theorem Initial.run_safe (hinitial : overlay.Initial network networkType)
    (hsort : SortsByDistance setting.sort) (hcovered : Covered networkType)
    (hgenuine : genuine → AllMeet (step network networkType setting membership)
      (Genuine network membership) overlay events)
    (hrun : runFrom (step network networkType setting membership) overlay events =
      some final) : final.Safe network networkType membership genuine := by
  have hmeets : AllMeet (step network networkType setting membership)
      (fun reached event => genuine → reached.Genuine network membership event)
      overlay events :=
    allMeet_iff.mpr fun before event later reached hevents hreached htrue =>
      allMeet_iff.mp (hgenuine htrue) before event later reached hevents hreached
  exact runFrom_invariant (Safe network networkType membership genuine)
    (fun overlay event next h hevent hstep =>
      h.step hsort hcovered hevent hstep) hmeets hrun
    (hinitial.safe membership genuine)

/-- In a run of honest members whose threads take genuine responses only, no
seed is in a table, and no thread that asks for the own id of its node leaves
the array of buckets. -/
theorem honest_run_keeps (hinitial : overlay.Initial network networkType)
    (hsort : SortsByDistance setting.sort) (hcovered : Covered networkType)
    (hhonest : membership.AllHonest)
    (hgenuine : AllMeet (step network networkType setting membership)
      (Genuine network membership) overlay events)
    (hrun : runFrom (step network networkType setting membership) overlay events =
      some final) :
    (∀ owner, ∀ node ∈ (final.table owner).getNodes,
      (node.address, node.port) ∉ network.bootstrapNodes networkType) ∧
      ∀ thread running round, final.threads thread = some running →
        running.filling = .crashed round →
          round.target ≠ (network.sha3256 running.owner).text := by
  have hsafe := hinitial.run_safe hsort hcovered (fun _ : True => hgenuine) hrun
  refine ⟨fun owner node hnode =>
    (((hsafe.table owner).nodes node hnode).proper trivial hhonest).1, ?_⟩
  intro thread running round hthread hcrashed
  have hfilling := (hsafe.threads thread running hthread).filling
  rw [hcrashed] at hfilling
  exact hfilling trivial hhonest

end Overlay

/-! ## A node that joins -/

def threeHashes (address : String) : NodeIdHex :=
  if address = "other" then targetHex else nearOrFar address

def pingOf (address : String) : Query where
  version := dhtVersion
  query := "ping"
  args := ((∅ : StringMap).insert "id" (threeHashes address).text).insert "port"
    "50881"
  tid := "a1b2"

def joinResponse (tid : String) (nodes : List NodeInfo) : DhtMessage :=
  .response ⟨dhtVersion, ⟨∅, nodes⟩, tid⟩

/-- The seed is near. -/
def threeNetwork : Network where
  parseFromArray bytes :=
    if bytes = [1] then some (.query (pingOf "other"))
    else if bytes = [2] then some (joinResponse "0000" [])
    else if bytes = [3] then some (joinResponse "0001" [⟨"other", 50881, "", 0, 0⟩])
    else if bytes = [4] then some (joinResponse "0002" [])
    else none
  sha3256 := threeHashes
  toI2pAddress destination := destination
  bootstrapNodes _ := [("near", 50881)]
  uninitialized := .zero
  announce _ _ := .ok ()

def sortingSetting : Setting := { lonelySetting with sort := byDistance }

def threeMembers : Membership where
  member address := address = "near" ∨ address = "far" ∨ address = "other"
  honest address := address = "near" ∨ address = "far" ∨ address = "other"
  member_of_honest _ h := h

def threeNodes : Overlay where
  nodes owner :=
    { lonelyNode with routingTable := .create (threeHashes owner).xorId }
  threads _ := none
  pending _ _ := none
  queries := []
  replies := []

theorem threeNodes_initial : threeNodes.Initial threeNetwork .tor where
  table _ := rfl
  networkType _ := rfl
  threads _ := rfl
  queries := rfl
  replies := rfl

theorem sortsByDistance_byDistance : SortsByDistance byDistance :=
  @sortsByDistance_insertionSort _ _ RoutingTable.ScoredNode.distance
    fun _ _ h => h

/-- The seed knows of the other node, which has pinged it, and lists it. -/
def joiningEvents : List OverlayEvent :=
  [.callback "near" [1] "other", .join 0 "far",
    .asks 0 0, .answers ⟨"far", "near", .ping, "0000"⟩ [2],
    .receives ⟨"far", "near", .ping, [2]⟩, .wakes 0,
    .asks 0 65536, .answers ⟨"far", "near", .findNode farHex.text, "0001"⟩ [3],
    .receives ⟨"far", "near", .findNode farHex.text, [3]⟩, .wakes 0,
    .asks 0 131072, .answers ⟨"far", "other", .ping, "0002"⟩ [4],
    .receives ⟨"far", "other", .ping, [4]⟩, .wakes 0, .proceeds 0]

def joinedNodes : Overlay :=
  (runFrom (Overlay.step threeNetwork .tor sortingSetting threeMembers) threeNodes
    joiningEvents).getD threeNodes

theorem runFrom_joiningEvents :
    runFrom (Overlay.step threeNetwork .tor sortingSetting threeMembers) threeNodes
      joiningEvents = some joinedNodes := by
  have hsome : (runFrom (Overlay.step threeNetwork .tor sortingSetting
      threeMembers) threeNodes joiningEvents).isSome = true := by
    decide +kernel
  exact (Option.getD_of_ne_none (Option.isSome_iff_ne_none.mp hsome) _).symm

theorem genuine_joiningEvents :
    AllMeet (Overlay.step threeNetwork .tor sortingSetting threeMembers)
      (Overlay.Genuine threeNetwork threeMembers) threeNodes joiningEvents := by
  decide +kernel

theorem joinedNodes_found :
    (joinedNodes.table "far").getNodes.map RemoteNode.address = ["other"] := by
  decide +kernel

theorem joinedNodes_keep :
    (joinedNodes.table "far").getNodes.map RemoteNode.address = ["other"] ∧
    (∀ owner, ∀ node ∈ (joinedNodes.table owner).getNodes,
      (node.address, node.port) ∉ threeNetwork.bootstrapNodes .tor) ∧
      ∀ thread running round, joinedNodes.threads thread = some running →
        running.filling = .crashed round →
          round.target ≠ (threeNetwork.sha3256 running.owner).text :=
  ⟨joinedNodes_found, Overlay.honest_run_keeps threeNodes_initial
    sortsByDistance_byDistance (.inr rfl) (fun _ hmember => hmember)
    genuine_joiningEvents runFrom_joiningEvents⟩

end Neroshop.Rpc
