import Neroshop.Foundation.Transition
import Neroshop.Node.Rejection
import Neroshop.Rpc.Overlay
import Neroshop.Rpc.Provenance

/-!
# Who holds what

Nodes put values to each other, announce the rows of their tables, ask for
providers and get values from them, in any order and with any messages lost or
delivered more than once.  A response is given to the call that waits under its
transaction id, whoever has sent it, and the call goes on some time later.  A
call that gives up erases what it finds under its id.  Members that are not
honest send what they like under their own addresses.
-/

namespace Neroshop.Rpc

open Neroshop.Foundation Neroshop.Node Neroshop.Routing

deriving instance DecidableEq for SendCall

/-- A query on its way, with the call that has sent it. -/
structure SentQuery where
  senderDest : String
  receiver : String
  bytes : List UInt8
  call : SendCall
  deriving DecidableEq

/-- A reply on its way.  Who sends it, and what it replies to, is not in the
message. -/
structure SentReply where
  asker : String
  replier : String
  call : SendCall
  message : DhtMessage
  deriving DecidableEq

/-- A row of `hash_table` that `send_map_v2` has read. -/
structure ReadRow where
  owner : String
  key : String
  value : String
  deriving DecidableEq

/-- A call that waits for a node to reply. -/
structure Waiting where
  call : SendCall
  peer : Provider
  tid : String
  /-- What it has been given. -/
  given : Option DhtMessage
  deriving DecidableEq

structure Swarm where
  /-- By the address of the node. -/
  nodes : String → LocalNode
  rows : List ReadRow
  /-- The calls of each node that wait. -/
  calls : String → Nat → Option Waiting
  /-- `pending_requests` of each node: which of its calls waits under an id. -/
  pending : String → String → Option Nat
  queries : List SentQuery
  replies : List SentReply

def Swarm.setNode (swarm : Swarm) (owner : String) (node : LocalNode) : Swarm :=
  { swarm with nodes := Function.update swarm.nodes owner node }

@[simp] theorem Swarm.nodes_setNode_self (swarm : Swarm) (owner : String)
    (node : LocalNode) : (swarm.setNode owner node).nodes owner = node :=
  Function.update_self ..

theorem Swarm.nodes_setNode_of_ne (swarm : Swarm) {owner other : String}
    (node : LocalNode) (h : other ≠ owner) :
    (swarm.setNode owner node).nodes other = swarm.nodes other :=
  Function.update_of_ne h ..

def Swarm.setCall (swarm : Swarm) (owner : String) (number : Nat)
    (waiting : Option Waiting) : Swarm :=
  { swarm with
    calls := Function.update swarm.calls owner
      (Function.update (swarm.calls owner) number waiting) }

def Swarm.setPending (swarm : Swarm) (owner tid : String)
    (number : Option Nat) : Swarm :=
  { swarm with
    pending := Function.update swarm.pending owner
      (Function.update (swarm.pending owner) tid number) }

inductive SwarmEvent where
  /-- A request of the node's own client. -/
  | client (owner : String) (setting : Setting) (sent : Nat) (found : String)
      (request : List UInt8)
  | readsRow (row : ReadRow)
  /-- Of the node that listens at this port, with what is drawn for the
  transaction id. -/
  | asks (owner : String) (number port : Nat) (draw : UInt32) (query : SentQuery)
  | serves (setting : Setting) (query : SentQuery)
  | hears (reply : SentReply)
  /-- With the reply that it has been given. -/
  | wakes (setting : Setting) (owner : String) (number : Nat)
  /-- Nobody replies in time to what is sent, or it is not sent. -/
  | misses (setting : Setting) (owner : String) (number : Nat) (sent : Bool)
  /-- Expired data is removed. -/
  | expires (owner key : String)
  /-- By a member that is not honest. -/
  | forges (query : SentQuery)
  | feigns (reply : SentReply)

section Events

variable (env : Externals) (network : Network) (networkType : NetworkType)
  (membership : Membership)

/-- What the call does with its answer. -/
def Waiting.hear (waiting : Waiting) (setting : Setting) (answer : Answer) :
    NodeCall Unit :=
  let peers : Peers := ⟨id, fun _ _ => answer⟩
  match waiting.call with
  | .sendPut key _ => do
      discard (putTo peers .put key
        (.ofAddress network.sha3256 waiting.peer.address waiting.peer.port))
  | .sendGet key => do
      discard (getFrom env setting peers .getOwnProvider key waiting.peer)
  | _ => pure ()

/-- The call goes on with its answer. -/
def Swarm.answer (swarm : Swarm) (setting : Setting) (owner : String)
    (number : Nat) (waiting : Waiting) (answer : Answer) : Swarm :=
  (swarm.setCall owner number none).setNode owner (stateAfter
    (waiting.hear env network setting answer) (swarm.nodes owner))

/-- The reply is sent before the callbacks run. -/
def Swarm.serve (swarm : Swarm) (setting : Setting) (query : SentQuery) : Swarm :=
  let process := protobufProcess env (detached setting 0 "")
    network.parseFromArray query.bytes false
  match process.run (swarm.nodes query.receiver) with
  | .ok message node =>
      { swarm.setNode query.receiver
          (stateAfter (callbacks network query.bytes query.senderDest) node) with
        replies := ⟨network.addressOf query.senderDest networkType,
          query.receiver, query.call, message⟩ :: swarm.replies }
  | .error _ node => swarm.setNode query.receiver node

/-- A map message is about a row that has been read. -/
def Swarm.announces (swarm : Swarm) (owner : String) : SendCall → Bool
  | .sendMapV2 key value => ⟨owner, key, value⟩ ∈ swarm.rows
  | _ => true

def Swarm.step (swarm : Swarm) : SwarmEvent → Option Swarm
  | .client owner setting sent found request =>
      some (swarm.setNode owner (stateAfter (protobufProcess env
        (detached setting sent found) network.parseFromArray request true)
        (swarm.nodes owner)))
  | .readsRow row =>
      -- a hardcoded node returns before it reads
      if row.key ≠ "" ∧ row.value ≠ "" ∧
          Health.isHardcodedAt (network.bootstrapNodes networkType) row.owner
            (swarm.nodes row.owner).port = false ∧
          (swarm.nodes row.owner).tables.hashTable.lookup row.key = some row.value
      then some { swarm with rows := row :: swarm.rows }
      else none
  | .asks owner number port draw query =>
      let tid := generateTransactionId draw
      if swarm.calls owner number = none ∧
          network.addressOf query.senderDest networkType = owner ∧
          network.parseFromArray query.bytes =
            some (.query (query.call.query (swarm.nodes owner) tid)) ∧
          swarm.announces owner query.call
      then
        -- what waits under the same id is displaced
        some { (swarm.setPending owner tid number).setCall owner number
            (some ⟨query.call, ⟨query.receiver, port⟩, tid, none⟩) with
          queries := query :: swarm.queries }
      else none
  | .serves setting query =>
      if query ∈ swarm.queries
      then some (swarm.serve env network networkType setting query)
      else none
  | .hears reply =>
      if reply ∈ swarm.replies then do
        let tid ← reply.message.responseTid
        let number ← swarm.pending reply.asker tid
        let waiting ← swarm.calls reply.asker number
        some ((swarm.setPending reply.asker tid none).setCall reply.asker number
          (some { waiting with given := some reply.message }))
      else none
  | .wakes setting owner number => do
      let waiting ← swarm.calls owner number
      let message ← waiting.given
      some (swarm.answer env network setting owner number waiting
        (.received (some message)))
  | .misses setting owner number sent => do
      let waiting ← swarm.calls owner number
      -- the entry may be that of another call by now
      some ((swarm.setPending owner waiting.tid none).answer env network setting
        owner number waiting (if sent then .silent else .unsent))
  | .expires owner key =>
      some (swarm.setNode owner
        (stateAfter (LocalNode.remove key) (swarm.nodes owner)))
  | .forges query =>
      if membership.honest (network.addressOf query.senderDest networkType)
      then none else some { swarm with queries := query :: swarm.queries }
  | .feigns reply =>
      if membership.honest reply.replier then none
      else some { swarm with replies := reply :: swarm.replies }

/-- The reply that a call takes under its id is that of the node that it has
asked, and of an honest one to what it has asked. -/
def Swarm.Genuine (swarm : Swarm) : SwarmEvent → Prop
  | .hears reply =>
      ∀ tid ∈ reply.message.responseTid, ∀ number ∈ swarm.pending reply.asker tid,
        ∀ waiting ∈ swarm.calls reply.asker number,
          reply.replier = waiting.peer.address ∧
            (membership.honest waiting.peer.address = true →
              reply.call = waiting.call)
  | _ => True

instance (swarm : Swarm) : (event : SwarmEvent) →
    Decidable (swarm.Genuine membership event)
  | .hears reply => inferInstanceAs (Decidable
      (∀ tid ∈ reply.message.responseTid, ∀ number ∈ swarm.pending reply.asker tid,
        ∀ waiting ∈ swarm.calls reply.asker number,
          reply.replier = waiting.peer.address ∧
            (membership.honest waiting.peer.address = true →
              reply.call = waiting.call)))
  | .client .. | .readsRow .. | .asks .. | .serves .. | .wakes .. | .misses ..
  | .expires .. | .forges .. | .feigns .. => .isTrue trivial

/-- Nodes may start with values that they have kept, and know no providers. -/
structure Swarm.Initial (swarm : Swarm) : Prop where
  address : ∀ owner, (swarm.nodes owner).address = owner
  onNetwork : ∀ owner, (swarm.nodes owner).networkType = networkType
  providers : ∀ owner, (swarm.nodes owner).providers = ∅
  calls : ∀ owner number, swarm.calls owner number = none
  rows : swarm.rows = []
  queries : swarm.queries = []
  replies : swarm.replies = []

/-- The node of this address has been so at some time of the run. -/
def Swarm.Once (swarm : Swarm) (events : List SwarmEvent) (address : String)
    (kind : LocalNode → Prop) : Prop :=
  ∃ front reached, front <+: events ∧
    runFrom (step env network networkType membership) swarm front = some reached ∧
      kind (reached.nodes address)

end Events

/-! ## What is kept -/

/-- The offer, or what has kept it out, is stored. -/
def Acknowledges (env : Externals) (key value : String) (node : LocalNode) :
    Prop :=
  ∃ stored, node.tables.data.lookup key = some stored ∧
    (stored = value ∨ judgeTexts env value stored = .ok .keep)

section Sound

-- what a call takes is genuine
variable (env : Externals) (network : Network) (networkType : NetworkType)
  (membership : Membership) (genuine : Prop)
  (once : String → (LocalNode → Prop) → Prop)

/-- A reply says what the replier, or whom it names, has held. -/
def SentReply.Truthful (reply : SentReply) : Prop :=
  match reply.call with
  | .sendPut key value => reply.message.hasResponse = true →
      once reply.replier (Acknowledges env key value)
  | .sendGet key => ∀ response value, reply.message = .response response →
      response.response.data.lookup "value" = some value →
        once reply.replier (HoldsValue key value)
  | .sendGetProviders key => genuine →
      ∀ response, reply.message = .response response →
        ∀ nodeInfo ∈ response.response.nodes,
          membership.honest nodeInfo.address = true →
            once nodeInfo.address (HoldsKey key)
  | _ => True

/-- An honest query is that of its call, and of a row that has been held. -/
structure SentQuery.Sound (query : SentQuery) : Prop where
  parsed : ∃ sender tid, network.parseFromArray query.bytes =
    some (.query (query.call.query sender tid))
  held : ∀ key value, query.call = .sendMapV2 key value →
    once (network.addressOf query.senderDest networkType) (HoldsKey key)

/-- A put that an honest node has acknowledged is stored there. -/
def Waiting.Sound (owner : String) (waiting : Waiting) : Prop :=
  genuine → membership.honest owner = true →
    membership.honest waiting.peer.address = true →
      ∀ key value message, waiting.call = .sendPut key value →
        waiting.given = some message → message.hasResponse = true →
          once waiting.peer.address (HoldsKey key)

structure Swarm.Sound (swarm : Swarm) : Prop where
  address : ∀ owner, (swarm.nodes owner).address = owner
  onNetwork : ∀ owner, (swarm.nodes owner).networkType = networkType
  providers : genuine → ∀ owner, membership.honest owner = true →
    ∀ key, ∀ provider ∈ (swarm.nodes owner).getProviders key,
      membership.honest provider.address = true →
        once provider.address (HoldsKey key)
  calls : ∀ owner number waiting, swarm.calls owner number = some waiting →
    waiting.Sound membership genuine once owner
  rows : ∀ row ∈ swarm.rows, once row.owner (HoldsKey row.key)
  queries : ∀ query ∈ swarm.queries,
    membership.honest (network.addressOf query.senderDest networkType) = true →
      query.Sound network networkType once
  replies : ∀ reply ∈ swarm.replies, membership.honest reply.asker = true →
    membership.honest reply.replier = true →
      reply.Truthful env membership genuine once

end Sound

section Steps

variable {env : Externals} {network : Network} {networkType : NetworkType}
  {membership : Membership} {genuine : Prop}
  {once : String → (LocalNode → Prop) → Prop} {swarm next : Swarm}

/-- A node of an honest owner gets providers that have held the key. -/
theorem Swarm.Sound.setNode
    (h : swarm.Sound env network networkType membership genuine once)
    (owner : String) {node : LocalNode}
    (hnode : AdmitsOnly (fun key provider => genuine →
        membership.honest owner = true →
          membership.honest provider.address = true →
            once provider.address (HoldsKey key))
      (swarm.nodes owner) node) :
    (swarm.setNode owner node).Sound env network networkType membership genuine
      once where
  address other := by
    by_cases hother : other = owner
    · rw [hother, Swarm.nodes_setNode_self, hnode.address, h.address]
    · rw [Swarm.nodes_setNode_of_ne _ _ hother, h.address]
  onNetwork other := by
    by_cases hother : other = owner
    · rw [hother, Swarm.nodes_setNode_self, hnode.networkType, h.onNetwork]
    · rw [Swarm.nodes_setNode_of_ne _ _ hother, h.onNetwork]
  providers hgenuine other hhonest key provider hprovider hpeer := by
    by_cases hother : other = owner
    · subst hother
      rw [Swarm.nodes_setNode_self] at hprovider
      rcases hnode.providers key provider hprovider with hold | hnew
      · exact h.providers hgenuine other hhonest key provider hold hpeer
      · exact hnew hgenuine hhonest hpeer
    · rw [Swarm.nodes_setNode_of_ne _ _ hother] at hprovider
      exact h.providers hgenuine other hhonest key provider hprovider hpeer
  calls := h.calls
  rows := h.rows
  queries := h.queries
  replies := h.replies

theorem Swarm.Sound.setPending
    (h : swarm.Sound env network networkType membership genuine once)
    (owner tid : String) (number : Option Nat) :
    (swarm.setPending owner tid number).Sound env network networkType membership
      genuine once :=
  ⟨h.address, h.onNetwork, h.providers, h.calls, h.rows, h.queries, h.replies⟩

theorem Swarm.Sound.setCall
    (h : swarm.Sound env network networkType membership genuine once)
    (owner : String) (number : Nat) {waiting : Option Waiting}
    (hwaiting : ∀ call ∈ waiting, call.Sound membership genuine once owner) :
    (swarm.setCall owner number waiting).Sound env network networkType membership
      genuine once where
  address := h.address
  onNetwork := h.onNetwork
  providers := h.providers
  calls other count call hcall := by
    rw [Swarm.setCall] at hcall
    dsimp only at hcall
    rw [Function.update_apply] at hcall
    split at hcall
    case isFalse => exact h.calls other count call hcall
    case isTrue hother =>
      rw [hother]
      rw [Function.update_apply] at hcall
      split at hcall
      · exact hwaiting call hcall
      · exact h.calls owner count call hcall
  rows := h.rows
  queries := h.queries
  replies := h.replies

theorem Swarm.Sound.addReply
    (h : swarm.Sound env network networkType membership genuine once)
    {reply : SentReply}
    (hreply : membership.honest reply.asker = true →
      membership.honest reply.replier = true →
        reply.Truthful env membership genuine once) :
    { swarm with replies := reply :: swarm.replies : Swarm }.Sound env network
      networkType membership genuine once where
  __ := h
  replies := List.forall_mem_cons.mpr ⟨hreply, h.replies⟩

theorem Swarm.Sound.addQuery
    (h : swarm.Sound env network networkType membership genuine once)
    {query : SentQuery}
    (hquery :
      membership.honest (network.addressOf query.senderDest networkType) = true →
        query.Sound network networkType once) :
    { swarm with queries := query :: swarm.queries : Swarm }.Sound env network
      networkType membership genuine once where
  __ := h
  queries := List.forall_mem_cons.mpr ⟨hquery, h.queries⟩

/-- A node that is heard becomes a provider where it acknowledges a put. -/
theorem Waiting.hear_admits {waiting : Waiting} {setting : Setting}
    {answer : Answer} {allowed : String → Provider → Prop}
    (h : ∀ key value message, waiting.call = .sendPut key value →
      answer = .received (some message) → message.hasResponse = true →
        allowed key waiting.peer) :
    Relates (AdmitsOnly allowed) (waiting.hear env network setting answer) := by
  rw [Waiting.hear]
  split
  · rename_i key value hcall
    exact relates_bind_pure (putTo_admits fun message hmessage hresponse =>
      h key value message hcall hmessage hresponse)
  · exact relates_bind_pure (getFrom_admits _ _ _)
  · exact relates_pure _

theorem Swarm.Sound.answer
    (h : swarm.Sound env network networkType membership genuine once)
    {setting : Setting} {owner : String} {number : Nat} {waiting : Waiting}
    (hwaiting : waiting.Sound membership genuine once owner) {answer : Answer}
    (hanswer : ∀ message, answer = .received (some message) →
      waiting.given = some message) :
    (swarm.answer env network setting owner number waiting answer).Sound env
      network networkType membership genuine once := by
  refine (h.setCall owner number (by simp)).setNode owner
    (Waiting.hear_admits ?_ (swarm.nodes owner))
  intro key value message hcall hmessage hresponse hgenuine howner hpeer
  exact hwaiting hgenuine howner hpeer key value message hcall
    (hanswer message hmessage) hresponse

theorem Acknowledges.holdsKey {key value : String} {node : LocalNode}
    (h : Acknowledges env key value node) : HoldsKey key node := by
  obtain ⟨stored, hstored, -⟩ := h
  exact ⟨stored, .inl hstored⟩

/-- What an honest node replies to an honest query is true of it as it is
before or behind the dispatcher. -/
theorem SentQuery.Sound.reply_truthful {query : SentQuery}
    (h : query.Sound network networkType once) {setting : Setting}
    {node after : LocalNode} {message : DhtMessage}
    (hrun : (protobufProcess env setting network.parseFromArray query.bytes
      false).run node = .ok message after)
    (haddress : node.address = query.receiver)
    (hbefore : ∀ kind, kind node → once query.receiver kind)
    (hafter : ∀ key value, Acknowledges env key value after →
      once query.receiver (Acknowledges env key value))
    (hproviders : genuine → ∀ key, ∀ provider ∈ node.getProviders key,
      membership.honest provider.address = true →
        once provider.address (HoldsKey key)) (asker : String) :
    (SentReply.mk asker query.receiver query.call message).Truthful env membership
      genuine once := by
  obtain ⟨sender, tid, hparse⟩ := h.parsed
  rw [SentReply.Truthful]
  split
  · rename_i key value hcall
    dsimp only at hcall
    rw [hcall] at hparse
    exact fun hresponse => hafter _ _ (put_reply_holds hparse hrun hresponse)
  · rename_i key hcall
    dsimp only at hcall
    rw [hcall] at hparse
    rintro response value rfl hvalue
    exact hbefore _ (get_reply_holds hparse hrun hvalue)
  · rename_i key hcall
    dsimp only at hcall
    rw [hcall] at hparse
    rintro hgenuine response rfl nodeInfo hmem hhonest
    rcases getProviders_reply_names hparse hrun nodeInfo hmem with
      ⟨hself, hholds⟩ | ⟨provider, hprovider, hsame⟩
    · rw [hself, haddress]
      exact hbefore _ hholds
    · rw [hsame] at hhonest ⊢
      exact hproviders hgenuine key provider hprovider hhonest
  · trivial

/-- The state is one of those that count. -/
structure Now (once : String → (LocalNode → Prop) → Prop) (swarm : Swarm) :
    Prop where
  now : ∀ address kind, kind (swarm.nodes address) → once address kind
  mono : ∀ address (kind weaker : LocalNode → Prop),
    (∀ node, kind node → weaker node) → once address kind → once address weaker

theorem Swarm.Sound.serve
    (h : swarm.Sound env network networkType membership genuine once)
    (hcovered : Covered networkType) {setting : Setting} {query : SentQuery}
    (hquery : query ∈ swarm.queries) (hnow : Now once swarm)
    (hnext : Now once (swarm.serve env network networkType setting query)) :
    (swarm.serve env network networkType setting query).Sound env network
      networkType membership genuine once := by
  have hprocess := @protobufProcess_admits
    (fun key provider => genuine → membership.honest query.receiver = true →
      membership.honest provider.address = true →
        once provider.address (HoldsKey key)) env setting false 0 ""
    network.parseFromArray query.bytes (swarm.nodes query.receiver)
  rw [stateAfter] at hprocess
  rw [Swarm.serve] at hnext ⊢
  dsimp only at hnext ⊢
  cases hrun : (protobufProcess env (detached setting 0 "")
      network.parseFromArray query.bytes false).run
        (swarm.nodes query.receiver) with
  | error fault node =>
      rw [hrun] at hprocess
      exact h.setNode _ hprocess
  | ok message node =>
      rw [hrun] at hprocess hnext
      dsimp only at hprocess hnext ⊢
      have hheld := @callbacks_held network query.bytes query.senderDest node
      refine (h.setNode _ (trans_of _ hprocess (callbacks_admits ?_ ?_))).addReply ?_
      · rw [hprocess.networkType, h.onNetwork]
        exact hcovered
      · -- a map message of an honest member is about a row that it has read
        intro sent key port hparse hmethod hkey hgenuine hreceiver hsender
        rw [hprocess.networkType, h.onNetwork] at hsender ⊢
        have hsound := h.queries query hquery hsender
        obtain ⟨sender, tid, hsame⟩ := hsound.parsed
        rw [hparse, Option.some.injEq, DhtMessage.query.injEq] at hsame
        rw [hsame] at hmethod hkey
        obtain ⟨value, hcall⟩ := sendMapV2_of_method hmethod hkey
        exact hsound.held key value hcall
      · intro hasker hreplier
        refine (h.queries query hquery hasker).reply_truthful hrun (h.address _)
          (fun kind => hnow.now _ kind) (fun key value hstored => ?_)
          (fun hgenuine key => h.providers hgenuine _ hreplier key) _
        -- the callbacks leave what is stored
        refine hnext.now _ _ ?_
        change Acknowledges env key value
          ((swarm.setNode query.receiver _).nodes query.receiver)
        rw [Swarm.nodes_setNode_self, Acknowledges, hheld.data]
        exact hstored

/-- A genuine reply to a put is that of a node that has stored it. -/
theorem Swarm.Sound.acknowledged
    (h : swarm.Sound env network networkType membership genuine once)
    (hnow : Now once swarm) {reply : SentReply}
    (hreply : reply ∈ swarm.replies) {tid : String}
    (htid : reply.message.responseTid = some tid)
    {number : Nat} (hnumber : swarm.pending reply.asker tid = some number)
    {waiting : Waiting} (hwaiting : swarm.calls reply.asker number = some waiting)
    (htrue : swarm.Genuine membership (.hears reply)) {key value : String}
    (hcall : waiting.call = .sendPut key value)
    (hresponse : reply.message.hasResponse = true)
    (howner : membership.honest reply.asker = true)
    (hpeer : membership.honest waiting.peer.address = true) :
    once waiting.peer.address (HoldsKey key) := by
  obtain ⟨hreplier, hsame⟩ := htrue tid htid number hnumber waiting hwaiting
  have htruthful := h.replies reply hreply howner (hreplier ▸ hpeer)
  rw [SentReply.Truthful, hsame hpeer, hcall] at htruthful
  rw [← hreplier]
  exact hnow.mono _ _ _ (fun _ => Acknowledges.holdsKey) (htruthful hresponse)

theorem Swarm.Sound.step
    (h : swarm.Sound env network networkType membership genuine once)
    (hcovered : Covered networkType) {event : SwarmEvent}
    (hgenuine : genuine → swarm.Genuine membership event)
    (hstep : swarm.step env network networkType membership event = some next)
    (hnow : Now once swarm) (hnext : Now once next) :
    next.Sound env network networkType membership genuine once := by
  cases event with
  | client owner setting sent found request =>
      cases hstep
      exact h.setNode owner (protobufProcess_admits _)
  | readsRow row =>
      simp only [Swarm.step] at hstep
      split at hstep
      case isFalse => cases hstep
      case isTrue hrow =>
        cases hstep
        exact { h with
          rows := List.forall_mem_cons.mpr
            ⟨hnow.now _ _ ⟨row.value, .inr hrow.2.2.2⟩, h.rows⟩ }
  | asks owner number port draw query =>
      simp only [Swarm.step] at hstep
      split at hstep
      case isFalse => cases hstep
      case isTrue hasks =>
        cases hstep
        obtain ⟨-, rfl, hparse, hannounces⟩ := hasks
        refine ((h.setPending _ _ _).setCall _ number ?_).addQuery fun _ =>
          ⟨⟨_, _, hparse⟩, fun key value hcall => ?_⟩
        · rintro call ⟨⟩ _ _ _ key value message - hgiven
          cases hgiven
        rw [hcall] at hannounces
        exact h.rows _ (of_decide_eq_true hannounces)
  | serves setting query =>
      simp only [Swarm.step] at hstep
      split at hstep
      case isFalse => cases hstep
      case isTrue hquery =>
        cases hstep
        exact h.serve hcovered hquery hnow hnext
  | hears reply =>
      simp only [Swarm.step, Option.bind_eq_bind] at hstep
      split at hstep
      case isFalse => cases hstep
      case isTrue hreply =>
        simp only [Option.bind_eq_some_iff] at hstep
        obtain ⟨tid, htid, number, hnumber, waiting, hwaiting, ⟨⟩⟩ := hstep
        refine (h.setPending reply.asker tid none).setCall _ number ?_
        rintro call ⟨⟩ htrue howner hpeer key value message hcall ⟨⟩ hresponse
        exact h.acknowledged hnow hreply htid hnumber hwaiting (hgenuine htrue)
          hcall hresponse howner hpeer
  | wakes setting owner number =>
      simp only [Swarm.step, Option.bind_eq_bind, Option.bind_eq_some_iff] at hstep
      obtain ⟨waiting, hwaiting, message, hgiven, ⟨⟩⟩ := hstep
      refine h.answer (h.calls _ _ _ hwaiting) fun other hother => ?_
      cases hother
      exact hgiven
  | misses setting owner number sent =>
      simp only [Swarm.step, Option.bind_eq_bind, Option.bind_eq_some_iff] at hstep
      obtain ⟨waiting, hwaiting, ⟨⟩⟩ := hstep
      refine (h.setPending _ _ none).answer (h.calls _ _ _ hwaiting)
        fun message hanswer => ?_
      split at hanswer <;> cases hanswer
  | expires owner key =>
      cases hstep
      exact h.setNode owner (onTables_admits _ _)
  | forges query =>
      simp only [Swarm.step] at hstep
      split at hstep
      case isTrue => cases hstep
      case isFalse hforged =>
        cases hstep
        exact h.addQuery fun hhonest => absurd hhonest hforged
  | feigns reply =>
      simp only [Swarm.step] at hstep
      split at hstep
      case isTrue => cases hstep
      case isFalse hfeigned =>
        cases hstep
        exact h.addReply fun _ hhonest => absurd hhonest hfeigned

end Steps

/-! ## Runs -/

namespace Swarm

variable {env : Externals} {network : Network} {networkType : NetworkType}
  {membership : Membership} {genuine : Prop} {swarm final : Swarm}
  {events : List SwarmEvent}

theorem now_of_front {front : List SwarmEvent} {reached : Swarm}
    (hfront : front <+: events)
    (hreached : runFrom (step env network networkType membership) swarm front =
      some reached) :
    Now (swarm.Once env network networkType membership events) reached where
  now _ _ hkind := ⟨front, reached, hfront, hreached, hkind⟩
  mono _ _ _ hweaker hkind := by
    obtain ⟨earlier, state, hearlier, hstate, hkind⟩ := hkind
    exact ⟨earlier, state, hearlier, hstate, hweaker _ hkind⟩

theorem Initial.sound (h : swarm.Initial networkType)
    {once : String → (LocalNode → Prop) → Prop} :
    swarm.Sound env network networkType membership genuine once where
  address := h.address
  onNetwork := h.onNetwork
  providers _ owner _ key provider hprovider := by
    simp [LocalNode.getProviders, h.providers owner] at hprovider
  calls owner number waiting hwaiting := by
    rw [h.calls owner number] at hwaiting
    cases hwaiting
  rows := by simp [h.rows]
  queries := by simp [h.queries]
  replies := by simp [h.replies]

theorem Initial.run_sound (h : swarm.Initial networkType)
    (hcovered : Covered networkType)
    (hgenuine : genuine → AllMeet (step env network networkType membership)
      (Genuine membership) swarm events)
    (hrun : runFrom (step env network networkType membership) swarm events =
      some final) :
    final.Sound env network networkType membership genuine
      (swarm.Once env network networkType membership events) := by
  -- what a state that is reached is like counts as having been so
  have hmeets : AllMeet (step env network networkType membership)
      (fun reached event => (genuine → reached.Genuine membership event) ∧
        Now (swarm.Once env network networkType membership events) reached ∧
        ∀ next, reached.step env network networkType membership event = some next →
          Now (swarm.Once env network networkType membership events) next)
      swarm events := by
    refine allMeet_iff.mpr fun before event later reached hevents hreached =>
      ⟨fun htrue => ?_, now_of_front ⟨_, hevents.symm⟩ hreached,
        fun next hstep => ?_⟩
    · exact allMeet_iff.mp (hgenuine htrue) before event later reached hevents
        hreached
    · refine @now_of_front _ _ _ _ _ _ (before ++ [event]) _ ⟨later, ?_⟩ ?_
      · rw [List.append_assoc, List.singleton_append, hevents]
      · rw [runFrom_append, hreached, Option.bind_some, runFrom_cons, hstep]
        rfl
  exact runFrom_invariant _
    (fun reached event next hsound hmeets hstep =>
      hsound.step hcovered hmeets.1 hstep hmeets.2.1 (hmeets.2.2 next hstep))
    hmeets hrun h.sound

end Swarm

/-! ## A row that is announced, asked for, and a value that is put -/

def keepingNode (owner : String) : LocalNode :=
  { lonelyNode with
    id := (nearOrFar owner).text
    address := owner
    tables.hashTable := (∅ : Finmap fun _ : String => String).insert "key" "value" }

def keepers : Swarm :=
  ⟨keepingNode, [], fun _ _ => none, fun _ _ => none, [], []⟩

def mapQuery : SentQuery := ⟨"far", "near", [1], .sendMapV2 "key" "value"⟩

def getQuery : SentQuery := ⟨"near", "far", [2], .sendGet "key"⟩

def putQuery : SentQuery := ⟨"near", "far", [3], .sendPut sampleKey messageText⟩

def rowNetwork : Network :=
  { threeNetwork with
    parseFromArray := fun bytes =>
      if bytes = [1]
      then some (.query (mapQuery.call.query (keepingNode "far") "0000"))
      else if bytes = [2]
      then some (.query (getQuery.call.query (keepingNode "near") "0001"))
      else if bytes = [3]
      then some (.query (putQuery.call.query (keepingNode "near") "0002"))
      else none
    bootstrapNodes := fun _ => [] }

def rowReply : SentReply where
  asker := "near"
  replier := "far"
  call := .sendGet "key"
  message := .response ((Response.mk dhtVersion ⟨∅, []⟩ "0001").addData "id"
    (nearOrFar "far").text |>.addData "value" "value")

def storedReply : SentReply where
  asker := "near"
  replier := "far"
  call := .sendPut sampleKey messageText
  message := .response ((Response.mk dhtVersion ⟨∅, []⟩ "0002").addData "id"
    (nearOrFar "far").text)

def rowEvents : List SwarmEvent :=
  [.readsRow ⟨"far", "key", "value"⟩, .asks "far" 0 50881 0 mapQuery,
    .serves lonelySetting mapQuery, .asks "near" 0 50881 65536 getQuery,
    .serves lonelySetting getQuery, .hears rowReply,
    .wakes lonelySetting "near" 0, .asks "near" 0 50881 131072 putQuery,
    .serves lonelySetting putQuery, .hears storedReply,
    .wakes lonelySetting "near" 0]

abbrev Swarm.stepRows : Swarm → SwarmEvent → Option Swarm :=
  Swarm.step expiringExternals rowNetwork .tor threeMembers

def rowKeepers : Swarm := (runFrom Swarm.stepRows keepers rowEvents).getD keepers

theorem runFrom_rowEvents :
    runFrom Swarm.stepRows keepers rowEvents = some rowKeepers := by
  have hsome : (runFrom Swarm.stepRows keepers rowEvents).isSome = true := by
    decide +kernel
  exact (Option.getD_of_ne_none (Option.isSome_iff_ne_none.mp hsome) _).symm

theorem genuine_rowEvents :
    AllMeet Swarm.stepRows (Swarm.Genuine threeMembers) keepers rowEvents := by
  decide +kernel

theorem keepers_initial : keepers.Initial .tor where
  address _ := rfl
  onNetwork _ := rfl
  providers _ := rfl
  calls _ _ := rfl
  rows := rfl
  queries := rfl
  replies := rfl

theorem providers_rowKeepers :
    ∀ key ∈ ["key", sampleKey],
      ⟨"far", 50881⟩ ∈ (rowKeepers.nodes "near").getProviders key := by
  decide +kernel

theorem replies_rowKeepers :
    ∀ reply ∈ [rowReply, storedReply],
      threeMembers.honest reply.asker = true ∧
        threeMembers.honest reply.replier = true ∧ reply ∈ rowKeepers.replies := by
  decide +kernel

end Neroshop.Rpc
