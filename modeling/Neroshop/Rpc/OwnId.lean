import Neroshop.Rpc.Admission

/-!
# Look-ups of the own id

The distance of an id to itself is 256, and the calls of the routing table that
take an id read the bucket of that number unless their caller has ruled the own
id out.  `add_node` has, and what looks an id up for a peer has not: a ping is
looked up under the id of its sender, and the reply to `find_node` under the
ids of the nodes it lists.
-/

namespace Neroshop.Rpc

open Neroshop.Foundation Neroshop.Node Neroshop.Routing

/-! ## The reply to `find_node` -/

section Received

variable (network : Network) (table : RoutingTable)

/-- A node for each entry, without those that the table has. -/
def Network.newNodes : List NodeInfo → Except Fault (List RemoteNode)
  | [] => .ok []
  | nodeInfo :: nodeInfos => do
      let node := RemoteNode.ofAddress network.sha3256 nodeInfo.address
        (nodeInfo.port % 2 ^ 16)
      let hasNode ← table.hasNode network.uninitialized node.id
      let nodes ← newNodes nodeInfos
      return if hasNode then nodes else node :: nodes

/-- `send_find_node`, once the reply is there. -/
def Network.sendFindNode (nodesMessage : List UInt8) :
    Except Fault (List RemoteNode) :=
  match network.parseFromArray nodesMessage with
  | some (.response response) => network.newNodes table response.response.nodes
  | _ => .ok []

end Received

/-! ## The calls that reach the table -/

inductive TableEvent where
  | hasNode (hex : NodeIdHex)
  | getNode (hex : NodeIdHex)
  | removeNode (hex : NodeIdHex)
  /-- A query of a peer, which is given to both callbacks. -/
  | query (buffer : List UInt8) (senderDest : String)
  | findNodeReply (nodesMessage : List UInt8)
  /-- A node that has answered a ping, or has been discovered. -/
  | addNode (address : String) (port : Nat)

def onRoutingTable (call : RoutingTable → Except Fault (Bool × RoutingTable)) :
    NodeCall Bool := do
  let node ← get
  let (answer, routingTable) ← MonadExcept.ofExcept (call node.routingTable)
  set { node with routingTable := routingTable }
  return answer

section Events

variable (network : Network)

/-- The answer is whether a node was there, or came in. -/
def TableEvent.exec : TableEvent → NodeCall Bool
  | .hasNode hex => do
      let node ← get
      MonadExcept.ofExcept
        (node.routingTable.hasNode network.uninitialized hex.text)
  | .getNode hex => do
      let node ← get
      let found ← MonadExcept.ofExcept
        (node.routingTable.getNode network.uninitialized hex.text)
      return found.isSome
  | .removeNode hex => onRoutingTable fun table =>
      table.removeNode network.uninitialized hex.text
  | .query buffer senderDest => do
      onPing network buffer senderDest
      onMap network buffer senderDest
      return false
  | .findNodeReply nodesMessage => do
      let node ← get
      let nodes ← MonadExcept.ofExcept
        (network.sendFindNode node.routingTable nodesMessage)
      return !nodes.isEmpty
  | .addNode address port => onRoutingTable fun table =>
      table.addNode network.uninitialized
        (.ofAddress network.sha3256 address port)

/-- The id that the call itself names. -/
def TableEvent.lookedUp : TableEvent → Option NodeIdHex
  | .hasNode hex | .getNode hex | .removeNode hex => some hex
  | _ => none

/-- The call stays in the array of buckets, and does not find the own id. -/
structure TableEvent.Inside (event : TableEvent) (node : LocalNode) :
    Prop where
  bounds : ¬ Faults .outOfBounds (event.exec network) node
  absent : ∀ hex, event.lookedUp = some hex →
    hex.xorId = node.routingTable.id →
      ∃ after, (event.exec network).run node = .ok false after

/-- Every call of a run does so.  What a call has changed before it ends in
another fault stays. -/
def StaysInside : LocalNode → List TableEvent → Prop
  | _, [] => True
  | node, event :: events =>
      event.Inside network node ∧
        StaysInside (stateAfter (event.exec network) node) events

/-- `persist_routing_table` and `send_map_v2` take no bucket. -/
def Network.AnnouncesInside : Prop :=
  ∀ address port, network.announce address port ≠ .error .outOfBounds

/-- A ping whose sender has an address that the own id is the hash of. -/
structure Network.PingsAsSelf (networkType : NetworkType) (own : XorId)
    (buffer : List UInt8) (senderDest : String) : Prop where
  nonempty : buffer ≠ []
  ping : ∃ query address port,
    network.parseFromArray buffer = some (.query query) ∧
      query.query = "ping" ∧
      network.senderAddress senderDest networkType = .ok address ∧
      query.args.lookup "id" = some (network.sha3256 address).text ∧
      senderPort query.args = some port ∧
      (network.sha3256 address).xorId = own

/-- A reply that lists such an address. -/
def Network.ListsSelf (own : XorId) (nodesMessage : List UInt8) : Prop :=
  ∃ response, network.parseFromArray nodesMessage = some (.response response) ∧
    ∃ nodeInfo ∈ response.response.nodes,
      (network.sha3256 nodeInfo.address).xorId = own

def TableEvent.NamesSelf (networkType : NetworkType) (own : XorId) :
    TableEvent → Prop
  | .hasNode hex | .getNode hex | .removeNode hex => hex.xorId = own
  | .query buffer senderDest =>
      network.PingsAsSelf networkType own buffer senderDest
  | .findNodeReply nodesMessage => network.ListsSelf own nodesMessage
  | .addNode _ _ => False

end Events

/-! ## What the table does -/

section Table

variable (uninitialized : XorId) {table : RoutingTable} {hex : NodeIdHex}

theorem hasNode_other (hother : hex.xorId ≠ table.id) :
    ∃ present, table.hasNode uninitialized hex.text = .ok present := by
  rw [RoutingTable.hasNode, RoutingTable.bucketOf_of_ne uninitialized hother]
  exact ⟨_, rfl⟩

theorem hasNode_outOfBounds_iff :
    table.hasNode uninitialized hex.text = .error .outOfBounds ↔
      hex.xorId = table.id := by
  by_cases hself : hex.xorId = table.id
  · refine iff_of_true ?_ hself
    rw [RoutingTable.hasNode, RoutingTable.bucketOf_self uninitialized hself]
    rfl
  · obtain ⟨present, hpresent⟩ := hasNode_other uninitialized hself
    exact iff_of_false (by simp [hpresent]) hself

theorem getNode_outOfBounds_iff :
    table.getNode uninitialized hex.text = .error .outOfBounds ↔
      hex.xorId = table.id := by
  rw [RoutingTable.getNode]
  by_cases hself : hex.xorId = table.id
  · rw [RoutingTable.bucketOf_self uninitialized hself]
    exact iff_of_true rfl hself
  · rw [RoutingTable.bucketOf_of_ne uninitialized hself]
    refine iff_of_false (fun h => ?_) hself
    cases h

theorem removeNode_outOfBounds_iff :
    table.removeNode uninitialized hex.text = .error .outOfBounds ↔
      hex.xorId = table.id := by
  by_cases hself : hex.xorId = table.id
  · exact iff_of_true (removeNode_self uninitialized hself) hself
  · refine iff_of_false ?_ hself
    simp only [RoutingTable.removeNode, hexStringToNodeId_text]
    rw [dif_pos (xorDistanceBitIndex_lt hself)]
    split
    · intro h
      cases h
    · intro h
      cases h

theorem id_removeNode {nodeIdHex : String} {removed : Bool}
    {next : RoutingTable}
    (h : table.removeNode uninitialized nodeIdHex = .ok (removed, next)) :
    next.id = table.id := by
  unfold RoutingTable.removeNode at h
  split at h
  · obtain ⟨-, rfl⟩ := Prod.mk.inj (Except.ok.inj h)
    rfl
  · split at h
    · dsimp only at h
      split at h
      · obtain ⟨-, rfl⟩ := Prod.mk.inj (Except.ok.inj h)
        rfl
      · obtain ⟨-, rfl⟩ := Prod.mk.inj (Except.ok.inj h)
        rfl
    · cases h

/-- `add_node` rules the own id out before it takes the bucket. -/
theorem addNode_inside (sha3256 : String → NodeIdHex) (table : RoutingTable)
    (address : String) (port : Nat) :
    ∃ added next, table.addNode uninitialized
        (.ofAddress sha3256 address port) = .ok (added, next) ∧
      next.id = table.id := by
  simp only [RoutingTable.addNode, RemoteNode.ofAddress, hexStringToNodeId_text,
    bind, Except.bind, pure, Except.pure]
  by_cases hself : (sha3256 address).xorId = table.id
  · rw [if_pos hself]
    exact ⟨_, _, rfl, rfl⟩
  rw [if_neg hself]
  have hindex : xorDistanceBitIndex table.id (sha3256 address).xorId < 256 :=
    xorDistanceBitIndex_lt hself
  rw [dif_pos hindex]
  by_cases hpresent : (table.buckets ⟨_, hindex⟩).any
      (fun existing => existing.id = (sha3256 address).text) = true
  · exact ⟨false, table, if_pos hpresent, rfl⟩
  by_cases hfull : nodesPerBucket ≤ (table.buckets ⟨_, hindex⟩).length
  · exact ⟨false, table, (if_neg hpresent).trans (if_pos hfull), rfl⟩
  · exact ⟨true, _, (if_neg hpresent).trans (if_neg hfull), rfl⟩

end Table

/-! ## What the messages do -/

section Messages

variable {network : Network} {node : LocalNode}

theorem newNodes_outOfBounds_iff {table : RoutingTable}
    (nodeInfos : List NodeInfo) :
    network.newNodes table nodeInfos = .error .outOfBounds ↔
      ∃ nodeInfo ∈ nodeInfos,
        (network.sha3256 nodeInfo.address).xorId = table.id := by
  induction nodeInfos with
  | nil => exact iff_of_false nofun (by simp)
  | cons nodeInfo nodeInfos ih =>
      rw [List.exists_mem_cons_iff, ← ih]
      by_cases hself : (network.sha3256 nodeInfo.address).xorId = table.id
      · refine iff_of_true ?_ (.inl hself)
        have hhas := (hasNode_outOfBounds_iff network.uninitialized).mpr hself
        rw [Network.newNodes, RemoteNode.ofAddress, hhas]
        rfl
      · obtain ⟨present, hpresent⟩ :=
          hasNode_other network.uninitialized hself
        rw [Network.newNodes, RemoteNode.ofAddress, hpresent]
        rw [or_iff_right hself]
        cases network.newNodes table nodeInfos with
        | error fault => rfl
        | ok nodes => exact iff_of_false nofun nofun

theorem sendFindNode_outOfBounds_iff {table : RoutingTable}
    (nodesMessage : List UInt8) :
    network.sendFindNode table nodesMessage = .error .outOfBounds ↔
      network.ListsSelf table.id nodesMessage := by
  rw [Network.sendFindNode, Network.ListsSelf]
  cases network.parseFromArray nodesMessage with
  | none => exact iff_of_false nofun (by simp)
  | some message =>
      cases message with
      | notSet | query | error => exact iff_of_false nofun (by simp)
      | response response =>
          simp only [Option.some.injEq, DhtMessage.response.injEq,
            exists_eq_left']
          exact newNodes_outOfBounds_iff response.response.nodes

theorem senderAddress_ne_outOfBounds {networkType : NetworkType}
    {senderDest : String} :
    network.senderAddress senderDest networkType ≠ .error .outOfBounds := by
  intro h
  cases networkType with
  | i2p =>
      rw [Network.senderAddress] at h
      split at h <;> cases h
  | tor | reticulum | clearnet => cases h

theorem readSender_ne_outOfBounds {method : String} {networkType : NetworkType}
    {buffer : List UInt8} {senderDest : String} :
    network.readSender method networkType buffer senderDest ≠
      .error .outOfBounds := by
  intro h
  rw [Network.readSender] at h
  split at h
  · cases h
  split at h
  · next query _ =>
      split at h
      · cases h
      rcases bind_eq_error.mp h with haddress | ⟨address, -, hread⟩
      · exact senderAddress_ne_outOfBounds haddress
      · split at hread <;> cases hread
  · cases h

theorem admitPeer_outOfBounds_iff
    (hannounce : network.AnnouncesInside)
    {sender : Sender} (hderives : network.derives sender = true) :
    Faults .outOfBounds (admitPeer network node sender) node ↔
      (network.sha3256 sender.address).xorId = node.routingTable.id := by
  have hid : sender.id = (network.sha3256 sender.address).text :=
    of_decide_eq_true hderives
  rw [admitPeer, faults_ofExcept_bind, hid, hasNode_outOfBounds_iff]
  refine or_iff_left ?_
  rintro ⟨hasNode, -, h⟩
  cases hasNode with
  | true => exact not_faults_pure _ h
  | false =>
  rcases faults_ofExcept_bind.mp h with hhardcoded | ⟨hardcoded, -, h⟩
  · rw [Network.isHardcodedOn] at hhardcoded
    split at hhardcoded <;> cases hhardcoded
  cases hardcoded with
  | true => exact not_faults_pure _ h
  | false =>
  obtain ⟨added, next, hadd, -⟩ := addNode_inside network.uninitialized
    network.sha3256 node.routingTable sender.address sender.port
  rcases faults_ofExcept_bind.mp h with hfault | ⟨found, -, h⟩
  · rw [hadd] at hfault
    cases hfault
  · exact hannounce _ _ (faults_ofExcept.mp (faults_set_bind.mp h))

theorem onPing_outOfBounds_iff
    (hannounce : network.AnnouncesInside)
    {buffer : List UInt8} {senderDest : String} :
    Faults .outOfBounds (onPing network buffer senderDest) node ↔
      network.PingsAsSelf node.networkType node.routingTable.id buffer
        senderDest := by
  rw [onPing, faults_get_bind, faults_ofExcept_bind,
    or_iff_right readSender_ne_outOfBounds]
  constructor
  · rintro ⟨sender, hread, h⟩
    cases sender with
    | none => exact absurd h (not_faults_pure _)
    | some sender =>
    dsimp only at h
    split at h
    · next hderives =>
        obtain ⟨hbuffer, query, hparse, hmethod, haddress, hid, hport, -⟩ :=
          readSender_eq_some.mp hread
        have hself := (admitPeer_outOfBounds_iff hannounce hderives).mp h
        refine ⟨hbuffer, query, sender.address, sender.port, hparse, hmethod,
          haddress, ?_, hport, hself⟩
        rw [hid]
        exact congrArg some (of_decide_eq_true hderives)
    · exact absurd h (not_faults_pure _)
  · rintro ⟨hbuffer, query, address, port, hparse, hmethod, haddress, hid,
      hport, hself⟩
    have hderives : network.derives ⟨(network.sha3256 address).text, address,
        port, query.args⟩ = true := decide_eq_true rfl
    refine ⟨some ⟨(network.sha3256 address).text, address, port, query.args⟩,
      readSender_eq_some.mpr ⟨hbuffer, query, hparse, hmethod, haddress, hid,
        hport, rfl⟩, ?_⟩
    dsimp only
    rw [if_pos hderives]
    exact (admitPeer_outOfBounds_iff hannounce hderives).mpr hself

theorem onMap_inside {buffer : List UInt8} {senderDest : String} :
    ¬ Faults .outOfBounds (onMap network buffer senderDest) node := by
  rw [onMap, faults_get_bind, faults_ofExcept_bind,
    or_iff_right readSender_ne_outOfBounds]
  rintro ⟨sender, -, h⟩
  cases sender with
  | none => exact not_faults_pure _ h
  | some sender =>
  dsimp only at h
  split at h
  · exact not_faults_pure _ h
  · split at h
    · next key _ _ =>
        obtain ⟨after, h⟩ := h
        cases h
    · exact not_faults_pure _ h

end Messages

/-! ## Runs -/

section Runs

variable {network : Network} {node : LocalNode} {event : TableEvent}

theorem faults_onRoutingTable
    {call : RoutingTable → Except Fault (Bool × RoutingTable)} {fault : Fault} :
    Faults fault (onRoutingTable call) node ↔
      call node.routingTable = .error fault := by
  rw [onRoutingTable, faults_get_bind, faults_ofExcept_bind]
  refine or_iff_left ?_
  rintro ⟨⟨answer, routingTable⟩, -, after, h⟩
  cases h

theorem faults_outOfBounds_iff
    (hannounce : network.AnnouncesInside) :
    Faults .outOfBounds (event.exec network) node ↔
      event.NamesSelf network node.networkType node.routingTable.id := by
  cases event with
  | hasNode hex =>
      rw [TableEvent.exec, faults_get_bind, faults_ofExcept]
      exact hasNode_outOfBounds_iff network.uninitialized
  | getNode hex =>
      rw [TableEvent.exec, faults_get_bind, faults_ofExcept_bind,
        or_iff_left (by rintro ⟨found, -, h⟩; exact not_faults_pure _ h)]
      exact getNode_outOfBounds_iff network.uninitialized
  | removeNode hex =>
      rw [TableEvent.exec, faults_onRoutingTable]
      exact removeNode_outOfBounds_iff network.uninitialized
  | query buffer senderDest =>
      rw [TableEvent.exec, faults_bind, or_iff_left]
      · exact onPing_outOfBounds_iff hannounce
      · rintro ⟨-, middle, -, h⟩
        rcases faults_bind.mp h with hmap | ⟨-, after, -, h⟩
        · exact onMap_inside hmap
        · exact not_faults_pure _ h
  | findNodeReply nodesMessage =>
      rw [TableEvent.exec, faults_get_bind, faults_ofExcept_bind,
        or_iff_left (by rintro ⟨found, -, h⟩; exact not_faults_pure _ h)]
      exact sendFindNode_outOfBounds_iff nodesMessage
  | addNode address port =>
      rw [TableEvent.exec, faults_onRoutingTable]
      obtain ⟨added, next, hadd, -⟩ := addNode_inside network.uninitialized
        network.sha3256 node.routingTable address port
      exact iff_of_false (by rw [hadd]; nofun) id

/-- A call that names no own id has nothing to report about it. -/
theorem inside_iff
    (hannounce : network.AnnouncesInside) :
    event.Inside network node ↔
      ¬ event.NamesSelf network node.networkType node.routingTable.id := by
  constructor
  · intro h
    rw [← faults_outOfBounds_iff hannounce]
    exact h.bounds
  · intro hother
    refine ⟨fun h => hother ((faults_outOfBounds_iff hannounce).mp h), ?_⟩
    intro hex hlooked hself
    cases event with
    | hasNode | getNode | removeNode =>
        exact absurd (Option.some.inj hlooked ▸ hself) hother
    | query | findNodeReply | addNode => cases hlooked

/-- The own id and the network are as they were. -/
def SameSelf (node after : LocalNode) : Prop :=
  after.routingTable.id = node.routingTable.id ∧
    after.networkType = node.networkType

instance : IsPreorder LocalNode SameSelf where
  refl _ := ⟨rfl, rfl⟩
  trans _ _ _ hfirst hsecond :=
    ⟨hsecond.1.trans hfirst.1, hsecond.2.trans hfirst.2⟩

theorem sameSelf_onRoutingTable
    {call : RoutingTable → Except Fault (Bool × RoutingTable)}
    (hcall : ∀ table answer next, call table = .ok (answer, next) →
      next.id = table.id) :
    Relates SameSelf (onRoutingTable call) := by
  intro node
  cases hresult : call node.routingTable with
  | error fault =>
      have hrun : stateAfter (onRoutingTable call) node = node := by
        simp only [onRoutingTable, stateAfter, run_get_bind, hresult]
        rfl
      rw [hrun]
      exact ⟨rfl, rfl⟩
  | ok found =>
      obtain ⟨answer, next⟩ := found
      have hrun : stateAfter (onRoutingTable call) node =
          { node with routingTable := next } := by
        simp only [onRoutingTable, stateAfter, run_get_bind, hresult]
        rfl
      rw [hrun]
      exact ⟨hcall _ _ _ hresult, rfl⟩

theorem id_admittedTable {sender : Sender} {routingTable : RoutingTable}
    (h : network.admittedTable node sender = .ok routingTable) :
    routingTable.id = node.routingTable.id := by
  obtain ⟨hasNode, -, h⟩ := bind_eq_ok.mp h
  cases hasNode with
  | true => exact congrArg RoutingTable.id (Except.ok.inj h).symm
  | false =>
  obtain ⟨hardcoded, -, h⟩ := bind_eq_ok.mp h
  cases hardcoded with
  | true => exact congrArg RoutingTable.id (Except.ok.inj h).symm
  | false =>
  obtain ⟨added, next, hadd, hid⟩ := addNode_inside network.uninitialized
    network.sha3256 node.routingTable sender.address sender.port
  obtain ⟨found, hfound, h⟩ := bind_eq_ok.mp h
  obtain rfl := Except.ok.inj (hadd.symm.trans hfound)
  rw [← hid]
  exact congrArg RoutingTable.id (Except.ok.inj h).symm

theorem sameSelf_onPing (buffer : List UInt8) (senderDest : String) :
    Relates SameSelf (onPing network buffer senderDest) := by
  intro node
  have hcases : stateAfter (onPing network buffer senderDest) node = node ∨ _ :=
    onPing_cases
  rcases hcases with hsame | ⟨sender, -, -, hafter⟩
  · rw [hsame]
    exact ⟨rfl, rfl⟩
  rw [hafter, stateAfter_admitPeer]
  cases htable : network.admittedTable node sender with
  | error fault => exact ⟨rfl, rfl⟩
  | ok routingTable => exact ⟨id_admittedTable htable, rfl⟩

theorem sameSelf_onMap (buffer : List UInt8) (senderDest : String) :
    Relates SameSelf (onMap network buffer senderDest) := by
  intro node
  refine ⟨congrArg RoutingTable.id routingTable_onMap, ?_⟩
  have hcases : stateAfter (onMap network buffer senderDest) node = node ∨ _ :=
    onMap_cases
  rcases hcases with hsame | ⟨sender, key, -, -, hafter⟩
  · rw [hsame]
  · rw [hafter, addProvider, stateAfter_modify]
    dsimp only
    split <;> rfl

variable (network) in
theorem sameSelf_exec (event : TableEvent) :
    Relates SameSelf (event.exec network) := by
  cases event with
  | hasNode hex => exact relates_bind relates_get fun _ => relates_ofExcept _
  | getNode hex =>
      exact relates_bind relates_get fun _ =>
        relates_bind_pure (relates_ofExcept _)
  | removeNode hex =>
      exact sameSelf_onRoutingTable fun _ _ _ =>
        id_removeNode network.uninitialized
  | query buffer senderDest =>
      exact relates_bind (sameSelf_onPing buffer senderDest) fun _ =>
        relates_bind_pure (sameSelf_onMap buffer senderDest)
  | findNodeReply nodesMessage =>
      exact relates_bind relates_get fun _ =>
        relates_bind_pure (relates_ofExcept _)
  | addNode address port =>
      rw [TableEvent.exec]
      refine sameSelf_onRoutingTable fun table answer next hcall => ?_
      obtain ⟨added, after, hadd, hid⟩ := addNode_inside network.uninitialized
        network.sha3256 table address port
      rw [hadd] at hcall
      obtain ⟨-, rfl⟩ := Prod.mk.inj (Except.ok.inj hcall)
      exact hid

/--
A run stays in the array of buckets, and reports the own id as absent, exactly
when nothing in it names the own id: no call, no ping under an address that the
own id is the hash of, and no reply to `find_node` that lists one.
-/
theorem staysInside_iff (network : Network)
    (hannounce : network.AnnouncesInside)
    (node : LocalNode) (events : List TableEvent) :
    StaysInside network node events ↔
      ∀ event ∈ events,
        ¬ event.NamesSelf network node.networkType node.routingTable.id := by
  induction events generalizing node with
  | nil => exact iff_of_true trivial (by simp)
  | cons event events ih =>
      obtain ⟨hid, hnetwork⟩ := sameSelf_exec network event node
      rw [StaysInside, List.forall_mem_cons, inside_iff hannounce, ih, hid,
        hnetwork]

end Runs

/-! ## A node that hears of itself -/

/-- The address of the node comes back in a list of nodes. -/
def selfReply : Response :=
  ⟨"1.0", ⟨∅, [⟨reticulumAddress, 50881, "", 0, 0⟩]⟩, "a1b2"⟩

def selfReplyBytes : List UInt8 :=
  lengthDelimited 2 (stringField 1 "1.0" ++
    lengthDelimited 2 (lengthDelimited 2
      (stringField 1 reticulumAddress ++ 16 :: varint 10 50881)) ++
    stringField 3 "a1b2")

def selfNetwork : Network where
  parseFromArray bytes :=
    if bytes = selfReplyBytes then some (.response selfReply) else none
  sha3256 address := if address = "" then emptyHex else reticulumHex
  toI2pAddress destination := destination
  bootstrapNodes _ := []
  uninitialized := .zero
  announce _ _ := .ok ()

def namedNode : LocalNode :=
  { lonelyNode with
    id := reticulumHex.text
    address := reticulumAddress
    networkType := .reticulum
    routingTable := .create reticulumHex.xorId }

theorem parse_selfReplyBytes :
    selfNetwork.parseFromArray selfReplyBytes = some (.response selfReply) := by
  simp [selfNetwork]

theorem sha3256_reticulumAddress :
    selfNetwork.sha3256 reticulumAddress = reticulumHex := by
  simp [selfNetwork, reticulumAddress]

/-- There is no bucket for the own id, looked up or listed in a reply. -/
theorem own_id_leaves_array :
    ¬ StaysInside selfNetwork namedNode [.hasNode reticulumHex] ∧
      ¬ StaysInside selfNetwork namedNode [.getNode reticulumHex] ∧
      ¬ StaysInside selfNetwork namedNode [.removeNode reticulumHex] ∧
      ¬ StaysInside selfNetwork namedNode [.findNodeReply selfReplyBytes] := by
  have hleaves {event : TableEvent}
      (hself : event.NamesSelf selfNetwork .reticulum reticulumHex.xorId) :
      ¬ StaysInside selfNetwork namedNode [event] := fun h =>
    (inside_iff (fun _ _ => by nofun)).mp h.1 hself
  exact ⟨hleaves rfl, hleaves rfl, hleaves rfl,
    hleaves ⟨selfReply, parse_selfReplyBytes, _, List.mem_singleton.mpr rfl,
      congrArg NodeIdHex.xorId sha3256_reticulumAddress⟩⟩

/-- Another node may come in through a reply and leave again. -/
theorem staysInside_listening :
    StaysInside selfNetwork (listeningNode .reticulum)
      [.findNodeReply selfReplyBytes, .addNode reticulumAddress 50881,
        .hasNode reticulumHex, .removeNode reticulumHex] := by
  refine (staysInside_iff selfNetwork (fun _ _ => by nofun) _ _).mpr ?_
  have hother : reticulumHex.xorId ≠ XorId.zero := by decide
  intro event hevent hself
  simp only [List.mem_cons, List.not_mem_nil, or_false] at hevent
  rcases hevent with rfl | rfl | rfl | rfl
  · obtain ⟨response, hparse, nodeInfo, hmem, hid⟩ := hself
    rw [parse_selfReplyBytes, Option.some.injEq,
      DhtMessage.response.injEq] at hparse
    subst hparse
    obtain rfl := List.mem_singleton.mp hmem
    rw [sha3256_reticulumAddress] at hid
    exact hother hid
  · exact hself
  · exact hother hself
  · exact hother hself

end Neroshop.Rpc
