import Neroshop.Node.Heartbeat
import Neroshop.Rpc.Providers
import Neroshop.Rpc.Reply
import Neroshop.Rpc.Wire

/-!
# Admitting peers

`on_ping` puts the sender of a ping into the routing table, and `on_map` makes
the sender of a map message a provider of its key.  Both take the id that the
message claims for true when it is the hash of the address of the sender, and
both have the address from what the network reports, which the switch over the
networks leaves out for Reticulum.
-/

namespace Neroshop.Rpc

open Neroshop.Foundation Neroshop.Node Neroshop.Routing

/-! ## Ports -/

/-- `isspace` of the C locale. -/
def isSpace (c : Char) : Bool := c = ' ' ∨ 9 ≤ c.toNat ∧ c.toNat ≤ 13

def digitsValue (digits : List Char) : Nat :=
  digits.foldl (fun value c => 10 * value + (c.toNat - '0'.toNat)) 0

/-- What follows the sign of a number, and whether it is negative. -/
def splitSign : List Char → Bool × List Char
  | '-' :: rest => (true, rest)
  | '+' :: rest => (false, rest)
  | rest => (false, rest)

/-- `std::stoi`, which throws where there is no number or no `int`. -/
def stoi (text : String) : Option Int :=
  let (negative, rest) := splitSign (text.toList.dropWhile isSpace)
  let digits := rest.takeWhile Char.isDigit
  let value : Int := digitsValue digits
  let number := if negative then -value else value
  if digits = [] then none
  else if -2 ^ 31 ≤ number ∧ number < 2 ^ 31 then some number
  else none

/-- `NEROSHOP_P2P_DEFAULT_PORT`. -/
def defaultPort : Nat := 50881

/-- The port is cast to 16 bits. -/
def senderPort (args : StringMap) : Option Nat :=
  match args.lookup "port" with
  | none => some defaultPort
  | some port => (stoi port).map fun number => (number % 2 ^ 16).toNat

/-! ## The callbacks -/

/-- What the callbacks depend on outside the node. -/
structure Network where
  parseFromArray : List UInt8 → Option DhtMessage
  sha3256 : String → NodeIdHex
  toI2pAddress : String → String
  bootstrapNodes : NetworkType → List (String × Nat)
  uninitialized : XorId
  /-- `persist_routing_table` and `send_map_v2`, which may throw. -/
  announce : String → Nat → Except Fault Unit

structure Sender where
  id : String
  address : String
  port : Nat
  args : StringMap

/-- The switch over the networks; the address stays empty where it has no
case. -/
def Network.senderAddress (network : Network) (senderDest : String) :
    NetworkType → Except Fault String
  | .i2p =>
      if senderDest = "" then .error .assertionFailed
      else .ok (network.toI2pAddress senderDest)
  | .tor => .ok senderDest
  | .reticulum => .ok ""
  | .clearnet => .ok ""

section Callbacks

variable (network : Network)

/-- The part that both callbacks begin with. -/
def Network.readSender (method : String) (networkType : NetworkType)
    (buffer : List UInt8) (senderDest : String) :
    Except Fault (Option Sender) :=
  if buffer = [] then return none
  else match network.parseFromArray buffer with
    | some (.query query) =>
        if query.query ≠ method then return none
        else do
          let address ← network.senderAddress senderDest networkType
          match query.args.lookup "id", senderPort query.args with
          | some id, some port => return some ⟨id, address, port, query.args⟩
          | _, _ => return none
    | _ => return none

/-- No node runs on the clearnet, which has no list of seeds. -/
def Network.isHardcodedOn (networkType : NetworkType) (address : String)
    (port : Nat) : Except Fault Bool :=
  if networkType = .clearnet then .error .runtimeError
  else .ok (Health.isHardcodedAt (network.bootstrapNodes networkType) address
    port)

def Network.derives (sender : Sender) : Bool :=
  sender.id = (network.sha3256 sender.address).text

/-- A sender whose id is the hash of its address. -/
def admitPeer (node : LocalNode) (sender : Sender) : NodeCall Unit := do
  let hasNode ← MonadExcept.ofExcept (node.routingTable.hasNode
    network.uninitialized sender.id)
  if hasNode then return
  let hardcoded ← MonadExcept.ofExcept (network.isHardcodedOn node.networkType
    sender.address sender.port)
  if hardcoded then return
  let (_, routingTable) ← MonadExcept.ofExcept (node.routingTable.addNode
    network.uninitialized
    (.ofAddress network.sha3256 sender.address sender.port))
  set { node with routingTable := routingTable }
  MonadExcept.ofExcept (network.announce sender.address sender.port)

def onPing (buffer : List UInt8) (senderDest : String) : NodeCall Unit := do
  let node ← get
  let sender ← MonadExcept.ofExcept (network.readSender "ping"
    node.networkType buffer senderDest)
  match sender with
  | none => return
  | some sender => if network.derives sender then admitPeer network node sender

def onMap (buffer : List UInt8) (senderDest : String) : NodeCall Unit := do
  let node ← get
  let sender ← MonadExcept.ofExcept (network.readSender "map"
    node.networkType buffer senderDest)
  match sender with
  | none => return
  | some sender =>
      match sender.args.lookup "key" with
      | none => return
      | some key =>
          if network.derives sender then
            addProvider key ⟨sender.address, sender.port⟩

end Callbacks

/-! ## What is asked of the callbacks -/

section Law

variable (network : Network)

/-- The address under which the network knows the sender. -/
def Network.addressOf (senderDest : String) : NetworkType → String
  | .i2p => network.toI2pAddress senderDest
  | _ => senderDest

/-- The message claims the id that is the hash of the address of the sender. -/
def Network.Claims (buffer : List UInt8) (address : String) : Prop :=
  ∃ query, network.parseFromArray buffer = some (.query query) ∧
    query.args.lookup "id" = some (network.sha3256 address).text

/-- A peer that comes in has the address of the sender and the id it claims. -/
structure Network.AdmitsOnlyDerived (node after : LocalNode)
    (buffer : List UInt8) (address : String) : Prop where
  nodes : ∀ peer ∈ after.routingTable.getNodes,
    peer ∉ node.routingTable.getNodes →
      peer.address = address ∧ network.Claims buffer address
  providers : ∀ key, ∀ peer ∈ after.getProviders key,
    peer ∉ node.getProviders key →
      peer.address = address ∧ network.Claims buffer address

/-- A well-formed ping of a peer that claims the hash of its address. -/
structure Network.Genuine (buffer : List UInt8) (senderDest : String)
    (networkType : NetworkType) (port : Nat) : Prop where
  delivered : buffer ≠ [] ∧ senderDest ≠ ""
  ping : ∃ query, network.parseFromArray buffer = some (.query query) ∧
    query.query = "ping" ∧ senderPort query.args = some port ∧
    query.args.lookup "id" =
      some (network.sha3256 (network.addressOf senderDest networkType)).text

/-- The table does not know the peer, and has room for it. -/
structure Network.Unknown (node : LocalNode) (address : String) (port : Nat) :
    Prop where
  absent : ∀ peer ∈ node.routingTable.getNodes,
    peer.id ≠ (network.sha3256 address).text
  notSeed : (address, port) ∉ network.bootstrapNodes node.networkType
  notSelf : (network.sha3256 address).xorId ≠ node.routingTable.id
  room : ∀ i : Fin 256, xorDistanceBitIndex node.routingTable.id
      (network.sha3256 address).xorId = i →
    (node.routingTable.buckets i).length < nodesPerBucket

structure Network.Admission (node : LocalNode) (buffer : List UInt8)
    (senderDest : String) : Prop where
  ping : network.AdmitsOnlyDerived node
    (stateAfter (onPing network buffer senderDest) node) buffer
    (network.addressOf senderDest node.networkType)
  map : network.AdmitsOnlyDerived node
    (stateAfter (onMap network buffer senderDest) node) buffer
    (network.addressOf senderDest node.networkType)
  genuine : ∀ port,
    network.Genuine buffer senderDest node.networkType port →
    network.Unknown node (network.addressOf senderDest node.networkType) port →
      .ofAddress network.sha3256
          (network.addressOf senderDest node.networkType) port ∈
        (stateAfter (onPing network buffer senderDest)
          node).routingTable.getNodes

end Law

/-! ## What the callbacks do -/

section Calls

variable {network : Network} {node : LocalNode} {buffer : List UInt8}
  {senderDest : String}

theorem stateAfter_ofExcept_bind {Value : Type} (result : Except Fault Value)
    (next : Value → NodeCall Unit) :
    stateAfter (MonadExcept.ofExcept result >>= next) node =
      match result with
      | .ok value => stateAfter (next value) node
      | .error _ => node := by
  cases result <;> rfl

theorem stateAfter_onPing :
    stateAfter (onPing network buffer senderDest) node =
      match network.readSender "ping" node.networkType buffer senderDest with
      | .ok (some sender) =>
          if network.derives sender then
            stateAfter (admitPeer network node sender) node
          else node
      | _ => node := by
  change stateAfter (MonadExcept.ofExcept _ >>= _) node = _
  rw [stateAfter_ofExcept_bind]
  cases network.readSender "ping" node.networkType buffer senderDest with
  | error fault => rfl
  | ok sender =>
      cases sender with
      | none => rfl
      | some sender =>
          dsimp only
          split <;> rfl

theorem stateAfter_onPing_of_read {sender : Sender}
    (hread : network.readSender "ping" node.networkType buffer senderDest =
      .ok (some sender)) (hderives : network.derives sender = true) :
    stateAfter (onPing network buffer senderDest) node =
      stateAfter (admitPeer network node sender) node := by
  rw [stateAfter_onPing, hread]
  exact if_pos hderives

theorem stateAfter_onMap :
    stateAfter (onMap network buffer senderDest) node =
      match network.readSender "map" node.networkType buffer senderDest with
      | .ok (some sender) =>
          match sender.args.lookup "key" with
          | some key =>
              if network.derives sender then
                stateAfter (addProvider key ⟨sender.address, sender.port⟩) node
              else node
          | none => node
      | _ => node := by
  change stateAfter (MonadExcept.ofExcept _ >>= _) node = _
  rw [stateAfter_ofExcept_bind]
  cases network.readSender "map" node.networkType buffer senderDest with
  | error fault => rfl
  | ok sender =>
      cases sender with
      | none => rfl
      | some sender =>
          dsimp only
          cases sender.args.lookup "key" with
          | none => rfl
          | some key =>
              dsimp only
              split <;> rfl

/-- A ping that does not admit its sender leaves the node as it is. -/
theorem onPing_cases :
    stateAfter (onPing network buffer senderDest) node = node ∨
      ∃ sender, network.readSender "ping" node.networkType buffer senderDest =
          .ok (some sender) ∧ network.derives sender = true ∧
        stateAfter (onPing network buffer senderDest) node =
          stateAfter (admitPeer network node sender) node := by
  rw [stateAfter_onPing]
  cases network.readSender "ping" node.networkType buffer senderDest with
  | error fault => exact .inl rfl
  | ok sender =>
  cases sender with
  | none => exact .inl rfl
  | some sender =>
  dsimp only
  by_cases hderives : network.derives sender = true
  · rw [if_pos hderives]
    exact .inr ⟨sender, rfl, hderives, rfl⟩
  · rw [if_neg hderives]
    exact .inl rfl

theorem onMap_cases :
    stateAfter (onMap network buffer senderDest) node = node ∨
      ∃ sender key,
        network.readSender "map" node.networkType buffer senderDest =
          .ok (some sender) ∧ network.derives sender = true ∧
        stateAfter (onMap network buffer senderDest) node =
          stateAfter (addProvider key ⟨sender.address, sender.port⟩) node := by
  rw [stateAfter_onMap]
  cases network.readSender "map" node.networkType buffer senderDest with
  | error fault => exact .inl rfl
  | ok sender =>
  cases sender with
  | none => exact .inl rfl
  | some sender =>
  dsimp only
  cases sender.args.lookup "key" with
  | none => exact .inl rfl
  | some key =>
  dsimp only
  by_cases hderives : network.derives sender = true
  · rw [if_pos hderives]
    exact .inr ⟨sender, key, rfl, hderives, rfl⟩
  · rw [if_neg hderives]
    exact .inl rfl

theorem readSender_eq_some {method : String} {networkType : NetworkType}
    {sender : Sender} :
    network.readSender method networkType buffer senderDest =
        .ok (some sender) ↔
      buffer ≠ [] ∧ ∃ query,
        network.parseFromArray buffer = some (.query query) ∧
          query.query = method ∧
          network.senderAddress senderDest networkType = .ok sender.address ∧
          query.args.lookup "id" = some sender.id ∧
          senderPort query.args = some sender.port ∧
          query.args = sender.args := by
  rw [Network.readSender]
  by_cases hbuffer : buffer = []
  · rw [if_pos hbuffer]
    exact iff_of_false nofun fun h => h.1 hbuffer
  rw [if_neg hbuffer]
  cases hparse : network.parseFromArray buffer with
  | none => exact iff_of_false nofun (by simp)
  | some message =>
      cases message with
      | notSet => exact iff_of_false nofun (by simp)
      | response reply => exact iff_of_false nofun (by simp)
      | error info => exact iff_of_false nofun (by simp)
      | query query =>
          simp only [Option.some.injEq, DhtMessage.query.injEq,
            exists_eq_left', hbuffer, not_false_eq_true, true_and, ne_eq]
          by_cases hmethod : query.query = method
          · rw [if_neg (not_not_intro hmethod), bind_eq_ok]
            obtain ⟨id, address, port, args⟩ := sender
            cases query.args.lookup "id" with
            | none => simp [pure, Except.pure]
            | some found =>
                cases senderPort query.args with
                | none => simp [pure, Except.pure]
                | some number => simp [pure, Except.pure, hmethod]
          · rw [if_pos hmethod]
            exact iff_of_false nofun fun h => hmethod h.1

/-- The table that `add_node` leaves, if it is called. -/
def Network.admittedTable (network : Network) (node : LocalNode)
    (sender : Sender) : Except Fault RoutingTable := do
  let hasNode ← node.routingTable.hasNode network.uninitialized sender.id
  if hasNode then return node.routingTable
  let hardcoded ← network.isHardcodedOn node.networkType sender.address
    sender.port
  if hardcoded then return node.routingTable
  let (_, routingTable) ← node.routingTable.addNode network.uninitialized
    (.ofAddress network.sha3256 sender.address sender.port)
  return routingTable

theorem stateAfter_admitPeer (sender : Sender) :
    stateAfter (admitPeer network node sender) node =
      match network.admittedTable node sender with
      | .ok routingTable => { node with routingTable := routingTable }
      | .error _ => node := by
  rw [admitPeer, Network.admittedTable, stateAfter_ofExcept_bind]
  cases node.routingTable.hasNode network.uninitialized sender.id with
  | error fault => rfl
  | ok hasNode =>
  cases hasNode with
  | true => rfl
  | false =>
  change stateAfter (MonadExcept.ofExcept _ >>= _) node = _
  rw [stateAfter_ofExcept_bind]
  cases network.isHardcodedOn node.networkType sender.address sender.port with
  | error fault => rfl
  | ok hardcoded =>
  cases hardcoded with
  | true => rfl
  | false =>
  change stateAfter (MonadExcept.ofExcept _ >>= _) node = _
  rw [stateAfter_ofExcept_bind]
  cases node.routingTable.addNode network.uninitialized
      (.ofAddress network.sha3256 sender.address sender.port) with
  | error fault => rfl
  | ok added =>
      change stateAfter (MonadExcept.ofExcept _)
        { node with routingTable := added.2 } = _
      cases network.announce sender.address sender.port <;> rfl

/-- At most the sender itself comes into the table. -/
theorem mem_admittedTable (hsound : Sound network.sha3256 node.routingTable)
    {sender : Sender} {routingTable : RoutingTable}
    (htable : network.admittedTable node sender = .ok routingTable)
    {peer : RemoteNode} (hpeer : peer ∈ routingTable.getNodes)
    (hnew : peer ∉ node.routingTable.getNodes) :
    peer = .ofAddress network.sha3256 sender.address sender.port := by
  obtain ⟨hasNode, -, htable⟩ := bind_eq_ok.mp htable
  cases hasNode with
  | true =>
      obtain rfl := Except.ok.inj htable
      exact absurd hpeer hnew
  | false =>
  obtain ⟨hardcoded, -, htable⟩ := bind_eq_ok.mp htable
  cases hardcoded with
  | true =>
      obtain rfl := Except.ok.inj htable
      exact absurd hpeer hnew
  | false =>
  obtain ⟨⟨added, after⟩, hadd, htable⟩ := bind_eq_ok.mp htable
  obtain rfl := Except.ok.inj htable
  obtain ⟨result, next, hnext, hadds, -⟩ := hsound.addNode
    network.uninitialized sender.address sender.port
  rw [hadd, Except.ok.injEq, Prod.mk.injEq] at hnext
  obtain ⟨rfl, rfl⟩ := hnext
  cases added with
  | false =>
      rw [hadds.refused rfl] at hpeer
      exact absurd hpeer hnew
  | true =>
      have hmem := (hadds.added rfl).mem_iff.mp hpeer
      exact (List.mem_cons.mp hmem).resolve_right hnew

theorem admittedTable_of_unknown
    (hsound : Sound network.sha3256 node.routingTable) {sender : Sender}
    (hnetwork : node.networkType ≠ .clearnet)
    (hid : sender.id = (network.sha3256 sender.address).text)
    (hunknown : network.Unknown node sender.address sender.port) :
    ∃ routingTable, network.admittedTable node sender = .ok routingTable ∧
      .ofAddress network.sha3256 sender.address sender.port ∈
        routingTable.getNodes := by
  have hhas : node.routingTable.hasNode network.uninitialized sender.id =
      .ok false := by
    obtain ⟨found, hfound, hiff⟩ := hsound.consistent.hasId
      network.uninitialized _ hunknown.notSelf
    rw [hid, hfound]
    cases found with
    | false => rfl
    | true =>
        obtain ⟨peer, hpeer, hsame⟩ := hiff.mp rfl
        exact absurd hsame (hunknown.absent peer hpeer)
  have hseed : network.isHardcodedOn node.networkType sender.address
      sender.port = .ok false := by
    rw [Network.isHardcodedOn, if_neg hnetwork, Health.isHardcodedAt]
    exact congrArg Except.ok (decide_eq_false hunknown.notSeed)
  obtain ⟨result, routingTable, hadd, hadds, -⟩ := hsound.addNode
    network.uninitialized sender.address sender.port
  have hresult : result = true :=
    hadds.accepts.mpr ⟨hunknown.absent, hunknown.notSelf, hunknown.room⟩
  refine ⟨routingTable, ?_, ?_⟩
  · rw [Network.admittedTable, hhas]
    change (do
      let hardcoded ← network.isHardcodedOn _ _ _
      _) = _
    rw [hseed]
    change (do
      let (_, routingTable) ← node.routingTable.addNode _ _
      _) = _
    rw [hadd]
    rfl
  · exact (hadds.added hresult).mem_iff.mpr List.mem_cons_self

theorem mem_onPing (hsound : Sound network.sha3256 node.routingTable)
    {peer : RemoteNode}
    (hpeer : peer ∈ (stateAfter (onPing network buffer senderDest)
      node).routingTable.getNodes)
    (hnew : peer ∉ node.routingTable.getNodes) :
    ∃ sender, network.readSender "ping" node.networkType buffer senderDest =
        .ok (some sender) ∧ network.derives sender = true ∧
      peer = .ofAddress network.sha3256 sender.address sender.port := by
  rcases onPing_cases with hsame | ⟨sender, hread, hderives, hafter⟩
  · rw [hsame] at hpeer
    exact absurd hpeer hnew
  rw [hafter, stateAfter_admitPeer] at hpeer
  cases htable : network.admittedTable node sender with
  | error fault =>
      rw [htable] at hpeer
      exact absurd hpeer hnew
  | ok routingTable =>
      rw [htable] at hpeer
      exact ⟨sender, hread, hderives,
        mem_admittedTable hsound htable hpeer hnew⟩

theorem getProviders_onPing (key : String) :
    (stateAfter (onPing network buffer senderDest) node).getProviders key =
      node.getProviders key := by
  rcases onPing_cases with hsame | ⟨sender, -, -, hafter⟩
  · rw [hsame]
  · rw [hafter, stateAfter_admitPeer]
    cases network.admittedTable node sender <;> rfl

theorem mem_onMap {key : String} {peer : Provider}
    (hpeer : peer ∈ (stateAfter (onMap network buffer senderDest)
      node).getProviders key)
    (hnew : peer ∉ node.getProviders key) :
    ∃ sender, network.readSender "map" node.networkType buffer senderDest =
        .ok (some sender) ∧ network.derives sender = true ∧
      peer = ⟨sender.address, sender.port⟩ := by
  rcases onMap_cases with hsame | ⟨sender, named, hread, hderives, hafter⟩
  · rw [hsame] at hpeer
    exact absurd hpeer hnew
  rw [hafter, getProviders_addProvider] at hpeer
  refine ⟨sender, hread, hderives, ?_⟩
  split_ifs at hpeer with hknown hsame
  · exact absurd hpeer hnew
  · rw [hsame] at hnew
    exact (List.mem_append.mp hpeer).elim (fun hold => absurd hold hnew)
      List.mem_singleton.mp
  · exact absurd hpeer hnew

theorem routingTable_onMap :
    (stateAfter (onMap network buffer senderDest) node).routingTable =
      node.routingTable := by
  rcases onMap_cases with hsame | ⟨sender, key, -, -, hafter⟩
  · rw [hsame]
  · rw [hafter, addProvider, stateAfter_modify]
    dsimp only
    split <;> rfl

end Calls

/-! ## The networks -/

section Networks

variable {network : Network} {node : LocalNode} {buffer : List UInt8}
  {senderDest : String} {networkType : NetworkType}

/-- The networks for which the switch has a case. -/
def Covered (networkType : NetworkType) : Prop :=
  networkType = .i2p ∨ networkType = .tor

theorem senderAddress_covered (hcovered : Covered networkType)
    {address : String}
    (haddress : network.senderAddress senderDest networkType = .ok address) :
    address = network.addressOf senderDest networkType := by
  rcases hcovered with rfl | rfl
  · rw [Network.senderAddress] at haddress
    split at haddress
    · cases haddress
    · exact (Except.ok.inj haddress).symm
  · exact (Except.ok.inj haddress).symm

theorem senderAddress_of_delivered (hcovered : Covered networkType)
    (hdelivered : senderDest ≠ "") :
    network.senderAddress senderDest networkType =
      .ok (network.addressOf senderDest networkType) := by
  rcases hcovered with rfl | rfl
  · exact if_neg hdelivered
  · rfl

/-- The sender that a callback has read is the one the network reports. -/
theorem readSender_covered (hcovered : Covered networkType) {method : String}
    {sender : Sender}
    (hread : network.readSender method networkType buffer senderDest =
      .ok (some sender)) (hderives : network.derives sender = true) :
    sender.address = network.addressOf senderDest networkType ∧
      network.Claims buffer (network.addressOf senderDest networkType) := by
  obtain ⟨-, query, hparse, -, haddress, hid, -⟩ := readSender_eq_some.mp hread
  have hsame := senderAddress_covered hcovered haddress
  refine ⟨hsame, query, hparse, ?_⟩
  rw [hid, ← hsame]
  exact congrArg some (of_decide_eq_true hderives)

theorem admission_of_covered (hcovered : Covered node.networkType)
    (hsound : Sound network.sha3256 node.routingTable) :
    network.Admission node buffer senderDest where
  ping := {
    nodes := by
      intro peer hpeer hnew
      obtain ⟨sender, hread, hderives, rfl⟩ := mem_onPing hsound hpeer hnew
      exact readSender_covered hcovered hread hderives
    providers := by
      intro key peer hpeer hnew
      rw [getProviders_onPing] at hpeer
      exact absurd hpeer hnew }
  map := {
    nodes := by
      intro peer hpeer hnew
      rw [routingTable_onMap] at hpeer
      exact absurd hpeer hnew
    providers := by
      intro key peer hpeer hnew
      obtain ⟨sender, hread, hderives, rfl⟩ := mem_onMap hpeer hnew
      exact readSender_covered hcovered hread hderives }
  genuine := by
    intro port hgenuine hunknown
    obtain ⟨query, hparse, hmethod, hport, hid⟩ := hgenuine.ping
    have hnetwork : node.networkType ≠ .clearnet := by
      rcases hcovered with h | h <;> rw [h] <;> decide
    have haddress : network.senderAddress senderDest node.networkType =
        .ok (network.addressOf senderDest node.networkType) :=
      senderAddress_of_delivered hcovered hgenuine.delivered.2
    generalize network.addressOf senderDest node.networkType = address at *
    have hread : network.readSender "ping" node.networkType buffer senderDest =
        .ok (some ⟨(network.sha3256 address).text, address, port,
          query.args⟩) :=
      readSender_eq_some.mpr ⟨hgenuine.delivered.1, query, hparse, hmethod,
        haddress, hid, hport, rfl⟩
    obtain ⟨routingTable, htable, hmem⟩ : ∃ routingTable,
        network.admittedTable node
            ⟨(network.sha3256 address).text, address, port, query.args⟩ =
              .ok routingTable ∧
          .ofAddress network.sha3256 address port ∈ routingTable.getNodes :=
      admittedTable_of_unknown hsound hnetwork rfl hunknown
    have hderives : network.derives
        ⟨(network.sha3256 address).text, address, port, query.args⟩ = true :=
      decide_eq_true rfl
    rw [stateAfter_onPing_of_read hread hderives, stateAfter_admitPeer, htable]
    exact hmem

/-- Where the switch has no case, nobody comes in under an address. -/
theorem address_of_uncovered (huncovered : ¬ Covered networkType)
    {address : String}
    (haddress : network.senderAddress senderDest networkType = .ok address) :
    address = "" := by
  cases networkType with
  | i2p => exact absurd (.inl rfl) huncovered
  | tor => exact absurd (.inr rfl) huncovered
  | reticulum | clearnet => exact (Except.ok.inj haddress).symm

variable (node) in
theorem genuine_refused (huncovered : ¬ Covered node.networkType)
    (hsound : Sound network.sha3256 node.routingTable)
    (haddress : network.addressOf senderDest node.networkType ≠ "") {port : Nat}
    (hnew : .ofAddress network.sha3256
        (network.addressOf senderDest node.networkType) port ∉
      node.routingTable.getNodes) :
    .ofAddress network.sha3256
        (network.addressOf senderDest node.networkType) port ∉
      (stateAfter (onPing network buffer senderDest)
        node).routingTable.getNodes := by
  intro hpeer
  obtain ⟨sender, hread, -, hsame⟩ := mem_onPing hsound hpeer hnew
  obtain ⟨-, query, -, -, hsender, -⟩ := readSender_eq_some.mp hread
  have hempty : sender.address = "" := address_of_uncovered huncovered hsender
  exact haddress ((congrArg RemoteNode.address hsame).trans hempty)

/-- Some peer is there whose pings can be read, and which is not a seed. -/
def Network.Speaks (network : Network) (networkType : NetworkType) : Prop :=
  ∃ buffer senderDest port,
    network.Genuine buffer senderDest networkType port ∧
      (network.addressOf senderDest networkType, port) ∉
        network.bootstrapNodes networkType

/-- Every table that calls can lead to is sound. -/
theorem admission_iff (node : LocalNode)
    (hspeaks : network.Speaks node.networkType) :
    (∀ table, Sound network.sha3256 table → ∀ buffer senderDest,
        network.Admission { node with routingTable := table } buffer
          senderDest) ↔
      Covered node.networkType := by
  constructor
  · intro hadmits
    by_contra huncovered
    obtain ⟨buffer, senderDest, port, hgenuine, hseed⟩ := hspeaks
    have haddress : network.addressOf senderDest node.networkType =
        senderDest := by
      cases hnetwork : node.networkType with
      | i2p => exact absurd (.inl hnetwork) huncovered
      | tor | reticulum | clearnet => rfl
    obtain ⟨own, hown⟩ : ∃ own : XorId,
        (network.sha3256 senderDest).xorId ≠ own :=
      XorId.exists_other _
    have hempty : ∀ peer, peer ∉ (RoutingTable.create own).getNodes := by
      simp [RoutingTable.mem_getNodes, RoutingTable.create]
    have hunknown : network.Unknown { node with routingTable := .create own }
        (network.addressOf senderDest node.networkType) port := {
      absent := fun peer hpeer => absurd hpeer (hempty peer)
      notSeed := hseed
      notSelf := by
        rw [haddress]
        exact hown
      room := fun i _ => by simp [RoutingTable.create, nodesPerBucket] }
    have hdest : network.addressOf senderDest node.networkType ≠ "" := by
      rw [haddress]
      exact hgenuine.delivered.2
    have hsound : Sound network.sha3256
        { node with routingTable := .create own }.routingTable :=
      sound_create own
    have hadmitted := (hadmits _ hsound buffer senderDest).genuine port hgenuine
      hunknown
    exact genuine_refused { node with routingTable := .create own } huncovered
      hsound hdest (hempty _) hadmitted
  · intro hcovered table hsound buffer senderDest
    exact admission_of_covered hcovered hsound

end Networks

/-! ## A ping over Reticulum and over Tor -/

def reticulumAddress : String := "4faf1b2e0a077e6a9d92fa051f256038"

def reticulumHex : NodeIdHex where
  text := "96658316c721fef3f925669fa12bf2ad7732a74453792b0e70fdcd68a2995b42"
  length := by decide +kernel
  digits := by decide +kernel

def emptyHex : NodeIdHex where
  text := "a7ffc6f8bf1ed76651c14756a061d662f580ff4de43b49fa82d80a4b80f8434a"
  length := by decide +kernel
  digits := by decide +kernel

/-- A ping with the id that belongs to the address, and one with the id that
belongs to no address. -/
def genuinePing : WireQuery :=
  ⟨dhtVersion, "ping", [("id", reticulumHex.text), ("port", "50881")], "a1b2"⟩

def namelessPing : WireQuery :=
  ⟨dhtVersion, "ping", [("id", emptyHex.text), ("port", "50881")], "a1b2"⟩

def pingNetwork : Network where
  parseFromArray := WireQuery.parser [genuinePing, namelessPing]
  sha3256 address := if address = "" then emptyHex else reticulumHex
  toI2pAddress destination := destination
  bootstrapNodes _ := []
  uninitialized := .zero
  announce _ _ := .ok ()

def listeningNode (networkType : NetworkType) : LocalNode :=
  { lonelyNode with networkType := networkType }

theorem genuine_genuinePing :
    pingNetwork.Genuine genuinePing.bytes reticulumAddress .reticulum 50881 where
  delivered := by decide
  ping := by
    have hparse : pingNetwork.parseFromArray genuinePing.bytes =
        some (.query genuinePing.toQuery) :=
      WireQuery.parser_bytes_head genuinePing [namelessPing]
    refine ⟨genuinePing.toQuery, hparse, rfl, ?_, ?_⟩
    · decide
    · decide

theorem unknown_listening {address : String} :
    pingNetwork.Unknown (listeningNode .reticulum) address 50881 where
  absent peer hpeer := by
    rw [RoutingTable.mem_getNodes] at hpeer
    exact absurd hpeer.choose_spec List.not_mem_nil
  notSeed := List.not_mem_nil
  notSelf := by
    change (if address = "" then emptyHex else reticulumHex).xorId ≠ .zero
    split
    · decide
    · decide
  room i _ := Nat.zero_lt_of_lt (Nat.lt_succ_self _)

/-- The genuine sender stays out, and one that claims the hash of no address
comes in. -/
theorem reticulum_misadmitted :
    ¬ pingNetwork.Admission (listeningNode .reticulum) genuinePing.bytes
        reticulumAddress ∧
      ¬ pingNetwork.Admission (listeningNode .reticulum) namelessPing.bytes
        reticulumAddress := by
  have huncovered : ¬ Covered (listeningNode .reticulum).networkType := by
    rintro (h | h) <;> cases h
  have hsound : Sound pingNetwork.sha3256
      (listeningNode .reticulum).routingTable := sound_create _
  have hempty : ∀ peer,
      peer ∉ (listeningNode .reticulum).routingTable.getNodes := by
    simp [RoutingTable.mem_getNodes, listeningNode, lonelyNode,
      RoutingTable.create]
  constructor
  · intro hadmits
    exact genuine_refused _ huncovered hsound (by decide) (hempty _)
      (hadmits.genuine 50881 genuine_genuinePing unknown_listening)
  · intro hadmits
    have hread : pingNetwork.readSender "ping" .reticulum namelessPing.bytes
        reticulumAddress =
          .ok (some ⟨emptyHex.text, "", 50881, namelessPing.toQuery.args⟩) := by
      refine readSender_eq_some.mpr ⟨by decide, namelessPing.toQuery,
        ?_, rfl, rfl, ?_, ?_, rfl⟩
      · decide
      · decide
      · decide
    obtain ⟨table, htable, hmem⟩ : ∃ table,
        pingNetwork.admittedTable (listeningNode .reticulum)
            ⟨emptyHex.text, "", 50881, namelessPing.toQuery.args⟩ = .ok table ∧
          .ofAddress pingNetwork.sha3256 "" 50881 ∈ table.getNodes :=
      admittedTable_of_unknown hsound (by decide) rfl unknown_listening
    have hafter : (stateAfter (onPing pingNetwork namelessPing.bytes
        reticulumAddress) (listeningNode .reticulum)).routingTable = table := by
      have hderives : pingNetwork.derives
          ⟨emptyHex.text, "", 50881, namelessPing.toQuery.args⟩ = true :=
        decide_eq_true rfl
      rw [stateAfter_onPing_of_read hread hderives, stateAfter_admitPeer, htable]
    have haddress := (hadmits.ping.nodes _ (hafter ▸ hmem) (hempty _)).1
    exact absurd haddress (by decide)

theorem admission_iff_reticulum :
    (∀ table, Sound pingNetwork.sha3256 table → ∀ buffer senderDest,
        pingNetwork.Admission
          { listeningNode .reticulum with routingTable := table } buffer
          senderDest) ↔
      Covered .reticulum :=
  admission_iff (listeningNode .reticulum) ⟨genuinePing.bytes, reticulumAddress,
    50881, genuine_genuinePing, List.not_mem_nil⟩

end Neroshop.Rpc
