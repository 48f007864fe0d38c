import Neroshop.Foundation.Keyed
import Neroshop.Routing.Closest
import Neroshop.Rpc.Providers
import Neroshop.Rpc.Remote

/-!
# Putting a value to other nodes

`send_put` asks the closest nodes and, where too few of them reply, others that
it looks up in the table as it is by then.  It compares the objects of the
table, so a node that was removed and has come back is another one to it.  The
requests that are sent are recorded beside the node.
-/

namespace Neroshop.Routing

open Neroshop.Foundation

section Changes

variable (sha3256 : String → NodeIdHex)

/-- A call that faults does so in its own thread and leaves the table. -/
def RoutingTable.after (table : RoutingTable) (call : Call) : RoutingTable :=
  (table.step sha3256 call).getD table

def RoutingTable.afterAll (table : RoutingTable) (calls : List Call) :
    RoutingTable :=
  calls.foldl (RoutingTable.after sha3256) table

/-- The object that the table has for the node is there all along. -/
def RoutingTable.keeps (node : RemoteNode) : RoutingTable → List Call → Bool
  | table, [] => node ∈ table.getNodes
  | table, call :: calls =>
      node ∈ table.getNodes && (table.after sha3256 call).keeps node calls

variable {sha3256} {table : RoutingTable}

theorem Sound.after (h : Sound sha3256 table) (call : Call) :
    Sound sha3256 (table.after sha3256 call) := by
  rw [RoutingTable.after, RoutingTable.step]
  by_cases hself : RemovesSelf table.id call.operation
  · rw [exec_self hself]
    exact h
  · obtain ⟨result, next, hexec, -, hnext, -⟩ := h.exec hself
    rw [hexec]
    exact hnext

theorem Sound.afterAll (h : Sound sha3256 table) (calls : List Call) :
    Sound sha3256 (table.afterAll sha3256 calls) := by
  induction calls generalizing table with
  | nil => exact h
  | cons call calls ih => exact ih (h.after call)

/-- Two nodes of a table do not have one address. -/
theorem Sound.addresses_nodup (h : Sound sha3256 table) :
    (table.getNodes.map RemoteNode.address).Nodup := by
  refine List.Nodup.of_map (fun address => (sha3256 address).text) ?_
  rw [List.map_map]
  have hids : table.getNodes.map
      ((fun address => (sha3256 address).text) ∘ RemoteNode.address) =
        table.getNodes.map RemoteNode.id :=
    List.map_congr_left fun node hnode => (h.consistent.ids node hnode).symm
  rw [hids]
  exact h.nodup

theorem keeps_mem {node : RemoteNode} {calls : List Call}
    (h : table.keeps sha3256 node calls = true) : node ∈ table.getNodes := by
  cases calls with
  | nil => simpa [RoutingTable.keeps] using h
  | cons call calls =>
      rw [RoutingTable.keeps, Bool.and_eq_true] at h
      exact of_decide_eq_true h.1

end Changes

end Neroshop.Routing

namespace Neroshop.Rpc

open Neroshop.Foundation Neroshop.Node Neroshop.Routing

/-! ## The call -/

def Answer.counts : Answer → Bool
  | .received (some _) => true
  | _ => false

def Answer.fails : Answer → Bool
  | .unsent => true
  | .silent => true
  | _ => false

/-- A `send_put` under way, with the requests that it has sent. -/
structure Putting where
  node : LocalNode
  requested : List (Stage × RemoteNode)
  sentNodes : List RemoteNode
  failedNodes : List RemoteNode
  nodesSentCount : Nat

def Putting.start (node : LocalNode) : Putting := ⟨node, [], [], [], 0⟩

def Putting.withTable (putting : Putting) (table : RoutingTable) : Putting :=
  { putting with node := { putting.node with routingTable := table } }

/-- What other threads make of the table while the closest nodes are asked. -/
structure Meanwhile where
  /-- Until the nodes of the table are counted. -/
  counted : List Routing.Call
  /-- From then until they are searched. -/
  searched : List Routing.Call

abbrev PutCall := EStateM Fault Putting

section Call

variable (setting : Setting) (peers : Peers)

/-- A round of either loop; only the first one keeps the nodes in its sets. -/
def putToNext (key : String) (stage : Stage) (remote : RemoteNode) :
    PutCall Unit := fun putting =>
  let putting :=
    { putting with requested := putting.requested ++ [(stage, remote)] }
  match (putTo peers stage key remote).run putting.node with
  | .error fault node => .error fault { putting with node }
  | .ok true node => .ok () { putting with
      node
      sentNodes :=
        if stage = .put then remote :: putting.sentNodes else putting.sentNodes
      nodesSentCount := putting.nodesSentCount + 1 }
  | .ok false node => .ok () { putting with
      node
      failedNodes :=
        if stage = .put ∧ (peers.answer stage (toProvider remote)).fails
        then remote :: putting.failedNodes else putting.failedNodes }

variable (sha3256 : String → NodeIdHex) (meanwhile : Meanwhile)

def Meanwhile.counting (table : RoutingTable) : RoutingTable :=
  table.afterAll sha3256 meanwhile.counted

def Meanwhile.searching (table : RoutingTable) : RoutingTable :=
  (meanwhile.counting sha3256 table).afterAll sha3256 meanwhile.searched

/-- The node is an object that was in the table at the first search already. -/
def Meanwhile.keeps (table : RoutingTable) (remote : RemoteNode) : Bool :=
  table.keeps sha3256 remote (meanwhile.counted ++ meanwhile.searched)

/-- The replacements; what is sent so far decides how many they are. -/
def Putting.putToOthers (key : String) (table : RoutingTable)
    (closestNodes : List RemoteNode) : PutCall Nat := do
  let putting := (← get).withTable (meanwhile.searching sha3256 table)
  set putting
  let remaining := replicationFactor - putting.nodesSentCount
  let allNodes ← ofExcept (putting.node.findNode setting key
    (meanwhile.counting sha3256 table).getNodeCount)
  let replacements := allNodes.filter fun remote =>
    !(meanwhile.keeps sha3256 table remote &&
      (remote ∈ closestNodes || remote ∈ putting.failedNodes ||
        remote ∈ putting.sentNodes))
  if replacements.length < remaining then return putting.nodesSentCount
  forM (replacements.take remaining) (putToNext peers key .putReplacement)
  return (← get).nodesSentCount

def Putting.sendPut (key : String) : PutCall Nat := do
  let node := (← get).node
  let closest ← ofExcept (node.findNode setting key replicationFactor)
  let closestNodes := peers.shuffle closest
  forM closestNodes (putToNext peers key .put)
  let nodesSentCount := (← get).nodesSentCount
  if closestNodes.length < replicationFactor then return nodesSentCount
  if nodesSentCount < replicationFactor then
    putToOthers setting peers sha3256 meanwhile key node.routingTable
      closestNodes
  else return nodesSentCount

/-- `Node::send_put`. -/
def sendPutAmid (env : Externals) (key value : String) : PutCall Nat := do
  if ← ofExcept (isValuePublishable env value)
  then Putting.sendPut setting peers sha3256 meanwhile key
  else return 0

end Call

/-! ## Who is asked, and what is recorded -/

def Answer.acknowledges : Answer → Bool
  | .received (some reply) => reply.hasResponse
  | _ => false

section Accounts

variable (setting : Setting) (peers : Peers) (sha3256 : String → NodeIdHex)
  (meanwhile : Meanwhile) (key : String) (node : LocalNode)

def closestNodes : List RemoteNode :=
  match node.findNode setting key replicationFactor with
  | .ok closest => peers.shuffle closest
  | .error _ => []

def answerTo (request : Stage × RemoteNode) : Answer :=
  peers.answer request.1 (toProvider request.2)

def acknowledged (requested : List (Stage × RemoteNode)) :
    List (Stage × RemoteNode) :=
  requested.filter fun request => (answerTo peers request).acknowledges

/-- The nodes of the table by then that are not objects of the closest ones. -/
def otherNodes : List RemoteNode :=
  match (meanwhile.searching sha3256 node.routingTable).findClosestNodes
      setting.sort setting.uninitialized key
      (meanwhile.counting sha3256 node.routingTable).getNodeCount with
  | .ok allNodes => allNodes.filter fun remote =>
      !(meanwhile.keeps sha3256 node.routingTable remote &&
        remote ∈ closestNodes setting peers key node)
  | .error _ => []

def repliedCount : Nat :=
  (closestNodes setting peers key node).countP fun remote =>
    (answerTo peers (.put, remote)).counts

def replacementNodes : List RemoteNode :=
  let remaining := replicationFactor - repliedCount setting peers key node
  if (closestNodes setting peers key node).length < replicationFactor ∨
      remaining = 0 ∨
      (otherNodes setting peers sha3256 meanwhile key node).length < remaining
  then []
  else (otherNodes setting peers sha3256 meanwhile key node).take remaining

def requests : List (Stage × RemoteNode) :=
  (closestNodes setting peers key node).map (.put, ·) ++
    (replacementNodes setting peers sha3256 meanwhile key node).map
      (.putReplacement, ·)

/-- What a round leaves of a request whose promise is kept. -/
def Putting.record (putting : Putting) (request : Stage × RemoteNode) :
    Putting where
  node :=
    if (answerTo peers request).acknowledges
    then stateAfter (addProvider key (toProvider request.2)) putting.node
    else putting.node
  requested := putting.requested ++ [request]
  sentNodes :=
    if (answerTo peers request).counts ∧ request.1 = .put
    then request.2 :: putting.sentNodes else putting.sentNodes
  failedNodes :=
    if (answerTo peers request).fails ∧ request.1 = .put
    then request.2 :: putting.failedNodes else putting.failedNodes
  nodesSentCount :=
    if (answerTo peers request).counts then putting.nodesSentCount + 1
    else putting.nodesSentCount

/-- The record when all that a request is sent to has been waited for. -/
def Putting.final : Putting :=
  let first := ((closestNodes setting peers key node).map (.put, ·)).foldl
    (Putting.record peers key) (.start node)
  if (closestNodes setting peers key node).length < replicationFactor ∨
      replicationFactor ≤ repliedCount setting peers key node
  then first
  else ((replacementNodes setting peers sha3256 meanwhile key node).map
    (.putReplacement, ·)).foldl (Putting.record peers key)
      (first.withTable (meanwhile.searching sha3256 node.routingTable))

end Accounts

/-! ## A round -/

section Rounds

variable {setting : Setting} {peers : Peers} {key : String}
  {stage : Stage} {remote : RemoteNode} {putting after : Putting}

/-- Who acknowledges is added, and any message counts. -/
theorem run_putTo (key : String) (node : LocalNode)
    (h : answerTo peers (stage, remote) ≠ .broken) :
    (putTo peers stage key remote).run node =
      .ok (answerTo peers (stage, remote)).counts
        (if (answerTo peers (stage, remote)).acknowledges
          then stateAfter (addProvider key (toProvider remote)) node
          else node) := by
  have hanswer : peers.answer stage (toProvider remote) =
      answerTo peers (stage, remote) := rfl
  rw [putTo, hanswer]
  cases hreply : answerTo peers (stage, remote) with
  | unsent => rfl
  | silent => rfl
  | broken => exact absurd hreply h
  | received reply =>
      cases reply with
      | none => rfl
      | some reply =>
          cases hresponse : reply.hasResponse with
          | true => simp only [Answer.acknowledges, hresponse]; rfl
          | false => simp only [Answer.acknowledges, hresponse]; rfl

theorem run_putToNext :
    (putToNext peers key stage remote).run putting = .ok () after ↔
      answerTo peers (stage, remote) ≠ .broken ∧
        putting.record peers key (stage, remote) = after := by
  by_cases hintact : answerTo peers (stage, remote) ≠ .broken
  · have hrun := run_putTo key putting.node hintact
    have hanswer : peers.answer stage (toProvider remote) =
        answerTo peers (stage, remote) := rfl
    simp only [EStateM.run] at hrun
    simp only [EStateM.run, putToNext, hrun, hanswer, Putting.record]
    cases hreply : answerTo peers (stage, remote) with
    | unsent => simp [Answer.counts, Answer.fails]
    | silent => simp [Answer.counts, Answer.fails]
    | broken => exact absurd hreply hintact
    | received reply =>
        cases reply <;> simp [Answer.counts, Answer.fails]
  · refine iff_of_false (fun h => ?_) fun h => hintact h.1
    have hbroken : peers.answer stage (toProvider remote) = .broken :=
      not_not.mp hintact
    simp only [EStateM.run, putToNext, putTo, hbroken] at h
    cases h

/-- A loop ends where no promise of it is dropped. -/
theorem run_forM_putToNext {remotes : List RemoteNode} :
    (forM remotes (putToNext peers key stage)).run putting = .ok () after ↔
      (∀ remote ∈ remotes, answerTo peers (stage, remote) ≠ .broken) ∧
        (remotes.map (stage, ·)).foldl (Putting.record peers key) putting =
          after := by
  induction remotes generalizing putting with
  | nil =>
      rw [List.forM_nil, run_pure_eq_ok]
      simp
  | cons remote remotes ih =>
      rw [List.forM_cons, run_bind_eq_ok, List.forall_mem_cons, List.map_cons,
        List.foldl_cons]
      constructor
      · rintro ⟨⟨⟩, middle, hfirst, hrest⟩
        obtain ⟨hkept, rfl⟩ := run_putToNext.mp hfirst
        obtain ⟨hothers, hafter⟩ := ih.mp hrest
        exact ⟨⟨hkept, hothers⟩, hafter⟩
      · rintro ⟨⟨hkept, hothers⟩, hafter⟩
        exact ⟨(), _, run_putToNext.mpr ⟨hkept, rfl⟩, ih.mpr ⟨hothers, hafter⟩⟩

/-! ## What the rounds record -/

variable {requested : List (Stage × RemoteNode)}

theorem requested_foldl :
    (requested.foldl (Putting.record peers key) putting).requested =
      putting.requested ++ requested := by
  induction requested generalizing putting with
  | nil => simp
  | cons request requested ih =>
      rw [List.foldl_cons, ih, Putting.record, List.append_assoc]
      rfl

theorem nodesSentCount_foldl :
    (requested.foldl (Putting.record peers key) putting).nodesSentCount =
      putting.nodesSentCount +
        requested.countP fun request => (answerTo peers request).counts := by
  induction requested generalizing putting with
  | nil => simp
  | cons request requested ih =>
      rw [List.foldl_cons, ih, List.countP_cons, Putting.record]
      dsimp only
      split
      · omega
      · omega

theorem getProviders_foldl :
    (requested.foldl (Putting.record peers key) putting).node.getProviders key =
      ((acknowledged peers requested).map fun request =>
        toProvider request.2).foldl (enter Provider.address)
          (putting.node.getProviders key) := by
  induction requested generalizing putting with
  | nil => rfl
  | cons request requested ih =>
      rw [List.foldl_cons, ih]
      simp only [acknowledged, List.filter_cons, Putting.record]
      split
      · rw [getProviders_addProvider, List.map_cons, List.foldl_cons, enter]
        simp only [if_true]
      · rfl

theorem getProviders_foldl_of_ne {other : String} (hother : other ≠ key) :
    (requested.foldl (Putting.record peers key) putting).node.getProviders
      other = putting.node.getProviders other := by
  induction requested generalizing putting with
  | nil => rfl
  | cons request requested ih =>
      rw [List.foldl_cons, ih, Putting.record]
      dsimp only
      split
      · rw [getProviders_addProvider, if_neg hother, ite_self]
      · rfl

/-- The sets hold nodes that a request was sent to. -/
theorem sets_foldl {remote : RemoteNode}
    (h : remote ∈ (requested.foldl (Putting.record peers key)
        putting).failedNodes ∨
      remote ∈ (requested.foldl (Putting.record peers key)
        putting).sentNodes) :
    (remote ∈ putting.failedNodes ∨ remote ∈ putting.sentNodes) ∨
      remote ∈ requested.map Prod.snd := by
  induction requested generalizing putting with
  | nil => exact .inl h
  | cons request requested ih =>
      rw [List.map_cons, List.mem_cons]
      rcases ih h with hfirst | hrest
      · simp only [Putting.record] at hfirst
        split_ifs at hfirst <;> grind
      · exact .inr (.inr hrest)

end Rounds

/-! ## The whole call -/

section Whole

variable {setting : Setting} {peers : Peers} {sha3256 : String → NodeIdHex}
  {meanwhile : Meanwhile} {key : String} {node : LocalNode} {count : Nat}
  {putting after : Putting}

theorem exists_found {table : RoutingTable} (h : Sound sha3256 table)
    (hsort : SortsByDistance setting.sort) (hkey : (chars key).length = 64)
    (count : Nat) :
    ∃ found, table.findClosestNodes setting.sort setting.uninitialized key
        count = .ok found ∧
      (found.map RemoteNode.address).Nodup ∧ found.length ≤ count ∧
      ∀ remote ∈ found, remote ∈ table.getNodes := by
  obtain ⟨target, htarget⟩ :=
    (hexStringToNodeId_returns setting.uninitialized).mpr hkey
  have hperm : (arranged sha3256 setting.sort table target).Perm _ :=
    arranged_perm hsort target
  refine ⟨_, findClosestNodes_of_read h htarget count, ?_, ?_, ?_⟩
  · have hcandidates : ((table.candidates sha3256 target).map
        RemoteNode.address).Nodup :=
      (List.filter_sublist.map _).nodup h.addresses_nodup
    exact ((List.take_sublist count _).map _).nodup
      ((hperm.map _).nodup_iff.mpr hcandidates)
  · exact List.length_take_le _ _
  · intro remote hremote
    have hmem := hperm.mem_iff.mp (List.mem_of_mem_take hremote)
    exact List.mem_of_mem_filter hmem

theorem run_putToOthers {table : RoutingTable} {first allNodes : List RemoteNode}
    (hall : (meanwhile.searching sha3256 table).findClosestNodes setting.sort
      setting.uninitialized key
      (meanwhile.counting sha3256 table).getNodeCount = .ok allNodes)
    (hsets : ∀ remote, remote ∈ putting.failedNodes ∨
      remote ∈ putting.sentNodes → remote ∈ first)
    {others asked : List RemoteNode}
    (hothers : others = allNodes.filter fun remote =>
      !(meanwhile.keeps sha3256 table remote && remote ∈ first))
    (hasked : asked =
      if others.length < replicationFactor - putting.nodesSentCount then []
      else others.take (replicationFactor - putting.nodesSentCount)) :
    (Putting.putToOthers setting peers sha3256 meanwhile key table first).run
        putting = .ok count after ↔
      (∀ remote ∈ asked,
        answerTo peers (.putReplacement, remote) ≠ .broken) ∧
      (asked.map (.putReplacement, ·)).foldl (Putting.record peers key)
        (putting.withTable (meanwhile.searching sha3256 table)) = after ∧
      after.nodesSentCount = count := by
  generalize hlater : putting.withTable (meanwhile.searching sha3256 table) =
    later
  have hfind : later.node.findNode setting key
      (meanwhile.counting sha3256 table).getNodeCount = .ok allNodes := by
    rw [← hlater]
    exact hall
  have hcount : later.nodesSentCount = putting.nodesSentCount := by
    rw [← hlater]
    rfl
  have hsame : (allNodes.filter fun remote =>
      !(meanwhile.keeps sha3256 table remote &&
        (remote ∈ first || remote ∈ later.failedNodes ||
          remote ∈ later.sentNodes))) = others := by
    rw [hothers, ← hlater]
    refine List.filter_congr fun remote _ => ?_
    have hremote := hsets remote
    simp only [Putting.withTable]
    grind
  rw [Putting.putToOthers, run_get_bind, hlater, run_set_bind]
  dsimp only
  rw [run_ofExcept_bind hfind, hsame, hcount]
  split
  · next hfew =>
      rw [if_pos hfew] at hasked
      rw [run_pure_eq_ok, hasked, ← hcount]
      constructor
      · rintro ⟨rfl, rfl⟩
        exact ⟨List.forall_mem_nil _, rfl, rfl⟩
      · rintro ⟨-, rfl, rfl⟩
        exact ⟨rfl, rfl⟩
  · next hmany =>
      rw [if_neg hmany] at hasked
      rw [run_bind_eq_ok, ← hasked]
      constructor
      · rintro ⟨⟨⟩, middle, hloop, hreturn⟩
        obtain ⟨hkept, rfl⟩ := run_forM_putToNext.mp hloop
        rw [run_get_bind, run_pure_eq_ok] at hreturn
        obtain ⟨hreturned, rfl⟩ := hreturn
        exact ⟨hkept, rfl, hreturned⟩
      · rintro ⟨hkept, rfl, hreturned⟩
        refine ⟨(), _, run_forM_putToNext.mpr ⟨hkept, rfl⟩, ?_⟩
        rw [run_get_bind, run_pure_eq_ok]
        exact ⟨hreturned, rfl⟩

theorem repliedCount_eq :
    ((closestNodes setting peers key node).map (Stage.put, ·)).countP
        (fun request => (answerTo peers request).counts) =
      repliedCount setting peers key node := by
  rw [List.countP_map]
  rfl

theorem nodesSentCount_first :
    (((closestNodes setting peers key node).map (Stage.put, ·)).foldl
        (Putting.record peers key) (.start node)).nodesSentCount =
      repliedCount setting peers key node := by
  rw [nodesSentCount_foldl, repliedCount_eq]
  exact Nat.zero_add _

theorem exists_closestNodes (h : Sound sha3256 node.routingTable)
    (hsort : SortsByDistance setting.sort) (hkey : (chars key).length = 64) :
    ∃ found, node.findNode setting key replicationFactor = .ok found ∧
      peers.shuffle found = closestNodes setting peers key node ∧
      (found.map RemoteNode.address).Nodup ∧
      found.length ≤ replicationFactor ∧
      ∀ remote ∈ found, remote ∈ node.routingTable.getNodes := by
  obtain ⟨found, hfound, hlist⟩ := exists_found h hsort hkey replicationFactor
  have hfind : node.findNode setting key replicationFactor = .ok found := hfound
  refine ⟨found, hfind, ?_, hlist⟩
  rw [closestNodes, hfind]

theorem replacementNodes_of_end
    (h : (closestNodes setting peers key node).length < replicationFactor ∨
      replicationFactor ≤ repliedCount setting peers key node) :
    replacementNodes setting peers sha3256 meanwhile key node = [] := by
  rw [replacementNodes]
  exact if_pos (h.imp_right fun hle => .inl (by omega))

theorem replacementNodes_of_not_end
    (h : ¬ ((closestNodes setting peers key node).length < replicationFactor ∨
      replicationFactor ≤ repliedCount setting peers key node)) :
    replacementNodes setting peers sha3256 meanwhile key node =
      if (otherNodes setting peers sha3256 meanwhile key node).length <
          replicationFactor - repliedCount setting peers key node then []
      else (otherNodes setting peers sha3256 meanwhile key node).take
        (replicationFactor - repliedCount setting peers key node) := by
  rw [replacementNodes]
  grind

theorem run_sendPut (h : Sound sha3256 node.routingTable)
    (hsort : SortsByDistance setting.sort) (hkey : (chars key).length = 64) :
    (Putting.sendPut setting peers sha3256 meanwhile key).run (.start node) =
        .ok count after ↔
      (∀ request ∈ requests setting peers sha3256 meanwhile key node,
        answerTo peers request ≠ .broken) ∧
      Putting.final setting peers sha3256 meanwhile key node = after ∧
      after.nodesSentCount = count := by
  obtain ⟨found, hfind, hclosest, -⟩ := exists_closestNodes h hsort hkey
  have hstart : (Putting.start node).node = node := rfl
  rw [Putting.sendPut, run_get_bind, hstart, run_ofExcept_bind hfind, hclosest]
  rw [requests, List.forall_mem_append, List.forall_mem_map,
    List.forall_mem_map]
  by_cases hkept : ∀ remote ∈ closestNodes setting peers key node,
      answerTo peers (.put, remote) ≠ .broken
  · have hcount : _ = repliedCount setting peers key node :=
      nodesSentCount_first
    rw [run_bind_of_ok (run_forM_putToNext.mpr ⟨hkept, rfl⟩), run_get_bind,
      hcount, Putting.final]
    by_cases hend : (closestNodes setting peers key node).length <
        replicationFactor ∨
      replicationFactor ≤ repliedCount setting peers key node
    · rw [if_pos hend, replacementNodes_of_end hend]
      have hreturn : ∀ more : PutCall Nat,
          (if (closestNodes setting peers key node).length < replicationFactor
            then pure (repliedCount setting peers key node)
            else if repliedCount setting peers key node < replicationFactor
              then more else pure (repliedCount setting peers key node)) =
            pure (repliedCount setting peers key node) := by
        intro more
        grind
      rw [hreturn, run_pure_eq_ok]
      constructor
      · rintro ⟨rfl, rfl⟩
        exact ⟨⟨hkept, List.forall_mem_nil _⟩, rfl, hcount⟩
      · rintro ⟨-, rfl, rfl⟩
        exact ⟨hcount.symm, rfl⟩
    · obtain ⟨hlength, hreplied⟩ := not_or.mp hend
      rw [if_neg hlength, if_pos (Nat.lt_of_not_le hreplied), if_neg hend]
      obtain ⟨allNodes, hall, -⟩ := exists_found
        ((h.afterAll meanwhile.counted).afterAll meanwhile.searched) hsort hkey
        (meanwhile.counting sha3256 node.routingTable).getNodeCount
      have hothers : otherNodes setting peers sha3256 meanwhile key node =
          allNodes.filter fun remote =>
            !(meanwhile.keeps sha3256 node.routingTable remote &&
              remote ∈ closestNodes setting peers key node) := by
        rw [otherNodes, Meanwhile.searching]
        rw [Meanwhile.counting] at hall ⊢
        rw [hall]
      have hasked : replacementNodes setting peers sha3256 meanwhile key node =
        _ := replacementNodes_of_not_end hend
      rw [← hcount] at hasked
      rw [run_putToOthers hall ?_ hothers hasked]
      · constructor
        · rintro ⟨hothers, hafter, hreturn⟩
          exact ⟨⟨hkept, hothers⟩, hafter, hreturn⟩
        · rintro ⟨⟨-, hothers⟩, hafter, hreturn⟩
          exact ⟨hothers, hafter, hreturn⟩
      · intro remote hremote
        rcases sets_foldl hremote with hstart | hmem
        · exact absurd hstart (by simp [Putting.start])
        · simpa using hmem
  · refine iff_of_false (fun hrun => hkept ?_) fun hall => hkept hall.1.1
    rw [run_bind_eq_ok] at hrun
    obtain ⟨⟨⟩, middle, hloop, -⟩ := hrun
    exact (run_forM_putToNext.mp hloop).1

theorem addProvider_withTable (peer : Provider) (table : RoutingTable) :
    stateAfter (addProvider key peer) { node with routingTable := table } =
      { stateAfter (addProvider key peer) node with routingTable := table } := by
  have hproviders : LocalNode.getProviders { node with routingTable := table }
      key = node.getProviders key := rfl
  rw [addProvider, stateAfter_modify, stateAfter_modify, hproviders]
  by_cases hold : (node.getProviders key).any
      fun existing => existing.address = peer.address
  · simp only [if_pos hold]
  · simp only [if_neg hold]

theorem withTable_self {table : RoutingTable}
    (h : putting.node.routingTable = table) : putting.withTable table = putting := by
  subst h
  rfl

/-- No round reads the table. -/
theorem record_withTable (table : RoutingTable) (request : Stage × RemoteNode) :
    (putting.withTable table).record peers key request =
      (putting.record peers key request).withTable table := by
  rw [Putting.record, Putting.record]
  simp only [Putting.withTable, addProvider_withTable]
  split
  · rfl
  · rfl

theorem foldl_record_withTable (table : RoutingTable)
    (requested : List (Stage × RemoteNode)) :
    requested.foldl (Putting.record peers key) (putting.withTable table) =
      (requested.foldl (Putting.record peers key) putting).withTable table := by
  induction requested generalizing putting with
  | nil => rfl
  | cons request requested ih =>
      rw [List.foldl_cons, List.foldl_cons, record_withTable, ih]

theorem final_eq :
    ∃ table, Putting.final setting peers sha3256 meanwhile key node =
      ((requests setting peers sha3256 meanwhile key node).foldl
        (Putting.record peers key) (.start node)).withTable table := by
  rw [Putting.final, requests, List.foldl_append]
  split
  · next hend =>
      rw [replacementNodes_of_end hend]
      exact ⟨_, rfl⟩
  · exact ⟨_, foldl_record_withTable _ _⟩

/-! ## Without the record -/

theorem run_counted {stage : Stage} {remote : RemoteNode} {start counted : Nat}
    {last : LocalNode} :
    (do return if ← putTo peers stage key remote then start + 1
        else start : NodeCall Nat).run putting.node = .ok counted last ↔
      answerTo peers (stage, remote) ≠ .broken ∧
      putting.nodesSentCount + counted =
        start + (putting.record peers key (stage, remote)).nodesSentCount ∧
      (putting.record peers key (stage, remote)).node = last := by
  by_cases hkept : answerTo peers (stage, remote) ≠ .broken
  · rw [run_bind_of_ok (run_putTo key putting.node hkept), run_pure_eq_ok]
    simp only [Putting.record, hkept, not_false_eq_true, ne_eq, true_and]
    refine and_congr_left fun _ => ?_
    split <;> omega
  · refine iff_of_false (fun h => ?_) fun h => hkept h.1
    have hbroken : peers.answer stage (toProvider remote) = .broken :=
      not_not.mp hkept
    rw [run_bind_eq_ok, putTo, hbroken] at h
    obtain ⟨replied, middle, h, -⟩ := h
    cases h

theorem run_putToAll (putting : Putting) {stage : Stage}
    {remotes : List RemoteNode} {count : Nat} {last : LocalNode} :
    (putToAll peers stage key remotes).run putting.node = .ok count last ↔
      (∀ remote ∈ remotes, answerTo peers (stage, remote) ≠ .broken) ∧
      putting.nodesSentCount + count =
        ((remotes.map (stage, ·)).foldl (Putting.record peers key)
          putting).nodesSentCount ∧
      ((remotes.map (stage, ·)).foldl (Putting.record peers key)
        putting).node = last := by
  have hloop : ∀ (start : Nat) (putting : Putting),
      (remotes.foldlM (fun count remote => do
          return if ← putTo peers stage key remote then count + 1
            else count) start).run putting.node = .ok count last ↔
        (∀ remote ∈ remotes, answerTo peers (stage, remote) ≠ .broken) ∧
        putting.nodesSentCount + count = start +
          ((remotes.map (stage, ·)).foldl (Putting.record peers key)
            putting).nodesSentCount ∧
        ((remotes.map (stage, ·)).foldl (Putting.record peers key)
          putting).node = last := by
    induction remotes with
    | nil =>
        intro start putting
        rw [List.foldlM_nil, run_pure_eq_ok, Nat.add_comm start]
        simp [eq_comm]
    | cons remote remotes ih =>
        intro start putting
        rw [List.foldlM_cons, run_bind_eq_ok, List.forall_mem_cons,
          List.map_cons, List.foldl_cons]
        constructor
        · rintro ⟨counted, middle, hfirst, hrest⟩
          obtain ⟨hkept, hcounted, rfl⟩ := run_counted.mp hfirst
          obtain ⟨hothers, hcount, hlast⟩ := (ih counted _).mp hrest
          exact ⟨⟨hkept, hothers⟩, by omega, hlast⟩
        · rintro ⟨⟨hkept, hothers⟩, hcount, hlast⟩
          have hmonotone : putting.nodesSentCount ≤ (putting.record peers key
              (stage, remote)).nodesSentCount := by
            rw [Putting.record]
            dsimp only
            split <;> omega
          refine ⟨start + (putting.record peers key
            (stage, remote)).nodesSentCount - putting.nodesSentCount, _,
            run_counted.mpr ⟨hkept, by omega, rfl⟩,
            (ih _ _).mpr ⟨hothers, by omega, hlast⟩⟩
  rw [putToAll, hloop, Nat.zero_add]

theorem routingTable_foldl {requested : List (Stage × RemoteNode)} :
    (requested.foldl (Putting.record peers key) putting).node.routingTable =
      putting.node.routingTable := by
  induction requested generalizing putting with
  | nil => rfl
  | cons request requested ih =>
      rw [List.foldl_cons, ih, Putting.record]
      dsimp only
      split
      · rw [addProvider, stateAfter_modify]
        dsimp only
        split <;> rfl
      · rfl

theorem otherNodes_still (h : Sound sha3256 node.routingTable)
    (hsort : SortsByDistance setting.sort) (hkey : (chars key).length = 64) :
    ∃ allNodes, node.findNode setting key node.getPeerCount = .ok allNodes ∧
      otherNodes setting peers sha3256 ⟨[], []⟩ key node =
        allNodes.filter (· ∉ closestNodes setting peers key node) := by
  obtain ⟨allNodes, hall, -, -, hmem⟩ :=
    exists_found h hsort hkey node.getPeerCount
  refine ⟨allNodes, hall, ?_⟩
  have hlater : (Meanwhile.searching sha3256 ⟨[], []⟩
      node.routingTable).findClosestNodes setting.sort setting.uninitialized key
        (Meanwhile.counting sha3256 ⟨[], []⟩
          node.routingTable).getNodeCount = .ok allNodes := hall
  rw [otherNodes, hlater]
  refine List.filter_congr fun remote hremote => ?_
  simp [Meanwhile.keeps, RoutingTable.keeps, hmem remote hremote]

/-- Where the table stays, the record is all that the recorded call adds. -/
theorem run_sendPut_recorded (h : Sound sha3256 node.routingTable)
    (hsort : SortsByDistance setting.sort) (hkey : (chars key).length = 64)
    {last : LocalNode} :
    (Rpc.sendPut setting peers key).run node = .ok count last ↔
      ∃ after, (Putting.sendPut setting peers sha3256 ⟨[], []⟩ key).run
          (.start node) = .ok count after ∧ after.node = last := by
  obtain ⟨found, hfind, hclosest, -⟩ := exists_closestNodes h hsort hkey
  obtain ⟨allNodes, hall, hothers⟩ : ∃ allNodes, _ ∧
    otherNodes setting peers sha3256 ⟨[], []⟩ key node = _ :=
      otherNodes_still h hsort hkey
  simp only [run_sendPut h hsort hkey, and_assoc, exists_and_left,
    exists_eq_left']
  rw [Rpc.sendPut, run_get_bind, run_ofExcept_bind hfind, hclosest]
  rw [requests, List.forall_mem_append, List.forall_mem_map,
    List.forall_mem_map]
  by_cases hkept : ∀ remote ∈ closestNodes setting peers key node,
      answerTo peers (.put, remote) ≠ .broken
  · have hcount : _ = repliedCount setting peers key node :=
      nodesSentCount_first
    have hfirst := (run_putToAll (.start node)).mpr
      ⟨hkept, (Nat.zero_add _).trans hcount.symm, rfl⟩
    have hstart : (Putting.start node).node = node := rfl
    rw [hstart] at hfirst
    dsimp only
    rw [run_bind_of_ok hfirst, Putting.final]
    generalize hstate : ((closestNodes setting peers key node).map
      (Stage.put, ·)).foldl (Putting.record peers key) (.start node) =
        first at hcount ⊢
    have htable : first.node.routingTable = node.routingTable := by
      rw [← hstate, routingTable_foldl]
      rfl
    by_cases hend : (closestNodes setting peers key node).length <
        replicationFactor ∨
      replicationFactor ≤ repliedCount setting peers key node
    · have hreturn : ∀ more : NodeCall Nat,
          (if (closestNodes setting peers key node).length < replicationFactor
            then pure (repliedCount setting peers key node)
            else if replicationFactor ≤ repliedCount setting peers key node
              then pure (repliedCount setting peers key node) else more) =
            pure (repliedCount setting peers key node) := by
        intro more
        grind
      rw [hreturn, if_pos hend, replacementNodes_of_end hend, run_pure_eq_ok,
        hcount]
      constructor
      · rintro ⟨rfl, rfl⟩
        exact ⟨⟨hkept, List.forall_mem_nil _⟩, rfl, rfl⟩
      · rintro ⟨-, rfl, rfl⟩
        exact ⟨rfl, rfl⟩
    · obtain ⟨hlength, hreplied⟩ := not_or.mp hend
      have hasked : replacementNodes setting peers sha3256 ⟨[], []⟩ key node =
        _ := replacementNodes_of_not_end hend
      have hagain : first.node.findNode setting key first.node.getPeerCount =
          .ok allNodes := by
        rw [LocalNode.findNode, LocalNode.getPeerCount, htable]
        exact hall
      have hstill : first.withTable (Meanwhile.searching sha3256 ⟨[], []⟩
          node.routingTable) = first := withTable_self htable
      rw [if_neg hlength, if_neg hreplied, if_neg hend, run_get_bind,
        run_ofExcept_bind hagain, ← hothers, hstill]
      split
      · next hfew =>
          rw [hasked, if_pos hfew, run_pure_eq_ok, ← hcount]
          constructor
          · rintro ⟨rfl, rfl⟩
            exact ⟨⟨hkept, List.forall_mem_nil _⟩, rfl, rfl⟩
          · rintro ⟨-, rfl, rfl⟩
            exact ⟨rfl, rfl⟩
      · next hmany =>
          rw [hasked, if_neg hmany, run_bind_eq_ok]
          constructor
          · rintro ⟨replaced, middle, hloop, hreturn⟩
            obtain ⟨hothers, hreplaced, rfl⟩ := (run_putToAll first).mp hloop
            obtain ⟨rfl, rfl⟩ := run_pure_eq_ok.mp hreturn
            exact ⟨⟨hkept, hothers⟩, by rw [← hreplaced, hcount], rfl⟩
          · rintro ⟨⟨-, hothers⟩, hreturn, rfl⟩
            refine ⟨_, _, (run_putToAll first).mpr
              ⟨hothers, nodesSentCount_foldl.symm, rfl⟩, ?_⟩
            rw [run_pure_eq_ok]
            refine ⟨?_, rfl⟩
            rw [← hreturn, nodesSentCount_foldl, hcount]
  · refine iff_of_false (fun hrun => hkept ?_) fun hafter => hkept hafter.1.1
    rw [run_bind_eq_ok] at hrun
    obtain ⟨sent, middle, hloop, -⟩ := hrun
    exact ((run_putToAll (.start node)).mp hloop).1

end Whole

end Neroshop.Rpc
