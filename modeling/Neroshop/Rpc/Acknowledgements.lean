import Neroshop.Node.Rejection
import Neroshop.Rpc.Publication

/-!
# Who has acknowledged a value

`send_put` counts whoever replies with any message, an error as well, but adds
whoever replies with a response as a provider, unless another port of its
address is one.  Nobody is asked twice who has not left the table and come back.
-/

namespace Neroshop.Rpc

open Neroshop.Foundation Neroshop.Node Neroshop.Routing

section Accounts

variable (setting : Setting) (peers : Peers) (key : String) (node : LocalNode)

/-- Each node once, and what is returned and added is who acknowledged. -/
structure Accounted (count : Nat) (after : Putting) : Prop where
  once : (after.requested.map fun request => request.2.address).Nodup
  replaced : ∀ remote, (.putReplacement, remote) ∈ after.requested →
    ∀ closest ∈ closestNodes setting peers key node,
      remote.address ≠ closest.address
  exact : count = ((acknowledged peers after.requested).map
    fun request => request.2.address).toFinset.card
  atMost : count ≤ replicationFactor
  added : ∀ peer, peer ∈ after.node.getProviders key ↔
    peer ∈ node.getProviders key ∨
      peer ∈ (acknowledged peers after.requested).map
        fun request => toProvider request.2
  others : ∀ other, other ≠ key →
    after.node.getProviders other = node.getProviders other

/-- A message is a response, of a node whose address is new or its own. -/
def Proper (peer : Provider) : Answer → Prop
  | .broken => False
  | .received (some reply) =>
      reply.hasResponse = true ∧
        (peer.address ∈ (node.getProviders key).map Provider.address →
          peer ∈ node.getProviders key)
  | _ => True

end Accounts

section Whole

variable {setting : Setting} {peers : Peers} {sha3256 : String → NodeIdHex}
  {meanwhile : Meanwhile} {key : String} {node : LocalNode} {count : Nat}
  {putting after : Putting}

/-! ## Who is asked -/

theorem closestNodes_found (h : Sound sha3256 node.routingTable)
    (hsort : SortsByDistance setting.sort)
    (hshuffle : ∀ nodes, (peers.shuffle nodes).Perm nodes)
    (hkey : (chars key).length = 64) :
    ((closestNodes setting peers key node).map RemoteNode.address).Nodup ∧
      (closestNodes setting peers key node).length ≤ replicationFactor := by
  obtain ⟨found, -, hclosest, hnodup, hlength, -⟩ :=
    exists_closestNodes h hsort hkey
  rw [← hclosest]
  exact ⟨((hshuffle found).map _).nodup_iff.mpr hnodup,
    (hshuffle found).length_eq ▸ hlength⟩

theorem otherNodes_nodup (h : Sound sha3256 node.routingTable)
    (hsort : SortsByDistance setting.sort) (hkey : (chars key).length = 64) :
    ((otherNodes setting peers sha3256 meanwhile key node).map
      RemoteNode.address).Nodup := by
  obtain ⟨found, hfound, hnodup, -⟩ := exists_found
    ((h.afterAll meanwhile.counted).afterAll meanwhile.searched) hsort hkey
    (meanwhile.counting sha3256 node.routingTable).getNodeCount
  rw [otherNodes, Meanwhile.searching]
  rw [Meanwhile.counting] at hfound ⊢
  rw [hfound]
  exact (List.filter_sublist.map _).nodup hnodup

theorem replacementNodes_sublist :
    (replacementNodes setting peers sha3256 meanwhile key node).Sublist
      (otherNodes setting peers sha3256 meanwhile key node) := by
  rw [replacementNodes]
  split
  · exact List.nil_sublist _
  · exact List.take_sublist _ _

theorem length_replacementNodes_le :
    (replacementNodes setting peers sha3256 meanwhile key node).length ≤
      replicationFactor - repliedCount setting peers key node := by
  rw [replacementNodes]
  split
  · exact Nat.zero_le _
  · exact List.length_take_le _ _

/-- Only a node that was among the first ones could be asked twice. -/
theorem once_iff (h : Sound sha3256 node.routingTable)
    (hsort : SortsByDistance setting.sort)
    (hshuffle : ∀ nodes, (peers.shuffle nodes).Perm nodes)
    (hkey : (chars key).length = 64) :
    ((requests setting peers sha3256 meanwhile key node).map
        fun request => request.2.address).Nodup ↔
      ∀ remote ∈ replacementNodes setting peers sha3256 meanwhile key node,
        ∀ closest ∈ closestNodes setting peers key node,
          remote.address ≠ closest.address := by
  have hfirst := (closestNodes_found h hsort hshuffle hkey).1
  have hothers : ((replacementNodes setting peers sha3256 meanwhile key
      node).map RemoteNode.address).Nodup :=
    (replacementNodes_sublist.map _).nodup (otherNodes_nodup h hsort hkey)
  have hmap : (requests setting peers sha3256 meanwhile key node).map
        (fun request => request.2.address) =
      (closestNodes setting peers key node).map RemoteNode.address ++
        (replacementNodes setting peers sha3256 meanwhile key node).map
          RemoteNode.address := by
    rw [requests, List.map_append, List.map_map, List.map_map]
    rfl
  rw [hmap, List.nodup_append]
  simp only [List.forall_mem_map, hfirst, hothers, true_and]
  exact ⟨fun h remote hremote closest hclosest heq =>
      h closest hclosest remote hremote heq.symm,
    fun h closest hclosest remote hremote heq =>
      h remote hremote closest hclosest heq.symm⟩

theorem count_le_replicationFactor (h : Sound sha3256 node.routingTable)
    (hsort : SortsByDistance setting.sort)
    (hshuffle : ∀ nodes, (peers.shuffle nodes).Perm nodes)
    (hkey : (chars key).length = 64) :
    ((requests setting peers sha3256 meanwhile key node).countP
      fun request => (answerTo peers request).counts) ≤ replicationFactor := by
  have hfirst := (closestNodes_found h hsort hshuffle hkey).2
  have hreplied : repliedCount setting peers key node ≤
      (closestNodes setting peers key node).length := List.countP_le_length
  have hothers : (replacementNodes setting peers sha3256 meanwhile key
      node).length ≤ replicationFactor - repliedCount setting peers key node :=
    length_replacementNodes_le
  have hmore : ((replacementNodes setting peers sha3256 meanwhile key
      node).map (Stage.putReplacement, ·)).countP
        (fun request => (answerTo peers request).counts) ≤
      (replacementNodes setting peers sha3256 meanwhile key node).length :=
    List.length_map (Stage.putReplacement, ·) ▸ List.countP_le_length
  rw [requests, List.countP_append, repliedCount_eq]
  omega

/-! ## What is returned and added -/

section Counts

variable {requested : List (Stage × RemoteNode)}

theorem counts_of_acknowledges {answer : Answer}
    (h : answer.acknowledges = true) : answer.counts = true := by
  cases answer with
  | received reply =>
      cases reply with
      | none => exact absurd h Bool.false_ne_true
      | some reply => rfl
  | _ => exact absurd h Bool.false_ne_true

/-- Of nodes that are asked once, those are counted that acknowledge. -/
theorem countP_exact_iff
    (honce : (requested.map fun request => request.2.address).Nodup) :
    requested.countP (fun request => (answerTo peers request).counts) =
        ((acknowledged peers requested).map
          fun request => request.2.address).toFinset.card ↔
      ∀ request ∈ requested, (answerTo peers request).counts = true →
        (answerTo peers request).acknowledges = true := by
  have hdistinct : ((acknowledged peers requested).map
      fun request => request.2.address).Nodup :=
    (List.filter_sublist.map _).nodup honce
  have hamong : acknowledged peers requested =
      (requested.filter fun request => (answerTo peers request).counts).filter
        fun request => (answerTo peers request).acknowledges := by
    rw [List.filter_filter, acknowledged]
    refine List.filter_congr fun request _ => ?_
    cases hacknowledges : (answerTo peers request).acknowledges with
    | true => rw [counts_of_acknowledges hacknowledges]; rfl
    | false => rfl
  rw [List.toFinset_card_of_nodup hdistinct, List.length_map, hamong,
    List.countP_eq_length_filter, eq_comm, List.length_filter_eq_length_iff]
  simp only [List.mem_filter, and_imp]

theorem proper_iff {peer : Provider} {answer : Answer}
    (h : answer ≠ .broken) :
    Proper key node peer answer ↔
      (answer.counts = true → answer.acknowledges = true) ∧
        (answer.acknowledges = true →
          peer.address ∈ (node.getProviders key).map Provider.address →
            peer ∈ node.getProviders key) := by
  cases answer with
  | broken => exact absurd rfl h
  | unsent => simp [Proper, Answer.counts, Answer.acknowledges]
  | silent => simp [Proper, Answer.counts, Answer.acknowledges]
  | received reply =>
      cases reply with
      | none => simp [Proper, Answer.counts, Answer.acknowledges]
      | some reply =>
          simp only [Proper, Answer.counts, Answer.acknowledges, true_implies]
          exact and_congr_right fun hresponse => by simp [hresponse]

end Counts

theorem requested_final :
    (Putting.final setting peers sha3256 meanwhile key node).requested =
      requests setting peers sha3256 meanwhile key node := by
  obtain ⟨table, hfinal⟩ : ∃ table, Putting.final setting peers sha3256
    meanwhile key node = _ := final_eq
  rw [hfinal]
  exact requested_foldl

theorem nodesSentCount_final :
    (Putting.final setting peers sha3256 meanwhile key node).nodesSentCount =
      (requests setting peers sha3256 meanwhile key node).countP
        fun request => (answerTo peers request).counts := by
  obtain ⟨table, hfinal⟩ : ∃ table, Putting.final setting peers sha3256
    meanwhile key node = _ := final_eq
  rw [hfinal]
  exact nodesSentCount_foldl.trans (Nat.zero_add _)

theorem getProviders_final :
    (Putting.final setting peers sha3256 meanwhile key node).node.getProviders
        key =
      ((acknowledged peers (requests setting peers sha3256 meanwhile key
        node)).map fun request => toProvider request.2).foldl
          (enter Provider.address) (node.getProviders key) := by
  obtain ⟨table, hfinal⟩ : ∃ table, Putting.final setting peers sha3256
    meanwhile key node = _ := final_eq
  rw [hfinal]
  exact getProviders_foldl

theorem getProviders_final_of_ne {other : String} (hother : other ≠ key) :
    (Putting.final setting peers sha3256 meanwhile key node).node.getProviders
        other = node.getProviders other := by
  obtain ⟨table, hfinal⟩ : ∃ table, Putting.final setting peers sha3256
    meanwhile key node = _ := final_eq
  rw [hfinal]
  exact getProviders_foldl_of_ne hother

theorem acknowledged_keys {requested : List (Stage × RemoteNode)}
    (honce : (requested.map fun request => request.2.address).Nodup) :
    (((acknowledged peers requested).map
      fun request => toProvider request.2).map Provider.address).Nodup := by
  rw [List.map_map]
  exact (List.filter_sublist.map _).nodup honce

/-- Everything but the counting and the adding always holds, if nobody returns. -/
theorem accounted_iff (h : Sound sha3256 node.routingTable)
    (hsort : SortsByDistance setting.sort)
    (hshuffle : ∀ nodes, (peers.shuffle nodes).Perm nodes)
    (hkey : (chars key).length = 64)
    (hintact : ∀ request ∈ requests setting peers sha3256 meanwhile key node,
      answerTo peers request ≠ .broken) :
    Accounted setting peers key node
        (Putting.final setting peers sha3256 meanwhile key node).nodesSentCount
        (Putting.final setting peers sha3256 meanwhile key node) ↔
      (∀ request ∈ requests setting peers sha3256 meanwhile key node,
        Proper key node (toProvider request.2) (answerTo peers request)) ∧
      ∀ remote ∈ replacementNodes setting peers sha3256 meanwhile key node,
        ∀ closest ∈ closestNodes setting peers key node,
          remote.address ≠ closest.address := by
  constructor
  · rintro ⟨honce, hreplaced, hexact, -, hadded, -⟩
    rw [requested_final] at honce hexact
    rw [nodesSentCount_final, countP_exact_iff honce] at hexact
    rw [getProviders_final, requested_final,
      foldl_enter_exact_iff (acknowledged_keys honce)] at hadded
    refine ⟨fun request hrequest => ?_,
      (once_iff h hsort hshuffle hkey).mp honce⟩
    rw [proper_iff (hintact request hrequest)]
    refine ⟨hexact request hrequest, fun hacknowledges => ?_⟩
    exact hadded _ (List.mem_map.mpr
      ⟨request, List.mem_filter.mpr ⟨hrequest, hacknowledges⟩, rfl⟩)
  · rintro ⟨hproper, hfresh⟩
    have honce := (once_iff h hsort hshuffle hkey).mpr hfresh
    have hboth := fun request hrequest =>
      (proper_iff (hintact request hrequest)).mp (hproper request hrequest)
    refine ⟨?_, ?_, ?_, ?_, ?_, fun other => getProviders_final_of_ne⟩
    · rw [requested_final]
      exact honce
    · intro remote hremote
      rw [requested_final, requests, List.mem_append] at hremote
      refine hfresh remote ?_
      simpa using hremote
    · rw [requested_final, nodesSentCount_final, countP_exact_iff honce]
      exact fun request hrequest => (hboth request hrequest).1
    · rw [nodesSentCount_final]
      exact count_le_replicationFactor h hsort hshuffle hkey
    · rw [requested_final, getProviders_final,
        foldl_enter_exact_iff (acknowledged_keys honce)]
      intro peer hpeer
      obtain ⟨request, hmem, rfl⟩ := List.mem_map.mp hpeer
      obtain ⟨hrequest, hacknowledges⟩ := List.mem_filter.mp hmem
      exact (hboth request hrequest).2 hacknowledges

/-- A node is asked twice only if it has left the table and come back. -/
theorem not_keeps_of_replaced (h : Sound sha3256 node.routingTable)
    (hsort : SortsByDistance setting.sort)
    (hshuffle : ∀ nodes, (peers.shuffle nodes).Perm nodes)
    (hkey : (chars key).length = 64) {remote closest : RemoteNode}
    (hremote : remote ∈ replacementNodes setting peers sha3256 meanwhile key
      node)
    (hclosest : closest ∈ closestNodes setting peers key node)
    (haddress : remote.address = closest.address) :
    meanwhile.keeps sha3256 node.routingTable remote = false := by
  by_contra hkeeps
  rw [Bool.not_eq_false] at hkeeps
  obtain ⟨found, -, hfound, -, -, hmem⟩ :=
    exists_closestNodes h hsort hkey
  have htable : closest ∈ node.routingTable.getNodes := by
    rw [← hfound] at hclosest
    exact hmem closest ((hshuffle found).mem_iff.mp hclosest)
  have hsame : remote = closest :=
    List.inj_on_of_nodup_map h.addresses_nodup (keeps_mem hkeeps) htable
      haddress
  have hother : remote ∈ otherNodes setting peers sha3256 meanwhile key node :=
    replacementNodes_sublist.subset hremote
  rw [otherNodes] at hother
  split at hother
  · have hexcluded := (List.mem_filter.mp hother).2
    simp [hkeeps, hsame ▸ hclosest] at hexcluded
  · exact absurd hother List.not_mem_nil

theorem accounted_start :
    Accounted setting peers key node 0 (.start node) where
  once := List.nodup_nil
  replaced _ hremote := absurd hremote List.not_mem_nil
  exact := rfl
  atMost := Nat.zero_le _
  added peer := by simp [Putting.start, acknowledged]
  others _ _ := rfl

end Whole

/-! ## A node that refuses -/

def nearSetting : Setting := { lonelySetting with sort := byDistance }

def nearNode : LocalNode := { lonelyNode with routingTable := nearTable }

def near : RemoteNode := .ofAddress nearOrFar "near" 1

/-- Every node sends the reply to every request. -/
def replying (reply : DhtMessage) : Peers := ⟨id, fun _ _ => .received (some reply)⟩

def stillTable : Meanwhile := ⟨[], []⟩

def refusal : DhtMessage :=
  .error ⟨DhtResultCode.storeFailed.toInt, DhtResultCode.storeFailed.text, ""⟩

theorem byDistance_sorts : SortsByDistance byDistance :=
  sortsByDistance_insertionSort fun _ _ => id

section Near

variable (reply : DhtMessage)

theorem closestNodes_near :
    closestNodes nearSetting (replying reply) targetHex.text nearNode =
      [near] := by
  have hfind : nearNode.findNode nearSetting targetHex.text replicationFactor =
      .ok [near] := by
    decide +kernel
  rw [closestNodes, hfind]
  rfl

theorem replacementNodes_near :
    replacementNodes nearSetting (replying reply) nearOrFar stillTable
      targetHex.text nearNode = [] := by
  refine replacementNodes_of_end (.inl ?_)
  rw [closestNodes_near]
  decide

theorem requests_near :
    requests nearSetting (replying reply) nearOrFar stillTable targetHex.text
      nearNode = [(.put, near)] := by
  rw [requests, replacementNodes_near, closestNodes_near]
  rfl

end Near

theorem messageText_publishable :
    isValuePublishable expiringExternals messageText = .ok true := by
  decide

def acceptance : DhtMessage := .response .empty

end Neroshop.Rpc
