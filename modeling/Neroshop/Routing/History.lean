import Neroshop.Routing.Table

/-!
# Histories of a routing table

Nodes enter a table with the id that belongs to their address.  Every history
of additions and removals keeps the table consistent and every call does what
its result says, up to the first removal of the table's own id: its distance
to itself is 256, and there is no such bucket.
-/

namespace Neroshop.Routing

open Neroshop.Foundation

inductive Operation where
  /-- `add_node` of a node made from its address and port. -/
  | add (address : String) (port : Nat)
  | removeAddress (address : String)
  | removeId (hex : NodeIdHex)

/-- An operation, with what the array its id is read into held before. -/
structure Call where
  uninitialized : XorId
  operation : Operation

section Histories

variable (sha3256 : String → NodeIdHex)

/-- A remote node has the id that its address hashes to. -/
def RemoteNode.ofAddress (address : String) (port : Nat) : RemoteNode :=
  ⟨(sha3256 address).text, address, port⟩

def Call.exec (table : RoutingTable) (call : Call) :
    Except Fault (Bool × RoutingTable) :=
  match call.operation with
  | .add address port =>
      table.addNode call.uninitialized (.ofAddress sha3256 address port)
  | .removeAddress address => .ok (table.removeNodeByAddress address)
  | .removeId hex => table.removeNode call.uninitialized hex.text

/-- The nodes of a table are in their buckets, once, and not too many. -/
structure Sound (table : RoutingTable) : Prop where
  derived : ∀ i, ∀ node ∈ table.buckets i,
    node.id = (sha3256 node.address).text
  placed : ∀ i, ∀ node ∈ table.buckets i,
    xorDistanceBitIndex table.id (sha3256 node.address).xorId = i
  distinct : ∀ i, ((table.buckets i).map RemoteNode.id).Nodup
  bounded : ∀ i, (table.buckets i).length ≤ nodesPerBucket

/-- What holds of the content of a table and of what is read from it. -/
structure Consistent (table : RoutingTable) : Prop where
  firstDifference : ∀ i, ∀ node ∈ table.buckets i,
    DiffersFirstAt table.id.bits (sha3256 node.address).xorId.bits i
  ids : ∀ node ∈ table.getNodes, node.id = (sha3256 node.address).text
  nodup : (table.getNodes.map RemoteNode.id).Nodup
  bounded : ∀ i, (table.buckets i).length ≤ nodesPerBucket
  notSelf : ∀ node ∈ table.getNodes, (sha3256 node.address).xorId ≠ table.id
  count : table.getNodeCount = table.getNodes.length
  hasAddress : ∀ address, table.hasNodeByAddress address = true ↔
    ∃ node ∈ table.getNodes, node.address = address
  hasId : ∀ uninitialized (hex : NodeIdHex), hex.xorId ≠ table.id →
    ∃ found, table.hasNode uninitialized hex.text = .ok found ∧
      (found = true ↔ ∃ node ∈ table.getNodes, node.id = hex.text)
  getId : ∀ uninitialized (hex : NodeIdHex), hex.xorId ≠ table.id →
    ∃ found, table.getNode uninitialized hex.text = .ok found ∧
      ∀ node, found = some node ↔
        node ∈ table.getNodes ∧ node.id = hex.text

/-- The node enters, or the table stays. -/
structure Adds (table next : RoutingTable) (node : RemoteNode) (result : Bool) :
    Prop where
  accepts : result = true ↔
    (∀ other ∈ table.getNodes, other.id ≠ node.id) ∧
    (sha3256 node.address).xorId ≠ table.id ∧
    ∀ i : Fin 256,
      xorDistanceBitIndex table.id (sha3256 node.address).xorId = i →
      (table.buckets i).length < nodesPerBucket
  added : result = true → next.getNodes.Perm (node :: table.getNodes)
  refused : result = false → next = table

/-- One node of those that are asked for leaves, or none is there. -/
structure Removes (table next : RoutingTable) (asked : RemoteNode → Prop)
    (result : Bool) : Prop where
  removed : result = true ↔
    ∃ node, asked node ∧ table.getNodes.Perm (node :: next.getNodes)
  missing : result = false →
    next = table ∧ ∀ node ∈ table.getNodes, ¬ asked node

def Meets (table : RoutingTable) (operation : Operation) (result : Bool)
    (next : RoutingTable) : Prop :=
  match operation with
  | .add address port =>
      Adds sha3256 table next (.ofAddress sha3256 address port) result
  | .removeAddress address =>
      Removes table next (fun node => node.address = address) result
  | .removeId hex => Removes table next (fun node => node.id = hex.text) result

/-- The table is consistent at every point and every call meets its result. -/
def Lawful : RoutingTable → List Call → Prop
  | table, [] => Consistent sha3256 table
  | table, call :: calls =>
      Consistent sha3256 table ∧
        ∃ result next, call.exec sha3256 table = .ok (result, next) ∧
          Meets sha3256 table call.operation result next ∧ Lawful next calls

def RemovesSelf (own : XorId) : Operation → Prop
  | .removeId hex => hex.xorId = own
  | _ => False

variable {sha3256} {table : RoutingTable}

theorem sound_create (own : XorId) : Sound sha3256 (.create own) where
  derived := by simp [RoutingTable.create]
  placed := by simp [RoutingTable.create]
  distinct := by simp [RoutingTable.create]
  bounded := by simp [RoutingTable.create]

/-! ## What soundness says about the content -/

theorem Sound.bucket_of_id (h : Sound sha3256 table) {i : Fin 256}
    {node : RemoteNode} (hmem : node ∈ table.buckets i) {hex : NodeIdHex}
    (hid : node.id = hex.text) : xorDistanceBitIndex table.id hex.xorId = i := by
  have hhex : sha3256 node.address = hex :=
    NodeIdHex.ext ((h.derived i node hmem).symm.trans hid)
  rw [← hhex]
  exact h.placed i node hmem

theorem Sound.notSelf (h : Sound sha3256 table) {node : RemoteNode}
    (hmem : node ∈ table.getNodes) :
    (sha3256 node.address).xorId ≠ table.id := by
  obtain ⟨i, hnode⟩ := RoutingTable.mem_getNodes.mp hmem
  intro heq
  have hplaced := h.placed i node hnode
  rw [xorDistanceBitIndex_eq_size.mpr heq.symm] at hplaced
  omega

theorem Sound.unique (h : Sound sha3256 table) {first second : RemoteNode}
    (hfirst : first ∈ table.getNodes) (hsecond : second ∈ table.getNodes)
    (hid : first.id = second.id) : first = second := by
  obtain ⟨i, hmem⟩ := RoutingTable.mem_getNodes.mp hfirst
  obtain ⟨j, hmem'⟩ := RoutingTable.mem_getNodes.mp hsecond
  have hindex : i = j := by
    have hhex : first.id = (sha3256 second.address).text :=
      hid.trans (h.derived j second hmem')
    have hi := h.bucket_of_id hmem hhex
    exact Fin.ext (hi.symm.trans (h.placed j second hmem'))
  subst hindex
  exact List.inj_on_of_nodup_map (h.distinct i) hmem hmem' hid

theorem Sound.nodup (h : Sound sha3256 table) :
    (table.getNodes.map RemoteNode.id).Nodup := by
  rw [RoutingTable.getNodes, List.map_flatMap, List.nodup_flatMap]
  refine ⟨fun i _ => h.distinct i, ?_⟩
  refine (List.nodup_finRange 256).imp fun {i j} hne => ?_
  intro id hi hj
  obtain ⟨first, hfirst, rfl⟩ := List.mem_map.mp hi
  obtain ⟨second, hsecond, hid⟩ := List.mem_map.mp hj
  have hsame := h.unique (RoutingTable.mem_getNodes.mpr ⟨j, hsecond⟩)
    (RoutingTable.mem_getNodes.mpr ⟨i, hfirst⟩) hid
  subst hsame
  exact hne (Fin.ext ((h.placed i _ hfirst).symm.trans (h.placed j _ hsecond)))

theorem Sound.bucketOf (h : Sound sha3256 table) (uninitialized : XorId)
    {hex : NodeIdHex} (hne : hex.xorId ≠ table.id) :
    ∃ i, table.bucketOf uninitialized hex.text = .ok (table.buckets i) ∧
      ∀ node, node.id = hex.text →
        (node ∈ table.buckets i ↔ node ∈ table.getNodes) := by
  refine ⟨_, RoutingTable.bucketOf_of_ne uninitialized hne,
    fun node hid => ⟨fun hmem => ?_, fun hmem => ?_⟩⟩
  · exact RoutingTable.mem_getNodes.mpr ⟨_, hmem⟩
  · obtain ⟨i, hnode⟩ := RoutingTable.mem_getNodes.mp hmem
    have hi := h.bucket_of_id hnode hid
    rwa [Fin.eq_mk_iff_val_eq.mpr hi.symm] at hnode

theorem Sound.consistent (h : Sound sha3256 table) :
    Consistent sha3256 table where
  firstDifference i node hmem := by
    have hne := h.notSelf (RoutingTable.mem_getNodes.mpr ⟨i, hmem⟩)
    rw [← h.placed i node hmem]
    exact differsFirstAt_distance hne.symm
  ids node hmem := by
    obtain ⟨i, hnode⟩ := RoutingTable.mem_getNodes.mp hmem
    exact h.derived i node hnode
  nodup := h.nodup
  bounded := h.bounded
  notSelf node hmem := h.notSelf hmem
  count := table.getNodeCount_eq
  hasAddress address := RoutingTable.hasNodeByAddress_iff
  hasId uninitialized hex hne := by
    obtain ⟨i, hbucket, hmem⟩ := h.bucketOf uninitialized hne
    refine ⟨_, by rw [RoutingTable.hasNode, hbucket]; rfl, ?_⟩
    simp only [List.any_eq_true, decide_eq_true_eq]
    constructor
    · rintro ⟨node, hnode, hid⟩
      exact ⟨node, (hmem node hid).mp hnode, hid⟩
    · rintro ⟨node, hnode, hid⟩
      exact ⟨node, (hmem node hid).mpr hnode, hid⟩
  getId uninitialized hex hne := by
    obtain ⟨i, hbucket, hmem⟩ := h.bucketOf uninitialized hne
    refine ⟨_, by rw [RoutingTable.getNode, hbucket]; rfl, fun node => ?_⟩
    constructor
    · intro hfind
      have hid : node.id = hex.text := by simpa using List.find?_some hfind
      exact ⟨(hmem node hid).mp (List.mem_of_find?_eq_some hfind), hid⟩
    · rintro ⟨hnode, hid⟩
      have hbucketNode := (hmem node hid).mpr hnode
      cases hfind : (table.buckets i).find? fun node => node.id = hex.text with
      | none =>
          have hnone := List.find?_eq_none.mp hfind node hbucketNode
          simp [hid] at hnone
      | some found =>
          have hfound : found.id = hex.text := by
            simpa using List.find?_some hfind
          have hsame := h.unique
            ((hmem found hfound).mp (List.mem_of_find?_eq_some hfind)) hnode
            (hfound.trans hid.symm)
          rw [hsame]

/-! ## What each call does -/

theorem Sound.setBucket (h : Sound sha3256 table) {i : Fin 256}
    {nodes : List RemoteNode}
    (hderived : ∀ node ∈ nodes, node.id = (sha3256 node.address).text)
    (hplaced : ∀ node ∈ nodes,
      xorDistanceBitIndex table.id (sha3256 node.address).xorId = i)
    (hdistinct : (nodes.map RemoteNode.id).Nodup)
    (hbounded : nodes.length ≤ nodesPerBucket) :
    Sound sha3256 (table.setBucket i nodes) := by
  constructor <;> intro j <;> by_cases hj : j = i
  · subst hj
    simpa [RoutingTable.setBucket] using hderived
  · simpa [RoutingTable.setBucket, hj] using h.derived j
  · subst hj
    simpa [RoutingTable.setBucket] using hplaced
  · simpa [RoutingTable.setBucket, hj] using h.placed j
  · subst hj
    simpa [RoutingTable.setBucket] using hdistinct
  · simpa [RoutingTable.setBucket, hj] using h.distinct j
  · subst hj
    simpa [RoutingTable.setBucket] using hbounded
  · simpa [RoutingTable.setBucket, hj] using h.bounded j

theorem Sound.setBucket_sublist (h : Sound sha3256 table) {i : Fin 256}
    {nodes : List RemoteNode} (hnodes : nodes.Sublist (table.buckets i)) :
    Sound sha3256 (table.setBucket i nodes) :=
  h.setBucket (fun node hmem => h.derived i node (hnodes.subset hmem))
    (fun node hmem => h.placed i node (hnodes.subset hmem))
    ((hnodes.map _).nodup (h.distinct i))
    (hnodes.length_le.trans (h.bounded i))

theorem Sound.addNode (h : Sound sha3256 table) (uninitialized : XorId)
    (address : String) (port : Nat) :
    ∃ result next,
      table.addNode uninitialized (.ofAddress sha3256 address port) =
        .ok (result, next) ∧
      Adds sha3256 table next (.ofAddress sha3256 address port) result ∧
      Sound sha3256 next ∧ next.id = table.id := by
  generalize hnode : RemoteNode.ofAddress sha3256 address port = node
  have hid : node.id = (sha3256 node.address).text := by rw [← hnode]; rfl
  simp only [RoutingTable.addNode, hid, hexStringToNodeId_text, bind,
    Except.bind, pure, Except.pure]
  by_cases hself : (sha3256 node.address).xorId = table.id
  · rw [if_pos hself]
    exact ⟨false, table, rfl, ⟨by simp [hself], by simp, fun _ => rfl⟩, h, rfl⟩
  have hindex : xorDistanceBitIndex table.id (sha3256 node.address).xorId <
      256 := xorDistanceBitIndex_lt hself
  rw [if_neg hself, dif_pos hindex]
  generalize hi : (⟨_, hindex⟩ : Fin 256) = i
  have hval : xorDistanceBitIndex table.id (sha3256 node.address).xorId = i :=
    (Fin.ext_iff.mp hi)
  split
  · next hany =>
      refine ⟨false, table, rfl, ⟨?_, by simp, fun _ => rfl⟩, h, rfl⟩
      simp only [List.any_eq_true, decide_eq_true_eq] at hany
      obtain ⟨other, hother, hsame⟩ := hany
      simp only [Bool.false_eq_true, false_iff, not_and]
      intro habsent
      exact absurd (hsame.trans hid.symm)
        (habsent other (RoutingTable.mem_getNodes.mpr ⟨i, hother⟩))
  next hany =>
  simp only [List.any_eq_true, decide_eq_true_eq, not_exists, not_and] at hany
  split
  · next hfull =>
      refine ⟨false, table, rfl, ⟨?_, by simp, fun _ => rfl⟩, h, rfl⟩
      simp only [Bool.false_eq_true, false_iff, not_and]
      intro _ _ hroom
      exact absurd (hroom i hval) (not_lt.mpr hfull)
  · next hroom =>
      refine ⟨true, _, rfl, ⟨?_, fun _ => RoutingTable.getNodes_add_perm .., by
        simp⟩, ?_, rfl⟩
      · refine iff_of_true rfl ⟨fun other hother hsame => ?_, hself, ?_⟩
        · obtain ⟨j, hmem⟩ := RoutingTable.mem_getNodes.mp hother
          have hj := h.bucket_of_id hmem (hsame.trans hid)
          have hij : j = i := Fin.ext (hj.symm.trans hval)
          subst hij
          exact hany other hmem (hsame.trans hid)
        · intro j hj
          have hij : j = i := Fin.ext (hj.symm.trans hval)
          subst hij
          exact not_le.mp hroom
      · refine h.setBucket ?_ ?_ ?_ ?_
        · intro other hmem
          rcases List.mem_append.mp hmem with hmem | hmem
          · exact h.derived i other hmem
          · rw [List.mem_singleton.mp hmem, hid]
        · intro other hmem
          rcases List.mem_append.mp hmem with hmem | hmem
          · exact h.placed i other hmem
          · rw [List.mem_singleton.mp hmem, hval]
        · rw [List.map_append, List.nodup_append]
          refine ⟨h.distinct i, by simp, ?_⟩
          rintro id hmem id' hmem' rfl
          obtain ⟨other, hother, heq⟩ := List.mem_map.mp hmem
          simp only [List.map_cons, List.map_nil, List.mem_singleton] at hmem'
          exact hany other hother (heq.trans (hmem'.trans hid))
        · rw [List.length_append, List.length_singleton]
          omega

theorem removes_one {next : RoutingTable} {asked : RemoteNode → Prop}
    {node : RemoteNode} (hasked : asked node)
    (hperm : table.getNodes.Perm (node :: next.getNodes)) :
    Removes table next asked true :=
  ⟨iff_of_true rfl ⟨node, hasked, hperm⟩, by simp⟩

theorem removes_none {asked : RemoteNode → Prop}
    (hnone : ∀ node ∈ table.getNodes, ¬ asked node) :
    Removes table table asked false := by
  refine ⟨?_, fun _ => ⟨rfl, hnone⟩⟩
  simp only [Bool.false_eq_true, false_iff, not_exists, not_and]
  intro node _ hperm
  have hlength := hperm.length_eq
  simp at hlength

theorem Sound.filter_address (h : Sound sha3256 table) {i : Fin 256}
    {node : RemoteNode} (hmem : node ∈ table.buckets i) :
    (table.buckets i).filter (fun other => other.address = node.address) =
      [node] := by
  have hnodup : (table.buckets i).Nodup := (h.distinct i).of_map _
  have hall : ∀ other ∈ (table.buckets i).filter
      (fun other => other.address = node.address), other = node := by
    intro other hother
    obtain ⟨hother, haddress⟩ := List.mem_filter.mp hother
    refine List.inj_on_of_nodup_map (h.distinct i) hother hmem ?_
    rw [h.derived i other hother, h.derived i node hmem,
      of_decide_eq_true haddress]
  have hself : node ∈ (table.buckets i).filter
      (fun other => other.address = node.address) :=
    List.mem_filter.mpr ⟨hmem, by simp⟩
  have hfiltered := hnodup.filter fun other => other.address = node.address
  cases hfilter : (table.buckets i).filter
      (fun other => other.address = node.address) with
  | nil => simp [hfilter] at hself
  | cons head tail =>
      rw [hfilter] at hall hfiltered
      have hhead := hall head (List.mem_cons_self ..)
      cases tail with
      | nil => rw [hhead]
      | cons second tail =>
          have hsecond := hall second (by simp)
          rw [hhead, hsecond] at hfiltered
          simp at hfiltered

theorem Sound.removeNodeByAddress (h : Sound sha3256 table)
    (address : String) :
    Removes table (table.removeNodeByAddress address).2
        (fun node => node.address = address)
        (table.removeNodeByAddress address).1 ∧
      Sound sha3256 (table.removeNodeByAddress address).2 ∧
      (table.removeNodeByAddress address).2.id = table.id := by
  rw [RoutingTable.removeNodeByAddress]
  split
  · next hnone =>
      refine ⟨removes_none fun node hmem => ?_, h, rfl⟩
      obtain ⟨i, hnode⟩ := RoutingTable.mem_getNodes.mp hmem
      have hi := List.find?_eq_none.mp hnone i (List.mem_finRange i)
      simp only [List.any_eq_true, decide_eq_true_eq, not_exists,
        not_and] at hi
      exact hi node hnode
  · next i hsome =>
      have hi := List.find?_some hsome
      simp only [List.any_eq_true, decide_eq_true_eq] at hi
      obtain ⟨node, hnode, rfl⟩ := hi
      refine ⟨removes_one rfl (RoutingTable.getNodes_remove_perm ?_),
        h.setBucket_sublist List.filter_sublist, rfl⟩
      have hsplit := List.filter_append_perm
        (fun other => decide (other.address = node.address)) (table.buckets i)
      rw [h.filter_address hnode] at hsplit
      refine hsplit.symm.trans (.of_eq ?_)
      simp

theorem Sound.removeNode (h : Sound sha3256 table) (uninitialized : XorId)
    {hex : NodeIdHex} (hne : hex.xorId ≠ table.id) :
    ∃ result next,
      table.removeNode uninitialized hex.text = .ok (result, next) ∧
      Removes table next (fun node => node.id = hex.text) result ∧
      Sound sha3256 next ∧ next.id = table.id := by
  have hindex : xorDistanceBitIndex table.id hex.xorId < 256 :=
    xorDistanceBitIndex_lt hne
  simp only [RoutingTable.removeNode, hexStringToNodeId_text]
  rw [dif_pos hindex]
  split
  · next hany =>
      simp only [List.any_eq_true] at hany
      obtain ⟨found, hfound, hid⟩ := hany
      obtain ⟨node, front, back, -, hnode, hbucket, herase⟩ :=
        List.exists_of_eraseP (p := fun node => decide (node.id = hex.text))
          hfound hid
      refine ⟨true, _, rfl, removes_one (by simpa using hnode)
        (RoutingTable.getNodes_remove_perm ?_),
        h.setBucket_sublist List.eraseP_sublist, rfl⟩
      rw [herase, hbucket]
      exact List.perm_middle
  · next hany =>
      refine ⟨false, table, rfl, removes_none fun node hmem hid => ?_, h, rfl⟩
      obtain ⟨i, hnode⟩ := RoutingTable.mem_getNodes.mp hmem
      have hi := h.bucket_of_id hnode hid
      have heq : i = ⟨_, hindex⟩ := Fin.ext hi.symm
      rw [heq] at hnode
      exact hany (List.any_eq_true.mpr ⟨node, hnode, by simpa using hid⟩)

theorem removeNode_self (uninitialized : XorId) {hex : NodeIdHex}
    (hself : hex.xorId = table.id) :
    table.removeNode uninitialized hex.text = .error .outOfBounds := by
  have hindex : xorDistanceBitIndex table.id hex.xorId = 256 :=
    xorDistanceBitIndex_eq_size.mpr hself.symm
  simp only [RoutingTable.removeNode, hexStringToNodeId_text]
  rw [dif_neg (by omega)]

theorem Sound.exec (h : Sound sha3256 table) {call : Call}
    (hself : ¬ RemovesSelf table.id call.operation) :
    ∃ result next, call.exec sha3256 table = .ok (result, next) ∧
      Meets sha3256 table call.operation result next ∧
      Sound sha3256 next ∧ next.id = table.id := by
  obtain ⟨uninitialized, operation⟩ := call
  cases operation with
  | add address port => exact h.addNode uninitialized address port
  | removeAddress address =>
      exact ⟨_, _, rfl, h.removeNodeByAddress address⟩
  | removeId hex => exact h.removeNode uninitialized hself

theorem exec_self {call : Call} (hself : RemovesSelf table.id call.operation) :
    call.exec sha3256 table = .error .outOfBounds := by
  obtain ⟨uninitialized, operation⟩ := call
  cases operation with
  | add => exact hself.elim
  | removeAddress => exact hself.elim
  | removeId hex => exact removeNode_self uninitialized hself

theorem Sound.lawful_iff (h : Sound sha3256 table) (calls : List Call) :
    Lawful sha3256 table calls ↔
      ∀ call ∈ calls, ¬ RemovesSelf table.id call.operation := by
  induction calls generalizing table with
  | nil => exact iff_of_true h.consistent (by simp)
  | cons call calls ih =>
      rw [List.forall_mem_cons, Lawful]
      by_cases hself : RemovesSelf table.id call.operation
      · refine iff_of_false ?_ fun hnot => hnot.1 hself
        rintro ⟨-, result, next, hexec, -⟩
        rw [exec_self hself] at hexec
        cases hexec
      · obtain ⟨result, next, hexec, hmeets, hsound, hid⟩ := h.exec hself
        have hrest := ih hsound
        rw [hid] at hrest
        constructor
        · rintro ⟨-, result', next', hexec', -, hlawful⟩
          rw [hexec, Except.ok.injEq, Prod.mk.injEq] at hexec'
          obtain ⟨-, rfl⟩ := hexec'
          exact ⟨hself, hrest.mp hlawful⟩
        · rintro ⟨-, hall⟩
          exact ⟨h.consistent, result, next, hexec, hmeets, hrest.mpr hall⟩

/--
A history of additions and removals keeps the table consistent, with every
call doing what its result says, exactly when it never removes the own id.
-/
theorem histories_lawful_iff (own : XorId) (calls : List Call) :
    Lawful sha3256 (.create own) calls ↔
      ∀ call ∈ calls, ¬ RemovesSelf own call.operation :=
  (sound_create own).lawful_iff calls

end Histories

/-! ## A table that is told to remove itself -/

def ownHex : NodeIdHex where
  text := "59b574e379b0825dacb4821724f94f9b9e2ff4fd9a652996d10db5d1b3780a97"
  length := by decide +kernel
  digits := by decide +kernel

/-- The first call of a history leaves the array of buckets. -/
theorem remove_self_faults :
    Call.exec (fun _ => ownHex) (.create ownHex.xorId)
        ⟨XorId.zero, .removeId ownHex⟩ = .error .outOfBounds ∧
      ¬ Lawful (fun _ => ownHex) (.create ownHex.xorId)
        [⟨XorId.zero, .removeId ownHex⟩] := by
  refine ⟨rfl, ?_⟩
  rintro ⟨-, result, next, hexec, -⟩
  cases hexec

end Neroshop.Routing
