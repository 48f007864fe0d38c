import Mathlib.Data.List.Sort
import Mathlib.Data.Prod.Lex
import Neroshop.Foundation.Transition
import Neroshop.Routing.History

/-!
# The closest nodes

`find_closest_nodes` sorts by `xor_distance_bit_index`, which is the longer the
closer two ids are, and puts the smallest first.  Nodes with the same index are
left to the sort, which compares nothing else.
-/

namespace Neroshop.Routing

open Neroshop.Foundation

/-! ## The metric -/

/-- The number with a one for each bit on which the ids differ. -/
def xorMetric (first second : XorId) : Nat :=
  numberOf (List.zipWith (fun a b => decide (a ≠ b)) first.bits second.bits)

/-- The longer the common prefix with the target, the closer. -/
theorem xorMetric_lt {target near far : XorId}
    (h : xorDistanceBitIndex target far < xorDistanceBitIndex target near) :
    xorMetric target near < xorMetric target far := by
  have hlength : ∀ id : XorId, target.bits.length = id.bits.length := by
    intro id
    rw [length_bits, length_bits]
  rw [xorDistanceBitIndex_eq, xorDistanceBitIndex_eq,
    commonFront_eq_findIdx _ _ (hlength far),
    commonFront_eq_findIdx _ _ (hlength near)] at h
  refine numberOf_lt_of_findIdx ?_ h
  rw [List.length_zipWith, List.length_zipWith, length_bits, length_bits,
    length_bits]

/-! ## What is asked of the sort, and of the result -/

/-- `std::sort` by `operator<`, which says nothing of elements that are equal. -/
structure SortsByDistance
    (sort : List RoutingTable.ScoredNode → List RoutingTable.ScoredNode) :
    Prop where
  perm : ∀ nodes, (sort nodes).Perm nodes
  sorted : ∀ nodes, (sort nodes).Pairwise (·.distance ≤ ·.distance)

section Selection

variable (sha3256 : String → NodeIdHex)

/-- The id of a node that entered the table with its address. -/
def RemoteNode.xorId (node : RemoteNode) : XorId :=
  (sha3256 node.address).xorId

/-- The nodes of the table that are not the target itself. -/
def RoutingTable.candidates (table : RoutingTable) (target : XorId) :
    List RemoteNode :=
  table.getNodes.filter fun node => node.xorId sha3256 ≠ target

/-- The result has as many of the candidates as it should, the closest first. -/
structure Closest (candidates : List RemoteNode) (target : XorId) (count : Nat)
    (result : List RemoteNode) : Prop where
  length : result.length = min count candidates.length
  distinct : result.Nodup
  candidate : ∀ node ∈ result, node ∈ candidates
  nearest : ∀ node ∈ result, ∀ omitted ∈ candidates, omitted ∉ result →
    ¬ xorMetric target (omitted.xorId sha3256) <
      xorMetric target (node.xorId sha3256)
  ordered : result.Pairwise fun first second =>
    xorMetric target (first.xorId sha3256) ≤
      xorMetric target (second.xorId sha3256)

/-- Additions and removals, as far as they return. -/
def RoutingTable.step (table : RoutingTable) (call : Call) :
    Option RoutingTable :=
  match call.exec sha3256 table with
  | .ok (_, next) => some next
  | .error _ => none

def RoutingTable.score (target : XorId) (node : RemoteNode) :
    RoutingTable.ScoredNode :=
  ⟨node, xorDistanceBitIndex target (node.xorId sha3256)⟩

variable {sha3256} {table : RoutingTable}

theorem sound_of_run {own : XorId} {calls : List Call}
    (hrun : runFrom (RoutingTable.step sha3256) (.create own) calls =
      some table) : Sound sha3256 table := by
  refine runFrom_invariant_of_step (fun before call next hsound hstep => ?_)
    hrun (sound_create own)
  by_cases hself : RemovesSelf before.id call.operation
  · rw [RoutingTable.step, exec_self hself] at hstep
    cases hstep
  · obtain ⟨result, after, hexec, -, hafter, -⟩ := hsound.exec hself
    rw [RoutingTable.step, hexec, Option.some.injEq] at hstep
    exact hstep ▸ hafter

/-! ## What is found -/

theorem scoreNodes_eq (h : Sound sha3256 table) (uninitialized target : XorId)
    {nodes : List RemoteNode} (hnodes : ∀ node ∈ nodes, node ∈ table.getNodes) :
    RoutingTable.scoreNodes uninitialized target nodes =
      .ok ((nodes.filter fun node => node.xorId sha3256 ≠ target).map
        (RoutingTable.score sha3256 target)) := by
  induction nodes with
  | nil => rfl
  | cons node nodes ih =>
      obtain ⟨hnode, hrest⟩ := List.forall_mem_cons.mp hnodes
      have hread : hexStringToNodeId uninitialized node.id =
          .ok (node.xorId sha3256) := by
        rw [h.consistent.ids node hnode]
        exact hexStringToNodeId_text uninitialized _
      simp only [RoutingTable.scoreNodes, hread, ih hrest, bind, Except.bind,
        pure, Except.pure, xorDistanceBitIndex_eq_size, List.filter_cons]
      by_cases hself : target = node.xorId sha3256
      · rw [if_pos hself, if_neg (by simp [hself])]
      · rw [if_neg hself, if_pos (by simpa using Ne.symm hself)]
        rfl

/-- The candidates, in the order that the sort gives them. -/
def arranged (sha3256 : String → NodeIdHex)
    (sort : List RoutingTable.ScoredNode → List RoutingTable.ScoredNode)
    (table : RoutingTable) (target : XorId) : List RemoteNode :=
  (sort ((table.candidates sha3256 target).map
    (RoutingTable.score sha3256 target))).map RoutingTable.ScoredNode.node

variable {sort : List RoutingTable.ScoredNode → List RoutingTable.ScoredNode}

theorem findClosestNodes_of_read (h : Sound sha3256 table)
    {uninitialized target : XorId} {key : String}
    (hkey : hexStringToNodeId uninitialized key = .ok target) (count : Nat) :
    table.findClosestNodes sort uninitialized key count =
      .ok ((arranged sha3256 sort table target).take count) := by
  have hscored := scoreNodes_eq h uninitialized target fun _ hnode => hnode
  simp only [RoutingTable.findClosestNodes, hkey, hscored, bind, Except.bind,
    pure, Except.pure, arranged, List.map_take]
  rfl

theorem findClosestNodes_eq (h : Sound sha3256 table) (uninitialized : XorId)
    (target : NodeIdHex) (count : Nat) :
    table.findClosestNodes sort uninitialized target.text count =
      .ok ((arranged sha3256 sort table target.xorId).take count) :=
  findClosestNodes_of_read h (hexStringToNodeId_text uninitialized target) count

theorem arranged_perm (hsort : SortsByDistance sort) (target : XorId) :
    (arranged sha3256 sort table target).Perm
      (table.candidates sha3256 target) := by
  refine ((hsort.perm _).map RoutingTable.ScoredNode.node).trans (.of_eq ?_)
  rw [List.map_map]
  exact List.map_id _

theorem distance_of_mem (hsort : SortsByDistance sort) {target : XorId}
    {scored : RoutingTable.ScoredNode}
    (h : scored ∈ sort ((table.candidates sha3256 target).map
      (RoutingTable.score sha3256 target))) :
    scored.distance =
      xorDistanceBitIndex target (scored.node.xorId sha3256) := by
  obtain ⟨node, -, rfl⟩ := List.mem_map.mp ((hsort.perm _).mem_iff.mp h)
  rfl

/-- The smallest index comes first. -/
theorem arranged_sorted (hsort : SortsByDistance sort) (target : XorId) :
    (arranged sha3256 sort table target).Pairwise fun first second =>
      xorDistanceBitIndex target (first.xorId sha3256) ≤
        xorDistanceBitIndex target (second.xorId sha3256) := by
  rw [arranged, List.pairwise_map]
  refine (hsort.sorted _).imp_of_mem fun {first second} hfirst hsecond hle => ?_
  rwa [distance_of_mem hsort hfirst, distance_of_mem hsort hsecond] at hle

theorem candidates_nodup (h : Sound sha3256 table) (target : XorId) :
    (table.candidates sha3256 target).Nodup :=
  h.nodup.of_map.filter _

/-- Number, distinctness and membership never fail. -/
theorem closest_iff (h : Sound sha3256 table) (hsort : SortsByDistance sort)
    {target : XorId} {count : Nat} :
    Closest sha3256 (table.candidates sha3256 target) target count
        ((arranged sha3256 sort table target).take count) ↔
      (∀ node ∈ (arranged sha3256 sort table target).take count,
        ∀ omitted ∈ table.candidates sha3256 target,
          omitted ∉ (arranged sha3256 sort table target).take count →
          ¬ xorMetric target (omitted.xorId sha3256) <
            xorMetric target (node.xorId sha3256)) ∧
      ((arranged sha3256 sort table target).take count).Pairwise
        fun first second => xorMetric target (first.xorId sha3256) ≤
          xorMetric target (second.xorId sha3256) := by
  have hperm : (arranged sha3256 sort table target).Perm
      (table.candidates sha3256 target) := arranged_perm hsort target
  constructor
  · exact fun hclosest => ⟨hclosest.nearest, hclosest.ordered⟩
  · rintro ⟨hnearest, hordered⟩
    refine ⟨?_, ?_, ?_, hnearest, hordered⟩
    · rw [List.length_take, hperm.length_eq]
    · exact (hperm.nodup_iff.mpr (candidates_nodup h target)).sublist
        (List.take_sublist _ _)
    · exact fun node hnode => hperm.mem_iff.mp (List.mem_of_mem_take hnode)

/-- Whatever is sorted first would have to be the closest of all. -/
theorem Closest.head_le {candidates nodes : List RemoteNode} {target : XorId}
    {count : Nat} {head : RemoteNode}
    (h : Closest sha3256 candidates target (count + 1)
      ((head :: nodes).take (count + 1)))
    {node : RemoteNode} (hnode : node ∈ candidates) :
    xorMetric target (head.xorId sha3256) ≤
      xorMetric target (node.xorId sha3256) := by
  rw [List.take_succ_cons] at h
  by_cases hmem : node ∈ head :: nodes.take count
  · rcases List.mem_cons.mp hmem with rfl | hrest
    · exact le_rfl
    · exact (List.pairwise_cons.mp h.ordered).1 node hrest
  · exact Nat.le_of_not_lt (h.nearest head List.mem_cons_self node hnode hmem)

theorem exists_head (hsort : SortsByDistance sort) {target : XorId}
    {node : RemoteNode} (hnode : node ∈ table.candidates sha3256 target) :
    ∃ head nodes, arranged sha3256 sort table target = head :: nodes ∧
      ∀ other ∈ table.candidates sha3256 target,
        other = head ∨ other ∈ nodes := by
  have hperm : (arranged sha3256 sort table target).Perm
      (table.candidates sha3256 target) := arranged_perm hsort target
  cases harranged : arranged sha3256 sort table target with
  | nil =>
      rw [harranged] at hperm
      rw [← hperm.nil_eq] at hnode
      exact absurd hnode List.not_mem_nil
  | cons head nodes =>
      refine ⟨head, nodes, rfl, fun other hother => ?_⟩
      rw [harranged] at hperm
      exact List.mem_cons.mp (hperm.mem_iff.mpr hother)

/-- No sort helps where the candidates are not all at one index. -/
theorem same_index_of_closest (hsort : SortsByDistance sort) {target : XorId}
    {count : Nat}
    (h : Closest sha3256 (table.candidates sha3256 target) target (count + 1)
      ((arranged sha3256 sort table target).take (count + 1)))
    {first second : RemoteNode}
    (hfirst : first ∈ table.candidates sha3256 target)
    (hsecond : second ∈ table.candidates sha3256 target) :
    xorDistanceBitIndex target (first.xorId sha3256) ≤
      xorDistanceBitIndex target (second.xorId sha3256) := by
  obtain ⟨head, nodes, harranged, hmem⟩ := exists_head hsort hfirst
  have hsorted : (arranged sha3256 sort table target).Pairwise _ :=
    arranged_sorted hsort target
  rw [harranged] at h hsorted
  have hfar : xorDistanceBitIndex target (head.xorId sha3256) ≤
      xorDistanceBitIndex target (second.xorId sha3256) := by
    rcases hmem second hsecond with rfl | hrest
    · exact le_rfl
    · exact (List.pairwise_cons.mp hsorted).1 second hrest
  have hnear : xorDistanceBitIndex target (first.xorId sha3256) ≤
      xorDistanceBitIndex target (head.xorId sha3256) := by
    by_contra hlonger
    have hcloser := xorMetric_lt (Nat.lt_of_not_le hlonger)
    exact Nat.not_lt.mpr (h.head_le hfirst) hcloser
  exact hnear.trans hfar

/-! ## Sorting by a key -/

theorem pairwise_insertionSort_key {Element Key : Type} [LinearOrder Key]
    (key : Element → Key) (elements : List Element) :
    (elements.insertionSort fun first second => key first ≤ key second).Pairwise
      fun first second => key first ≤ key second := by
  have htotal : Std.Total fun first second : Element =>
      key first ≤ key second := ⟨fun _ _ => le_total _ _⟩
  have htrans : IsTrans Element fun first second =>
      key first ≤ key second := ⟨fun _ _ _ => le_trans⟩
  exact List.pairwise_insertionSort _ elements

theorem sortsByDistance_insertionSort {Key : Type} [LinearOrder Key]
    {key : RoutingTable.ScoredNode → Key}
    (hkey : ∀ first second, key first ≤ key second →
      first.distance ≤ second.distance) :
    SortsByDistance (List.insertionSort fun first second =>
      key first ≤ key second) where
  perm := List.perm_insertionSort _
  sorted nodes := (pairwise_insertionSort_key key nodes).imp fun {_ _} => hkey _ _

/-- By index, and of those at one index the farthest first. -/
def farthestKey (sha3256 : String → NodeIdHex) (target : XorId)
    (scored : RoutingTable.ScoredNode) : Lex (Nat × OrderDual Nat) :=
  toLex (scored.distance,
    OrderDual.toDual (xorMetric target (scored.node.xorId sha3256)))

def farthestFirst (sha3256 : String → NodeIdHex) (target : XorId) :
    List RoutingTable.ScoredNode → List RoutingTable.ScoredNode :=
  List.insertionSort fun first second =>
    farthestKey sha3256 target first ≤ farthestKey sha3256 target second

theorem farthestFirst_sorts (target : XorId) :
    SortsByDistance (farthestFirst sha3256 target) :=
  sortsByDistance_insertionSort fun _ _ hle =>
    (Prod.Lex.toLex_le_toLex.mp hle).elim le_of_lt fun heq => heq.1.le

/-- This sort has every node in front of all that are closer than it is. -/
theorem farthestFirst_arranged (target : XorId) :
    (arranged sha3256 (farthestFirst sha3256 target) table target).Pairwise
      fun first second => xorMetric target (second.xorId sha3256) ≤
        xorMetric target (first.xorId sha3256) := by
  rw [arranged, List.pairwise_map]
  refine (pairwise_insertionSort_key (farthestKey sha3256 target) _).imp_of_mem
    fun {first second} hfirst hsecond hle => ?_
  have hsort : SortsByDistance (farthestFirst sha3256 target) :=
    farthestFirst_sorts target
  rcases Prod.Lex.toLex_le_toLex.mp hle with hless | ⟨-, hmetric⟩
  · dsimp only at hless
    rw [distance_of_mem hsort hfirst, distance_of_mem hsort hsecond] at hless
    exact (xorMetric_lt hless).le
  · exact OrderDual.toDual_le_toDual.mp hmetric

/--
The nodes found are the closest ones, closest first, however the sort treats
equal elements, exactly when none are asked for or all of them are equally
close.
-/
theorem find_closest_nodes_iff {own : XorId} {calls : List Call}
    (hrun : runFrom (RoutingTable.step sha3256) (.create own) calls =
      some table) (uninitialized : XorId) (target : NodeIdHex) (count : Nat) :
    (∀ sort, SortsByDistance sort →
      ∃ result,
        table.findClosestNodes sort uninitialized target.text count =
            .ok result ∧
          Closest sha3256 (table.candidates sha3256 target.xorId) target.xorId
            count result) ↔
      count = 0 ∨
        ∀ first ∈ table.candidates sha3256 target.xorId,
          ∀ second ∈ table.candidates sha3256 target.xorId,
            xorMetric target.xorId (first.xorId sha3256) =
              xorMetric target.xorId (second.xorId sha3256) := by
  have hsound := sound_of_run hrun
  constructor
  · intro h
    cases count with
    | zero => exact .inl rfl
    | succ count =>
        have hsort : SortsByDistance (farthestFirst sha3256 target.xorId) :=
          farthestFirst_sorts target.xorId
        obtain ⟨result, hresult, hclosest⟩ := h _ hsort
        rw [findClosestNodes_eq hsound, Except.ok.injEq] at hresult
        rw [← hresult] at hclosest
        refine .inr fun first hfirst second hsecond => ?_
        obtain ⟨head, nodes, harranged, hmem⟩ := exists_head hsort hfirst
        have hsorted : (arranged sha3256 (farthestFirst sha3256 target.xorId)
          table target.xorId).Pairwise _ := farthestFirst_arranged target.xorId
        rw [harranged] at hclosest hsorted
        -- the farthest node is the first one, and may be no farther than others
        have hequal : ∀ node ∈ table.candidates sha3256 target.xorId,
            xorMetric target.xorId (node.xorId sha3256) =
              xorMetric target.xorId (head.xorId sha3256) := by
          intro node hnode
          refine le_antisymm ?_ (hclosest.head_le hnode)
          rcases hmem node hnode with rfl | hrest
          · exact le_rfl
          · exact (List.pairwise_cons.mp hsorted).1 node hrest
        rw [hequal first hfirst, hequal second hsecond]
  · intro hcondition sort hsort
    refine ⟨_, findClosestNodes_eq hsound uninitialized target count, ?_⟩
    rw [closest_iff hsound hsort]
    rcases hcondition with rfl | hequal
    · rw [List.take_zero]
      exact ⟨fun node hnode => absurd hnode List.not_mem_nil, .nil⟩
    · have hperm : (arranged sha3256 sort table target.xorId).Perm _ :=
        arranged_perm hsort target.xorId
      have hcandidate : ∀ node ∈
          (arranged sha3256 sort table target.xorId).take count,
          node ∈ table.candidates sha3256 target.xorId :=
        fun node hnode => hperm.mem_iff.mp (List.mem_of_mem_take hnode)
      constructor
      · intro node hnode omitted homitted _
        rw [hequal omitted homitted node (hcandidate node hnode)]
        exact Nat.lt_irrefl _
      · refine List.pairwise_of_forall_mem_list fun first hfirst second hsecond => ?_
        exact (hequal first (hcandidate first hfirst) second
          (hcandidate second hsecond)).le

end Selection

/-! ## A target with a near and a far node -/

/-- An id whose first and last digit are given, and zeros between them. -/
def zerosBetween (first last : Char) : String :=
  String.ofList (first :: List.replicate 62 '0' ++ [last])

theorem length_zerosBetween :
    (chars (zerosBetween '0' '0')).length = 64 ∧
      (chars (zerosBetween '0' '1')).length = 64 ∧
      (chars (zerosBetween '8' '0')).length = 64 := by
  decide

theorem digits_zerosBetween :
    (∀ c ∈ chars (zerosBetween '0' '0'), isHexDigit c = true) ∧
      (∀ c ∈ chars (zerosBetween '0' '1'), isHexDigit c = true) ∧
      ∀ c ∈ chars (zerosBetween '8' '0'), isHexDigit c = true := by
  decide +kernel

def targetHex : NodeIdHex :=
  ⟨zerosBetween '0' '0', length_zerosBetween.1, digits_zerosBetween.1⟩

def nearHex : NodeIdHex :=
  ⟨zerosBetween '0' '1', length_zerosBetween.2.1, digits_zerosBetween.2.1⟩

def farHex : NodeIdHex :=
  ⟨zerosBetween '8' '0', length_zerosBetween.2.2, digits_zerosBetween.2.2⟩

def nearOrFar (address : String) : NodeIdHex :=
  if address = "near" then nearHex else farHex

def byDistance : List RoutingTable.ScoredNode → List RoutingTable.ScoredNode :=
  List.insertionSort fun first second => first.distance ≤ second.distance

def nearTable : RoutingTable :=
  ((RoutingTable.create ownHex.xorId).step nearOrFar
    ⟨.zero, .add "near" 1⟩).getD (.create ownHex.xorId)

def nearFarTable : RoutingTable :=
  (nearTable.step nearOrFar ⟨.zero, .add "far" 2⟩).getD nearTable

theorem nearTable_run :
    runFrom (RoutingTable.step nearOrFar) (.create ownHex.xorId)
      [⟨.zero, .add "near" 1⟩] = some nearTable := rfl

theorem nearFarTable_run :
    runFrom (RoutingTable.step nearOrFar) (.create ownHex.xorId)
      [⟨.zero, .add "near" 1⟩, ⟨.zero, .add "far" 2⟩] = some nearFarTable := rfl

/-- The only node of a table is found. -/
theorem find_closest_nodes_iff_one_node :
    ∃ result, nearTable.findClosestNodes byDistance .zero targetHex.text 20 =
        .ok result ∧
      Closest nearOrFar (nearTable.candidates nearOrFar targetHex.xorId)
        targetHex.xorId 20 result := by
  refine (find_closest_nodes_iff nearTable_run .zero targetHex 20).mpr (.inr ?_)
    byDistance (sortsByDistance_insertionSort fun _ _ => id)
  decide +kernel

/-- The far node is returned, and the near one is not. -/
theorem find_closest_nodes_finds_farthest :
    SortsByDistance byDistance ∧
      runFrom (RoutingTable.step nearOrFar) (.create ownHex.xorId)
          [⟨.zero, .add "near" 1⟩, ⟨.zero, .add "far" 2⟩] = some nearFarTable ∧
      nearFarTable.findClosestNodes byDistance .zero targetHex.text 1 =
        .ok [.ofAddress nearOrFar "far" 2] ∧
      ¬ Closest nearOrFar (nearFarTable.candidates nearOrFar targetHex.xorId)
        targetHex.xorId 1 [.ofAddress nearOrFar "far" 2] := by
  refine ⟨sortsByDistance_insertionSort fun _ _ => id, nearFarTable_run, ?_,
    fun h => ?_⟩
  · decide +kernel
  · refine h.nearest _ List.mem_cons_self (.ofAddress nearOrFar "near" 1) ?_ ?_ ?_
    · decide
    · decide
    · decide +kernel

end Neroshop.Routing
