import Mathlib.Data.Set.Insert
import Neroshop.Foundation.Transition
import Neroshop.Rpc.Peers
import Neroshop.Rpc.Reply

/-!
# The providers of a key

`add_provider` takes a peer for a duplicate when its address is among the
providers of the key, and `remove_provider` removes a peer by its address and
its port.  The two differ for an address that is announced with another port.
-/

namespace Neroshop.Rpc

open Neroshop.Foundation Neroshop.Node

def removeProviders (dataHash : String) : NodeCall Unit :=
  modify fun node =>
    { node with providers := node.providers.erase dataHash }

inductive ProviderCall where
  | addProvider (dataHash : String) (peer : Provider)
  | removeProvider (dataHash : String) (peer : Provider)
  | removeProviders (dataHash : String)

def ProviderCall.run : ProviderCall → NodeCall Unit
  | .addProvider dataHash peer => Rpc.addProvider dataHash peer
  | .removeProvider dataHash peer => Rpc.removeProvider dataHash peer
  | .removeProviders dataHash => Rpc.removeProviders dataHash

/-- The pairs that have been added under a key and not removed since. -/
abbrev Announced := Set (String × Provider)

def ProviderCall.announce (announced : Announced) : ProviderCall → Announced
  | .addProvider dataHash peer => insert (dataHash, peer) announced
  | .removeProvider dataHash peer => announced \ {(dataHash, peer)}
  | .removeProviders dataHash => {entry ∈ announced | entry.1 ≠ dataHash}

/-- A node beside what has been announced to it. -/
structure Registry where
  node : LocalNode
  announced : Announced

def Registry.after (registry : Registry) (call : ProviderCall) : Registry :=
  ⟨stateAfter call.run registry.node, call.announce registry.announced⟩

def Registry.step (registry : Registry) (call : ProviderCall) :
    Option Registry :=
  some (registry.after call)

/-- A node that has no providers yet. -/
def Registry.init (node : LocalNode) : Registry :=
  ⟨{ node with providers := ∅ }, ∅⟩

/-! ## What is asked of the providers -/

structure Registry.Exact (registry : Registry) : Prop where
  nonempty : ∀ dataHash peers,
    registry.node.providers.lookup dataHash = some peers → peers ≠ []
  nodup : ∀ dataHash, (registry.node.getProviders dataHash).Nodup
  exact : ∀ dataHash peer, peer ∈ registry.node.getProviders dataHash ↔
    (dataHash, peer) ∈ registry.announced
  removed : ∀ dataHash peer,
    peer ∉ (((registry.after (.addProvider dataHash peer)).after
      (.removeProvider dataHash peer)).node.getProviders dataHash)

/-- An address that is there already is there with the port announced now. -/
def Registry.SamePort (registry : Registry) : ProviderCall → Prop
  | .addProvider dataHash peer =>
      (registry.node.getProviders dataHash).any
          (fun existing => existing.address = peer.address) →
        peer ∈ registry.node.getProviders dataHash
  | _ => True

/-! ## The calls -/

section Calls

variable {node : LocalNode} {dataHash other : String} {peer : Provider}

theorem stateAfter_modify (change : LocalNode → LocalNode) :
    stateAfter (modify change : NodeCall Unit) node = change node := (rfl)

theorem lookup_addProvider :
    (stateAfter (addProvider dataHash peer) node).providers.lookup other =
      if (node.getProviders dataHash).any
          (fun existing => existing.address = peer.address) then
        node.providers.lookup other
      else if other = dataHash then
        some (node.getProviders dataHash ++ [peer])
      else node.providers.lookup other := by
  rw [addProvider, stateAfter_modify]
  dsimp only
  split
  · rfl
  · by_cases hother : other = dataHash
    · rw [if_pos hother, hother]
      exact Finmap.lookup_insert _
    · rw [if_neg hother]
      exact Finmap.lookup_insert_of_ne _ hother

theorem lookup_removeProvider :
    (stateAfter (removeProvider dataHash peer) node).providers.lookup other =
      if other = dataHash then
        if (node.getProviders dataHash).filter (· ≠ peer) = [] then none
        else some ((node.getProviders dataHash).filter (· ≠ peer))
      else node.providers.lookup other := by
  rw [removeProvider, stateAfter_modify]
  dsimp only
  by_cases hother : other = dataHash
  · rw [if_pos hother, hother]
    split
    · exact Finmap.lookup_erase _ _
    · exact Finmap.lookup_insert _
  · rw [if_neg hother]
    split
    · exact Finmap.lookup_erase_ne hother
    · exact Finmap.lookup_insert_of_ne _ hother

theorem lookup_removeProviders :
    (stateAfter (removeProviders dataHash) node).providers.lookup other =
      if other = dataHash then none else node.providers.lookup other := by
  rw [removeProviders, stateAfter_modify]
  by_cases hother : other = dataHash
  · rw [if_pos hother, hother]
    exact Finmap.lookup_erase _ _
  · rw [if_neg hother]
    exact Finmap.lookup_erase_ne hother

theorem getProviders_addProvider :
    (stateAfter (addProvider dataHash peer) node).getProviders other =
      if (node.getProviders dataHash).any
          (fun existing => existing.address = peer.address) then
        node.getProviders other
      else if other = dataHash then node.getProviders dataHash ++ [peer]
      else node.getProviders other := by
  rw [LocalNode.getProviders, lookup_addProvider]
  split_ifs <;> rfl

theorem getProviders_removeProvider :
    (stateAfter (removeProvider dataHash peer) node).getProviders other =
      if other = dataHash then (node.getProviders dataHash).filter (· ≠ peer)
      else node.getProviders other := by
  rw [LocalNode.getProviders, lookup_removeProvider]
  split_ifs with hother hnone
  · exact hnone.symm
  · rfl
  · rfl

theorem getProviders_removeProviders :
    (stateAfter (removeProviders dataHash) node).getProviders other =
      if other = dataHash then [] else node.getProviders other := by
  rw [LocalNode.getProviders, lookup_removeProviders]
  split_ifs <;> rfl

theorem notMem_removeProvider :
    peer ∉ (stateAfter (removeProvider dataHash peer) node).getProviders
      dataHash := by
  rw [getProviders_removeProvider, if_pos rfl]
  simp

/-- A peer is only put behind others of other addresses. -/
theorem nodup_append_peer {peers : List Provider} (hpeers : peers.Nodup)
    (hnew : ¬ peers.any fun existing => existing.address = peer.address) :
    (peers ++ [peer]).Nodup := by
  have hpeer : peer ∉ peers := fun hmem =>
    hnew (List.any_eq_true.mpr ⟨peer, hmem, decide_eq_true rfl⟩)
  rw [List.nodup_append_comm, List.singleton_append]
  exact List.nodup_cons.mpr ⟨hpeer, hpeers⟩

end Calls

/-! ## Runs -/

namespace Registry

variable {registry : Registry}

theorem nonempty_after (hnonempty : ∀ dataHash peers,
      registry.node.providers.lookup dataHash = some peers → peers ≠ [])
    (call : ProviderCall) {dataHash : String} {peers : List Provider}
    (hlookup : (registry.after call).node.providers.lookup dataHash =
      some peers) : peers ≠ [] := by
  cases call with
  | addProvider key peer =>
      change (stateAfter (addProvider key peer) _).providers.lookup _ = _
        at hlookup
      rw [lookup_addProvider] at hlookup
      split_ifs at hlookup
      · exact hnonempty dataHash peers hlookup
      · exact Option.some.inj hlookup ▸ List.append_ne_nil_of_right_ne_nil _
          (List.cons_ne_nil _ _)
      · exact hnonempty dataHash peers hlookup
  | removeProvider key peer =>
      change (stateAfter (removeProvider key peer) _).providers.lookup _ = _
        at hlookup
      rw [lookup_removeProvider] at hlookup
      split_ifs at hlookup with hkey hnone
      · exact Option.some.inj hlookup ▸ hnone
      · exact hnonempty dataHash peers hlookup
  | removeProviders key =>
      change (stateAfter (removeProviders key) _).providers.lookup _ = _
        at hlookup
      rw [lookup_removeProviders] at hlookup
      split_ifs at hlookup
      exact hnonempty dataHash peers hlookup

theorem nodup_after
    (hnodup : ∀ dataHash, (registry.node.getProviders dataHash).Nodup)
    (call : ProviderCall) (dataHash : String) :
    ((registry.after call).node.getProviders dataHash).Nodup := by
  cases call with
  | addProvider key peer =>
      change ((stateAfter (addProvider key peer) _).getProviders _).Nodup
      rw [getProviders_addProvider]
      split_ifs with hold hkey
      · exact hnodup dataHash
      · exact nodup_append_peer (hnodup key) hold
      · exact hnodup dataHash
  | removeProvider key peer =>
      change ((stateAfter (removeProvider key peer) _).getProviders _).Nodup
      rw [getProviders_removeProvider]
      split_ifs
      · exact (hnodup key).filter _
      · exact hnodup dataHash
  | removeProviders key =>
      change ((stateAfter (removeProviders key) _).getProviders _).Nodup
      rw [getProviders_removeProviders]
      split_ifs
      · exact List.nodup_nil
      · exact hnodup dataHash

theorem exact_removeProvider (hexact : registry.Exact)
    (key dataHash : String) (peer other : Provider) :
    other ∈ (stateAfter (removeProvider key peer)
        registry.node).getProviders dataHash ↔
      (dataHash, other) ∈ registry.announced \ {(key, peer)} := by
  rw [getProviders_removeProvider, Set.mem_sdiff, ← hexact.exact]
  by_cases hkey : dataHash = key
  · subst hkey
    simp
  · simp [hkey]

theorem exact_removeProviders (hexact : registry.Exact)
    (key dataHash : String) (other : Provider) :
    other ∈ (stateAfter (removeProviders key)
        registry.node).getProviders dataHash ↔
      (dataHash, other) ∈ {entry ∈ registry.announced | entry.1 ≠ key} := by
  rw [getProviders_removeProviders, Set.mem_ofPred_eq, ← hexact.exact]
  by_cases hkey : dataHash = key
  · simp [hkey]
  · simp [hkey]

/-- An announcement is kept where its address is new, or known with its port. -/
theorem exact_addProvider_iff (hexact : registry.Exact) (key : String)
    (peer : Provider) :
    (∀ dataHash other,
        other ∈ (stateAfter (addProvider key peer)
            registry.node).getProviders dataHash ↔
          (dataHash, other) ∈ insert (key, peer) registry.announced) ↔
      registry.SamePort (.addProvider key peer) := by
  simp only [getProviders_addProvider, Set.mem_insert_iff, Prod.mk.injEq,
    ← hexact.exact]
  by_cases hold : (registry.node.getProviders key).any
      fun existing => existing.address = peer.address
  · simp only [if_pos hold]
    constructor
    · intro h _
      exact (h key peer).mpr (.inl ⟨rfl, rfl⟩)
    · intro h dataHash other
      refine ⟨.inr, fun hother => hother.elim ?_ id⟩
      rintro ⟨rfl, rfl⟩
      exact h hold
  · simp only [if_neg hold]
    refine iff_of_true (fun dataHash other => ?_) fun h => absurd h hold
    by_cases hkey : dataHash = key
    · subst hkey
      simp [or_comm]
    · simp [hkey]

theorem exact_after (hexact : registry.Exact) (call : ProviderCall)
    (hannounced : ∀ dataHash peer,
      peer ∈ (registry.after call).node.getProviders dataHash ↔
        (dataHash, peer) ∈ call.announce registry.announced) :
    (registry.after call).Exact where
  nonempty _ _ := nonempty_after hexact.nonempty call
  nodup := nodup_after hexact.nodup call
  exact := hannounced
  removed _ _ := notMem_removeProvider

theorem exact_after_iff (hexact : registry.Exact) (call : ProviderCall) :
    (registry.after call).Exact ↔ registry.SamePort call := by
  cases call with
  | addProvider key peer =>
      rw [← exact_addProvider_iff hexact]
      exact ⟨Exact.exact, exact_after hexact (.addProvider key peer)⟩
  | removeProvider key peer =>
      refine iff_of_true (exact_after hexact _ fun dataHash other => ?_) trivial
      exact exact_removeProvider hexact key dataHash peer other
  | removeProviders key =>
      refine iff_of_true (exact_after hexact _ fun dataHash other => ?_) trivial
      exact exact_removeProviders hexact key dataHash other

theorem exact_init (node : LocalNode) : (init node).Exact where
  nonempty _ _ h := absurd h (by simp [init])
  nodup _ := by simp [init, LocalNode.getProviders]
  exact _ _ := by simp [init, LocalNode.getProviders]
  removed _ _ := notMem_removeProvider

/-- Behind every call of a run, and not in the first state only. -/
theorem providers_exact_iff (node : LocalNode) (calls : List ProviderCall) :
    AllMeet step (fun registry call => (registry.after call).Exact)
        (init node) calls ↔
      AllMeet step SamePort (init node) calls := by
  refine allMeet_congr (fun registry call hexact =>
    exact_after_iff hexact call) ?_ (exact_init node)
  intro registry call next _ hnext hstep
  exact Option.some.inj hstep ▸ hnext

/-- The peer comes back with another port, which is not kept. -/
theorem other_port_refused :
    ¬ AllMeet step (fun registry call => (registry.after call).Exact)
      (init lonelyNode) [.addProvider "d1" ⟨"peer", 50881⟩,
        .addProvider "d1" ⟨"peer", 50882⟩] := by
  rintro ⟨hfirst, h⟩
  obtain ⟨hsecond, -⟩ := h _ rfl
  rw [exact_after_iff hfirst] at hsecond
  have hpeers : ((init lonelyNode).after (.addProvider "d1"
      ⟨"peer", 50881⟩)).node.getProviders "d1" = [⟨"peer", 50881⟩] := by
    change (stateAfter (addProvider _ _) _).getProviders _ = _
    rw [getProviders_addProvider]
    simp [init, LocalNode.getProviders]
  simp only [SamePort, hpeers] at hsecond
  exact absurd (hsecond (by decide)) (by decide)

end Registry

end Neroshop.Rpc
