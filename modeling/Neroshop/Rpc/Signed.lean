import Neroshop.Node.Succession
import Neroshop.Rpc.Removal
import Neroshop.Rpc.Reply
import Neroshop.Rpc.Wire

/-!
# Signed values in every run of requests

Whatever requests a node answers, from other nodes and from its own clients,
a value enters its table `data` through `put` only, after the checks, and stays
as it was offered.  So what the node holds is signed by its owner.
-/

namespace Neroshop.Rpc

open Neroshop.Foundation Neroshop.Node

structure Arrival where
  setting : Setting
  peers : Peers
  request : List UInt8
  ipcMode : Bool

/-- What is in `data` afterwards was there before or has been accepted. -/
def DataAccepted (env : Externals) (node after : LocalNode) : Prop :=
  ∀ key value, after.tables.data.lookup key = some value →
    node.tables.data.lookup key = some value ∨
      ∃ json metadata, Accepted env key value json metadata

instance (env : Externals) : IsPreorder LocalNode (DataAccepted env) where
  refl _ _ _ h := .inl h
  trans _ _ _ hfirst hsecond key value h :=
    (hsecond key value h).elim (hfirst key value) .inr

/-- The same with the one value that is offered. -/
def DataOffered (env : Externals) (key value : String)
    (node after : LocalNode) : Prop :=
  ∀ other stored, after.tables.data.lookup other = some stored →
    node.tables.data.lookup other = some stored ∨
      other = key ∧ stored = value ∧
        ∃ json metadata, Accepted env key value json metadata

instance (env : Externals) (key value : String) :
    IsPreorder LocalNode (DataOffered env key value) where
  refl _ _ _ h := .inl h
  trans _ _ _ hfirst hsecond other stored h :=
    (hsecond other stored h).elim (hfirst other stored) .inr

section Calls

variable {env : Externals} {setting : Setting} {peers : Peers}
  {args : StringMap} {message : DhtMessage} {ipcMode : Bool}

theorem DataShrinks.dataAccepted {node after : LocalNode}
    (h : DataShrinks node after) : DataAccepted env node after :=
  fun key value hlookup => .inl (h key value hlookup)

theorem DataShrinks.dataOffered {key value : String} {node after : LocalNode}
    (h : DataShrinks node after) : DataOffered env key value node after :=
  fun other stored hlookup => .inl (h other stored hlookup)

theorem DataOffered.dataAccepted {key value : String} {node after : LocalNode}
    (h : DataOffered env key value node after) :
    DataAccepted env node after := by
  intro other stored hlookup
  rcases h other stored hlookup with hold | ⟨rfl, rfl, haccepted⟩
  · exact .inl hold
  · exact .inr haccepted

theorem store_offers (key value : String) :
    Relates (DataOffered env key value)
      (LocalNode.store env setting key value) :=
  relates_onTables fun _ _ _ hlookup => put_lookup_origin hlookup

theorem storeAndCache_offers (key value : String) :
    Relates (DataOffered env key value)
      (storeAndCache env setting key value) := by
  unfold storeAndCache
  refine relates_bind (store_offers _ _) fun stored => ?_
  split
  · refine relates_bind ((cache_shrinks _ _).mono
      fun _ _ => DataShrinks.dataOffered) fun cached => ?_
    split
    · refine relates_bind (relates_ofExcept _) fun publishable => ?_
      exact relates_bind_pure ((map_shrinks _ _).mono
        fun _ _ => DataShrinks.dataOffered)
    · exact relates_pure _
  · exact relates_pure _

theorem handlePut_offers {key value : String}
    (hkey : args.lookup "key" = some key)
    (hvalue : args.lookup "value" = some value) :
    Relates (DataOffered env key value)
      (handlePut env (peers.connect env setting) args message ipcMode) := by
  unfold handlePut
  simp only [hkey, hvalue]
  split
  · exact relates_bind_pure (store_offers _ _)
  · refine relates_bind ((publish_tables _ _).mono
      fun _ _ h => h.dataShrinks.dataOffered) fun sent => ?_
    refine relates_bind (storeAndCache_offers _ _) fun cached => ?_
    split <;> exact relates_pure _

/-- Without a key or a value there is nothing to store. -/
theorem stateAfter_handlePut_of_missing
    (h : args.lookup "key" = none ∨ args.lookup "value" = none)
    (node : LocalNode) :
    stateAfter (handlePut env setting args message ipcMode) node = node := by
  unfold handlePut
  split
  · rename_i hkey hvalue
    simp [hkey, hvalue] at h
  · rfl

theorem handlePut_accepts : Relates (DataAccepted env)
    (handlePut env (peers.connect env setting) args message ipcMode) := by
  cases hkey : args.lookup "key" with
  | none =>
      exact relates_of_stateAfter (stateAfter_handlePut_of_missing (.inl hkey))
  | some key =>
  cases hvalue : args.lookup "value" with
  | none =>
      exact relates_of_stateAfter
        (stateAfter_handlePut_of_missing (.inr hvalue))
  | some value =>
      exact (handlePut_offers hkey hvalue).mono
        fun _ _ => DataOffered.dataAccepted

theorem handleMethod_of_put {query : Query} (hput : query.query = "put") :
    handleMethod env setting ipcMode query message =
      handlePut env setting query.args message ipcMode := by
  simp [handleMethod, hput]

theorem handleMethod_accepts (query : Query) : Relates (DataAccepted env)
    (handleMethod env (peers.connect env setting) ipcMode query message) := by
  by_cases hput : query.query = "put"
  · rw [handleMethod_of_put hput]
    exact handlePut_accepts
  · exact (handleMethod_shrinks hput).mono fun _ _ => DataShrinks.dataAccepted

theorem protobufProcess_accepts
    {parseFromArray : List UInt8 → Option DhtMessage} {request : List UInt8} :
    Relates (DataAccepted env) (protobufProcess env
      (peers.connect env setting) parseFromArray request ipcMode) := by
  by_cases h : ∃ query, Admitted ipcMode parseFromArray request query
  · obtain ⟨query, hadmitted⟩ := h
    rw [hadmitted.process]
    refine relates_bind relates_get fun node => ?_
    exact relates_bind_pure (handleMethod_accepts _)
  · obtain ⟨text, hprocess⟩ := process_of_not_admitted (not_exists.mp h)
    rw [hprocess]
    exact relates_pure _

end Calls

/-! ## Runs -/

section Runs

variable {env : Externals} {parseFromArray : List UInt8 → Option DhtMessage}
  {node final : LocalNode} {arrivals : List Arrival} {key value : String}

/-- A request that ends in a fault leaves the node as it is at that point. -/
def answerStep (env : Externals)
    (parseFromArray : List UInt8 → Option DhtMessage) (node : LocalNode)
    (arrival : Arrival) : Option LocalNode :=
  some (stateAfter (protobufProcess env
    (arrival.peers.connect env arrival.setting) parseFromArray arrival.request
    arrival.ipcMode) node)

theorem wellStored_of_requests (hstart : node.tables.data = ∅)
    (hrun : runFrom (answerStep env parseFromArray) node arrivals =
      some final) : WellStored env final.tables := by
  have hempty : WellStored env node.tables := by
    intro key value hlookup
    simp [hstart] at hlookup
  have hstep : ∀ before arrival after, WellStored env before.tables →
      answerStep env parseFromArray before arrival = some after →
        WellStored env after.tables := by
    intro before arrival after hbefore hafter key value hlookup
    rw [answerStep, Option.some.injEq] at hafter
    subst hafter
    exact (protobufProcess_accepts before key value hlookup).elim
      (hbefore key value) id
  have hfinal := runFrom_invariant_of_step hstep hrun hempty
  exact hfinal

/-- What a node that started without data holds is signed, byte for byte. -/
theorem stored_signed (hstart : node.tables.data = ∅)
    (hrun : runFrom (answerStep env parseFromArray) node arrivals =
      some final)
    (hlookup : final.tables.data.lookup key = some value) :
    ∃ json metadata, env.parse value = .ok json ∧
      json.string? "metadata" = some metadata ∧
      (metadata ∈ signedKinds →
        verify env value = .ok true ∧ Signed env metadata json) := by
  obtain ⟨json, metadata, haccepted⟩ :=
    wellStored_of_requests hstart hrun key value hlookup
  refine ⟨json, metadata, haccepted.parsed, haccepted.kind, fun hkind => ?_⟩
  have hdisplayed : metadata ≠ "order" ∧ metadata ≠ "message" := by
    constructor <;> rintro rfl <;> simp [signedKinds] at hkind
  obtain ⟨result, hverify, hsigned⟩ := verify_signed haccepted.parsed
    haccepted.isObject haccepted.kind hdisplayed.1 hdisplayed.2
  rw [haccepted.verified, Except.ok.injEq] at hverify
  exact ⟨haccepted.verified, hsigned.mp hverify.symm⟩

end Runs

/-! ## A rating that another node offers -/

def ratingQuery : WireQuery :=
  ⟨"1.0", "put", [("id", lonelyNode.id), ("key", ratingKey),
    ("value", ratingText sellerId firstSignature)], "a1b2"⟩

def silentPeers : Peers := ⟨id, fun _ _ => .silent⟩

def ratingArrival : Arrival :=
  ⟨lonelySetting, silentPeers, ratingQuery.bytes, false⟩

theorem stored_signed_rating :
    ∃ json metadata,
      ratingExternals.parse (ratingText sellerId firstSignature) = .ok json ∧
      json.string? "metadata" = some metadata ∧
      (metadata ∈ signedKinds →
        verify ratingExternals (ratingText sellerId firstSignature) =
          .ok true ∧ Signed ratingExternals metadata json) := by
  have hrun : runFrom
      (answerStep ratingExternals (WireQuery.parser [ratingQuery])) lonelyNode
        [ratingArrival] = some (stateAfter (protobufProcess ratingExternals
          (silentPeers.connect ratingExternals lonelySetting)
          (WireQuery.parser [ratingQuery]) ratingQuery.bytes false)
            lonelyNode) := rfl
  have hlookup : (stateAfter (protobufProcess ratingExternals
      (silentPeers.connect ratingExternals lonelySetting)
      (WireQuery.parser [ratingQuery]) ratingQuery.bytes false)
        lonelyNode).tables.data.lookup ratingKey =
      some (ratingText sellerId firstSignature) := by
    decide +kernel
  exact stored_signed rfl hrun hlookup

end Neroshop.Rpc
