import Neroshop.Node.Succession

/-!
# Documents in the name of an owner

An owner publishes signed documents and anybody may offer anything to any node,
with one restriction: nobody else can sign for the owner, so a signature that
verifies under the owner's address is over a text the owner has signed before.
`verify` reads one member of a document as the signed text.  What the nodes
store in the owner's name therefore has a text the owner signed in that member,
and whatever its sender liked in the others.
-/

namespace Neroshop.Node

open Neroshop.Foundation

def IsOwned (env : Externals) (owner value : String) : Prop :=
  ∃ json metadata, env.parse value = .ok json ∧
    json.string? "metadata" = some metadata ∧ metadata ∈ signedKinds ∧
    json.string? (signedFields metadata).2 = some owner

/-- The text that a document of this owner has under its signature. -/
def signedMember (env : Externals) (owner value : String) :
    Option (String × String) := do
  let json ← (env.parse value).toOption
  let metadata ← json.string? "metadata"
  if metadata ∈ signedKinds ∧
      json.string? (signedFields metadata).2 = some owner then
    return (← json.string? (signedFields metadata).1,
      ← json.string? "signature")
  else none

structure Network (ι : Type) where
  published : List String
  stores : ι → Store

inductive Action (ι : Type) where
  | publish (value : String)
  | put (node : ι) (offer : Offer)

section Runs

variable {ι : Type} [DecidableEq ι]

def Network.empty : Network ι := ⟨[], fun _ => Store.empty⟩

def hasSigned (env : Externals) (owner : String) (published : List String)
    (message : String) : Bool :=
  published.any fun document =>
    (signedMember env owner document).map Prod.fst = some message

/-- A signature that verifies under the owner's address is the owner's. -/
def isUnforged (env : Externals) (owner : String) (published : List String)
    (value : String) : Bool :=
  match signedMember env owner value with
  | none => true
  | some (message, signature) =>
      !env.verifyMessage message owner signature ||
        hasSigned env owner published message

/-- The owner publishes what it has signed; offers come from anybody. -/
def actionStep (env : Externals) (owner : String) (network : Network ι) :
    Action ι → Option (Network ι)
  | .publish value =>
      match signedMember env owner value with
      | none => none
      | some (message, signature) =>
          if env.verifyMessage message owner signature
          then some { network with published := value :: network.published }
          else none
  | .put node offer =>
      if isUnforged env owner network.published offer.value
      then some { network with
        stores := Function.update network.stores node
          (offer.apply env (network.stores node)) }
      else none

/-- The value is accepted with a signature over a text the owner signed. -/
def Authentic (env : Externals) (owner : String) (published : List String)
    (value : String) : Prop :=
  ∃ message signature, signedMember env owner value = some (message, signature) ∧
    env.verifyMessage message owner signature = true ∧
    hasSigned env owner published message = true

variable {env : Externals} {owner : String} {published : List String}

theorem hasSigned_iff {message : String} :
    hasSigned env owner published message = true ↔
      ∃ document ∈ published, ∃ signature,
        signedMember env owner document = some (message, signature) := by
  simp [hasSigned, Option.map_eq_some_iff]

theorem authentic_of_accepted {key value metadata : String} {json : Json}
    (haccepted : Accepted env key value json metadata)
    (howned : IsOwned env owner value)
    (hunforged : isUnforged env owner published value = true) :
    Authentic env owner published value := by
  obtain ⟨found, kind, hparse, hkind, hsigned, howner⟩ := howned
  have hjson : found = json :=
    Except.ok.inj (hparse.symm.trans haccepted.parsed)
  subst hjson
  have hmetadata : kind = metadata :=
    Option.some.inj (hkind.symm.trans haccepted.kind)
  subst hmetadata
  have hdisplayed : kind ≠ "order" ∧ kind ≠ "message" := by
    constructor <;> rintro rfl <;> simp [signedKinds] at hsigned
  obtain ⟨result, hverify, hiff⟩ := verify_signed haccepted.parsed
    haccepted.isObject haccepted.kind hdisplayed.1 hdisplayed.2
  rw [haccepted.verified, Except.ok.injEq] at hverify
  obtain ⟨message, address, signature, hmessage, haddress, hsignature, -, -, -,
    hgood⟩ := hiff.mp hverify.symm
  have haddressee : address = owner :=
    Option.some.inj (haddress.symm.trans howner)
  subst haddressee
  have hmember : signedMember env address value = some (message, signature) := by
    simp [signedMember, hparse, Except.toOption, hkind, hsigned, howner, hmessage,
      hsignature]
  refine ⟨message, signature, hmember, hgood, ?_⟩
  simpa [isUnforged, hmember, hgood] using hunforged

theorem Authentic.publish {value : String} (document : String)
    (h : Authentic env owner published value) :
    Authentic env owner (document :: published) value := by
  obtain ⟨message, signature, hmember, hgood, hsigned⟩ := h
  refine ⟨message, signature, hmember, hgood, ?_⟩
  rw [hasSigned, List.any_cons, Bool.or_eq_true]
  exact .inr hsigned

theorem authentic_step {network next : Network ι} {action : Action ι}
    (h : ∀ node key value, (network.stores node).data.lookup key = some value →
      IsOwned env owner value → Authentic env owner network.published value)
    (hstep : actionStep env owner network action = some next) :
    ∀ node key value, (next.stores node).data.lookup key = some value →
      IsOwned env owner value → Authentic env owner next.published value := by
  intro node key value hlookup howned
  cases action with
  | publish document =>
      unfold actionStep at hstep
      dsimp only at hstep
      split at hstep
      · cases hstep
      split at hstep
      · cases hstep
        exact (h node key value hlookup howned).publish document
      · cases hstep
  | put target offer =>
      simp only [actionStep] at hstep
      split at hstep
      swap
      · cases hstep
      next hunforged =>
      cases hstep
      by_cases hnode : node = target
      swap
      · dsimp only at hlookup
        rw [Function.update_of_ne hnode] at hlookup
        exact h node key value hlookup howned
      subst hnode
      dsimp only at hlookup
      rw [Function.update_self, Offer.apply] at hlookup
      rcases put_lookup_origin hlookup with
        hold | ⟨rfl, rfl, json, metadata, haccepted⟩
      · exact h node key value hold howned
      · exact authentic_of_accepted haccepted howned hunforged

/--
In every run, whatever a node stores in the owner's name has in its signed
member a text that the owner signed in a document it has published.
-/
theorem stored_authentic {network : Network ι} {actions : List (Action ι)}
    (hrun : runFrom (actionStep env owner) Network.empty actions =
      some network) {node : ι} {key value : String}
    (hlookup : (network.stores node).data.lookup key = some value)
    (howned : IsOwned env owner value) :
    ∃ message signature,
      signedMember env owner value = some (message, signature) ∧
      env.verifyMessage message owner signature = true ∧
      ∃ document ∈ network.published, ∃ other,
        signedMember env owner document = some (message, other) := by
  have hall := runFrom_invariant_of_step
    (fun before action after hbefore hstep => authentic_step hbefore hstep) hrun
    (fun node key value hlookup => by simp [Network.empty, Store.empty] at hlookup)
  obtain ⟨message, signature, hmember, hgood, hsigned⟩ :=
    hall node key value hlookup howned
  exact ⟨message, signature, hmember, hgood, hasSigned_iff.mp hsigned⟩

end Runs

/-! ## A listing with another price -/

def listingText (price : String) : String :=
  "\x7b\"condition\":\"New\",\"currency\":\"USD\"," ++
    "\"date\":\"2024-01-01T00:00:00Z\"," ++
    "\"id\":\"0b7bd5ab-9d2e-4f3c-8a61-52f0d1c3e4a7\"," ++
    "\"metadata\":\"listing\",\"price\":" ++ price ++
    ",\"product\":\x7b\"category\":\"Electronics\",\"description\":\"\"," ++
    "\"name\":\"Camera\"\x7d,\"quantity\":1,\"seller_id\":\"" ++ sellerId ++
    "\",\"signature\":\"" ++ firstSignature ++ "\"\x7d"

def listingDocument (price : ℚ) : Json :=
  .object [("condition", .string "New"), ("currency", .string "USD"),
    ("date", .string "2024-01-01T00:00:00Z"),
    ("id", .string "0b7bd5ab-9d2e-4f3c-8a61-52f0d1c3e4a7"),
    ("metadata", .string "listing"), ("price", .float price),
    ("product", .object [("category", .string "Electronics"),
      ("description", .string ""), ("name", .string "Camera")]),
    ("quantity", .unsigned 1), ("seller_id", .string sellerId),
    ("signature", .string firstSignature)]

def listingExternals : Externals :=
  .ofSignatures
    [(listingText "450.0", listingDocument 450),
     (listingText "4.5", listingDocument (9 / 2))]
    [("0b7bd5ab-9d2e-4f3c-8a61-52f0d1c3e4a7", sellerId, firstSignature)]

def listingKey : String :=
  "5a1c9e7d3b2f4860a8c6e4d2b0f1937556473829100a1b2c3d4e5f60718293a4"

def splicedKey : String :=
  "e4d3c2b1a0f9e8d7c6b5a4938271605f4e3d2c1b0a99887766554433221100ff"

/-- The seller's listing is offered to one node, and a changed copy to another. -/
def spliceActions : List (Action (Fin 2)) :=
  [.publish (listingText "450.0"),
   .put 0 ⟨peerMoment, listingKey, listingText "450.0"⟩,
   .put 1 ⟨peerMoment, splicedKey, listingText "4.5"⟩]

theorem isOwned_spliced : IsOwned listingExternals sellerId
    (listingText "4.5") := by
  have hfirst : (listingText "4.5" == listingText "450.0") = false := by
    decide
  have hparse : listingExternals.parse (listingText "4.5") =
      .ok (listingDocument (9 / 2)) := by
    simp [listingExternals, Externals.ofSignatures, parseListed, List.lookup_cons, hfirst]
  exact ⟨_, "listing", hparse, rfl, by decide, rfl⟩

theorem runFrom_spliceActions :
    (runFrom (actionStep listingExternals sellerId) Network.empty
      spliceActions).map (fun network =>
        ((network.stores 1).data.lookup splicedKey, network.published)) =
      some (some (listingText "4.5"), [listingText "450.0"]) := by
  decide +kernel

theorem document_spliced :
    ∃ network, runFrom (actionStep listingExternals sellerId) Network.empty
        spliceActions = some network ∧
      (network.stores 1).data.lookup splicedKey = some (listingText "4.5") ∧
      IsOwned listingExternals sellerId (listingText "4.5") ∧
      listingText "4.5" ∉ network.published := by
  obtain ⟨network, hrun, hstored⟩ :=
    Option.map_eq_some_iff.mp runFrom_spliceActions
  obtain ⟨hlookup, hpublished⟩ := Prod.mk.inj hstored
  refine ⟨network, hrun, hlookup, isOwned_spliced, ?_⟩
  rw [hpublished]
  decide

theorem stored_authentic_spliced :
    ∃ network : Network (Fin 2), ∃ message signature,
      signedMember listingExternals sellerId (listingText "4.5") =
        some (message, signature) ∧
      listingExternals.verifyMessage message sellerId signature = true ∧
      ∃ document ∈ network.published, ∃ other,
        signedMember listingExternals sellerId document =
          some (message, other) := by
  obtain ⟨network, hrun, hstored⟩ :=
    Option.map_eq_some_iff.mp runFrom_spliceActions
  exact ⟨network, stored_authentic hrun (Prod.mk.inj hstored).1 isOwned_spliced⟩

end Neroshop.Node
