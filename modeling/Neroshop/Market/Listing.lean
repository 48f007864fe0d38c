import Neroshop.Rpc.Session

/-!
# What the cart and the orders look up

Both get the value of a listing from the node by a function of the same text,
which is null for everything but the document of a listing.
-/

namespace Neroshop.Market

open Neroshop.Foundation Neroshop.Node Neroshop.Rpc

def getListingObject (env : Externals) : Lookup → Except Fault Json
  | .found value => do
      let json ← env.parseOrThrow value
      assertThat json.isObject
      let metadata ← fetchString json "metadata"
      if metadata ≠ "listing" then return .null
      return json
  | _ => .ok .null

theorem getListingObject_ok {env : Externals} {lookup : Lookup}
    {listing : Json} (h : getListingObject env lookup = .ok listing) :
    listing = .null ∨ listing.string? "metadata" = some "listing" := by
  cases lookup with
  | found value =>
      obtain ⟨json, -, hjson⟩ := bind_eq_ok.mp h
      obtain ⟨_, hassert, hchecked⟩ := bind_eq_ok.mp hjson
      obtain ⟨metadata, hmetadata, hrest⟩ := bind_eq_ok.mp hchecked
      have hobject : json.isObject = true :=
        yields_assertThat.mp ⟨(), hassert⟩
      rw [fetchString_eq_ok hobject] at hmetadata
      by_cases hlisting : metadata = "listing"
      · rw [if_neg (not_not_intro hlisting)] at hrest
        cases hrest
        exact .inr (hlisting ▸ hmetadata)
      · rw [if_pos hlisting] at hrest
        cases hrest
        exact .inl rfl
  | _ =>
      cases h
      exact .inl rfl

end Neroshop.Market
