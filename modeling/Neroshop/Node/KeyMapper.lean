import Neroshop.Node.Store
import Neroshop.Routing.NodeId

/-!
# Search terms

`KeyMapper` stages the search terms of a value in one map for each kind of
term, and `sync` then writes what is staged into the table `mappings`, unless
the term is there for that key, and empties the maps.
-/

namespace Neroshop.Node

open Neroshop.Routing

/-- The maps of a `KeyMapper`, in the order in which `sync` reads them. -/
inductive TermMap where
  | userIds
  | displayNames
  | productIds
  | productNames
  | productCategories
  | productTags
  | productCodes
  | listingIds
  | listingLocations
  | sellerIds
  | orderIds
  | orderRecipients
  | productRatings
  | sellerRatings
  | messages
  deriving DecidableEq, Repr

/-- The content type that `sync` writes for the terms of a map. -/
def TermMap.content : TermMap → String
  | .userIds | .displayNames => "user"
  | .productIds | .productNames | .productCategories | .productTags
  | .productCodes | .listingIds | .listingLocations | .sellerIds => "listing"
  | .orderIds | .orderRecipients => "order"
  | .productRatings => "product_rating"
  | .sellerRatings => "seller_rating"
  | .messages => "message"

def termMaps : List TermMap :=
  [.userIds, .displayNames, .productIds, .productNames, .productCategories,
    .productTags, .productCodes, .listingIds, .listingLocations, .sellerIds,
    .orderIds, .orderRecipients, .productRatings, .sellerRatings, .messages]

structure StagedTerm where
  map : TermMap
  searchTerm : String
  key : String
  deriving DecidableEq, Repr

abbrev KeyMapper := List StagedTerm

def memberTerm (json : Json) (name : String) : List String :=
  (json.string? name).toList

def elementTerms (json : Json) (name : String) : List String :=
  match json.find? name with
  | some (.array elements) => elements.filterMap fun element =>
      match element with
      | .string term => some term
      | _ => none
  | _ => []

def recipientTerms (json : Json) : List String :=
  match json.find? "items" with
  | some (.array items) => items.flatMap fun item => memberTerm item "seller_id"
  | _ => []

def productTerms (product : Json) : List (TermMap × String) :=
  (memberTerm product "id").map (.productIds, ·) ++
    (memberTerm product "name").map (.productNames, ·) ++
    (memberTerm product "category").map (.productCategories, ·) ++
    (elementTerms product "subcategories").map (.productCategories, ·) ++
    (elementTerms product "tags").map (.productTags, ·) ++
    (memberTerm product "code").map (.productCodes, ·)

/-- The terms that `KeyMapper::add` stages for a document of a kind. -/
def searchTerms (json : Json) (metadata : String) : List (TermMap × String) :=
  match metadata with
  | "user" =>
      (memberTerm json "monero_address").map (.userIds, ·) ++
        (memberTerm json "display_name").map (.displayNames, ·)
  | "listing" =>
      productTerms ((json.find? "product").getD .null) ++
        (memberTerm json "id").map (.listingIds, ·) ++
        (memberTerm json "seller_id").map (.sellerIds, ·) ++
        (memberTerm json "location").map (.listingLocations, ·)
  | "order" =>
      (memberTerm json "id").map (.orderIds, ·) ++
        (recipientTerms json).map (.orderRecipients, ·)
  | "product_rating" =>
      (memberTerm json "product_id").map (.productRatings, ·)
  | "seller_rating" => (memberTerm json "seller_id").map (.sellerRatings, ·)
  | "message" => (memberTerm json "recipient_id").map (.messages, ·)
  | _ => []

/-- `SELECT COUNT`, then `INSERT`, for one staged term. -/
def insertMapping (moment : Moment) (rows : List Mapping)
    (staged : StagedTerm) : List Mapping :=
  if (chars staged.key).length ≠ 64 then rows
  else if moment.executes .selectMapping ∧
      rows.any fun row =>
        row.searchTerm = staged.searchTerm ∧ row.key = staged.key then rows
  else if moment.executes .insertMapping then
    rows ++ [⟨staged.searchTerm, staged.key, staged.map.content⟩]
  else rows

/-- `KeyMapper::sync`, which reads one map after the other. -/
def KeyMapper.sync (moment : Moment) (mapper : KeyMapper)
    (rows : List Mapping) : List Mapping :=
  (termMaps.flatMap fun map => mapper.filter fun staged => staged.map = map)
    |>.foldl (insertMapping moment) rows

/--
`KeyMapper::add`.  A text that is no JSON is logged, a number out of range is
not caught; the metadata of a document is read without a check.
-/
def KeyMapper.add (env : Externals) (moment : Moment) (mapper : KeyMapper)
    (rows : List Mapping) (key value : String) :
    Except Fault (KeyMapper × List Mapping) :=
  match env.parse value with
  | .error .parseError => .ok (mapper, rows)
  | .error .outOfRange => .error .outOfRange
  | .ok json => do
      let metadata ← (← json.index "metadata").getString
      let staged := (searchTerms json metadata).map fun (map, searchTerm) =>
        ⟨map, searchTerm, key⟩
      return ([], KeyMapper.sync moment (mapper ++ staged) rows)

end Neroshop.Node
