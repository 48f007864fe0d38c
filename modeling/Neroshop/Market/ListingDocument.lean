import Neroshop.Gui.Rows
import Neroshop.Market.Cart
import Neroshop.Market.Product

/-!
# The document of a listing

`serialize` writes the fields of a listing into a document, most of them only
where they have a value.  `deserialize` makes a listing of a document, and is a
text of its own.
-/

namespace Neroshop.Market

open Neroshop.Foundation Neroshop.Node
open Neroshop.Gui (getStrings)

/-! ## Listings -/

inductive PaymentMethod where
  | crypto
  | cash
  | card
  | digitalApp
  | preciousMetal
  | goldback
  deriving DecidableEq

inductive PaymentOption where
  | escrow
  | multisig
  | finalize
  deriving DecidableEq

inductive PaymentCoin where
  | none
  | xmr
  | wow
  deriving DecidableEq

inductive DeliveryOption where
  | shipping
  | pickup
  | digital
  deriving DecidableEq

inductive ShippingOption where
  | standard
  | expedited
  | express
  | nextDay
  | sameDay
  | international
  | ecoFriendly
  deriving DecidableEq

def getPaymentMethodAsString : PaymentMethod → String
  | .crypto => "Crypto"
  | .cash => "Cash"
  | .card => "Card"
  | .digitalApp => "DigitalApp"
  | .preciousMetal => "PreciousMetal"
  | .goldback => "Goldback"

def getPaymentOptionAsString : PaymentOption → String
  | .escrow => "Escrow"
  | .multisig => "Multisig"
  | .finalize => "Finalize"

def getPaymentCoinAsString : PaymentCoin → String
  | .none => "None"
  | .xmr => "XMR"
  | .wow => "WOW"

def getDeliveryOptionAsString : DeliveryOption → String
  | .shipping => "Shipping"
  | .pickup => "Pickup"
  | .digital => "Digital"

def getShippingOptionAsString : ShippingOption → String
  | .standard => "Standard"
  | .expedited => "Expedited"
  | .express => "Express"
  | .nextDay => "Overnight"
  | .sameDay => "LocalDelivery"
  | .international => "International"
  | .ecoFriendly => "EcoFriendly"

/-- The costs and the rates have a value for the keys of the map. -/
structure Listing where
  id : String
  sellerId : String
  quantity : UInt32
  price : ℚ
  currency : String
  condition : String
  location : String
  date : String
  signature : String
  product : Option Product
  quantityPerOrder : UInt32
  paymentMethod : PaymentMethod
  paymentCoins : Finset PaymentCoin
  paymentOptions : Finset PaymentOption
  deliveryOptions : Finset DeliveryOption
  shippingOptions : Finset ShippingOption
  shippingCosts : ShippingOption → Option ℚ
  customRates : PaymentCoin → Option ℚ

namespace Listing

/-- The constructor leaves the payment method as it is in the memory. -/
def init (uninitialized : PaymentMethod) : Listing :=
  ⟨"", "", 0, 0, "", "", "", "", "", none, 0, uninitialized, ∅, ∅, ∅, ∅,
    fun _ => none, fun _ => none⟩

def getQuantity (listing : Listing) : Int := toInt listing.quantity.toNat

def getQuantityPerOrder (listing : Listing) : Int :=
  toInt listing.quantityPerOrder.toNat

end Listing

/-! ## Writing -/

/-- The value where the condition holds. -/
def onlyIf {Value : Type} (condition : Prop) [Decidable condition]
    (value : Value) : Option Value :=
  if condition then some value else none

/-- An array of names, in the order of the values. -/
def nameArray {Value : Type} [DecidableEq Value] (order : List Value)
    (nameOf : Value → String) (values : Finset Value) : Option Json :=
  onlyIf (values ≠ ∅) (.array
    ((order.filter (· ∈ values)).map fun value => .string (nameOf value)))

/-- An object with a number under the name of every key. -/
def numberObject {Key : Type} (order : List Key) (nameOf : Key → String)
    (numbers : Key → Option ℚ) : Option Json :=
  onlyIf (order.any fun key => (numbers key).isSome) (.ofFields
    (order.map fun key => (nameOf key, (numbers key).map .float)))

def paymentCoins : List PaymentCoin := [.none, .xmr, .wow]

def shippingOptions : List ShippingOption :=
  [.standard, .expedited, .express, .nextDay, .sameDay, .international,
    .ecoFriendly]

def stringArray (texts : List String) : Json := .array (texts.map .string)

/-- The loop over the variants skips one that has the options of an earlier. -/
def distinctVariants : List VariantOptions → List ProductVariant →
    List ProductVariant
  | _, [] => []
  | seen, variant :: variants =>
      if seen.any fun options => options.Same variant.options then
        distinctVariants seen variants
      else variant ::
        distinctVariants (seen ++ [variant.options]) variants

def VariantOptions.document (options : VariantOptions) : Json :=
  .object (options.entries.map fun entry => (entry.1, .string entry.2))

/-- A weight or an image index that is written. -/
def writtenWeight (weight : Option ℚ) : Option ℚ := weight.filter (0 < ·)

def writtenImageIndex (index : Option Int32) : Option Int32 :=
  index.filter (-1 < ·.toInt)

def variantFields (variant : ProductVariant) : List (String × Option Json) :=
  [("options", some variant.options.document),
    ("condition",
      (onlyIf (variant.condition ≠ "") variant.condition).map .string),
    ("weight", (writtenWeight variant.weight).map .float),
    ("price", variant.price.map fun price => .float |price|),
    ("quantity", variant.quantity.map fun quantity =>
      .unsigned quantity.toInt.natAbs),
    ("product_code",
      (onlyIf (variant.productCode ≠ "") variant.productCode).map .string),
    ("image_index", (writtenImageIndex variant.imageIndex).map fun index =>
      .unsigned index.toInt.toNat)]

def imageDocument (image : Image) : Json :=
  .ofFields [("name", some (.string image.name)),
    ("size", some (.unsigned image.size)), ("id", some (.unsigned image.id)),
    ("pieces", some (stringArray image.pieces)),
    ("piece_size", some (.unsigned image.pieceSize))]

def productFields (product : Product) : List (String × Option Json) :=
  [("name", some (.string product.name)),
    ("description", some (.string product.description)),
    ("weight", (onlyIf (0 < product.weight) product.weight).map .float),
    ("options", onlyIf (getOptions product.variants ≠ [])
      (stringArray ((getOptions product.variants).map Prod.fst))),
    ("variants", onlyIf (getOptions product.variants ≠ [])
      (.array ((distinctVariants [] product.variants).map fun variant =>
        .ofFields (variantFields variant)))),
    ("code", (onlyIf (product.code ≠ "") product.code).map .string),
    ("category", some (.string product.getCategoryAsString)),
    ("subcategories", (onlyIf (product.getSubcategoriesAsString ≠ ∅)
      (inOrder product.getSubcategoriesAsString)).map stringArray),
    ("tags", (onlyIf (product.tags ≠ ∅)
      ((inOrder product.tags).map String.toLower)).map stringArray),
    ("images", onlyIf (product.images ≠ [])
      (.array (product.images.map imageDocument)))]

def listingFields (listing : Listing) (product : Product)
    (expiration : Option String) : List (String × Option Json) :=
  [("id", some (.string listing.id)),
    ("seller_id", some (.string listing.sellerId)),
    ("quantity", some (.unsigned listing.getQuantity.natAbs)),
    ("price", some (.float |listing.price|)),
    ("currency", some (.string listing.currency)),
    ("condition", some (.string listing.condition)),
    ("location", (onlyIf
      (listing.location ≠ "" ∧ listing.location ≠ "Unspecified")
      listing.location).map .string),
    ("date", some (.string listing.date)),
    ("signature", some (.string listing.signature)),
    ("quantity_per_order", onlyIf (0 < listing.getQuantityPerOrder)
      (.unsigned listing.getQuantityPerOrder.toNat)),
    ("payment_methods", some
      (stringArray [getPaymentMethodAsString listing.paymentMethod])),
    ("payment_coins",
      nameArray paymentCoins getPaymentCoinAsString listing.paymentCoins),
    ("payment_options", nameArray [.escrow, .multisig, .finalize]
      getPaymentOptionAsString listing.paymentOptions),
    ("delivery_options", nameArray [.shipping, .pickup, .digital]
      getDeliveryOptionAsString listing.deliveryOptions),
    ("shipping_options", nameArray shippingOptions getShippingOptionAsString
      listing.shippingOptions),
    ("shipping_costs", numberObject shippingOptions getShippingOptionAsString
      listing.shippingCosts),
    ("custom_rates", numberObject paymentCoins getPaymentCoinAsString
      listing.customRates),
    ("product", some (.ofFields (productFields product))),
    ("metadata", some (.string "listing")),
    ("expiration_date", expiration.map .string)]

def listingDocument (listing : Listing) (product : Product)
    (expiration : Option String) : Json :=
  .ofFields (listingFields listing product expiration)

/-- What both functions depend on outside the listing. -/
structure Serializer where
  env : Externals
  dump : Json → String
  sha3256 : String → String
  toDouble : Int → ℚ
  /-- The date that `set_expiration` writes, if any. -/
  expiration : Except Fault (Option String)
  /-- The payment method that the memory of a new listing holds. -/
  uninitialized : PaymentMethod

variable (serializer : Serializer)

/-- The key and the value. -/
def Serializer.serialize (listing : Listing) :
    Except Fault (String × String) :=
  match listing.product with
  | none => .error .assertionFailed
  | some product => do
      let expiration ← serializer.expiration
      let value := serializer.dump (listingDocument listing product expiration)
      return (serializer.sha3256 value, value)

/-! ## Reading -/

/-- A member that is read where there is one. -/
def fetchOptional {Value : Type} (json : Json) (name : String)
    (get : Json → Except Fault Value) : Except Fault (Option Value) :=
  match json.find? name with
  | none => return none
  | some value => return some (← get value)

def VariantOptions.read (options : VariantOptions)
    (member : String × Json) : Except Fault VariantOptions := do
  return options.insert member.1 (← member.2.getString)

def readOptions (json : Json) : Except Fault VariantOptions :=
  match json.find? "options" with
  | some (.object members) => members.foldlM VariantOptions.read .empty
  | _ => return .empty

/-- `get<int>` of a quantity or an index. -/
def getInt32 (json : Json) : Except Fault Int32 := do
  return .ofInt (← json.getInt)

def Serializer.readVariant (json : Json) : Except Fault ProductVariant := do
  let options ← readOptions json
  let condition ← fetchOptional json "condition" Json.getString
  let weight ← fetchOptional json "weight" (Json.getDouble serializer.toDouble)
  let price ← fetchOptional json "price" (Json.getDouble serializer.toDouble)
  let quantity ← fetchOptional json "quantity" getInt32
  let productCode ← fetchOptional json "product_code" Json.getString
  let imageIndex ← fetchOptional json "image_index" getInt32
  return ⟨options, condition.getD "", weight, price, quantity,
    productCode.getD "", imageIndex⟩

def Serializer.addVariant (product : Product) (json : Json) :
    Except Fault Product := do
  product.addVariant (← serializer.readVariant json)

def Serializer.readVariants (product : Product) (json : Json) :
    Except Fault Product :=
  match json.find? "variants" with
  | some (.array variants) => variants.foldlM serializer.addVariant product
  | _ => return product

/-- The names of the options are read and not kept. -/
def readOptionNames (json : Json) : Except Fault Unit :=
  match json.find? "options" with
  | some (.array names) => do
      let _ ← names.mapM Json.getString
  | _ => return ()

def Serializer.readProduct (id : String) (json : Json) :
    Except Fault Product := do
  let name ← fetchConstString json "name"
  let description ← fetchConstString json "description"
  readOptionNames json
  let product := { Product.init with
    id := id
    name := name
    description := description }
  let product ← serializer.readVariants product json
  let code ← fetchOptional json "code" Json.getString
  let category ← fetchConstString json "category"
  let product ← { product with code := code.getD "" }.setCategory category
  let subcategories ← fetchOptional json "subcategories" getStrings
  let product := match subcategories with
    | some subcategories => product.setSubcategories subcategories
    | none => product
  let tags ← fetchOptional json "tags" getStrings
  return { product with tags := (tags.getD []).toFinset }

/-- Nothing is returned here for a document of another kind. -/
def Serializer.deserialize (data : String × String) :
    Except Fault (Option Listing) := do
  let value ← serializer.env.parseOrThrow data.2
  assertThat (← value.index "metadata").isString
  if (← fetchString value "metadata") ≠ "listing" then return none
  let id ← fetchString value "id"
  let sellerId ← fetchString value "seller_id"
  let quantity ← fetchInt value "quantity"
  let price ← fetchDouble serializer.toDouble value "price"
  let currency ← fetchString value "currency"
  let condition ← fetchString value "condition"
  let date ← fetchString value "date"
  assertThat (← value.index "product").isObject
  let product ← serializer.readProduct id (← value.index "product")
  return some { Listing.init serializer.uninitialized with
    id := id
    sellerId := sellerId
    quantity := toUnsigned quantity
    price := price
    currency := currency
    condition := condition
    location := (value.string? "location").getD ""
    date := date
    product := some product }

/-! ## What is asked of a round trip -/

/-- What was written of a variant is as it was. -/
structure SameVariant (original restored : ProductVariant) : Prop where
  options : restored.options.Same original.options
  condition : original.condition ≠ "" →
    restored.condition = original.condition
  weight : writtenWeight original.weight ≠ none →
    restored.weight = original.weight
  price : original.price ≠ none → restored.price = original.price
  quantity : original.quantity ≠ none → restored.quantity = original.quantity
  productCode : original.productCode ≠ "" →
    restored.productCode = original.productCode
  imageIndex : writtenImageIndex original.imageIndex ≠ none →
    restored.imageIndex = original.imageIndex

structure SameProduct (original restored : Product) : Prop where
  name : restored.name = original.name
  description : restored.description = original.description
  weight : 0 < original.weight → restored.weight = original.weight
  variants : getOptions original.variants ≠ [] →
    List.Forall₂ SameVariant original.variants restored.variants
  code : original.code ≠ "" → restored.code = original.code
  category : restored.categoryId = original.categoryId
  subcategories : original.getSubcategoriesAsString ≠ ∅ →
    restored.subcategoryIds = original.subcategoryIds
  tags : original.tags ≠ ∅ → restored.tags = original.tags
  images : original.images ≠ [] → restored.images = original.images

/-- What was written of the listing is as it was. -/
structure SameListing (original restored : Listing) (product : Product) :
    Prop where
  id : restored.id = original.id
  sellerId : restored.sellerId = original.sellerId
  quantity : restored.quantity = original.quantity
  price : restored.price = original.price
  currency : restored.currency = original.currency
  condition : restored.condition = original.condition
  location : original.location ≠ "" ∧ original.location ≠ "Unspecified" →
    restored.location = original.location
  date : restored.date = original.date
  signature : restored.signature = original.signature
  quantityPerOrder : 0 < original.getQuantityPerOrder →
    restored.quantityPerOrder = original.quantityPerOrder
  paymentMethod : restored.paymentMethod = original.paymentMethod
  paymentCoins : original.paymentCoins ≠ ∅ →
    restored.paymentCoins = original.paymentCoins
  paymentOptions : original.paymentOptions ≠ ∅ →
    restored.paymentOptions = original.paymentOptions
  deliveryOptions : original.deliveryOptions ≠ ∅ →
    restored.deliveryOptions = original.deliveryOptions
  shippingOptions : original.shippingOptions ≠ ∅ →
    restored.shippingOptions = original.shippingOptions
  shippingCosts : (∃ option, original.shippingCosts option ≠ none) →
    restored.shippingCosts = original.shippingCosts
  customRates : (∃ coin, original.customRates coin ≠ none) →
    restored.customRates = original.customRates
  product : ∃ other, restored.product = some other ∧ SameProduct product other

/-- A listing with a product, as far as the law is about it. -/
structure Admissible (listing : Listing) (product : Product) : Prop where
  hasProduct : listing.product = some product
  limits : product.WithinLimits
  quantity : 0 ≤ listing.getQuantity
  price : 0 ≤ listing.price
  variantPrice : ∀ variant ∈ product.variants, ∀ price ∈ variant.price,
    0 ≤ price
  variantQuantity : ∀ variant ∈ product.variants,
    ∀ quantity ∈ variant.quantity, 0 ≤ quantity.toInt
  tags : ∀ tag ∈ product.tags, tag.toLower = tag
  category : isValidCategoryId product.categoryId = true

/-- Reading what was written gives the fields back. -/
def Serializer.RoundTrips (listing : Listing) (product : Product) : Prop :=
  ∃ data restored, serializer.serialize listing = .ok data ∧
    serializer.deserialize data = .ok (some restored) ∧
    SameListing listing restored product

/-- The fields that only `serialize` knows have nothing to write, and no two
variants or subcategories fall together. -/
structure Serializer.Restorable (listing : Listing) (product : Product) :
    Prop where
  expiration : Yields serializer.expiration
  signature : listing.signature = ""
  quantityPerOrder : listing.getQuantityPerOrder ≤ 0
  paymentMethod : listing.paymentMethod = serializer.uninitialized
  paymentCoins : listing.paymentCoins = ∅
  paymentOptions : listing.paymentOptions = ∅
  deliveryOptions : listing.deliveryOptions = ∅
  shippingOptions : listing.shippingOptions = ∅
  shippingCosts : ∀ option, listing.shippingCosts option = none
  customRates : ∀ coin, listing.customRates coin = none
  weight : product.weight ≤ 0
  variants : getOptions product.variants ≠ [] →
    product.variants.Pairwise fun variant other =>
      ¬ variant.options.Same other.options
  subcategories : product.getSubcategoriesAsString = ∅ ∨
    product.subcategoryIds = {505}
  images : product.images = []

/-! ## Members and numbers -/

theorem fetchOptional_ofFields {Value : Type}
    {fields : List (String × Option Json)}
    (hnames : (fields.map Prod.fst).Nodup) {name : String}
    {written : Option Value} {encode : Value → Json}
    {get : Json → Except Fault Value}
    (hlookup : fields.lookup name = some (written.map encode))
    (hget : ∀ value ∈ written, get (encode value) = .ok value) :
    fetchOptional (.ofFields fields) name get = .ok written := by
  rw [fetchOptional, Json.find?_ofFields hnames, hlookup]
  cases written with
  | none => rfl
  | some value =>
      change (do return some (← get (encode value))) = Except.ok (some value)
      rw [hget value rfl]
      rfl

theorem getD_onlyIf_ne (text : String) :
    (onlyIf (text ≠ "") text).getD "" = text := by
  by_cases h : text = ""
  · rw [onlyIf, if_neg (not_not_intro h)]
    exact h.symm
  · rw [onlyIf, if_pos h]
    rfl

theorem mapM_getString (texts : List String) :
    (texts.map Json.string).mapM Json.getString = .ok texts :=
  mapM_map_eq_ok (by intro text; rfl) texts

theorem getStrings_stringArray (texts : List String) :
    getStrings (stringArray texts) = .ok texts :=
  mapM_getString texts

theorem getInt32_natAbs {number : Int32} (h : 0 ≤ number.toInt) :
    getInt32 (.unsigned number.toInt.natAbs) = .ok number := by
  have hlt : number.toInt < 2 ^ 31 := number.toInt_lt
  have hint : Int.bmod (number.toInt.natAbs : Nat) (2 ^ 32) = number.toInt := by
    rw [Int.natAbs_of_nonneg h]
    exact Int.bmod_eq_of_le (by omega) (by omega)
  change Except.ok (Int32.ofInt (Int.bmod _ _)) = _
  rw [hint, Int32.ofInt_toInt]

theorem toUnsigned_natAbs {quantity : UInt32}
    (h : 0 ≤ toInt quantity.toNat) :
    toUnsigned (Int.bmod ((toInt quantity.toNat).natAbs : Nat) (2 ^ 32)) =
      quantity := by
  rw [Int.natAbs_of_nonneg h, toInt, Int.bmod_bmod]
  exact toUnsigned_toInt quantity

/-! ## Variants -/

theorem foldlM_read {options done : VariantOptions}
    {rest : List (String × String)}
    (h : options.entries = done.entries ++ rest) :
    (rest.map fun entry => (entry.1, Json.string entry.2)).foldlM
      VariantOptions.read done = .ok options := by
  induction rest generalizing done with
  | nil =>
      obtain ⟨entries, hkeys⟩ := options
      obtain ⟨doneEntries, hdone⟩ := done
      rw [List.append_nil] at h
      subst h
      rfl
  | cons entry rest ih =>
      obtain ⟨key, value⟩ := entry
      have hkeys := options.keys
      rw [h, List.map_append, List.map_cons, List.nodup_middle,
        List.nodup_cons, List.mem_append, not_or] at hkeys
      have hinsert := insert_of_notMem hkeys.1.1 value
      refine ih ?_
      rw [hinsert, h, List.append_assoc, List.singleton_append]

/-- What is not written is not there. -/
def restoredVariant (variant : ProductVariant) : ProductVariant :=
  { variant with
    weight := writtenWeight variant.weight
    imageIndex := writtenImageIndex variant.imageIndex }

theorem nodup_variantFields (variant : ProductVariant) :
    ((variantFields variant).map Prod.fst).Nodup := by
  simp [variantFields]

theorem readOptions_variantFields (variant : ProductVariant) :
    readOptions (.ofFields (variantFields variant)) = .ok variant.options := by
  have hfind := Json.find?_ofFields (nodup_variantFields variant) "options"
  rw [readOptions, hfind]
  exact foldlM_read rfl

theorem readVariant_variantFields {variant : ProductVariant}
    (hprice : ∀ price ∈ variant.price, 0 ≤ price)
    (hquantity : ∀ quantity ∈ variant.quantity, 0 ≤ quantity.toInt) :
    serializer.readVariant (.ofFields (variantFields variant)) =
      .ok (restoredVariant variant) := by
  have hnames := nodup_variantFields variant
  have hindex : ∀ index ∈ writtenImageIndex variant.imageIndex,
      getInt32 (.unsigned index.toInt.toNat) = .ok index := by
    intro index hindex
    have hlow : 0 ≤ index.toInt := by
      have := (Option.mem_filter_iff.mp hindex).2
      simp at this
      omega
    rw [← Int.natAbs_of_nonneg hlow, Int.toNat_natCast]
    exact getInt32_natAbs hlow
  have hcondition : fetchOptional (.ofFields (variantFields variant))
      "condition" Json.getString =
        .ok (onlyIf (variant.condition ≠ "") variant.condition) :=
    fetchOptional_ofFields hnames rfl fun _ _ => rfl
  have hweight : fetchOptional (.ofFields (variantFields variant)) "weight"
      (Json.getDouble serializer.toDouble) =
        .ok (writtenWeight variant.weight) :=
    fetchOptional_ofFields hnames rfl fun _ _ => rfl
  have hprices : fetchOptional (.ofFields (variantFields variant)) "price"
      (Json.getDouble serializer.toDouble) = .ok variant.price := by
    refine fetchOptional_ofFields hnames rfl fun price hmem => ?_
    exact congrArg Except.ok (abs_of_nonneg (hprice price hmem))
  have hquantities : fetchOptional (.ofFields (variantFields variant))
      "quantity" getInt32 = .ok variant.quantity :=
    fetchOptional_ofFields hnames rfl fun quantity hmem =>
      getInt32_natAbs (hquantity quantity hmem)
  have hcode : fetchOptional (.ofFields (variantFields variant))
      "product_code" Json.getString =
        .ok (onlyIf (variant.productCode ≠ "") variant.productCode) :=
    fetchOptional_ofFields hnames rfl fun _ _ => rfl
  have himage : fetchOptional (.ofFields (variantFields variant))
      "image_index" getInt32 = .ok (writtenImageIndex variant.imageIndex) :=
    fetchOptional_ofFields hnames rfl hindex
  rw [Serializer.readVariant, readOptions_variantFields, hcondition, hweight,
    hprices, hquantities, hcode, himage, restoredVariant]
  change Except.ok _ = Except.ok _
  rw [getD_onlyIf_ne, getD_onlyIf_ne]

theorem optionPairs_restored (variants : List ProductVariant) :
    optionPairs (variants.map restoredVariant) = optionPairs variants := by
  rw [optionPairs, List.flatMap_map]
  rfl

/-- A variant that is not there yet is added behind the others. -/
theorem addVariant_variantFields {product : Product}
    {done : List ProductVariant} {variant : ProductVariant}
    (hnew : ∀ other ∈ done, ¬ other.options.Same variant.options)
    (hoptions : variant.options.entries.length ≤ maxOptionsPerVariant)
    (hvalid : validateVariants (done ++ [variant]) = .ok ())
    (hprice : ∀ price ∈ variant.price, 0 ≤ price)
    (hquantity : ∀ quantity ∈ variant.quantity, 0 ≤ quantity.toInt) :
    serializer.addVariant { product with variants := done.map restoredVariant }
        (.ofFields (variantFields variant)) =
      .ok { product with
        variants := (done ++ [variant]).map restoredVariant } := by
  have hunlike : ¬ ((done.map restoredVariant).any fun other =>
      other.options.Same (restoredVariant variant).options) = true := by
    rw [List.any_map, List.any_eq_true]
    rintro ⟨other, hother, hsame⟩
    exact hnew other hother (of_decide_eq_true hsame)
  have hmore : done.map restoredVariant ++ [restoredVariant variant] =
      (done ++ [variant]).map restoredVariant := by
    rw [List.map_append]
    rfl
  have hvalidate : validateVariants
      ((done ++ [variant]).map restoredVariant) = .ok () := by
    refine validateVariants_mono ?_ hvalid
    rw [optionPairs_restored]
    exact List.Subset.refl _
  have hlimit : ¬ maxOptionsPerVariant <
      (restoredVariant variant).options.entries.length :=
    Nat.not_lt.mpr hoptions
  rw [Serializer.addVariant,
    readVariant_variantFields serializer hprice hquantity]
  change Product.addVariant _ _ = _
  rw [Product.addVariant, if_neg hlimit]
  simp only [if_neg hunlike, hmore, hvalidate]
  rfl

theorem foldlM_addVariant {product : Product}
    {done variants : List ProductVariant}
    (hdistinct : (done ++ variants).Pairwise fun variant other =>
      ¬ variant.options.Same other.options)
    (hoptions : ∀ variant ∈ variants,
      variant.options.entries.length ≤ maxOptionsPerVariant)
    (hvalid : validateVariants (done ++ variants) = .ok ())
    (hprice : ∀ variant ∈ variants, ∀ price ∈ variant.price, 0 ≤ price)
    (hquantity : ∀ variant ∈ variants, ∀ quantity ∈ variant.quantity,
      0 ≤ quantity.toInt) :
    (variants.map fun variant => Json.ofFields (variantFields variant)).foldlM
        serializer.addVariant
        { product with variants := done.map restoredVariant } =
      .ok { product with
        variants := (done ++ variants).map restoredVariant } := by
  induction variants generalizing done with
  | nil =>
      rw [List.append_nil]
      rfl
  | cons variant variants ih =>
      have happend : done ++ variant :: variants =
          (done ++ [variant]) ++ variants := by
        rw [List.append_assoc, List.singleton_append]
      have hnew : ∀ other ∈ done, ¬ other.options.Same variant.options :=
        fun other hother => (List.pairwise_append.mp hdistinct).2.2 other
          hother variant List.mem_cons_self
      rw [happend] at hdistinct hvalid ⊢
      have hfirst : validateVariants (done ++ [variant]) = .ok () := by
        refine validateVariants_mono ?_ hvalid
        have hpairs : optionPairs ((done ++ [variant]) ++ variants) =
            optionPairs (done ++ [variant]) ++ optionPairs variants :=
          List.flatMap_append
        rw [hpairs]
        exact List.subset_append_left _ _
      rw [List.map_cons, List.foldlM_cons,
        addVariant_variantFields serializer hnew
          (hoptions variant List.mem_cons_self) hfirst
          (hprice variant List.mem_cons_self)
          (hquantity variant List.mem_cons_self)]
      exact ih hdistinct
        (fun other hother => hoptions other (List.mem_cons_of_mem _ hother))
        hvalid
        (fun other hother => hprice other (List.mem_cons_of_mem _ hother))
        (fun other hother => hquantity other (List.mem_cons_of_mem _ hother))

theorem distinctVariants_sublist (seen : List VariantOptions)
    (variants : List ProductVariant) :
    (distinctVariants seen variants).Sublist variants := by
  induction variants generalizing seen with
  | nil => exact List.Sublist.refl _
  | cons variant variants ih =>
      unfold distinctVariants
      split
      · exact (ih seen).cons variant
      · exact (ih _).cons_cons variant

/-- What is kept differs from what has been seen, and from one another. -/
theorem distinctVariants_pairwise (seen : List VariantOptions)
    (variants : List ProductVariant) :
    (∀ variant ∈ distinctVariants seen variants, ∀ options ∈ seen,
        ¬ options.Same variant.options) ∧
      (distinctVariants seen variants).Pairwise fun variant other =>
        ¬ variant.options.Same other.options := by
  induction variants generalizing seen with
  | nil => exact ⟨nofun, List.Pairwise.nil⟩
  | cons variant variants ih =>
      unfold distinctVariants
      split
      · exact ih seen
      next hnew =>
        obtain ⟨hseen, hpairwise⟩ := ih (seen ++ [variant.options])
        rw [List.any_eq_true] at hnew
        constructor
        · intro other hother options hoptions
          rcases List.mem_cons.mp hother with rfl | hother
          · exact fun hsame => hnew ⟨options, hoptions, decide_eq_true hsame⟩
          · exact hseen other hother options (List.mem_append_left _ hoptions)
        · refine List.pairwise_cons.mpr ⟨fun other hother => ?_, hpairwise⟩
          exact hseen other hother variant.options
            (List.mem_append_right _ List.mem_cons_self)

theorem distinctVariants_of_pairwise {seen : List VariantOptions}
    {variants : List ProductVariant}
    (hseen : ∀ variant ∈ variants, ∀ options ∈ seen,
      ¬ options.Same variant.options)
    (hpairwise : variants.Pairwise fun variant other =>
      ¬ variant.options.Same other.options) :
    distinctVariants seen variants = variants := by
  induction variants generalizing seen with
  | nil => rfl
  | cons variant variants ih =>
      obtain ⟨hvariant, hrest⟩ := List.pairwise_cons.mp hpairwise
      have hnew : ¬ (seen.any fun options =>
          options.Same variant.options) = true := by
        rw [List.any_eq_true]
        rintro ⟨options, hoptions, hsame⟩
        exact hseen variant List.mem_cons_self options hoptions
          (of_decide_eq_true hsame)
      rw [distinctVariants, if_neg hnew, ih ?_ hrest]
      intro other hother options hoptions
      rcases List.mem_append.mp hoptions with hoptions | hoptions
      · exact hseen other (List.mem_cons_of_mem _ hother) options hoptions
      · rw [List.mem_singleton.mp hoptions]
        exact hvariant other hother

theorem filter_of_ne_none {Value : Type} {test : Value → Bool}
    {value : Option Value} (h : value.filter test ≠ none) :
    value.filter test = value := by
  cases value with
  | none => rfl
  | some value =>
      cases htest : test value with
      | true => exact Option.filter_some_pos htest
      | false => exact absurd (Option.filter_some_neg (by simp [htest])) h

theorem sameVariant_restored (variant : ProductVariant) :
    SameVariant variant (restoredVariant variant) where
  options := List.Perm.refl _
  condition _ := rfl
  weight h := filter_of_ne_none h
  price _ := rfl
  quantity _ := rfl
  productCode _ := rfl
  imageIndex h := filter_of_ne_none h

/-- The variants come back as far as none has been skipped. -/
theorem forall₂_restored {variants : List ProductVariant} :
    List.Forall₂ SameVariant variants
        ((distinctVariants [] variants).map restoredVariant) ↔
      variants.Pairwise fun variant other =>
        ¬ variant.options.Same other.options := by
  constructor
  · intro h
    have hlength := h.length_eq
    rw [List.length_map] at hlength
    have hall := (distinctVariants_sublist [] variants).eq_of_length hlength.symm
    rw [← hall]
    exact (distinctVariants_pairwise [] variants).2
  · intro h
    have hseen : ∀ variant ∈ variants, ∀ options ∈ ([] : List VariantOptions),
        ¬ options.Same variant.options := fun _ _ _ hmem => (nomatch hmem)
    rw [distinctVariants_of_pairwise hseen h, List.forall₂_map_right_iff]
    exact List.forall₂_same.mpr fun variant _ => sameVariant_restored variant

/-! ## Categories -/

theorem getCategoryIdByName_name {id : Int}
    (h : isValidCategoryId id = true) :
    getCategoryIdByName (getCategoryNameById id) = id := by
  obtain ⟨entry, hentry, hid⟩ := List.any_eq_true.mp h
  have hall : ∀ entry ∈ predefinedCategories,
      getCategoryIdByName (getCategoryNameById entry.1) = entry.1 := by decide
  exact of_decide_eq_true hid ▸ hall entry hentry

theorem setCategory_name {product : Product} {id : Int}
    (h : isValidCategoryId id = true) :
    product.setCategory (getCategoryNameById id) =
      .ok { product with categoryId := id } := by
  have hne : id ≠ -1 := by
    rintro rfl
    exact absurd h (by decide)
  rw [Product.setCategory, getCategoryIdByName_name h, if_neg hne,
    if_neg (not_not_intro h)]
  rfl

/-- The names lead to the ids of categories, but for the last. -/
theorem subcategoryId_table : ∀ entry ∈ predefinedSubcategories,
    entry.1 = 505 ∧ Product.subcategoryId entry.2 = some 505 ∨
      ∃ id ∈ predefinedCategories.map Prod.fst,
        Product.subcategoryId entry.2 = some id := by
  decide

theorem mem_of_nameById {table : List (Int × String)} {id : Int}
    (h : nameById table id ≠ "") : (id, nameById table id) ∈ table := by
  unfold nameById at h ⊢
  cases hfind : table.find? (·.1 = id) with
  | none =>
      rw [hfind] at h
      exact absurd rfl h
  | some entry =>
      obtain ⟨first, name⟩ := entry
      have htest := List.find?_some hfind
      have hid : first = id := of_decide_eq_true htest
      have hmem := List.mem_of_find?_eq_some hfind
      rw [hid] at hmem
      exact hmem

/-- The ids that the written names lead to. -/
def restoredSubcategoryIds (product : Product) : Finset Int :=
  ((inOrder product.getSubcategoriesAsString).filterMap
    Product.subcategoryId).toFinset

theorem mem_restoredSubcategoryIds {product : Product} {id : Int} :
    id ∈ restoredSubcategoryIds product ↔
      ∃ other ∈ product.subcategoryIds, getSubcategoryNameById other ≠ "" ∧
        Product.subcategoryId (getSubcategoryNameById other) = some id := by
  rw [restoredSubcategoryIds, List.mem_toFinset, List.mem_filterMap]
  simp only [mem_inOrder, Product.getSubcategoriesAsString,
    Finset.mem_erase, Finset.mem_image]
  constructor
  · rintro ⟨name, ⟨hname, other, hother, rfl⟩, hid⟩
    exact ⟨other, hother, hname, hid⟩
  · rintro ⟨other, hother, hname, hid⟩
    exact ⟨_, ⟨hname, other, hother, rfl⟩, hid⟩

/-- Only the last subcategory leads to a subcategory. -/
theorem eq_of_mem_restoredSubcategoryIds {product : Product} {id : Int}
    (hid : id ∈ restoredSubcategoryIds product)
    (hname : getSubcategoryNameById id ≠ "") : id = 505 := by
  obtain ⟨other, -, hother, hsome⟩ := mem_restoredSubcategoryIds.mp hid
  have hdisjoint : ∀ entry ∈ predefinedSubcategories,
      entry.1 ∉ predefinedCategories.map Prod.fst := by decide
  rcases subcategoryId_table _ (mem_of_nameById hother) with
    ⟨-, hlast⟩ | ⟨category, hcategory, hsome'⟩
  · exact Option.some.inj (hsome.symm.trans hlast)
  · have heq : id = category := Option.some.inj (hsome.symm.trans hsome')
    exact absurd (heq ▸ hcategory) (hdisjoint _ (mem_of_nameById hname))

theorem restoredSubcategoryIds_eq {product : Product}
    (hnames : product.getSubcategoriesAsString ≠ ∅) :
    restoredSubcategoryIds product = product.subcategoryIds ↔
      product.subcategoryIds = {505} := by
  constructor
  · intro h
    have hlast : ∀ id ∈ product.subcategoryIds,
        getSubcategoryNameById id ≠ "" → id = 505 := fun id hid hname =>
      eq_of_mem_restoredSubcategoryIds (h ▸ hid) hname
    have hall : ∀ id ∈ product.subcategoryIds, id = 505 := by
      intro id hid
      rw [← h] at hid
      obtain ⟨other, hother, hname, hsome⟩ := mem_restoredSubcategoryIds.mp hid
      rw [hlast other hother hname] at hsome
      exact Option.some.inj (hsome.symm.trans (by decide))
    obtain ⟨name, hname⟩ := Finset.nonempty_iff_ne_empty.mpr hnames
    obtain ⟨-, hname⟩ := Finset.mem_erase.mp hname
    obtain ⟨id, hid, -⟩ := Finset.mem_image.mp hname
    exact Finset.eq_singleton_iff_nonempty_unique_mem.mpr ⟨⟨id, hid⟩, hall⟩
  · intro h
    have hname : getSubcategoryNameById 505 ≠ "" := by decide
    have hlast : Product.subcategoryId (getSubcategoryNameById 505) =
        some 505 := by decide
    ext id
    rw [mem_restoredSubcategoryIds, h]
    simp only [Finset.mem_singleton, exists_eq_left, hlast, Option.some.injEq]
    exact ⟨fun hid => hid.2.symm, fun hid => ⟨hname, hid.symm⟩⟩

/-! ## What is read of a written listing -/

theorem nodup_productFields (product : Product) :
    ((productFields product).map Prod.fst).Nodup := by
  simp [productFields]

theorem nodup_listingFields (listing : Listing) (product : Product)
    (expiration : Option String) :
    ((listingFields listing product expiration).map Prod.fst).Nodup := by
  simp [listingFields]

/-- Variants without options are not written. -/
def restoredProduct (id : String) (product : Product) : Product where
  id := id
  name := product.name
  description := product.description
  weight := 0
  variants :=
    if getOptions product.variants = [] then []
    else (distinctVariants [] product.variants).map restoredVariant
  code := product.code
  categoryId := product.categoryId
  subcategoryIds := restoredSubcategoryIds product
  tags := product.tags
  images := []

def Serializer.restoredListing (listing : Listing) (product : Product) :
    Listing :=
  { Listing.init serializer.uninitialized with
    id := listing.id
    sellerId := listing.sellerId
    quantity := listing.quantity
    price := listing.price
    currency := listing.currency
    condition := listing.condition
    location := if listing.location = "Unspecified" then "" else listing.location
    date := listing.date
    product := some (restoredProduct listing.id product) }

theorem readOptionNames_productFields (product : Product) :
    readOptionNames (.ofFields (productFields product)) = .ok () := by
  have hfind := Json.find?_ofFields (nodup_productFields product) "options"
  rw [readOptionNames, hfind]
  by_cases hnone : getOptions product.variants ≠ []
  · have hlookup : (productFields product).lookup "options" =
        some (some (stringArray ((getOptions product.variants).map Prod.fst))) :=
      congrArg some (if_pos hnone)
    rw [hlookup]
    change (do let _ ← ((List.map Json.string _).mapM Json.getString)) = _
    rw [mapM_getString]
    rfl
  · have hlookup : (productFields product).lookup "options" = some none :=
      congrArg some (if_neg hnone)
    rw [hlookup]
    rfl

theorem readVariants_productFields {listing : Listing} {product : Product}
    (hadmissible : Admissible listing product) {empty : Product}
    (hempty : empty.variants = []) :
    serializer.readVariants empty (.ofFields (productFields product)) =
      .ok { empty with
        variants := (restoredProduct listing.id product).variants } := by
  have hfind := Json.find?_ofFields (nodup_productFields product) "variants"
  rw [Serializer.readVariants, hfind, restoredProduct]
  by_cases hnone : getOptions product.variants = []
  · have hlookup : (productFields product).lookup "variants" = some none :=
      congrArg some (if_neg (not_not_intro hnone))
    rw [hlookup, if_pos hnone, ← hempty]
    rfl
  · have hlookup : (productFields product).lookup "variants" =
        some (some (.array ((distinctVariants [] product.variants).map
          fun variant => .ofFields (variantFields variant)))) :=
      congrArg some (if_pos hnone)
    rw [hlookup, if_neg hnone]
    have hsublist := distinctVariants_sublist [] product.variants
    have hvalid : validateVariants
        ([] ++ distinctVariants [] product.variants) = .ok () :=
      validateVariants_mono (List.Sublist.subset (hsublist.flatMap _))
        hadmissible.limits.variants
    have hstart : { empty with
        variants := ([] : List ProductVariant).map restoredVariant } =
          empty := by
      rw [List.map_nil, ← hempty]
    have hfold : (((distinctVariants [] product.variants).map fun variant =>
        Json.ofFields (variantFields variant)).foldlM serializer.addVariant
          { empty with
            variants := ([] : List ProductVariant).map restoredVariant }) =
        .ok { empty with
          variants := ([] ++ distinctVariants [] product.variants).map
            restoredVariant } :=
      foldlM_addVariant serializer
        (distinctVariants_pairwise [] product.variants).2
        (fun variant hmem =>
          hadmissible.limits.options variant (hsublist.subset hmem))
        hvalid
        (fun variant hmem =>
          hadmissible.variantPrice variant (hsublist.subset hmem))
        (fun variant hmem =>
          hadmissible.variantQuantity variant (hsublist.subset hmem))
    rw [hstart] at hfold
    exact hfold

theorem restoredTags {product : Product}
    (htags : ∀ tag ∈ product.tags, tag.toLower = tag) :
    ((onlyIf (product.tags ≠ ∅)
      ((inOrder product.tags).map String.toLower)).getD []).toFinset =
        product.tags := by
  by_cases hnone : product.tags = ∅
  · rw [onlyIf, if_neg (not_not_intro hnone), hnone]
    rfl
  · have hlower : (inOrder product.tags).map String.toLower =
        inOrder product.tags := by
      have hsame : ∀ tag ∈ inOrder product.tags, tag.toLower = id tag :=
        fun tag hmem => htags tag (mem_inOrder.mp hmem)
      rw [List.map_congr_left hsame, List.map_id]
    rw [onlyIf, if_pos hnone, Option.getD_some, hlower, inOrder,
      Finset.sort_toFinset]

theorem readProduct_productFields {listing : Listing} {product : Product}
    (hadmissible : Admissible listing product) :
    serializer.readProduct listing.id (.ofFields (productFields product)) =
      .ok (restoredProduct listing.id product) := by
  have hnames := nodup_productFields product
  have hname : fetchConstString (.ofFields (productFields product)) "name" =
      .ok product.name :=
    fetchConstString_ofFields hnames rfl
  have hdescription : fetchConstString (.ofFields (productFields product))
      "description" = .ok product.description :=
    fetchConstString_ofFields hnames rfl
  have hcategory : fetchConstString (.ofFields (productFields product))
      "category" = .ok (getCategoryNameById product.categoryId) :=
    fetchConstString_ofFields hnames rfl
  have hcode : fetchOptional (.ofFields (productFields product)) "code"
      Json.getString = .ok (onlyIf (product.code ≠ "") product.code) :=
    fetchOptional_ofFields hnames rfl fun _ _ => rfl
  have hsubcategories : fetchOptional (.ofFields (productFields product))
      "subcategories" getStrings =
        .ok (onlyIf (product.getSubcategoriesAsString ≠ ∅)
          (inOrder product.getSubcategoriesAsString)) :=
    fetchOptional_ofFields hnames rfl fun _ _ => getStrings_stringArray _
  have htags : fetchOptional (.ofFields (productFields product)) "tags"
      getStrings = .ok (onlyIf (product.tags ≠ ∅)
        ((inOrder product.tags).map String.toLower)) :=
    fetchOptional_ofFields hnames rfl fun _ _ => getStrings_stringArray _
  rw [Serializer.readProduct, hname, hdescription,
    readOptionNames_productFields]
  change (do
    let product ← serializer.readVariants _ _
    _) = _
  rw [readVariants_productFields serializer hadmissible rfl, hcode, hcategory]
  change (do
    let product ← Product.setCategory _ _
    _) = _
  rw [setCategory_name hadmissible.category, hsubcategories, htags]
  change Except.ok _ = Except.ok _
  rw [restoredTags hadmissible.tags, getD_onlyIf_ne]
  by_cases hnone : product.getSubcategoriesAsString = ∅
  · have hids : restoredSubcategoryIds product = ∅ := by
      rw [restoredSubcategoryIds, hnone, inOrder, Finset.sort_empty,
        List.filterMap_nil, List.toFinset_nil]
    rw [onlyIf, if_neg (not_not_intro hnone), restoredProduct, hids]
    rfl
  · rw [onlyIf, if_pos hnone]
    rfl

theorem location_listingFields (listing : Listing) (product : Product)
    (expiration : Option String) :
    ((listingDocument listing product expiration).string? "location").getD "" =
        if listing.location = "Unspecified" then "" else listing.location := by
  have hfind := Json.find?_ofFields
    (nodup_listingFields listing product expiration) "location"
  rw [Json.string?, listingDocument, hfind]
  by_cases hplace : listing.location ≠ "" ∧ listing.location ≠ "Unspecified"
  · have hlookup : (listingFields listing product expiration).lookup
        "location" = some (some (.string listing.location)) := by
      change some ((onlyIf _ listing.location).map Json.string) = _
      rw [onlyIf, if_pos hplace]
      rfl
    rw [hlookup, if_neg hplace.2]
    rfl
  · have hlookup : (listingFields listing product expiration).lookup
        "location" = some none := by
      change some ((onlyIf _ listing.location).map Json.string) = _
      rw [onlyIf, if_neg hplace]
      rfl
    rw [hlookup]
    rw [not_and_or, not_not, not_not] at hplace
    rcases hplace with hplace | hplace
    · rw [hplace]
      rfl
    · rw [if_pos hplace]
      rfl

theorem deserialize_written {listing : Listing} {product : Product}
    (hadmissible : Admissible listing product) {expiration : Option String}
    {key text : String}
    (hparse : serializer.env.parse text =
      .ok (listingDocument listing product expiration)) :
    serializer.deserialize (key, text) =
      .ok (some (serializer.restoredListing listing product)) := by
  have hnames := nodup_listingFields listing product expiration
  have hvalue : serializer.env.parseOrThrow text =
      .ok (listingDocument listing product expiration) := by
    rw [Externals.parseOrThrow, hparse]
  have hmetadata : (listingDocument listing product expiration).index
      "metadata" = .ok (.string "listing") := Json.index_ofFields hnames rfl
  have hkind : fetchString (listingDocument listing product expiration)
      "metadata" = .ok "listing" := fetchString_ofFields hnames rfl
  have hid : fetchString (listingDocument listing product expiration) "id" =
      .ok listing.id := fetchString_ofFields hnames rfl
  have hseller : fetchString (listingDocument listing product expiration)
      "seller_id" = .ok listing.sellerId := fetchString_ofFields hnames rfl
  have hquantity : fetchInt (listingDocument listing product expiration)
      "quantity" =
        .ok (Int.bmod (listing.getQuantity.natAbs : Nat) (2 ^ 32)) := by
    have hindex : (listingDocument listing product expiration).index
        "quantity" = .ok (.unsigned listing.getQuantity.natAbs) :=
      Json.index_ofFields hnames rfl
    rw [fetchInt, hindex]
    rfl
  have hprice : fetchDouble serializer.toDouble
      (listingDocument listing product expiration) "price" =
        .ok listing.price := by
    have hindex : (listingDocument listing product expiration).index
        "price" = .ok (.float |listing.price|) := Json.index_ofFields hnames rfl
    rw [fetchDouble, hindex, abs_of_nonneg hadmissible.price]
    rfl
  have hcurrency : fetchString (listingDocument listing product expiration)
      "currency" = .ok listing.currency := fetchString_ofFields hnames rfl
  have hcondition : fetchString (listingDocument listing product expiration)
      "condition" = .ok listing.condition := fetchString_ofFields hnames rfl
  have hdate : fetchString (listingDocument listing product expiration)
      "date" = .ok listing.date := fetchString_ofFields hnames rfl
  have hproduct : (listingDocument listing product expiration).index
      "product" = .ok (.ofFields (productFields product)) :=
    Json.index_ofFields hnames rfl
  rw [Serializer.deserialize, hvalue]
  change (do
    assertThat (← (listingDocument listing product expiration).index
      "metadata").isString
    _) = _
  rw [hmetadata, hkind]
  change (do
    let id ← fetchString (listingDocument listing product expiration) "id"
    _) = _
  rw [hid, hseller, hquantity, hprice, hcurrency, hcondition, hdate, hproduct]
  change (do
    let product ← serializer.readProduct listing.id
      (.ofFields (productFields product))
    _) = _
  rw [readProduct_productFields serializer hadmissible]
  change Except.ok _ = Except.ok _
  rw [location_listingFields, Listing.getQuantity,
    toUnsigned_natAbs hadmissible.quantity]
  rfl

/-! ## The fields that come back -/

/-- What is not read comes back where it was left out. -/
theorem eq_of_kept {Value : Type} {value unread : Value}
    (h : value ≠ unread → unread = value) : value = unread := by
  by_contra hne
  exact hne (h hne).symm

theorem sameProduct_restored {product : Product} {id : String} :
    SameProduct product (restoredProduct id product) ↔
      product.weight ≤ 0 ∧
        (getOptions product.variants ≠ [] →
          product.variants.Pairwise fun variant other =>
            ¬ variant.options.Same other.options) ∧
        (product.getSubcategoriesAsString = ∅ ∨
          product.subcategoryIds = {505}) ∧
        product.images = [] := by
  have hvariants (hsome : getOptions product.variants ≠ []) :
      (restoredProduct id product).variants =
        (distinctVariants [] product.variants).map restoredVariant :=
    if_neg hsome
  constructor
  · intro h
    refine ⟨?_, fun hsome => ?_, ?_, ?_⟩
    · by_contra hweight
      have hpos := not_le.mp hweight
      exact hpos.ne (h.weight hpos)
    · have hall := h.variants hsome
      rw [hvariants hsome] at hall
      exact forall₂_restored.mp hall
    · by_cases hnames : product.getSubcategoriesAsString = ∅
      · exact .inl hnames
      · exact .inr ((restoredSubcategoryIds_eq hnames).mp
          (h.subcategories hnames))
    · exact eq_of_kept h.images
  · rintro ⟨hweight, hpairwise, hsubcategories, himages⟩
    exact {
      name := rfl
      description := rfl
      weight := fun hpos => absurd hpos (not_lt.mpr hweight)
      variants := fun hsome => by
        rw [hvariants hsome]
        exact forall₂_restored.mpr (hpairwise hsome)
      code := fun _ => rfl
      category := rfl
      subcategories := fun hnames =>
        (restoredSubcategoryIds_eq hnames).mpr
          (hsubcategories.resolve_left hnames)
      tags := fun _ => rfl
      images := fun hsome => absurd himages hsome }

theorem sameListing_restored {listing : Listing} {product : Product} :
    SameListing listing (serializer.restoredListing listing product)
        product ∧ Yields serializer.expiration ↔
      serializer.Restorable listing product := by
  constructor
  · rintro ⟨h, hexpiration⟩
    obtain ⟨other, hother, hproduct⟩ := h.product
    obtain rfl : restoredProduct listing.id product = other :=
      Option.some.inj hother
    obtain ⟨hweight, hvariants, hsubcategories, himages⟩ :=
      sameProduct_restored.mp hproduct
    exact {
      expiration := hexpiration
      signature := h.signature.symm
      quantityPerOrder := by
        by_contra hpos
        have hzero : (0 : UInt32) = listing.quantityPerOrder :=
          h.quantityPerOrder (not_le.mp hpos)
        rw [Listing.getQuantityPerOrder, ← hzero] at hpos
        exact hpos (by decide)
      paymentMethod := h.paymentMethod.symm
      paymentCoins := eq_of_kept h.paymentCoins
      paymentOptions := eq_of_kept h.paymentOptions
      deliveryOptions := eq_of_kept h.deliveryOptions
      shippingOptions := eq_of_kept h.shippingOptions
      shippingCosts := by
        by_contra! hsome
        obtain ⟨option, hoption⟩ := hsome
        exact hoption (congrFun (h.shippingCosts ⟨option, hoption⟩) option).symm
      customRates := by
        by_contra! hsome
        obtain ⟨coin, hcoin⟩ := hsome
        exact hcoin (congrFun (h.customRates ⟨coin, hcoin⟩) coin).symm
      weight := hweight
      variants := hvariants
      subcategories := hsubcategories
      images := himages }
  · intro h
    refine ⟨?_, h.expiration⟩
    exact {
      id := rfl
      sellerId := rfl
      quantity := rfl
      price := rfl
      currency := rfl
      condition := rfl
      location := fun hplace => if_neg hplace.2
      date := rfl
      signature := h.signature.symm
      quantityPerOrder := fun hpos =>
        absurd hpos (not_lt.mpr h.quantityPerOrder)
      paymentMethod := h.paymentMethod.symm
      paymentCoins := fun hsome => absurd h.paymentCoins hsome
      paymentOptions := fun hsome => absurd h.paymentOptions hsome
      deliveryOptions := fun hsome => absurd h.deliveryOptions hsome
      shippingOptions := fun hsome => absurd h.shippingOptions hsome
      shippingCosts := fun ⟨option, hsome⟩ =>
        absurd (h.shippingCosts option) hsome
      customRates := fun ⟨coin, hsome⟩ => absurd (h.customRates coin) hsome
      product := ⟨_, rfl, sameProduct_restored.mpr
        ⟨h.weight, h.variants, h.subcategories, h.images⟩⟩ }

/-- The parser gives back the document that has been written. -/
def Serializer.ReadsBack (listing : Listing) (product : Product) : Prop :=
  ∀ expiration, serializer.expiration = .ok expiration →
    serializer.env.parse
        (serializer.dump (listingDocument listing product expiration)) =
      .ok (listingDocument listing product expiration)

theorem Serializer.serialize_eq {listing : Listing} {product : Product}
    (hproduct : listing.product = some product) {expiration : Option String}
    (hexpiration : serializer.expiration = .ok expiration) :
    serializer.serialize listing =
      .ok (serializer.sha3256
          (serializer.dump (listingDocument listing product expiration)),
        serializer.dump (listingDocument listing product expiration)) := by
  rw [Serializer.serialize, hproduct, hexpiration]
  rfl

theorem Serializer.serialize_error {listing : Listing} {fault : Fault}
    (hexpiration : serializer.expiration = .error fault) :
    ¬ Yields (serializer.serialize listing) := by
  rintro ⟨data, hdata⟩
  rw [Serializer.serialize, hexpiration] at hdata
  cases hproduct : listing.product with
  | none =>
      rw [hproduct] at hdata
      cases hdata
  | some product =>
      rw [hproduct] at hdata
      cases hdata

theorem Serializer.listing_roundTrips_iff {listing : Listing} {product : Product}
    (hadmissible : Admissible listing product)
    (hparse : serializer.ReadsBack listing product) :
    serializer.RoundTrips listing product ↔
      serializer.Restorable listing product := by
  rw [← sameListing_restored]
  constructor
  · rintro ⟨data, restored, hdata, hrestored, hsame⟩
    cases hexpiration : serializer.expiration with
    | error fault =>
        exact absurd ⟨data, hdata⟩ (serializer.serialize_error hexpiration)
    | ok expiration =>
        rw [serializer.serialize_eq hadmissible.hasProduct hexpiration] at hdata
        obtain rfl := Except.ok.inj hdata
        rw [deserialize_written serializer hadmissible
          (hparse expiration hexpiration)] at hrestored
        obtain rfl := Option.some.inj (Except.ok.inj hrestored)
        exact ⟨hsame, expiration, rfl⟩
  · rintro ⟨hsame, expiration, hexpiration⟩
    exact ⟨_, _, serializer.serialize_eq hadmissible.hasProduct hexpiration,
      deserialize_written serializer hadmissible
        (hparse expiration hexpiration), hsame⟩

def book : Product :=
  { Product.init with
    name := "Atlas"
    description := "Maps"
    categoryId := 7
    tags := {"maps"} }

def bookListing (signature : String) : Listing :=
  { Listing.init .crypto with
    id := "5a"
    sellerId := "7c"
    quantity := 3
    price := 5 / 2
    currency := "USD"
    condition := "New"
    location := "Belgium"
    date := "2024-01-01"
    signature := signature
    product := some book }

def bookText (signature : String) : String :=
  "\x7b\"condition\":\"New\",\"currency\":\"USD\"," ++
    "\"date\":\"2024-01-01\",\"id\":\"5a\",\"location\":\"Belgium\"," ++
    "\"metadata\":\"listing\",\"payment_methods\":[\"Crypto\"]," ++
    "\"price\":2.5,\"product\":\x7b\"category\":\"Books\"," ++
    "\"description\":\"Maps\",\"name\":\"Atlas\",\"tags\":[\"maps\"]\x7d," ++
    "\"quantity\":3,\"seller_id\":\"7c\",\"signature\":\"" ++ signature ++
    "\"\x7d"

/-- The settings let a listing never expire, and the key is that of the text. -/
def bookSerializer (signature key : String) : Serializer where
  env := .ofDocuments
    [(bookText signature, listingDocument (bookListing signature) book none)]
  dump _ := bookText signature
  sha3256 _ := key
  toDouble number := number
  expiration := .ok none
  uninitialized := .crypto

theorem book_withinLimits : book.WithinLimits where
  options := nofun
  variants := validateVariants_eq_ok.mpr ⟨Nat.zero_le _, nofun⟩

theorem bookListing_admissible (signature : String) :
    Admissible (bookListing signature) book where
  hasProduct := rfl
  limits := book_withinLimits
  quantity := by
    change (0 : Int) ≤ toInt (3 : UInt32).toNat
    decide
  price := by norm_num [bookListing]
  variantPrice := nofun
  variantQuantity := nofun
  tags := by
    intro tag htag
    obtain rfl := Finset.mem_singleton.mp htag
    decide +kernel
  category := by decide

theorem bookSerializer_readsBack (signature key : String) :
    (bookSerializer signature key).ReadsBack (bookListing signature) book := by
  intro expiration hexpiration
  obtain rfl : none = expiration := Except.ok.inj hexpiration
  simp only [bookSerializer, Externals.ofDocuments, parseListed, List.lookup_cons_self]

def unsignedBook : Serializer :=
  bookSerializer ""
    "d99f5ca8db59eb32b153faba0051d95ec29d20c7b500c8837f3dcf548234a907"

def signedBook : Serializer :=
  bookSerializer "b3"
    "1195357527b9529e8902225f014eb8066464d879c3ea81016814fcca0461305b"

theorem Serializer.roundTrips_book :
    unsignedBook.RoundTrips (bookListing "") book :=
  (unsignedBook.listing_roundTrips_iff (bookListing_admissible "")
    (bookSerializer_readsBack "" _)).mpr {
      expiration := ⟨none, rfl⟩
      signature := rfl
      quantityPerOrder := by decide
      paymentMethod := rfl
      paymentCoins := rfl
      paymentOptions := rfl
      deliveryOptions := rfl
      shippingOptions := rfl
      shippingCosts := fun _ => rfl
      customRates := fun _ => rfl
      weight := le_refl 0
      variants := fun _ => List.Pairwise.nil
      subcategories := .inl rfl
      images := rfl }

/-- The signature of a listing is not read. -/
theorem Serializer.signature_lost :
    Admissible (bookListing "b3") book ∧
      signedBook.ReadsBack (bookListing "b3") book ∧
      ¬ signedBook.RoundTrips (bookListing "b3") book := by
  have hreadsBack : signedBook.ReadsBack (bookListing "b3") book :=
    bookSerializer_readsBack "b3" _
  refine ⟨bookListing_admissible "b3", hreadsBack, ?_⟩
  rintro ⟨data, restored, hdata, hrestored, hsame⟩
  have hserialize := signedBook.serialize_eq
    (bookListing_admissible "b3").hasProduct rfl
  rw [hserialize] at hdata
  obtain rfl := Except.ok.inj hdata
  rw [deserialize_written signedBook (bookListing_admissible "b3")
    (hreadsBack none rfl)] at hrestored
  obtain rfl := Option.some.inj (Except.ok.inj hrestored)
  have hsignature : "" = "b3" := hsame.signature
  exact absurd hsignature (by decide)

end Neroshop.Market
