import Mathlib.Tactic.MkIffOfInductiveProp
import Neroshop.Fetch
import Neroshop.Node.Validate
import Neroshop.Rpc.Session

/-!
# The rows that the readers make of documents

A reader parses a value, skips what is of another kind and fetches the members
of a row.  `get` throws on a member that is missing or of another type, so a
member that the node accepts in any shape decides whether the reader returns.
-/

namespace Neroshop.Gui

open Neroshop.Foundation Neroshop.Node Neroshop.Rpc

/-! ## Optional members -/

def stringsOf? (json : Json) (name : String) : Option (List String) :=
  match json.find? name with
  | some (.array elements) => some (elements.filterMap fun element =>
      match element with
      | .string text => some text
      | _ => none)
  | _ => none

/-- `is_number_integer()`, then `get<int>()`. -/
def integerOf? (json : Json) (name : String) : Option Int :=
  (json.find? name).bind fun member =>
    if isNumberInteger member then member.getInt.toOption else none

/-! ## Rows -/

structure ListingRow where
  key : String
  listingUuid : String
  sellerId : String
  quantity : Int
  price : ℚ
  currency : String
  priceXmr : Option ℚ
  condition : String
  location : Option String
  date : String
  quantityPerOrder : Option Int
  paymentCoins : Option (List String)
  paymentOptions : Option (List String)
  deliveryOptions : Option (List String)
  shippingOptions : Option (List String)
  expirationDate : Option String
  productName : String
  productDescription : String
  productCategories : List String
  productTags : Option (List String)
  productImages : Option (List (String × Int))
  productThumbnail : Option String
  deriving DecidableEq

/-- `score` holds the stars of a product rating. -/
structure RatingRow where
  key : String
  raterId : String
  comments : String
  signature : String
  score : Int
  expirationDate : Option String
  deriving DecidableEq, Repr

structure AvatarRow where
  name : String
  pieceSize : Int
  pieces : List String
  size : Int
  deriving DecidableEq, Repr

structure UserRow where
  key : String
  avatar : Option AvatarRow
  createdAt : String
  displayName : Option String
  moneroAddress : String
  publicKey : String
  signature : String
  userId : String
  deriving DecidableEq, Repr

/-- Content and sender are what decryption has left. -/
structure MessageRow where
  key : String
  content : List UInt8
  senderId : List UInt8
  recipientId : String
  timestamp : String
  verified : Bool
  deriving DecidableEq, Repr

/-- The `QVariantMap` of a row. -/
inductive Row where
  | blank
  | listing (row : ListingRow)
  | rating (row : RatingRow)
  | user (row : UserRow)
  | message (row : MessageRow)
  deriving DecidableEq

/--
What the readers call outside their own code.  `base64Read` is `BIO_read`, with
the length that it returns and the bytes that it has written; the user's own
key decrypts, to nothing where that fails; the wallet verifies or throws.
-/
structure Desktop where
  lookup : String → Lookup
  mappings : List Mapping
  /-- The statement that selects the keys is prepared and bound. -/
  prepares : Bool
  toDouble : Int → ℚ
  /-- `getPrice` of one XMR in a currency. -/
  getPrice : String → ℚ
  quotient : ℚ → ℚ → ℚ
  base64Read : String → Int × List UInt8
  rsaPrivateDecrypt : List UInt8 → List UInt8
  verifyMessage : (message address : List UInt8) → (signature : String) →
    Except Fault Bool
  /-- `QDateTime::fromString` of a timestamp, in milliseconds. -/
  instant : String → Int

section Readers

variable (desktop : Desktop)

/-! ## Listings -/

/-- `QStringList::contains` without case: `s` has a form beyond ASCII. -/
def isNsfwTag (tag : String) : Bool :=
  tag.toList.map (fun symbol => if symbol = 'ſ' then 's' else symbol.toLower) =
    "nsfw".toList

def hasNsfwTag (listing : ListingRow) : Bool :=
  (listing.productTags.getD []).any isNsfwTag

/-- The name of `predefined_categories[25]`. -/
def illicitCategory : String := "Illicit Goods & Services"

def isIllicitItem (listing : ListingRow) : Bool :=
  listing.productCategories.contains illicitCategory

structure ListingView where
  convertsPrice : Bool
  readsThumbnail : Bool
  hideNsfw : Bool
  hideIllicit : Bool
  deriving DecidableEq, Repr

def priceXmr (price : ℚ) (currency : String) : ℚ :=
  if currency = "XMR" then price
  else if 0 < desktop.getPrice currency
    then desktop.quotient price (desktop.getPrice currency)
  else 0

def readImage (image : Json) : Except Fault (Option (String × Int)) :=
  if image.contains "name" && image.contains "id" then do
    let name ← fetchConstString image "name"
    let id ← fetchConstInt image "id"
    return some (name, id)
  else return none

def readImages : List Json → Except Fault (List (String × Int))
  | [] => .ok []
  | image :: images => do
      let first ← readImage image
      let rest ← readImages images
      return first.toList ++ rest

def readProductImages (product : Json) :
    Except Fault (Option (List (String × Int))) :=
  match product.find? "images" with
  | some (.array images) => do return some (← readImages images)
  | _ => .ok none

def readListing (view : ListingView) (key : String) (json : Json) :
    Except Fault ListingRow := do
  let listingUuid ← fetchString json "id"
  let sellerId ← fetchString json "seller_id"
  let quantity ← fetchInt json "quantity"
  let price ← fetchDouble desktop.toDouble json "price"
  let currency ← fetchString json "currency"
  let condition ← fetchString json "condition"
  let date ← fetchString json "date"
  let product ← json.index "product"
  assertThat product.isObject
  let productName ← fetchConstString product "name"
  let productDescription ← fetchConstString product "description"
  let category ← fetchConstString product "category"
  let productImages ← readProductImages product
  return {
    key, listingUuid, sellerId, quantity, price, currency, condition, date
    productName, productDescription, productImages
    priceXmr :=
      if view.convertsPrice then some (priceXmr desktop price currency)
      else none
    location := json.string? "location"
    quantityPerOrder := integerOf? json "quantity_per_order"
    paymentCoins := stringsOf? json "payment_coins"
    paymentOptions := stringsOf? json "payment_options"
    deliveryOptions := stringsOf? json "delivery_options"
    shippingOptions := stringsOf? json "shipping_options"
    expirationDate := json.string? "expiration_date"
    productCategories :=
      category :: (stringsOf? product "subcategories").getD []
    productTags := stringsOf? product "tags"
    productThumbnail :=
      if view.readsThumbnail then product.string? "thumbnail" else none }

def isHidden (view : ListingView) (listing : ListingRow) : Bool :=
  view.hideNsfw && hasNsfwTag listing ||
    view.hideIllicit && isIllicitItem listing

def readShownListing (view : ListingView) (key : String) (json : Json) :
    Except Fault (Option Row) := do
  let listing ← readListing desktop view key json
  return if isHidden view listing then none else some (.listing listing)

/-! ## Ratings, users and messages -/

/-- The expiration date is read with product ratings only. -/
def readRating (scoreField : String) (readsExpiration : Bool) (key : String)
    (json : Json) : Except Fault (Option Row) := do
  let raterId ← fetchString json "rater_id"
  let comments ← fetchString json "comments"
  let signature ← fetchString json "signature"
  let score ← fetchInt json scoreField
  return some (.rating {
    key, raterId, comments, signature, score
    expirationDate :=
      if readsExpiration then json.string? "expiration_date" else none })

/-- `get<std::vector<std::string>>()`. -/
def getStrings : Json → Except Fault (List String)
  | .array elements => elements.mapM Json.getString
  | _ => .error .typeError

def readAvatar (avatar : Json) : Except Fault AvatarRow := do
  let name ← fetchConstString avatar "name"
  let pieceSize ← fetchConstInt avatar "piece_size"
  let pieces ← getStrings (← avatar.indexConst "pieces")
  let size ← fetchConstInt avatar "size"
  return { name, pieceSize, pieces, size }

/-- An avatar that is no object is passed over. -/
def readAvatarOf (json : Json) : Except Fault (Option AvatarRow) :=
  match json.find? "avatar" with
  | some avatar =>
      if avatar.isObject then do return some (← readAvatar avatar)
      else .ok none
  | none => .ok none

def readUser (key : String) (json : Json) : Except Fault (Option Row) := do
  let avatar ← readAvatarOf json
  let createdAt ← fetchString json "created_at"
  let moneroAddress ← fetchString json "monero_address"
  let publicKey ← fetchString json "public_key"
  let signature ← fetchString json "signature"
  return some (.user {
    key, avatar, createdAt, moneroAddress, publicKey, signature
    displayName := json.string? "display_name"
    userId := moneroAddress })

/-- `resize` converts a negative length to a huge one. -/
def base64Decode (encoded : String) : Except Fault (List UInt8) :=
  let (decodedLength, bytes) := desktop.base64Read encoded
  if decodedLength < 0 then .error .lengthError
  else .ok (bytes.take decodedLength.toNat)

def decryptMessage (contentEncoded senderEncoded : String) :
    Except Fault (List UInt8 × List UInt8) := do
  let senderDecoded ← base64Decode desktop senderEncoded
  let sender := desktop.rsaPrivateDecrypt senderDecoded
  let messageDecoded ← base64Decode desktop contentEncoded
  return (desktop.rsaPrivateDecrypt messageDecoded, sender)

def readMessage (key : String) (json : Json) : Except Fault (Option Row) := do
  let content ← fetchString json "content"
  let sender ← fetchString json "sender_id"
  let (message, senderId) ← decryptMessage desktop content sender
  let recipientId ← fetchString json "recipient_id"
  let timestamp ← fetchString json "timestamp"
  let signature ← fetchString json "signature"
  let verified ← desktop.verifyMessage message senderId signature
  return some (.message {
    key, senderId, recipientId, timestamp, verified, content := message })

end Readers

/-! ## What can be read -/

def isStrings : Json → Bool
  | .array elements => elements.all Json.isString
  | _ => false

def ImageReadable (image : Json) : Prop :=
  image.contains "name" = true → image.contains "id" = true →
    Has image "name" Json.isString ∧ Has image "id" isArithmetic

@[mk_iff] structure ProductReadable (product : Json) : Prop where
  strings : ∀ name ∈ ["name", "description", "category"],
    Has product name Json.isString
  images : ∀ images, product.find? "images" = some (.array images) →
    ∀ image ∈ images, ImageReadable image

@[mk_iff] structure ListingReadable (json : Json) : Prop where
  strings : ∀ name ∈ ["id", "seller_id", "currency", "condition", "date"],
    Has json name Json.isString
  quantity : Has json "quantity" isArithmetic
  price : Has json "price" isNumber
  product : ∃ product, json.find? "product" = some product ∧
    product.isObject = true ∧ ProductReadable product

@[mk_iff] structure RatingReadable (scoreField : String) (json : Json) : Prop where
  strings : ∀ name ∈ ["rater_id", "comments", "signature"],
    Has json name Json.isString
  score : Has json scoreField isArithmetic

@[mk_iff] structure AvatarReadable (avatar : Json) : Prop where
  name : Has avatar "name" Json.isString
  pieceSize : Has avatar "piece_size" isArithmetic
  pieces : Has avatar "pieces" isStrings
  size : Has avatar "size" isArithmetic

@[mk_iff] structure UserReadable (json : Json) : Prop where
  avatar : ∀ avatar, json.find? "avatar" = some avatar →
    avatar.isObject = true → AvatarReadable avatar
  strings : ∀ name ∈ ["created_at", "monero_address", "public_key",
    "signature"], Has json name Json.isString

/-- What is left of an encoded text, where it can be decoded. -/
def Desktop.decrypted (desktop : Desktop) (encoded : String) : List UInt8 :=
  desktop.rsaPrivateDecrypt
    ((desktop.base64Read encoded).2.take (desktop.base64Read encoded).1.toNat)

/-- The two texts decode and the wallet does not throw on what is in them. -/
@[mk_iff] structure MessageReadable (desktop : Desktop) (json : Json) : Prop where
  strings : ∀ name ∈ ["content", "sender_id", "recipient_id", "timestamp",
    "signature"], Has json name Json.isString
  decoded : ∀ content sender signature,
    json.string? "content" = some content →
    json.string? "sender_id" = some sender →
    json.string? "signature" = some signature →
    0 ≤ (desktop.base64Read content).1 ∧ 0 ≤ (desktop.base64Read sender).1 ∧
      Yields (desktop.verifyMessage (desktop.decrypted content)
        (desktop.decrypted sender) signature)

theorem yields_getStrings {json : Json} :
    Yields (getStrings json) ↔ isStrings json = true := by
  cases json with
  | array elements =>
      simp only [getStrings, isStrings]
      induction elements with
      | nil => simp
      | cons element elements ih =>
          rw [List.mapM_cons, yields_bind_iff fun _ =>
            (yields_bind_iff fun _ => iff_of_true (yields_pure _) trivial),
            and_true, yields_getString, ih]
          simp
  | _ => simp [getStrings, isStrings]

/-! ### What each kind of document is read for -/

section Documents

variable {json : Json} {desktop : Desktop} {key : String}

theorem yields_readImage {image : Json} :
    Yields (readImage image) ↔ ImageReadable image := by
  rw [readImage, ImageReadable]
  by_cases hcontains : image.contains "name" = true ∧ image.contains "id" = true
  · have hobject := Json.isObject_of_contains hcontains.1
    simp only [hcontains, Bool.and_self, if_true, yields_bind, yields_pure,
      and_true, exists_and_right, exists_eq_ok,
      yields_fetchConstString hobject, yields_fetchConstInt hobject,
      true_imp_iff]
  · have hpassed : (image.contains "name" && image.contains "id") = false := by
      simpa using hcontains
    refine iff_of_true (by simp [hpassed]) fun hname hid => ?_
    exact absurd ⟨hname, hid⟩ hcontains

theorem yields_readImages {images : List Json} :
    Yields (readImages images) ↔ ∀ image ∈ images, ImageReadable image := by
  induction images with
  | nil => simp [readImages]
  | cons image images ih =>
      rw [readImages, List.forall_mem_cons, ← yields_readImage, ← ih]
      simp only [yields_bind, yields_pure, and_true, exists_and_right,
        exists_eq_ok]

theorem yields_readProductImages {product : Json} :
    Yields (readProductImages product) ↔
      ∀ images, product.find? "images" = some (.array images) →
        ∀ image ∈ images, ImageReadable image := by
  rw [readProductImages]
  cases hfind : product.find? "images" with
  | none => simp
  | some member =>
      cases member with
      | array images =>
          simp only [yields_bind, yields_pure, and_true, exists_eq_ok,
            yields_readImages, Option.some.injEq, Json.array.injEq,
            forall_eq']
      | _ => simp

theorem exists_index_object {name : String} {condition : Json → Prop}
    (hobject : json.isObject = true) :
    (∃ member, json.index name = .ok member ∧
        member.isObject = true ∧ condition member) ↔
      ∃ member, json.find? name = some member ∧
        member.isObject = true ∧ condition member := by
  rw [Json.index_of_isObject hobject]
  cases json.find? name with
  | none => simp [Json.isObject]
  | some member => simp

theorem yields_readListing {view : ListingView}
    (hobject : json.isObject = true) :
    Yields (readListing desktop view key json) ↔ ListingReadable json := by
  simp only [readListing, yields_bind, yields_pure, and_true,
    exists_and_right, exists_eq_ok, yields_fetchString hobject,
    yields_fetchInt hobject, yields_fetchDouble hobject, yields_assertThat,
    yields_readProductImages, exists_index_object hobject]
  have hproduct (product : Json) :
      (product.isObject = true ∧ Yields (fetchConstString product "name") ∧
        Yields (fetchConstString product "description") ∧
        Yields (fetchConstString product "category") ∧
        ∀ images, product.find? "images" = some (.array images) →
          ∀ image ∈ images, ImageReadable image) ↔
      product.isObject = true ∧ ProductReadable product := by
    refine and_congr_right fun hproduct => ?_
    simp [yields_fetchConstString hproduct, productReadable_iff, and_assoc]
  simp only [hproduct, listingReadable_iff, List.forall_mem_cons,
    List.not_mem_nil, false_imp_iff, implies_true, and_true]
  tauto

theorem yields_readShownListing {view : ListingView}
    (hobject : json.isObject = true) :
    Yields (readShownListing desktop view key json) ↔
      ListingReadable json := by
  rw [← yields_readListing hobject, readShownListing, yields_bind]
  simp only [yields_pure, and_true]
  rfl

theorem yields_readRating {scoreField : String} {readsExpiration : Bool}
    (hobject : json.isObject = true) :
    Yields (readRating scoreField readsExpiration key json) ↔
      RatingReadable scoreField json := by
  simp only [readRating, yields_bind, yields_pure, and_true,
    exists_and_right, exists_eq_ok, yields_fetchString hobject,
    yields_fetchInt hobject]
  simp [ratingReadable_iff, and_assoc]

theorem yields_readAvatar {avatar : Json} (hobject : avatar.isObject = true) :
    Yields (readAvatar avatar) ↔ AvatarReadable avatar := by
  have hpieces : Yields (avatar.indexConst "pieces" >>= getStrings) ↔
      Has avatar "pieces" isStrings :=
    yields_indexConst hobject fun _ => yields_getStrings
  rw [yields_bind] at hpieces
  simp only [readAvatar, yields_bind, yields_pure, and_true,
    exists_and_right, exists_eq_ok, yields_fetchConstString hobject,
    yields_fetchConstInt hobject, ← and_assoc]
  rw [avatarReadable_iff, ← hpieces, and_assoc, and_assoc]

theorem yields_readAvatarOf :
    Yields (readAvatarOf json) ↔
      ∀ avatar, json.find? "avatar" = some avatar →
        avatar.isObject = true → AvatarReadable avatar := by
  rw [readAvatarOf]
  cases hfind : json.find? "avatar" with
  | none => simp
  | some avatar =>
      cases hobject : avatar.isObject with
      | false => simp [hobject]
      | true =>
          simp only [if_true, yields_bind, yields_pure, and_true,
            exists_eq_ok, yields_readAvatar hobject, Option.some.injEq,
            forall_eq', hobject, true_imp_iff]

theorem yields_readUser (hobject : json.isObject = true) :
    Yields (readUser key json) ↔ UserReadable json := by
  simp only [readUser, yields_bind, yields_pure, and_true,
    exists_and_right, exists_eq_ok, yields_fetchString hobject,
    yields_readAvatarOf]
  simp [userReadable_iff]

theorem base64Decode_eq_ok {encoded : String} {decoded : List UInt8} :
    base64Decode desktop encoded = .ok decoded ↔
      0 ≤ (desktop.base64Read encoded).1 ∧
        (desktop.base64Read encoded).2.take
          (desktop.base64Read encoded).1.toNat = decoded := by
  rw [base64Decode]
  by_cases hlength : (desktop.base64Read encoded).1 < 0
  · simp [hlength]
  · simp [hlength, not_lt.mp hlength]

theorem decryptMessage_eq_ok {content sender : String}
    {result : List UInt8 × List UInt8} :
    decryptMessage desktop content sender = .ok result ↔
      0 ≤ (desktop.base64Read content).1 ∧
        0 ≤ (desktop.base64Read sender).1 ∧
        (desktop.decrypted content, desktop.decrypted sender) = result := by
  simp only [decryptMessage, bind_eq_ok, base64Decode_eq_ok]
  constructor
  · rintro ⟨_, ⟨hsender, rfl⟩, _, ⟨hcontent, rfl⟩, hresult⟩
    exact ⟨hcontent, hsender, Except.ok.inj hresult⟩
  · rintro ⟨hcontent, hsender, rfl⟩
    exact ⟨_, ⟨hsender, rfl⟩, _, ⟨hcontent, rfl⟩, rfl⟩

theorem yields_readMessage (hobject : json.isObject = true) :
    Yields (readMessage desktop key json) ↔ MessageReadable desktop json := by
  simp only [readMessage, yields_bind, yields_pure, and_true,
    fetchString_eq_ok hobject, decryptMessage_eq_ok]
  simp only [messageReadable_iff, has_isString, List.forall_mem_cons]
  constructor
  · rintro ⟨content, hcontent, sender, hsender, _, ⟨hfirst, hsecond, rfl⟩,
      recipient, hrecipient, timestamp, htimestamp, signature, hsignature,
      hverified⟩
    refine ⟨⟨⟨content, hcontent⟩, ⟨sender, hsender⟩, ⟨recipient, hrecipient⟩,
      ⟨timestamp, htimestamp⟩, ⟨signature, hsignature⟩, by simp⟩, ?_⟩
    intro _ _ _ hcontent' hsender' hsignature'
    cases hcontent.symm.trans hcontent'
    cases hsender.symm.trans hsender'
    cases hsignature.symm.trans hsignature'
    exact ⟨hfirst, hsecond, hverified⟩
  · rintro ⟨⟨⟨content, hcontent⟩, ⟨sender, hsender⟩, ⟨recipient, hrecipient⟩,
      ⟨timestamp, htimestamp⟩, ⟨signature, hsignature⟩, -⟩, hdecoded⟩
    obtain ⟨hfirst, hsecond, hverified⟩ :=
      hdecoded content sender signature hcontent hsender hsignature
    exact ⟨content, hcontent, sender, hsender, _, ⟨hfirst, hsecond, rfl⟩,
      recipient, hrecipient, timestamp, htimestamp, signature, hsignature,
      hverified⟩

end Documents

end Neroshop.Gui
