import Neroshop.Market.OrderDocument

/-!
# The document of a cart

`serialize` pushes the items one by one, which makes the array with the first
of them, and `deserialize` asserts that there is one.  A quantity is written
without a sign and read as an `int`.
-/

namespace Neroshop.Market

open Neroshop.Foundation Neroshop.Node

/-! ## Writing -/

def cartItemDocument (item : CartItem) : Json :=
  .ofFields [("product_id", some (.string item.key)),
    ("quantity", some (.unsigned item.quantity.toNat)),
    ("seller_id", some (.string item.sellerId))]

def cartFields (cart : Cart) : List (String × Option Json) :=
  [("id", some (.string cart.id)),
    ("owner_id", some (.string cart.ownerId)),
    ("contents", onlyIf (cart.contents ≠ [])
      (.array (cart.contents.map cartItemDocument))),
    ("metadata", some (.string "cart"))]

def cartDocument (cart : Cart) : Json := .ofFields (cartFields cart)

namespace Serializer

variable (serializer : Serializer)

/-- The key and the value; a cart has no expiration date. -/
def serializeCart (cart : Cart) : String × String :=
  let value := serializer.dump (cartDocument cart)
  (serializer.sha3256 value, value)

end Serializer

/-! ## Reading -/

/-- What the constructor of a cart leaves. -/
def newCart : Cart where
  id := ""
  ownerId := ""
  contents := []
  uuid := none
  rows := []
  loaded := false
  stockSeen _ := 0
  undefined := false

def readCartItem (json : Json) : Except Fault CartItem := do
  let productId ← fetchConstString json "product_id"
  let quantity ← fetchConstInt json "quantity"
  let sellerId ← fetchConstString json "seller_id"
  return ⟨productId, toUnsigned quantity, sellerId⟩

def readCartItems : Json → Except Fault (List CartItem)
  | .array items => items.mapM readCartItem
  | _ => .error .assertionFailed

namespace Serializer

variable (serializer : Serializer)

/-- Nothing is returned here for a document of another kind. -/
def deserializeCart (data : String × String) :
    Except Fault (Option Cart) := do
  let value ← serializer.env.parseOrThrow data.2
  assertThat (← value.index "metadata").isString
  if (← fetchString value "metadata") ≠ "cart" then return none
  let id ← fetchString value "id"
  let ownerId ← fetchString value "owner_id"
  let cartItems ← readCartItems (← value.index "contents")
  return some { newCart with
    id := id, ownerId := ownerId, contents := cartItems }

/-! ## What is asked of a round trip -/

/-- A cart is returned with the same items in the same order. -/
def CartRoundTrips (cart : Cart) : Prop :=
  ∃ restored,
    serializer.deserializeCart (serializer.serializeCart cart) =
      .ok (some restored) ∧
    restored.id = cart.id ∧ restored.ownerId = cart.ownerId ∧
    restored.contents = cart.contents

/-- The parser gives back the document that has been written. -/
def ReadsCartBack (cart : Cart) : Prop :=
  serializer.env.parse (serializer.dump (cartDocument cart)) =
    .ok (cartDocument cart)

end Serializer

/-! ## Reading what was written -/

theorem readCartItem_document (item : CartItem) :
    readCartItem (cartItemDocument item) = .ok item := by
  obtain ⟨key, quantity, sellerId⟩ := item
  change Except.ok (CartItem.mk key
    (toUnsigned (toInt quantity.toNat)) sellerId) = _
  rw [toUnsigned_toInt]

theorem nodup_cartFields (cart : Cart) :
    ((cartFields cart).map Prod.fst).Nodup := by
  simp [cartFields]

theorem index_contents (cart : Cart) :
    (cartDocument cart).index "contents" =
      .ok ((onlyIf (cart.contents ≠ [])
        (Json.array (cart.contents.map cartItemDocument))).getD .null) := by
  have hfind := Json.find?_ofFields (nodup_cartFields cart) "contents"
  rw [Json.index_of_isObject rfl, cartDocument, hfind]
  rfl

theorem readCartItems_written (items : List CartItem) :
    readCartItems ((onlyIf (items ≠ [])
        (Json.array (items.map cartItemDocument))).getD .null) =
      if items = [] then .error .assertionFailed else .ok items := by
  by_cases hitems : items = []
  · rw [onlyIf, if_neg (not_not_intro hitems), if_pos hitems]
    rfl
  · rw [onlyIf, if_pos hitems, if_neg hitems]
    exact mapM_map_eq_ok readCartItem_document items

namespace Serializer

variable (serializer : Serializer)

theorem deserializeCart_written {cart : Cart}
    (hparse : serializer.ReadsCartBack cart) :
    serializer.deserializeCart (serializer.serializeCart cart) =
      if cart.contents = [] then .error .assertionFailed
      else .ok (some { newCart with
        id := cart.id, ownerId := cart.ownerId, contents := cart.contents }) := by
  have hnames := nodup_cartFields cart
  have hvalue : serializer.env.parseOrThrow (serializer.serializeCart cart).2 =
      .ok (cartDocument cart) := by
    rw [Externals.parseOrThrow, serializeCart, hparse]
  have hmetadata : (cartDocument cart).index "metadata" =
      .ok (.string "cart") := Json.index_ofFields hnames rfl
  have hkind : fetchString (cartDocument cart) "metadata" = .ok "cart" :=
    fetchString_ofFields hnames rfl
  have hid : fetchString (cartDocument cart) "id" = .ok cart.id :=
    fetchString_ofFields hnames rfl
  have howner : fetchString (cartDocument cart) "owner_id" =
      .ok cart.ownerId := fetchString_ofFields hnames rfl
  rw [deserializeCart, hvalue]
  change (do
    assertThat (← (cartDocument cart).index "metadata").isString
    _) = _
  rw [hmetadata, hkind]
  change (do
    let id ← fetchString (cartDocument cart) "id"
    _) = _
  rw [hid, howner, index_contents]
  change (do
    let cartItems ← readCartItems _
    _) = _
  rw [readCartItems_written]
  by_cases hitems : cart.contents = []
  · rw [if_pos hitems, if_pos hitems]
    rfl
  · rw [if_neg hitems, if_neg hitems]
    rfl

/-- A cart comes back, whatever the quantities, unless it is empty. -/
theorem cart_roundTrips_iff {cart : Cart}
    (hparse : serializer.ReadsCartBack cart) :
    serializer.CartRoundTrips cart ↔ cart.contents ≠ [] := by
  rw [CartRoundTrips, serializer.deserializeCart_written hparse]
  by_cases hitems : cart.contents = []
  · rw [if_pos hitems]
    refine iff_of_false ?_ (not_not_intro hitems)
    rintro ⟨restored, hrestored, -⟩
    cases hrestored
  · rw [if_neg hitems]
    exact iff_of_true ⟨_, rfl, rfl, rfl, rfl⟩ hitems

end Serializer

/-! ## An empty cart -/

def cartOf (contents : List CartItem) : Cart :=
  { newCart with id := "5a", ownerId := "7c", contents := contents }

/-- The key is that of the text, which is that of the cart. -/
def cartSerializer (contents : List CartItem) (text key : String) :
    Serializer where
  env := .ofDocuments [(text, cartDocument (cartOf contents))]
  dump _ := text
  sha3256 _ := key
  toDouble number := number
  expiration := .ok none
  uninitialized := .crypto

theorem cartSerializer_readsCartBack (contents : List CartItem)
    (text key : String) :
    (cartSerializer contents text key).ReadsCartBack (cartOf contents) := by
  simp only [Serializer.ReadsCartBack, cartSerializer, Externals.ofDocuments, parseListed,
    List.lookup_cons_self]

def emptyCartSerializer : Serializer :=
  cartSerializer [] "\x7b\"id\":\"5a\",\"metadata\":\"cart\",\"owner_id\":\"7c\"\x7d"
    "dd3e25daed13685d1e6e6d59e4ee26c13163e77d8574b18bd02b1e261afaab7e"

/-- No array is written for it, and one is asserted. -/
theorem Serializer.empty_cart_lost :
    emptyCartSerializer.ReadsCartBack (cartOf []) ∧
      emptyCartSerializer.deserializeCart
          (emptyCartSerializer.serializeCart (cartOf [])) =
        .error .assertionFailed := by
  have hparse : emptyCartSerializer.ReadsCartBack (cartOf []) :=
    cartSerializer_readsCartBack _ _ _
  exact ⟨hparse, emptyCartSerializer.deserializeCart_written hparse⟩

/-- The quantity is the largest that there is. -/
def fullCartItem : CartItem := ⟨"1f", 4294967295, "9e"⟩

def fullCartSerializer : Serializer :=
  cartSerializer [fullCartItem]
    ("\x7b\"contents\":[\x7b\"product_id\":\"1f\",\"quantity\":4294967295," ++
      "\"seller_id\":\"9e\"\x7d],\"id\":\"5a\",\"metadata\":\"cart\"," ++
      "\"owner_id\":\"7c\"\x7d")
    "58d302a9dbff5939f208063433b55f063cb3c4f824b54e3d112440b552d9937a"

theorem Serializer.roundTrips_full_cart :
    fullCartSerializer.CartRoundTrips (cartOf [fullCartItem]) :=
  (fullCartSerializer.cart_roundTrips_iff
    (cartSerializer_readsCartBack _ _ _)).mpr (List.cons_ne_nil _ _)

end Neroshop.Market
