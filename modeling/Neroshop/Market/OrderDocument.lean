import Neroshop.Market.ListingDocument
import Neroshop.Market.Order

/-!
# The document of an order

`serialize` writes the coin of an order for a payment in a cryptocurrency, the
shipping option for an order that is shipped, and the items one by one, which
makes the array with the first of them.  `deserialize` reads the coin and the
items of every order, and neither the payment method nor the shipping option.
An amount without a price is no number, and no number is written for it.
-/

namespace Neroshop.Market

open Neroshop.Foundation Neroshop.Node

/-! ## Orders -/

inductive OrderStatus where
  | new
  | pending
  | processing
  | shipped
  | readyForPickup
  | delivered
  | cancelled
  | failed
  | returned
  | disputed
  | declined
  deriving DecidableEq

/-- A `double`, which a division by zero leaves infinite or no number. -/
inductive Amount where
  | finite (value : ℚ)
  | infinite (negative : Bool)
  | nan
  deriving DecidableEq

namespace Amount

/-- The member as `dump` writes it, which knows no other numbers. -/
def member : Amount → Json
  | .finite value => .float value
  | .infinite _ | .nan => .null

/-- What `get<double>` makes of it. -/
def read : Amount → Except Fault ℚ
  | .finite value => .ok value
  | .infinite _ | .nan => .error .typeError

def IsFinite (amount : Amount) : Prop := ∃ value, amount = .finite value

instance : ∀ amount : Amount, Decidable amount.IsFinite
  | .finite value => .isTrue ⟨value, rfl⟩
  | .infinite _ | .nan => .isFalse nofun

end Amount

/-- An order as `serialize` takes it, with any status and options. -/
structure StatedOrder where
  id : String
  date : String
  customerId : String
  subtotal : Amount
  discount : Amount
  shippingCost : Amount
  total : Amount
  notes : String
  items : List OrderItem
  status : OrderStatus
  paymentMethod : PaymentMethod
  paymentOption : PaymentOption
  paymentCoin : PaymentCoin
  deliveryOption : DeliveryOption
  shippingOption : ShippingOption

def getStatusAsString : OrderStatus → String
  | .new => "New"
  | .pending => "Pending"
  | .processing => "Processing"
  | .shipped => "Shipped"
  | .readyForPickup => "Ready For Pickup"
  | .delivered => "Delivered"
  | .cancelled => "Cancelled"
  | .failed => "Failed"
  | .returned => "Returned"
  | .disputed => "Disputed"
  | .declined => "Declined"

/-! ## Settings by name -/

def statusNamed : String → Option OrderStatus
  | "New" => some .new
  | "Pending" => some .pending
  | "Processing" => some .processing
  | "Shipped" => some .shipped
  | "Ready For Pickup" => some .readyForPickup
  | "Delivered" => some .delivered
  | "Cancelled" => some .cancelled
  | "Failed" => some .failed
  | "Returned" => some .returned
  | "Disputed" => some .disputed
  | "Declined" => some .declined
  | _ => none

def paymentOptionNamed : String → Option PaymentOption
  | "Escrow" => some .escrow
  | "Multisig" => some .multisig
  | "Finalize" => some .finalize
  | _ => none

def paymentCoinNamed : String → Option PaymentCoin
  | "None" => some .none
  | "XMR" => some .xmr
  | "WOW" => some .wow
  | _ => none

def deliveryOptionNamed : String → Option DeliveryOption
  | "Shipping" => some .shipping
  | "Pickup" => some .pickup
  | "Digital" => some .digital
  | _ => none

namespace StatedOrder

variable (order : StatedOrder)

/-- An unknown name changes nothing, here and below. -/
def setStatusByString (status : String) : StatedOrder :=
  { order with status := (statusNamed status).getD order.status }

def setPaymentOptionByString (paymentOption : String) : StatedOrder :=
  { order with
    paymentOption := (paymentOptionNamed paymentOption).getD order.paymentOption }

def setPaymentCoinByString (paymentCoin : String) : StatedOrder :=
  { order with
    paymentCoin := (paymentCoinNamed paymentCoin).getD order.paymentCoin }

def setDeliveryOptionByString (deliveryOption : String) : StatedOrder :=
  { order with
    deliveryOption :=
      (deliveryOptionNamed deliveryOption).getD order.deliveryOption }

end StatedOrder

@[simp] theorem statusNamed_getStatusAsString (status : OrderStatus) :
    statusNamed (getStatusAsString status) = some status := by
  cases status <;> rfl

@[simp] theorem paymentOptionNamed_getPaymentOptionAsString
    (paymentOption : PaymentOption) :
    paymentOptionNamed (getPaymentOptionAsString paymentOption) =
      some paymentOption := by
  cases paymentOption <;> rfl

@[simp] theorem paymentCoinNamed_getPaymentCoinAsString
    (paymentCoin : PaymentCoin) :
    paymentCoinNamed (getPaymentCoinAsString paymentCoin) =
      some paymentCoin := by
  cases paymentCoin <;> rfl

@[simp] theorem deliveryOptionNamed_getDeliveryOptionAsString
    (deliveryOption : DeliveryOption) :
    deliveryOptionNamed (getDeliveryOptionAsString deliveryOption) =
      some deliveryOption := by
  cases deliveryOption <;> rfl

/-! ## Writing -/

def orderItemDocument (item : OrderItem) : Json :=
  .ofFields [("listing_key", some (.string item.key)),
    ("quantity", some (.unsigned item.quantity.toNat)),
    ("seller_id", some (.string item.sellerId))]

def orderFields (order : StatedOrder) (expiration : Option String) :
    List (String × Option Json) :=
  [("id", some (.string order.id)),
    ("created_at", some (.string order.date)),
    ("status", some (.string (getStatusAsString order.status))),
    ("customer_id", some (.string order.customerId)),
    ("subtotal", some order.subtotal.member),
    ("discount", some order.discount.member),
    ("shipping_cost", some order.shippingCost.member),
    ("total", some order.total.member),
    ("payment_method", some
      (.string (getPaymentMethodAsString order.paymentMethod))),
    ("payment_coin", onlyIf
      (order.paymentMethod = .crypto ∧ order.paymentCoin ≠ .none)
      (.string (getPaymentCoinAsString order.paymentCoin))),
    ("payment_option", some
      (.string (getPaymentOptionAsString order.paymentOption))),
    ("delivery_option", some
      (.string (getDeliveryOptionAsString order.deliveryOption))),
    ("shipping_option", onlyIf (order.deliveryOption = .shipping)
      (.string (getShippingOptionAsString order.shippingOption))),
    ("notes", some (.string order.notes)),
    ("items", onlyIf (order.items ≠ [])
      (.array (order.items.map orderItemDocument))),
    ("metadata", some (.string "order")),
    ("expiration_date", expiration.map .string)]

def orderDocument (order : StatedOrder) (expiration : Option String) : Json :=
  .ofFields (orderFields order expiration)

/-- The constructor of an order leaves two members as they are in the memory. -/
structure OrderSerializer extends Serializer where
  uninitializedShipping : ShippingOption

variable (serializer : OrderSerializer)

/-- The key and the value. -/
def OrderSerializer.serialize (order : StatedOrder) :
    Except Fault (String × String) := do
  let expiration ← serializer.expiration
  let value := serializer.dump (orderDocument order expiration)
  return (serializer.sha3256 value, value)

/-! ## Reading -/

def OrderSerializer.newOrder : StatedOrder where
  id := ""
  date := ""
  customerId := ""
  subtotal := .finite 0
  discount := .finite 0
  shippingCost := .finite 0
  total := .finite 0
  notes := ""
  items := []
  status := .new
  paymentMethod := serializer.uninitialized
  paymentOption := .escrow
  paymentCoin := .xmr
  deliveryOption := .shipping
  shippingOption := serializer.uninitializedShipping

def readOrderItem (json : Json) : Except Fault OrderItem := do
  let listingId ← fetchConstString json "listing_key"
  let quantity ← fetchConstInt json "quantity"
  let sellerId ← fetchConstString json "seller_id"
  return ⟨listingId, toUnsigned quantity, sellerId⟩

/-- The assertion that the items are an array, and the loop over them. -/
def readOrderItems : Json → Except Fault (List OrderItem)
  | .array items => items.mapM readOrderItem
  | _ => .error .assertionFailed

/-- Nothing is returned here for a document of another kind. -/
def OrderSerializer.deserialize (data : String × String) :
    Except Fault (Option StatedOrder) := do
  let value ← serializer.env.parseOrThrow data.2
  assertThat (← value.index "metadata").isString
  if (← fetchString value "metadata") ≠ "order" then return none
  let order := serializer.newOrder
  let id ← fetchString value "id"
  let date ← fetchString value "created_at"
  let order := order.setStatusByString (← fetchString value "status")
  let customerId ← fetchString value "customer_id"
  let subtotal ← fetchDouble serializer.toDouble value "subtotal"
  let discount ← fetchDouble serializer.toDouble value "discount"
  let shippingCost ← fetchDouble serializer.toDouble value "shipping_cost"
  let total ← fetchDouble serializer.toDouble value "total"
  let order :=
    order.setPaymentOptionByString (← fetchString value "payment_option")
  let order := order.setPaymentCoinByString (← fetchString value "payment_coin")
  let order :=
    order.setDeliveryOptionByString (← fetchString value "delivery_option")
  let notes ← fetchString value "notes"
  let items ← readOrderItems (← value.index "items")
  return some { order with
    id := id
    date := date
    customerId := customerId
    subtotal := .finite subtotal
    discount := .finite discount
    shippingCost := .finite shippingCost
    total := .finite total
    notes := notes
    items := items }

/-! ## What is asked of a round trip -/

/-- Reading what was written gives the order back. -/
def OrderSerializer.RoundTrips (order : StatedOrder) : Prop :=
  ∃ data, serializer.serialize order = .ok data ∧
    serializer.deserialize data = .ok (some order)

/-- All four amounts are numbers. -/
@[mk_iff] structure StatedOrder.Priced (order : StatedOrder) : Prop where
  subtotal : order.subtotal.IsFinite
  discount : order.discount.IsFinite
  shippingCost : order.shippingCost.IsFinite
  total : order.total.IsFinite

instance (order : StatedOrder) : Decidable order.Priced :=
  decidable_of_iff _ (StatedOrder.priced_iff order).symm

/-- What is not written has no value, and what is not read is in the memory. -/
structure OrderSerializer.Restorable (order : StatedOrder) : Prop where
  expiration : Yields serializer.expiration
  paymentMethod : order.paymentMethod = .crypto
  uninitialized : serializer.uninitialized = .crypto
  paymentCoin : order.paymentCoin ≠ .none
  shippingOption : order.shippingOption = serializer.uninitializedShipping
  items : order.items ≠ []
  amounts : order.Priced

/-- The parser gives back the document that has been written. -/
def OrderSerializer.ReadsBack (order : StatedOrder) : Prop :=
  ∀ expiration, serializer.expiration = .ok expiration →
    serializer.env.parse (serializer.dump (orderDocument order expiration)) =
      .ok (orderDocument order expiration)

/-! ## Reading what was written -/

theorem readOrderItem_document (item : OrderItem) :
    readOrderItem (orderItemDocument item) = .ok item := by
  obtain ⟨key, quantity, sellerId⟩ := item
  change Except.ok (CartItem.mk key
    (toUnsigned (Int.bmod (quantity.toNat : Int) (2 ^ 32))) sellerId) = _
  rw [show Int.bmod (quantity.toNat : Int) (2 ^ 32) = toInt quantity.toNat
    from rfl, toUnsigned_toInt]

theorem nodup_orderFields (order : StatedOrder) (expiration : Option String) :
    ((orderFields order expiration).map Prod.fst).Nodup := by
  simp [orderFields]

/-- What is not read is as the memory has it. -/
def OrderSerializer.restoredOrder (order : StatedOrder) : StatedOrder :=
  { order with
    paymentMethod := serializer.uninitialized
    shippingOption := serializer.uninitializedShipping }

section Written

variable {order : StatedOrder} {expiration : Option String}

theorem fetchString_paymentCoin :
    fetchString (orderDocument order expiration) "payment_coin" =
      if order.paymentMethod = .crypto ∧ order.paymentCoin ≠ .none then
        .ok (getPaymentCoinAsString order.paymentCoin)
      else .error .typeError := by
  have hfind := Json.find?_ofFields (nodup_orderFields order expiration)
    "payment_coin"
  rw [fetchString, Json.index_of_isObject rfl, orderDocument, hfind]
  change Json.getString ((onlyIf _ _).getD .null) = _
  by_cases hcoin : order.paymentMethod = .crypto ∧ order.paymentCoin ≠ .none
  · rw [onlyIf, if_pos hcoin, if_pos hcoin]
    rfl
  · rw [onlyIf, if_neg hcoin, if_neg hcoin]
    rfl

theorem index_items :
    (orderDocument order expiration).index "items" =
      .ok ((onlyIf (order.items ≠ [])
        (Json.array (order.items.map orderItemDocument))).getD .null) := by
  have hfind := Json.find?_ofFields (nodup_orderFields order expiration)
    "items"
  rw [Json.index_of_isObject rfl, orderDocument, hfind]
  rfl

theorem readOrderItems_written (items : List OrderItem) :
    readOrderItems ((onlyIf (items ≠ [])
        (Json.array (items.map orderItemDocument))).getD .null) =
      if items = [] then .error .assertionFailed else .ok items := by
  by_cases hitems : items = []
  · rw [onlyIf, if_neg (not_not_intro hitems), if_pos hitems]
    rfl
  · rw [onlyIf, if_pos hitems, if_neg hitems]
    exact mapM_map_eq_ok readOrderItem_document items

theorem setByStrings_newOrder :
    (((serializer.newOrder.setStatusByString
      (getStatusAsString order.status)).setPaymentOptionByString
      (getPaymentOptionAsString order.paymentOption)).setPaymentCoinByString
      (getPaymentCoinAsString order.paymentCoin)).setDeliveryOptionByString
      (getDeliveryOptionAsString order.deliveryOption) =
    { serializer.newOrder with
      status := order.status
      paymentOption := order.paymentOption
      paymentCoin := order.paymentCoin
      deliveryOption := order.deliveryOption } := by
  simp [StatedOrder.setStatusByString, StatedOrder.setPaymentOptionByString,
    StatedOrder.setPaymentCoinByString, StatedOrder.setDeliveryOptionByString]

theorem fetchDouble_amount {fields : List (String × Option Json)}
    (hnames : (fields.map Prod.fst).Nodup) {name : String} {amount : Amount}
    (hlookup : fields.lookup name = some (some amount.member))
    (toDouble : Int → ℚ) :
    fetchDouble toDouble (.ofFields fields) name = amount.read := by
  cases amount with
  | finite value => exact fetchDouble_ofFields hnames hlookup toDouble
  | infinite | nan =>
      rw [fetchDouble, Json.index_ofFields hnames hlookup]
      rfl

/-- One amount that is no number ends the reading. -/
theorem readAmounts {α : Type} {order : StatedOrder} (horder : ¬ order.Priced)
    (next : ℚ → ℚ → ℚ → ℚ → Except Fault α) :
    (do
      let subtotal ← order.subtotal.read
      let discount ← order.discount.read
      let shippingCost ← order.shippingCost.read
      let total ← order.total.read
      next subtotal discount shippingCost total) = .error .typeError := by
  cases hsubtotal : order.subtotal with
  | infinite | nan => rfl
  | finite subtotal =>
  cases hdiscount : order.discount with
  | infinite | nan => rfl
  | finite discount =>
  cases hshipping : order.shippingCost with
  | infinite | nan => rfl
  | finite shippingCost =>
  cases htotal : order.total with
  | infinite | nan => rfl
  | finite total =>
      exact absurd ⟨⟨_, hsubtotal⟩, ⟨_, hdiscount⟩, ⟨_, hshipping⟩,
        ⟨_, htotal⟩⟩ horder

/-- An amount is missed first, then the coin, then the items. -/
theorem OrderSerializer.deserialize_written {key text : String}
    (hparse : serializer.env.parse text =
      .ok (orderDocument order expiration)) :
    serializer.deserialize (key, text) =
      if order.Priced then
        if order.paymentMethod = .crypto ∧ order.paymentCoin ≠ .none then
          if order.items = [] then .error .assertionFailed
          else .ok (some (serializer.restoredOrder order))
        else .error .typeError
      else .error .typeError := by
  have hnames := nodup_orderFields order expiration
  have hvalue : serializer.env.parseOrThrow text =
      .ok (orderDocument order expiration) := by
    rw [Externals.parseOrThrow, hparse]
  have hmetadata : (orderDocument order expiration).index "metadata" =
      .ok (.string "order") := Json.index_ofFields hnames rfl
  have hkind : fetchString (orderDocument order expiration) "metadata" =
      .ok "order" := fetchString_ofFields hnames rfl
  have hid : fetchString (orderDocument order expiration) "id" =
      .ok order.id := fetchString_ofFields hnames rfl
  have hdate : fetchString (orderDocument order expiration) "created_at" =
      .ok order.date := fetchString_ofFields hnames rfl
  have hstatus : fetchString (orderDocument order expiration) "status" =
      .ok (getStatusAsString order.status) := fetchString_ofFields hnames rfl
  have hcustomer : fetchString (orderDocument order expiration)
      "customer_id" = .ok order.customerId := fetchString_ofFields hnames rfl
  have hsubtotal : fetchDouble serializer.toDouble
      (orderDocument order expiration) "subtotal" = order.subtotal.read :=
    fetchDouble_amount hnames rfl _
  have hdiscount : fetchDouble serializer.toDouble
      (orderDocument order expiration) "discount" = order.discount.read :=
    fetchDouble_amount hnames rfl _
  have hshipping : fetchDouble serializer.toDouble
      (orderDocument order expiration) "shipping_cost" =
        order.shippingCost.read := fetchDouble_amount hnames rfl _
  have htotal : fetchDouble serializer.toDouble
      (orderDocument order expiration) "total" = order.total.read :=
    fetchDouble_amount hnames rfl _
  have hoption : fetchString (orderDocument order expiration)
      "payment_option" = .ok (getPaymentOptionAsString order.paymentOption) :=
    fetchString_ofFields hnames rfl
  have hdelivery : fetchString (orderDocument order expiration)
      "delivery_option" =
        .ok (getDeliveryOptionAsString order.deliveryOption) :=
    fetchString_ofFields hnames rfl
  have hnotes : fetchString (orderDocument order expiration) "notes" =
      .ok order.notes := fetchString_ofFields hnames rfl
  rw [OrderSerializer.deserialize, hvalue]
  change (do
    assertThat (← (orderDocument order expiration).index "metadata").isString
    _) = _
  rw [hmetadata, hkind]
  change (do
    let id ← fetchString (orderDocument order expiration) "id"
    _) = _
  rw [hid, hdate, hstatus, hcustomer, hsubtotal, hdiscount, hshipping, htotal,
    hoption, fetchString_paymentCoin, hdelivery, hnotes, index_items]
  by_cases hpriced : order.Priced
  swap
  · rw [if_neg hpriced]
    exact readAmounts hpriced _
  rw [if_pos hpriced]
  obtain ⟨⟨subtotal, hsubtotal⟩, ⟨discount, hdiscount⟩,
    ⟨shippingCost, hshipping⟩, ⟨total, htotal⟩⟩ := hpriced
  rw [hsubtotal, hdiscount, hshipping, htotal]
  by_cases hcoin : order.paymentMethod = .crypto ∧ order.paymentCoin ≠ .none
  · rw [if_pos hcoin, if_pos hcoin]
    change (do
      let items ← readOrderItems _
      _) = _
    rw [readOrderItems_written, setByStrings_newOrder,
      OrderSerializer.restoredOrder]
    by_cases hitems : order.items = []
    · rw [if_pos hitems, if_pos hitems]
      rfl
    · rw [if_neg hitems, if_neg hitems, hsubtotal, hdiscount, hshipping, htotal]
      rfl
  · rw [if_neg hcoin, if_neg hcoin]
    rfl

end Written

/-! ## The round trip -/

theorem OrderSerializer.restoredOrder_eq {order : StatedOrder} :
    serializer.restoredOrder order = order ↔
      serializer.uninitialized = order.paymentMethod ∧
        serializer.uninitializedShipping = order.shippingOption := by
  constructor
  · intro h
    exact ⟨congrArg StatedOrder.paymentMethod h,
      congrArg StatedOrder.shippingOption h⟩
  · rintro ⟨hmethod, hshipping⟩
    rw [OrderSerializer.restoredOrder, hmethod, hshipping]

theorem OrderSerializer.serialize_eq {order : StatedOrder}
    {expiration : Option String}
    (hexpiration : serializer.expiration = .ok expiration) :
    serializer.serialize order =
      .ok (serializer.sha3256
          (serializer.dump (orderDocument order expiration)),
        serializer.dump (orderDocument order expiration)) := by
  rw [OrderSerializer.serialize, hexpiration]
  rfl

theorem OrderSerializer.order_roundTrips_iff {order : StatedOrder}
    (hparse : serializer.ReadsBack order) :
    serializer.RoundTrips order ↔ serializer.Restorable order := by
  constructor
  · rintro ⟨data, hdata, hrestored⟩
    obtain ⟨expiration, hexpiration, -⟩ := bind_eq_ok.mp hdata
    rw [serializer.serialize_eq hexpiration] at hdata
    obtain rfl := Except.ok.inj hdata
    rw [serializer.deserialize_written (hparse expiration hexpiration)]
      at hrestored
    split at hrestored
    case isFalse hpriced => cases hrestored
    case isTrue hpriced =>
    split at hrestored
    case isFalse hcoin => cases hrestored
    case isTrue hcoin =>
      split at hrestored
      case isTrue hitems => cases hrestored
      case isFalse hitems =>
        obtain ⟨hmethod, hshipping⟩ := serializer.restoredOrder_eq.mp
          (Option.some.inj (Except.ok.inj hrestored))
        exact {
          expiration := ⟨expiration, hexpiration⟩
          paymentMethod := hcoin.1
          uninitialized := hmethod.trans hcoin.1
          paymentCoin := hcoin.2
          shippingOption := hshipping.symm
          items := hitems
          amounts := hpriced }
  · intro h
    obtain ⟨expiration, hexpiration⟩ := h.expiration
    have hrestored : serializer.restoredOrder order = order :=
      serializer.restoredOrder_eq.mpr
        ⟨h.uninitialized.trans h.paymentMethod.symm, h.shippingOption.symm⟩
    refine ⟨_, serializer.serialize_eq hexpiration, ?_⟩
    rw [serializer.deserialize_written (hparse expiration hexpiration),
      if_pos h.amounts, if_pos ⟨h.paymentMethod, h.paymentCoin⟩, if_neg h.items,
      hrestored]

def atlasOrder (paymentMethod : PaymentMethod) (paymentCoin : PaymentCoin) :
    StatedOrder where
  id := "5a"
  date := "2024-01-01T00:00:00Z"
  customerId := "7c"
  subtotal := .finite (5 / 2)
  discount := .finite 0
  shippingCost := .finite 0
  total := .finite (5 / 2)
  notes := ""
  items := [⟨"1f", 1, "9e"⟩]
  status := .new
  paymentMethod := paymentMethod
  paymentOption := .escrow
  paymentCoin := paymentCoin
  deliveryOption := .pickup
  shippingOption := .standard

def atlasOrderText (payment : String) : String :=
  "\x7b\"created_at\":\"2024-01-01T00:00:00Z\",\"customer_id\":\"7c\"," ++
    "\"delivery_option\":\"Pickup\",\"discount\":0.0," ++
    "\"expiration_date\":\"2026-01-01T00:00:00Z\",\"id\":\"5a\"," ++
    "\"items\":[\x7b\"listing_key\":\"1f\",\"quantity\":1," ++
    "\"seller_id\":\"9e\"\x7d],\"metadata\":\"order\",\"notes\":\"\"," ++
    payment ++ "\"payment_option\":\"Escrow\",\"shipping_cost\":0.0," ++
    "\"status\":\"New\",\"subtotal\":2.5,\"total\":2.5\x7d"

/-- The key is that of the text. -/
def atlasSerializer (order : StatedOrder) (text key : String) :
    OrderSerializer where
  env := .ofDocuments
    [(text, orderDocument order (some "2026-01-01T00:00:00Z"))]
  dump _ := text
  sha3256 _ := key
  toDouble number := number
  expiration := .ok (some "2026-01-01T00:00:00Z")
  uninitialized := .crypto
  uninitializedShipping := .standard

theorem atlasSerializer_readsBack (order : StatedOrder) (text key : String) :
    (atlasSerializer order text key).ReadsBack order := by
  intro expiration hexpiration
  obtain rfl : some "2026-01-01T00:00:00Z" = expiration :=
    Except.ok.inj hexpiration
  simp only [atlasSerializer, Externals.ofDocuments, parseListed, List.lookup_cons_self]

def coinSerializer : OrderSerializer :=
  atlasSerializer (atlasOrder .crypto .xmr)
    (atlasOrderText "\"payment_coin\":\"XMR\",\"payment_method\":\"Crypto\",")
    "362b64893b1e85600d3f0710fbc3a078aad3a533aa4fe96e2e8e42347d0f4cc9"

def cashSerializer : OrderSerializer :=
  atlasSerializer (atlasOrder .cash .none)
    (atlasOrderText "\"payment_method\":\"Cash\",")
    "680a130a1e63c0427e2bbf79705c84c01331577e491f2c8cd66fb0ee89dbf901"

theorem OrderSerializer.roundTrips_atlas :
    coinSerializer.RoundTrips (atlasOrder .crypto .xmr) :=
  (coinSerializer.order_roundTrips_iff
    (atlasSerializer_readsBack _ _ _)).mpr {
      expiration := ⟨_, rfl⟩
      paymentMethod := rfl
      uninitialized := rfl
      paymentCoin := by decide
      shippingOption := rfl
      items := List.cons_ne_nil _ _
      amounts := ⟨⟨_, rfl⟩, ⟨_, rfl⟩, ⟨_, rfl⟩, ⟨_, rfl⟩⟩ }

/-- No coin is written for a payment in cash, and it is read all the same. -/
theorem OrderSerializer.cash_order_lost :
    cashSerializer.ReadsBack (atlasOrder .cash .none) ∧
      ¬ cashSerializer.RoundTrips (atlasOrder .cash .none) := by
  have hreadsBack : cashSerializer.ReadsBack (atlasOrder .cash .none) :=
    atlasSerializer_readsBack _ _ _
  refine ⟨hreadsBack, ?_⟩
  rintro ⟨data, hdata, hrestored⟩
  rw [cashSerializer.serialize_eq rfl] at hdata
  obtain rfl := Except.ok.inj hdata
  rw [cashSerializer.deserialize_written (hreadsBack _ rfl)] at hrestored
  cases hrestored

end Neroshop.Market
