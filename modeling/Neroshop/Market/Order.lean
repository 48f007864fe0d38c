import Neroshop.Market.Cart

/-!
# Placing orders

`create_order` checks the items of a cart and puts one order, or hands over to
`create_order_batch` when it comes to an item of a second seller.  Both do all
their checks first, then put, and empty the cart behind the last put.
-/

namespace Neroshop.Market

open Neroshop.Foundation Neroshop.Node Neroshop.Rpc

/-- It has the fields of an item of a cart. -/
abbrev OrderItem := CartItem

/-- The status and the options are the same for every order that is created. -/
structure Order where
  id : String
  date : String
  customerId : String
  subtotal : ℚ
  discount : ℚ
  shippingCost : ℚ
  total : ℚ
  notes : String
  items : List OrderItem

structure PutReply where
  accepted : Bool
  /-- The reply can be parsed, be it an error. -/
  readable : Bool

/-- What an order depends on outside the cart. -/
structure Shop where
  env : Externals
  toDouble : Int → ℚ
  /-- The lookups of the loop of `create_order`, by their number. -/
  lookup : Nat → String → Lookup
  lookupBatch : Nat → String → Lookup
  /-- By its number: the prices are asked for anew each time. -/
  convertToXmr : Nat → ℚ → String → Except Fault ℚ
  /-- The id and the date of an order, by its number. -/
  stamp : Nat → String × String
  /-- `set_expiration`, which reads the settings for every order. -/
  setExpiration : Nat → Except Fault Unit
  put : Nat → PutReply
  /-- The details behind the items, from the settings and the prices. -/
  displayDetails : Except Fault Unit
  /-- The order in which `orders_by_seller` goes through the sellers. -/
  sellers : List String → List String
  sellers_perm : ∀ ids, (sellers ids).Perm ids.dedup

namespace Shop

/-! ## The checks of a single order -/

structure Tally where
  orderItems : List OrderItem
  subtotal : ℚ
  currency : String
  firstSellerId : String
  /-- The first entry of a key counts. -/
  listingCache : List (String × Json)

def Tally.start : Tally := ⟨[], 0, "USD", "", []⟩

/-- `first_seller_id`, which the first item sets to its seller. -/
def Tally.first (tally : Tally) (sellerId : String) : String :=
  if tally.firstSellerId = "" then sellerId else tally.firstSellerId

inductive Verdict where
  | refused
  | batch
  | passed (tally : Tally)

/-- `listing_obj["product"]["name"]`. -/
def productName (listing : Json) : Except Fault String := do
  fetchString (← listing.index "product") "name"

variable (shop : Shop)

def checkItem (ownerId : String) (lookup : Lookup) (tally : Tally)
    (item : CartItem) : Except Fault Verdict := do
  let listing ← getListingObject shop.env lookup
  if listing.contains "metadata" then
    let metadata ← fetchString listing "metadata"
    if metadata ≠ "listing" then return .refused
    let _ ← productName listing
    if item.sellerId = "" then return .refused
    if ownerId = item.sellerId then return .refused
    if item.sellerId ≠ tally.first item.sellerId then return .batch
    let currency ← fetchString listing "currency"
    let salesPrice ← fetchDouble shop.toDouble listing "price"
    let quantity ← fetchInt listing "quantity"
    if toUnsigned quantity < item.quantity then return .refused
    if quantity ≤ 0 then return .refused
    return .passed ⟨tally.orderItems ++ [item],
      tally.subtotal + item.quantity.toNat * salesPrice, currency,
      tally.first item.sellerId, tally.listingCache ++ [(item.key, listing)]⟩
  else return .passed tally

def checkItems (ownerId : String) :
    (Nat → String → Lookup) → Tally → List CartItem → Except Fault Verdict
  | _, tally, [] => return .passed tally
  | lookup, tally, item :: items => do
      match ← checkItem shop ownerId (lookup 0 item.key) tally item with
      | .passed tally =>
          checkItems ownerId (fun number => lookup (number + 1)) tally items
      | verdict => return verdict

/-- The part of either function that makes an order of what was counted, with
four conversions for each order. -/
def construct (cart : Cart) (shippingAddress : String) (number : Nat)
    (tally : Tally) : Except Fault Order := do
  let first := 4 * number
  let subtotalMonero ← shop.convertToXmr first tally.subtotal tally.currency
  let discountMonero ← shop.convertToXmr (first + 1) 0 tally.currency
  let shippingCostMonero ← shop.convertToXmr (first + 2) 0 tally.currency
  let totalMonero ←
    shop.convertToXmr (first + 3) (tally.subtotal - 0 + 0) tally.currency
  return ⟨(shop.stamp number).1, (shop.stamp number).2, cart.ownerId,
    subtotalMonero, discountMonero, shippingCostMonero, totalMonero,
    shippingAddress, tally.orderItems⟩

/-! ## The checks of a batch -/

/-- The quantity is an `int` here. -/
def checkBatchItem (lookup : Lookup) (tally : Tally) (sellerId listingKey : String)
    (listingQty : Int) : Except Fault (Option Tally) := do
  let listing ← getListingObject shop.env lookup
  if ¬ listing.contains "metadata" then return none
  let metadata ← fetchString listing "metadata"
  if metadata ≠ "listing" then return none
  let _ ← productName listing
  let currency ← fetchString listing "currency"
  let salesPrice ← fetchDouble shop.toDouble listing "price"
  let quantity ← fetchInt listing "quantity"
  if quantity < listingQty then return none
  if quantity ≤ 0 then return none
  return some ⟨tally.orderItems ++
      [⟨listingKey, toUnsigned listingQty, sellerId⟩],
    tally.subtotal + listingQty * salesPrice, currency, tally.firstSellerId,
    tally.listingCache ++ [(listingKey, listing)]⟩

def checkBatchItems (sellerId : String) :
    (Nat → String → Lookup) → Tally → List CartItem →
      Except Fault (Option Tally)
  | _, tally, [] => return some tally
  | lookup, tally, item :: items => do
      match ← checkBatchItem shop (lookup 0 item.key) tally sellerId item.key
          (toInt item.quantity.toNat) with
      | none => return none
      | some tally =>
          checkBatchItems sellerId (fun number => lookup (number + 1)) tally
            items

def itemsOf (cart : Cart) (sellerId : String) : List CartItem :=
  cart.contents.filter (·.sellerId = sellerId)

/-- The orders of the sellers from this one on, and what they add to the cache. -/
def batchOrders (cart : Cart) (shippingAddress : String) :
    (Nat → String → Lookup) → Nat → List String →
      Except Fault (Option (List Order × List (String × Json)))
  | _, _, [] => return some ([], [])
  | lookup, number, sellerId :: sellerIds => do
      let items := itemsOf cart sellerId
      match ← checkBatchItems shop sellerId lookup .start items with
      | none => return none
      | some tally =>
          let order ← construct shop cart shippingAddress number tally
          match ← batchOrders cart shippingAddress
              (fun n => lookup (n + items.length)) (number + 1) sellerIds with
          | none => return none
          | some (orders, listingCache) =>
              return some (order :: orders, tally.listingCache ++ listingCache)

/-! ## Putting -/

structure Placement where
  cart : Cart
  /-- The orders that were put, with what the daemon did. -/
  puts : List (Order × Bool)
  ending : Except Fault Unit

def stay (cart : Cart) (ending : Except Fault Unit) : Placement :=
  ⟨cart, [], ending⟩

/-- `listing_cache.at` of every item, and its name. -/
def displayItems (listingCache : List (String × Json)) :
    List CartItem → Except Fault Unit
  | [] => return ()
  | item :: items => do
      match listingCache.lookup item.key with
      | none => .error .outOfBounds
      | some listing =>
          let _ ← productName listing
          displayItems listingCache items

/-- The puts, with what is displayed behind each of them. -/
def placeOrders (display : Except Fault Unit) :
    Nat → Placement → List Order → Placement
  | _, placement, [] =>
      { placement with cart := placement.cart.empty, ending := return () }
  | number, placement, order :: orders =>
      match shop.setExpiration number with
      | .error fault => { placement with ending := .error fault }
      | .ok () =>
          let reply := shop.put number
          let placement := { placement with
            puts := placement.puts ++ [(order, reply.accepted)] }
          if ¬ reply.readable then placement
          else
            match display with
            | .error fault => { placement with ending := .error fault }
            | .ok () => placeOrders display (number + 1) placement orders

def createOrderBatch (cart : Cart) (shippingAddress : String) : Placement :=
  if cart.contents = [] then stay cart (return ())
  else
    let sellerIds := shop.sellers (cart.contents.map CartItem.sellerId)
    match batchOrders shop cart shippingAddress shop.lookupBatch 0 sellerIds with
    | .error fault => stay cart (.error fault)
    | .ok none => stay cart (return ())
    | .ok (some (orders, listingCache)) =>
        placeOrders shop (displayItems listingCache cart.contents) 0
          (stay cart (return ())) orders

def createOrder (cart : Cart) (shippingAddress : String) : Placement :=
  if cart.contents = [] then stay cart (return ())
  else
    match checkItems shop cart.ownerId shop.lookup .start cart.contents with
    | .error fault => stay cart (.error fault)
    | .ok .refused => stay cart (return ())
    | .ok .batch => createOrderBatch shop cart shippingAddress
    | .ok (.passed tally) =>
        match construct shop cart shippingAddress 0 tally with
        | .error fault => stay cart (.error fault)
        | .ok order =>
            let display := do
              displayItems tally.listingCache cart.contents
              shop.displayDetails
            placeOrders shop display 0 (stay cart (return ())) [order]

/-! ## What is asked of an order -/

def Placement.acceptedOrders (placement : Placement) : List Order :=
  (placement.puts.filter Prod.snd).map Prod.fst

/-- Every item of the cart is in one order, and every order is of one seller. -/
structure EachOrdered (cart : Cart) (orders : List Order) : Prop where
  items : (orders.flatMap Order.items).Perm cart.contents
  seller : ∀ order ∈ orders, ∃ sellerId, ∀ item ∈ order.items,
    item.sellerId = sellerId

/-- All is ordered and the cart is empty, or nothing has happened. -/
def AllOrNothing (cart : Cart) (placement : Placement) : Prop :=
  EachOrdered cart placement.acceptedOrders ∧ placement.cart.contents = [] ∨
    placement.puts = [] ∧ placement.cart = cart

def Found (lookup : Lookup) : Prop :=
  ∃ listing, getListingObject shop.env lookup = .ok listing ∧
    listing.contains "metadata" = true

def AllFound (lookup : Nat → String → Lookup) (items : List CartItem) : Prop :=
  ∀ number item, items[number]? = some item →
    Found shop (lookup number item.key)

structure Confirmed (number : Nat) : Prop where
  expires : Yields (shop.setExpiration number)
  accepted : (shop.put number).accepted = true
  readable : (shop.put number).readable = true

/-- What comes behind the checks of a batch goes well, or ends in front of a put. -/
def SureBatch (cart : Cart) (shippingAddress : String) : Prop :=
  let sellerIds := shop.sellers (cart.contents.map CartItem.sellerId)
  ∀ found, batchOrders shop cart shippingAddress shop.lookupBatch 0 sellerIds =
      .ok (some found) →
    Yields (shop.setExpiration 0) →
    (∀ number < sellerIds.length, Confirmed shop number) ∧ cart.id ≠ ""

/-- The same, of `create_order`. -/
def Sure (cart : Cart) (shippingAddress : String) : Prop :=
  match checkItems shop cart.ownerId shop.lookup .start cart.contents with
  | .ok .batch => SureBatch shop cart shippingAddress
  | .ok (.passed tally) =>
      Yields (construct shop cart shippingAddress 0 tally) →
      Yields (shop.setExpiration 0) →
      Confirmed shop 0 ∧ AllFound shop shop.lookup cart.contents ∧
        Yields shop.displayDetails ∧ cart.id ≠ ""
  | _ => True

/-! ## What the checks let through -/

/-- The fields of a listing that both functions read. -/
structure Offer (lookup : Lookup) (listing : Json) (currency : String)
    (salesPrice : ℚ) (quantity : Int) : Prop where
  found : getListingObject shop.env lookup = .ok listing
  metadata : listing.contains "metadata" = true
  named : Yields (productName listing)
  currency : fetchString listing "currency" = .ok currency
  priced : fetchDouble shop.toDouble listing "price" = .ok salesPrice
  stocked : fetchInt listing "quantity" = .ok quantity

variable {shop}

theorem fetch_metadata {lookup : Lookup} {listing : Json}
    (h : getListingObject shop.env lookup = .ok listing)
    (hmetadata : listing.contains "metadata" = true) :
    fetchString listing "metadata" = .ok "listing" := by
  rcases getListingObject_ok h with rfl | hlisting
  · cases hmetadata
  · exact (fetchString_eq_ok (Json.isObject_of_contains hmetadata)).mpr hlisting

theorem checkBatchItem_eq_some {lookup : Lookup} {tally next : Tally}
    {sellerId listingKey : String} {listingQty : Int} :
    checkBatchItem shop lookup tally sellerId listingKey listingQty =
        .ok (some next) ↔
      ∃ listing currency salesPrice quantity,
        Offer shop lookup listing currency salesPrice quantity ∧
        listingQty ≤ quantity ∧ 0 < quantity ∧
        next = ⟨tally.orderItems ++
            [⟨listingKey, toUnsigned listingQty, sellerId⟩],
          tally.subtotal + listingQty * salesPrice, currency,
          tally.firstSellerId,
          tally.listingCache ++ [(listingKey, listing)]⟩ := by
  constructor
  · intro h
    obtain ⟨listing, hfound, h⟩ := bind_eq_ok.mp h
    cases hmetadata : listing.contains "metadata" with
    | false =>
        rw [hmetadata, if_pos Bool.false_ne_true] at h
        cases h
    | true =>
        rw [hmetadata, if_neg (not_not_intro rfl),
          fetch_metadata hfound hmetadata] at h
        obtain ⟨metadata, ⟨⟩, h⟩ := bind_eq_ok.mp h
        rw [if_neg (not_not_intro rfl)] at h
        obtain ⟨name, hname, h⟩ := bind_eq_ok.mp h
        obtain ⟨currency, hcurrency, h⟩ := bind_eq_ok.mp h
        obtain ⟨salesPrice, hprice, h⟩ := bind_eq_ok.mp h
        obtain ⟨quantity, hquantity, h⟩ := bind_eq_ok.mp h
        by_cases hshort : quantity < listingQty
        · rw [if_pos hshort] at h
          cases h
        rw [if_neg hshort] at h
        by_cases hout : quantity ≤ 0
        · rw [if_pos hout] at h
          cases h
        rw [if_neg hout] at h
        cases h
        exact ⟨listing, currency, salesPrice, quantity,
          ⟨hfound, hmetadata, ⟨name, hname⟩, hcurrency, hprice, hquantity⟩,
          Int.not_lt.mp hshort, Int.not_le.mp hout, rfl⟩
  · rintro ⟨listing, currency, salesPrice, quantity, hoffer, hle, hpos, rfl⟩
    obtain ⟨name, hname⟩ := hoffer.named
    refine bind_eq_ok.mpr ⟨listing, hoffer.found, ?_⟩
    rw [if_neg (not_not_intro hoffer.metadata)]
    refine bind_eq_ok.mpr
      ⟨_, fetch_metadata hoffer.found hoffer.metadata, ?_⟩
    rw [if_neg (not_not_intro rfl)]
    refine bind_eq_ok.mpr ⟨name, hname, bind_eq_ok.mpr
      ⟨currency, hoffer.currency, bind_eq_ok.mpr
        ⟨salesPrice, hoffer.priced, bind_eq_ok.mpr
          ⟨quantity, hoffer.stocked, ?_⟩⟩⟩⟩
    rw [if_neg (Int.not_lt.mpr hle), if_neg (Int.not_le.mpr hpos)]
    rfl

/-- What `create_order` asks of an item whose listing it finds. -/
structure Passes (ownerId : String) (item : CartItem) (quantity : Int) :
    Prop where
  seller : item.sellerId ≠ ""
  other : ownerId ≠ item.sellerId
  stock : item.quantity ≤ toUnsigned quantity
  inStock : 0 < quantity

theorem checkItem_eq_passed {ownerId : String} {lookup : Lookup}
    {tally next : Tally} {item : CartItem} :
    checkItem shop ownerId lookup tally item = .ok (.passed next) ↔
      (∃ listing, getListingObject shop.env lookup = .ok listing ∧
        listing.contains "metadata" = false ∧ next = tally) ∨
      ∃ listing currency salesPrice quantity,
        Offer shop lookup listing currency salesPrice quantity ∧
        Passes ownerId item quantity ∧
        item.sellerId = tally.first item.sellerId ∧
        next = ⟨tally.orderItems ++ [item],
          tally.subtotal + item.quantity.toNat * salesPrice, currency,
          tally.first item.sellerId,
          tally.listingCache ++ [(item.key, listing)]⟩ := by
  constructor
  · intro h
    obtain ⟨listing, hfound, h⟩ := bind_eq_ok.mp h
    cases hmetadata : listing.contains "metadata" with
    | false =>
        rw [hmetadata, if_neg Bool.false_ne_true] at h
        cases h
        exact .inl ⟨listing, hfound, hmetadata, rfl⟩
    | true =>
        rw [hmetadata, if_pos rfl, fetch_metadata hfound hmetadata] at h
        obtain ⟨metadata, ⟨⟩, h⟩ := bind_eq_ok.mp h
        rw [if_neg (not_not_intro rfl)] at h
        obtain ⟨name, hname, h⟩ := bind_eq_ok.mp h
        by_cases hnone : item.sellerId = ""
        · rw [if_pos hnone] at h
          cases h
        by_cases hown : ownerId = item.sellerId
        · rw [if_neg hnone, if_pos hown] at h
          cases h
        by_cases hfirst : item.sellerId = tally.first item.sellerId
        · rw [if_neg hnone, if_neg hown, if_neg (not_not_intro hfirst)] at h
          obtain ⟨currency, hcurrency, h⟩ := bind_eq_ok.mp h
          obtain ⟨salesPrice, hprice, h⟩ := bind_eq_ok.mp h
          obtain ⟨quantity, hquantity, h⟩ := bind_eq_ok.mp h
          by_cases hshort : toUnsigned quantity < item.quantity
          · rw [if_pos hshort] at h
            cases h
          by_cases hout : quantity ≤ 0
          · rw [if_neg hshort, if_pos hout] at h
            cases h
          rw [if_neg hshort, if_neg hout] at h
          cases h
          exact .inr ⟨listing, currency, salesPrice, quantity,
            ⟨hfound, hmetadata, ⟨name, hname⟩, hcurrency, hprice, hquantity⟩,
            ⟨hnone, hown, UInt32.not_lt.mp hshort, Int.not_le.mp hout⟩,
            hfirst, rfl⟩
        · rw [if_neg hnone, if_neg hown, if_pos hfirst] at h
          cases h
  · rintro (⟨listing, hfound, hmetadata, rfl⟩ |
      ⟨listing, currency, salesPrice, quantity, hoffer, hpasses, hfirst, rfl⟩)
    · refine bind_eq_ok.mpr ⟨listing, hfound, ?_⟩
      rw [hmetadata, if_neg Bool.false_ne_true]
      rfl
    · obtain ⟨name, hname⟩ := hoffer.named
      refine bind_eq_ok.mpr ⟨listing, hoffer.found, ?_⟩
      rw [if_pos hoffer.metadata]
      refine bind_eq_ok.mpr
        ⟨_, fetch_metadata hoffer.found hoffer.metadata, ?_⟩
      rw [if_neg (not_not_intro rfl)]
      refine bind_eq_ok.mpr ⟨name, hname, ?_⟩
      rw [if_neg hpasses.seller, if_neg hpasses.other,
        if_neg (not_not_intro hfirst)]
      refine bind_eq_ok.mpr ⟨currency, hoffer.currency, bind_eq_ok.mpr
        ⟨salesPrice, hoffer.priced, bind_eq_ok.mpr
          ⟨quantity, hoffer.stocked, ?_⟩⟩⟩
      rw [if_neg (UInt32.not_lt.mpr hpasses.stock),
        if_neg (Int.not_le.mpr hpasses.inStock)]
      rfl

/-- The cache has a listing with a name for every item that was counted. -/
structure Cached (listingCache : List (String × Json))
    (items : List OrderItem) : Prop where
  named : ∀ entry ∈ listingCache, Yields (productName entry.2)
  keys : ∀ item ∈ items, item.key ∈ listingCache.map Prod.fst

theorem Cached.nil : Cached [] [] :=
  ⟨fun _ h => (nomatch h), fun _ h => (nomatch h)⟩

theorem Cached.append {cache more : List (String × Json)}
    {items others : List OrderItem} (h : Cached cache items)
    (hmore : Cached more others) : Cached (cache ++ more) (items ++ others) := by
  refine ⟨fun entry hentry => ?_, fun item hitem => ?_⟩
  · rcases List.mem_append.mp hentry with hmem | hmem
    · exact h.named entry hmem
    · exact hmore.named entry hmem
  · rw [List.map_append, List.mem_append]
    rcases List.mem_append.mp hitem with hmem | hmem
    · exact .inl (h.keys item hmem)
    · exact .inr (hmore.keys item hmem)

theorem Cached.singleton {item : OrderItem} {listing : Json}
    (h : Yields (productName listing)) :
    Cached [(item.key, listing)] [item] :=
  ⟨fun _ hentry => List.mem_singleton.mp hentry ▸ h,
    fun _ hitem => by simp [List.mem_singleton.mp hitem]⟩

theorem displayItems_ok {listingCache : List (String × Json)}
    {items : List CartItem} (h : Cached listingCache items) :
    displayItems listingCache items = .ok () := by
  induction items with
  | nil => rfl
  | cons item items ih =>
      have hrest := ih ⟨h.named, fun other hother =>
        h.keys other (List.mem_cons_of_mem _ hother)⟩
      rw [displayItems]
      cases hlookup : listingCache.lookup item.key with
      | none =>
          have hkey := h.keys item (List.mem_cons_self ..)
          obtain ⟨entry, hentry, hsame⟩ := List.mem_map.mp hkey
          have hnone := List.lookup_eq_none_iff.mp hlookup entry hentry
          simp [hsame] at hnone
      | some listing =>
          obtain ⟨front, back, heq, -⟩ :=
            List.lookup_eq_some_iff.mp hlookup
          have hmem : (item.key, listing) ∈ listingCache := by
            rw [heq]
            simp
          obtain ⟨name, hname⟩ := h.named _ hmem
          exact bind_eq_ok.mpr ⟨name, hname, hrest⟩

theorem construct_items {cart : Cart} {shippingAddress : String}
    {number : Nat} {tally : Tally} {order : Order}
    (h : construct shop cart shippingAddress number tally = .ok order) :
    order.items = tally.orderItems := by
  obtain ⟨_, -, h⟩ := bind_eq_ok.mp h
  obtain ⟨_, -, h⟩ := bind_eq_ok.mp h
  obtain ⟨_, -, h⟩ := bind_eq_ok.mp h
  obtain ⟨_, -, h⟩ := bind_eq_ok.mp h
  cases h
  rfl

theorem checkBatchItems_eq_some {sellerId : String}
    {lookup : Nat → String → Lookup} {tally next : Tally}
    {items : List CartItem} (hseller : ∀ item ∈ items, item.sellerId = sellerId)
    (hcached : Cached tally.listingCache tally.orderItems)
    (h : checkBatchItems shop sellerId lookup tally items = .ok (some next)) :
    next.orderItems = tally.orderItems ++ items ∧
      Cached next.listingCache next.orderItems := by
  induction items generalizing lookup tally with
  | nil =>
      cases h
      exact ⟨(List.append_nil _).symm, hcached⟩
  | cons item items ih =>
      obtain rfl := hseller item (List.mem_cons_self ..)
      rw [checkBatchItems] at h
      obtain ⟨checked, hchecked, h⟩ := bind_eq_ok.mp h
      cases checked with
      | none => cases h
      | some counted =>
          obtain ⟨listing, _, _, _, hoffer, -, -, rfl⟩ :=
            checkBatchItem_eq_some.mp hchecked
          rw [toUnsigned_toInt] at h
          have hone : Cached [(item.key, listing)] [item] :=
            Cached.singleton hoffer.named
          obtain ⟨hitems, hcache⟩ := ih
            (fun other hother => hseller other (List.mem_cons_of_mem _ hother))
            (hcached.append hone) h
          exact ⟨hitems.trans (List.append_assoc ..), hcache⟩

theorem itemsOf_seller {cart : Cart} {sellerId : String} :
    ∀ item ∈ itemsOf cart sellerId, item.sellerId = sellerId := by
  intro item hitem
  simpa using (List.mem_filter.mp hitem).2

/-- What has come back when the orders of a batch do. -/
theorem batchOrders_cons {cart : Cart} {shippingAddress : String}
    {lookup : Nat → String → Lookup} {number : Nat} {sellerId : String}
    {sellerIds : List String} {found : List Order × List (String × Json)}
    (h : batchOrders shop cart shippingAddress lookup number
      (sellerId :: sellerIds) = .ok (some found)) :
    ∃ tally order rest,
      checkBatchItems shop sellerId lookup .start (itemsOf cart sellerId) =
        .ok (some tally) ∧
      construct shop cart shippingAddress number tally = .ok order ∧
      batchOrders shop cart shippingAddress
        (fun n => lookup (n + (itemsOf cart sellerId).length)) (number + 1)
        sellerIds = .ok (some rest) ∧
      found = (order :: rest.1, tally.listingCache ++ rest.2) := by
  rw [batchOrders] at h
  obtain ⟨checked, hchecked, h⟩ := bind_eq_ok.mp h
  cases checked with
  | none => cases h
  | some tally =>
      obtain ⟨order, horder, h⟩ := bind_eq_ok.mp h
      obtain ⟨rest, hrest, h⟩ := bind_eq_ok.mp h
      cases rest with
      | none => cases h
      | some rest =>
          cases h
          exact ⟨tally, order, rest, hchecked, horder, hrest, rfl⟩

theorem batchOrders_eq_some {cart : Cart} {shippingAddress : String}
    {lookup : Nat → String → Lookup} {number : Nat} {sellerIds : List String}
    {orders : List Order} {listingCache : List (String × Json)}
    (h : batchOrders shop cart shippingAddress lookup number sellerIds =
      .ok (some (orders, listingCache))) :
    orders.map Order.items = sellerIds.map (itemsOf cart) ∧
      Cached listingCache (sellerIds.flatMap (itemsOf cart)) := by
  induction sellerIds generalizing lookup number orders listingCache with
  | nil =>
      cases h
      exact ⟨rfl, Cached.nil⟩
  | cons sellerId sellerIds ih =>
      obtain ⟨tally, order, rest, hchecked, horder, hrest, hfound⟩ :=
        batchOrders_cons h
      cases hfound
      obtain ⟨hitems, hcached⟩ :=
        checkBatchItems_eq_some itemsOf_seller Cached.nil hchecked
      obtain ⟨hothers, hcache⟩ := ih hrest
      have hsame : tally.orderItems = itemsOf cart sellerId := hitems
      rw [List.map_cons, List.map_cons, hothers,
        construct_items horder, hsame, List.flatMap_cons]
      exact ⟨rfl, (hsame ▸ hcached).append hcache⟩

theorem allFound_cons {lookup : Nat → String → Lookup} {item : CartItem}
    {items : List CartItem} : AllFound shop lookup (item :: items) ↔
      Found shop (lookup 0 item.key) ∧
        AllFound shop (fun number => lookup (number + 1)) items := by
  constructor
  · exact fun h => ⟨h 0 item rfl, fun number other hother =>
      h (number + 1) other (by simpa using hother)⟩
  · rintro ⟨hfirst, hrest⟩ number other hother
    cases number with
    | zero =>
        cases hother
        exact hfirst
    | succ number => exact hrest number other (by simpa using hother)

/-- What was counted is of one seller, and cached. -/
structure Tally.Consistent (tally : Tally) : Prop where
  seller : ∀ item ∈ tally.orderItems,
    item.sellerId = tally.firstSellerId ∧ tally.firstSellerId ≠ ""
  cached : Cached tally.listingCache tally.orderItems

theorem Tally.Consistent.start : Tally.start.Consistent :=
  ⟨fun _ h => (nomatch h), Cached.nil⟩

theorem Tally.Consistent.count {tally : Tally} (h : tally.Consistent)
    {ownerId currency : String} {subtotal : ℚ} {quantity : Int}
    {listing : Json} {item : CartItem}
    (hnamed : Yields (productName listing))
    (hpasses : Passes ownerId item quantity)
    (hfirst : item.sellerId = tally.first item.sellerId) :
    Tally.Consistent ⟨tally.orderItems ++ [item], subtotal, currency,
      tally.first item.sellerId,
      tally.listingCache ++ [(item.key, listing)]⟩ := by
  refine ⟨fun other hother => ?_, h.cached.append (Cached.singleton hnamed)⟩
  refine ⟨?_, hfirst ▸ hpasses.seller⟩
  rcases List.mem_append.mp hother with hmem | hmem
  · obtain ⟨hsame, hnonempty⟩ := h.seller other hmem
    rw [hsame, Tally.first, if_neg hnonempty]
  · rw [List.mem_singleton.mp hmem]
    exact hfirst

theorem checkItems_eq_passed {ownerId : String}
    {lookup : Nat → String → Lookup} {tally next : Tally}
    {items : List CartItem} (hconsistent : tally.Consistent)
    (h : checkItems shop ownerId lookup tally items = .ok (.passed next)) :
    next.Consistent ∧ ∃ counted,
      next.orderItems = tally.orderItems ++ counted ∧
      counted.Sublist items ∧
      (AllFound shop lookup items ↔ counted = items) := by
  induction items generalizing lookup tally with
  | nil =>
      cases h
      exact ⟨hconsistent, [], (List.append_nil _).symm, List.Sublist.refl _,
        iff_of_true (fun _ _ hitem => nomatch hitem) rfl⟩
  | cons item items ih =>
      rw [checkItems] at h
      obtain ⟨verdict, hverdict, hrest⟩ := bind_eq_ok.mp h
      cases verdict with
      | refused => cases hrest
      | batch => cases hrest
      | passed middle =>
          rcases checkItem_eq_passed.mp hverdict with
            ⟨listing, hfound, hmetadata, rfl⟩ |
            ⟨listing, currency, salesPrice, quantity, hoffer, hpasses, hfirst,
              rfl⟩
          · obtain ⟨hnext, counted, hitems, hsublist, -⟩ := ih hconsistent hrest
            refine ⟨hnext, counted, hitems, hsublist.cons item, ?_⟩
            refine iff_of_false (fun hall => ?_) (fun heq => ?_)
            · obtain ⟨other, hother, hcontains⟩ := (allFound_cons.mp hall).1
              rw [hfound] at hother
              cases hother
              rw [hmetadata] at hcontains
              cases hcontains
            · have hlength := hsublist.length_le
              rw [heq, List.length_cons] at hlength
              omega
          · obtain ⟨hnext, counted, hitems, hsublist, hall⟩ :=
              ih (hconsistent.count hoffer.named hpasses hfirst) hrest
            refine ⟨hnext, item :: counted, ?_, hsublist.cons_cons item, ?_⟩
            · exact hitems.trans (List.append_assoc ..)
            · rw [allFound_cons, hall, List.cons.injEq,
                and_iff_right ⟨listing, hoffer.found, hoffer.metadata⟩,
                and_iff_right rfl]

/-! ## What the puts leave -/

theorem placeOrders_cons {display : Except Fault Unit} {number : Nat}
    {placement : Placement} {order : Order} {orders : List Order}
    (hexpires : shop.setExpiration number = .ok ())
    (hreadable : (shop.put number).readable = true) (hdisplay : display = .ok ()) :
    placeOrders shop display number placement (order :: orders) =
      placeOrders shop display (number + 1)
        { placement with
          puts := placement.puts ++ [(order, (shop.put number).accepted)] }
        orders := by
  rw [placeOrders, hexpires, hdisplay]
  simp only [hreadable, not_true_eq_false, if_false]

/-- The cart is left alone, or every put was made and confirmed somehow. -/
theorem placeOrders_cases (shop : Shop) (display : Except Fault Unit) (number : Nat)
    (placement : Placement) (orders : List Order) :
    (placeOrders shop display number placement orders).cart = placement.cart ∨
      (∀ n < orders.length, Yields (shop.setExpiration (number + n)) ∧
        (shop.put (number + n)).readable = true) ∧
      (orders ≠ [] → display = .ok ()) ∧
      (placeOrders shop display number placement orders).cart =
        placement.cart.empty ∧
      (placeOrders shop display number placement orders).puts =
        placement.puts ++ orders.mapIdx fun n order =>
          (order, (shop.put (number + n)).accepted) := by
  induction orders generalizing number placement with
  | nil => exact .inr ⟨fun _ h => absurd h (Nat.not_lt_zero _),
      fun h => absurd rfl h, rfl, (List.append_nil _).symm⟩
  | cons order orders ih =>
      cases hexpires : shop.setExpiration number with
      | error fault =>
          refine .inl ?_
          rw [placeOrders, hexpires]
      | ok done =>
          cases hreadable : (shop.put number).readable with
          | false =>
              refine .inl ?_
              rw [placeOrders, hexpires]
              simp only [hreadable, Bool.false_eq_true, not_false_eq_true,
                if_true]
          | true =>
              cases hdisplay : display with
              | error fault =>
                  refine .inl ?_
                  rw [placeOrders, hexpires]
                  simp only [hreadable, not_true_eq_false, if_false]
              | ok shown =>
                  rw [placeOrders_cons hexpires hreadable rfl, ← hdisplay]
                  refine (ih (number + 1) _).imp id ?_
                  rintro ⟨hrest, -, hcart, hputs⟩
                  refine ⟨fun n hn => ?_, fun _ => rfl, hcart, ?_⟩
                  · cases n with
                    | zero => exact ⟨⟨done, hexpires⟩, hreadable⟩
                    | succ n =>
                        rw [List.length_cons] at hn
                        rw [Nat.add_comm n 1, ← Nat.add_assoc]
                        exact hrest n (by omega)
                  · rw [hputs, List.mapIdx_cons, List.append_assoc]
                    simp only [Nat.add_comm, Nat.add_left_comm, Nat.add_zero,
                      List.singleton_append]

theorem placeOrders_confirmed {display : Except Fault Unit} {number : Nat}
    {placement : Placement} {orders : List Order}
    (hdisplay : display = .ok ())
    (h : ∀ n < orders.length, Confirmed shop (number + n)) :
    (placeOrders shop display number placement orders).cart =
        placement.cart.empty ∧
      (placeOrders shop display number placement orders).puts =
        placement.puts ++ orders.map fun order => (order, true) := by
  induction orders generalizing number placement with
  | nil => exact ⟨rfl, (List.append_nil _).symm⟩
  | cons order orders ih =>
      have hfirst := h 0 (Nat.zero_lt_succ _)
      rw [Nat.add_zero] at hfirst
      obtain ⟨⟨done, hexpires⟩, haccepted, hreadable⟩ := hfirst
      have hrest : ∀ n < orders.length, Confirmed shop (number + 1 + n) := by
        intro n hn
        rw [Nat.add_assoc, Nat.add_comm 1 n]
        exact h (n + 1) (Nat.succ_lt_succ hn)
      rw [placeOrders_cons hexpires hreadable hdisplay]
      obtain ⟨hcart, hputs⟩ := ih hrest
      refine ⟨hcart, ?_⟩
      rw [hputs, List.append_assoc, haccepted]
      rfl

theorem placeOrders_put {display : Except Fault Unit} {orders : List Order}
    (hrest : ∀ number (placement : Placement),
      placement.puts <+: (placeOrders shop display number placement orders).puts)
    {number : Nat} (hexpires : shop.setExpiration number = .ok ())
    (placement : Placement) (order : Order) :
    placement.puts ++ [(order, (shop.put number).accepted)] <+:
      (placeOrders shop display number placement (order :: orders)).puts := by
  rw [placeOrders, hexpires]
  dsimp only
  split
  · exact List.prefix_rfl
  · cases display with
    | error fault => exact List.prefix_rfl
    | ok shown =>
        exact hrest (number + 1) { placement with
          puts := placement.puts ++ [(order, (shop.put number).accepted)] }

theorem placeOrders_prefix (display : Except Fault Unit) (number : Nat)
    (placement : Placement) (orders : List Order) :
    placement.puts <+: (placeOrders shop display number placement orders).puts := by
  induction orders generalizing number placement with
  | nil => exact List.prefix_rfl
  | cons order orders ih =>
      cases hexpires : shop.setExpiration number with
      | error fault =>
          rw [placeOrders, hexpires]
      | ok done =>
          exact (List.prefix_append _ _).trans
            (placeOrders_put ih hexpires placement order)

theorem placeOrders_first {display : Except Fault Unit} {cart : Cart}
    {ending : Except Fault Unit} {order : Order} {orders : List Order} :
    (placeOrders shop display 0 (stay cart ending) (order :: orders)).puts = [] ↔
      ¬ Yields (shop.setExpiration 0) := by
  cases hexpires : shop.setExpiration 0 with
  | error fault =>
      rw [placeOrders, hexpires]
      exact iff_of_true rfl (not_yields_error fault)
  | ok done =>
      refine iff_of_false (fun hnone => ?_) (not_not_intro ⟨done, rfl⟩)
      have hput := placeOrders_put (fun number placement =>
        placeOrders_prefix display number placement orders) hexpires
        (stay cart ending) order
      rw [hnone] at hput
      cases List.prefix_nil.mp hput

theorem placeOrders_stopped {display : Except Fault Unit} {cart : Cart}
    {ending : Except Fault Unit} {order : Order} {orders : List Order}
    (h : ¬ Yields (shop.setExpiration 0)) :
    (placeOrders shop display 0 (stay cart ending) (order :: orders)).cart =
      cart := by
  cases hexpires : shop.setExpiration 0 with
  | error fault => rw [placeOrders, hexpires]; rfl
  | ok done => exact absurd ⟨done, hexpires⟩ h

/-! ## When the result is all or nothing -/

theorem acceptedOrders_confirmed {placement : Placement} {orders : List Order}
    (h : placement.puts = orders.map fun order => (order, true)) :
    placement.acceptedOrders = orders := by
  rw [Placement.acceptedOrders, h, List.filter_map, List.map_map]
  simp [Function.comp_def]

theorem empty_contents (cart : Cart) :
    cart.empty.contents = if cart.id = "" then cart.contents else [] := by
  rw [Cart.empty]
  split <;> rfl

theorem map_fst_mapIdx (orders : List Order) (accepted : Nat → Bool) :
    (orders.mapIdx fun n order => (order, accepted n)).map Prod.fst = orders := by
  exact List.ext_getElem (by simp) (by simp)

theorem accepted_sublist {placement : Placement} {orders : List Order}
    {accepted : Nat → Bool}
    (h : placement.puts = orders.mapIdx fun n order => (order, accepted n)) :
    placement.acceptedOrders.Sublist orders := by
  have hsublist : placement.acceptedOrders.Sublist
      (placement.puts.map Prod.fst) :=
    List.filter_sublist.map Prod.fst
  rwa [h, map_fst_mapIdx] at hsublist

theorem accepted_all {placement : Placement} {orders : List Order}
    {accepted : Nat → Bool}
    (h : placement.puts = orders.mapIdx fun n order => (order, accepted n))
    (hall : placement.acceptedOrders = orders) {number : Nat}
    (hnumber : number < orders.length) : accepted number = true := by
  have hlength : (placement.puts.filter Prod.snd).length =
      placement.puts.length := by
    have hsame := congrArg List.length hall
    rw [Placement.acceptedOrders, List.length_map] at hsame
    rw [hsame, h, List.length_mapIdx]
  have hmem : (orders[number], accepted number) ∈ placement.puts := by
    rw [h, List.mem_mapIdx]
    exact ⟨number, hnumber, rfl⟩
  exact List.length_filter_eq_length_iff.mp hlength _ hmem

/--
Of orders that are all needed to cover the cart, each is taken and confirmed
and nothing is left out, or the first is never put.
-/
theorem placeOrders_allOrNothing {display : Except Fault Unit} {cart : Cart}
    {order : Order} {orders : List Order} (hcart : cart.contents ≠ [])
    (hseller : ∀ placed ∈ order :: orders, ∃ sellerId, ∀ item ∈ placed.items,
      item.sellerId = sellerId)
    (hneeded : ∀ taken : List Order, taken.Sublist (order :: orders) →
      (taken.flatMap Order.items).Perm cart.contents → taken = order :: orders) :
    AllOrNothing cart
        (placeOrders shop display 0 (stay cart (return ())) (order :: orders)) ↔
      (Yields (shop.setExpiration 0) →
        (∀ number < (order :: orders).length, Confirmed shop number) ∧
          display = .ok () ∧
          ((order :: orders).flatMap Order.items).Perm cart.contents ∧
          cart.id ≠ "") := by
  constructor
  · rintro (⟨heach, hempty⟩ | ⟨hnone, -⟩)
    · rcases placeOrders_cases shop display 0 (stay cart (return ()))
        (order :: orders) with hsame | ⟨hputs, hdisplay, hafter, htaken⟩
      · rw [hsame] at hempty
        exact absurd hempty hcart
      · rw [hafter, empty_contents] at hempty
        have hid : cart.id ≠ "" := fun hid =>
          hcart (by simpa [stay, hid] using hempty)
        have hall := hneeded _ (accepted_sublist htaken) heach.items
        refine fun _ => ⟨fun number hnumber => ?_,
          hdisplay (by simp), hall ▸ heach.items, hid⟩
        obtain ⟨hexpires, hreadable⟩ := hputs number hnumber
        have haccepted := accepted_all htaken hall hnumber
        rw [Nat.zero_add] at hexpires hreadable haccepted
        exact ⟨hexpires, haccepted, hreadable⟩
    · exact fun hexpires => absurd hexpires (placeOrders_first.mp hnone)
  · intro h
    by_cases hexpires : Yields (shop.setExpiration 0)
    · obtain ⟨hconfirmed, hdisplay, hitems, hid⟩ := h hexpires
      have hnumbers : ∀ n < (order :: orders).length, Confirmed shop (0 + n) := by
        intro n hn
        rw [Nat.zero_add]
        exact hconfirmed n hn
      obtain ⟨hafter, hputs⟩ := placeOrders_confirmed hdisplay hnumbers
      refine .inl ⟨?_, ?_⟩
      · rw [acceptedOrders_confirmed hputs]
        exact ⟨hitems, hseller⟩
      · rw [hafter, empty_contents]
        exact if_neg hid
    · exact .inr ⟨placeOrders_first.mpr hexpires, placeOrders_stopped hexpires⟩

/-- Orders with items are all needed to have as many items as they have. -/
theorem eq_of_sublist {taken orders : List Order} (h : taken.Sublist orders)
    (hitems : ∀ order ∈ orders, order.items ≠ []) :
    (taken.flatMap Order.items).length ≤ (orders.flatMap Order.items).length ∧
      ((taken.flatMap Order.items).length =
        (orders.flatMap Order.items).length → taken = orders) := by
  induction h with
  | slnil => exact ⟨le_rfl, fun _ => rfl⟩
  | cons order h ih =>
      obtain ⟨hle, -⟩ := ih fun other hother =>
        hitems other (List.mem_cons_of_mem _ hother)
      have hpos := List.length_pos_iff.mpr (hitems order (List.mem_cons_self ..))
      rw [List.flatMap_cons, List.length_append]
      exact ⟨by omega, fun heq => absurd heq (by omega)⟩
  | cons_cons order h ih =>
      obtain ⟨hle, heq⟩ := ih fun other hother =>
        hitems other (List.mem_cons_of_mem _ hother)
      simp only [List.flatMap_cons, List.length_append]
      exact ⟨by omega, fun hsame => by rw [heq (by omega)]⟩

theorem stay_allOrNothing (cart : Cart) (ending : Except Fault Unit) :
    AllOrNothing cart (stay cart ending) :=
  .inr ⟨rfl, rfl⟩

theorem itemsOf_perm (shop : Shop) (cart : Cart) :
    ((shop.sellers (cart.contents.map CartItem.sellerId)).flatMap
      (itemsOf cart)).Perm cart.contents := by
  have hperm := shop.sellers_perm (cart.contents.map CartItem.sellerId)
  refine flatMap_filter_perm CartItem.sellerId
    (hperm.nodup_iff.mpr (List.nodup_dedup _)) fun item hitem => ?_
  rw [hperm.mem_iff, List.mem_dedup]
  exact List.mem_map.mpr ⟨item, hitem, rfl⟩

theorem mem_sellers {cart : Cart} {sellerId : String}
    (h : sellerId ∈ shop.sellers (cart.contents.map CartItem.sellerId)) :
    itemsOf cart sellerId ≠ [] := by
  rw [(shop.sellers_perm _).mem_iff, List.mem_dedup] at h
  obtain ⟨item, hitem, rfl⟩ := List.mem_map.mp h
  exact List.ne_nil_of_mem (List.mem_filter.mpr ⟨hitem, by simp⟩)

section Batch

variable {cart : Cart} {shippingAddress : String} {orders : List Order}
  {listingCache : List (String × Json)}

theorem batchOrders_groups
    (h : batchOrders shop cart shippingAddress shop.lookupBatch 0
      (shop.sellers (cart.contents.map CartItem.sellerId)) =
        .ok (some (orders, listingCache))) :
    EachOrdered cart orders ∧ (∀ order ∈ orders, order.items ≠ []) ∧
      orders.length =
        (shop.sellers (cart.contents.map CartItem.sellerId)).length ∧
      displayItems listingCache cart.contents = .ok () := by
  obtain ⟨hitems, hcached⟩ := batchOrders_eq_some h
  have hperm := itemsOf_perm shop cart
  have hgroup : ∀ order ∈ orders, ∃ sellerId ∈
      shop.sellers (cart.contents.map CartItem.sellerId),
        order.items = itemsOf cart sellerId := by
    intro order horder
    have hmem : order.items ∈ orders.map Order.items :=
      List.mem_map.mpr ⟨order, horder, rfl⟩
    rw [hitems] at hmem
    obtain ⟨sellerId, hseller, heq⟩ := List.mem_map.mp hmem
    exact ⟨sellerId, hseller, heq.symm⟩
  refine ⟨⟨?_, fun order horder => ?_⟩, fun order horder => ?_, ?_, ?_⟩
  · rwa [List.flatMap_def, hitems, ← List.flatMap_def]
  · obtain ⟨sellerId, -, heq⟩ := hgroup order horder
    refine ⟨sellerId, fun item hitem => ?_⟩
    rw [heq] at hitem
    simpa using (List.mem_filter.mp hitem).2
  · obtain ⟨sellerId, hseller, heq⟩ := hgroup order horder
    exact heq ▸ mem_sellers hseller
  · simpa using congrArg List.length hitems
  · exact displayItems_ok ⟨hcached.named, fun item hitem =>
      hcached.keys item (hperm.mem_iff.mpr hitem)⟩

theorem createOrderBatch_allOrNothing (hcart : cart.contents ≠ []) :
    AllOrNothing cart (createOrderBatch shop cart shippingAddress) ↔
      SureBatch shop cart shippingAddress := by
  rw [createOrderBatch, if_neg hcart, SureBatch]
  dsimp only
  cases hbatch : batchOrders shop cart shippingAddress shop.lookupBatch 0
      (shop.sellers (cart.contents.map CartItem.sellerId)) with
  | error fault =>
      exact iff_of_true (stay_allOrNothing ..) (fun _ hfound => nomatch hfound)
  | ok found =>
      rcases found with - | ⟨orders, listingCache⟩
      · exact iff_of_true (stay_allOrNothing ..)
          (fun _ hfound => nomatch hfound)
      obtain ⟨heach, hnonempty, hlength, hdisplay⟩ := batchOrders_groups hbatch
      cases orders with
      | nil => exact absurd heach.items.nil_eq.symm hcart
      | cons order orders =>
          have hneeded : ∀ taken : List Order,
              taken.Sublist (order :: orders) →
              (taken.flatMap Order.items).Perm cart.contents →
              taken = order :: orders := fun taken hsublist hperm =>
            (eq_of_sublist hsublist hnonempty).2
              (hperm.length_eq.trans heach.items.length_eq.symm)
          dsimp only
          rw [placeOrders_allOrNothing hcart heach.seller hneeded, hlength]
          constructor
          · intro h found _ hexpires
            obtain ⟨hconfirmed, -, -, hid⟩ := h hexpires
            exact ⟨hconfirmed, hid⟩
          · intro h hexpires
            obtain ⟨hconfirmed, hid⟩ := h _ rfl hexpires
            exact ⟨hconfirmed, hdisplay, heach.items, hid⟩

end Batch

/-- The cart as one order, once every item of it was passed. -/
theorem placeSingle_allOrNothing {cart : Cart} {shippingAddress : String}
    {tally : Tally} {order : Order} (hcart : cart.contents ≠ [])
    (hchecked : checkItems shop cart.ownerId shop.lookup .start cart.contents =
      .ok (.passed tally))
    (horder : construct shop cart shippingAddress 0 tally = .ok order) :
    AllOrNothing cart
        (placeOrders shop
          (do
            displayItems tally.listingCache cart.contents
            shop.displayDetails)
          0 (stay cart (return ())) [order]) ↔
      (Yields (shop.setExpiration 0) →
        Confirmed shop 0 ∧ AllFound shop shop.lookup cart.contents ∧
          Yields shop.displayDetails ∧ cart.id ≠ "") := by
  obtain ⟨hconsistent, counted, hitems, hsublist, hall⟩ :=
    checkItems_eq_passed Tally.Consistent.start hchecked
  have hcounted : order.items = counted :=
    (construct_items horder).trans hitems
  have hneeded : ∀ taken : List Order, taken.Sublist [order] →
      (taken.flatMap Order.items).Perm cart.contents → taken = [order] := by
    intro taken htaken hperm
    cases taken with
    | nil => exact absurd hperm.nil_eq.symm hcart
    | cons first rest => exact htaken.eq_of_length_le (by simp)
  have hseller : ∀ placed ∈ [order], ∃ sellerId,
      ∀ item ∈ placed.items, item.sellerId = sellerId := by
    intro placed hplaced
    rw [List.mem_singleton.mp hplaced, construct_items horder]
    exact ⟨tally.firstSellerId,
      fun item hitem => (hconsistent.seller item hitem).1⟩
  rw [placeOrders_allOrNothing hcart hseller hneeded]
  constructor
  · intro h hexpires
    obtain ⟨hconfirmed, hdisplay, hperm, hid⟩ := h hexpires
    obtain ⟨_, -, hdetails⟩ := bind_eq_ok.mp hdisplay
    rw [List.flatMap_singleton, hcounted] at hperm
    exact ⟨hconfirmed 0 Nat.zero_lt_one,
      hall.mpr (hsublist.eq_of_length hperm.length_eq), ⟨(), hdetails⟩, hid⟩
  · intro h hexpires
    obtain ⟨hconfirmed, hfound, ⟨_, hdetails⟩, hid⟩ := h hexpires
    have hsame : tally.orderItems = cart.contents :=
      hitems.trans (hall.mp hfound)
    have hshown : displayItems tally.listingCache cart.contents = .ok () :=
      displayItems_ok (hsame ▸ hconsistent.cached)
    refine ⟨fun number hnumber => ?_,
      bind_eq_ok.mpr ⟨(), hshown, hdetails⟩, ?_, hid⟩
    · rw [List.length_singleton, Nat.lt_one_iff] at hnumber
      exact hnumber ▸ hconfirmed
    · rw [List.flatMap_singleton, construct_items horder, hsame]

/-- `create_order` is all or nothing exactly where its puts are sure. -/
theorem createOrder_allOrNothing (shop : Shop) (cart : Cart)
    (shippingAddress : String) (hcart : cart.contents ≠ []) :
    AllOrNothing cart (createOrder shop cart shippingAddress) ↔
      Sure shop cart shippingAddress := by
  rw [createOrder, if_neg hcart, Sure]
  cases hchecked : checkItems shop cart.ownerId shop.lookup .start
      cart.contents with
  | error fault => exact iff_of_true (stay_allOrNothing ..) trivial
  | ok verdict =>
      cases verdict with
      | refused => exact iff_of_true (stay_allOrNothing ..) trivial
      | batch => exact createOrderBatch_allOrNothing hcart
      | passed tally =>
          dsimp only
          cases horder : construct shop cart shippingAddress 0 tally with
          | error fault =>
              exact iff_of_true (stay_allOrNothing ..)
                (fun hyields => absurd hyields (not_yields_error fault))
          | ok order =>
              have hplaced := placeSingle_allOrNothing hcart hchecked horder
              exact hplaced.trans
                ⟨fun h _ => h, fun h => h ⟨order, rfl⟩⟩

theorem dedup_perm (ids : List String) : ids.dedup.Perm ids.dedup :=
  List.Perm.refl _

/-- A shop with one listing, of which every put ends in the same way. -/
def ofReply (reply : PutReply) : Shop where
  env := .ofDocuments [("value", .object [("metadata", .string "listing"),
    ("product", .object [("name", .string "name")]),
    ("currency", .string "usd"), ("price", .unsigned 5),
    ("quantity", .unsigned 3)])]
  toDouble number := number
  lookup _ _ := .found "value"
  lookupBatch _ _ := .found "value"
  convertToXmr _ amount _ := .ok amount
  stamp _ := ("order", "2025-01-01")
  setExpiration _ := .ok ()
  put _ := reply
  displayDetails := .ok ()
  sellers := List.dedup
  sellers_perm := dedup_perm

def cartOfTwo : Cart :=
  ⟨"cart", "user", [⟨"listing", 2, "seller"⟩], some "cart",
    [⟨"listing", 2, "seller"⟩], true, fun _ => 3, false⟩

theorem createOrder_allOrNothing_accepted :
    AllOrNothing cartOfTwo
      (createOrder (ofReply ⟨true, true⟩) cartOfTwo "address") := by
  refine (createOrder_allOrNothing (ofReply ⟨true, true⟩) cartOfTwo "address"
    (by decide)).mpr fun _ _ => ?_
  refine ⟨⟨⟨(), rfl⟩, rfl, rfl⟩, fun number item hitem => ?_, ⟨(), rfl⟩,
    by decide⟩
  exact ⟨_, rfl, rfl⟩

/-- An order that the daemon answers with an error leaves an empty cart. -/
theorem rejected_order_empties_cart :
    (createOrder (ofReply ⟨false, true⟩) cartOfTwo "address").acceptedOrders =
        [] ∧
      (createOrder (ofReply ⟨false, true⟩) cartOfTwo
        "address").cart.contents = [] ∧
      ¬ AllOrNothing cartOfTwo
        (createOrder (ofReply ⟨false, true⟩) cartOfTwo "address") := by
  refine ⟨rfl, rfl, ?_⟩
  rintro (⟨heach, -⟩ | ⟨hputs, -⟩)
  · exact absurd heach.items.length_eq (by decide)
  · exact List.cons_ne_nil _ _ hputs

end Shop
end Neroshop.Market
