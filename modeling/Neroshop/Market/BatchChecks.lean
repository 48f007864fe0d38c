import Neroshop.Market.Order

/-!
# The checks of a batch against those of a single order

`create_order_batch` repeats the loop of `create_order` without its checks of
the seller, and compares a quantity as an `int` that `create_order` compares
unsigned.
-/

namespace Neroshop.Market.Shop

open Neroshop.Foundation Neroshop.Node Neroshop.Rpc

/-- One set of listings, for as long as an order takes. -/
structure Listings where
  env : Externals
  toDouble : Int → ℚ
  listing : String → Lookup

/-- The lookups of the shop are those of the listings. -/
structure Serves (shop : Shop) (listings : Listings) : Prop where
  env : shop.env = listings.env
  toDouble : shop.toDouble = listings.toDouble
  lookupBatch : ∀ number key, shop.lookupBatch number key = listings.listing key

/-- `create_order` would pass the item, were it the first of the cart. -/
def PassesSingle (shop : Shop) (ownerId : String) (lookup : Lookup)
    (item : CartItem) : Prop :=
  ∃ tally, checkItem shop ownerId lookup .start item = .ok (.passed tally) ∧
    tally.orderItems = [item]

def PassesBatch (shop : Shop) (lookup : Lookup) (item : CartItem) : Prop :=
  ∃ tally, checkBatchItem shop lookup .start item.sellerId item.key
    (toInt item.quantity.toNat) = .ok (some tally)

/-- Whatever else happens, every item in an order that is put would be passed. -/
def Enforces (listings : Listings) (cart : Cart) : Prop :=
  ∀ shop shippingAddress, Serves shop listings →
    ∀ put ∈ (createOrderBatch shop cart shippingAddress).puts,
      ∀ item ∈ put.1.items,
        PassesSingle shop cart.ownerId (listings.listing item.key) item

/-- A shop with these listings in which all goes well. -/
def Listings.open (listings : Listings) : Shop where
  env := listings.env
  toDouble := listings.toDouble
  lookup _ := listings.listing
  lookupBatch _ := listings.listing
  convertToXmr _ amount _ := .ok amount
  stamp _ := ("", "")
  setExpiration _ := .ok ()
  put _ := ⟨true, true⟩
  displayDetails := .ok ()
  sellers := List.dedup
  sellers_perm := dedup_perm

theorem Listings.serves (listings : Listings) :
    Serves listings.open listings :=
  ⟨rfl, rfl, fun _ _ => rfl⟩

/-- What the checks of a batch leave out. -/
structure Orderable (ownerId : String) (item : CartItem) : Prop where
  seller : item.sellerId ≠ ""
  other : item.sellerId ≠ ownerId
  quantity : item.quantity.toNat < 2 ^ 31

variable {shop : Shop} {listings : Listings} {cart : Cart}

theorem fits_fetchInt {json : Json} {name : String} {number : Int}
    (h : fetchInt json name = .ok number) : FitsInt number := by
  obtain ⟨member, -, hint⟩ := bind_eq_ok.mp h
  have hbmod : ∀ value : Int, FitsInt (value.bmod (2 ^ 32)) := by
    intro value
    have hlow : -(((2 ^ 32 : Nat) : Int) / 2) ≤ value.bmod (2 ^ 32) :=
      Int.le_bmod (Nat.two_pow_pos 32)
    have hhigh : value.bmod (2 ^ 32) < (((2 ^ 32 : Nat) : Int) + 1) / 2 :=
      Int.bmod_lt (Nat.two_pow_pos 32)
    exact ⟨by omega, by omega⟩
  cases member with
  | unsigned value =>
      rw [← show Int.bmod value (2 ^ 32) = number from Except.ok.inj hint]
      exact hbmod _
  | integer value =>
      rw [← show Int.bmod value (2 ^ 32) = number from Except.ok.inj hint]
      exact hbmod _
  | float value =>
      rw [← show Json.intOfFloat value = number from Except.ok.inj hint,
        Json.intOfFloat]
      split
      · assumption
      · exact ⟨by omega, by omega⟩
  | boolean value => cases hint; cases value <;> decide
  | null => cases hint
  | string value => cases hint
  | array elements => cases hint
  | object members => cases hint

theorem passes_any_iff {lookup : Lookup} {item : CartItem} {tally : Tally}
    {sellerId : String} :
    (∃ next, checkBatchItem shop lookup tally sellerId item.key
        (toInt item.quantity.toNat) = .ok (some next)) ↔
      ∃ listing currency salesPrice quantity,
        Offer shop lookup listing currency salesPrice quantity ∧
        toInt item.quantity.toNat ≤ quantity ∧ 0 < quantity := by
  simp only [checkBatchItem_eq_some]
  constructor
  · rintro ⟨_, listing, currency, salesPrice, quantity, hoffer, hle, hpos, -⟩
    exact ⟨listing, currency, salesPrice, quantity, hoffer, hle, hpos⟩
  · rintro ⟨listing, currency, salesPrice, quantity, hoffer, hle, hpos⟩
    exact ⟨_, listing, currency, salesPrice, quantity, hoffer, hle, hpos, rfl⟩

theorem passesBatch_iff {lookup : Lookup} {item : CartItem} :
    PassesBatch shop lookup item ↔
      ∃ listing currency salesPrice quantity,
        Offer shop lookup listing currency salesPrice quantity ∧
        toInt item.quantity.toNat ≤ quantity ∧ 0 < quantity :=
  passes_any_iff

/-- What was counted before does not matter to the checks of an item. -/
theorem checked_iff {lookup : Lookup} {item : CartItem} (tally : Tally)
    (sellerId : String) :
    (∃ next, checkBatchItem shop lookup tally sellerId item.key
        (toInt item.quantity.toNat) = .ok (some next)) ↔
      PassesBatch shop lookup item :=
  passes_any_iff.trans passesBatch_iff.symm

theorem passesSingle_iff {ownerId : String} {lookup : Lookup}
    {item : CartItem} : PassesSingle shop ownerId lookup item ↔
      ∃ listing currency salesPrice quantity,
        Offer shop lookup listing currency salesPrice quantity ∧
        Passes ownerId item quantity := by
  simp only [PassesSingle, checkItem_eq_passed]
  constructor
  · rintro ⟨_, ⟨_, -, -, rfl⟩ |
      ⟨listing, currency, salesPrice, quantity, hoffer, hpasses, -, -⟩, hitems⟩
    · cases hitems
    · exact ⟨listing, currency, salesPrice, quantity, hoffer, hpasses⟩
  · rintro ⟨listing, currency, salesPrice, quantity, hoffer, hpasses⟩
    exact ⟨_, .inr ⟨listing, currency, salesPrice, quantity, hoffer, hpasses,
      rfl, rfl⟩, rfl⟩

/-- Of an item that a batch lets through, the other checks are all that is left. -/
theorem PassesBatch.single_iff {ownerId : String} {lookup : Lookup}
    {item : CartItem} (h : PassesBatch shop lookup item) :
    PassesSingle shop ownerId lookup item ↔ Orderable ownerId item := by
  rw [passesSingle_iff]
  have hlt := item.quantity.toNat_lt
  constructor
  · rintro ⟨_, _, _, quantity, hoffer, hpasses⟩
    obtain ⟨-, hhigh⟩ := fits_fetchInt hoffer.stocked
    have hpos := hpasses.inStock
    have hstock := UInt32.le_iff_toNat_le.mp hpasses.stock
    rw [toUnsigned, UInt32.ofInt, UInt32.toNat_ofNat'] at hstock
    exact ⟨hpasses.seller, hpasses.other.symm, by omega⟩
  · rintro ⟨hseller, hother, hquantity⟩
    obtain ⟨listing, currency, salesPrice, quantity, hoffer, hle, hpos⟩ :=
      passesBatch_iff.mp h
    refine ⟨listing, currency, salesPrice, quantity, hoffer, hseller,
      hother.symm, ?_, hpos⟩
    obtain ⟨-, hhigh⟩ := fits_fetchInt hoffer.stocked
    rw [toInt_of_fits ⟨by omega, by omega⟩] at hle
    rw [UInt32.le_iff_toNat_le, toUnsigned, UInt32.ofInt, UInt32.toNat_ofNat']
    omega

/-! ## The loops -/

theorem checkBatchItems_iff {sellerId : String}
    {lookup : Nat → String → Lookup} {listing : String → Lookup}
    (hlookup : ∀ number key, lookup number key = listing key) {tally : Tally}
    {items : List CartItem} (hseller : ∀ item ∈ items, item.sellerId = sellerId) :
    (∃ next, checkBatchItems shop sellerId lookup tally items =
        .ok (some next)) ↔
      ∀ item ∈ items, PassesBatch shop (listing item.key) item := by
  induction items generalizing lookup tally with
  | nil => exact iff_of_true ⟨tally, rfl⟩ (fun _ h => nomatch h)
  | cons item items ih =>
      have hrest : ∀ next, (∃ final, checkBatchItems shop sellerId
          (fun number => lookup (number + 1)) next items = .ok (some final)) ↔
            ∀ other ∈ items, PassesBatch shop (listing other.key) other :=
        fun next => ih (fun number key => hlookup (number + 1) key)
          (fun other hother => hseller other (List.mem_cons_of_mem _ hother))
      rw [List.forall_mem_cons, checkBatchItems, hlookup,
        ← checked_iff tally sellerId]
      constructor
      · rintro ⟨final, hfinal⟩
        obtain ⟨checked, hchecked, hfinal⟩ := bind_eq_ok.mp hfinal
        cases checked with
        | none => cases hfinal
        | some next =>
            exact ⟨⟨next, hchecked⟩, (hrest next).mp ⟨final, hfinal⟩⟩
      · rintro ⟨⟨next, hchecked⟩, hitems⟩
        obtain ⟨final, hfinal⟩ := (hrest next).mpr hitems
        exact ⟨final, bind_eq_ok.mpr ⟨some next, hchecked, hfinal⟩⟩

/-- A batch that comes to its orders has passed every item of the sellers. -/
theorem batchOrders_passes {shippingAddress : String}
    {lookup : Nat → String → Lookup} {listing : String → Lookup}
    (hlookup : ∀ number key, lookup number key = listing key) {number : Nat}
    {sellerIds : List String} {found : List Order × List (String × Json)}
    (h : batchOrders shop cart shippingAddress lookup number sellerIds =
      .ok (some found)) :
    ∀ sellerId ∈ sellerIds, ∀ item ∈ itemsOf cart sellerId,
      PassesBatch shop (listing item.key) item := by
  induction sellerIds generalizing lookup number found with
  | nil => exact fun _ h => nomatch h
  | cons sellerId sellerIds ih =>
      obtain ⟨tally, order, rest, hchecked, -, hrest, -⟩ := batchOrders_cons h
      rw [List.forall_mem_cons]
      exact ⟨(checkBatchItems_iff hlookup itemsOf_seller).mp ⟨tally, hchecked⟩,
        ih (fun n key => hlookup _ key) hrest⟩

theorem batchOrders_open {shippingAddress : String}
    {lookup : Nat → String → Lookup}
    (hlookup : ∀ number key, lookup number key = listings.listing key)
    {number : Nat} {sellerIds : List String}
    (h : ∀ sellerId ∈ sellerIds, ∀ item ∈ itemsOf cart sellerId,
      PassesBatch listings.open (listings.listing item.key) item) :
    ∃ found, batchOrders listings.open cart shippingAddress lookup number
      sellerIds = .ok (some found) := by
  induction sellerIds generalizing lookup number with
  | nil => exact ⟨_, rfl⟩
  | cons sellerId sellerIds ih =>
      rw [List.forall_mem_cons] at h
      have hpassed : ∃ tally, checkBatchItems listings.open sellerId lookup
          .start (itemsOf cart sellerId) = .ok (some tally) :=
        (checkBatchItems_iff hlookup itemsOf_seller).mpr h.1
      have hothers : ∃ found, batchOrders listings.open cart shippingAddress
          (fun n => lookup (n + (itemsOf cart sellerId).length)) (number + 1)
          sellerIds = .ok (some found) :=
        ih (fun n key => hlookup _ key) h.2
      obtain ⟨tally, htally⟩ := hpassed
      obtain ⟨⟨orders, listingCache⟩, hrest⟩ := hothers
      refine ⟨_, bind_eq_ok.mpr ⟨some tally, htally, bind_eq_ok.mpr
        ⟨_, rfl, bind_eq_ok.mpr ⟨_, hrest, rfl⟩⟩⟩⟩

theorem placeOrders_puts (display : Except Fault Unit) (number : Nat)
    (placement : Placement) (orders : List Order) :
    ∀ put ∈ (placeOrders shop display number placement orders).puts,
      put ∈ placement.puts ∨ put.1 ∈ orders := by
  induction orders generalizing number placement with
  | nil => exact fun _ hput => .inl hput
  | cons order orders ih =>
      have hfirst : ∀ put ∈ placement.puts ++
          [(order, (shop.put number).accepted)],
          put ∈ placement.puts ∨ put.1 ∈ order :: orders := by
        intro put hput
        rw [List.mem_append, List.mem_singleton] at hput
        refine hput.imp id fun heq => ?_
        rw [heq]
        exact List.mem_cons_self ..
      intro put hput
      rw [placeOrders] at hput
      cases hexpires : shop.setExpiration number with
      | error fault =>
          rw [hexpires] at hput
          exact .inl hput
      | ok done =>
          rw [hexpires] at hput
          dsimp only at hput
          split at hput
          · exact hfirst put hput
          · cases display with
            | error fault => exact hfirst put hput
            | ok shown =>
                rcases ih _ _ put hput with hold | hrest
                · exact hfirst put hold
                · exact .inr (List.mem_cons_of_mem _ hrest)

/-! ## What a batch enforces -/

theorem batch_item {shippingAddress : String} (hserves : Serves shop listings)
    {put : Order × Bool}
    (hput : put ∈ (createOrderBatch shop cart shippingAddress).puts)
    {item : CartItem} (hitem : item ∈ put.1.items) :
    item ∈ cart.contents ∧ ∀ other ∈ cart.contents,
      PassesBatch shop (listings.listing other.key) other := by
  rw [createOrderBatch] at hput
  split at hput
  · cases hput
  dsimp only at hput
  cases hbatch : batchOrders shop cart shippingAddress shop.lookupBatch 0
      (shop.sellers (cart.contents.map CartItem.sellerId)) with
  | error fault =>
      rw [hbatch] at hput
      cases hput
  | ok found =>
      rw [hbatch] at hput
      cases found with
      | none => cases hput
      | some found =>
          obtain ⟨heach, -⟩ := batchOrders_groups hbatch
          have horder := (placeOrders_puts _ _ _ _ put hput).resolve_left
            List.not_mem_nil
          refine ⟨heach.items.mem_iff.mp
            (List.mem_flatMap.mpr ⟨put.1, horder, hitem⟩), ?_⟩
          intro other hother
          obtain ⟨sellerId, hseller, hmem⟩ := List.mem_flatMap.mp
            ((itemsOf_perm shop cart).mem_iff.mpr hother)
          exact batchOrders_passes hserves.lookupBatch hbatch sellerId hseller
            other hmem

theorem passesBatch_open (hserves : Serves shop listings) {lookup : Lookup}
    {item : CartItem} :
    PassesBatch shop lookup item ↔ PassesBatch listings.open lookup item := by
  simp only [PassesBatch, checkBatchItem, hserves.env, hserves.toDouble]
  rfl

/-- Where all goes well, the orders of a cart that is passed are put. -/
theorem batch_open (hcart : cart.contents ≠ [])
    (hpasses : ∀ item ∈ cart.contents,
      PassesBatch listings.open (listings.listing item.key) item) :
    ∃ orders, EachOrdered cart orders ∧
      (createOrderBatch listings.open cart "").puts =
        orders.map fun order => (order, true) := by
  have hfound : ∃ found, batchOrders listings.open cart ""
      listings.open.lookupBatch 0
      (listings.open.sellers (cart.contents.map CartItem.sellerId)) =
        .ok (some found) :=
    batchOrders_open (fun _ _ => rfl) fun _ _ item hitem =>
      hpasses item (List.mem_filter.mp hitem).1
  obtain ⟨⟨orders, listingCache⟩, hbatch⟩ := hfound
  obtain ⟨heach, -, -, hdisplay⟩ := batchOrders_groups hbatch
  have hconfirmed : ∀ n < orders.length, Confirmed listings.open (0 + n) :=
    fun _ _ => ⟨⟨(), rfl⟩, rfl, rfl⟩
  refine ⟨orders, heach, ?_⟩
  rw [createOrderBatch, if_neg hcart]
  dsimp only
  rw [hbatch]
  exact (placeOrders_confirmed hdisplay hconfirmed).2

theorem batch_open_item {item : CartItem} (hitem : item ∈ cart.contents)
    (hpasses : ∀ other ∈ cart.contents,
      PassesBatch listings.open (listings.listing other.key) other) :
    ∃ put ∈ (createOrderBatch listings.open cart "").puts,
      item ∈ put.1.items := by
  obtain ⟨orders, heach, hputs⟩ := batch_open (List.ne_nil_of_mem hitem) hpasses
  obtain ⟨order, horder, hmem⟩ :=
    List.mem_flatMap.mp (heach.items.mem_iff.mpr hitem)
  rw [hputs]
  exact ⟨(order, true), List.mem_map.mpr ⟨order, horder, rfl⟩, hmem⟩

/--
A batch enforces the checks of a single order exactly where one of its own
checks fails, or every item has another seller and a quantity that is an `int`.
-/
theorem enforces_iff (listings : Listings) (cart : Cart) :
    Enforces listings cart ↔
      ((∀ item ∈ cart.contents,
          PassesBatch listings.open (listings.listing item.key) item) →
        ∀ item ∈ cart.contents, Orderable cart.ownerId item) := by
  constructor
  · intro h hpasses item hitem
    obtain ⟨put, hput, hmem⟩ := batch_open_item hitem hpasses
    exact (hpasses item hitem).single_iff.mp
      (h listings.open "" listings.serves put hput item hmem)
  · intro h shop shippingAddress hserves put hput item hitem
    obtain ⟨hmem, hpasses⟩ := batch_item hserves hput hitem
    refine ((hpasses item hmem).single_iff).mpr (h (fun other hother => ?_) item hmem)
    exact (passesBatch_open hserves).mp (hpasses other hother)

def oneListing : Listings where
  env := (ofReply ⟨true, true⟩).env
  toDouble number := number
  listing _ := .found "value"

def cartWithOwn : Cart where
  id := "cart"
  ownerId := "user"
  contents := [⟨"first", 1, "seller"⟩, ⟨"second", 1, "other"⟩, ⟨"third", 1, "user"⟩]
  uuid := some "cart"
  rows := []
  loaded := true
  stockSeen _ := 3
  undefined := false

/-- The own item is ordered, and the batch does not enforce what it should. -/
theorem own_item_ordered :
    ((createOrder oneListing.open cartWithOwn "").acceptedOrders.map
      Order.items) = [[⟨"first", 1, "seller"⟩], [⟨"second", 1, "other"⟩],
        [⟨"third", 1, "user"⟩]] ∧
      ¬ Enforces oneListing cartWithOwn := by
  refine ⟨by decide +kernel, fun h => ?_⟩
  have hpasses : ∀ item ∈ cartWithOwn.contents,
      PassesBatch oneListing.open (oneListing.listing item.key) item := by
    intro item hitem
    refine passesBatch_iff.mpr ⟨_, _, _, _,
      ⟨rfl, rfl, ⟨_, rfl⟩, rfl, rfl, rfl⟩, ?_⟩
    revert item
    decide
  have hitem : ⟨"third", 1, "user"⟩ ∈ cartWithOwn.contents := by decide
  obtain ⟨put, hput, hmem⟩ := batch_open_item hitem hpasses
  have hown := h oneListing.open "" oneListing.serves put hput _ hmem
  exact ((hpasses _ hitem).single_iff.mp hown).other rfl

end Neroshop.Market.Shop
