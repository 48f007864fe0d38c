import Neroshop.Foundation.Amounts
import Neroshop.Gui.Rates
import Neroshop.Market.BatchChecks

/-!
# The prices of orders

The subtotal of an order is added up over its items and converted once, with
the rate of the last currency that was read.
-/

namespace Neroshop.Market

open Neroshop.Foundation Neroshop.Gui Neroshop.Node Neroshop.Rpc

/-! ## Conversion -/

namespace Converter

variable (upper : String → String)

/-- `CurrencyMap`, by a code in any case. -/
def currencyOf (code : String) : Option Currency :=
  currencyMap.lookup (upper code)

/-- The price of XMR that an amount in the currency is divided by. -/
def rateOf (getPrice : Currency → Currency → ℚ) (code : String) : ℚ :=
  ((currencyOf upper code).map (getPrice .xmr)).getD 0

/-- What a division by zero comes to, which is no rational, is `byZero`. -/
def convertToXmr (getPrice : Currency → Currency → ℚ)
    (byZero : ℚ → Except Fault ℚ) (amount : ℚ) (currency : String) :
    Except Fault ℚ :=
  match currencyOf upper currency with
  | some fromCurrency =>
      let rate := getPrice .xmr fromCurrency
      if rate = 0 then byZero amount else .ok (amount / rate)
  | none => .ok 0

/-- An amount in the currency is not divided by zero. -/
def Converts (getPrice : Currency → Currency → ℚ) (code : String) : Prop :=
  ∀ currency, currencyOf upper code = some currency → getPrice .xmr currency ≠ 0

variable {upper} in
theorem convertToXmr_eq {getPrice : Currency → Currency → ℚ} {code : String}
    (h : Converts upper getPrice code) (byZero : ℚ → Except Fault ℚ) (amount : ℚ) :
    convertToXmr upper getPrice byZero amount code =
      .ok (amount / rateOf upper getPrice code) := by
  rw [convertToXmr, rateOf]
  cases hcode : currencyOf upper code with
  | none => exact congrArg Except.ok (div_zero amount).symm
  | some currency => exact if_neg (h currency hcode)

end Converter

namespace Shop

/-- The shop with other prices, which may be others at each conversion, and
another outcome of its puts. -/
def quoting (shop : Shop) (upper : String → String)
    (getPrice : Nat → Currency → Currency → ℚ) (byZero : ℚ → Except Fault ℚ)
    (setExpiration : Nat → Except Fault Unit) (put : Nat → PutReply) : Shop :=
  { shop with
    convertToXmr := fun call =>
      Converter.convertToXmr upper (getPrice call) byZero
    setExpiration := setExpiration
    put := put }

/-- The shop with prices that stay as they are. -/
abbrev trading (shop : Shop) (upper : String → String)
    (getPrice : Currency → Currency → ℚ) (byZero : ℚ → Except Fault ℚ)
    (setExpiration : Nat → Except Fault Unit) (put : Nat → PutReply) : Shop :=
  shop.quoting upper (fun _ => getPrice) byZero setExpiration put

/-- No amount of the order of this number is divided by zero. -/
def ConvertsAt (upper : String → String)
    (getPrice : Nat → Currency → Currency → ℚ) (number : Nat) (code : String) :
    Prop :=
  ∀ k < 4, Converter.Converts upper (getPrice (4 * number + k)) code

/-! ## What is counted -/

/-- An item with what its listing says. -/
structure Line where
  quantity : UInt32
  currency : String
  price : ℚ
  deriving DecidableEq

def lineOf (toDouble : Int → ℚ) (item : OrderItem) (listing : Json) : Line where
  quantity := item.quantity
  currency := (fetchString listing "currency").toOption.getD ""
  price := (fetchDouble toDouble listing "price").toOption.getD 0

def Tally.lines (toDouble : Int → ℚ) (tally : Tally) : List Line :=
  List.zipWith (fun item entry => lineOf toDouble item entry.2)
    tally.orderItems tally.listingCache

section Counted

variable (shop : Shop) (cart : Cart)

/-- The sellers of a batch up to the first whose items are not passed. -/
def passedTallies : (Nat → String → Lookup) → List String → List Tally
  | _, [] => []
  | lookup, sellerId :: sellerIds =>
      match checkBatchItems shop sellerId lookup .start
          (itemsOf cart sellerId) with
      | .ok (some tally) =>
          tally :: passedTallies
            (fun n => lookup (n + (itemsOf cart sellerId).length)) sellerIds
      | _ => []

def sellerIds : List String :=
  shop.sellers (cart.contents.map CartItem.sellerId)

/-- The cart comes to a batch. -/
def Batched : Prop :=
  cart.contents ≠ [] ∧
    checkItems shop cart.ownerId shop.lookup .start cart.contents = .ok .batch

/-- What is counted for an order each. -/
def counted : List Tally :=
  if cart.contents = [] then []
  else
    match checkItems shop cart.ownerId shop.lookup .start cart.contents with
    | .ok .batch => passedTallies shop cart shop.lookupBatch (sellerIds shop cart)
    | .ok (.passed tally) => [tally]
    | _ => []

/-- No seller of a batch is left out, so that there will be puts. -/
def Completes : Prop :=
  Batched shop cart → (counted shop cart).length = (sellerIds shop cart).length

end Counted

variable {shop : Shop} {cart : Cart}

/-! ## The invariant of a tally -/

/-- What was counted, with the quantities as the function takes them. -/
structure Tally.Counts (toDouble : Int → ℚ) (taken : UInt32 → ℚ)
    (tally : Tally) : Prop where
  keys : tally.listingCache.map Prod.fst = tally.orderItems.map CartItem.key
  subtotal : tally.subtotal = ((tally.lines toDouble).map fun line =>
    taken line.quantity * line.price).sum
  currency : tally.currency =
    (((tally.lines toDouble).getLast?.map Line.currency).getD "USD")

theorem Tally.Counts.start (toDouble : Int → ℚ) (taken : UInt32 → ℚ) :
    Tally.start.Counts toDouble taken :=
  ⟨rfl, rfl, rfl⟩

theorem Tally.Counts.count {toDouble : Int → ℚ} {taken : UInt32 → ℚ}
    {tally : Tally} (h : tally.Counts toDouble taken) {lookup : Lookup}
    {listing : Json} {currency first : String} {salesPrice : ℚ} {quantity : Int}
    (hoffer : Offer shop lookup listing currency salesPrice quantity)
    (htoDouble : shop.toDouble = toDouble) (item : OrderItem) :
    Tally.Counts toDouble taken ⟨tally.orderItems ++ [item],
      tally.subtotal + taken item.quantity * salesPrice, currency, first,
      tally.listingCache ++ [(item.key, listing)]⟩ := by
  have hlength : tally.orderItems.length = tally.listingCache.length := by
    have hkeys := congrArg List.length h.keys
    rw [List.length_map, List.length_map] at hkeys
    exact hkeys.symm
  have hline : lineOf toDouble item listing =
      ⟨item.quantity, currency, salesPrice⟩ := by
    rw [lineOf, hoffer.currency, ← htoDouble, hoffer.priced]
    rfl
  have hlines : Tally.lines toDouble ⟨tally.orderItems ++ [item],
      tally.subtotal + taken item.quantity * salesPrice, currency, first,
      tally.listingCache ++ [(item.key, listing)]⟩ =
      tally.lines toDouble ++ [⟨item.quantity, currency, salesPrice⟩] := by
    rw [Tally.lines, List.zipWith_append hlength, ← hline]
    rfl
  refine ⟨?_, ?_, ?_⟩
  · rw [List.map_append, List.map_append, h.keys]
    rfl
  · rw [hlines, List.map_append, List.sum_append, ← h.subtotal, List.map_singleton,
      List.sum_singleton]
  · rw [hlines, List.getLast?_concat]
    rfl

theorem checkItems_counts {ownerId : String} {lookup : Nat → String → Lookup}
    {tally next : Tally} {items : List CartItem}
    (hcounts : tally.Counts shop.toDouble fun quantity => quantity.toNat)
    (h : checkItems shop ownerId lookup tally items = .ok (.passed next)) :
    next.Counts shop.toDouble fun quantity => quantity.toNat := by
  induction items generalizing lookup tally with
  | nil =>
      cases h
      exact hcounts
  | cons item items ih =>
      rw [checkItems] at h
      obtain ⟨verdict, hverdict, hrest⟩ := bind_eq_ok.mp h
      cases verdict with
      | refused => cases hrest
      | batch => cases hrest
      | passed middle =>
          rcases checkItem_eq_passed.mp hverdict with
            ⟨_, -, -, rfl⟩ | ⟨_, _, _, _, hoffer, -, -, rfl⟩
          · exact ih hcounts hrest
          · exact ih (hcounts.count hoffer rfl item) hrest

theorem checkBatchItems_counts {sellerId : String}
    {lookup : Nat → String → Lookup} {tally next : Tally}
    {items : List CartItem} (hseller : ∀ item ∈ items, item.sellerId = sellerId)
    (hcounts : tally.Counts shop.toDouble fun quantity => toInt quantity.toNat)
    (h : checkBatchItems shop sellerId lookup tally items = .ok (some next)) :
    next.Counts shop.toDouble fun quantity => toInt quantity.toNat := by
  induction items generalizing lookup tally with
  | nil =>
      cases h
      exact hcounts
  | cons item items ih =>
      obtain rfl := hseller item (List.mem_cons_self ..)
      rw [checkBatchItems] at h
      obtain ⟨checked, hchecked, hrest⟩ := bind_eq_ok.mp h
      cases checked with
      | none => cases hrest
      | some middle =>
          obtain ⟨_, _, _, _, hoffer, -, -, rfl⟩ :=
            checkBatchItem_eq_some.mp hchecked
          rw [toUnsigned_toInt] at hrest
          exact ih (fun other hother => hseller other (List.mem_cons_of_mem _ hother))
            (hcounts.count hoffer rfl item) hrest

theorem passedTallies_counts {lookup : Nat → String → Lookup}
    {sellerIds : List String} :
    ∀ tally ∈ passedTallies shop cart lookup sellerIds,
      tally.Counts shop.toDouble fun quantity => toInt quantity.toNat := by
  induction sellerIds generalizing lookup with
  | nil => exact fun _ h => absurd h List.not_mem_nil
  | cons sellerId sellerIds ih =>
      rw [passedTallies]
      split
      case h_1 tally hchecked =>
        rw [List.forall_mem_cons]
        exact ⟨checkBatchItems_counts itemsOf_seller (Tally.Counts.start _ _) hchecked,
          ih⟩
      case h_2 => exact fun _ h => absurd h List.not_mem_nil

/-! ## Orders and their tallies -/

section Tallies

variable {shippingAddress : String}

theorem batchOrders_tallies {lookup : Nat → String → Lookup} {number : Nat}
    {sellerIds : List String} {found : List Order × List (String × Json)}
    (h : batchOrders shop cart shippingAddress lookup number sellerIds =
      .ok (some found)) :
    (passedTallies shop cart lookup sellerIds).length = sellerIds.length ∧
      ∀ n order, found.1[n]? = some order → ∃ tally,
        (passedTallies shop cart lookup sellerIds)[n]? = some tally ∧
          construct shop cart shippingAddress (number + n) tally = .ok order := by
  induction sellerIds generalizing lookup number found with
  | nil =>
      cases h
      exact ⟨rfl, fun n order horder => by cases horder⟩
  | cons sellerId sellerIds ih =>
      obtain ⟨tally, order, rest, hchecked, horder, hrest, rfl⟩ := batchOrders_cons h
      obtain ⟨hlength, hothers⟩ := ih hrest
      rw [passedTallies, hchecked]
      refine ⟨congrArg Nat.succ hlength, fun n other hother => ?_⟩
      cases n with
      | zero =>
          cases hother
          exact ⟨tally, rfl, horder⟩
      | succ n =>
          obtain ⟨later, hlater, hconstruct⟩ := hothers n other hother
          exact ⟨later, hlater, by rwa [Nat.add_right_comm] at hconstruct⟩

/-- All that were passed give orders when every conversion does. -/
theorem batchOrders_complete {lookup : Nat → String → Lookup} {number : Nat}
    {sellerIds : List String}
    (hlength : (passedTallies shop cart lookup sellerIds).length =
      sellerIds.length)
    (hconstruct : ∀ (n : Nat) (tally : Tally),
      (passedTallies shop cart lookup sellerIds)[n]? = some tally →
        Yields (construct shop cart shippingAddress (number + n) tally)) :
    ∃ found, batchOrders shop cart shippingAddress lookup number sellerIds =
      .ok (some found) := by
  induction sellerIds generalizing lookup number with
  | nil => exact ⟨_, rfl⟩
  | cons sellerId sellerIds ih =>
      rw [passedTallies] at hlength hconstruct
      split at hlength
      case h_1 tally hchecked =>
        rw [hchecked] at hconstruct
        obtain ⟨order, horder⟩ := hconstruct 0 tally rfl
        obtain ⟨found, hfound⟩ : ∃ found, batchOrders shop cart shippingAddress _
            (number + 1) sellerIds = .ok (some found) := by
          refine ih (Nat.succ.inj hlength) fun n other hother => ?_
          rw [Nat.add_right_comm]
          exact hconstruct (n + 1) other hother
        exact ⟨_, bind_eq_ok.mpr ⟨_, hchecked, bind_eq_ok.mpr
          ⟨order, horder, bind_eq_ok.mpr ⟨_, hfound, rfl⟩⟩⟩⟩
      case h_2 => cases hlength

variable (shop) in
theorem placeOrders_orders (display : Except Fault Unit) (number : Nat)
    (placement : Placement) (orders : List Order) :
    (placeOrders shop display number placement orders).puts.map Prod.fst <+:
      placement.puts.map Prod.fst ++ orders := by
  induction orders generalizing number placement with
  | nil => exact List.prefix_append _ _
  | cons order orders ih =>
      have hone : (placement.puts ++ [(order, (shop.put number).accepted)]).map
          Prod.fst ++ orders = placement.puts.map Prod.fst ++ order :: orders := by
        simp
      rw [← hone, placeOrders]
      cases shop.setExpiration number with
      | error fault =>
          rw [hone]
          exact List.prefix_append _ _
      | ok done =>
          dsimp only
          split
          case isTrue => exact List.prefix_append _ _
          case isFalse =>
            cases display with
            | error fault => exact List.prefix_append _ _
            | ok shown => exact ih (number + 1) _

/-- What is counted, what comes of the cart then, and how. -/
inductive CountedCases (shop : Shop) (cart : Cart) (shippingAddress : String) :
    List Tally → Placement → Prop
  | nothing (ending : Except Fault Unit) (hbatched : ¬ Batched shop cart) :
      CountedCases shop cart shippingAddress [] (stay cart ending)
  | batch (hbatched : Batched shop cart) :
      CountedCases shop cart shippingAddress
        (passedTallies shop cart shop.lookupBatch (sellerIds shop cart))
        (createOrderBatch shop cart shippingAddress)
  | stopped (tally : Tally) (fault : Fault) (hbatched : ¬ Batched shop cart)
      (hpassed : checkItems shop cart.ownerId shop.lookup .start cart.contents =
        .ok (.passed tally))
      (hconstruct : construct shop cart shippingAddress 0 tally = .error fault) :
      CountedCases shop cart shippingAddress [tally] (stay cart (.error fault))
  | single (tally : Tally) (order : Order) (display : Except Fault Unit)
      (hbatched : ¬ Batched shop cart)
      (hpassed : checkItems shop cart.ownerId shop.lookup .start cart.contents =
        .ok (.passed tally))
      (hconstruct : construct shop cart shippingAddress 0 tally = .ok order) :
      CountedCases shop cart shippingAddress [tally]
        (placeOrders shop display 0 (stay cart (return ())) [order])

variable (shop cart shippingAddress) in
theorem counted_cases :
    CountedCases shop cart shippingAddress (counted shop cart)
      (createOrder shop cart shippingAddress) := by
  rw [counted, createOrder]
  by_cases hcart : cart.contents = []
  · rw [if_pos hcart, if_pos hcart]
    exact .nothing _ fun hbatched => hbatched.1 hcart
  · rw [if_neg hcart, if_neg hcart]
    have hbatched : ∀ {verdict}, checkItems shop cart.ownerId shop.lookup .start
        cart.contents = verdict → verdict ≠ .ok .batch → ¬ Batched shop cart :=
      fun hverdict hne hbatched => hne (hverdict.symm.trans hbatched.2)
    cases hverdict : checkItems shop cart.ownerId shop.lookup .start
        cart.contents with
    | error fault => exact .nothing _ (hbatched hverdict (by simp))
    | ok verdict =>
        cases verdict with
        | refused => exact .nothing _ (hbatched hverdict (by simp))
        | batch => exact .batch ⟨hcart, hverdict⟩
        | passed tally =>
            have hsingle := hbatched hverdict (by simp)
            dsimp only
            cases hconstruct : construct shop cart shippingAddress 0 tally with
            | error fault =>
                exact .stopped tally fault hsingle hverdict hconstruct
            | ok order => exact .single tally order _ hsingle hverdict hconstruct

/-- What is put is one of the orders. -/
theorem placed_of_placeOrders {display : Except Fault Unit} {orders : List Order}
    {n : Nat} {placed : Order × Bool}
    (h : (placeOrders shop display 0 (stay cart (return ())) orders).puts[n]? =
      some placed) : orders[n]? = some placed.1 := by
  obtain ⟨later, hlater⟩ := placeOrders_orders shop display 0
    (stay cart (return ())) orders
  have hmap := congrArg (Option.map Prod.fst) h
  rw [← List.getElem?_map] at hmap
  change _ = orders at hlater
  rw [← hlater, List.getElem?_append_left, hmap]
  · rfl
  · exact (List.getElem?_eq_some_iff.mp hmap).1

/-- What is put is an order of a tally, and then nothing is left out. -/
theorem createOrder_put {n : Nat} {placed : Order × Bool}
    (h : (createOrder shop cart shippingAddress).puts[n]? = some placed) :
    Completes shop cart ∧ ∃ tally, (counted shop cart)[n]? = some tally ∧
      construct shop cart shippingAddress n tally = .ok placed.1 := by
  have hnone : ∀ ending, (stay cart ending).puts[n]? ≠ some placed :=
    fun ending heq => by cases heq
  rw [Completes]
  have hcases := counted_cases shop cart shippingAddress
  generalize counted shop cart = tallies at hcases ⊢
  generalize createOrder shop cart shippingAddress = placement at hcases h
  cases hcases with
  | nothing => exact absurd h (hnone _)
  | stopped => exact absurd h (hnone _)
  | single tally order display hbatched hpassed hconstruct =>
      have horder := placed_of_placeOrders h
      cases n with
      | succ n => cases horder
      | zero =>
          cases horder
          exact ⟨fun h => absurd h hbatched, tally, rfl, hconstruct⟩
  | batch hbatched =>
      rw [createOrderBatch, if_neg hbatched.1] at h
      dsimp only at h
      split at h
      case h_1 => exact absurd h (hnone _)
      case h_2 => exact absurd h (hnone _)
      case h_3 orders listingCache hfound =>
        obtain ⟨hlength, htallies⟩ := batchOrders_tallies hfound
        obtain ⟨tally, htally, hconstruct⟩ := htallies n _ (placed_of_placeOrders h)
        rw [Nat.zero_add] at hconstruct
        exact ⟨fun _ => hlength, tally, htally, hconstruct⟩

/-- Where the puts go well, every tally is put once all have orders. -/
theorem createOrder_put_of_counted
    (hconfirmed : ∀ number, Confirmed shop number)
    (hcompletes : Completes shop cart)
    (hconstruct : ∀ (n : Nat) (tally : Tally),
      (counted shop cart)[n]? = some tally →
        Yields (construct shop cart shippingAddress n tally))
    {n : Nat} {tally : Tally} (htally : (counted shop cart)[n]? = some tally) :
    ∃ placed, (createOrder shop cart shippingAddress).puts[n]? = some placed := by
  rw [Completes] at hcompletes
  have hcases := counted_cases shop cart shippingAddress
  generalize counted shop cart = tallies at hcases htally hconstruct hcompletes
  generalize createOrder shop cart shippingAddress = placement at hcases ⊢
  cases hcases with
  | nothing => cases htally
  | stopped passed fault hbatched hpassed hfails =>
      obtain ⟨order, horder⟩ := hconstruct 0 passed rfl
      cases horder.symm.trans hfails
  | single passed order display hbatched hpassed horder =>
      cases n with
      | succ n => cases htally
      | zero =>
          rw [← List.head?_eq_getElem?]
          refine Option.isSome_iff_exists.mp ?_
          rw [List.isSome_head?]
          exact fun hnone => placeOrders_first.mp hnone (hconfirmed 0).expires
  | batch hbatched =>
      have hlength := hcompletes hbatched
      obtain ⟨⟨orders, listingCache⟩, hfound⟩ : ∃ found, batchOrders shop cart
        shippingAddress shop.lookupBatch 0 (sellerIds shop cart) =
          .ok (some found) := by
        refine batchOrders_complete hlength fun n tally htally => ?_
        rw [Nat.zero_add]
        exact hconstruct n tally htally
      obtain ⟨-, -, horders, hdisplay⟩ := batchOrders_groups hfound
      rw [createOrderBatch, if_neg hbatched.1]
      dsimp only
      rw [← sellerIds, hfound]
      dsimp only
      rw [(placeOrders_confirmed hdisplay fun n _ => hconfirmed (0 + n)).2]
      have hn : n < orders.length := by
        rw [horders, ← sellerIds, ← hlength]
        exact (List.getElem?_eq_some_iff.mp htally).1
      exact ⟨(orders[n], true), by simp [stay, hn]⟩

end Tallies

/-! ## Subtotals at the rates of the items -/

open Converter

/-- The subtotal is the sum over the items, each converted at its own rate. -/
structure AtOwnRates (upper : String → String)
    (getPrice : Currency → Currency → ℚ) (toDouble : Int → ℚ) (order : Order)
    (tally : Tally) : Prop where
  items : order.items = tally.orderItems
  subtotal : order.subtotal = ((tally.lines toDouble).map fun line =>
    line.quantity.toNat * line.price / rateOf upper getPrice line.currency).sum

/-- Every order that is put has its subtotal at the rates of its items. -/
def PutsAtOwnRates (upper : String → String)
    (getPrice : Currency → Currency → ℚ) (shop : Shop) (cart : Cart)
    (placement : Placement) : Prop :=
  ∀ (n : Nat) (placed : Order × Bool), placement.puts[n]? = some placed →
    ∃ tally, (counted shop cart)[n]? = some tally ∧
      AtOwnRates upper getPrice shop.toDouble placed.1 tally

section Currencies

variable (upper : String → String) (lines : List Line)

def amounts : List (Currency × ℚ) :=
  lines.filterMap fun line => (currencyOf upper line.currency).map fun currency =>
    (currency, line.quantity.toNat * line.price)

/-- Nothing is left in other currencies than that of the last line. -/
def OneCurrency : Prop :=
  ∀ last ∈ lines.getLast?, ∀ currency, currencyOf upper last.currency ≠ some currency →
    amountIn (amounts upper lines) currency = 0

/-- The prices of the quantities that are negative as an `int`. -/
def negativePrices : ℚ :=
  ((lines.filter fun line => 2 ^ 31 ≤ line.quantity.toNat).map Line.price).sum

end Currencies

/-- With positive amounts, all lines have the currency of the last. -/
theorem oneCurrency_iff {upper : String → String} {lines : List Line}
    (hpositive : ∀ line ∈ lines, 0 < line.quantity.toNat * line.price)
    (hsupported : ∀ line ∈ lines, ∃ currency,
      currencyOf upper line.currency = some currency) :
    OneCurrency upper lines ↔ ∀ last ∈ lines.getLast?, ∀ line ∈ lines,
      currencyOf upper line.currency = currencyOf upper last.currency := by
  have hentries : ∀ entry ∈ amounts upper lines, 0 < entry.2 := by
    intro entry hentry
    obtain ⟨line, hline, hmap⟩ := List.mem_filterMap.mp hentry
    obtain ⟨currency, -, rfl⟩ := Option.map_eq_some_iff.mp hmap
    exact hpositive line hline
  refine forall₂_congr fun last hlast => ?_
  constructor
  · intro h line hline
    obtain ⟨currency, hcurrency⟩ := hsupported line hline
    by_contra hne
    rw [hcurrency] at hne
    refine (amountIn_eq_zero_iff hentries).mp (h currency (Ne.symm hne))
      (currency, line.quantity.toNat * line.price) ?_ rfl
    exact List.mem_filterMap.mpr ⟨line, hline, Option.map_eq_some_iff.mpr
      ⟨currency, hcurrency, rfl⟩⟩
  · intro h currency hother
    refine (amountIn_eq_zero_iff hentries).mpr fun entry hentry heq => ?_
    obtain ⟨line, hline, hmap⟩ := List.mem_filterMap.mp hentry
    obtain ⟨own, hown, rfl⟩ := Option.map_eq_some_iff.mp hmap
    exact hother ((h line hline).symm.trans (hown.trans (congrArg some heq)))

section Rates

variable {upper : String → String} {lines : List Line}

theorem sum_toInt (lines : List Line) :
    (lines.map fun line => (toInt line.quantity.toNat : ℚ) * line.price).sum =
      (lines.map fun line => (line.quantity.toNat : ℚ) * line.price).sum -
        2 ^ 32 * negativePrices lines := by
  induction lines with
  | nil => simp [negativePrices]
  | cons line lines ih =>
      have hone : (toInt line.quantity.toNat : ℚ) = line.quantity.toNat -
          if 2 ^ 31 ≤ line.quantity.toNat then 2 ^ 32 else 0 := by
        have hlt := line.quantity.toNat_lt
        have hint : toInt line.quantity.toNat = line.quantity.toNat -
            if 2 ^ 31 ≤ line.quantity.toNat then 2 ^ 32 else 0 := by
          rw [toInt, Int.bmod_def]
          split <;> split <;> omega
        rw [hint]
        push_cast
        rfl
      rw [List.map_cons, List.sum_cons, ih, List.map_cons, List.sum_cons, hone,
        negativePrices, negativePrices, List.filter_cons]
      by_cases hlarge : 2 ^ 31 ≤ line.quantity.toNat
      · simp only [hlarge, decide_true, if_true, List.map_cons, List.sum_cons]
        ring
      · simp only [hlarge, decide_false, Bool.false_eq_true, if_false]
        ring

theorem sum_at_own_rates (getPrice : Currency → Currency → ℚ)
    (hsupported : ∀ line ∈ lines, ∃ currency,
      currencyOf upper line.currency = some currency) :
    (lines.map fun line => line.quantity.toNat * line.price /
        rateOf upper getPrice line.currency).sum =
      converted (getPrice .xmr) (amounts upper lines) := by
  induction lines with
  | nil => rfl
  | cons line lines ih =>
      rw [List.forall_mem_cons] at hsupported
      obtain ⟨⟨currency, hcurrency⟩, hrest⟩ := hsupported
      rw [List.map_cons, List.sum_cons, ih hrest, rateOf, hcurrency]
      unfold amounts
      rw [List.filterMap_cons, hcurrency]
      rfl

theorem at_own_rates_iff {taken : UInt32 → ℚ} {toDouble : Int → ℚ}
    {tally : Tally} (hcounts : tally.Counts toDouble taken)
    (hsupported : ∀ line ∈ tally.lines toDouble, ∃ currency,
      currencyOf upper line.currency = some currency) :
    (∀ getPrice : Currency → Currency → ℚ, (∀ currency, 0 < getPrice .xmr currency) →
        tally.subtotal / rateOf upper getPrice tally.currency =
          ((tally.lines toDouble).map fun line => line.quantity.toNat * line.price /
            rateOf upper getPrice line.currency).sum) ↔
      OneCurrency upper (tally.lines toDouble) ∧
        tally.subtotal = ((tally.lines toDouble).map fun line =>
          (line.quantity.toNat : ℚ) * line.price).sum := by
  cases hlast : (tally.lines toDouble).getLast? with
  | none =>
      have hnil := List.getLast?_eq_none_iff.mp hlast
      have hzero := hcounts.subtotal
      rw [hnil] at hzero
      refine iff_of_true (fun getPrice _ => ?_) ⟨fun last hmem => ?_, ?_⟩
      · rw [hzero, hnil]
        exact zero_div _
      · rw [hlast] at hmem
        cases hmem
      · rw [hzero, hnil]
        rfl
  | some last =>
      obtain ⟨code, hcode⟩ := hsupported last (List.mem_of_getLast? hlast)
      have htotal : ((tally.lines toDouble).map fun line =>
          (line.quantity.toNat : ℚ) * line.price).sum =
          converted (fun _ => 1) (amounts upper (tally.lines toDouble)) := by
        have hown := sum_at_own_rates (fun _ _ => 1) hsupported
        rw [← hown]
        refine congrArg List.sum (List.map_congr_left fun line hline => ?_)
        obtain ⟨currency, hcurrency⟩ := hsupported line hline
        rw [rateOf, hcurrency]
        exact (div_one _).symm
      have hone := converted_at_one_iff (amounts upper (tally.lines toDouble)) code
        tally.subtotal
      have hrate : ∀ getPrice, rateOf upper getPrice tally.currency =
          getPrice .xmr code := by
        intro getPrice
        rw [hcounts.currency, hlast, rateOf]
        change ((currencyOf upper last.currency).map _).getD 0 = _
        rw [hcode]
        rfl
      have hothers : OneCurrency upper (tally.lines toDouble) ↔ ∀ currency,
          currency ≠ code →
            amountIn (amounts upper (tally.lines toDouble)) currency = 0 := by
        rw [OneCurrency, hlast]
        simp only [Option.mem_some_iff, forall_eq', hcode, ne_eq, Option.some.injEq]
        exact forall_congr' fun currency => imp_congr (not_congr eq_comm) Iff.rfl
      rw [hothers, htotal, ← hone]
      constructor
      · intro h rate hpositive
        have hrates := h (fun _ => rate) hpositive
        rwa [hrate, sum_at_own_rates _ hsupported] at hrates
      · intro h getPrice hpositive
        rw [hrate, sum_at_own_rates _ hsupported]
        exact h (getPrice .xmr) hpositive

end Rates

/-! ## Orders in one currency -/

section Quoting

variable {upper : String → String} {getPrice : Nat → Currency → Currency → ℚ}
  {byZero : ℚ → Except Fault ℚ} {setExpiration : Nat → Except Fault Unit}
  {put : Nat → PutReply} {shippingAddress : String}

theorem checkItems_quoting {ownerId : String} {lookup : Nat → String → Lookup}
    {tally : Tally} {items : List CartItem} :
    checkItems (shop.quoting upper getPrice byZero setExpiration put) ownerId lookup
      tally items = checkItems shop ownerId lookup tally items := by
  induction items generalizing lookup tally with
  | nil => rfl
  | cons item items ih =>
      rw [checkItems, checkItems]
      refine bind_congr fun verdict => ?_
      cases verdict <;> first | rfl | exact ih

theorem checkBatchItems_quoting {sellerId : String}
    {lookup : Nat → String → Lookup} {tally : Tally} {items : List CartItem} :
    checkBatchItems (shop.quoting upper getPrice byZero setExpiration put) sellerId
      lookup tally items = checkBatchItems shop sellerId lookup tally items := by
  induction items generalizing lookup tally with
  | nil => rfl
  | cons item items ih =>
      rw [checkBatchItems, checkBatchItems]
      refine bind_congr fun checked => ?_
      cases checked <;> first | rfl | exact ih

theorem passedTallies_quoting {lookup : Nat → String → Lookup}
    {sellerIds : List String} :
    passedTallies (shop.quoting upper getPrice byZero setExpiration put) cart lookup
      sellerIds = passedTallies shop cart lookup sellerIds := by
  induction sellerIds generalizing lookup with
  | nil => rfl
  | cons sellerId sellerIds ih =>
      simp only [passedTallies, checkBatchItems_quoting, ih]

theorem counted_quoting :
    counted (shop.quoting upper getPrice byZero setExpiration put) cart =
      counted shop cart := by
  rw [counted, counted, checkItems_quoting, passedTallies_quoting]
  rfl

theorem completes_quoting :
    Completes (shop.quoting upper getPrice byZero setExpiration put) cart ↔
      Completes shop cart := by
  rw [Completes, Completes, Batched, Batched, checkItems_quoting, counted_quoting]
  rfl

theorem construct_quoting {tally : Tally} {number : Nat}
    (h : ConvertsAt upper getPrice number tally.currency) :
    ∃ order, construct (shop.quoting upper getPrice byZero setExpiration put) cart
        shippingAddress number tally = .ok order ∧
      order.items = tally.orderItems ∧
      order.subtotal =
        tally.subtotal / rateOf upper (getPrice (4 * number)) tally.currency := by
  have hconvert : ∀ k < 4, ∀ amount, (shop.quoting upper getPrice byZero
      setExpiration put).convertToXmr (4 * number + k) amount tally.currency =
        .ok (amount / rateOf upper (getPrice (4 * number + k)) tally.currency) :=
    fun k hk => convertToXmr_eq (h k hk) byZero
  have hfirst := hconvert 0 (by decide)
  rw [Nat.add_zero] at hfirst
  unfold construct
  simp only [hfirst, hconvert 1 (by decide), hconvert 2 (by decide),
    hconvert 3 (by decide)]
  exact ⟨_, rfl, rfl, rfl⟩

theorem converts_of_pos {getPrice : Currency → Currency → ℚ}
    (h : ∀ currency, 0 < getPrice .xmr currency) (code : String) :
    Converts upper getPrice code :=
  fun currency _ => (h currency).ne'

theorem confirmed_quoting (number : Nat) :
    Confirmed (shop.quoting upper getPrice byZero (fun _ => .ok ())
      fun _ => ⟨true, true⟩) number :=
  ⟨⟨(), rfl⟩, rfl, rfl⟩

/-- With puts that go well, everything that is counted is put. -/
theorem exists_put_quoting
    (hconverts : ∀ (n : Nat) (tally : Tally),
      (counted shop cart)[n]? = some tally →
        ConvertsAt upper getPrice n tally.currency)
    (hcompletes : Completes shop cart) {n : Nat} {tally : Tally}
    (htally : (counted shop cart)[n]? = some tally) :
    ∃ placed, (createOrder (shop.quoting upper getPrice .ok (fun _ => .ok ())
      fun _ => ⟨true, true⟩) cart shippingAddress).puts[n]? = some placed := by
  rw [← completes_quoting] at hcompletes
  rw [← counted_quoting] at htally hconverts
  refine createOrder_put_of_counted confirmed_quoting hcompletes ?_ htally
  intro n tally hn
  obtain ⟨order, horder, -⟩ := construct_quoting (hconverts n tally hn)
  exact ⟨order, horder⟩

/-- What is put has its items and its subtotal from what is counted. -/
theorem put_quoting
    (hconverts : ∀ (n : Nat) (tally : Tally),
      (counted shop cart)[n]? = some tally →
        ConvertsAt upper getPrice n tally.currency)
    {n : Nat} {placed : Order × Bool}
    (hplaced : (createOrder (shop.quoting upper getPrice byZero setExpiration put) cart
      shippingAddress).puts[n]? = some placed) :
    Completes shop cart ∧ ∃ tally, (counted shop cart)[n]? = some tally ∧
      placed.1.items = tally.orderItems ∧
      placed.1.subtotal =
        tally.subtotal / rateOf upper (getPrice (4 * n)) tally.currency := by
  obtain ⟨hcompletes, tally, htally, horder⟩ := createOrder_put hplaced
  rw [counted_quoting] at htally
  obtain ⟨order, hok, hitems, hsubtotal⟩ :=
    construct_quoting (hconverts n tally htally)
  cases hok.symm.trans horder
  exact ⟨completes_quoting.mp hcompletes, tally, htally, hitems, hsubtotal⟩

end Quoting

section Trading

variable {upper : String → String}

/-- A counted tally adds up the right amounts, apart from negative quantities. -/
theorem counted_sum {tally : Tally} (htally : tally ∈ counted shop cart) :
    ∃ taken, tally.Counts shop.toDouble taken ∧
      (tally.subtotal = ((tally.lines shop.toDouble).map fun line =>
          (line.quantity.toNat : ℚ) * line.price).sum ↔
        (Batched shop cart → negativePrices (tally.lines shop.toDouble) = 0)) := by
  have hcases := counted_cases shop cart ""
  generalize counted shop cart = tallies at hcases htally
  generalize createOrder shop cart "" = placement at hcases
  have hsingle : ∀ {passed}, ¬ Batched shop cart →
      checkItems shop cart.ownerId shop.lookup .start cart.contents =
        .ok (.passed passed) → tally ∈ [passed] →
      ∃ taken, tally.Counts shop.toDouble taken ∧
        (tally.subtotal = ((tally.lines shop.toDouble).map fun line =>
            (line.quantity.toNat : ℚ) * line.price).sum ↔
          (Batched shop cart → negativePrices (tally.lines shop.toDouble) = 0)) := by
    intro passed hbatched hpassed hmem
    rw [List.mem_singleton.mp hmem]
    have hcounts := checkItems_counts (Tally.Counts.start _ _) hpassed
    exact ⟨_, hcounts, iff_of_true hcounts.subtotal fun h => absurd h hbatched⟩
  cases hcases with
  | nothing => exact absurd htally List.not_mem_nil
  | stopped passed fault hbatched hpassed => exact hsingle hbatched hpassed htally
  | single passed order display hbatched hpassed =>
      exact hsingle hbatched hpassed htally
  | batch hbatched =>
      have hcounts := passedTallies_counts tally htally
      refine ⟨_, hcounts, ?_⟩
      rw [hcounts.subtotal, sum_toInt, sub_eq_self, mul_eq_zero,
        or_iff_right (by norm_num)]
      exact ⟨fun h _ => h, fun h => h hbatched⟩

/-- Whatever the rates are and however the puts end, subtotals are at the rates
of the items exactly where nothing is left in other currencies than the last. -/
theorem subtotals_at_own_rates_iff (upper : String → String) (shop : Shop)
    (cart : Cart) (shippingAddress : String)
    (hsupported : ∀ tally ∈ counted shop cart,
      ∀ line ∈ tally.lines shop.toDouble,
        ∃ currency, currencyOf upper line.currency = some currency) :
    (∀ getPrice : Currency → Currency → ℚ, (∀ currency, 0 < getPrice .xmr currency) →
      ∀ byZero setExpiration put, PutsAtOwnRates upper getPrice shop cart
        (createOrder (shop.trading upper getPrice byZero setExpiration put) cart
          shippingAddress)) ↔
      (Completes shop cart → ∀ tally ∈ counted shop cart,
        OneCurrency upper (tally.lines shop.toDouble) ∧
          (Batched shop cart → negativePrices (tally.lines shop.toDouble) = 0)) := by
  have hiff : ∀ tally ∈ counted shop cart,
      (∀ getPrice : Currency → Currency → ℚ, (∀ currency, 0 < getPrice .xmr currency) →
        tally.subtotal / rateOf upper getPrice tally.currency =
          ((tally.lines shop.toDouble).map fun line =>
            line.quantity.toNat * line.price /
              rateOf upper getPrice line.currency).sum) ↔
        OneCurrency upper (tally.lines shop.toDouble) ∧
          (Batched shop cart → negativePrices (tally.lines shop.toDouble) = 0) := by
    intro tally htally
    obtain ⟨taken, hcounts, hsum⟩ := counted_sum htally
    rw [← hsum]
    exact at_own_rates_iff hcounts (hsupported tally htally)
  have hconverts {getPrice : Currency → Currency → ℚ}
      (hpositive : ∀ currency, 0 < getPrice .xmr currency) (n : Nat)
      (tally : Tally) (_ : (counted shop cart)[n]? = some tally) :
      ConvertsAt upper (fun _ => getPrice) n tally.currency :=
    fun _ _ => converts_of_pos hpositive tally.currency
  constructor
  · intro h hcompletes tally htally
    refine (hiff tally htally).mp fun getPrice hpositive => ?_
    obtain ⟨n, hn⟩ := List.mem_iff_getElem?.mp htally
    obtain ⟨placed, hplaced⟩ :=
      exists_put_quoting (hconverts hpositive) hcompletes hn
    obtain ⟨other, hother, hrates⟩ := h getPrice hpositive _ _ _ n placed hplaced
    obtain ⟨-, made, hmade, -, hsubtotal⟩ :=
      put_quoting (hconverts hpositive) hplaced
    cases hn.symm.trans hother
    cases hn.symm.trans hmade
    rw [← hsubtotal, hrates.subtotal]
  · intro h getPrice hpositive byZero setExpiration put n placed hplaced
    obtain ⟨hcompletes, tally, htally, hitems, hsubtotal⟩ :=
      put_quoting (hconverts hpositive) hplaced
    have hmem := List.mem_of_getElem? htally
    have hright := (hiff tally hmem).mpr (h hcompletes tally hmem) getPrice hpositive
    exact ⟨tally, htally, hitems, hsubtotal.trans hright⟩

end Trading

/-- Two listings, each with its currency, and one price in either. -/
def ofCurrencies (first second : String) : Shop :=
  { ofReply ⟨true, true⟩ with
    env := .ofDocuments
      [("first", .object [("metadata", .string "listing"),
        ("product", .object [("name", .string "name")]),
        ("currency", .string first), ("price", .unsigned 1),
        ("quantity", .unsigned 3)]),
      ("second", .object [("metadata", .string "listing"),
        ("product", .object [("name", .string "name")]),
        ("currency", .string second), ("price", .unsigned 1),
        ("quantity", .unsigned 3)])]
    lookup := fun _ key => .found key
    lookupBatch := fun _ key => .found key }

def cartOfCurrencies : Cart :=
  { cartOfTwo with contents := [⟨"first", 1, "seller"⟩, ⟨"second", 1, "seller"⟩] }

/-- Two hundred dollars or a hundred of another currency for one XMR. -/
def dollarPrice : Currency → Currency → ℚ
  | _, .usd => 200
  | _, _ => 100

theorem dollarPrice_pos (currency : Currency) : 0 < dollarPrice .xmr currency := by
  cases currency <;> norm_num [dollarPrice]

theorem lines_ofCurrencies :
    (∀ tally ∈ counted (ofCurrencies "USD" "USD") cartOfCurrencies,
      tally.lines (ofCurrencies "USD" "USD").toDouble =
        [⟨1, "USD", 1⟩, ⟨1, "USD", 1⟩]) ∧
      currencyOf id "USD" = some .usd := by
  decide

/-- Two dollars are worth a hundredth of an XMR. -/
theorem subtotals_at_own_rates_iff_dollars :
    ((createOrder ((ofCurrencies "USD" "USD").trading id dollarPrice .ok
        (fun _ => .ok ()) fun _ => ⟨true, true⟩) cartOfCurrencies
        "address").puts.map fun placed => placed.1.subtotal) = [1 / 100] ∧
      PutsAtOwnRates id dollarPrice (ofCurrencies "USD" "USD") cartOfCurrencies
        (createOrder ((ofCurrencies "USD" "USD").trading id dollarPrice .ok
          (fun _ => .ok ()) fun _ => ⟨true, true⟩) cartOfCurrencies "address") := by
  refine ⟨by decide +kernel, ?_⟩
  obtain ⟨hlines, husd⟩ := lines_ofCurrencies
  refine (subtotals_at_own_rates_iff id (ofCurrencies "USD" "USD") cartOfCurrencies
    "address" fun tally htally line hline => ?_).mpr (fun _ tally htally => ?_)
    dollarPrice dollarPrice_pos .ok (fun _ => .ok ()) fun _ => ⟨true, true⟩
  · rw [hlines tally htally] at hline
    refine ⟨.usd, ?_⟩
    rcases List.mem_pair.mp hline with rfl | rfl <;> exact husd
  · rw [hlines tally htally]
    refine ⟨fun last hlast currency hother => ?_, fun _ => by decide⟩
    cases hlast
    have hne : Currency.usd ≠ currency := fun heq => hother (heq ▸ husd)
    simp [amounts, husd, amountIn, hne]

/-- A dollar and what is worth two are taken for two of the latter each. -/
theorem subtotal_at_last_rate :
    ((createOrder ((ofCurrencies "USD" "EUR").trading id dollarPrice .ok
        (fun _ => .ok ()) fun _ => ⟨true, true⟩) cartOfCurrencies
        "address").puts.map fun placed => placed.1.subtotal) = [1 / 50] ∧
      ¬ PutsAtOwnRates id dollarPrice (ofCurrencies "USD" "EUR") cartOfCurrencies
        (createOrder ((ofCurrencies "USD" "EUR").trading id dollarPrice .ok
          (fun _ => .ok ()) fun _ => ⟨true, true⟩) cartOfCurrencies "address") := by
  have hrun : ((createOrder ((ofCurrencies "USD" "EUR").trading id dollarPrice .ok
      (fun _ => .ok ()) fun _ => ⟨true, true⟩) cartOfCurrencies
      "address").puts.map fun placed => placed.1.subtotal) = [1 / 50] ∧
      ∀ tally ∈ counted (ofCurrencies "USD" "EUR") cartOfCurrencies,
        ((tally.lines (ofCurrencies "USD" "EUR").toDouble).map fun line =>
          line.quantity.toNat * line.price /
            rateOf id dollarPrice line.currency).sum = 3 / 200 := by
    decide +kernel
  obtain ⟨hputs, hown⟩ := hrun
  refine ⟨hputs, fun h => ?_⟩
  obtain ⟨placed, hplaced, hsubtotal⟩ := List.map_eq_singleton_iff.mp hputs
  obtain ⟨tally, htally, hrates⟩ := h 0 placed (by rw [hplaced]; rfl)
  have hsum := hown tally (List.mem_of_getElem? htally)
  rw [← hrates.subtotal, hsubtotal] at hsum
  norm_num at hsum

end Shop

end Neroshop.Market
