import Neroshop.Market.Pricing

/-!
# Orders without a price

Where no service has a price, `get_price` returns zero, by which
`convert_to_xmr` divides.  Where a currency is not supported, the result is zero
itself.  Neither keeps an order from being put.  Each conversion asks the
services anew, so that they may have a price for one and none for the next.
-/

namespace Neroshop.Market

open Neroshop.Foundation Neroshop.Gui Neroshop.Node Neroshop.Rpc

namespace Converter

/-- The price of the first service that has one. -/
def getPrice (prices : PriceSource → CurrencyPair → Option ℚ)
    (source target : Currency) : ℚ :=
  (fetchPrice prices (source, target)).getD 0

/-- The currency is supported and has a price. -/
def HasPrice (upper : String → String) (getPrice : Currency → Currency → ℚ)
    (code : String) : Prop :=
  ∃ currency, currencyOf upper code = some currency ∧ getPrice .xmr currency ≠ 0

end Converter

namespace Shop

open Converter

/-! ## What is asked of a placement -/

section Asked

variable (upper : String → String) (getPrice : Nat → Currency → Currency → ℚ)

/-- Were a division by zero to throw, it would end the run. -/
def DividesByZero (shop : Shop) (cart : Cart) (shippingAddress : String)
    (setExpiration : Nat → Except Fault Unit) (put : Nat → PutReply) : Prop :=
  ∀ fault, (createOrder (shop.quoting upper getPrice (fun _ => .error fault)
    setExpiration put) cart shippingAddress).ending = .error fault

/-- There is a price at the conversion of the subtotal, and at that of the
total. -/
def PricedAt (number : Nat) (lines : List Line) : Prop :=
  ∀ line ∈ lines, ∀ call ∈ [4 * number, 4 * number + 3],
    HasPrice upper (getPrice call) line.currency

/-- Every item of every order that is put has a price. -/
def PutsPriced (shop : Shop) (cart : Cart) (placement : Placement) : Prop :=
  ∀ (n : Nat) (placed : Order × Bool), placement.puts[n]? = some placed →
    ∃ tally, (counted shop cart)[n]? = some tally ∧
      placed.1.items = tally.orderItems ∧
      PricedAt upper getPrice n (tally.lines shop.toDouble)

/-- The currency that the amounts of some lines are taken to be in. -/
def lastCurrency (lines : List Line) : String :=
  (lines.getLast?.map Line.currency).getD "USD"

end Asked

variable {shop : Shop} {cart : Cart} {shippingAddress : String}

/-! ## Conversions that stop a run -/

section Stopped

variable {fault : Fault}

theorem batchOrders_stopped {lookup : Nat → String → Lookup} {number : Nat}
    {sellerIds : List String}
    (hall : ∀ (n : Nat) (tally : Tally),
      (passedTallies shop cart lookup sellerIds)[n]? = some tally →
        Yields (construct shop cart shippingAddress (number + n) tally) ∨
          construct shop cart shippingAddress (number + n) tally = .error fault)
    (hsome : ∃ (n : Nat) (tally : Tally),
      (passedTallies shop cart lookup sellerIds)[n]? = some tally ∧
        construct shop cart shippingAddress (number + n) tally = .error fault) :
    batchOrders shop cart shippingAddress lookup number sellerIds =
      .error fault := by
  induction sellerIds generalizing lookup number with
  | nil =>
      obtain ⟨n, tally, htally, -⟩ := hsome
      cases htally
  | cons sellerId sellerIds ih =>
      rw [passedTallies] at hall hsome
      rw [batchOrders]
      split at hall
      case h_2 hnone =>
        obtain ⟨n, tally, htally, -⟩ := hsome
        split at htally
        case h_1 other hchecked => exact absurd hchecked (hnone other)
        case h_2 => cases htally
      case h_1 tally hchecked =>
        rw [hchecked] at hsome ⊢
        change construct shop cart shippingAddress number tally >>= _ = _
        rcases hall 0 tally rfl with ⟨order, horder⟩ | hstopped
        · have hothers : ∀ (n : Nat) (other : Tally), (passedTallies shop cart
              (fun n => lookup (n + (itemsOf cart sellerId).length))
                sellerIds)[n]? = some other →
              Yields (construct shop cart shippingAddress (number + 1 + n)
                other) ∨
                construct shop cart shippingAddress (number + 1 + n) other =
                  .error fault := by
            intro n other hother
            rw [Nat.add_right_comm]
            exact hall (n + 1) other hother
          have hrest : ∃ (n : Nat) (other : Tally), (passedTallies shop cart
              (fun n => lookup (n + (itemsOf cart sellerId).length))
                sellerIds)[n]? = some other ∧
              construct shop cart shippingAddress (number + 1 + n) other =
                .error fault := by
            obtain ⟨n, other, hother, hstopped⟩ := hsome
            cases n with
            | zero =>
                cases hother
                exact absurd (hstopped.symm.trans horder) (by simp)
            | succ n =>
                refine ⟨n, other, hother, ?_⟩
                rwa [Nat.add_right_comm]
          rw [Nat.add_zero] at horder
          rw [horder]
          change batchOrders shop cart shippingAddress _ (number + 1) sellerIds >>=
            _ = _
          rw [ih hothers hrest]
          rfl
        · rw [Nat.add_zero] at hstopped
          rw [hstopped]
          rfl

theorem createOrder_stopped
    (hall : ∀ (n : Nat) (tally : Tally), (counted shop cart)[n]? = some tally →
      Yields (construct shop cart shippingAddress n tally) ∨
        construct shop cart shippingAddress n tally = .error fault)
    (hsome : ∃ (n : Nat) (tally : Tally), (counted shop cart)[n]? = some tally ∧
      construct shop cart shippingAddress n tally = .error fault) :
    (createOrder shop cart shippingAddress).ending = .error fault := by
  have hcases := counted_cases shop cart shippingAddress
  generalize counted shop cart = tallies at hcases hall hsome
  generalize createOrder shop cart shippingAddress = placement at hcases ⊢
  obtain ⟨n, tally, htally, hstopped⟩ := hsome
  cases hcases with
  | nothing => cases htally
  | stopped passed other hbatched hpassed hother =>
      cases n with
      | succ n => cases htally
      | zero =>
          cases htally
          rw [Except.error.inj (hother.symm.trans hstopped)]
          rfl
  | single passed order display hbatched hpassed horder =>
      cases n with
      | succ n => cases htally
      | zero =>
          cases htally
          cases horder.symm.trans hstopped
  | batch hbatched =>
      have hbatch : batchOrders shop cart shippingAddress shop.lookupBatch 0
          (sellerIds shop cart) = .error fault := by
        refine batchOrders_stopped (fun m other hother => ?_)
          ⟨n, tally, htally, ?_⟩
        · rw [Nat.zero_add]
          exact hall m other hother
        · rwa [Nat.zero_add]
      rw [createOrderBatch, if_neg hbatched.1]
      dsimp only
      rw [← sellerIds, hbatch]
      rfl

end Stopped

/-! ## Conversions that do not matter -/

section Unaffected

variable {upper : String → String} {getPrice : Nat → Currency → Currency → ℚ}
  {byZero other : ℚ → Except Fault ℚ} {setExpiration : Nat → Except Fault Unit}
  {put : Nat → PutReply}

theorem construct_unaffected {tally : Tally} {number : Nat}
    (h : ConvertsAt upper getPrice number tally.currency) :
    construct (shop.quoting upper getPrice byZero setExpiration put) cart
        shippingAddress number tally =
      construct (shop.quoting upper getPrice other setExpiration put) cart
        shippingAddress number tally := by
  have hsame : ∀ k < 4, ∀ amount, (shop.quoting upper getPrice byZero
      setExpiration put).convertToXmr (4 * number + k) amount tally.currency =
      (shop.quoting upper getPrice other setExpiration put).convertToXmr
        (4 * number + k) amount tally.currency :=
    fun k hk amount => (convertToXmr_eq (h k hk) byZero amount).trans
      (convertToXmr_eq (h k hk) other amount).symm
  have hfirst := hsame 0 (by decide)
  rw [Nat.add_zero] at hfirst
  unfold construct
  simp only [hfirst, hsame 1 (by decide), hsame 2 (by decide),
    hsame 3 (by decide)]
  rfl

theorem batchOrders_unaffected {lookup : Nat → String → Lookup} {number : Nat}
    {sellerIds : List String}
    (h : ∀ (n : Nat) (tally : Tally),
      (passedTallies shop cart lookup sellerIds)[n]? = some tally →
        ConvertsAt upper getPrice (number + n) tally.currency) :
    batchOrders (shop.quoting upper getPrice byZero setExpiration put) cart
        shippingAddress lookup number sellerIds =
      batchOrders (shop.quoting upper getPrice other setExpiration put) cart
        shippingAddress lookup number sellerIds := by
  induction sellerIds generalizing lookup number with
  | nil => rfl
  | cons sellerId sellerIds ih =>
      rw [passedTallies] at h
      rw [batchOrders, batchOrders, checkBatchItems_quoting, checkBatchItems_quoting]
      split at h
      case h_2 hnone =>
        cases hchecked : checkBatchItems shop sellerId lookup .start
            (itemsOf cart sellerId) with
        | error fault => rfl
        | ok checked =>
            cases checked with
            | none => rfl
            | some tally => exact absurd hchecked (hnone tally)
      case h_1 tally hchecked =>
        have hrest : ∀ (n : Nat) (other : Tally), (passedTallies shop cart
            (fun n => lookup (n + (itemsOf cart sellerId).length))
              sellerIds)[n]? = some other →
            ConvertsAt upper getPrice (number + 1 + n) other.currency := by
          intro n other hother
          rw [Nat.add_right_comm]
          exact h (n + 1) other hother
        have hfirst : ConvertsAt upper getPrice number tally.currency :=
          h 0 tally rfl
        rw [hchecked]
        change (construct _ cart shippingAddress number tally >>= fun order => _) =
          construct _ cart shippingAddress number tally >>= fun order => _
        rw [construct_unaffected hfirst, ih hrest]

theorem placeOrders_unaffected (display : Except Fault Unit) (number : Nat)
    (placement : Placement) (orders : List Order) :
    placeOrders (shop.quoting upper getPrice byZero setExpiration put) display number
        placement orders =
      placeOrders (shop.quoting upper getPrice other setExpiration put) display number
        placement orders := by
  induction orders generalizing number placement with
  | nil => rfl
  | cons order orders ih =>
      simp only [placeOrders, ih]
      rfl

theorem createOrderBatch_unaffected
    (h : ∀ (n : Nat) (tally : Tally),
      (passedTallies shop cart shop.lookupBatch (sellerIds shop cart))[n]? =
        some tally → ConvertsAt upper getPrice n tally.currency) :
    createOrderBatch (shop.quoting upper getPrice byZero setExpiration put) cart
        shippingAddress =
      createOrderBatch (shop.quoting upper getPrice other setExpiration put) cart
        shippingAddress := by
  have hbatch : batchOrders (shop.quoting upper getPrice byZero setExpiration put)
      cart shippingAddress shop.lookupBatch 0 (sellerIds shop cart) =
      batchOrders (shop.quoting upper getPrice other setExpiration put) cart
        shippingAddress shop.lookupBatch 0 (sellerIds shop cart) := by
    refine batchOrders_unaffected fun n tally htally => ?_
    rw [Nat.zero_add]
    exact h n tally htally
  rw [createOrderBatch, createOrderBatch]
  refine if_congr Iff.rfl rfl ?_
  dsimp only [quoting] at hbatch ⊢
  rw [← sellerIds, hbatch]
  split
  · rfl
  · rfl
  · exact placeOrders_unaffected _ _ _ _

/-- Where no amount is divided by zero, it does not matter what would come of
it. -/
theorem createOrder_unaffected
    (h : ∀ (n : Nat) (tally : Tally), (counted shop cart)[n]? = some tally →
      ConvertsAt upper getPrice n tally.currency) :
    createOrder (shop.quoting upper getPrice byZero setExpiration put) cart
        shippingAddress =
      createOrder (shop.quoting upper getPrice other setExpiration put) cart
        shippingAddress := by
  have hchecked : ∀ byZero, checkItems (shop.quoting upper getPrice byZero
      setExpiration put) cart.ownerId (shop.quoting upper getPrice byZero
        setExpiration put).lookup .start cart.contents =
      checkItems shop cart.ownerId shop.lookup .start cart.contents :=
    fun _ => checkItems_quoting
  rw [counted] at h
  rw [createOrder, createOrder, hchecked, hchecked]
  refine if_ctx_congr Iff.rfl (fun _ => rfl) fun hcart => ?_
  rw [if_neg hcart] at h
  split at h
  case h_1 hbatch =>
    rw [hbatch]
    exact createOrderBatch_unaffected h
  case h_2 tally hpassed =>
    rw [hpassed]
    dsimp only
    rw [@construct_unaffected shop cart shippingAddress upper getPrice byZero other
      setExpiration put tally 0 (h 0 tally rfl)]
    split
    · rfl
    · exact placeOrders_unaffected _ _ _ _
  case h_3 hbatch hpassed =>
    cases hverdict : checkItems shop cart.ownerId shop.lookup .start cart.contents with
    | error fault => rfl
    | ok verdict =>
        cases verdict with
        | refused => rfl
        | batch => exact absurd hverdict hbatch
        | passed tally => exact absurd hverdict (hpassed tally)

end Unaffected

/-! ## When every order has its price -/

section Priced

variable {upper : String → String} {getPrice : Nat → Currency → Currency → ℚ}
  {setExpiration : Nat → Except Fault Unit} {put : Nat → PutReply}

theorem counted_currency {tally : Tally} (h : tally ∈ counted shop cart) :
    tally.currency = lastCurrency (tally.lines shop.toDouble) := by
  obtain ⟨taken, hcounts, -⟩ := counted_sum h
  exact hcounts.currency

/-- The first division by zero stops the order. -/
theorem construct_stopped {fault : Fault} {tally : Tally} {number : Nat}
    (h : ¬ ConvertsAt upper getPrice number tally.currency) :
    construct (shop.quoting upper getPrice (fun _ => .error fault) setExpiration put)
      cart shippingAddress number tally = .error fault := by
  have hgood : ∀ call, Converts upper (getPrice call) tally.currency →
      ∀ amount, (shop.quoting upper getPrice (fun _ => .error fault)
        setExpiration put).convertToXmr call amount tally.currency =
          .ok (amount / rateOf upper (getPrice call) tally.currency) :=
    fun call hconverts amount =>
      convertToXmr_eq hconverts (fun _ => .error fault) amount
  have hbad : ∀ call, ¬ Converts upper (getPrice call) tally.currency →
      ∀ amount, (shop.quoting upper getPrice (fun _ => .error fault)
        setExpiration put).convertToXmr call amount tally.currency =
          .error fault := by
    intro call hstops amount
    unfold Converts at hstops
    push Not at hstops
    obtain ⟨currency, hcurrency, hzero⟩ := hstops
    change Converter.convertToXmr upper (getPrice call) (fun _ => .error fault)
      amount tally.currency = .error fault
    rw [Converter.convertToXmr, hcurrency]
    exact if_pos hzero
  unfold construct
  by_cases hfirst : Converts upper (getPrice (4 * number)) tally.currency
  swap
  · simp only [hbad _ hfirst]
    rfl
  by_cases hsecond : Converts upper (getPrice (4 * number + 1)) tally.currency
  swap
  · simp only [hgood _ hfirst, hbad _ hsecond]
    rfl
  by_cases hthird : Converts upper (getPrice (4 * number + 2)) tally.currency
  swap
  · simp only [hgood _ hfirst, hgood _ hsecond, hbad _ hthird]
    rfl
  have hfourth : ¬ Converts upper (getPrice (4 * number + 3)) tally.currency := by
    intro hfourth
    refine h fun k hk => ?_
    have hcases : k = 0 ∨ k = 1 ∨ k = 2 ∨ k = 3 := by omega
    rcases hcases with rfl | rfl | rfl | rfl
    · exact hfirst
    · exact hsecond
    · exact hthird
    · exact hfourth
  simp only [hgood _ hfirst, hgood _ hsecond, hgood _ hthird, hbad _ hfourth]
  rfl

theorem dividesByZero_iff :
    DividesByZero upper getPrice shop cart shippingAddress setExpiration put ↔
      ∃ (n : Nat) (tally : Tally), (counted shop cart)[n]? = some tally ∧
        ¬ ConvertsAt upper getPrice n tally.currency := by
  constructor
  · intro h
    by_contra hnone
    push Not at hnone
    have hfirst := h .parseError
    have hsame : createOrder (shop.quoting upper getPrice
          (fun _ => .error .parseError) setExpiration put) cart shippingAddress =
        createOrder (shop.quoting upper getPrice (fun _ => .error .typeError)
          setExpiration put) cart shippingAddress := createOrder_unaffected hnone
    rw [hsame, h .typeError] at hfirst
    cases hfirst
  · rintro ⟨n, tally, htally, hstops⟩ fault
    refine createOrder_stopped (fun m other _ => ?_) ⟨n, tally, ?_, ?_⟩
    · by_cases hconverts : ConvertsAt upper getPrice m other.currency
      · obtain ⟨order, horder, -⟩ := construct_quoting hconverts
        exact .inl ⟨order, horder⟩
      · exact .inr (construct_stopped hconverts)
    · rwa [counted_quoting]
    · exact construct_stopped hstops

/-- The prices of each conversion, from what the services return there. -/
def quotes (prices : Nat → PriceSource → CurrencyPair → Option ℚ) :
    Nat → Currency → Currency → ℚ :=
  fun call => Converter.getPrice (prices call)

end Priced

/-- The first service has a price of XMR in dollars, and no other price. -/
def dollarsOnly : PriceSource → CurrencyPair → Option ℚ
  | .coinMarketCap, (.xmr, .usd) => some 200
  | _, _ => none

/-- The services have the price for the first conversion only. -/
def dollarsOnce (call : Nat) : PriceSource → CurrencyPair → Option ℚ :=
  if call = 0 then dollarsOnly else fun _ _ => none

end Shop

end Neroshop.Market
