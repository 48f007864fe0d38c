import Neroshop.Foundation.Fallback
import Neroshop.Gui.Rates
import Neroshop.Market.Quotes

/-!
# Price services

`get_price` asks eight services in turn.  Each has its own layout of a reply,
and a parser that was written for it.
-/

namespace Neroshop.PriceApi

open Neroshop.Foundation Neroshop.Gui

/-! ## JSON as Qt has it -/

inductive QJsonValue where
  | null
  | bool (value : Bool)
  | double (value : ℚ)
  | string (text : String)
  | array (elements : List QJsonValue)
  | object (fields : List (String × QJsonValue))

abbrev QJsonObject := List (String × QJsonValue)

/-- `json_doc.object()`, which is empty for an array, where the reply is JSON. -/
abbrev Reply := Option QJsonObject

/-- A double: none for an infinite one and for what is not a number. -/
abbrev Double := Option ℚ

/-- An undefined value is `none`. -/
def value (object : QJsonObject) (key : String) : Option QJsonValue :=
  object.lookup key

def isObject : Option QJsonValue → Bool
  | some (.object _) => true
  | _ => false

def isArray : Option QJsonValue → Bool
  | some (.array _) => true
  | _ => false

def toObject : Option QJsonValue → QJsonObject
  | some (.object fields) => fields
  | _ => []

def toArray : Option QJsonValue → List QJsonValue
  | some (.array elements) => elements
  | _ => []

def toDouble : Option QJsonValue → ℚ
  | some (.double number) => number
  | _ => 0

def divide (dividend divisor : ℚ) : Double :=
  if divisor = 0 then none else some (dividend / divisor)

/-! ## The currencies of the services -/

def code (currency : Currency) : String :=
  ((currencyMap.find? fun entry => entry.2 = currency).map Prod.fst).getD ""

def lowerCode (currency : Currency) : String := (code currency).toLower

/-- The currencies with an id, which is a part of the request. -/
def coinMarketCapIds : List Currency :=
  [.usd, .aud, .brl, .cad, .chf, .cny, .eur, .gbp, .hkd, .inr, .jpy, .krw, .mxn,
    .nzd, .php, .rub, .sek, .sgd, .zar, .ngn, .ghs, .btc, .ltc, .xmr, .eth, .wow]

def coinGeckoIds : List (Currency × String) :=
  [(.btc, "bitcoin"), (.eth, "ethereum"), (.ltc, "litecoin"), (.wow, "wownero"),
    (.xmr, "monero")]

def coinTelegraphCurrencies : List (Currency × String) :=
  [(.usd, "USD"), (.aud, "AUD"), (.brl, "BRL"), (.cad, "CAD"), (.chf, "CHF"),
    (.cny, "CNY"), (.eur, "EUR"), (.gbp, "GPB"), (.hkd, "HKD"), (.inr, "INR"),
    (.jpy, "JPY"), (.krw, "KRW"), (.mxn, "MXN"), (.nzd, "NZD"), (.php, "PHP"),
    (.rub, "RUB"), (.sek, "SEK"), (.sgd, "SGD"), (.zar, "ZAR"), (.ngn, "NGN"),
    (.ghs, "GHS"), (.xag, "XAG"), (.xau, "XAU")]

def coinTelegraphCryptos : List (Currency × String) :=
  [(.btc, "BTC"), (.eth, "ETH"), (.xmr, "XMR")]

/-- The currencies that have an id at CryptoRank and at CoinCodex. -/
def rankedCurrencies : List Currency := [.btc, .eth, .xmr]

/-! ## The parsers -/

section Parsers

variable (source target : Currency)

def coinMarketCapPrice (reply : Reply) : Option ℚ := do
  if source ∉ coinMarketCapIds ∨ target ∉ coinMarketCapIds then none
  else
    let root ← reply
    let dataVal := value root "data"
    if ¬ isArray dataVal then none
    else
      let dataArr := toArray dataVal
      if dataArr.isEmpty then none
      else
        let item := toObject dataArr.head?
        let quote := toObject (toArray (value item "quotes")).head?
        if (value quote "price").isNone then none
        else return toDouble (value quote "price")

def coinGeckoPrice (reply : Reply) : Option ℚ := do
  let idFrom ← coinGeckoIds.lookup source
  let root ← reply
  let priceObj := toObject (value root idFrom)
  return toDouble (value priceObj (lowerCode target))

/-- The loop over the rows. -/
def addRow (total : Nat × ℚ) (row : QJsonValue) : Nat × ℚ :=
  let lastPriceObj :=
    toObject (value (toObject (some row)) "lastPriceByAsset")
  if (value lastPriceObj (lowerCode target)).isSome then
    (total.1 + 1, total.2 + toDouble (value lastPriceObj (lowerCode target)))
  else total

def cryptoWatchPrice (reply : Reply) : Option ℚ := do
  let root ← reply
  let dataVal := value root "result"
  if ¬ isObject dataVal then none
  else
    let rowsVal := value (toObject dataVal) "rows"
    if ¬ isArray rowsVal then none
    else
      let (validPrices, sumPrice) := (toArray rowsVal).foldl (addRow target) (0, 0)
      if 0 < validPrices then return sumPrice / validPrices else none

/-- `CRYPTO_TO_ID.at` throws where there is no such currency. -/
def cryptoAt (currency : Currency) : Except Fault String :=
  match coinTelegraphCryptos.lookup currency with
  | some id => .ok id
  | none => .error .outOfBounds

/-- What is read of the `data` of a reply. -/
def coinTelegraphRate (dataObj : QJsonObject) : Except Fault (Option Double) :=
  match coinTelegraphCryptos.lookup source, coinTelegraphCurrencies.lookup source with
  | some id, _ =>
      let cryptoObj := toObject (value dataObj id)
      match coinTelegraphCurrencies.lookup target,
          coinTelegraphCryptos.lookup target with
      | some idTo, _ =>
          let currencyObj := toObject (value cryptoObj idTo)
          if (value currencyObj "price").isNone then .ok none
          else .ok (some (some (toDouble (value currencyObj "price"))))
      | none, some idTo =>
          let usdObj := toObject (value cryptoObj "USD")
          if (value usdObj "price").isNone then .ok none
          else
            let fromPrice := toDouble (value usdObj "price")
            let currencyObj := toObject (value (toObject (value dataObj idTo)) "USD")
            if (value currencyObj "price").isNone then .ok none
            else
              let toPrice := toDouble (value currencyObj "price")
              .ok (some (divide fromPrice toPrice))
      | none, none => .ok none
  | none, some id => do
      let cryptoObj := toObject (value dataObj (← cryptoAt target))
      let currencyObj := toObject (value cryptoObj id)
      if (value currencyObj "price").isNone then return none
      else return some (divide 1 (toDouble (value currencyObj "price")))
  | none, none => .ok none

def isCurrency (currency : Currency) : Bool :=
  (coinTelegraphCurrencies.lookup currency).isSome

def coinTelegraphPrice (reply : Reply) : Except Fault (Option Double) :=
  if isCurrency source && isCurrency target then .ok none
  else
    match reply with
    | none => .ok none
    | some root =>
        let dataVal := value root "data"
        if ¬ isObject dataVal then .ok none
        else coinTelegraphRate source target (toObject dataVal)

def cryptoRankPrice (reply : Reply) : Option ℚ := do
  if source ∉ rankedCurrencies then none
  else
    let root ← reply
    let dataObj := toObject (value root "data")
    let priceObj := toObject (value dataObj "price")
    if (value priceObj (code target)).isNone then none
    else return toDouble (value priceObj (code target))

/-- The target is looked up, and its id is not used. -/
def coinCodexPrice (reply : Reply) : Option ℚ := do
  if source ∉ rankedCurrencies then none
  else
    let root ← reply
    return toDouble (value root "last_price_usd")

def fawazahmed0Price (reply : Reply) : Option ℚ := do
  let root ← reply
  return toDouble (value root (lowerCode target))

/-- `QString::toDouble`, which gives zero for what is not the text of a number. -/
def textToDouble (textNumber : String → Option ℚ) : Option QJsonValue → Option ℚ
  | some (.string text) => some ((textNumber text).getD 0)
  | _ => none

def krakenPrice (textNumber : String → Option ℚ) (reply : Reply) :
    Except Fault (Option ℚ) :=
  match reply with
  | none => .ok none
  | some root => do
      let resultValue := value root "result"
      assertThat (isObject resultValue)
      let resultObj := toObject resultValue
      let objKey := "X" ++ code source ++ ("Z" ++ code target)
      assertThat (isObject (value resultObj objKey))
      let finalObj := toObject (value resultObj objKey)
      return (finalObj.map Prod.fst).findSome? fun key =>
        if isArray (value finalObj key) then
          let priceArray := toArray (value finalObj key)
          if key = "a" then textToDouble textNumber priceArray.head? else none
        else none

end Parsers

def price (textNumber : String → Option ℚ) (service : PriceSource)
    (source target : Currency) (reply : Reply) : Except Fault (Option Double) :=
  match service with
  | .coinMarketCap => .ok ((coinMarketCapPrice source target reply).map some)
  | .coinGecko => .ok ((coinGeckoPrice source target reply).map some)
  | .cryptoWatch => .ok ((cryptoWatchPrice target reply).map some)
  | .coinTelegraph => coinTelegraphPrice source target reply
  | .cryptoRank => .ok ((cryptoRankPrice source target reply).map some)
  | .coinCodex => .ok ((coinCodexPrice source reply).map some)
  | .fawazahmed0 => .ok ((fawazahmed0Price target reply).map some)
  | .kraken => do return (← krakenPrice source target textNumber reply).map some

/-- The price, with the service that it is from; zero where there is none. -/
def getPrice (textNumber : String → Option ℚ) (replies : PriceSource → Reply)
    (source target : Currency) : Except Fault (Option PriceSource × Double) := do
  match ← firstRead (fun service => price textNumber service source target
      (replies service)) sourcesToUse with
  | some (service, found) => return (some service, found)
  | none => return (none, some 0)

/-! ## What the replies contain -/

inductive Step where
  | key (name : String)
  | first

/-- What is at the end of a path, if the reply has it. -/
def follow (root : QJsonObject) (path : List Step) : Option QJsonValue :=
  path.foldl (fun current step =>
    match step with
    | .key name => value (toObject current) name
    | .first => (toArray current).head?) (some (.object root))

/-- A price is a positive number. -/
def positive : Option QJsonValue → Option ℚ
  | some (.double number) => if 0 < number then some number else none
  | _ => none

/-- A price that is the text of a number. -/
def positiveText (textNumber : String → Option ℚ) : Option QJsonValue → Option ℚ
  | some (.string text) => (textNumber text).filter (0 < ·)
  | _ => none

section Fields

variable (source target : Currency) (root : QJsonObject)

def coinMarketCapField : Option QJsonValue :=
  follow root [.key "data", .first, .key "quotes", .first, .key "price"]

def coinGeckoField (id : String) : Option QJsonValue :=
  follow root [.key id, .key (lowerCode target)]

/-- The price of the target in a market. -/
def lastPrice (row : QJsonValue) : Option QJsonValue :=
  value (toObject (value (toObject (some row)) "lastPriceByAsset")) (lowerCode target)

def cryptoWatchFields : List QJsonValue :=
  (toArray (follow root [.key "result", .key "rows"])).filterMap (lastPrice target)

def coinTelegraphField (crypto currency : String) : Option QJsonValue :=
  follow root [.key "data", .key crypto, .key currency, .key "price"]

def cryptoRankField : Option QJsonValue :=
  follow root [.key "data", .key "price", .key (code target)]

def krakenField : Option QJsonValue :=
  follow root [.key "result", .key ("X" ++ code source ++ ("Z" ++ code target)),
    .key "a", .first]

end Fields

/-- The mean of the prices of the markets. -/
def mean (prices : List ℚ) : Option ℚ :=
  if prices = [] then none else some (prices.sum / prices.length)

/-- The price of one unit of the source in units of the target that a reply
contains. -/
def listedPrice (textNumber : String → Option ℚ) (service : PriceSource)
    (source target : Currency) (reply : Reply) : Option ℚ := do
  let root ← reply
  match service with
  | .coinMarketCap =>
      if source ∈ coinMarketCapIds ∧ target ∈ coinMarketCapIds then
        positive (coinMarketCapField root)
      else none
  | .coinGecko =>
      (coinGeckoIds.lookup source).bind fun id =>
        positive (coinGeckoField target root id)
  | .cryptoWatch =>
      mean ((cryptoWatchFields target root).filterMap fun field =>
        positive (some field))
  | .coinTelegraph =>
      match coinTelegraphCryptos.lookup source,
          coinTelegraphCryptos.lookup target with
      | some id, some idTo =>
          (positive (coinTelegraphField root id "USD")).bind fun number =>
            (positive (coinTelegraphField root idTo "USD")).map fun numberTo =>
              number / numberTo
      | some id, none =>
          (coinTelegraphCurrencies.lookup target).bind fun _ =>
            positive (coinTelegraphField root id (code target))
      | none, some idTo =>
          (coinTelegraphCurrencies.lookup source).bind fun _ =>
            (positive (coinTelegraphField root idTo (code source))).map (1 / ·)
      | none, none => none
  | .cryptoRank =>
      if source ∈ rankedCurrencies then positive (cryptoRankField target root)
      else none
  | .coinCodex =>
      if source ∈ rankedCurrencies ∧ target = .usd then
        positive (value root "last_price_usd")
      else none
  | .fawazahmed0 => positive (value root (lowerCode target))
  | .kraken => positiveText textNumber (krakenField source target root)

/-! ## What the parsers make of them -/

/-- There is something where a price should be. -/
def NoPrice (field : Option QJsonValue) : Prop :=
  field.isSome = true ∧ positive field = none

/-- CoinTelegraph has another code for pounds, and no id for two currencies that
it is asked for. -/
def TelegraphDistorts (source target : Currency) (root : QJsonObject) : Prop :=
  match coinTelegraphCryptos.lookup source, coinTelegraphCryptos.lookup target with
  | some id, some idTo =>
      (coinTelegraphField root id "USD").isSome = true ∧
        (coinTelegraphField root idTo "USD").isSome = true ∧
        (positive (coinTelegraphField root id "USD") = none ∨
          positive (coinTelegraphField root idTo "USD") = none)
  | some id, none => ∃ currency, coinTelegraphCurrencies.lookup target = some currency ∧
      (coinTelegraphField root id currency).map (toDouble ∘ some) ≠
        positive (coinTelegraphField root id (code target))
  | none, some idTo => ∃ currency, coinTelegraphCurrencies.lookup source = some currency ∧
      (coinTelegraphField root idTo currency).map (toDouble ∘ some) ≠
        positive (coinTelegraphField root idTo (code source))
  | none, none => (coinTelegraphCurrencies.lookup source).isSome = true ∧
      coinTelegraphCurrencies.lookup target = none ∧
      isObject (value root "data") = true

/-- The parser makes something else of a reply than the price that it contains:
of what is no positive number, or is absent, or is in another unit, and where
it asserts that there is no error. -/
def Distorts (textNumber : String → Option ℚ) (service : PriceSource)
    (source target : Currency) (reply : Reply) : Prop :=
  ∃ root, reply = some root ∧
    match service with
    | .coinMarketCap => source ∈ coinMarketCapIds ∧ target ∈ coinMarketCapIds ∧
        NoPrice (coinMarketCapField root)
    | .coinGecko => ∃ id, coinGeckoIds.lookup source = some id ∧
        positive (coinGeckoField target root id) = none
    | .cryptoWatch => ∃ field ∈ cryptoWatchFields target root,
        NoPrice (some field)
    | .coinTelegraph => TelegraphDistorts source target root
    | .cryptoRank => source ∈ rankedCurrencies ∧
        NoPrice (cryptoRankField target root)
    | .coinCodex => source ∈ rankedCurrencies ∧
        (target = .usd → positive (value root "last_price_usd") = none)
    | .fawazahmed0 => positive (value root (lowerCode target)) = none
    | .kraken => isObject (follow root [.key "result"]) = false ∨
        isObject (follow root [.key "result",
          .key ("X" ++ code source ++ ("Z" ++ code target))]) = false ∨
        ∃ text, krakenField source target root = some (.string text) ∧
          (textNumber text).filter (0 < ·) = none

section Readings

variable {source target : Currency} {root : QJsonObject}

theorem toDouble_of_positive {field : Option QJsonValue} {number : ℚ}
    (h : positive field = some number) :
    field.map (toDouble ∘ some) = some number ∧ 0 < number := by
  match field, h with
  | some (.double other), h =>
      rw [positive] at h
      split at h
      case isTrue hpositive =>
        cases h
        exact ⟨rfl, hpositive⟩
      case isFalse => cases h

theorem map_toDouble_ne_iff {field : Option QJsonValue} :
    field.map (toDouble ∘ some) ≠ positive field ↔ NoPrice field := by
  cases hpositive : positive field with
  | some number =>
      rw [(toDouble_of_positive hpositive).1, NoPrice, hpositive]
      simp
  | none => simp [NoPrice, hpositive, Option.isSome_iff_ne_none]

theorem some_toDouble_ne_iff {field : Option QJsonValue} :
    some (toDouble field) ≠ positive field ↔ positive field = none := by
  cases hpositive : positive field with
  | some number =>
      have hfield := (toDouble_of_positive hpositive).1
      cases field with
      | none => cases hfield
      | some found => simpa using hfield
  | none => simp

theorem toArray_of_not {field : Option QJsonValue} (h : isArray field = false) :
    toArray field = [] := by
  match field, h with
  | none, _ | some .null, _ | some (.bool _), _ | some (.double _), _
  | some (.string _), _ | some (.object _), _ => rfl

theorem toObject_of_not {field : Option QJsonValue} (h : isObject field = false) :
    toObject field = [] := by
  match field, h with
  | none, _ | some .null, _ | some (.bool _), _ | some (.double _), _
  | some (.string _), _ | some (.array _), _ => rfl

/-- Asking for a field that is read anyway is mapping it. -/
theorem isNone_then {field : Option QJsonValue} :
    (if field.isNone then none else some (toDouble field)) =
      field.map (toDouble ∘ some) := by
  cases field <;> rfl

theorem coinMarketCapPrice_eq (source target : Currency) (root : QJsonObject) :
    coinMarketCapPrice source target (some root) =
      if source ∈ coinMarketCapIds ∧ target ∈ coinMarketCapIds then
        (coinMarketCapField root).map (toDouble ∘ some)
      else none := by
  rw [coinMarketCapPrice]
  refine (if_ctx_congr not_and_or.symm (fun _ => rfl) fun _ => rfl).trans ?_
  rw [ite_not]
  refine if_ctx_congr Iff.rfl (fun _ => ?_) fun _ => rfl
  have hfield : coinMarketCapField root = value (toObject (toArray (value
      (toObject (toArray (value root "data")).head?) "quotes")).head?) "price" := rfl
  rw [hfield, ← isNone_then]
  simp only [Option.bind_eq_bind, Option.bind_some]
  cases harray : isArray (value root "data") with
  | false =>
      rw [toArray_of_not harray]
      rfl
  | true => cases toArray (value root "data") <;> rfl

theorem cryptoRankPrice_eq (source target : Currency) (root : QJsonObject) :
    cryptoRankPrice source target (some root) =
      if source ∈ rankedCurrencies then
        (cryptoRankField target root).map (toDouble ∘ some)
      else none := by
  rw [cryptoRankPrice, ite_not, ← isNone_then]
  rfl

theorem foldl_addRow (rows : List QJsonValue) (count : Nat) (sum : ℚ) :
    rows.foldl (addRow target) (count, sum) =
      (count + (rows.filterMap (lastPrice target)).length,
        sum + ((rows.filterMap (lastPrice target)).map (toDouble ∘ some)).sum) := by
  induction rows generalizing count sum with
  | nil => simp
  | cons row rows ih =>
      have hrow : addRow target (count, sum) row =
          if (lastPrice target row).isSome then
            (count + 1, sum + toDouble (lastPrice target row))
          else (count, sum) := rfl
      rw [List.foldl_cons, List.filterMap_cons, hrow]
      cases lastPrice target row with
      | none => exact ih count sum
      | some found =>
          simp only [Option.isSome_some, if_true, ih, List.length_cons, List.map_cons,
            List.sum_cons, Function.comp_apply, add_assoc, Nat.add_comm 1]

theorem cryptoWatchPrice_eq (target : Currency) (root : QJsonObject) :
    cryptoWatchPrice target (some root) =
      mean ((cryptoWatchFields target root).map (toDouble ∘ some)) := by
  have hrows : ∀ rows : List QJsonValue,
      (let (validPrices, sumPrice) := rows.foldl (addRow target) (0, 0)
        if 0 < validPrices then some (sumPrice / validPrices) else none) =
      mean ((rows.filterMap (lastPrice target)).map (toDouble ∘ some)) := by
    intro rows
    rw [foldl_addRow, mean]
    simp only [zero_add, List.map_eq_nil_iff, List.length_map]
    cases rows.filterMap (lastPrice target) <;> simp
  have hfields : cryptoWatchFields target root = (toArray (value (toObject
      (value root "result")) "rows")).filterMap (lastPrice target) := rfl
  rw [hfields, ← hrows, cryptoWatchPrice]
  simp only [Option.bind_eq_bind, Option.bind_some]
  cases hresult : isObject (value root "result") with
  | false =>
      rw [toObject_of_not hresult]
      rfl
  | true =>
      cases hrows : isArray (value (toObject (value root "result")) "rows") with
      | false =>
          rw [toArray_of_not hrows]
          rfl
      | true => rfl

theorem toDouble_of_not_positive {field : QJsonValue}
    (h : positive (some field) = none) : toDouble (some field) ≤ 0 := by
  cases field with
  | double number =>
      rw [positive] at h
      split at h
      case isTrue => cases h
      case isFalse hpositive => exact not_lt.mp hpositive
  | _ => exact le_rfl

theorem positives_of_all {fields : List QJsonValue}
    (h : ∀ field ∈ fields, ¬ NoPrice (some field)) :
    fields.filterMap (fun field => positive (some field)) =
      fields.map (toDouble ∘ some) := by
  rw [← List.filterMap_eq_map]
  refine List.filterMap_congr fun field hfield => ?_
  exact (not_not.mp (mt map_toDouble_ne_iff.mp (h field hfield))).symm

/-- The fields that are no prices take away from the sum, if anything. -/
theorem sum_toDouble_le (fields : List QJsonValue) :
    (fields.map (toDouble ∘ some)).sum ≤
      (fields.filterMap fun field => positive (some field)).sum := by
  induction fields with
  | nil => exact le_rfl
  | cons field fields ih =>
      rw [List.map_cons, List.sum_cons, List.filterMap_cons]
      cases hpositive : positive (some field) with
      | none =>
          have hnegative := toDouble_of_not_positive hpositive
          dsimp only [Function.comp_apply]
          linarith
      | some number =>
          have hnumber := (toDouble_of_positive hpositive).1
          rw [Option.map_some, Option.some.injEq] at hnumber
          rw [hnumber, List.sum_cons]
          linarith

theorem mean_ne_iff (fields : List QJsonValue) :
    mean (fields.map (toDouble ∘ some)) ≠
        mean (fields.filterMap fun field => positive (some field)) ↔
      ∃ field ∈ fields, NoPrice (some field) := by
  constructor
  · intro h
    by_contra hall
    push Not at hall
    rw [positives_of_all hall] at h
    exact h rfl
  · rintro ⟨field, hfield, -, hnone⟩ heq
    have hfields : fields ≠ [] := List.ne_nil_of_mem hfield
    rw [mean, if_neg (by simpa using hfields), mean] at heq
    split at heq
    case isTrue => cases heq
    case isFalse hpositives =>
      have hsum := sum_toDouble_le fields
      have hless : (fields.filterMap fun field => positive (some field)).length <
          fields.length := by
        refine lt_of_le_of_ne (List.length_filterMap_le _ _) fun hsame => ?_
        have hsome := List.filterMap_length_eq_length.mp hsame field hfield
        rw [hnone] at hsome
        cases hsome
      have hall : ∀ number ∈ fields.filterMap (fun field => positive (some field)),
          0 < number := by
        intro number hnumber
        obtain ⟨other, -, hother⟩ := List.mem_filterMap.mp hnumber
        exact (toDouble_of_positive hother).2
      have hpos := List.sum_pos _ hall hpositives
      have hcount : (0 : ℚ) <
          (fields.filterMap fun field => positive (some field)).length := by
        exact_mod_cast List.length_pos_iff.mpr hpositives
      have hcast : ((fields.filterMap fun field => positive (some field)).length : ℚ) <
          fields.length := by
        exact_mod_cast hless
      rw [List.length_map, Option.some.injEq] at heq
      have hmean := div_lt_div_of_pos_left hpos hcount hcast
      have hle := div_le_div_of_nonneg_right hsum (hcount.trans hcast).le
      linarith

/-! ## Reading and contents -/

/-- The loop over the keys finds the one that it is after. -/
theorem findSome?_keys (textNumber : String → Option ℚ) (object : QJsonObject) :
    ((object.map Prod.fst).findSome? fun key =>
      if isArray (value object key) then
        let priceArray := toArray (value object key)
        if key = "a" then textToDouble textNumber priceArray.head? else none
      else none) = textToDouble textNumber (toArray (value object "a")).head? := by
  cases hfound : (object.map Prod.fst).findSome? fun key =>
      if isArray (value object key) then
        let priceArray := toArray (value object key)
        if key = "a" then textToDouble textNumber priceArray.head? else none
      else none with
  | some number =>
      obtain ⟨key, -, hkey⟩ := List.exists_of_findSome?_eq_some hfound
      dsimp only at hkey
      split at hkey
      case isFalse => cases hkey
      case isTrue =>
        split at hkey
        case isFalse => cases hkey
        case isTrue ha => rw [← ha, hkey]
  | none =>
      cases hvalue : value object "a" with
      | none => rfl
      | some element =>
          have hmem : "a" ∈ object.map Prod.fst := by
            obtain ⟨front, back, hsplit, -⟩ := List.lookup_eq_some_iff.mp hvalue
            rw [hsplit]
            simp
          have hkey := List.findSome?_eq_none_iff.mp hfound "a" hmem
          rw [hvalue] at hkey
          cases harray : isArray (some element) with
          | false =>
              rw [toArray_of_not harray]
              rfl
          | true =>
              rw [if_pos harray] at hkey
              exact hkey.symm

theorem krakenPrice_eq (textNumber : String → Option ℚ) (source target : Currency)
    (root : QJsonObject) :
    krakenPrice source target textNumber (some root) =
      if isObject (follow root [.key "result"]) = true ∧
          isObject (follow root [.key "result",
            .key ("X" ++ code source ++ ("Z" ++ code target))]) = true then
        .ok (textToDouble textNumber (krakenField source target root))
      else .error .assertionFailed := by
  have hroot : follow root [.key "result"] = value root "result" := rfl
  have hpair : follow root [.key "result",
      .key ("X" ++ code source ++ ("Z" ++ code target))] =
      value (toObject (value root "result"))
        ("X" ++ code source ++ ("Z" ++ code target)) := rfl
  have hfield : krakenField source target root = (toArray (value (toObject (value
      (toObject (value root "result"))
        ("X" ++ code source ++ ("Z" ++ code target)))) "a")).head? := rfl
  rw [krakenPrice, hroot, hpair, hfield]
  dsimp only
  rw [findSome?_keys]
  cases isObject (value root "result") with
  | false => rfl
  | true =>
      cases isObject (value (toObject (value root "result"))
        ("X" ++ code source ++ ("Z" ++ code target))) <;> rfl

theorem cryptos_disjoint {currency : Currency} {id : String}
    (h : coinTelegraphCryptos.lookup currency = some id) :
    coinTelegraphCurrencies.lookup currency = none := by
  cases currency <;> first | rfl | cases h

theorem coinTelegraphField_of_not {root : QJsonObject}
    (h : isObject (value root "data") = false) (crypto currency : String) :
    coinTelegraphField root crypto currency = none := by
  have hfield : coinTelegraphField root crypto currency =
      value (toObject (value (toObject (value (toObject (value root "data")) crypto))
        currency)) "price" := rfl
  rw [hfield, toObject_of_not h]
  rfl

theorem coinTelegraphPrice_eq {source target : Currency}
    (h : coinTelegraphCurrencies.lookup source = none ∨
      coinTelegraphCurrencies.lookup target = none) (root : QJsonObject) :
    coinTelegraphPrice source target (some root) =
      if isObject (value root "data") = true then
        coinTelegraphRate source target (toObject (value root "data"))
      else .ok none := by
  have hnot : (isCurrency source && isCurrency target) = false := by
    rcases h with h | h <;> simp [isCurrency, h]
  rw [coinTelegraphPrice, hnot, if_neg Bool.false_ne_true, ite_not]

/-- One unit of a crypto currency in a currency. -/
theorem coinTelegraphPrice_of_crypto {source target : Currency} {id currency : String}
    (hsource : coinTelegraphCryptos.lookup source = some id)
    (htarget : coinTelegraphCurrencies.lookup target = some currency)
    (root : QJsonObject) :
    coinTelegraphPrice source target (some root) =
      .ok (((coinTelegraphField root id currency).map (toDouble ∘ some)).map some) := by
  rw [coinTelegraphPrice_eq (.inl (cryptos_disjoint hsource))]
  split
  case isFalse hdata =>
    rw [coinTelegraphField_of_not (Bool.eq_false_iff.mpr hdata)]
    rfl
  case isTrue =>
    rw [coinTelegraphRate, hsource, htarget]
    change (if (coinTelegraphField root id currency).isNone then _ else
      Except.ok (some (some (toDouble (coinTelegraphField root id currency))))) = _
    cases coinTelegraphField root id currency <;> rfl

/-- One unit of a currency in a crypto currency. -/
theorem coinTelegraphPrice_of_currency {source target : Currency}
    {id currency : String}
    (hsource : coinTelegraphCurrencies.lookup source = some currency)
    (htarget : coinTelegraphCryptos.lookup target = some id) (root : QJsonObject) :
    coinTelegraphPrice source target (some root) =
      .ok ((coinTelegraphField root id currency).map (divide 1 ∘ toDouble ∘ some)) := by
  have hcrypto : coinTelegraphCryptos.lookup source = none := by
    cases hlookup : coinTelegraphCryptos.lookup source with
    | none => rfl
    | some other => cases (cryptos_disjoint hlookup).symm.trans hsource
  rw [coinTelegraphPrice_eq (.inr (cryptos_disjoint htarget))]
  split
  case isFalse hdata =>
    rw [coinTelegraphField_of_not (Bool.eq_false_iff.mpr hdata)]
    rfl
  case isTrue =>
    rw [coinTelegraphRate, hcrypto, hsource]
    dsimp only
    rw [cryptoAt, htarget]
    change (if (coinTelegraphField root id currency).isNone then _ else
      pure (some (divide 1 (toDouble (coinTelegraphField root id currency))))) = _
    cases coinTelegraphField root id currency <;> rfl

/-- One unit of a crypto currency in another one. -/
theorem coinTelegraphPrice_of_cryptos {source target : Currency} {id idTo : String}
    (hsource : coinTelegraphCryptos.lookup source = some id)
    (htarget : coinTelegraphCryptos.lookup target = some idTo) (root : QJsonObject) :
    coinTelegraphPrice source target (some root) =
      .ok ((coinTelegraphField root id "USD").bind fun field =>
        (coinTelegraphField root idTo "USD").map fun fieldTo =>
          divide (toDouble (some field)) (toDouble (some fieldTo))) := by
  rw [coinTelegraphPrice_eq (.inl (cryptos_disjoint hsource))]
  split
  case isFalse hdata =>
    rw [coinTelegraphField_of_not (Bool.eq_false_iff.mpr hdata)]
    rfl
  case isTrue =>
    rw [coinTelegraphRate, hsource, htarget, cryptos_disjoint htarget]
    change (if (coinTelegraphField root id "USD").isNone then _ else
      if (coinTelegraphField root idTo "USD").isNone then _ else
        Except.ok (some (divide (toDouble (coinTelegraphField root id "USD"))
          (toDouble (coinTelegraphField root idTo "USD"))))) = _
    cases coinTelegraphField root id "USD" <;>
      cases coinTelegraphField root idTo "USD" <;> rfl

/-- A source that is listed nowhere has no price. -/
theorem coinTelegraphPrice_unlisted {source target : Currency}
    (hcrypto : coinTelegraphCryptos.lookup source = none)
    (hcurrency : coinTelegraphCurrencies.lookup source = none)
    (root : QJsonObject) :
    coinTelegraphPrice source target (some root) = .ok none := by
  rw [coinTelegraphPrice_eq (.inl hcurrency)]
  split
  · rw [coinTelegraphRate, hcrypto, hcurrency]
  · rfl

theorem ok_map_ne_iff {first second : Option ℚ} :
    (Except.ok (first.map some) : Except Fault (Option Double)) ≠
      .ok (second.map some) ↔ first ≠ second := by
  rw [ne_eq, Except.ok.injEq, (Option.map_injective (Option.some_injective ℚ)).eq_iff]

theorem ok_none_iff {held : Option ℚ} (h : held = none) :
    ¬ (Except.ok none : Except Fault (Option Double)) ≠ .ok (held.map some) := by
  rw [h]
  exact not_not_intro rfl

/-- A price the other way round is right where the field is. -/
theorem inverse_ne_iff {field own : Option QJsonValue} :
    (Except.ok (field.map (divide 1 ∘ toDouble ∘ some)) :
        Except Fault (Option Double)) ≠
      .ok (((positive own).map (1 / ·)).map some) ↔
      field.map (toDouble ∘ some) ≠ positive own := by
  rw [not_iff_not, Except.ok.injEq]
  cases field with
  | none =>
      cases positive own <;> simp
  | some found =>
      cases hown : positive own with
      | none => simp
      | some number =>
          have hpositive := (toDouble_of_positive hown).2
          simp only [Option.map_some, Function.comp_apply, Option.some.injEq, divide]
          by_cases hzero : toDouble (some found) = 0
          · rw [if_pos hzero, hzero]
            exact iff_of_false (fun h => by cases h) hpositive.ne
          · rw [if_neg hzero, Option.some.injEq, one_div, one_div, inv_inj]

/-- A quotient of prices is right where both are prices. -/
theorem quotient_ne_iff {field fieldTo : Option QJsonValue} :
    (Except.ok (field.bind fun found => fieldTo.map fun foundTo =>
        divide (toDouble (some found)) (toDouble (some foundTo))) :
          Except Fault (Option Double)) ≠
      .ok (((positive field).bind fun number => (positive fieldTo).map fun numberTo =>
        number / numberTo).map some) ↔
      field.isSome = true ∧ fieldTo.isSome = true ∧
        (positive field = none ∨ positive fieldTo = none) := by
  cases field with
  | none => simp [positive]
  | some found =>
      cases fieldTo with
      | none => cases positive (some found) <;> simp [positive]
      | some foundTo =>
          cases hfound : positive (some found) with
          | none => simp
          | some number =>
              cases hfoundTo : positive (some foundTo) with
              | none => simp
              | some numberTo =>
                  have hsame := (toDouble_of_positive hfound).1
                  obtain ⟨hsameTo, hpositive⟩ := toDouble_of_positive hfoundTo
                  simp only [Option.map_some, Function.comp_apply,
                    Option.some.injEq] at hsame hsameTo
                  simp [hsame, hsameTo, divide, hpositive.ne']

theorem coinTelegraph_ne_iff (textNumber : String → Option ℚ)
    (source target : Currency) (root : QJsonObject) :
    coinTelegraphPrice source target (some root) ≠
        .ok ((listedPrice textNumber .coinTelegraph source target (some root)).map
          some) ↔
      TelegraphDistorts source target root := by
  simp only [listedPrice, Option.bind_eq_bind, Option.bind_some]
  rw [TelegraphDistorts]
  cases hsource : coinTelegraphCryptos.lookup source with
  | some id =>
      cases htarget : coinTelegraphCryptos.lookup target with
      | some idTo =>
          rw [coinTelegraphPrice_of_cryptos hsource htarget]
          exact quotient_ne_iff
      | none =>
          cases hcurrency : coinTelegraphCurrencies.lookup target with
          | some currency =>
              rw [coinTelegraphPrice_of_crypto hsource hcurrency]
              simp only [Option.some.injEq, exists_eq_left', Option.bind_some]
              exact ok_map_ne_iff
          | none =>
              have hread : coinTelegraphPrice source target (some root) = .ok none := by
                rw [coinTelegraphPrice_eq (.inr hcurrency)]
                split
                · rw [coinTelegraphRate, hsource, hcurrency, htarget]
                · rfl
              rw [hread]
              exact iff_of_false (ok_none_iff rfl) fun h => by
                obtain ⟨currency, ⟨⟩, -⟩ := h
  | none =>
      cases htarget : coinTelegraphCryptos.lookup target with
      | some idTo =>
          cases hcurrency : coinTelegraphCurrencies.lookup source with
          | some currency =>
              rw [coinTelegraphPrice_of_currency hcurrency htarget]
              simp only [Option.some.injEq, exists_eq_left', Option.bind_some]
              exact inverse_ne_iff
          | none =>
              rw [coinTelegraphPrice_unlisted hsource hcurrency]
              exact iff_of_false (ok_none_iff rfl) fun h => by
                obtain ⟨currency, ⟨⟩, -⟩ := h
      | none =>
          cases hcurrency : coinTelegraphCurrencies.lookup source with
          | none =>
              rw [coinTelegraphPrice_unlisted hsource hcurrency]
              exact iff_of_false (ok_none_iff rfl) fun h => by cases h.1
          | some currency =>
              cases hother : coinTelegraphCurrencies.lookup target with
              | some currencyTo =>
                  have hread : coinTelegraphPrice source target (some root) =
                      .ok none := by
                    rw [coinTelegraphPrice, isCurrency, isCurrency, hcurrency, hother]
                    rfl
                  rw [hread]
                  exact iff_of_false (ok_none_iff rfl) fun h => by cases h.2.1
              | none =>
                  rw [coinTelegraphPrice_eq (.inr hother)]
                  split
                  case isTrue hdata =>
                    rw [coinTelegraphRate, hsource, hcurrency]
                    dsimp only
                    rw [cryptoAt, htarget]
                    exact iff_of_true (fun h => by cases h) ⟨rfl, rfl, hdata⟩
                  case isFalse hdata =>
                    exact iff_of_false (ok_none_iff rfl) fun h => hdata h.2.2

theorem kraken_ne_iff (textNumber : String → Option ℚ) (field : Option QJsonValue) :
    textToDouble textNumber field ≠ positiveText textNumber field ↔
      ∃ text, field = some (.string text) ∧
        (textNumber text).filter (0 < ·) = none := by
  match field with
  | none | some .null | some (.bool _) | some (.double _) | some (.array _)
  | some (.object _) => simp [textToDouble, positiveText]
  | some (.string text) =>
      simp only [textToDouble, positiveText, Option.some.injEq, QJsonValue.string.injEq,
        exists_eq_left']
      cases textNumber text with
      | none => simp
      | some number => by_cases hpositive : 0 < number <;> simp [Option.filter, hpositive]

theorem price_none (textNumber : String → Option ℚ) (service : PriceSource)
    (source target : Currency) :
    price textNumber service source target none = .ok none := by
  cases service with
  | coinMarketCap =>
      rw [price, coinMarketCapPrice]
      split <;> rfl
  | coinGecko =>
      rw [price, coinGeckoPrice]
      cases coinGeckoIds.lookup source <;> rfl
  | coinTelegraph =>
      rw [price, coinTelegraphPrice]
      split <;> rfl
  | cryptoRank =>
      rw [price, cryptoRankPrice]
      split <;> rfl
  | coinCodex =>
      rw [price, coinCodexPrice]
      split <;> rfl
  | cryptoWatch | fawazahmed0 | kraken => rfl

/-- The parser is off exactly where it distorts the reply. -/
theorem price_ne_iff (textNumber : String → Option ℚ) (service : PriceSource)
    (source target : Currency) (reply : Reply) :
    price textNumber service source target reply ≠
        .ok ((listedPrice textNumber service source target reply).map some) ↔
      Distorts textNumber service source target reply := by
  cases reply with
  | none =>
      rw [price_none]
      exact iff_of_false (ok_none_iff rfl) fun h => by
        obtain ⟨root, ⟨⟩, -⟩ := h
  | some root =>
      simp only [Distorts, Option.some.injEq, exists_eq_left']
      cases service with
      | coinMarketCap =>
          rw [price, ok_map_ne_iff, coinMarketCapPrice_eq, listedPrice]
          simp only [Option.bind_eq_bind, Option.bind_some]
          split
          case isTrue hids => rw [map_toDouble_ne_iff, and_iff_right hids.1, and_iff_right hids.2]
          case isFalse hids =>
            exact iff_of_false (not_not_intro rfl) fun h => hids ⟨h.1, h.2.1⟩
      | coinGecko =>
          rw [price, ok_map_ne_iff, coinGeckoPrice, listedPrice]
          simp only [Option.bind_eq_bind, Option.bind_some]
          cases coinGeckoIds.lookup source with
          | none => simp
          | some id =>
              simp only [Option.bind_some, Option.some.injEq, exists_eq_left']
              exact some_toDouble_ne_iff
      | cryptoWatch =>
          rw [price, ok_map_ne_iff, cryptoWatchPrice_eq, listedPrice]
          simp only [Option.bind_eq_bind, Option.bind_some]
          exact mean_ne_iff _
      | coinTelegraph => exact coinTelegraph_ne_iff textNumber source target root
      | cryptoRank =>
          rw [price, ok_map_ne_iff, cryptoRankPrice_eq, listedPrice]
          simp only [Option.bind_eq_bind, Option.bind_some]
          split
          case isTrue hranked => rw [map_toDouble_ne_iff, and_iff_right hranked]
          case isFalse hranked =>
            exact iff_of_false (not_not_intro rfl) fun h => hranked h.1
      | coinCodex =>
          rw [price, ok_map_ne_iff, coinCodexPrice, ite_not, listedPrice]
          simp only [Option.bind_eq_bind, Option.bind_some]
          by_cases hranked : source ∈ rankedCurrencies
          · rw [if_pos hranked]
            by_cases husd : target = .usd
            · rw [if_pos ⟨hranked, husd⟩, and_iff_right hranked, forall_prop_of_true husd]
              exact some_toDouble_ne_iff
            · rw [if_neg fun h => husd h.2]
              exact iff_of_true (fun h => by cases h) ⟨hranked, fun h => absurd h husd⟩
          · rw [if_neg hranked, if_neg fun h => hranked h.1]
            exact iff_of_false (not_not_intro rfl) fun h => hranked h.1
      | fawazahmed0 =>
          rw [price, ok_map_ne_iff, fawazahmed0Price, listedPrice]
          exact some_toDouble_ne_iff
      | kraken =>
          rw [price, krakenPrice_eq, listedPrice]
          simp only [Option.bind_eq_bind, Option.bind_some]
          split
          case isTrue hobjects =>
            rw [← kraken_ne_iff, hobjects.1, hobjects.2]
            simp only [Bool.true_eq_false, false_or]
            exact ok_map_ne_iff
          case isFalse hobjects =>
            rw [not_and_or, Bool.not_eq_true, Bool.not_eq_true] at hobjects
            exact iff_of_true (fun h => by cases h) (hobjects.imp id .inl)

end Readings

/-! ## The fallback -/

section Fallback

variable (textNumber : String → Option ℚ) (replies : PriceSource → Reply)
  (source target : Currency)

/-- The first reply that contains a price, and the price. -/
def firstPrice : Option (PriceSource × ℚ) :=
  firstHeld (fun service => listedPrice textNumber service source target
    (replies service)) sourcesToUse

/-- The price is that of the first reply that contains one, and zero where none
does. -/
structure ReturnsFirst : Prop where
  found : ∀ service number,
    firstPrice textNumber replies source target = some (service, number) →
    getPrice textNumber replies source target = .ok (some service, some number)
  missing : firstPrice textNumber replies source target = none →
    ∃ service, getPrice textNumber replies source target = .ok (service, some 0)

/-- The first reply that is distorted is read as zero, and none contains a price,
unless there is a price in front of it. -/
def Undistorted : Prop :=
  ∀ before service after, sourcesToUse = before ++ service :: after →
    (∀ earlier ∈ before,
      ¬ Distorts textNumber earlier source target (replies earlier) ∧
        listedPrice textNumber earlier source target (replies earlier) = none) →
    Distorts textNumber service source target (replies service) →
    (∀ other, listedPrice textNumber other source target (replies other) = none) ∧
      price textNumber service source target (replies service) = .ok (some (some 0))

theorem sourcesToUse_nodup : sourcesToUse.Nodup := by
  simp [sourcesToUse]

theorem mem_sourcesToUse (service : PriceSource) : service ∈ sourcesToUse := by
  cases service <;> simp [sourcesToUse]

variable {textNumber replies source target}

theorem getPrice_found {service : PriceSource} {found : Double} :
    getPrice textNumber replies source target = .ok (some service, found) ↔
      firstRead (fun service => price textNumber service source target
        (replies service)) sourcesToUse = .ok (some (service, found)) := by
  rw [getPrice, bind_eq_ok]
  constructor
  · rintro ⟨read, hread, hresult⟩
    rw [hread]
    cases read with
    | none => cases hresult
    | some entry =>
        cases hresult
        rfl
  · exact fun h => ⟨_, h, rfl⟩

theorem getPrice_missing :
    (∃ service, getPrice textNumber replies source target =
        .ok (service, some 0)) ↔
      firstRead (fun service => price textNumber service source target
          (replies service)) sourcesToUse = .ok none ∨
        ∃ service, firstRead (fun service => price textNumber service source target
          (replies service)) sourcesToUse = .ok (some (service, some 0)) := by
  constructor
  · rintro ⟨service, hservice⟩
    cases service with
    | some service => exact .inr ⟨service, getPrice_found.mp hservice⟩
    | none =>
        rw [getPrice, bind_eq_ok] at hservice
        obtain ⟨read, hread, hresult⟩ := hservice
        cases read with
        | none => exact .inl hread
        | some entry => cases hresult
  · rintro (hnone | ⟨service, hservice⟩)
    · exact ⟨none, bind_eq_ok.mpr ⟨none, hnone, rfl⟩⟩
    · exact ⟨some service, getPrice_found.mpr hservice⟩

/-- Where no service fails, the converter has the price that it finds. -/
theorem getPrice_of_prices {prices : PriceSource → CurrencyPair → Option ℚ}
    (h : ∀ service, price textNumber service source target (replies service) =
      .ok ((prices service (source, target)).map some)) :
    ∃ service, getPrice textNumber replies source target =
      .ok (service, some (Market.Converter.getPrice prices source target)) := by
  have hread : firstRead _ sourcesToUse = .ok _ :=
    firstRead_of_right fun service _ => h service
  rw [firstHeld_map] at hread
  have hprice := map_snd_firstHeld (fun service => prices service (source, target))
    sourcesToUse
  rw [Market.Converter.getPrice, fetchPrice, ← hprice]
  cases hfirst : firstHeld (fun service => prices service (source, target))
      sourcesToUse with
  | none =>
      rw [hfirst] at hread
      exact ⟨none, bind_eq_ok.mpr ⟨none, hread, rfl⟩⟩
  | some entry =>
      rw [hfirst] at hread
      exact ⟨some entry.1, getPrice_found.mpr hread⟩

theorem undistorted_iff :
    Undistorted textNumber replies source target ↔
      Undisturbed (fun service => price textNumber service source target
          (replies service))
        (fun service => (listedPrice textNumber service source target
          (replies service)).map some) (some 0) sourcesToUse := by
  simp only [Undistorted, Undisturbed, Misread, price_ne_iff, Option.map_eq_none_iff,
    mem_sourcesToUse, forall_true_left]

theorem returnsFirst_iff :
    ReturnsFirst textNumber replies source target ↔
      ReadsFirst (fun service => price textNumber service source target
          (replies service))
        (fun service => (listedPrice textNumber service source target
          (replies service)).map some) (some 0) sourcesToUse := by
  have hheld := firstHeld_map (fun service => listedPrice textNumber service source
    target (replies service)) (some : ℚ → Double) sourcesToUse
  rw [← firstPrice] at hheld
  constructor
  · intro h
    refine ⟨fun entry hentry => ?_, fun hnone => ?_⟩
    · rw [hheld, Option.map_eq_some_iff] at hentry
      obtain ⟨⟨service, number⟩, hfirst, rfl⟩ := hentry
      exact getPrice_found.mp (h.found service number hfirst)
    · rw [hheld, Option.map_eq_none_iff] at hnone
      exact getPrice_missing.mp (h.missing hnone)
  · intro h
    refine ⟨fun service number hfirst => ?_, fun hnone => ?_⟩
    · refine getPrice_found.mpr (h.found (service, some number) ?_)
      rw [hheld, hfirst]
      rfl
    · refine getPrice_missing.mpr (h.missing ?_)
      rw [hheld, hnone]
      rfl

variable (textNumber replies source target) in
/-- The fallback is right exactly where no distorted reply gets in the way. -/
theorem getPrice_first_iff :
    ReturnsFirst textNumber replies source target ↔
      Undistorted textNumber replies source target := by
  rw [returnsFirst_iff, undistorted_iff]
  exact readsFirst_iff sourcesToUse_nodup

end Fallback

/-- The replies to a request for the price of XMR in euros: one service has it,
two have an empty object, and the others no JSON. -/
def emptyReplies : PriceSource → Reply
  | .coinMarketCap => some []
  | .coinGecko => some []
  | .fawazahmed0 => some [("eur", .double 140)]
  | _ => none

/-- One service answers, with an error. -/
def errorReply : PriceSource → Reply
  | .kraken => some [("error", .array [])]
  | _ => none

/-- An answer without the price is taken for one of zero, and one with an error
fails an assertion. -/
theorem empty_reply_is_zero :
    firstPrice (fun _ => none) emptyReplies .xmr .eur = some (.fawazahmed0, 140) ∧
      getPrice (fun _ => none) emptyReplies .xmr .eur =
        .ok (some .coinGecko, some 0) ∧
      ¬ ReturnsFirst (fun _ => none) emptyReplies .xmr .eur ∧
      getPrice (fun _ => none) errorReply .xmr .eur = .error .assertionFailed := by
  have hcode : lowerCode .eur = "eur" := by decide +kernel
  have hfirst : firstPrice (fun _ => none) emptyReplies .xmr .eur =
      some (.fawazahmed0, 140) := by
    simp [firstPrice, firstHeld, sourcesToUse, listedPrice, emptyReplies,
      coinMarketCapField, coinGeckoField, follow, value, toObject, toArray, positive,
      hcode]
  have hprice : getPrice (fun _ => none) emptyReplies .xmr .eur =
      .ok (some .coinGecko, some 0) := by
    rfl
  refine ⟨hfirst, hprice, fun h => ?_, rfl⟩
  cases hprice.symm.trans (h.found _ _ hfirst)

end Neroshop.PriceApi
