import Mathlib.Algebra.GroupWithZero.Nat
import Mathlib.Data.Fintype.Prod
import Neroshop.Foundation.Transition

/-!
# Exchange rates

The provider keeps a rate for every pair of currencies that it tracks.  An
update works in the background on the pairs that are tracked when it starts,
and what it has fetched takes the place of the whole table.  Meanwhile
`getPrice` adds pairs to the table.
-/

namespace Neroshop.Gui

open Neroshop.Foundation

inductive Currency where
  | usd | eur | jpy | gbp | cad | chf | aud | cny | sek | nzd | mxn | ngn | ghs
  | rub | php | inr | brl | hkd | krw | sgd | zar
  | xag | xau
  | xmr | btc | eth | ltc | wow
  deriving DecidableEq

instance : Fintype Currency :=
  .ofList [.usd, .eur, .jpy, .gbp, .cad, .chf, .aud, .cny, .sek, .nzd, .mxn,
    .ngn, .ghs, .rub, .php, .inr, .brl, .hkd, .krw, .sgd, .zar, .xag, .xau,
    .xmr, .btc, .eth, .ltc, .wow] (by intro currency; cases currency <;> simp)

/-- The codes of `CurrencyMap`. -/
def currencyMap : List (String × Currency) :=
  [("AUD", .aud), ("BRL", .brl), ("CAD", .cad), ("CHF", .chf), ("CNY", .cny),
    ("EUR", .eur), ("GBP", .gbp), ("GHS", .ghs), ("HKD", .hkd), ("INR", .inr),
    ("JPY", .jpy), ("KRW", .krw), ("MXN", .mxn), ("NGN", .ngn), ("NZD", .nzd),
    ("PHP", .php), ("RUB", .rub), ("SEK", .sek), ("SGD", .sgd), ("USD", .usd),
    ("XAG", .xag), ("XAU", .xau), ("ZAR", .zar), ("XMR", .xmr), ("BTC", .btc),
    ("ETH", .eth), ("LTC", .ltc), ("WOW", .wow)]

inductive PriceSource where
  | coinMarketCap
  | coinGecko
  | cryptoWatch
  | coinTelegraph
  | cryptoRank
  | coinCodex
  | fawazahmed0
  | kraken

def sourcesToUse : List PriceSource :=
  [.coinMarketCap, .coinGecko, .cryptoWatch, .coinTelegraph, .cryptoRank,
    .coinCodex, .fawazahmed0, .kraken]

abbrev CurrencyPair := Currency × Currency

variable {Rate : Type}

/-! ## The provider -/

/-- The price that the first service returns that has one. -/
def fetchPrice (prices : PriceSource → CurrencyPair → Option Rate)
    (key : CurrencyPair) : Option Rate :=
  sourcesToUse.findSome? fun source => prices source key

/-- The loop of `updateRates` over the keys. -/
def fetchRate (prices : PriceSource → CurrencyPair → Option Rate)
    (newRates : CurrencyPair → Option Rate) (key : CurrencyPair) :
    CurrencyPair → Option Rate :=
  match fetchPrice prices key with
  | some price => Function.update newRates key (some price)
  | none => newRates

def updateRates (prices : PriceSource → CurrencyPair → Option Rate)
    (keys : List CurrencyPair) : CurrencyPair → Option Rate :=
  keys.foldl (fetchRate prices) fun _ => none

structure RatesProvider (Rate : Type) where
  currentRates : CurrencyPair → Option Rate
  /-- The keys that the running update was given. -/
  updating : Option (List CurrencyPair)
  /-- The timers that will call `startUpdate`. -/
  timers : Nat

/-- What `getPrice` looks up, where it knows both currencies. -/
def pairOf (toUpper : String → String) (source target : String) :
    Option CurrencyPair := do
  return (← currencyMap.lookup (toUpper source),
    ← currencyMap.lookup (toUpper target))

inductive RatesEvent (Rate : Type) where
  | getPrice (source target : String)
  /-- A timer has run out; the keys are those of the table. -/
  | startUpdate (keys : List CurrencyPair)
  /-- The update has ended with what the services returned. -/
  | finished (prices : PriceSource → CurrencyPair → Option Rate)

namespace RatesProvider

def Tracks (provider : RatesProvider Rate) (pair : CurrencyPair) : Prop :=
  (provider.currentRates pair).isSome = true

instance (provider : RatesProvider Rate) (pair : CurrencyPair) :
    Decidable (provider.Tracks pair) :=
  inferInstanceAs (Decidable (_ = true))

def seeded : List CurrencyPair := [(.xmr, .usd), (.xmr, .eur)]

/-- The constructor, which starts the first update. -/
def init [Zero Rate] : RatesProvider Rate where
  currentRates pair := if pair ∈ seeded then some 0 else none
  updating := some seeded
  timers := 0

def getPrice [Zero Rate] (toUpper : String → String)
    (provider : RatesProvider Rate) (source target : String) :
    RatesProvider Rate × Rate :=
  match pairOf toUpper source target with
  | none => (provider, 0)
  | some key =>
      let provider :=
        if provider.Tracks key then provider
        else
          { provider with
            currentRates := Function.update provider.currentRates key (some 0) }
      (provider, (provider.currentRates key).getD 0)

def startUpdate (provider : RatesProvider Rate) (keys : List CurrencyPair) :
    RatesProvider Rate :=
  if provider.updating.isSome then provider
  else { provider with updating := some keys }

def setRates (provider : RatesProvider Rate)
    (newRates : CurrencyPair → Option Rate) : RatesProvider Rate :=
  { provider with currentRates := newRates }

def step [Zero Rate] (toUpper : String → String)
    (provider : RatesProvider Rate) :
    RatesEvent Rate → Option (RatesProvider Rate)
  | .getPrice source target => some (provider.getPrice toUpper source target).1
  | .startUpdate keys =>
      if 0 < provider.timers ∧ keys.Nodup ∧
          ∀ pair, pair ∈ keys ↔ provider.Tracks pair
      then some (startUpdate { provider with timers := provider.timers - 1 } keys)
      else none
  | .finished prices =>
      match provider.updating with
      | none => none
      | some keys =>
          let provider := provider.setRates (updateRates prices keys)
          some { provider with
            updating := none
            timers := provider.timers + 1 }

/-! ## What is asked of a run -/

/-- The pair was seeded, or `getPrice` was asked for it. -/
def Wanted (toUpper : String → String) (events : List (RatesEvent Rate))
    (pair : CurrencyPair) : Prop :=
  pair ∈ seeded ∨ ∃ source target,
    .getPrice source target ∈ events ∧
      pairOf toUpper source target = some pair

/-- Some service has returned the rate. -/
def Returned (events : List (RatesEvent Rate)) (pair : CurrencyPair)
    (rate : Rate) : Prop :=
  ∃ prices source, .finished prices ∈ events ∧ prices source pair = some rate

structure Lawful [Zero Rate] [LT Rate] (toUpper : String → String)
    (events : List (RatesEvent Rate)) (final : RatesProvider Rate) : Prop where
  tracked : ∀ pair, Wanted toUpper events pair → final.Tracks pair
  fetched : ∀ before keys later state,
    events = before ++ .startUpdate keys :: later →
    runFrom (step toUpper) init before = some state → state.updating = none →
    ∀ pair, Wanted toUpper before pair → pair ∈ keys
  kept : ∀ before later state, events = before ++ later →
    runFrom (step toUpper) init before = some state →
    ∀ pair rate, state.currentRates pair = some rate → 0 < rate →
      final.currentRates pair = some rate ∨
        ∃ other, final.currentRates pair = some other ∧
          Returned later pair other

/-- An update that ends has been given every pair that is tracked now, and some
service has returned a price for it. -/
def Covers (provider : RatesProvider Rate) : RatesEvent Rate → Prop
  | .finished prices => ∀ keys, provider.updating = some keys →
      ∀ pair, provider.Tracks pair →
        pair ∈ keys ∧ ∃ source ∈ sourcesToUse, (prices source pair).isSome = true
  | _ => True

/-! ## What is tracked, returned and wanted -/

theorem tracks_iff {provider : RatesProvider Rate} {pair : CurrencyPair} :
    provider.Tracks pair ↔ ∃ rate, provider.currentRates pair = some rate :=
  Option.isSome_iff_exists

theorem Returned.mono {pair : CurrencyPair} {rate : Rate}
    {events more : List (RatesEvent Rate)} (h : Returned events pair rate)
    (hmore : ∀ event ∈ events, event ∈ more) : Returned more pair rate := by
  obtain ⟨prices, source, hmem, hrate⟩ := h
  exact ⟨prices, source, hmore _ hmem, hrate⟩

theorem Wanted.mono {toUpper : String → String} {pair : CurrencyPair}
    {events more : List (RatesEvent Rate)} (h : Wanted toUpper events pair)
    (hmore : ∀ event ∈ events, event ∈ more) :
    Wanted toUpper more pair := by
  obtain hseeded | ⟨source, target, hmem, hpair⟩ := h
  · exact .inl hseeded
  · exact .inr ⟨source, target, hmore _ hmem, hpair⟩

/-! ## One update -/

theorem isSome_fetchPrice {prices : PriceSource → CurrencyPair → Option Rate}
    {key : CurrencyPair} :
    (fetchPrice prices key).isSome = true ↔
      ∃ source ∈ sourcesToUse, (prices source key).isSome = true :=
  List.findSome?_isSome_iff

theorem returned_of_fetchPrice
    {prices : PriceSource → CurrencyPair → Option Rate} {key : CurrencyPair}
    {rate : Rate} (h : fetchPrice prices key = some rate) :
    ∃ source, prices source key = some rate := by
  obtain ⟨source, -, hsource⟩ := List.exists_of_findSome?_eq_some h
  exact ⟨source, hsource⟩

theorem fetchRate_eq (prices : PriceSource → CurrencyPair → Option Rate)
    (newRates : CurrencyPair → Option Rate) (key pair : CurrencyPair) :
    fetchRate prices newRates key pair =
      if pair = key then (fetchPrice prices key).or (newRates key)
      else newRates pair := by
  unfold fetchRate
  by_cases hkey : pair = key
  · subst hkey
    cases fetchPrice prices pair <;> simp
  · cases fetchPrice prices key <;> simp [hkey]

theorem updateRates_eq (prices : PriceSource → CurrencyPair → Option Rate)
    (keys : List CurrencyPair) (pair : CurrencyPair) :
    updateRates prices keys pair =
      if pair ∈ keys then fetchPrice prices pair else none := by
  unfold updateRates
  induction keys using List.reverseRecOn with
  | nil => rfl
  | append_singleton keys key ih =>
      rw [List.foldl_append, List.foldl_cons, List.foldl_nil, fetchRate_eq]
      by_cases hkey : pair = key
      · subst hkey
        rw [if_pos rfl, ih, if_pos (List.mem_append_right _ List.mem_cons_self)]
        cases fetchPrice prices pair <;> simp
      · rw [if_neg hkey, ih]
        simp [hkey]

/-! ## One step -/

variable [Zero Rate] {toUpper : String → String}
  {provider next : RatesProvider Rate} {event : RatesEvent Rate}

/-- What a step makes of the table and of the running update. -/
def Leads (toUpper : String → String) (provider next : RatesProvider Rate) :
    RatesEvent Rate → Prop
  | .getPrice source target => next.updating = provider.updating ∧
      ∀ pair, next.currentRates pair =
        if pairOf toUpper source target = some pair then
          some ((provider.currentRates pair).getD 0)
        else provider.currentRates pair
  | .startUpdate keys => next.currentRates = provider.currentRates ∧
      (next.updating = provider.updating ∨ next.updating = some keys) ∧
      ∀ pair, pair ∈ keys ↔ provider.Tracks pair
  | .finished prices => next.updating = none ∧
      ∃ keys, provider.updating = some keys ∧
        next.currentRates = updateRates prices keys

theorem getPrice_currentRates (provider : RatesProvider Rate)
    (source target : String) (pair : CurrencyPair) :
    (provider.getPrice toUpper source target).1.currentRates pair =
      if pairOf toUpper source target = some pair then
        some ((provider.currentRates pair).getD 0)
      else provider.currentRates pair := by
  unfold getPrice
  cases hkey : pairOf toUpper source target with
  | none => rfl
  | some key =>
      simp only [Option.some.injEq]
      cases hrate : provider.currentRates key with
      | some rate =>
          have htracks : provider.Tracks key := by rw [Tracks, hrate]; rfl
          rw [if_pos htracks]
          by_cases hpair : key = pair
          · subst hpair
            simp [hrate]
          · simp [hpair]
      | none =>
          have htracks : ¬ provider.Tracks key := by simp [Tracks, hrate]
          rw [if_neg htracks]
          by_cases hpair : key = pair
          · subst hpair
            simp [hrate]
          · simp [hpair, Function.update_of_ne (Ne.symm hpair)]

theorem getPrice_updating (provider : RatesProvider Rate)
    (source target : String) :
    (provider.getPrice toUpper source target).1.updating =
      provider.updating := by
  unfold getPrice
  split
  · rfl
  · split <;> rfl

theorem leads_of_step (h : step toUpper provider event = some next) :
    Leads toUpper provider next event := by
  cases event with
  | getPrice source target =>
      cases h
      exact ⟨getPrice_updating provider source target,
        getPrice_currentRates provider source target⟩
  | startUpdate keys =>
      simp only [step, Option.ite_none_right_eq_some] at h
      obtain ⟨⟨-, -, hkeys⟩, ⟨⟩⟩ := h
      unfold startUpdate
      split
      · exact ⟨rfl, .inl rfl, hkeys⟩
      · exact ⟨rfl, .inr rfl, hkeys⟩
  | finished prices =>
      cases hupdating : provider.updating with
      | none => simp [step, hupdating] at h
      | some keys =>
          simp only [step, hupdating] at h
          cases h
          exact ⟨rfl, keys, hupdating, rfl⟩

theorem kept_of_step {pair : CurrencyPair} {rate : Rate}
    (hcovers : provider.Covers event)
    (hstep : step toUpper provider event = some next)
    (hrate : provider.currentRates pair = some rate) :
    ∃ other, next.currentRates pair = some other ∧
      (other = rate ∨ Returned [event] pair other) := by
  have hleads := leads_of_step hstep
  cases event with
  | getPrice source target =>
      refine ⟨rate, ?_, .inl rfl⟩
      rw [hleads.2 pair, hrate]
      exact ite_self _
  | startUpdate keys => exact ⟨rate, hleads.1 ▸ hrate, .inl rfl⟩
  | finished prices =>
      obtain ⟨-, keys, hupdating, hnext⟩ := hleads
      obtain ⟨hkey, hprice⟩ :=
        hcovers keys hupdating pair (tracks_iff.mpr ⟨rate, hrate⟩)
      obtain ⟨other, hother⟩ :=
        Option.isSome_iff_exists.mp (isSome_fetchPrice.mpr hprice)
      obtain ⟨source, hsource⟩ := returned_of_fetchPrice hother
      refine ⟨other, ?_, .inr ⟨prices, source, List.mem_singleton_self _, hsource⟩⟩
      rw [hnext, updateRates_eq, if_pos hkey, hother]

theorem tracks_of_step {pair : CurrencyPair} (hcovers : provider.Covers event)
    (hstep : step toUpper provider event = some next)
    (htracks : provider.Tracks pair) : next.Tracks pair := by
  obtain ⟨rate, hrate⟩ := tracks_iff.mp htracks
  obtain ⟨other, hother, -⟩ := kept_of_step hcovers hstep hrate
  exact tracks_iff.mpr ⟨other, hother⟩

theorem tracks_of_getPrice {source target : String} {pair : CurrencyPair}
    (hstep : step toUpper provider (.getPrice source target) = some next)
    (hpair : pairOf toUpper source target = some pair) : next.Tracks pair := by
  have hrate := (leads_of_step hstep).2 pair
  rw [if_pos hpair] at hrate
  exact tracks_iff.mpr ⟨_, hrate⟩

/-! ## Runs -/

variable {final : RatesProvider Rate} {events : List (RatesEvent Rate)}

theorem kept_of_run {pair : CurrencyPair} {rate : Rate}
    (hcovers : AllMeet (step toUpper) Covers provider events)
    (hrun : runFrom (step toUpper) provider events = some final)
    (hrate : provider.currentRates pair = some rate) :
    ∃ other, final.currentRates pair = some other ∧
      (other = rate ∨ Returned events pair other) := by
  induction events generalizing provider rate with
  | nil =>
      cases hrun
      exact ⟨rate, hrate, .inl rfl⟩
  | cons event events ih =>
      rw [runFrom_cons, Option.bind_eq_some_iff] at hrun
      obtain ⟨next, hstep, hrest⟩ := hrun
      obtain ⟨middle, hmiddle, hreturned⟩ := kept_of_step hcovers.1 hstep hrate
      obtain ⟨other, hother, hlater⟩ := ih (hcovers.2 next hstep) hrest hmiddle
      refine ⟨other, hother, ?_⟩
      obtain rfl | hlater := hlater
      · refine hreturned.imp_right fun h => h.mono fun first hfirst => ?_
        exact List.mem_singleton.mp hfirst ▸ List.mem_cons_self
      · exact .inr (hlater.mono fun _ => List.mem_cons_of_mem event)

theorem tracks_of_run {pair : CurrencyPair}
    (hcovers : AllMeet (step toUpper) Covers provider events)
    (hrun : runFrom (step toUpper) provider events = some final)
    (htracks : provider.Tracks pair) : final.Tracks pair :=
  runFrom_invariant (Tracks · pair)
    (fun _ _ _ htracks hcovers hstep => tracks_of_step hcovers hstep htracks)
    hcovers hrun htracks

theorem tracks_of_wanted {pair : CurrencyPair}
    (hcovers : AllMeet (step toUpper) Covers init events)
    (hrun : runFrom (step toUpper) init events = some final)
    (hwanted : Wanted toUpper events pair) : final.Tracks pair := by
  obtain hseeded | ⟨source, target, hmem, hpair⟩ := hwanted
  · refine tracks_of_run hcovers hrun (tracks_iff.mpr ⟨0, ?_⟩)
    exact if_pos hseeded
  · obtain ⟨before, later, rfl⟩ := List.append_of_mem hmem
    rw [runFrom_append, Option.bind_eq_some_iff] at hrun
    obtain ⟨state, hstate, hlater⟩ := hrun
    rw [runFrom_cons, Option.bind_eq_some_iff] at hlater
    obtain ⟨next, hstep, hrest⟩ := hlater
    exact tracks_of_run ((hcovers.split.2 state hstate).2 next hstep) hrest
      (tracks_of_getPrice hstep hpair)

theorem wanted_of_run
    (hrun : runFrom (step toUpper) init events = some final) :
    (∀ pair, final.Tracks pair → Wanted toUpper events pair) ∧
      ∀ keys, final.updating = some keys →
        ∀ pair ∈ keys, Wanted toUpper events pair := by
  induction events using List.reverseRecOn generalizing final with
  | nil =>
      cases hrun
      refine ⟨fun pair hpair => .inl ?_, fun keys hkeys pair hpair => .inl ?_⟩
      · by_contra hseeded
        simp [Tracks, init, hseeded] at hpair
      · cases hkeys
        exact hpair
  | append_singleton events event ih =>
      rw [runFrom_append, Option.bind_eq_some_iff] at hrun
      obtain ⟨state, hstate, hstep⟩ := hrun
      rw [runFrom_cons, Option.bind_eq_some_iff] at hstep
      obtain ⟨next, hstep, ⟨⟩⟩ := hstep
      obtain ⟨htracks, hkeys⟩ := ih hstate
      have hmore {pair : CurrencyPair} (h : Wanted toUpper events pair) :
          Wanted toUpper (events ++ [event]) pair :=
        h.mono fun _ => List.mem_append_left _
      have hleads := leads_of_step hstep
      cases event with
      | getPrice source target =>
          obtain ⟨hupdating, hrates⟩ := hleads
          refine ⟨fun pair hpair => ?_, fun keys h pair hpair =>
            hmore (hkeys keys (hupdating ▸ h) pair hpair)⟩
          by_cases hasked : pairOf toUpper source target = some pair
          · exact .inr ⟨source, target,
              List.mem_append_right _ List.mem_cons_self, hasked⟩
          · refine hmore (htracks pair ?_)
            rwa [Tracks, hrates, if_neg hasked] at hpair
      | startUpdate keys =>
          obtain ⟨hrates, hupdating, htracked⟩ := hleads
          refine ⟨fun pair hpair => hmore (htracks pair ?_),
            fun other hother pair hpair => ?_⟩
          · rwa [Tracks, hrates] at hpair
          · obtain hsame | hstarted := hupdating
            · exact hmore (hkeys other (hsame ▸ hother) pair hpair)
            · cases hstarted.symm.trans hother
              exact hmore (htracks pair ((htracked pair).mp hpair))
      | finished prices =>
          obtain ⟨hnone, keys, hupdating, hrates⟩ := hleads
          refine ⟨fun pair hpair => ?_, fun other hother =>
            (nomatch hnone.symm.trans hother)⟩
          rw [Tracks, hrates, updateRates_eq] at hpair
          by_cases hkey : pair ∈ keys
          · exact hmore (hkeys keys hupdating pair hkey)
          · rw [if_neg hkey] at hpair
            cases hpair

theorem lawful_of_covers [LT Rate]
    (hcovers : AllMeet (step toUpper) Covers init events)
    (hrun : runFrom (step toUpper) init events = some final) :
    Lawful toUpper events final where
  tracked _ hwanted := tracks_of_wanted hcovers hrun hwanted
  fetched before keys later state hevents hstate _ pair hwanted := by
    subst hevents
    rw [runFrom_append, hstate, Option.bind_some, runFrom_cons,
      Option.bind_eq_some_iff] at hrun
    obtain ⟨next, hstep, -⟩ := hrun
    have hleads := leads_of_step hstep
    exact (hleads.2.2 pair).mpr
      (tracks_of_wanted hcovers.split.1 hstate hwanted)
  kept before later state hevents hstate pair rate hrate _ := by
    subst hevents
    rw [runFrom_append, hstate, Option.bind_some] at hrun
    obtain ⟨other, hother, rfl | hreturned⟩ :=
      kept_of_run (hcovers.split.2 state hstate) hrun hrate
    · exact .inl hother
    · exact .inr ⟨other, hother, hreturned⟩

/-- A pair that an update does not cover is lost with it. -/
theorem covers_of_tracked {events : List (RatesEvent Rate)}
    (hrun : runFrom (step toUpper) init events = some provider)
    (hstep : step toUpper provider event = some next)
    (htracked : ∀ pair, Wanted toUpper (events ++ [event]) pair →
      next.Tracks pair) : provider.Covers event := by
  cases event with
  | finished prices =>
      intro keys hkeys pair hpair
      obtain ⟨-, other, hother, hrates⟩ := leads_of_step hstep
      cases hkeys.symm.trans hother
      have hwanted : Wanted toUpper events pair :=
        (wanted_of_run hrun).1 pair hpair
      have hnext := htracked pair
        (hwanted.mono fun _ => List.mem_append_left _)
      rw [Tracks, hrates, updateRates_eq] at hnext
      by_cases hkey : pair ∈ keys
      · rw [if_pos hkey] at hnext
        exact ⟨hkey, isSome_fetchPrice.mp hnext⟩
      · rw [if_neg hkey] at hnext
        cases hnext
  | _ => trivial

theorem rates_lawful_iff [LT Rate] (toUpper : String → String)
    (events : List (RatesEvent Rate)) :
    (∀ before later state, events = before ++ later →
        runFrom (step toUpper) init before = some state →
        Lawful toUpper before state) ↔
      AllMeet (step toUpper) Covers init events := by
  constructor
  · intro h
    rw [allMeet_iff]
    intro before event later state hevents hstate
    cases hstep : step toUpper state event with
    | none =>
        cases event with
        | finished prices =>
            intro keys hkeys
            simp [step, hkeys] at hstep
        | _ => trivial
    | some next =>
        refine covers_of_tracked hstate hstep
          (h (before ++ [event]) later next ?_ ?_).tracked
        · rw [hevents, List.append_assoc, List.singleton_append]
        · rw [runFrom_append, hstate, Option.bind_some, runFrom_cons, hstep]
          rfl
  · intro h before later state hevents hstate
    subst hevents
    exact lawful_of_covers h.split.1 hstate

/-- A pair is asked for while the first update runs, whose services all return
a price. -/
def lateRequest : List (RatesEvent Nat) :=
  [.getPrice "XMR" "GBP", .finished fun _ _ => some 1]

/-- The pair is not tracked any more, and no later update will fetch it. -/
theorem request_lost : ∃ final,
    runFrom (step id) init lateRequest = some final ∧
      ¬ Lawful id lateRequest final := by
  refine ⟨_, rfl, fun h => ?_⟩
  have hwanted : Wanted id lateRequest (.xmr, .gbp) :=
    .inr ⟨"XMR", "GBP", List.mem_cons_self, rfl⟩
  exact Bool.false_ne_true (h.tracked _ hwanted)

end RatesProvider

end Neroshop.Gui
