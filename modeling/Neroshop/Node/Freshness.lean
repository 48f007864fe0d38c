import Neroshop.Node.Succession

/-!
# The date of a stored value

`set` reads the members `last_updated` of the two documents only where both are
strings, and compares whatever `get_time` makes of them.  A stored date is kept
or moves on until an offer under its key is dated by something that is no date:
another type, or a text that reads as a later instant.
-/

namespace Neroshop.Node

open Neroshop.Foundation

def HasDate (json : Json) (date : Int) : Prop :=
  ∃ text, json.string? "last_updated" = some text ∧
    Timestamp.isWellFormed text = true ∧ Timestamp.instant text = date

/-- The offer succeeds the stored document without a date of the right form. -/
def Undates (env : Externals) : Store → Offer → Prop :=
  Breaks env fun _ _ json => ∃ date, HasDate json date

section Freshness

variable {env : Externals} {store final : Store} {offers : List Offer}
  {key current : String} {first json currentJson : Json} {date : Int}

theorem stamp_eq_dated (h : HasDate json date) : stamp json = .dated date := by
  obtain ⟨text, htext, -, rfl⟩ := h
  rw [stamp, Json.string?_eq_some.mp htext]

theorem lt_of_supersedes {later : Int} (hjson : HasDate json later)
    (hcurrent : HasDate currentJson date)
    (h : (stamp json).supersedes (stamp currentJson) = true) : date < later := by
  rw [stamp_eq_dated hjson, stamp_eq_dated hcurrent] at h
  simpa [Stamp.supersedes] using h

/--
While a key has a value, the date of that value never goes back, as long as no
offer under the key succeeds it without a date of the right form.
-/
theorem date_kept (hreachable : Reachable env store)
    (hlookup : store.data.lookup key = some current)
    (hparse : env.parse current = .ok first) (hdate : HasDate first date)
    (hmeets : AllMeet (keptStep env key)
      (fun store offer => offer.key = key → ¬ Undates env store offer)
      store offers)
    (hrun : runFrom (keptStep env key) store offers = some final) :
    ∃ value json later, final.data.lookup key = some value ∧
      env.parse value = .ok json ∧ HasDate json later ∧ date ≤ later := by
  have hkept : HoldsAt env final key
      fun json => ∃ later, HasDate json later ∧ date ≤ later := by
    refine runFrom_kept _ ?_ hmeets hrun (wellStored_of_reachable hreachable)
      ⟨current, first, hlookup, hparse, date, hdate, le_rfl⟩
    rintro store offer stored currentJson json metadata hmeet hkey hstored
      hcurrent ⟨previous, hprevious, hle⟩ hsucceeds
    have hdated : ∃ later, HasDate json later := by
      by_contra hundated
      exact hmeet hkey ⟨stored, currentJson, json, metadata, hkey ▸ hstored,
        hcurrent, hsucceeds, hundated⟩
    obtain ⟨later, hlater⟩ := hdated
    have hlt := lt_of_supersedes hlater hprevious hsucceeds.later
    exact ⟨later, hlater, hle.trans hlt.le⟩
  obtain ⟨value, json, hvalue, hjson, later, hlater, hle⟩ := hkept
  exact ⟨value, json, later, hvalue, hjson, hlater, hle⟩

/-- One step takes a date of the right form away on those offers only. -/
theorem undates_iff {offer : Offer} (hreachable : Reachable env store)
    (hlookup : store.data.lookup offer.key = some current)
    (hparse : env.parse current = .ok first) (hdate : HasDate first date) :
    Undates env store offer ↔
      HoldsAt env (offer.apply env store) offer.key
        fun json => ¬ ∃ later, HasDate json later := by
  have hstore := wellStored_of_reachable hreachable
  obtain ⟨stored, metadata, haccepted⟩ := hstore _ _ hlookup
  have hsame : stored = first :=
    Except.ok.inj (haccepted.parsed.symm.trans hparse)
  subst hsame
  exact breaks_iff hstore hlookup hparse haccepted.kind ⟨date, hdate⟩

end Freshness

/-! ## A rating that is dated by a number -/

def datedRatingText (lastUpdated signature : String) : String :=
  "\x7b\"comments\":\"Shipped fast\",\"last_updated\":" ++ lastUpdated ++
    ",\"metadata\":\"seller_rating\",\"rater_id\":\"" ++ raterId ++
    "\",\"score\":1,\"seller_id\":\"" ++ sellerId ++ "\",\"signature\":\"" ++
    signature ++ "\",\"timestamp\":\"2024-01-01T00:00:00Z\"\x7d"

def datedRatingDocument (lastUpdated : Json) (signature : String) : Json :=
  .object [("comments", .string "Shipped fast"), ("last_updated", lastUpdated),
    ("metadata", .string "seller_rating"), ("rater_id", .string raterId),
    ("score", .unsigned 1), ("seller_id", .string sellerId),
    ("signature", .string signature),
    ("timestamp", .string "2024-01-01T00:00:00Z")]

/-- The stored rating, a later one, and one whose date is a number. -/
def updatedText : String :=
  datedRatingText "\"2024-05-01T00:00:00Z\"" firstSignature

def laterUpdatedText : String :=
  datedRatingText "\"2024-06-01T00:00:00Z\"" secondSignature

def undatedText : String := datedRatingText "0" secondSignature

def updatedExternals : Externals :=
  .ofSignatures
    [(updatedText,
        datedRatingDocument (.string "2024-05-01T00:00:00Z") firstSignature),
     (laterUpdatedText,
        datedRatingDocument (.string "2024-06-01T00:00:00Z") secondSignature),
     (undatedText, datedRatingDocument (.unsigned 0) secondSignature)]
    [("Shipped fast", raterId, firstSignature),
     ("Shipped fast", raterId, secondSignature)]

def updatedStore : Store := Store.empty.insertData ratingKey updatedText

theorem reachable_updatedStore : Reachable updatedExternals updatedStore :=
  ⟨[.put ⟨peerMoment, ratingKey, updatedText⟩], by decide +kernel⟩

theorem parse_updatedText : updatedExternals.parse updatedText = .ok
    (datedRatingDocument (.string "2024-05-01T00:00:00Z") firstSignature) := by
  simp [updatedExternals, Externals.ofSignatures, parseListed]

theorem parse_laterUpdatedText :
    updatedExternals.parse laterUpdatedText = .ok
      (datedRatingDocument (.string "2024-06-01T00:00:00Z")
        secondSignature) := by
  have hfirst : (laterUpdatedText == updatedText) = false := by decide
  simp [updatedExternals, Externals.ofSignatures, parseListed, List.lookup_cons, hfirst]

theorem parse_undatedText : updatedExternals.parse undatedText =
    .ok (datedRatingDocument (.unsigned 0) secondSignature) := by
  have hfirst : (undatedText == updatedText) = false := by decide
  have hlater : (undatedText == laterUpdatedText) = false := by decide
  simp [updatedExternals, Externals.ofSignatures, parseListed, List.lookup_cons, hfirst,
    hlater]

theorem hasDate_updated : HasDate
    (datedRatingDocument (.string "2024-05-01T00:00:00Z") firstSignature)
      1714521600 :=
  ⟨"2024-05-01T00:00:00Z", rfl, by decide, by decide⟩

theorem date_lost :
    Reachable updatedExternals updatedStore ∧
      HoldsAt updatedExternals updatedStore ratingKey
        (fun json => HasDate json 1714521600) ∧
      runFrom (keptStep updatedExternals ratingKey) updatedStore
        [⟨peerMoment, ratingKey, undatedText⟩] =
          some (updatedStore.insertData ratingKey undatedText) ∧
      HoldsAt updatedExternals (updatedStore.insertData ratingKey undatedText)
        ratingKey fun json => ∀ date, ¬ HasDate json date := by
  refine ⟨reachable_updatedStore, ?_, by decide +kernel, ?_⟩
  · exact ⟨updatedText, _, insertData_lookup _ _ _, parse_updatedText,
      hasDate_updated⟩
  · refine ⟨undatedText, _, insertData_lookup _ _ _, parse_undatedText, ?_⟩
    rintro date ⟨text, htext, -⟩
    simp [datedRatingDocument, Json.string?, Json.find?,
      List.lookup_cons] at htext

theorem date_kept_later :
    ∃ value json later,
      (updatedStore.insertData ratingKey laterUpdatedText).data.lookup
        ratingKey = some value ∧
      updatedExternals.parse value = .ok json ∧ HasDate json later ∧
      1714521600 ≤ later := by
  have hrun : runFrom (keptStep updatedExternals ratingKey) updatedStore
      [⟨peerMoment, ratingKey, laterUpdatedText⟩] =
        some (updatedStore.insertData ratingKey laterUpdatedText) := by
    decide +kernel
  refine date_kept reachable_updatedStore (insertData_lookup _ _ _)
    parse_updatedText hasDate_updated ?_ hrun
  refine ⟨fun _ => ?_, fun _ _ => trivial⟩
  rintro ⟨current, currentJson, json, metadata, -, -, hsucceeds, hundated⟩
  have hjson := Except.ok.inj
    (parse_laterUpdatedText.symm.trans hsucceeds.accepted.parsed)
  subst hjson
  exact hundated ⟨_, "2024-06-01T00:00:00Z", rfl, by decide, rfl⟩

end Neroshop.Node
