import Neroshop.Node.Put

/-!
# What a rejected value does to the tables

A rejected value leaves every row of every table alone, with one exception:
`validate` takes a value that passes all of its other checks and has expired
as an order to remove what is stored under the key.
-/

namespace Neroshop.Node

/-- The value passes every check but the last: its expiration date is over. -/
def OffersExpired (env : Externals) (moment : Moment) (key value : String) :
    Prop :=
  ∃ json metadata, Accepted env key value json metadata ∧
    expiry moment.clock json = .expired

section Rejection

variable {env : Externals} {moment : Moment} {store after : Store}
  {key value : String}

theorem offersExpired_iff {json : Json}
    (hdocument : validateDocument env key value = .ok (some json)) :
    OffersExpired env moment key value ↔
      expiry moment.clock json = .expired := by
  constructor
  · rintro ⟨json', metadata, haccepted, hexpired⟩
    have hsame := validateDocument_eq_some.mpr ⟨metadata, haccepted⟩
    rw [hdocument, Except.ok.injEq, Option.some.injEq] at hsame
    exact hsame ▸ hexpired
  · intro hexpired
    obtain ⟨metadata, haccepted⟩ := validateDocument_eq_some.mp hdocument
    exact ⟨json, metadata, haccepted, hexpired⟩

theorem not_offersExpired
    (hdocument : ∀ json, validateDocument env key value ≠ .ok (some json)) :
    ¬ OffersExpired env moment key value :=
  fun ⟨json, metadata, haccepted, _⟩ =>
    hdocument json (validateDocument_eq_some.mpr ⟨metadata, haccepted⟩)

/--
A call that returns false changes nothing, unless the value was an expired
offer; then it discards the rows of the key.  In both cases the rows of every
other key stay.
-/
theorem put_rejected (h : put env moment store key value = (.ok false, after)) :
    (¬ OffersExpired env moment key value → after = store) ∧
      (OffersExpired env moment key value →
        after = store.discard moment key) ∧
      ∀ other, other ≠ key → after.rows other = store.rows other := by
  have houtcome := put_outcome env moment store key value
  rw [h] at houtcome
  dsimp only at houtcome
  generalize hresult : (Except.ok false : Except Fault Bool) = result
    at houtcome
  cases houtcome with
  | stored => cases hresult
  | fault => cases hresult
  | inserted => cases hresult
  | unaccepted _ hdocument =>
      refine ⟨fun _ => rfl, fun hexpired => ?_, fun _ _ => rfl⟩
      exact absurd hexpired (not_offersExpired (by simp [hdocument]))
  | malformedExpiry json _ hdocument hexpiry =>
      refine ⟨fun _ => rfl, fun hexpired => ?_, fun _ _ => rfl⟩
      rw [offersExpired_iff hdocument, hexpiry] at hexpired
      cases hexpired
  | expired json _ hdocument hexpiry =>
      refine ⟨fun hnot => ?_, fun _ => rfl, fun other hne => ?_⟩
      · exact absurd ((offersExpired_iff hdocument).mpr hexpiry) hnot
      · exact Store.discard_rows_of_ne moment store key hne
  | updated json current _ _ hdocument hexpiry =>
      rcases set_store env store key value with hstore | ⟨hok, -⟩
      · refine ⟨fun _ => hstore, fun hexpired => ?_, fun _ _ => by rw [hstore]⟩
        rw [offersExpired_iff hdocument, hexpiry] at hexpired
        cases hexpired
      · rw [hok] at hresult
        cases hresult

end Rejection

/-! ## An expired message erases another one -/

def sampleKey : String :=
  "9f86d081884c7d659a2feaa0c55ad015a3bf4f1b2b0b822cd15d6c15b0f00a08"

def expiredText : String :=
  "\x7b\"expiration_date\":\"2000-01-01T00:00:00Z\",\"metadata\":\"message\"\x7d"

def expiredDocument : Json :=
  .object [("expiration_date", .string "2000-01-01T00:00:00Z"),
    ("metadata", .string "message")]

def messageText : String := "\x7b\"content\":\"hello\",\"metadata\":\"message\"\x7d"

def expiringExternals : Externals :=
  .ofDocuments
    [(expiredText, expiredDocument),
     (messageText, .object [("content", .string "hello"),
        ("metadata", .string "message")])]

/-- The first of January 2024; every database statement is executed. -/
def sampleMoment : Moment := ⟨1704067200, fun _ => true⟩

def messageStore : Store := Store.empty.insertData sampleKey messageText

/-- The call returns false and the stored message, another value, is gone. -/
theorem put_rejected_erases :
    put expiringExternals sampleMoment messageStore sampleKey expiredText =
        (.ok false, Store.empty) ∧
      messageStore.data.lookup sampleKey = some messageText ∧
      Store.empty.data.lookup sampleKey = none := by
  decide

theorem expiredDocument_accepted :
    Accepted expiringExternals sampleKey expiredText expiredDocument
      "message" where
  keyLength := by decide
  nonempty := by decide
  parsed := by
    simp [expiringExternals, Externals.ofDocuments, parseListed]
  isObject := rfl
  kind := by decide
  known := by decide
  fields := by decide
  verified := by decide

theorem put_rejected_messageStore :
    Store.empty = messageStore.discard sampleMoment sampleKey := by
  have hput : put expiringExternals sampleMoment messageStore sampleKey
      expiredText = (.ok false, Store.empty) := by
    decide
  exact (put_rejected hput).2.1
    ⟨expiredDocument, "message", expiredDocument_accepted, by decide⟩

end Neroshop.Node
