import Neroshop.Foundation.Transition
import Neroshop.Node.Update

/-!
# Whether a call of `put` returns

Every value a node stores has passed the checks, in every state that calls of
`put` and `remove` can lead to.  That decides which accessors can fail when a
later value is compared with a stored one, and so on which offers a call ends
in an uncaught fault.
-/

namespace Neroshop.Node

open Neroshop.Foundation

inductive Call where
  | put (offer : Offer)
  | remove (key : String)

def Call.run (env : Externals) (store : Store) : Call → Store
  | .put offer => offer.apply env store
  | .remove key => store.remove key

def callStep (env : Externals) (store : Store) (call : Call) : Option Store :=
  some (call.run env store)

def Reachable (env : Externals) (store : Store) : Prop :=
  ∃ calls, runFrom (callStep env) Store.empty calls = some store

def WellStored (env : Externals) (store : Store) : Prop :=
  ∀ key value, store.data.lookup key = some value →
    ∃ json metadata, Accepted env key value json metadata

/--
A signed order or message is offered where an unsigned one is stored: the
signature of the stored document is read although it has none.
-/
def UnsignedRival (env : Externals) (moment : Moment) (store : Store)
    (key value : String) : Prop :=
  ∃ json metadata current currentJson,
    Shaped env key value json metadata ∧
    (metadata = "order" ∨ metadata = "message") ∧
    expiry moment.clock json = .current ∧
    (∃ signature, json.string? "signature" = some signature) ∧
    store.data.lookup key = some current ∧
    env.parse current = .ok currentJson ∧
    currentJson.string? "metadata" = some metadata ∧
    currentJson.string? "signature" = none

section WellStored

variable {env : Externals} {moment : Moment} {store : Store}
  {key value : String}

theorem wellStored_empty : WellStored env Store.empty := by
  intro key value hlookup
  simp [Store.empty] at hlookup

theorem wellStored_eraseData (key : String) (h : WellStored env store) :
    WellStored env (store.eraseData key) := by
  intro other stored hlookup
  by_cases hother : other = key
  · subst hother
    simp [Store.eraseData] at hlookup
  · rw [Store.eraseData, Finmap.lookup_erase_ne hother] at hlookup
    exact h other stored hlookup

theorem wellStored_put (h : WellStored env store) :
    WellStored env (put env moment store key value).2 := by
  intro other stored hlookup
  rcases put_lookup_origin hlookup with hold | ⟨rfl, rfl, haccepted⟩
  · exact h other stored hold
  · exact haccepted

theorem wellStored_of_reachable (h : Reachable env store) :
    WellStored env store := by
  obtain ⟨calls, hrun⟩ := h
  refine runFrom_invariant_of_step ?_ hrun wellStored_empty
  intro before call after hbefore hstep
  simp only [callStep, Option.some.injEq] at hstep
  subst hstep
  cases call with
  | put => exact wellStored_put hbefore
  | remove => exact wellStored_eraseData _ hbefore

end WellStored

section Returns

variable {env : Externals} {moment : Moment} {store : Store}
  {key value metadata : String} {json current : Json}

theorem Accepted.immutable (h : Accepted env key value json metadata) :
    ∀ name ∈ immutableFields metadata, ∃ text,
      json.string? name = some text := by
  by_cases hkind : metadata = "order" ∨ metadata = "message"
  · rcases hkind with rfl | rfl <;> simp [immutableFields]
  · push Not at hkind
    obtain ⟨result, hverify, hsigned⟩ :=
      verify_signed h.parsed h.isObject h.kind hkind.1 hkind.2
    rw [h.verified, Except.ok.injEq] at hverify
    obtain ⟨message, address, signature, hmessage, haddress, -⟩ :=
      hsigned.mp hverify.symm
    have hknown := h.known
    simp only [validMetadatas, List.mem_cons, List.not_mem_nil,
      or_false] at hknown
    rcases hknown with rfl | rfl | rfl | rfl | rfl | rfl <;>
      simp_all [immutableFields, signedFields]

theorem Accepted.signature (h : Accepted env key value json metadata)
    (horder : metadata ≠ "order") (hmessage : metadata ≠ "message") :
    ∃ signature, json.string? "signature" = some signature := by
  obtain ⟨result, hverify, hsigned⟩ :=
    verify_signed h.parsed h.isObject h.kind horder hmessage
  rw [h.verified, Except.ok.injEq] at hverify
  obtain ⟨-, -, signature, -, -, hsignature, -⟩ := hsigned.mp hverify.symm
  exact ⟨signature, hsignature⟩

/--
Between documents that passed the checks, the tests of an update return unless
the offered one is signed and the stored one is not.
-/
theorem judgeUpdate_returns {other otherMetadata : String}
    (hvalue : Accepted env key value json metadata)
    (hother : Accepted env key other current otherMetadata) :
    (∃ update, judgeUpdate json current = .ok update) ↔
      ¬ (otherMetadata = metadata ∧
        (metadata = "order" ∨ metadata = "message") ∧
        (∃ signature, json.string? "signature" = some signature) ∧
        current.string? "signature" = none) := by
  obtain ⟨same, hsame, hidentity⟩ := sameIdentity_spec hvalue.isObject
    hother.isObject hvalue.kind hother.kind hvalue.immutable hother.immutable
  rw [judgeUpdate_eq hvalue.isObject hother.isObject, admits, hsame]
  cases same with
  | false =>
      refine iff_of_true ⟨.reject, rfl⟩ ?_
      rintro ⟨rfl, hkind, -⟩
      have hnames : immutableFields otherMetadata = [] := by
        rcases hkind with rfl | rfl <;> rfl
      have h : SameIdentity json current otherMetadata :=
        ⟨hvalue.kind, hother.kind, by simp [hnames]⟩
      exact Bool.false_ne_true (hidentity.mpr h)
  | true =>
      have hmetadata : otherMetadata = metadata :=
        Option.some.inj
          (hother.kind.symm.trans (hidentity.mp rfl).currentKind)
      subst hmetadata
      simp only [bind, Except.bind, Bool.not_true, Bool.false_eq_true,
        if_false, signatureUpdated_eq hvalue.isObject hother.isObject]
      cases hsignature : json.string? "signature" with
      | none => simp
      | some signature =>
          cases hcurrent : current.string? "signature" with
          | some found =>
              by_cases heq : signature = found <;> simp [heq]
          | none =>
              have hkind : otherMetadata = "order" ∨
                  otherMetadata = "message" := by
                by_contra hnot
                push Not at hnot
                obtain ⟨found, hfound⟩ := hother.signature hnot.1 hnot.2
                rw [hcurrent] at hfound
                cases hfound
              simp [hkind]

theorem not_malformedValue_of_accepted
    (h : Accepted env key value json metadata) :
    ¬ MalformedValue env key value :=
  validateDocument_returns.mp
    ⟨some json, validateDocument_eq_some.mpr ⟨metadata, h⟩⟩

theorem set_returns (hstore : WellStored env store)
    (haccepted : Accepted env key value json metadata)
    (hexpiry : expiry moment.clock json = .current) {stored : String}
    (hlookup : store.data.lookup key = some stored) :
    (∃ result, (set env store key value).1 = .ok result) ↔
      ¬ UnsignedRival env moment store key value := by
  obtain ⟨current, otherMetadata, hother⟩ := hstore key stored hlookup
  have hset : (∃ result, (set env store key value).1 = .ok result) ↔
      ∃ update, judgeUpdate json current = .ok update := by
    simp only [set, hlookup, Option.getD_some,
      judgeTexts_of_parse haccepted.parsed hother.parsed]
    cases judgeUpdate json current with
    | error fault => simp
    | ok update => cases update <;> simp
  rw [hset, judgeUpdate_returns haccepted hother, not_iff_not]
  constructor
  · rintro ⟨rfl, hkind, hsigned, hunsigned⟩
    exact ⟨json, _, stored, current, haccepted.toShaped, hkind, hexpiry,
      hsigned, hlookup, hother.parsed, hother.kind, hunsigned⟩
  · rintro ⟨json', metadata', stored', current', hshaped, hkind, -, hsigned,
      hlookup', hparsed', hkind', hunsigned⟩
    obtain ⟨rfl, rfl⟩ := haccepted.toShaped.unique hshaped
    have hstored : stored' = stored :=
      Option.some.inj (hlookup'.symm.trans hlookup)
    subst hstored
    have hcurrent : current' = current :=
      Except.ok.inj (hparsed'.symm.trans hother.parsed)
    subst hcurrent
    exact ⟨Option.some.inj (hother.kind.symm.trans hkind'), hkind, hsigned,
      hunsigned⟩

theorem UnsignedRival.reachesSet (h : UnsignedRival env moment store key value) :
    ∃ json, validateDocument env key value = .ok (some json) ∧
      expiry moment.clock json = .current ∧
      ∃ stored, store.data.lookup key = some stored ∧ stored ≠ value := by
  obtain ⟨json, metadata, stored, current, hshaped, hkind, hexpiry,
    ⟨signature, hsigned⟩, hlookup, hparsed, -, hunsigned⟩ := h
  refine ⟨json, validateDocument_eq_some.mpr ⟨metadata, hshaped.accepted hkind⟩,
    hexpiry, stored, hlookup, ?_⟩
  rintro rfl
  have hsame : current = json :=
    Except.ok.inj (hparsed.symm.trans hshaped.parsed)
  rw [← hsame, hunsigned] at hsigned
  cases hsigned

/--
In a state that calls of `put` and `remove` lead to, `put` returns exactly on
the offers that are neither malformed nor the signed rival of an unsigned
order or message.
-/
theorem put_returns (hreachable : Reachable env store) :
    (∃ result, (put env moment store key value).1 = .ok result) ↔
      ¬ MalformedValue env key value ∧
        ¬ UnsignedRival env moment store key value := by
  have hstore := wellStored_of_reachable hreachable
  have houtcome := put_outcome env moment store key value
  generalize hresult : (put env moment store key value).1 = result at houtcome
  generalize (put env moment store key value).2 = after at houtcome
  have hrival (hdocument : ∀ json,
      validateDocument env key value = .ok (some json) →
        expiry moment.clock json ≠ .current) :
      ¬ UnsignedRival env moment store key value := fun hrival => by
    obtain ⟨json, hjson, hexpiry, -⟩ := hrival.reachesSet
    exact hdocument json hjson hexpiry
  have hwell (result) (h : validateDocument env key value = .ok result) :
      ¬ MalformedValue env key value :=
    validateDocument_returns.mp ⟨result, h⟩
  cases houtcome with
  | stored h =>
      obtain ⟨json, metadata, haccepted⟩ := hstore key value h
      refine iff_of_true ⟨true, rfl⟩
        ⟨not_malformedValue_of_accepted haccepted, fun hrival => ?_⟩
      obtain ⟨-, -, -, stored, hlookup, hne⟩ := hrival.reachesSet
      exact hne (Option.some.inj (hlookup.symm.trans h))
  | fault fault h hdocument =>
      refine iff_of_false (by simp) fun hnot => ?_
      obtain ⟨result, hreturn⟩ := validateDocument_returns.mpr hnot.1
      rw [hdocument] at hreturn
      cases hreturn
  | unaccepted h hdocument =>
      exact iff_of_true ⟨false, rfl⟩
        ⟨hwell none hdocument, hrival (by simp [hdocument])⟩
  | malformedExpiry json h hdocument hexpiry =>
      exact iff_of_true ⟨false, rfl⟩
        ⟨hwell _ hdocument, hrival (by simp [hdocument, hexpiry])⟩
  | expired json h hdocument hexpiry =>
      exact iff_of_true ⟨false, rfl⟩
        ⟨hwell _ hdocument, hrival (by simp [hdocument, hexpiry])⟩
  | inserted json h hdocument hexpiry =>
      refine iff_of_true ⟨true, rfl⟩ ⟨hwell _ hdocument, fun hrival => ?_⟩
      obtain ⟨-, -, -, stored, hlookup, -⟩ := hrival.reachesSet
      rw [h] at hlookup
      cases hlookup
  | updated json stored h hne hdocument hexpiry =>
      obtain ⟨metadata, haccepted⟩ := validateDocument_eq_some.mp hdocument
      rw [set_returns hstore haccepted hexpiry h, and_iff_right]
      exact hwell _ hdocument

end Returns

/-! ## Offers on which a call does not return -/

def userText : String :=
  "\x7b\"avatar\":\x7b\x7d,\"created_at\":\"\",\"metadata\":\"user\",\"monero_address\":\"\"," ++
    "\"public_key\":\"\",\"signature\":\"\"\x7d"

def unsignedText : String := "\x7b\"metadata\":\"message\"\x7d"

def signedText : String := "\x7b\"metadata\":\"message\",\"signature\":\"SigV2\"\x7d"

def peerExternals : Externals :=
  .ofDocuments
    [(userText, .object [("avatar", .object []), ("created_at", .string ""),
        ("metadata", .string "user"), ("monero_address", .string ""),
        ("public_key", .string ""), ("signature", .string "")]),
     (unsignedText, .object [("metadata", .string "message")]),
     (signedText, .object [("metadata", .string "message"),
        ("signature", .string "SigV2")])]

def peerKey : String :=
  "2c26b46b68ffc68ff99b453c1d30413413422d706483bfa0f98a5e886266e7ae"

def peerMoment : Moment := ⟨1704067200, fun _ => true⟩

def unsignedStore : Store := Store.empty.insertData peerKey unsignedText

/-- Offered to a new node, and to one that stores an unsigned message. -/
theorem put_faults :
    (put peerExternals peerMoment Store.empty peerKey userText).1 =
        .error .absentField ∧
      runFrom (callStep peerExternals) Store.empty
        [.put ⟨peerMoment, peerKey, unsignedText⟩] = some unsignedStore ∧
      (put peerExternals peerMoment unsignedStore peerKey signedText).1 =
        .error .typeError := by
  decide

theorem put_returns_unsignedStore :
    ¬ MalformedValue peerExternals peerKey unsignedText ∧
      ¬ UnsignedRival peerExternals peerMoment unsignedStore peerKey
        unsignedText :=
  (put_returns
    ⟨[.put ⟨peerMoment, peerKey, unsignedText⟩], by decide⟩).mp
    ⟨true, by decide⟩

end Neroshop.Node
