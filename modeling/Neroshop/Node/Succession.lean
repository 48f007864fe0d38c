import Neroshop.Node.Totality

/-!
# What follows a stored value

A value under a key is followed by an offer that has the same identity, a new
signature and a date that supersedes its own, or it is removed.  `set` compares
the owner of a rating and not what is rated, so the subject of a stored rating
stays until an offer under its key names another one.
-/

namespace Neroshop.Node

open Neroshop.Foundation

/-- The offer is accepted, has not expired and is an update of the document. -/
structure Succeeds (env : Externals) (offer : Offer) (currentJson json : Json)
    (metadata : String) : Prop where
  accepted : Accepted env offer.key offer.value json metadata
  unexpired : expiry offer.moment.clock json = .current
  identity : SameIdentity json currentJson metadata
  signature : SignatureDiffers json currentJson
  later : (stamp json).supersedes (stamp currentJson) = true

section Succession

variable {env : Externals} {offer : Offer} {store : Store}
  {key current metadata otherMetadata : String} {json currentJson : Json}

theorem judgeUpdate_eq_replace {value : String}
    (hvalue : Accepted env key value json metadata)
    (hcurrent : Accepted env key current currentJson otherMetadata) :
    judgeUpdate json currentJson = .ok .replace ↔
      SameIdentity json currentJson metadata ∧
        SignatureDiffers json currentJson ∧
        (stamp json).supersedes (stamp currentJson) = true := by
  obtain ⟨same, hsame, hidentity⟩ := sameIdentity_spec hvalue.isObject
    hcurrent.isObject hvalue.kind hcurrent.kind hvalue.immutable
    hcurrent.immutable
  rw [judgeUpdate_replaces hvalue.isObject hcurrent.isObject hsame, hidentity]

/--
An offer under another key or of the stored value leaves the value.  Any other
one removes it when it has expired, takes its place when it succeeds it, and
leaves it otherwise.
-/
theorem apply_lookup_cases (hstore : WellStored env store)
    (hlookup : store.data.lookup key = some current)
    (hparse : env.parse current = .ok currentJson) :
    (offer.apply env store).data.lookup key = some current ∨
      (offer.apply env store).data.lookup key = none ∨
      offer.key = key ∧ offer.value ≠ current ∧
        (offer.apply env store).data.lookup key = some offer.value ∧
        ∃ json metadata, Succeeds env offer currentJson json metadata := by
  by_cases hkey : offer.key = key
  swap
  · left
    rw [Offer.apply, put_lookup_of_ne (Ne.symm hkey), hlookup]
  subst hkey
  obtain ⟨result, houtcome⟩ := apply_outcome env store offer
  generalize offer.apply env store = after at houtcome ⊢
  cases houtcome with
  | stored => exact .inl hlookup
  | fault => exact .inl hlookup
  | unaccepted => exact .inl hlookup
  | malformedExpiry => exact .inl hlookup
  | expired => exact .inr (.inl (by simp))
  | inserted json h =>
      rw [hlookup] at h
      cases h
  | updated json found h hne hdocument hexpiry =>
      have hsame : found = current := Option.some.inj (h.symm.trans hlookup)
      subst hsame
      obtain ⟨metadata, haccepted⟩ := validateDocument_eq_some.mp hdocument
      obtain ⟨stored, otherMetadata, hother⟩ := hstore _ _ h
      have hstored : stored = currentJson :=
        Except.ok.inj (hother.parsed.symm.trans hparse)
      subst hstored
      simp only [set, h, Option.getD_some,
        judgeTexts_of_parse haccepted.parsed hother.parsed]
      cases hupdate : judgeUpdate json stored with
      | error fault => exact .inl hlookup
      | ok update =>
      cases update with
      | reject => exact .inl hlookup
      | keep => exact .inl hlookup
      | replace =>
          obtain ⟨hidentity, hsignature, hlater⟩ :=
            (judgeUpdate_eq_replace haccepted hother).mp hupdate
          refine .inr (.inr ⟨trivial, Ne.symm hne, insertData_lookup _ _ _, json,
            metadata, ?_⟩)
          exact ⟨haccepted, hexpiry, hidentity, hsignature, hlater⟩

theorem apply_lookup_of_succeeds (hstore : WellStored env store)
    (hlookup : store.data.lookup offer.key = some current)
    (hparse : env.parse current = .ok currentJson)
    (hne : offer.value ≠ current)
    (hsucceeds : Succeeds env offer currentJson json metadata) :
    (offer.apply env store).data.lookup offer.key = some offer.value := by
  obtain ⟨stored, otherMetadata, hother⟩ := hstore _ _ hlookup
  have hstored : stored = currentJson :=
    Except.ok.inj (hother.parsed.symm.trans hparse)
  subst hstored
  have hunstored : store.data.lookup offer.key ≠ some offer.value :=
    fun h => hne (Option.some.inj (h.symm.trans hlookup))
  have hjudge : judgeTexts env offer.value current = .ok .replace := by
    rw [judgeTexts_of_parse hsucceeds.accepted.parsed hother.parsed]
    exact (judgeUpdate_eq_replace hsucceeds.accepted hother).mpr
      ⟨hsucceeds.identity, hsucceeds.signature, hsucceeds.later⟩
  rw [Offer.apply, put_of_accepted hunstored
    (validateDocument_eq_some.mpr ⟨metadata, hsucceeds.accepted⟩),
    hsucceeds.unexpired, hlookup]
  simp [set, hlookup, hjudge]

end Succession

/-! ## Runs that keep a value under a key -/

/-- A call of `put` after which the key still has a value. -/
def keptStep (env : Externals) (key : String) (store : Store) (offer : Offer) :
    Option Store :=
  if ((offer.apply env store).data.lookup key).isSome
  then some (offer.apply env store) else none

def HoldsAt (env : Externals) (store : Store) (key : String)
    (property : Json → Prop) : Prop :=
  ∃ value json, store.data.lookup key = some value ∧
    env.parse value = .ok json ∧ property json

/-- The offer succeeds the stored document and does not keep to it. -/
def Breaks (env : Externals) (keeps : String → Json → Json → Prop)
    (store : Store) (offer : Offer) : Prop :=
  ∃ current currentJson json metadata,
    store.data.lookup offer.key = some current ∧
    env.parse current = .ok currentJson ∧
    Succeeds env offer currentJson json metadata ∧
    ¬ keeps metadata currentJson json

section Runs

variable {env : Externals} {store final : Store} {offers : List Offer}
  {key : String}

theorem keptStep_eq_some {offer : Offer} {after : Store} :
    keptStep env key store offer = some after ↔
      offer.apply env store = after ∧ ∃ value,
        after.data.lookup key = some value := by
  unfold keptStep
  split
  · next hsome =>
      rw [Option.some.injEq, ← Option.isSome_iff_exists]
      exact ⟨fun h => ⟨h, h ▸ hsome⟩, And.left⟩
  · next hnone =>
      refine iff_of_false (by simp) ?_
      rintro ⟨rfl, value, hvalue⟩
      simp [hvalue] at hnone

/--
A property that passes from a document to every offer that succeeds it holds
of the document under the key for as long as there is one.
-/
theorem runFrom_kept {meets : Store → Offer → Prop} (property : Json → Prop)
    (preserved : ∀ store offer current currentJson json metadata,
      meets store offer → offer.key = key →
      store.data.lookup key = some current →
      env.parse current = .ok currentJson → property currentJson →
      Succeeds env offer currentJson json metadata → property json)
    (hmeets : AllMeet (keptStep env key) meets store offers)
    (hrun : runFrom (keptStep env key) store offers = some final)
    (hstore : WellStored env store) (hstart : HoldsAt env store key property) :
    HoldsAt env final key property := by
  have hfinal : WellStored env final ∧ HoldsAt env final key property := by
    refine runFrom_invariant
      (fun store => WellStored env store ∧ HoldsAt env store key property)
      ?_ hmeets hrun ⟨hstore, hstart⟩
    rintro store offer after ⟨hwell, current, currentJson, hlookup, hparse,
      hproperty⟩ hmeet hstep
    obtain ⟨rfl, value, hvalue⟩ := keptStep_eq_some.mp hstep
    refine ⟨wellStored_put hwell, ?_⟩
    rcases apply_lookup_cases hwell hlookup hparse with
      hkept | hgone | ⟨hkey, -, hafter, json, metadata, hsucceeds⟩
    · exact ⟨current, currentJson, hkept, hparse, hproperty⟩
    · rw [hgone] at hvalue
      cases hvalue
    · exact ⟨offer.value, json, hafter, hsucceeds.accepted.parsed,
        preserved store offer current currentJson json metadata hmeet hkey
          hlookup hparse hproperty hsucceeds⟩
  exact hfinal.2

theorem breaks_iff {keeps : String → Json → Json → Prop} {offer : Offer}
    {current metadata : String} {first : Json} (hstore : WellStored env store)
    (hlookup : store.data.lookup offer.key = some current)
    (hparse : env.parse current = .ok first)
    (hkind : first.string? "metadata" = some metadata)
    (hfirst : keeps metadata first first) :
    Breaks env keeps store offer ↔
      HoldsAt env (offer.apply env store) offer.key
        fun json => ¬ keeps metadata first json := by
  constructor
  · rintro ⟨stored, currentJson, json, kind, hstored, hcurrent, hsucceeds,
      hbreaks⟩
    have hsame : stored = current := Option.some.inj (hstored.symm.trans hlookup)
    subst hsame
    have hjson : currentJson = first :=
      Except.ok.inj (hcurrent.symm.trans hparse)
    subst hjson
    have hmetadata : kind = metadata :=
      Option.some.inj (hsucceeds.identity.currentKind.symm.trans hkind)
    subst hmetadata
    have hne : offer.value ≠ stored := fun heq => by
      have hsame : json = currentJson := Except.ok.inj
        (hsucceeds.accepted.parsed.symm.trans (heq ▸ hparse))
      exact hbreaks (hsame ▸ hfirst)
    exact ⟨offer.value, json,
      apply_lookup_of_succeeds hstore hlookup hparse hne hsucceeds,
      hsucceeds.accepted.parsed, hbreaks⟩
  · rintro ⟨value, json, hafter, hjson, hbreaks⟩
    rcases apply_lookup_cases hstore hlookup hparse with
      hkept | hgone | ⟨-, -, hnext, found, kind, hsucceeds⟩
    · have hvalue : value = current := Option.some.inj (hafter.symm.trans hkept)
      subst hvalue
      have hsame : json = first := Except.ok.inj (hjson.symm.trans hparse)
      exact absurd (hsame ▸ hfirst) hbreaks
    · rw [hgone] at hafter
      cases hafter
    · have hvalue : value = offer.value :=
        Option.some.inj (hafter.symm.trans hnext)
      subst hvalue
      have hsame : found = json :=
        Except.ok.inj (hsucceeds.accepted.parsed.symm.trans hjson)
      subst hsame
      have hmetadata : kind = metadata :=
        Option.some.inj (hsucceeds.identity.currentKind.symm.trans hkind)
      subst hmetadata
      exact ⟨current, first, found, kind, hlookup, hparse, hsucceeds, hbreaks⟩

end Runs

/-! ## The identity of a stored value -/

def subjectFields : String → List String
  | "product_rating" => ["product_id"]
  | "seller_rating" => ["seller_id"]
  | _ => []

def SameSubject (metadata : String) (json other : Json) : Prop :=
  ∀ name ∈ subjectFields metadata, json.find? name = other.find? name

/-- The offer succeeds a rating and is about another subject. -/
def Resubjects (env : Externals) : Store → Offer → Prop :=
  Breaks env SameSubject

section Identity

variable {env : Externals} {store final : Store} {offers : List Offer}
  {key current metadata : String} {first : Json}

theorem SameIdentity.trans {json other third : Json} {otherMetadata : String}
    (h : SameIdentity json other metadata)
    (hnext : SameIdentity third other otherMetadata) :
    SameIdentity json third metadata := by
  have hmetadata : otherMetadata = metadata :=
    Option.some.inj (hnext.currentKind.symm.trans h.currentKind)
  subst hmetadata
  refine ⟨h.kind, hnext.kind, fun name hname => ?_⟩
  obtain ⟨text, hjson, hother⟩ := h.members name hname
  obtain ⟨text', hthird, hother'⟩ := hnext.members name hname
  have htext : text' = text := Option.some.inj (hother'.symm.trans hother)
  exact ⟨text, hjson, htext ▸ hthird⟩

/--
While a key has a value, its kind and its owner stay, and what a rating is
about stays as long as no offer under the key succeeds it with another subject.
-/
theorem identity_kept (hreachable : Reachable env store)
    (hlookup : store.data.lookup key = some current)
    (hparse : env.parse current = .ok first)
    (hkind : first.string? "metadata" = some metadata)
    (hmeets : AllMeet (keptStep env key)
      (fun store offer => offer.key = key → ¬ Resubjects env store offer)
      store offers)
    (hrun : runFrom (keptStep env key) store offers = some final) :
    ∃ value json, final.data.lookup key = some value ∧
      env.parse value = .ok json ∧ SameIdentity first json metadata ∧
      SameSubject metadata first json := by
  have hstore := wellStored_of_reachable hreachable
  refine runFrom_kept (fun json => SameIdentity first json metadata ∧
    SameSubject metadata first json) ?_ hmeets hrun hstore ?_
  · rintro store offer stored currentJson json kind hmeet hkey hstored
      hcurrent ⟨hidentity, hsubject⟩ hsucceeds
    have hmetadata : kind = metadata := Option.some.inj
      (hsucceeds.identity.currentKind.symm.trans hidentity.currentKind)
    subst hmetadata
    refine ⟨hidentity.trans hsucceeds.identity, fun name hname => ?_⟩
    have hsame : SameSubject kind currentJson json := by
      by_contra hdiffers
      exact hmeet hkey ⟨stored, currentJson, json, kind, hkey ▸ hstored,
        hcurrent, hsucceeds, hdiffers⟩
    rw [hsubject name hname, hsame name hname]
  · obtain ⟨json, kind, haccepted⟩ := hstore key current hlookup
    have hjson : json = first :=
      Except.ok.inj (haccepted.parsed.symm.trans hparse)
    subst hjson
    have hmetadata : kind = metadata :=
      Option.some.inj (haccepted.kind.symm.trans hkind)
    subst hmetadata
    refine ⟨current, json, hlookup, hparse, ⟨hkind, hkind, ?_⟩, fun _ _ => rfl⟩
    intro name hname
    obtain ⟨text, htext⟩ := haccepted.immutable name hname
    exact ⟨text, htext, htext⟩

/-- One step changes the subject of a stored rating on those offers only. -/
theorem resubjects_iff {offer : Offer} (hreachable : Reachable env store)
    (hlookup : store.data.lookup offer.key = some current)
    (hparse : env.parse current = .ok first)
    (hkind : first.string? "metadata" = some metadata) :
    Resubjects env store offer ↔
      HoldsAt env (offer.apply env store) offer.key
        fun json => ¬ SameSubject metadata first json :=
  breaks_iff (wellStored_of_reachable hreachable) hlookup hparse hkind
    fun _ _ => rfl

end Identity

/-! ## A rating that moves to another seller -/

def raterId : String :=
  "5MASi45ub7Qe4ZE36UT5G6cU4ud8Fhhe4deS4F3cw9KTAb8d" ++
    "LcukC7edhDQ7cn5d4gEYkbUrMWeWQLGsCmrG6dLaYyNoVKf"

def sellerId : String :=
  "558ZTBqNAYT3j5qcdsyuMNmPfYetW5v6JXmj54omLidkuVKn" ++
    "RyjP2WPBg8Y4ErK9pGSSxY6BVScJy9uUxcJnTPkyRFA6CAF"

def otherSellerId : String :=
  "5jF1YveCHK1ATbQgdM9mwZgikp4WzxrxktcSSSS7XhS4D5EV" ++
    "B8Nf471dAb7Qg25xEgRAhHPfQX88wYWXXL6A7pNpHXvmBa2"

def firstSignature : String :=
  "SigV2EaQAmb2qaLix6mwHaQBPrFbbrZNhFgtsqwDtGuSptF" ++
    "DaYPo22sJXHDmfPVtoPQ6F7FXDNEXgzgv1XiPti6vj8Rsn"

def secondSignature : String :=
  "SigV2qDXyCUshN6toSWSp6oBB92AezWtiAgufXjPAcc921t" ++
    "oi7ap9UxDuxE2HEKZGqeMHbTv94pPzWjeuzaTuyZ9bAaZ2"

def ratingText (sellerId signature : String) : String :=
  "\x7b\"comments\":\"Shipped fast\",\"metadata\":\"seller_rating\"," ++
    "\"rater_id\":\"" ++ raterId ++ "\",\"score\":1,\"seller_id\":\"" ++
    sellerId ++ "\",\"signature\":\"" ++ signature ++
    "\",\"timestamp\":\"2024-01-01T00:00:00Z\"\x7d"

def ratingDocument (sellerId signature : String) : Json :=
  .object [("comments", .string "Shipped fast"),
    ("metadata", .string "seller_rating"), ("rater_id", .string raterId),
    ("score", .unsigned 1), ("seller_id", .string sellerId),
    ("signature", .string signature),
    ("timestamp", .string "2024-01-01T00:00:00Z")]

def ratingExternals : Externals :=
  .ofSignatures
    [(ratingText sellerId firstSignature,
        ratingDocument sellerId firstSignature),
     (ratingText sellerId secondSignature,
        ratingDocument sellerId secondSignature),
     (ratingText otherSellerId secondSignature,
        ratingDocument otherSellerId secondSignature)]
    [("Shipped fast", raterId, firstSignature),
     ("Shipped fast", raterId, secondSignature)]

def ratingKey : String :=
  "8d1f3b7c0a5e49e2b6d4c8f1907a3e5d2c4b6a8f0e1d3c5b7a9f8e6d4c2b0a1f"

def ratingOffer (sellerId signature : String) : Offer :=
  ⟨peerMoment, ratingKey, ratingText sellerId signature⟩

def ratedStore : Store :=
  Store.empty.insertData ratingKey (ratingText sellerId firstSignature)

theorem parse_rated :
    ratingExternals.parse (ratingText sellerId firstSignature) =
      .ok (ratingDocument sellerId firstSignature) := by
  simp [ratingExternals, Externals.ofSignatures, parseListed]

theorem parse_rerated :
    ratingExternals.parse (ratingText sellerId secondSignature) =
      .ok (ratingDocument sellerId secondSignature) := by
  have hfirst : (ratingText sellerId secondSignature ==
      ratingText sellerId firstSignature) = false := by decide +kernel
  simp [ratingExternals, Externals.ofSignatures, parseListed, List.lookup_cons, hfirst]

theorem parse_moved :
    ratingExternals.parse (ratingText otherSellerId secondSignature) =
      .ok (ratingDocument otherSellerId secondSignature) := by
  have hfirst : (ratingText otherSellerId secondSignature ==
      ratingText sellerId firstSignature) = false := by decide +kernel
  have hsecond : (ratingText otherSellerId secondSignature ==
      ratingText sellerId secondSignature) = false := by decide +kernel
  simp [ratingExternals, Externals.ofSignatures, parseListed, List.lookup_cons, hfirst,
    hsecond]

theorem identity_moves :
    runFrom (callStep ratingExternals) Store.empty
        [.put (ratingOffer sellerId firstSignature)] = some ratedStore ∧
      runFrom (keptStep ratingExternals ratingKey) ratedStore
        [ratingOffer otherSellerId secondSignature] =
          some (ratedStore.insertData ratingKey
            (ratingText otherSellerId secondSignature)) ∧
      ¬ ∃ json, ratingExternals.parse
          (ratingText otherSellerId secondSignature) = .ok json ∧
        SameSubject "seller_rating" (ratingDocument sellerId firstSignature)
          json := by
  refine ⟨by decide +kernel, by decide +kernel, ?_⟩
  rintro ⟨json, hparse, hsubject⟩
  have hjson : ratingDocument otherSellerId secondSignature = json :=
    Except.ok.inj (parse_moved.symm.trans hparse)
  subst hjson
  have hseller := hsubject "seller_id" (by simp [subjectFields])
  have hsame : sellerId = otherSellerId := by
    simpa [ratingDocument, Json.find?, List.lookup_cons] using hseller
  exact absurd hsame (by decide +kernel)

theorem identity_kept_rerated :
    ∃ value json, (ratedStore.insertData ratingKey
        (ratingText sellerId secondSignature)).data.lookup ratingKey =
          some value ∧
      ratingExternals.parse value = .ok json ∧
      SameIdentity (ratingDocument sellerId firstSignature) json
        "seller_rating" ∧
      SameSubject "seller_rating" (ratingDocument sellerId firstSignature)
        json := by
  have hreachable : Reachable ratingExternals ratedStore :=
    ⟨[.put (ratingOffer sellerId firstSignature)], by decide +kernel⟩
  have hrun : runFrom (keptStep ratingExternals ratingKey) ratedStore
      [ratingOffer sellerId secondSignature] =
        some (ratedStore.insertData ratingKey
          (ratingText sellerId secondSignature)) := by
    decide +kernel
  refine identity_kept hreachable (insertData_lookup _ _ _) parse_rated rfl
    ?_ hrun
  refine ⟨fun _ => ?_, fun _ _ => trivial⟩
  rintro ⟨current, currentJson, json, metadata, hlookup, hcurrent, hsucceeds,
    hdiffers⟩
  have hstored : current = ratingText sellerId firstSignature :=
    Option.some.inj (hlookup.symm.trans (insertData_lookup _ _ _))
  subst hstored
  have hcurrentJson : ratingDocument sellerId firstSignature = currentJson :=
    Except.ok.inj (parse_rated.symm.trans hcurrent)
  subst hcurrentJson
  have hjson : ratingDocument sellerId secondSignature = json :=
    Except.ok.inj (parse_rerated.symm.trans hsucceeds.accepted.parsed)
  subst hjson
  have hkind : "seller_rating" = metadata :=
    Option.some.inj hsucceeds.accepted.kind
  subst hkind
  exact hdiffers (by simp [SameSubject, subjectFields, ratingDocument,
    Json.find?, List.lookup_cons])

end Neroshop.Node
