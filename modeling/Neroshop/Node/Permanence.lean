import Neroshop.Node.Update

/-!
# Stored orders and messages

Orders and messages carry no immutable members and no verified signature, so
the identity never protects them.  An offer displaces a stored one when it has
expired, and when it is a document of the same kind whose signature, where it
has one, is new and whose date supersedes the stored one.
-/

namespace Neroshop.Node

/-- The kinds that are meant to be stored once. -/
def Unique (metadata : String) : Prop :=
  metadata = "order" ∨ metadata = "message"

/-- The offer takes the stored value, of the same kind or of any, away. -/
def Displaces (env : Externals) (offer : Offer) (current : String) : Prop :=
  offer.value ≠ current ∧
    ∃ json metadata currentJson,
      Accepted env offer.key offer.value json metadata ∧
      env.parse current = .ok currentJson ∧
      (expiry offer.moment.clock json = .expired ∨
        expiry offer.moment.clock json = .current ∧
        currentJson.string? "metadata" = some metadata ∧
        SignatureDiffers json currentJson ∧
        (stamp json).supersedes (stamp currentJson) = true)

section Permanence

variable {env : Externals} {offer : Offer} {store : Store}
  {key current metadata : String} {json currentJson : Json}

theorem sameIdentity_unique (hjson : json.isObject = true) {kind : String}
    (hkind : json.string? "metadata" = some kind)
    (hcurrent : currentJson.string? "metadata" = some metadata)
    (hunique : Unique metadata) :
    sameIdentity json currentJson = .ok (decide (kind = metadata)) := by
  have hnames : immutableFields metadata = [] := by
    rcases hunique with rfl | rfl <;> rfl
  simp only [sameIdentity, Json.index_of_isObject hjson,
    Json.index_of_isObject (Json.isObject_of_string? hcurrent),
    Json.getString_getD_find?, hkind, hcurrent, bind, Except.bind, pure,
    Except.pure]
  by_cases hsame : kind = metadata
  · simp [hsame, hnames, areStrings, areUnchanged]
  · simp [hsame]

theorem judgeUpdate_unique (hjson : json.isObject = true) {kind : String}
    (hkind : json.string? "metadata" = some kind)
    (hcurrent : currentJson.string? "metadata" = some metadata)
    (hunique : Unique metadata) :
    judgeUpdate json currentJson = .ok .replace ↔
      kind = metadata ∧ SignatureDiffers json currentJson ∧
        (stamp json).supersedes (stamp currentJson) = true := by
  rw [judgeUpdate_replaces hjson (Json.isObject_of_string? hcurrent)
    (sameIdentity_unique hjson hkind hcurrent hunique), decide_eq_true_iff]

theorem set_lookup_iff {value : String} (hne : value ≠ current)
    (hlookup : store.data.lookup key = some current) :
    (set env store key value).2.data.lookup key = some current ↔
      judgeTexts env value current ≠ .ok .replace := by
  simp only [set, hlookup, Option.getD_some]
  cases judgeTexts env value current with
  | error fault => simp [hlookup]
  | ok update => cases update <;> simp [hlookup, hne]

/-- What one offer does to a stored order or message. -/
theorem apply_lookup_iff
    (hlookup : store.data.lookup offer.key = some current)
    (hparse : env.parse current = .ok currentJson)
    (hkind : currentJson.string? "metadata" = some metadata)
    (hunique : Unique metadata) :
    (offer.apply env store).data.lookup offer.key = some current ↔
      ¬ Displaces env offer current := by
  have hexclude (h : ∀ json,
      validateDocument env offer.key offer.value = .ok (some json) →
        expiry offer.moment.clock json = .malformed) :
      ¬ Displaces env offer current := by
    rintro ⟨-, json, kind, found, haccepted, -, hcases⟩
    have hmalformed := h json (validateDocument_eq_some.mpr ⟨kind, haccepted⟩)
    rcases hcases with hexpiry | ⟨hexpiry, -⟩ <;>
      · rw [hmalformed] at hexpiry
        cases hexpiry
  obtain ⟨result, houtcome⟩ := apply_outcome env store offer
  generalize offer.apply env store = after at houtcome ⊢
  cases houtcome with
  | stored h =>
      have hsame : offer.value = current :=
        Option.some.inj (h.symm.trans hlookup)
      exact iff_of_true hlookup fun hdisplaces => hdisplaces.1 hsame
  | fault fault h hdocument =>
      exact iff_of_true hlookup (hexclude (by simp [hdocument]))
  | unaccepted h hdocument =>
      exact iff_of_true hlookup (hexclude (by simp [hdocument]))
  | malformedExpiry json h hdocument hexpiry =>
      exact iff_of_true hlookup (hexclude (by simp [hdocument, hexpiry]))
  | expired json h hdocument hexpiry =>
      refine iff_of_false (by simp) (not_not.mpr ?_)
      obtain ⟨kind, haccepted⟩ := validateDocument_eq_some.mp hdocument
      exact ⟨fun heq => h (by rw [hlookup, heq]), json, kind, currentJson,
        haccepted, hparse, .inl hexpiry⟩
  | inserted json h =>
      rw [hlookup] at h
      cases h
  | updated json found h hne hdocument hexpiry =>
      have hsame : found = current := Option.some.inj (h.symm.trans hlookup)
      subst hsame
      obtain ⟨kind, haccepted⟩ := validateDocument_eq_some.mp hdocument
      rw [set_lookup_iff (Ne.symm hne) h,
        judgeTexts_of_parse haccepted.parsed hparse, ne_eq, not_iff_not,
        judgeUpdate_unique haccepted.isObject haccepted.kind hkind hunique]
      constructor
      · rintro ⟨rfl, hsignature, hstamp⟩
        exact ⟨Ne.symm hne, json, _, currentJson, haccepted, hparse,
          .inr ⟨hexpiry, hkind, hsignature, hstamp⟩⟩
      · rintro ⟨-, json', kind', found', haccepted', hparse', hcases⟩
        obtain ⟨rfl, rfl⟩ := haccepted.toShaped.unique haccepted'.toShaped
        have hfound : found' = currentJson :=
          Except.ok.inj (hparse'.symm.trans hparse)
        subst hfound
        rcases hcases with hexpired | ⟨-, hsame, hsignature, hstamp⟩
        · rw [hexpiry] at hexpired
          cases hexpired
        · exact ⟨Option.some.inj (hsame.symm.trans hkind), hsignature, hstamp⟩

theorem apply_lookup_of_ne (hne : offer.key ≠ key) :
    (offer.apply env store).data.lookup key = store.data.lookup key :=
  put_lookup_of_ne (Ne.symm hne)

/--
A stored order or message is there after every step of a run of offers exactly
when none of those made under its key displaces it.
-/
theorem afterOffers_lookup_iff {offers : List Offer}
    (hlookup : store.data.lookup key = some current)
    (hparse : env.parse current = .ok currentJson)
    (hkind : currentJson.string? "metadata" = some metadata)
    (hunique : Unique metadata) :
    (∀ made, made <+: offers →
        (afterOffers env store made).data.lookup key = some current) ↔
      ∀ offer ∈ offers, offer.key = key → ¬ Displaces env offer current := by
  induction offers generalizing store with
  | nil =>
      refine iff_of_true (fun made hmade => ?_) (by simp)
      rw [List.prefix_nil.mp hmade]
      exact hlookup
  | cons offer offers ih =>
      have hstep : (offer.apply env store).data.lookup key = some current ↔
          (offer.key = key → ¬ Displaces env offer current) := by
        by_cases hkey : offer.key = key
        · subst hkey
          simp [apply_lookup_iff hlookup hparse hkind hunique]
        · simp [apply_lookup_of_ne hkey, hlookup, hkey]
      rw [List.forall_mem_cons, ← hstep]
      constructor
      · intro h
        have hfirst := h [offer] (by simp)
        refine ⟨hfirst, (ih hfirst).mp fun made hmade => ?_⟩
        exact h (offer :: made) (by simpa using hmade)
      · rintro ⟨hfirst, hrest⟩ made hmade
        cases made with
        | nil => exact hlookup
        | cons head made =>
            obtain ⟨rfl, htail⟩ := List.cons_prefix_cons.mp hmade
            exact (ih hfirst).mpr hrest made htail

end Permanence

/-! ## One unsigned message takes the place of another -/

def paidText : String := "\x7b\"content\":\"paid\",\"metadata\":\"message\"\x7d"

def paidDocument : Json :=
  .object [("content", .string "paid"), ("metadata", .string "message")]

def unpaidText : String := "\x7b\"content\":\"unpaid\",\"metadata\":\"message\"\x7d"

def unpaidDocument : Json :=
  .object [("content", .string "unpaid"), ("metadata", .string "message")]

def inboxExternals : Externals :=
  .ofDocuments [(paidText, paidDocument), (unpaidText, unpaidDocument)]

def inboxKey : String :=
  "fcde2b2edba56bf408601fb721fe9b5c338d10ee429ea04fae5511b68fbf8fb9"

def inboxStore : Store := Store.empty.insertData inboxKey paidText

def unpaidOffer : Offer := ⟨⟨1704067200, fun _ => true⟩, inboxKey, unpaidText⟩

theorem message_replaced :
    inboxStore.data.lookup inboxKey = some paidText ∧
      unpaidText ≠ paidText ∧
      (unpaidOffer.apply inboxExternals inboxStore).data.lookup inboxKey =
        some unpaidText := by
  decide

theorem displaces_unpaidOffer :
    Displaces inboxExternals unpaidOffer paidText := by
  have hlookup : inboxStore.data.lookup inboxKey = some paidText := by
    decide
  have hparse : inboxExternals.parse paidText = .ok paidDocument := by
    simp [inboxExternals, Externals.ofDocuments, parseListed]
  have hkind : paidDocument.string? "metadata" = some "message" := by
    decide
  by_contra hdisplaces
  have hnone : ∀ offer ∈ [unpaidOffer], offer.key = inboxKey →
      ¬ Displaces inboxExternals offer paidText := by
    simpa using fun _ => hdisplaces
  have hkept := (afterOffers_lookup_iff hlookup hparse hkind (.inr rfl)).mpr
    hnone [unpaidOffer] List.prefix_rfl
  exact absurd hkept (by decide)

end Neroshop.Node
