import Neroshop.Node.Validate

/-!
# Storing an offered value

`put` skips a value that is stored already, validates it, and stores it under
a new key.  Under a key that is taken `set` decides: it rejects a change of an
immutable member or an old signature, keeps the stored value when that is up
to date, and replaces it otherwise.
-/

namespace Neroshop.Node

def immutableFields : String → List String
  | "user" => ["monero_address"]
  | "listing" => ["id", "seller_id"]
  | "product_rating" => ["rater_id"]
  | "seller_rating" => ["rater_id"]
  | _ => []

def areStrings (json : Json) : List String → Except Fault Bool
  | [] => .ok true
  | name :: names => do
      if !(← json.index name).isString then return false
      areStrings json names

def areUnchanged (json current : Json) : List String → Except Fault Bool
  | [] => .ok true
  | name :: names => do
      if (← (← json.index name).getString) ≠
          (← (← current.index name).getString) then return false
      areUnchanged json current names

def sameIdentity (json current : Json) : Except Fault Bool := do
  let metadata ← (← json.index "metadata").getString
  if metadata ≠ (← (← current.index "metadata").getString) then return false
  if !(← areStrings json (immutableFields metadata)) then return false
  areUnchanged json current (immutableFields metadata)

def signatureUpdated (json current : Json) : Except Fault Bool := do
  if json.contains "signature" then
    if (← json.index "signature").isString then
      let signature ← (← json.index "signature").getString
      if signature = (← (← current.index "signature").getString) then
        return false
  return true

def upToDate (json current : Json) : Except Fault Bool := do
  if !json.contains "last_updated" && current.contains "last_updated" then
    return true
  if json.contains "last_updated" then
    if (← json.index "last_updated").isString then
      let lastUpdated ← (← json.index "last_updated").getString
      if current.contains "last_updated" then
        -- the current value's member is read only when it is a string
        if (← current.index "last_updated").isString then
          let currentLastUpdated ← (← current.index "last_updated").getString
          if Timestamp.getMostRecentTimestamp lastUpdated currentLastUpdated =
              currentLastUpdated then
            return true
  return false

inductive Update where
  | reject
  | keep
  | replace
  deriving DecidableEq, Repr

def judgeUpdate (json current : Json) : Except Fault Update := do
  if !(← sameIdentity json current) then return .reject
  if !(← signatureUpdated json current) then return .reject
  if ← upToDate json current then return .keep
  return .replace

/-- The decision of `set` over the texts of the offered and the stored value. -/
def judgeTexts (env : Externals) (value current : String) :
    Except Fault Update := do
  judgeUpdate (← env.parseOrThrow value) (← env.parseOrThrow current)

def Store.insertData (store : Store) (key value : String) : Store :=
  { store with data := store.data.insert key value }

/-- `Node::set`, which `put` calls only where the key is taken. -/
def set (env : Externals) (store : Store) (key value : String) :
    Except Fault Bool × Store :=
  match judgeTexts env value ((store.data.lookup key).getD "") with
  | .error fault => (.error fault, store)
  | .ok .reject => (.ok false, store)
  | .ok .keep => (.ok true, store)
  | .ok .replace => (.ok true, store.insertData key value)

def put (env : Externals) (moment : Moment) (store : Store)
    (key value : String) : Except Fault Bool × Store :=
  if store.data.lookup key = some value then (.ok true, store)
  else
    match validate env moment store key value with
    | (.error fault, after) => (.error fault, after)
    | (.ok false, after) => (.ok false, after)
    | (.ok true, after) =>
        if (after.data.lookup key).isSome ∧ after.data.lookup key ≠ some value
        then set env after key value
        else (.ok true, after.insertData key value)

structure Offer where
  moment : Moment
  key : String
  value : String

/-- A call that ends in a fault leaves the tables as they are at that point. -/
def Offer.apply (env : Externals) (store : Store) (offer : Offer) : Store :=
  (put env offer.moment store offer.key offer.value).2

def afterOffers (env : Externals) (store : Store) (offers : List Offer) :
    Store :=
  offers.foldl (Offer.apply env) store

/-! ## What a call of `put` does -/

section PutCases

variable {env : Externals} {moment : Moment} {store : Store}
  {key value : String}

theorem judgeTexts_of_parse {current : String} {json currentJson : Json}
    (hvalue : env.parse value = .ok json)
    (hcurrent : env.parse current = .ok currentJson) :
    judgeTexts env value current = judgeUpdate json currentJson := by
  simp [judgeTexts, Externals.parseOrThrow, hvalue, hcurrent, bind, Except.bind]

theorem put_of_stored (h : store.data.lookup key = some value) :
    put env moment store key value = (.ok true, store) := by
  simp [put, h]

theorem put_of_fault (h : store.data.lookup key ≠ some value) {fault : Fault}
    (hdocument : validateDocument env key value = .error fault) :
    put env moment store key value = (.error fault, store) := by
  simp [put, h, validate, hdocument]

theorem put_of_unaccepted (h : store.data.lookup key ≠ some value)
    (hdocument : validateDocument env key value = .ok none) :
    put env moment store key value = (.ok false, store) := by
  simp [put, h, validate, hdocument]

theorem put_of_accepted (h : store.data.lookup key ≠ some value) {json : Json}
    (hdocument : validateDocument env key value = .ok (some json)) :
    put env moment store key value =
      match expiry moment.clock json with
      | .malformed => (.ok false, store)
      | .expired => (.ok false, store.discard moment key)
      | .current =>
          match store.data.lookup key with
          | none => (.ok true, store.insertData key value)
          | some _ => set env store key value := by
  simp only [put, h, if_false, validate, hdocument]
  cases expiry moment.clock json with
  | malformed => rfl
  | expired => rfl
  | current => cases hlookup : store.data.lookup key <;> simp_all

inductive PutOutcome (env : Externals) (moment : Moment) (store : Store)
    (key value : String) : Except Fault Bool → Store → Prop
  | stored (h : store.data.lookup key = some value) :
      PutOutcome env moment store key value (.ok true) store
  | fault (fault : Fault) (h : store.data.lookup key ≠ some value)
      (hdocument : validateDocument env key value = .error fault) :
      PutOutcome env moment store key value (.error fault) store
  | unaccepted (h : store.data.lookup key ≠ some value)
      (hdocument : validateDocument env key value = .ok none) :
      PutOutcome env moment store key value (.ok false) store
  | malformedExpiry (json : Json) (h : store.data.lookup key ≠ some value)
      (hdocument : validateDocument env key value = .ok (some json))
      (hexpiry : expiry moment.clock json = .malformed) :
      PutOutcome env moment store key value (.ok false) store
  | expired (json : Json) (h : store.data.lookup key ≠ some value)
      (hdocument : validateDocument env key value = .ok (some json))
      (hexpiry : expiry moment.clock json = .expired) :
      PutOutcome env moment store key value (.ok false)
        (store.discard moment key)
  | inserted (json : Json) (h : store.data.lookup key = none)
      (hdocument : validateDocument env key value = .ok (some json))
      (hexpiry : expiry moment.clock json = .current) :
      PutOutcome env moment store key value (.ok true)
        (store.insertData key value)
  | updated (json : Json) (current : String)
      (h : store.data.lookup key = some current) (hne : current ≠ value)
      (hdocument : validateDocument env key value = .ok (some json))
      (hexpiry : expiry moment.clock json = .current) :
      PutOutcome env moment store key value (set env store key value).1
        (set env store key value).2

theorem put_outcome (env : Externals) (moment : Moment) (store : Store)
    (key value : String) :
    PutOutcome env moment store key value (put env moment store key value).1
      (put env moment store key value).2 := by
  by_cases h : store.data.lookup key = some value
  · rw [put_of_stored h]
    exact .stored h
  cases hdocument : validateDocument env key value with
  | error fault =>
      rw [put_of_fault h hdocument]
      exact .fault fault h hdocument
  | ok result =>
  cases result with
  | none =>
      rw [put_of_unaccepted h hdocument]
      exact .unaccepted h hdocument
  | some json =>
  rw [put_of_accepted h hdocument]
  cases hexpiry : expiry moment.clock json with
  | malformed => exact .malformedExpiry json h hdocument hexpiry
  | expired => exact .expired json h hdocument hexpiry
  | current =>
  cases hlookup : store.data.lookup key with
  | none => exact .inserted json hlookup hdocument hexpiry
  | some current =>
      have hne : current ≠ value := fun heq => h (by rw [hlookup, heq])
      exact .updated json current hlookup hne hdocument hexpiry

theorem set_store (env : Externals) (store : Store) (key value : String) :
    (set env store key value).2 = store ∨
      (set env store key value).1 = .ok true ∧
        (set env store key value).2 = store.insertData key value := by
  unfold set
  split <;> simp

@[simp] theorem insertData_lookup (store : Store) (key value : String) :
    (store.insertData key value).data.lookup key = some value := by
  simp [Store.insertData]

theorem insertData_lookup_of_ne (store : Store) {key other : String}
    (value : String) (hne : other ≠ key) :
    (store.insertData key value).data.lookup other =
      store.data.lookup other := by
  simp [Store.insertData, Finmap.lookup_insert_of_ne _ hne]

theorem apply_outcome (env : Externals) (store : Store) (offer : Offer) :
    ∃ result, PutOutcome env offer.moment store offer.key offer.value result
      (offer.apply env store) :=
  ⟨_, put_outcome env offer.moment store offer.key offer.value⟩

theorem put_lookup_of_ne {other : String} (hne : other ≠ key) :
    (put env moment store key value).2.data.lookup other =
      store.data.lookup other := by
  have houtcome := put_outcome env moment store key value
  generalize (put env moment store key value).1 = result at houtcome
  generalize (put env moment store key value).2 = after at houtcome ⊢
  cases houtcome with
  | stored => rfl
  | fault => rfl
  | unaccepted => rfl
  | malformedExpiry => rfl
  | expired => simp [Finmap.lookup_erase_ne hne]
  | inserted => exact insertData_lookup_of_ne store value hne
  | updated =>
      rcases set_store env store key value with h | ⟨-, h⟩
      · rw [h]
      · rw [h, insertData_lookup_of_ne store value hne]

theorem insertData_origin {json : Json}
    (hdocument : validateDocument env key value = .ok (some json))
    {other stored : String}
    (h : (store.insertData key value).data.lookup other = some stored) :
    store.data.lookup other = some stored ∨
      other = key ∧ stored = value ∧
        ∃ json metadata, Accepted env key value json metadata := by
  by_cases hother : other = key
  · subst hother
    rw [insertData_lookup, Option.some.injEq] at h
    exact .inr ⟨rfl, h.symm, json, validateDocument_eq_some.mp hdocument⟩
  · rw [insertData_lookup_of_ne store value hother] at h
    exact .inl h

/-- What is stored after a call was stored before or has been accepted now. -/
theorem put_lookup_origin {other stored : String}
    (h : (put env moment store key value).2.data.lookup other = some stored) :
    store.data.lookup other = some stored ∨
      other = key ∧ stored = value ∧
        ∃ json metadata, Accepted env key value json metadata := by
  have houtcome := put_outcome env moment store key value
  generalize (put env moment store key value).1 = result at houtcome
  generalize (put env moment store key value).2 = after at houtcome h
  cases houtcome with
  | stored => exact .inl h
  | fault => exact .inl h
  | unaccepted => exact .inl h
  | malformedExpiry => exact .inl h
  | expired =>
      left
      by_cases hother : other = key
      · subst hother
        simp at h
      · simpa [Finmap.lookup_erase_ne hother] using h
  | inserted json _ hdocument => exact insertData_origin hdocument h
  | updated json current _ _ hdocument =>
      rcases set_store env store key value with hstore | ⟨-, hstore⟩
      · rw [hstore] at h
        exact .inl h
      · rw [hstore] at h
        exact insertData_origin hdocument h

/-- What a call stores or has stored: an offer that passes every test. -/
def Storable (env : Externals) (moment : Moment) (store : Store)
    (key value : String) : Prop :=
  store.data.lookup key = some value ∨
    ∃ json metadata, Accepted env key value json metadata ∧
      expiry moment.clock json = .current ∧
      ∀ current, store.data.lookup key = some current →
        ∃ update, judgeTexts env value current = .ok update ∧
          update ≠ .reject

theorem set_eq_true_iff {current : String}
    (h : store.data.lookup key = some current) :
    (set env store key value).1 = .ok true ↔
      ∃ update, judgeTexts env value current = .ok update ∧
        update ≠ .reject := by
  simp only [set, h, Option.getD_some]
  cases judgeTexts env value current with
  | error fault => simp
  | ok update => cases update <;> simp

theorem not_storable (h : store.data.lookup key ≠ some value)
    (hrefused : ∀ json, validateDocument env key value = .ok (some json) →
      expiry moment.clock json ≠ .current) :
    ¬ Storable env moment store key value := by
  rintro (hstored | ⟨json, metadata, haccepted, hcurrent, -⟩)
  · exact h hstored
  · exact hrefused json (validateDocument_eq_some.mpr ⟨metadata, haccepted⟩)
      hcurrent

theorem put_eq_true_iff :
    (put env moment store key value).1 = .ok true ↔
      Storable env moment store key value := by
  have houtcome := put_outcome env moment store key value
  generalize (put env moment store key value).1 = result at houtcome
  generalize (put env moment store key value).2 = after at houtcome
  cases houtcome with
  | stored h => exact iff_of_true rfl (.inl h)
  | fault fault h hfault =>
      exact iff_of_false (by simp) (not_storable h (by simp [hfault]))
  | unaccepted h hnone =>
      exact iff_of_false (by simp) (not_storable h (by simp [hnone]))
  | malformedExpiry json h hjson hexpiry =>
      exact iff_of_false (by simp) (not_storable h (by simp [hjson, hexpiry]))
  | expired json h hjson hexpiry =>
      exact iff_of_false (by simp) (not_storable h (by simp [hjson, hexpiry]))
  | inserted json h hjson hexpiry =>
      obtain ⟨metadata, haccepted⟩ := validateDocument_eq_some.mp hjson
      refine iff_of_true rfl (.inr ⟨json, metadata, haccepted, hexpiry, ?_⟩)
      intro current hcurrent
      cases h.symm.trans hcurrent
  | updated json current h hne hjson hexpiry =>
      obtain ⟨metadata, haccepted⟩ := validateDocument_eq_some.mp hjson
      rw [set_eq_true_iff h]
      constructor
      · refine fun hupdate => .inr ⟨json, metadata, haccepted, hexpiry, ?_⟩
        intro other hother
        cases h.symm.trans hother
        exact hupdate
      · rintro (hstored | ⟨-, -, -, -, hupdate⟩)
        · exact absurd (Option.some.inj (h.symm.trans hstored)) hne
        · exact hupdate current h

end PutCases

end Neroshop.Node
