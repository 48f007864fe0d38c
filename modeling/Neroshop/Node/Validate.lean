import Neroshop.Node.Store

/-!
# Checking an offered value

`validate` parses a value, checks its fields, verifies its signature and
rejects it when it has expired.  The checks before the expiry read nothing but
the value, and are `validateDocument`; only the expiry touches the tables.
-/

namespace Neroshop.Node

def validMetadatas : List String :=
  ["user", "listing", "product_rating", "seller_rating", "order", "message"]

def maxImageSize : Int := 2 * 1024 * 1024

def minUsernameLength : Nat := 2

def maxUsernameLength : Nat := 30

/-- The comparison converts the `int` to `size_t`: a negative size is large. -/
def exceedsImageSize (size : Int) : Bool := maxImageSize < size % 2 ^ 64

def isUsernameSymbol (symbol : Char) : Bool :=
  symbol.isAlphanum || symbol ∈ ['.', '_', '-']

/-- `^[a-zA-Z][a-zA-Z0-9._-]{0,28}[a-zA-Z0-9]$`. -/
def isValidUsername (username : String) : Bool :=
  match username.toList with
  | [] => false
  | first :: rest =>
      match rest.reverse with
      | [] => false
      | last :: middle =>
          first.isAlpha && last.isAlphanum && middle.all isUsernameSymbol &&
            middle.length ≤ 28

/--
`!json.contains(name) && !json[name].is_string()`: false for every member that
is there, whatever its type.
-/
def missesString (json : Json) (name : String) : Except Fault Bool := do
  if json.contains name then return false
  return !(← json.index name).isString

/-- The same test on a constant object, where reading a missing member asserts. -/
def missesConst (avatar : Json) (name : String) (test : Json → Bool) :
    Except Fault Bool := do
  if avatar.contains name then return false
  return !test (← avatar.indexConst name)

def isArray : Json → Bool
  | .array _ => true
  | _ => false

def isNumberInteger : Json → Bool
  | .integer _ => true
  | .unsigned _ => true
  | _ => false

def validateAvatar (avatar : Json) : Except Fault Bool := do
  if !avatar.isObject then return false
  if ← missesConst avatar "name" Json.isString then return false
  if ← missesConst avatar "size" isNumberInteger then return false
  let size ← (← avatar.indexConst "size").getInt
  if exceedsImageSize size then return false
  if ← missesConst avatar "pieces" isArray then return false
  if ← missesConst avatar "piece_size" isNumberInteger then return false
  return true

def validateDisplayName (displayName : Json) : Except Fault Bool := do
  if !displayName.isString then return false
  let name ← displayName.getString
  if !isValidUsername name then return false
  if name.utf8ByteSize < minUsernameLength ∨
      maxUsernameLength < name.utf8ByteSize then return false
  return true

def validateUser (json : Json) : Except Fault Bool := do
  if ← missesString json "created_at" then return false
  if ← missesString json "monero_address" then return false
  if ← missesString json "public_key" then return false
  if ← missesString json "signature" then return false
  if json.contains "avatar" then
    if !(← validateAvatar (← json.index "avatar")) then return false
  if json.contains "display_name" then
    if !(← validateDisplayName (← json.index "display_name")) then return false
  return true

def validateFields (env : Externals) (value : String) : Except Fault Bool := do
  let json ← env.parseOrThrow value
  let metadata ← (← json.index "metadata").getString
  if metadata = "user" then validateUser json else return true

def containsFirstOf (str what : String) : Bool :=
  what.toList.isPrefixOf str.toList

/-- The kinds that are stored under the signature of an owner. -/
def signedKinds : List String :=
  ["user", "listing", "product_rating", "seller_rating"]

/-- The member that is signed and the one with the address of the signer. -/
def signedFields (metadata : String) : String × String :=
  match metadata with
  | "user" => ("monero_address", "monero_address")
  | "listing" => ("id", "seller_id")
  | _ => ("comments", "rater_id")

/-- The signature, empty where there is none; `none` when it is no string. -/
def signatureField (json : Json) : Except Fault (Option String) := do
  if !json.contains "signature" then return some ""
  if !(← json.index "signature").isString then return none
  return some (← (← json.index "signature").getString)

/--
Messages and orders are verified by their recipients only; of the other kinds
the signature over one member has to be good.
-/
def verify (env : Externals) (value : String) : Except Fault Bool := do
  let json ← env.parseOrThrow value
  let metadata ← (← json.index "metadata").getString
  if metadata = "order" then return true
  if metadata = "message" then return true
  let (messageName, addressName) := signedFields metadata
  if !(← json.index messageName).isString then return false
  let signedMessage ← (← json.index messageName).getString
  if !(← json.index addressName).isString then return false
  let signingAddress ← (← json.index addressName).getString
  let some signature ← signatureField json | return false
  if !env.isValidAddress signingAddress then return false
  if signature.utf8ByteSize ≠ 93 ∨ !containsFirstOf signature "Sig" then
    return false
  return env.verifyMessage signedMessage signingAddress signature

/-- All of `validate` before the expiry: the document when nothing rejects it. -/
def validateDocument (env : Externals) (key value : String) :
    Except Fault (Option Json) := do
  if key.utf8ByteSize ≠ 64 then return none
  if value = "" then return none
  match env.parse value with
  | .error .parseError => return none
  | .error .outOfRange => throw .outOfRange
  | .ok json =>
      if !json.isObject then return none
      if !json.contains "metadata" then return none
      if !(← json.index "metadata").isString then return none
      let metadata ← (← json.index "metadata").getString
      if metadata ∉ validMetadatas then return none
      if !(← validateFields env value) then return none
      if !(← verify env value) then return none
      return some json

inductive Expiry where
  | current
  /-- The member is there and is not a string. -/
  | malformed
  | expired
  deriving DecidableEq, Repr

def expiry (clock : Int) (json : Json) : Expiry :=
  match json.find? "expiration_date" with
  | none => .current
  | some (.string expirationDate) =>
      if Timestamp.isExpired clock expirationDate then .expired else .current
  | some _ => .malformed

/-- An expired value is rejected, and what is stored under the key removed. -/
def validate (env : Externals) (moment : Moment) (store : Store)
    (key value : String) : Except Fault Bool × Store :=
  match validateDocument env key value with
  | .error fault => (.error fault, store)
  | .ok none => (.ok false, store)
  | .ok (some json) =>
      match expiry moment.clock json with
      | .current => (.ok true, store)
      | .malformed => (.ok false, store)
      | .expired => (.ok false, store.discard moment key)


/--
Avatars on which the checks do not return: an object that lacks a member the
checks read as a constant, or whose size is no number.
-/
def MalformedAvatar (avatar : Json) : Prop :=
  avatar.isObject = true ∧
    match avatar.find? "name", avatar.find? "size" with
    | some _, some size =>
        match size.getInt with
        | .ok count => exceedsImageSize count = false ∧
            (avatar.contains "pieces" = false ∨
              avatar.contains "piece_size" = false)
        | .error _ => True
    | _, _ => True

def requiredUserFields : List String :=
  ["created_at", "monero_address", "public_key", "signature"]

structure MalformedUser (json : Json) : Prop where
  required : ∀ name ∈ requiredUserFields, json.contains name = true
  avatar : ∃ avatar, json.find? "avatar" = some avatar ∧ MalformedAvatar avatar

/--
The document is signed: a signature of the right form over one member verifies
under the address in another.
-/
def Signed (env : Externals) (metadata : String) (json : Json) : Prop :=
  ∃ message address signature,
    json.string? (signedFields metadata).1 = some message ∧
    json.string? (signedFields metadata).2 = some address ∧
    json.string? "signature" = some signature ∧
    env.isValidAddress address = true ∧
    signature.utf8ByteSize = 93 ∧ containsFirstOf signature "Sig" = true ∧
    env.verifyMessage message address signature = true

structure Shaped (env : Externals) (key value : String) (json : Json)
    (metadata : String) : Prop where
  keyLength : key.utf8ByteSize = 64
  nonempty : value ≠ ""
  parsed : env.parse value = .ok json
  isObject : json.isObject = true
  kind : json.string? "metadata" = some metadata
  known : metadata ∈ validMetadatas

/-- What a value has gone through when only its expiry is left to check. -/
structure Accepted (env : Externals) (key value : String) (json : Json)
    (metadata : String) : Prop extends
    Shaped env key value json metadata where
  fields : validateFields env value = .ok true
  verified : verify env value = .ok true

/-- The parser comes upon a number that no double holds. -/
structure Overflowing (env : Externals) (key value : String) : Prop where
  keyLength : key.utf8ByteSize = 64
  nonempty : value ≠ ""
  parsed : env.parse value = .error .outOfRange

/-- Values on which the checks do not return. -/
def MalformedValue (env : Externals) (key value : String) : Prop :=
  Overflowing env key value ∨
    ∃ json, Shaped env key value json "user" ∧ MalformedUser json

section Specifications

/-! ## The field checks -/

theorem missesString_eq {json : Json} (h : json.isObject = true)
    (name : String) : missesString json name = .ok (!json.contains name) := by
  rw [missesString, Json.index_of_isObject h]
  cases hcontains : json.contains name with
  | true => rfl
  | false => rw [Json.contains_eq_false.mp hcontains]; rfl

theorem missesConst_eq {avatar : Json} (h : avatar.isObject = true)
    (name : String) (test : Json → Bool) :
    missesConst avatar name test =
      match avatar.find? name with
      | some _ => .ok false
      | none => .error .absentField := by
  rw [missesConst, Json.indexConst_of_isObject h]
  cases hfind : avatar.find? name with
  | none => rw [Json.contains_eq_false.mpr hfind]; rfl
  | some value => rw [Json.contains_eq_true.mpr ⟨value, hfind⟩]; rfl

theorem validateAvatar_returns (avatar : Json) :
    (∃ result, validateAvatar avatar = .ok result) ↔
      ¬ MalformedAvatar avatar := by
  unfold MalformedAvatar validateAvatar
  cases hobject : avatar.isObject with
  | false => simp [pure, Except.pure]
  | true =>
      simp only [missesConst_eq hobject, Json.indexConst_of_isObject hobject,
        bind, Except.bind, pure, Except.pure]
      cases hname : avatar.find? "name" with
      | none => simp
      | some name =>
          cases hsize : avatar.find? "size" with
          | none => simp
          | some size =>
              cases hcount : size.getInt with
              | error fault => simp [hcount]
              | ok count =>
                  cases hlimit : exceedsImageSize count with
                  | true => simp [hcount, hlimit]
                  | false =>
                      cases hpieces : avatar.find? "pieces" <;>
                        cases hpieceSize : avatar.find? "piece_size" <;>
                        simp [Json.contains, hcount, hlimit, hpieces, hpieceSize]

theorem validateDisplayName_returns (displayName : Json) :
    ∃ result, validateDisplayName displayName = .ok result := by
  cases displayName with
  | string name =>
      by_cases hvalid : isValidUsername name = true <;>
        by_cases hlength : name.utf8ByteSize < minUsernameLength ∨
          maxUsernameLength < name.utf8ByteSize <;>
        simp [validateDisplayName, Json.isString, Json.getString, bind,
          Except.bind, pure, Except.pure, hvalid, hlength]
  | _ => exact ⟨false, rfl⟩

theorem validateUser_of_required {json : Json} (hobject : json.isObject = true)
    (hrequired : ∀ name ∈ requiredUserFields, json.contains name = true) :
    (∃ result, validateUser json = .ok result) ↔
      ∀ avatar, json.find? "avatar" = some avatar →
        ∃ result, validateAvatar avatar = .ok result := by
  simp only [requiredUserFields, List.forall_mem_cons] at hrequired
  obtain ⟨hcreated, haddress, hpublic, hsignature, -⟩ := hrequired
  simp only [validateUser, missesString_eq hobject,
    Json.index_of_isObject hobject, hcreated, haddress, hpublic, hsignature,
    bind, Except.bind, pure, Except.pure]
  obtain ⟨nameResult, hname⟩ :=
    validateDisplayName_returns ((json.find? "display_name").getD .null)
  cases havatar : json.find? "avatar" with
  | none =>
      rw [Json.contains_eq_false.mpr havatar]
      cases json.contains "display_name" <;> cases nameResult <;> simp [hname]
  | some avatar =>
      rw [Json.contains_eq_true.mpr ⟨avatar, havatar⟩]
      cases hresult : validateAvatar avatar with
      | error fault => simp [hresult]
      | ok result =>
          cases result <;> cases json.contains "display_name" <;>
            cases nameResult <;> simp [hresult, hname]

theorem validateUser_of_missing {json : Json} (hobject : json.isObject = true)
    {name : String} (hname : name ∈ requiredUserFields)
    (hmissing : json.contains name = false) : validateUser json = .ok false := by
  simp only [validateUser, missesString_eq hobject, bind, Except.bind, pure,
    Except.pure]
  simp only [requiredUserFields, List.mem_cons, List.not_mem_nil,
    or_false] at hname
  rcases hname with rfl | rfl | rfl | rfl <;> simp only [hmissing] <;> simp

theorem validateUser_returns {json : Json} (hobject : json.isObject = true) :
    (∃ result, validateUser json = .ok result) ↔ ¬ MalformedUser json := by
  by_cases hrequired : ∀ name ∈ requiredUserFields, json.contains name = true
  · rw [validateUser_of_required hobject hrequired]
    constructor
    · rintro hreturns ⟨-, avatar, havatar, hmalformed⟩
      exact (validateAvatar_returns avatar).mp (hreturns avatar havatar)
        hmalformed
    · intro hnot avatar havatar
      refine (validateAvatar_returns avatar).mpr fun hmalformed => ?_
      exact hnot ⟨hrequired, avatar, havatar, hmalformed⟩
  · refine iff_of_true ?_ fun h => hrequired h.required
    push Not at hrequired
    obtain ⟨name, hmem, hmissing⟩ := hrequired
    exact ⟨false, validateUser_of_missing hobject hmem (by simpa using hmissing)⟩

section Parsed

variable {env : Externals} {value metadata : String} {json : Json}

theorem validateFields_eq (hparse : env.parse value = .ok json)
    (hobject : json.isObject = true)
    (hmetadata : json.string? "metadata" = some metadata) :
    validateFields env value =
      if metadata = "user" then validateUser json else .ok true := by
  simp only [validateFields, Externals.parseOrThrow, hparse,
    Json.index_of_isObject hobject, Json.getString_getD_find?, hmetadata, bind,
    Except.bind, pure, Except.pure]

/-! ## The signature -/

theorem signatureField_eq (hobject : json.isObject = true) :
    signatureField json =
      .ok (if json.contains "signature" then json.string? "signature"
        else some "") := by
  simp only [signatureField, Json.index_of_isObject hobject,
    Json.isString_getD_find?, Json.getString_getD_find?, bind, Except.bind,
    pure, Except.pure]
  cases json.contains "signature" with
  | false => simp
  | true => cases json.string? "signature" <;> simp

theorem verify_unsigned (hparse : env.parse value = .ok json)
    (hobject : json.isObject = true)
    (hmetadata : json.string? "metadata" = some metadata)
    (hkind : metadata = "order" ∨ metadata = "message") :
    verify env value = .ok true := by
  simp only [verify, Externals.parseOrThrow, hparse,
    Json.index_of_isObject hobject, Json.getString_getD_find?, hmetadata, bind,
    Except.bind, pure, Except.pure]
  rcases hkind with rfl | rfl <;> simp

theorem verify_signed (hparse : env.parse value = .ok json)
    (hobject : json.isObject = true)
    (hmetadata : json.string? "metadata" = some metadata)
    (horder : metadata ≠ "order") (hmessage : metadata ≠ "message") :
    ∃ result, verify env value = .ok result ∧
      (result = true ↔ Signed env metadata json) := by
  simp only [verify, Externals.parseOrThrow, hparse,
    Json.index_of_isObject hobject, Json.getString_getD_find?,
    Json.isString_getD_find?, signatureField_eq hobject, hmetadata, horder,
    hmessage, bind, Except.bind, pure, Except.pure, if_false, Signed]
  cases hfields : signedFields metadata with
  | mk messageName addressName =>
  cases json.string? messageName with
  | none => exact ⟨false, by simp⟩
  | some message =>
  cases json.string? addressName with
  | none => exact ⟨false, by simp⟩
  | some address =>
  cases hsignature : json.string? "signature" with
  | none =>
      refine ⟨false, ?_, by simp⟩
      cases json.contains "signature" <;>
        cases env.isValidAddress address <;> simp
  | some signature =>
      rw [Json.contains_of_string? hsignature]
      cases haddress : env.isValidAddress address with
      | false => exact ⟨false, by simp [haddress]⟩
      | true =>
      by_cases hform : signature.utf8ByteSize = 93 ∧
          containsFirstOf signature "Sig" = true
      · exact ⟨env.verifyMessage message address signature,
          by simp [haddress, hform]⟩
      · exact ⟨false, by simp [haddress]; tauto⟩

theorem verify_returns (hparse : env.parse value = .ok json)
    (hobject : json.isObject = true)
    (hmetadata : json.string? "metadata" = some metadata) :
    ∃ result, verify env value = .ok result := by
  by_cases hkind : metadata = "order" ∨ metadata = "message"
  · exact ⟨true, verify_unsigned hparse hobject hmetadata hkind⟩
  · push Not at hkind
    obtain ⟨result, hresult, -⟩ :=
      verify_signed hparse hobject hmetadata hkind.1 hkind.2
    exact ⟨result, hresult⟩

end Parsed

/-! ## The checks before the expiry -/

section Checks

variable {env : Externals} {key value metadata : String} {json : Json}

theorem Shaped.unique {json' : Json} {metadata' : String}
    (h : Shaped env key value json metadata)
    (h' : Shaped env key value json' metadata') :
    json' = json ∧ metadata' = metadata := by
  have hjson : json' = json := Except.ok.inj (h'.parsed.symm.trans h.parsed)
  subst hjson
  exact ⟨rfl, Option.some.inj (h'.kind.symm.trans h.kind)⟩

theorem Shaped.accepted (h : Shaped env key value json metadata)
    (hkind : metadata = "order" ∨ metadata = "message") :
    Accepted env key value json metadata where
  toShaped := h
  fields := by
    rw [validateFields_eq h.parsed h.isObject h.kind, if_neg]
    rcases hkind with rfl | rfl <;> decide
  verified := verify_unsigned h.parsed h.isObject h.kind hkind

theorem validateDocument_of_shaped (h : Shaped env key value json metadata) :
    validateDocument env key value =
      match validateFields env value with
      | .error fault => .error fault
      | .ok false => .ok none
      | .ok true =>
          match verify env value with
          | .error fault => .error fault
          | .ok false => .ok none
          | .ok true => .ok (some json) := by
  simp only [validateDocument, h.keyLength, h.nonempty, h.parsed, h.isObject,
    Json.contains_of_string? h.kind, Json.index_of_isObject h.isObject,
    Json.isString_getD_find?, Json.getString_getD_find?, h.kind, h.known, bind,
    Except.bind, pure, Except.pure]
  cases validateFields env value with
  | error fault => simp
  | ok fields =>
      cases fields <;> cases verify env value with
      | error fault => simp
      | ok verified => cases verified <;> simp

theorem validateDocument_of_overflowing (h : Overflowing env key value) :
    validateDocument env key value = .error .outOfRange := by
  simp [validateDocument, h.keyLength, h.nonempty, h.parsed, throw,
    throwThe, MonadExceptOf.throw]

theorem validateDocument_of_not_shaped
    (hoverflowing : ¬ Overflowing env key value)
    (h : ∀ json metadata, ¬ Shaped env key value json metadata) :
    validateDocument env key value = .ok none := by
  unfold validateDocument
  by_cases hkey : key.utf8ByteSize = 64
  swap
  · simp [hkey, pure, Except.pure]
  by_cases hvalue : value = ""
  · simp [hkey, hvalue, pure, Except.pure]
  cases hparse : env.parse value with
  | error error =>
      cases error with
      | parseError => simp [hkey, hvalue, pure, Except.pure]
      | outOfRange => exact absurd ⟨hkey, hvalue, hparse⟩ hoverflowing
  | ok json =>
  cases hobject : json.isObject with
  | false => simp [hkey, hvalue, hobject, pure, Except.pure]
  | true =>
  simp only [Json.index_of_isObject hobject, Json.isString_getD_find?,
    Json.getString_getD_find?, bind, Except.bind, pure, Except.pure]
  cases hkind : json.string? "metadata" with
  | none => simp [hkey, hvalue, hobject]
  | some metadata =>
      have hknown : metadata ∉ validMetadatas := fun hknown =>
        h json metadata ⟨hkey, hvalue, hparse, hobject, hkind, hknown⟩
      simp [hkey, hvalue, hobject, hknown]

theorem validateDocument_eq_some :
    validateDocument env key value = .ok (some json) ↔
      ∃ metadata, Accepted env key value json metadata := by
  constructor
  · intro h
    by_cases hshaped : ∃ json metadata, Shaped env key value json metadata
    · obtain ⟨json', metadata, hshaped⟩ := hshaped
      rw [validateDocument_of_shaped hshaped] at h
      split at h <;> try cases h
      next hfields =>
        split at h <;> cases h
        next hverified => exact ⟨metadata, hshaped, hfields, hverified⟩
    · push Not at hshaped
      by_cases hoverflowing : Overflowing env key value
      · rw [validateDocument_of_overflowing hoverflowing] at h
        cases h
      · rw [validateDocument_of_not_shaped hoverflowing hshaped] at h
        cases h
  · rintro ⟨metadata, h⟩
    rw [validateDocument_of_shaped h.toShaped, h.fields, h.verified]

theorem validateDocument_returns :
    (∃ result, validateDocument env key value = .ok result) ↔
      ¬ MalformedValue env key value := by
  by_cases hoverflowing : Overflowing env key value
  · refine iff_of_false ?_ (fun hnot => hnot (.inl hoverflowing))
    rw [validateDocument_of_overflowing hoverflowing]
    simp
  by_cases hshaped : ∃ json metadata, Shaped env key value json metadata
  swap
  · push Not at hshaped
    exact iff_of_true
      ⟨none, validateDocument_of_not_shaped hoverflowing hshaped⟩
      fun h => h.elim hoverflowing fun ⟨json, h, _⟩ => hshaped json _ h
  obtain ⟨json, metadata, hshaped⟩ := hshaped
  obtain ⟨verified, hverified⟩ :=
    verify_returns hshaped.parsed hshaped.isObject hshaped.kind
  have hdocument : (∃ result, validateDocument env key value = .ok result) ↔
      ∃ result, validateFields env value = .ok result := by
    rw [validateDocument_of_shaped hshaped, hverified]
    cases validateFields env value with
    | error fault => simp
    | ok fields => cases fields <;> cases verified <;> simp
  rw [hdocument,
    validateFields_eq hshaped.parsed hshaped.isObject hshaped.kind]
  have hmalformed : MalformedValue env key value ↔
      metadata = "user" ∧ MalformedUser json := by
    constructor
    · rintro (h | ⟨json', h, huser⟩)
      · exact absurd h hoverflowing
      · obtain ⟨rfl, rfl⟩ := hshaped.unique h
        exact ⟨rfl, huser⟩
    · rintro ⟨rfl, huser⟩
      exact .inr ⟨json, hshaped, huser⟩
  rw [hmalformed]
  by_cases huser : metadata = "user"
  · simp [huser, validateUser_returns hshaped.isObject]
  · simp [huser]

end Checks

end Specifications

end Neroshop.Node
