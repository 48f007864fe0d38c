import Neroshop.Fetch
import Neroshop.Node.Validate

/-!
# Which accounts pass the field checks

The checks of a user are written as "not there, and not of the type", so that
they ask for a member and never for its type; of the avatar, moreover, they
assert the members, and they compare the size after converting it.  What they
accept is compared here with the types that they name.
-/

namespace Neroshop.Node

/-! ## What is asked of an account -/

/-- A whole number of bytes up to the limit. -/
def ValidSize : Json → Prop
  | .integer value => value ≤ maxImageSize
  | .unsigned value => (value : Int) ≤ maxImageSize
  | _ => False

/-- No number, or as an `int` either negative or too large. -/
def RefusedSize (size : Json) : Prop :=
  ∀ count, size.getInt = .ok count → count < 0 ∨ maxImageSize < count

def avatarFields : List String := ["name", "size", "pieces", "piece_size"]

structure TypedAvatar (avatar : Json) : Prop where
  name : Has avatar "name" Json.isString
  size : ∃ size, avatar.find? "size" = some size ∧ ValidSize size
  pieces : Has avatar "pieces" isArray
  pieceSize : Has avatar "piece_size" isNumberInteger

structure ValidDisplayName (displayName : Json) : Prop where
  isString : displayName.isString = true
  pattern : ∀ name, displayName = .string name → isValidUsername name = true
  length : ∀ name, displayName = .string name →
    minUsernameLength ≤ name.utf8ByteSize ∧
      name.utf8ByteSize ≤ maxUsernameLength

/-- The account has all of the fields with the types they are to have. -/
structure ValidUser (json : Json) : Prop where
  required : ∀ name ∈ requiredUserFields, Has json name Json.isString
  avatarObject : ∀ avatar, json.find? "avatar" = some avatar →
    avatar.isObject = true
  avatar : ∀ avatar, json.find? "avatar" = some avatar → TypedAvatar avatar
  displayName : ∀ displayName,
    json.find? "display_name" = some displayName → ValidDisplayName displayName

/-! ## What the checks ask for -/

/-- The members are there, whatever their types. -/
structure CompleteUser (json : Json) : Prop where
  required : ∀ name ∈ requiredUserFields, json.contains name = true
  avatarObject : ∀ avatar, json.find? "avatar" = some avatar →
    avatar.isObject = true
  avatarFields : ∀ avatar, json.find? "avatar" = some avatar →
    ∀ name ∈ avatarFields, avatar.contains name = true
  displayName : ∀ displayName,
    json.find? "display_name" = some displayName → ValidDisplayName displayName

/-- What is not looked at where the members are there. -/
structure TypedUser (json : Json) : Prop where
  required : ∀ name ∈ requiredUserFields, Has json name Json.isString
  avatar : ∀ avatar, json.find? "avatar" = some avatar → TypedAvatar avatar

def RefusedAvatar (json : Json) : Prop :=
  ∃ avatar size, json.find? "avatar" = some avatar ∧
    avatar.find? "size" = some size ∧ RefusedSize size

/-- The accounts on which the checks and the types they name agree. -/
inductive ChecksTypes (json : Json) : Prop
  | incomplete (h : ¬ CompleteUser json)
  | typed (h : TypedUser json) (hsize : ¬ RefusedAvatar json)
  | refused (h : ¬ TypedUser json) (hsize : RefusedAvatar json)

section Checks

/-! ## The avatar -/

theorem bmod_range (value : Int) :
    -2 ^ 31 ≤ value.bmod (2 ^ 32) ∧ value.bmod (2 ^ 32) < 2 ^ 31 := by
  have hlow := @Int.le_bmod value (2 ^ 32) (by decide)
  have hhigh := @Int.bmod_lt value (2 ^ 32) (by decide)
  omega

theorem intOfFloat_range (value : ℚ) :
    -2 ^ 31 ≤ Json.intOfFloat value ∧ Json.intOfFloat value < 2 ^ 31 := by
  unfold Json.intOfFloat
  split
  · next hrange => exact hrange
  · exact ⟨le_refl _, by decide⟩

theorem getInt_range {json : Json} {count : Int}
    (h : json.getInt = .ok count) : -2 ^ 31 ≤ count ∧ count < 2 ^ 31 := by
  cases json with
  | unsigned value => exact Except.ok.inj h ▸ bmod_range value
  | integer value => exact Except.ok.inj h ▸ bmod_range value
  | float value => exact Except.ok.inj h ▸ intOfFloat_range value
  | boolean value =>
      rw [← Except.ok.inj h]
      cases value <;> decide
  | null | string | array | object => cases h

/-- Compared as a `size_t`, a negative size is too large. -/
theorem exceedsImageSize_iff {count : Int} (hlow : -2 ^ 31 ≤ count)
    (hhigh : count < 2 ^ 31) :
    exceedsImageSize count = true ↔ count < 0 ∨ maxImageSize < count := by
  unfold exceedsImageSize maxImageSize
  rw [decide_eq_true_iff]
  omega

theorem refusedSize_of_getInt {size : Json} {count : Int}
    (h : size.getInt = .ok count) :
    RefusedSize size ↔ exceedsImageSize count = true := by
  obtain ⟨hlow, hhigh⟩ := getInt_range h
  rw [exceedsImageSize_iff hlow hhigh]
  constructor
  · exact fun hrefused => hrefused count h
  · intro hcount other hother
    rw [h, Except.ok.injEq] at hother
    exact hother ▸ hcount

theorem validateAvatar_eq_true {avatar : Json} :
    validateAvatar avatar = .ok true ↔
      avatar.isObject = true ∧
      (∀ name ∈ avatarFields, avatar.contains name = true) ∧
      ∀ size, avatar.find? "size" = some size → ¬ RefusedSize size := by
  cases hobject : avatar.isObject with
  | false => simp [validateAvatar, hobject, pure, Except.pure]
  | true =>
      simp only [validateAvatar, hobject, missesConst_eq hobject,
        Json.indexConst_of_isObject hobject, bind, Except.bind, pure,
        Except.pure, avatarFields, List.forall_mem_cons, Json.contains]
      cases hname : avatar.find? "name" with
      | none => simp
      | some name =>
      cases hsize : avatar.find? "size" with
      | none => simp
      | some size =>
      cases hcount : size.getInt with
      | error fault =>
          have hrefused : RefusedSize size := by simp [RefusedSize, hcount]
          simp [hcount, hrefused]
      | ok count =>
          have hrefused := refusedSize_of_getInt hcount
          cases hlimit : exceedsImageSize count <;>
            cases hpieces : avatar.find? "pieces" <;>
            cases hpieceSize : avatar.find? "piece_size" <;>
            simp [hcount, hrefused, hlimit]

/-! ## The account -/

theorem validateDisplayName_eq_true {displayName : Json} :
    validateDisplayName displayName = .ok true ↔
      ValidDisplayName displayName := by
  cases displayName with
  | string name =>
      have hvalid : ValidDisplayName (.string name) ↔
          isValidUsername name = true ∧
            ¬ (name.utf8ByteSize < minUsernameLength ∨
              maxUsernameLength < name.utf8ByteSize) := by
        constructor
        · rintro ⟨-, hpattern, hlength⟩
          have hbounds := hlength name rfl
          exact ⟨hpattern name rfl, by omega⟩
        · rintro ⟨hpattern, hlength⟩
          refine ⟨rfl, ?_, ?_⟩
          · rintro _ ⟨rfl⟩
            exact hpattern
          · rintro _ ⟨rfl⟩
            omega
      rw [hvalid]
      by_cases hpattern : isValidUsername name = true <;>
        by_cases hlength : name.utf8ByteSize < minUsernameLength ∨
          maxUsernameLength < name.utf8ByteSize <;>
        simp [validateDisplayName, Json.isString, Json.getString, bind,
          Except.bind, pure, Except.pure, hpattern, hlength]
  | _ => exact iff_of_false (by simp [validateDisplayName, Json.isString, pure,
      Except.pure]) fun h => by cases h.isString

theorem validateUser_eq_true {json : Json} (hobject : json.isObject = true) :
    validateUser json = .ok true ↔
      CompleteUser json ∧ ¬ RefusedAvatar json := by
  have hchecks : validateUser json = .ok true ↔
      (∀ name ∈ requiredUserFields, json.contains name = true) ∧
      (∀ avatar, json.find? "avatar" = some avatar →
        validateAvatar avatar = .ok true) ∧
      ∀ displayName, json.find? "display_name" = some displayName →
        validateDisplayName displayName = .ok true := by
    simp only [validateUser, missesString_eq hobject,
      Json.index_of_isObject hobject, bind, Except.bind, pure, Except.pure,
      requiredUserFields, List.forall_mem_cons]
    cases json.contains "created_at" with
    | false => simp
    | true =>
    cases json.contains "monero_address" with
    | false => simp
    | true =>
    cases json.contains "public_key" with
    | false => simp
    | true =>
    cases json.contains "signature" with
    | false => simp
    | true =>
    obtain ⟨nameResult, hname⟩ :=
      validateDisplayName_returns ((json.find? "display_name").getD .null)
    cases havatar : json.find? "avatar" with
    | none =>
        rw [Json.contains_eq_false.mpr havatar]
        cases hdisplay : json.find? "display_name" with
        | none => simp [Json.contains, hdisplay]
        | some displayName =>
            rw [hdisplay, Option.getD_some] at hname
            cases nameResult <;> simp [Json.contains, hdisplay, hname]
    | some avatar =>
        rw [Json.contains_eq_true.mpr ⟨avatar, havatar⟩]
        cases hresult : validateAvatar avatar with
        | error fault => simp [hresult]
        | ok result =>
            cases hdisplay : json.find? "display_name" with
            | none => cases result <;> simp [Json.contains, hdisplay, hresult]
            | some displayName =>
                rw [hdisplay, Option.getD_some] at hname
                cases result <;> cases nameResult <;>
                  simp [Json.contains, hdisplay, hname, hresult]
  rw [hchecks]
  simp only [validateAvatar_eq_true, validateDisplayName_eq_true]
  constructor
  · rintro ⟨hrequired, havatar, hname⟩
    refine ⟨⟨hrequired, fun avatar hfind => (havatar avatar hfind).1,
      fun avatar hfind => (havatar avatar hfind).2.1, hname⟩, ?_⟩
    rintro ⟨avatar, size, hfind, hsize, hrefused⟩
    exact (havatar avatar hfind).2.2 size hsize hrefused
  · rintro ⟨⟨hrequired, hobjects, hfields, hname⟩, hrefused⟩
    exact ⟨hrequired, fun avatar hfind => ⟨hobjects avatar hfind,
      hfields avatar hfind, fun size hsize hsizeRefused =>
        hrefused ⟨avatar, size, hfind, hsize, hsizeRefused⟩⟩, hname⟩

theorem contains_of_has {json : Json} {name : String} {test : Json → Bool}
    (h : Has json name test) : json.contains name = true := by
  obtain ⟨member, hfind, -⟩ := h
  exact Json.contains_eq_true.mpr ⟨member, hfind⟩

theorem TypedAvatar.contains {avatar : Json} (h : TypedAvatar avatar) :
    ∀ name ∈ avatarFields, avatar.contains name = true := by
  obtain ⟨size, hsize, -⟩ := h.size
  simp only [avatarFields, List.forall_mem_cons]
  exact ⟨contains_of_has h.name, Json.contains_eq_true.mpr ⟨size, hsize⟩,
    contains_of_has h.pieces, contains_of_has h.pieceSize, by simp⟩

theorem validUser_iff {json : Json} :
    ValidUser json ↔ CompleteUser json ∧ TypedUser json := by
  constructor
  · rintro ⟨hrequired, hobjects, havatar, hname⟩
    exact ⟨⟨fun name hmem => contains_of_has (hrequired name hmem), hobjects,
      fun avatar hfind => (havatar avatar hfind).contains, hname⟩,
      hrequired, havatar⟩
  · rintro ⟨⟨-, hobjects, -, hname⟩, hrequired, havatar⟩
    exact ⟨hrequired, hobjects, havatar, hname⟩

end Checks

section Agreement

variable {env : Externals} {value : String} {json : Json}

/--
An account is accepted exactly where it is as it should be, if a member is
missing, or if the types of its members are wrong exactly where its avatar is
taken for too large.
-/
theorem validateFields_user_iff (hparse : env.parse value = .ok json)
    (hobject : json.isObject = true)
    (hmetadata : json.string? "metadata" = some "user") :
    (validateFields env value = .ok true ↔ ValidUser json) ↔
      ChecksTypes json := by
  rw [validateFields_eq hparse hobject hmetadata, if_pos rfl,
    validateUser_eq_true hobject, validUser_iff]
  constructor
  · intro h
    by_cases hcomplete : CompleteUser json
    · by_cases hsize : RefusedAvatar json
      · exact .refused (fun htyped => (h.mpr ⟨hcomplete, htyped⟩).2 hsize) hsize
      · exact .typed (h.mp ⟨hcomplete, hsize⟩).2 hsize
    · exact .incomplete hcomplete
  · rintro (hincomplete | ⟨htyped, hsize⟩ | ⟨htyped, hsize⟩)
    · exact iff_of_false (fun h => hincomplete h.1) fun h => hincomplete h.1
    · exact and_congr_right fun _ => iff_of_true hsize htyped
    · exact iff_of_false (fun h => h.2 hsize) fun h => htyped h.2

end Agreement

/-! ## A date that is a number -/

/-- The account of a user, created at this date. -/
def accountCreated (createdAt : Json) : Json :=
  .object [("created_at", createdAt), ("metadata", .string "user"),
    ("monero_address", .string "56"), ("public_key", .string "key"),
    ("signature", .string "SigV2")]

def accountText : String := "account"

theorem validateFields_accepts_number :
    validateFields (.ofDocuments [(accountText, accountCreated (.unsigned 7))])
        accountText = .ok true ∧
      ¬ ValidUser (accountCreated (.unsigned 7)) := by
  refine ⟨by decide, fun h => ?_⟩
  obtain ⟨member, hfind, hstring⟩ :=
    h.required "created_at" (by simp [requiredUserFields])
  rw [← Option.some.inj hfind] at hstring
  cases hstring

theorem validateFields_user_iff_string :
    validateFields
        (.ofDocuments [(accountText, accountCreated (.string "2024-01-01"))])
        accountText = .ok true ↔
      ValidUser (accountCreated (.string "2024-01-01")) := by
  have htyped : TypedUser (accountCreated (.string "2024-01-01")) := by
    refine ⟨?_, fun avatar hfind => by cases hfind⟩
    simp only [requiredUserFields, List.forall_mem_cons]
    exact ⟨⟨_, rfl, rfl⟩, ⟨_, rfl, rfl⟩, ⟨_, rfl, rfl⟩, ⟨_, rfl, rfl⟩, by simp⟩
  refine (validateFields_user_iff (by simp [Externals.ofDocuments, parseListed]) rfl rfl).mpr
    (.typed htyped ?_)
  rintro ⟨avatar, size, hfind, -⟩
  cases hfind

end Neroshop.Node
