import Neroshop.Fetch
import Neroshop.Rpc.Session

/-!
# Rating a seller or a product

A rating call looks for the user's own rating under the keys of what is rated.
It edits the one it finds under the key it found it at, and puts a new one
under the hash of its text where it has found none.
-/

namespace Neroshop.Market

open Neroshop.Foundation Neroshop.Node Neroshop.Rpc

inductive RatingKind where
  | seller
  | product
  deriving DecidableEq, Repr

namespace RatingKind

def metadata : RatingKind → String
  | seller => "seller_rating"
  | product => "product_rating"

def subjectField : RatingKind → String
  | seller => "seller_id"
  | product => "product_id"

def scoreField : RatingKind → String
  | seller => "score"
  | product => "stars"

end RatingKind

/-- `SellerRating` and `ProductRating`. -/
structure Rating where
  raterId : String
  comments : String
  signature : String
  subject : String
  score : Nat
  deriving DecidableEq, Repr

/--
A user and what the client meets during a call.  The wallet verifies a message
of the user's own or throws; the expiration date is what `set_expiration` reads
from the settings, where it does not throw.
-/
structure Rater where
  id : String
  lookup : String → Lookup
  mappings : List Mapping
  /-- The statement that selects the keys is prepared and bound. -/
  prepares : Bool
  verifyMessage : (message signature : String) → Except Fault Bool
  timestamp : String
  expirationDate : Except Fault (Option String)
  dump : Json → String
  sha3 : String → String

/-! ## The calls -/

section Calls

variable (env : Externals) (rater : Rater) (kind : RatingKind)

def Rating.members (rating : Rating) : Json :=
  Json.null
    |>.setMember kind.subjectField (.string rating.subject)
    |>.setMember kind.scoreField (.unsigned rating.score)
    |>.setMember "rater_id" (.string rating.raterId)
    |>.setMember "comments" (.string rating.comments)
    |>.setMember "signature" (.string rating.signature)
    |>.setMember "timestamp" (.string rater.timestamp)
    |>.setMember "metadata" (.string kind.metadata)

/-- `Serializer::serialize`; a seller's rating never expires. -/
def serialize (rating : Rating) : Except Fault Json :=
  match kind with
  | .seller => .ok (rating.members rater .seller)
  | .product => do
      match ← rater.expirationDate with
      | none => return rating.members rater .product
      | some expirationDate =>
          return (rating.members rater .product).setMember "expiration_date"
            (.string expirationDate)

/-- The document, where it is a rating of the user's own. -/
def ownRating (value : String) : Except Fault (Option Json) :=
  readDocument env kind.metadata (fun json => do
    let raterId ← fetchString json "rater_id"
    return if raterId = rater.id then some json else none) value

variable (score : Int) (comments signature : String)

def updated (json : Json) : Json :=
  json
    |>.setMember "comments" (.string comments)
    |>.setMember kind.scoreField (.integer score)
    |>.setMember "signature" (.string signature)
    |>.setMember "last_updated" (.string rater.timestamp)

/-- The key remains as it was. -/
def sendUpdate (key : String) (json : Json) : Session Unit := do
  let oldComments ← ofExcept (fetchString json "comments")
  let oldSignature ← ofExcept (fetchString json "signature")
  let selfVerified ← ofExcept (rater.verifyMessage oldComments oldSignature)
  if selfVerified then do
    ofExcept (assertThat (oldSignature ≠ signature))
    send (.set key
      (rater.dump (updated rater kind score comments signature json)))

/-- Whether no key has led to a rating of the user's own. -/
def scan : List String → Session Bool
  | [] => pure true
  | key :: keys =>
      if key = "" then scan keys
      else do
        send (.get key)
        match rater.lookup key with
        | .unreadable => scan keys
        | .missing => do
            send (.remove key)
            scan keys
        | .valueless => scan keys
        | .found value =>
            match ← ofExcept (ownRating env rater kind value) with
            | none => scan keys
            | some json => do
                sendUpdate rater kind score comments signature key json
                return false

def rate (subject : String) : Session Unit :=
  if rater.prepares then do
    let unrated ← scan env rater kind score comments signature
      (selectKeys rater.mappings kind.metadata (some subject))
    if unrated then do
      let json ← ofExcept (serialize rater kind
        ⟨rater.id, comments, signature, subject, score.toNat⟩)
      send (.put (rater.sha3 (rater.dump json)) (rater.dump json))
  else pure ()

end Calls

def clampScore (lowest highest score : Int) : Int :=
  let score := if highest ≤ score then highest else score
  if score ≤ lowest then lowest else score

section Users

variable (env : Externals) (rater : Rater)

/-- Users cannot rate themselves. -/
def rateSeller (sellerId : String) (score : Int) (comments signature : String) :
    Session Unit :=
  if sellerId = "" then pure ()
  else if sellerId = rater.id then pure ()
  else rate env rater .seller (clampScore 0 1 score) comments signature sellerId

def rateItem (productId : String) (stars : Int) (comments signature : String) :
    Session Unit :=
  if productId = "" then pure ()
  else rate env rater .product (clampScore 1 5 stars) comments signature
    productId

end Users

structure RatingCall where
  rater : Rater
  kind : RatingKind
  subject : String
  score : Int
  comments : String
  signature : String

namespace RatingCall

def session (env : Externals) (call : RatingCall) : Session Unit :=
  match call.kind with
  | .seller =>
      rateSeller env call.rater call.subject call.score call.comments
        call.signature
  | .product =>
      rateItem env call.rater call.subject call.score call.comments
        call.signature

/-- What the client sends to its node, whether the call returns or not. -/
def calls (env : Externals) (call : RatingCall) : List ClientCall :=
  stateAfter (call.session env) []

def document (call : RatingCall) : Except Fault Json :=
  let bounded :=
    match call.kind with
    | .seller => clampScore 0 1 call.score
    | .product => clampScore 1 5 call.score
  serialize call.rater call.kind
    ⟨call.rater.id, call.comments, call.signature, call.subject,
      bounded.toNat⟩

def keys (call : RatingCall) : List String :=
  selectKeys call.rater.mappings call.kind.metadata (some call.subject)

end RatingCall

/-! ## What a call puts -/

def PutsNothing (before after : List ClientCall) : Prop :=
  ∀ key value, ClientCall.put key value ∈ after →
    ClientCall.put key value ∈ before

instance : IsPreorder (List ClientCall) PutsNothing where
  refl _ _ _ h := h
  trans _ _ _ hfirst hsecond key value h :=
    hfirst key value (hsecond key value h)

def IsRating (env : Externals) (kind : RatingKind) (raterId value : String) :
    Prop :=
  ∃ json, env.parse value = .ok json ∧
    json.string? "metadata" = some kind.metadata ∧
    json.string? "rater_id" = some raterId

/-- A lookup of the call has shown a rating of the user's own. -/
def RatingCall.Shown (env : Externals) (call : RatingCall) : Prop :=
  ∃ key ∈ call.keys, key ≠ "" ∧ ∃ value, call.rater.lookup key = .found value ∧
    IsRating env call.kind call.rater.id value

section Puts

variable {env : Externals} {rater : Rater} {kind : RatingKind} {score : Int}
  {comments signature : String} {calls : List ClientCall}

theorem send_putsNothing {call : ClientCall}
    (hput : ∀ key value, call ≠ .put key value) :
    Relates PutsNothing (send call) := by
  intro calls key value h
  have hmem : ClientCall.put key value ∈ calls ++ [call] := h
  rcases List.mem_append.mp hmem with hold | hnew
  · exact hold
  · exact absurd (List.mem_singleton.mp hnew).symm (hput key value)

theorem sendUpdate_putsNothing (key : String) (json : Json) :
    Relates PutsNothing
      (sendUpdate rater kind score comments signature key json) := by
  unfold sendUpdate
  refine relates_bind (relates_ofExcept _) fun oldComments => ?_
  refine relates_bind (relates_ofExcept _) fun oldSignature => ?_
  refine relates_bind (relates_ofExcept _) fun selfVerified => ?_
  split
  · refine relates_bind (relates_ofExcept _) fun _ => ?_
    exact send_putsNothing fun _ _ => by simp
  · exact relates_pure _

theorem scan_putsNothing (keys : List String) : Relates PutsNothing
    (scan env rater kind score comments signature keys) := by
  induction keys with
  | nil => exact relates_pure _
  | cons key keys ih =>
      unfold scan
      split
      · exact ih
      refine relates_bind (send_putsNothing fun _ _ => by simp) fun _ => ?_
      split
      · exact ih
      · exact relates_bind (send_putsNothing fun _ _ => by simp) fun _ => ih
      · exact ih
      · refine relates_bind (relates_ofExcept _) fun found => ?_
        cases found with
        | none => exact ih
        | some json => exact relates_bind_pure (sendUpdate_putsNothing _ _)

theorem ownRating_of_isRating {value : String}
    (h : IsRating env kind rater.id value) :
    ∃ json, ownRating env rater kind value = .ok (some json) := by
  obtain ⟨json, hparse, hkind, hrater⟩ := h
  have hraterId : fetchString json "rater_id" = .ok rater.id :=
    (fetchString_eq_ok (Json.isObject_of_string? hkind)).mpr hrater
  refine ⟨json, ?_⟩
  rw [ownRating, readDocument_of_parse hparse hkind, if_neg (by simp), hraterId]
  change (pure (if rater.id = rater.id then some json else none) :
    Except Fault (Option Json)) = _
  rw [if_pos rfl]
  rfl

/-- A scan that reaches its end has been shown nothing of the user's own. -/
theorem not_isRating_of_scan {keys : List String} {after : List ClientCall}
    (h : (scan env rater kind score comments signature keys).run calls =
      .ok true after) :
    ∀ key ∈ keys, key ≠ "" → ∀ value, rater.lookup key = .found value →
      ¬ IsRating env kind rater.id value := by
  induction keys generalizing calls with
  | nil => simp
  | cons key keys ih =>
      rw [List.forall_mem_cons]
      unfold scan at h
      by_cases hname : key = ""
      · rw [if_pos hname] at h
        exact ⟨fun hne => absurd hname hne, ih h⟩
      rw [if_neg hname, run_send_bind] at h
      cases hlookup : rater.lookup key with
      | unreadable | missing | valueless =>
          rw [hlookup] at h
          exact ⟨by simp, ih h⟩
      | found value =>
          rw [hlookup] at h
          obtain ⟨result, middle, hresult, hrest⟩ := run_bind_eq_ok.mp h
          obtain ⟨hown, rfl⟩ := run_ofExcept_eq_ok.mp hresult
          cases result with
          | none =>
              refine ⟨fun _ found hfound hrating => ?_, ih hrest⟩
              cases hfound
              obtain ⟨json, hjson⟩ := ownRating_of_isRating hrating
              rw [hown] at hjson
              cases hjson
          | some json =>
              -- the call is over once the rating has been sent
              obtain ⟨_, _, -, hfalse⟩ := run_bind_eq_ok.mp hrest
              cases (run_pure_eq_ok.mp hfalse).1

theorem put_mem_rate {subject key value : String}
    (h : ClientCall.put key value ∈ stateAfter
      (rate env rater kind score comments signature subject) []) :
    (∀ key ∈ selectKeys rater.mappings kind.metadata (some subject), key ≠ "" →
      ∀ value, rater.lookup key = .found value →
        ¬ IsRating env kind rater.id value) ∧
    ∃ json, serialize rater kind
        ⟨rater.id, comments, signature, subject, score.toNat⟩ = .ok json ∧
      key = rater.sha3 (rater.dump json) ∧ value = rater.dump json := by
  unfold rate at h
  by_cases hprepares : rater.prepares = true
  swap
  · rw [if_neg hprepares] at h
    cases h
  rw [if_pos hprepares, stateAfter_bind] at h
  have hscan : PutsNothing [] (stateAfter (scan env rater kind score comments
      signature (selectKeys rater.mappings kind.metadata (some subject))) []) :=
    scan_putsNothing _ []
  rw [stateAfter] at hscan
  cases hrun : (scan env rater kind score comments signature
      (selectKeys rater.mappings kind.metadata (some subject))).run [] with
  | error fault middle =>
      rw [hrun] at h hscan
      cases hscan key value h
  | ok unrated middle =>
      rw [hrun] at h hscan
      have hmiddle : ClientCall.put key value ∉ middle := fun hmem => by
        cases hscan key value hmem
      cases unrated with
      | false => exact absurd h hmiddle
      | true =>
          refine ⟨not_isRating_of_scan hrun, ?_⟩
          dsimp only at h
          rw [if_pos rfl, stateAfter_bind] at h
          cases hjson : serialize rater kind
              ⟨rater.id, comments, signature, subject, score.toNat⟩ with
          | error fault =>
              rw [hjson] at h
              exact absurd h hmiddle
          | ok json =>
              rw [hjson] at h
              have hsent : ClientCall.put key value ∈ middle ++
                  [.put (rater.sha3 (rater.dump json)) (rater.dump json)] := h
              rcases List.mem_append.mp hsent with hold | hnew
              · exact absurd hold hmiddle
              · cases List.mem_singleton.mp hnew
                exact ⟨json, rfl, rfl, rfl⟩

theorem serialize_members {rating : Rating} {json : Json}
    (h : serialize rater kind rating = .ok json) :
    json.string? "metadata" = some kind.metadata ∧
      json.string? "rater_id" = some rating.raterId ∧
      json.find? kind.subjectField = some (.string rating.subject) := by
  simp only [Json.string?_eq_some]
  cases kind with
  | seller =>
      cases h
      simp [Rating.members, RatingKind.metadata, RatingKind.subjectField,
        RatingKind.scoreField]
  | product =>
      obtain ⟨expirationDate, -, h⟩ := bind_eq_ok.mp h
      cases expirationDate <;> cases h <;>
        simp [Rating.members, RatingKind.metadata, RatingKind.subjectField,
          RatingKind.scoreField]

theorem not_shown {call : RatingCall}
    (h : ∀ key ∈ call.keys, key ≠ "" → ∀ value,
      call.rater.lookup key = .found value →
        ¬ IsRating env call.kind call.rater.id value) :
    ¬ call.Shown env := by
  rintro ⟨key, hkey, hname, value, hfound, hrating⟩
  exact h key hkey hname value hfound hrating

/-- A call puts its own rating, and only where it has been shown none. -/
theorem put_mem_calls {call : RatingCall} {key value : String}
    (h : ClientCall.put key value ∈ call.calls env) :
    ¬ call.Shown env ∧ ∃ json, call.document = .ok json ∧
      key = call.rater.sha3 (call.rater.dump json) ∧
      value = call.rater.dump json := by
  obtain ⟨rater, kind, subject, score, comments, signature⟩ := call
  cases kind with
  | seller =>
      unfold RatingCall.calls RatingCall.session rateSeller at h
      dsimp only at h
      split_ifs at h
      · cases h
      · cases h
      · obtain ⟨hscanned, hdocument⟩ := put_mem_rate h
        exact ⟨not_shown hscanned, hdocument⟩
  | product =>
      unfold RatingCall.calls RatingCall.session rateItem at h
      dsimp only at h
      split_ifs at h
      · cases h
      · obtain ⟨hscanned, hdocument⟩ := put_mem_rate h
        exact ⟨not_shown hscanned, hdocument⟩

end Puts

end Neroshop.Market
