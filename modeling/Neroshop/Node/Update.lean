import Neroshop.Foundation.Register
import Neroshop.Node.Put

/-!
# When an offered value replaces a stored one

`judgeUpdate` makes two decisions.  `admits` is about who may update: the
identity has to be that of the stored document and the signature a new one.
`Stamp.supersedes` is about which of the two is later, and reads the members
`last_updated` only.
-/

namespace Neroshop.Node

open Neroshop.Foundation

inductive Stamp where
  | absent
  | dated (instant : Int)
  /-- The member is there and is not a string. -/
  | unreadable
  deriving DecidableEq, Repr

namespace Stamp

/--
A document without the member gives way to one with it.  Of two dates the later
one wins and equal ones keep what is stored; a member that cannot be read never
stops an update.
-/
def supersedes : (offered current : Stamp) → Bool
  | absent, absent => true
  | absent, _ => false
  | dated offered, dated current => current < offered
  | _, _ => true

/-- Only one of the two is there, or both are dates and differ. -/
theorem decided_iff {first second : Stamp} :
    Decided supersedes first second ↔
      (first = absent ∧ second ≠ absent) ∨
      (first ≠ absent ∧ second = absent) ∨
      ∃ n m, first = dated n ∧ second = dated m ∧ n ≠ m := by
  unfold Decided
  cases first with
  | dated n =>
      cases second with
      | dated m => simp [supersedes]; omega
      | _ => simp [supersedes]
  | _ => cases second <;> simp [supersedes]

theorem separating : Separating supersedes := by
  intro first second third hfirst hsecond
  unfold Decided
  cases first <;> cases second <;> cases third <;> simp_all [supersedes]
  omega

end Stamp

def stamp (json : Json) : Stamp :=
  match json.find? "last_updated" with
  | none => .absent
  | some (.string text) => .dated (Timestamp.instant text)
  | some _ => .unreadable

structure SameIdentity (json current : Json) (metadata : String) : Prop where
  kind : json.string? "metadata" = some metadata
  currentKind : current.string? "metadata" = some metadata
  members : ∀ name ∈ immutableFields metadata, ∃ text,
    json.string? name = some text ∧ current.string? name = some text

def SignatureDiffers (json current : Json) : Prop :=
  ∀ signature, json.string? "signature" = some signature →
    ∃ other, current.string? "signature" = some other ∧ signature ≠ other

def admits (json current : Json) : Except Fault Bool := do
  if !(← sameIdentity json current) then return false
  signatureUpdated json current

section Specifications

variable {json current : Json}

/-! ## The comparison of dates -/

theorem upToDate_eq (hjson : json.isObject = true)
    (hcurrent : current.isObject = true) :
    upToDate json current =
      .ok (!(stamp json).supersedes (stamp current)) := by
  simp only [upToDate, Json.index_of_isObject hjson,
    Json.index_of_isObject hcurrent, bind, Except.bind, pure, Except.pure,
    Json.contains, stamp]
  cases json.find? "last_updated" with
  | none =>
      cases current.find? "last_updated" with
      | none => simp [Stamp.supersedes]
      | some other => cases other <;> simp [Stamp.supersedes]
  | some offered =>
      cases current.find? "last_updated" with
      | none =>
          cases offered <;> simp [Json.isString, Json.getString, Stamp.supersedes]
      | some other =>
          cases offered <;> cases other <;>
            simp [Json.isString, Json.getString, Stamp.supersedes,
              Timestamp.getMostRecentTimestamp_eq_second]
          split <;> simp_all

/-- An update is admitted or not; one that is, is judged by its date. -/
theorem judgeUpdate_eq (hjson : json.isObject = true)
    (hcurrent : current.isObject = true) :
    judgeUpdate json current =
      match admits json current with
      | .error fault => .error fault
      | .ok false => .ok .reject
      | .ok true =>
          .ok (if (stamp json).supersedes (stamp current)
            then .replace else .keep) := by
  simp only [judgeUpdate, admits, upToDate_eq hjson hcurrent, bind,
    Except.bind, pure, Except.pure]
  cases sameIdentity json current with
  | error fault => rfl
  | ok same =>
      cases same with
      | false => rfl
      | true =>
          cases signatureUpdated json current with
          | error fault => rfl
          | ok updated =>
              cases updated <;>
                cases (stamp json).supersedes (stamp current) <;> rfl

/-! ## The identity -/

theorem areStrings_eq (hjson : json.isObject = true) (names : List String) :
    areStrings json names =
      .ok (names.all fun name => (json.string? name).isSome) := by
  induction names with
  | nil => rfl
  | cons name names ih =>
      simp only [areStrings, ih, Json.index_of_isObject hjson,
        Json.isString_getD_find?, bind, Except.bind, pure, Except.pure]
      cases hname : json.string? name <;> simp [hname]

theorem areUnchanged_congr {other : Json} (hjson : json.isObject = true)
    (hother : other.isObject = true) {names : List String}
    (hnames : ∀ name ∈ names, json.string? name = other.string? name) :
    areUnchanged json current names = areUnchanged other current names := by
  induction names with
  | nil => rfl
  | cons name names ih =>
      simp only [areUnchanged, Json.index_of_isObject hjson,
        Json.index_of_isObject hother, Json.getString_getD_find?,
        hnames name (List.mem_cons_self ..),
        ih fun name hname => hnames name (List.mem_cons_of_mem _ hname),
        bind, Except.bind]

theorem areUnchanged_eq (hjson : json.isObject = true)
    (hcurrent : current.isObject = true) {names : List String}
    (hstrings : ∀ name ∈ names, ∃ text, json.string? name = some text)
    (hcurrentStrings : ∀ name ∈ names, ∃ text,
      current.string? name = some text) :
    areUnchanged json current names =
      .ok (names.all fun name => json.string? name = current.string? name) := by
  induction names with
  | nil => rfl
  | cons name names ih =>
      obtain ⟨text, htext⟩ := hstrings name (List.mem_cons_self ..)
      obtain ⟨other, hother⟩ := hcurrentStrings name (List.mem_cons_self ..)
      have hrest := ih
        (fun name hname => hstrings name (List.mem_cons_of_mem _ hname))
        (fun name hname => hcurrentStrings name (List.mem_cons_of_mem _ hname))
      simp only [areUnchanged, Json.index_of_isObject hjson,
        Json.index_of_isObject hcurrent, Json.getString_getD_find?, htext,
        hother, hrest, bind, Except.bind, pure, Except.pure, List.all_cons]
      by_cases heq : text = other <;> simp [heq]

theorem SameIdentity.symm {metadata : String}
    (h : SameIdentity json current metadata) :
    SameIdentity current json metadata where
  kind := h.currentKind
  currentKind := h.kind
  members name hname := by
    obtain ⟨text, htext, hother⟩ := h.members name hname
    exact ⟨text, hother, htext⟩

theorem sameIdentity_congr {other stored : Json} {metadata : String}
    (hjson : json.isObject = true) (hother : other.isObject = true)
    (h : SameIdentity json other metadata) :
    sameIdentity json stored = sameIdentity other stored := by
  have hstrings (name) (hname : name ∈ immutableFields metadata) :
      json.string? name = other.string? name := by
    obtain ⟨text, htext, hsame⟩ := h.members name hname
    rw [htext, hsame]
  have hall : (immutableFields metadata).all
        (fun name => (json.string? name).isSome) =
      (immutableFields metadata).all
        (fun name => (other.string? name).isSome) := by
    rw [Bool.eq_iff_iff, List.all_eq_true, List.all_eq_true]
    exact forall₂_congr fun name hname => by rw [hstrings name hname]
  simp only [sameIdentity, Json.index_of_isObject hjson,
    Json.index_of_isObject hother, Json.getString_getD_find?, h.kind,
    h.currentKind, areStrings_eq hjson, areStrings_eq hother, hall,
    areUnchanged_congr hjson hother hstrings, bind, Except.bind]

theorem sameIdentity_spec {metadata otherMetadata : String}
    (hjson : json.isObject = true) (hcurrent : current.isObject = true)
    (hkind : json.string? "metadata" = some metadata)
    (hcurrentKind : current.string? "metadata" = some otherMetadata)
    (hstrings : ∀ name ∈ immutableFields metadata, ∃ text,
      json.string? name = some text)
    (hcurrentStrings : ∀ name ∈ immutableFields otherMetadata, ∃ text,
      current.string? name = some text) :
    ∃ same, sameIdentity json current = .ok same ∧
      (same = true ↔ SameIdentity json current metadata) := by
  simp only [sameIdentity, Json.index_of_isObject hjson,
    Json.index_of_isObject hcurrent, Json.getString_getD_find?, hkind,
    hcurrentKind, areStrings_eq hjson, bind, Except.bind, pure, Except.pure]
  by_cases hmetadata : metadata = otherMetadata
  swap
  · refine ⟨false, by simp [hmetadata], ?_⟩
    simp only [Bool.false_eq_true, false_iff]
    intro h
    exact hmetadata (Option.some.inj (h.currentKind.symm.trans hcurrentKind))
  subst hmetadata
  have hsome : (immutableFields metadata).all
      (fun name => (json.string? name).isSome) = true := by
    simpa [Option.isSome_iff_exists] using hstrings
  rw [if_neg (not_not.mpr rfl), hsome,
    areUnchanged_eq hjson hcurrent hstrings hcurrentStrings]
  refine ⟨_, rfl, ?_⟩
  simp only [List.all_eq_true, decide_eq_true_eq]
  constructor
  · intro hequal
    refine ⟨hkind, hcurrentKind, fun name hname => ?_⟩
    obtain ⟨text, htext⟩ := hstrings name hname
    exact ⟨text, htext, (hequal name hname).symm.trans htext⟩
  · intro h name hname
    obtain ⟨text, htext, hother⟩ := h.members name hname
    rw [htext, hother]

theorem sameIdentity_of_sameIdentity {metadata : String}
    (hjson : json.isObject = true) (hcurrent : current.isObject = true)
    (h : SameIdentity json current metadata) :
    sameIdentity json current = .ok true := by
  obtain ⟨same, hsame, hiff⟩ := sameIdentity_spec hjson hcurrent h.kind
    h.currentKind (fun name hname => (h.members name hname).imp fun _ => And.left)
    (fun name hname => (h.members name hname).imp fun _ => And.right)
  rw [hsame, hiff.mpr h]

/-! ## The signature -/

theorem signatureUpdated_eq (hjson : json.isObject = true)
    (hcurrent : current.isObject = true) :
    signatureUpdated json current =
      match json.string? "signature" with
      | none => .ok true
      | some signature =>
          match current.string? "signature" with
          | none => .error .typeError
          | some other => .ok (signature ≠ other) := by
  simp only [signatureUpdated, Json.index_of_isObject hjson,
    Json.index_of_isObject hcurrent, Json.isString_getD_find?,
    Json.getString_getD_find?, bind, Except.bind, pure, Except.pure]
  cases hsignature : json.string? "signature" with
  | none => simp
  | some signature =>
      rw [Json.contains_of_string? hsignature]
      cases current.string? "signature" with
      | none => simp
      | some other => by_cases heq : signature = other <;> simp [heq]

theorem signatureUpdated_eq_true (hjson : json.isObject = true)
    (hcurrent : current.isObject = true) :
    signatureUpdated json current = .ok true ↔
      SignatureDiffers json current := by
  rw [signatureUpdated_eq hjson hcurrent, SignatureDiffers]
  cases json.string? "signature" with
  | none => simp
  | some signature =>
      cases current.string? "signature" <;> simp

/-- Where the identities can be compared, signature and date are left. -/
theorem judgeUpdate_replaces (hjson : json.isObject = true)
    (hcurrent : current.isObject = true) {same : Bool}
    (hsame : sameIdentity json current = .ok same) :
    judgeUpdate json current = .ok .replace ↔
      same = true ∧ SignatureDiffers json current ∧
        (stamp json).supersedes (stamp current) = true := by
  rw [judgeUpdate_eq hjson hcurrent, admits, hsame,
    ← signatureUpdated_eq_true hjson hcurrent]
  cases same with
  | false => simp [bind, Except.bind, pure, Except.pure]
  | true =>
      simp only [bind, Except.bind, Bool.not_true, Bool.false_eq_true, if_false]
      cases signatureUpdated json current with
      | error fault => simp
      | ok updated =>
          cases updated <;>
            cases (stamp json).supersedes (stamp current) <;> simp

end Specifications

end Neroshop.Node
