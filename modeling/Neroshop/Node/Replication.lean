import Neroshop.Foundation.Transition
import Neroshop.Node.Update

/-!
# Updates that reach replicas in different orders

Seen from one key, a node is a register: an accepted offer either finds the
stored value immovable or writes to it by date.  Two updates of one document
with new signatures find the same values immovable, so replicas that receive
them in different orders agree whenever their dates decide between them.
-/

namespace Neroshop.Node

open Neroshop.Foundation

def Passes (env : Externals) (offer : Offer) : Prop :=
  ∃ json metadata,
    Accepted env offer.key offer.value json metadata ∧
    expiry offer.moment.clock json = .current

def deliver (env : Externals) (slot : Option String) (value : String) :
    Option String :=
  match slot with
  | none => some value
  | some current =>
      match judgeTexts env value current with
      | .ok .replace => some value
      | _ => some current

def stampOf (env : Externals) (value : String) : Stamp :=
  match env.parse value with
  | .ok json => stamp json
  | .error _ => .absent

def later (env : Externals) (value current : String) : Bool :=
  (stampOf env value).supersedes (stampOf env current)

def Rivals (env : Externals) (first second : String) : Prop :=
  ∃ json other metadata signature otherSignature,
    env.parse first = .ok json ∧ env.parse second = .ok other ∧
    SameIdentity json other metadata ∧
    json.string? "signature" = some signature ∧
    other.string? "signature" = some otherSignature ∧
    signature ≠ otherSignature

/-- The value does not carry the signature of what is stored. -/
def Fresh (env : Externals) (slot : Option String) (value : String) : Prop :=
  ∀ current json stored signature, slot = some current →
    env.parse value = .ok json → env.parse current = .ok stored →
    json.string? "signature" = some signature →
    stored.string? "signature" ≠ some signature

def Keeps (env : Externals) (slot : Option String) (value : String) : Prop :=
  ∃ current, slot = some current ∧ judgeTexts env value current ≠ .ok .replace

section Slots

variable {env : Externals} {store : Store} {offer : Offer}
  {slot : Option String} {first second : String}

theorem apply_lookup_eq_deliver (h : Passes env offer) :
    (offer.apply env store).data.lookup offer.key =
      deliver env (store.data.lookup offer.key) offer.value := by
  obtain ⟨json, metadata, haccepted, hexpiry⟩ := h
  by_cases hstored : store.data.lookup offer.key = some offer.value
  · rw [Offer.apply, put_of_stored hstored, hstored, deliver]
    split <;> rfl
  rw [Offer.apply, put_of_accepted hstored
    (validateDocument_eq_some.mpr ⟨metadata, haccepted⟩), hexpiry]
  cases hlookup : store.data.lookup offer.key with
  | none => simp [deliver]
  | some current =>
      simp only [set, hlookup, Option.getD_some, deliver]
      cases judgeTexts env offer.value current with
      | error fault => simp [hlookup]
      | ok update => cases update <;> simp [hlookup]

theorem Rivals.symm (h : Rivals env first second) :
    Rivals env second first := by
  obtain ⟨json, other, metadata, signature, otherSignature, hfirst, hsecond,
    hidentity, hsignature, hother, hne⟩ := h
  exact ⟨other, json, metadata, otherSignature, signature, hsecond, hfirst,
    hidentity.symm, hother, hsignature, hne.symm⟩

theorem Rivals.ne (h : Rivals env first second) : first ≠ second := by
  rintro rfl
  obtain ⟨json, other, metadata, signature, otherSignature, hfirst, hsecond, -,
    hsignature, hother, hne⟩ := h
  have hsame : json = other := Except.ok.inj (hfirst.symm.trans hsecond)
  subst hsame
  exact hne (Option.some.inj (hsignature.symm.trans hother))

theorem Rivals.fresh (h : Rivals env first second) :
    Fresh env (some first) second := by
  obtain ⟨json, other, metadata, signature, otherSignature, hfirst, hsecond, -,
    hsignature, hother, hne⟩ := h
  rintro current json' stored found hslot hparse hstored hfound hsame
  cases hslot
  have hjson : json' = other := Except.ok.inj (hparse.symm.trans hsecond)
  have hcurrent : stored = json := Except.ok.inj (hstored.symm.trans hfirst)
  subst hjson hcurrent
  rw [hsignature] at hsame
  rw [hother] at hfound
  exact hne (Option.some.inj hsame |>.trans (Option.some.inj hfound).symm)

theorem Rivals.judgeTexts_eq (h : Rivals env first second) :
    judgeTexts env second first =
      .ok (if later env second first then .replace else .keep) := by
  obtain ⟨json, other, metadata, signature, otherSignature, hfirst, hsecond,
    hidentity, hsignature, hother, hne⟩ := h
  have hobject := Json.isObject_of_string? hsignature
  have hotherObject := Json.isObject_of_string? hother
  have hadmits : admits other json = .ok true := by
    simp [admits, signatureUpdated_eq hotherObject hobject, hsignature, hother,
      sameIdentity_of_sameIdentity hotherObject hobject hidentity.symm,
      hne.symm, bind, Except.bind]
  rw [judgeTexts_of_parse hsecond hfirst, judgeUpdate_eq hotherObject hobject,
    hadmits]
  simp only [later, stampOf, hfirst, hsecond]

/--
A stored value is immovable for both of two rivals with new signatures, or
their dates decide for both.
-/
theorem Rivals.judgeTexts_cases (h : Rivals env first second)
    {current : String} (hfirstFresh : Fresh env (some current) first)
    (hsecondFresh : Fresh env (some current) second) :
    (judgeTexts env first current ≠ .ok .replace ∧
        judgeTexts env second current ≠ .ok .replace) ∨
      ∀ value ∈ [first, second], judgeTexts env value current =
        .ok (if later env value current then .replace else .keep) := by
  obtain ⟨json, other, metadata, signature, otherSignature, hfirst, hsecond,
    hidentity, hsignature, hother, hne⟩ := h
  have hobject := Json.isObject_of_string? hsignature
  have hotherObject := Json.isObject_of_string? hother
  cases hcurrent : env.parse current with
  | error error =>
      left
      simp [judgeTexts, Externals.parseOrThrow, hfirst, hsecond, hcurrent, bind,
        Except.bind]
  | ok stored =>
      rw [judgeTexts_of_parse hfirst hcurrent,
        judgeTexts_of_parse hsecond hcurrent]
      cases hstored : stored.isObject with
      | false =>
          -- reading the kind of what is stored fails
          left
          simp only [judgeUpdate, sameIdentity,
            Json.index_of_isObject hobject, Json.index_of_isObject hotherObject,
            Json.getString_getD_find?, hidentity.kind, hidentity.currentKind,
            bind, Except.bind]
          cases stored <;> simp_all [Json.isObject, Json.index, Json.getString]
      | true =>
          have hadmits : admits json stored = admits other stored := by
            simp only [admits, sameIdentity_congr hobject hotherObject hidentity,
              signatureUpdated_eq hobject hstored,
              signatureUpdated_eq hotherObject hstored, hsignature, hother]
            cases hfound : stored.string? "signature" with
            | none => rfl
            | some found =>
                have hold : signature ≠ found := fun heq =>
                  hfirstFresh _ _ _ _ rfl hfirst hcurrent hsignature
                    (heq ▸ hfound)
                have hotherOld : otherSignature ≠ found := fun heq =>
                  hsecondFresh _ _ _ _ rfl hsecond hcurrent hother
                    (heq ▸ hfound)
                simp [hold, hotherOld]
          rw [judgeUpdate_eq hobject hstored, judgeUpdate_eq hotherObject hstored,
            hadmits]
          cases hgate : admits other stored with
          | error fault => exact .inl (by simp)
          | ok admitted =>
              cases admitted with
              | false => exact .inl (by simp)
              | true =>
                  right
                  simp [judgeTexts_of_parse hfirst hcurrent,
                    judgeTexts_of_parse hsecond hcurrent, later, stampOf,
                    hfirst, hsecond, hcurrent, judgeUpdate_eq hobject hstored,
                    judgeUpdate_eq hotherObject hstored, hadmits, hgate]

theorem separating_later (env : Externals) : Separating (later env) :=
  fun first second third =>
    Stamp.separating (stampOf env first) (stampOf env second)
      (stampOf env third)

/-- The date decides whether the value takes the place of what is stored. -/
def Movable (env : Externals) (slot : Option String) (value : String) : Prop :=
  ∀ current, slot = some current → judgeTexts env value current =
    .ok (if later env value current then .replace else .keep)

theorem Movable.deliver_eq {value : String} (h : Movable env slot value) :
    deliver env slot value = write (later env) slot value := by
  cases slot with
  | none => rfl
  | some current =>
      rw [deliver, h current rfl, write]
      cases later env value current <;> rfl

theorem Movable.keeps_iff {value : String} (h : Movable env slot value) :
    Keeps env slot value ↔
      ∃ current, slot = some current ∧ later env value current = false := by
  refine exists_congr fun current => and_congr_right fun hslot => ?_
  rw [h current hslot]
  cases later env value current <;> simp

theorem Keeps.deliver_eq {value : String} (h : Keeps env slot value) :
    deliver env slot value = slot := by
  obtain ⟨current, rfl, hjudge⟩ := h
  rw [deliver]
  split
  · contradiction
  · rfl

theorem Movable.write (h : Rivals env first second)
    (hsecond : Movable env slot second) :
    Movable env (Foundation.write (later env) slot first) second := by
  rcases write_cases (later env) slot first with hwrite | hwrite
  · intro current hcurrent
    rw [hwrite, Option.some.injEq] at hcurrent
    exact hcurrent ▸ h.judgeTexts_eq
  · rw [hwrite]
    exact hsecond

theorem Rivals.movable_or_keeps (h : Rivals env first second)
    (hfirst : Fresh env slot first) (hsecond : Fresh env slot second) :
    (Movable env slot first ∧ Movable env slot second) ∨
      (Keeps env slot first ∧ Keeps env slot second) := by
  cases slot with
  | none => exact .inl ⟨by simp [Movable], by simp [Movable]⟩
  | some current =>
      rcases h.judgeTexts_cases hfirst hsecond with hkeeps | hmovable
      · exact .inr ⟨⟨current, rfl, hkeeps.1⟩, ⟨current, rfl, hkeeps.2⟩⟩
      · refine .inl ⟨fun found hfound => ?_, fun found hfound => ?_⟩ <;>
          · cases hfound
            exact hmovable _ (by simp)

/--
Two rivals with new signatures may be delivered in either order exactly when
their dates decide between them or neither of them moves what is stored.
-/
theorem deliver_swap_iff (h : Rivals env first second)
    (hfirst : Fresh env slot first) (hsecond : Fresh env slot second) :
    deliver env (deliver env slot first) second =
        deliver env (deliver env slot second) first ↔
      Decided (later env) first second ∨
        Keeps env slot first ∧ Keeps env slot second := by
  rcases h.movable_or_keeps hfirst hsecond with ⟨hmove, hmove'⟩ | hkeeps
  · rw [hmove.deliver_eq, hmove'.deliver_eq,
      (Movable.write h hmove').deliver_eq,
      (Movable.write h.symm hmove).deliver_eq,
      write_swap_iff (separating_later env) h.ne, hmove.keeps_iff,
      hmove'.keeps_iff]
    refine or_congr_right ⟨?_, ?_⟩
    · rintro ⟨current, hslot, hlater, hlater'⟩
      exact ⟨⟨current, hslot, hlater⟩, ⟨current, hslot, hlater'⟩⟩
    · rintro ⟨⟨current, hslot, hlater⟩, ⟨found, hfound, hlater'⟩⟩
      have hsame : current = found := Option.some.inj (hslot.symm.trans hfound)
      subst hsame
      exact ⟨current, hslot, hlater, hlater'⟩
  · rw [hkeeps.1.deliver_eq, hkeeps.2.deliver_eq, hkeeps.1.deliver_eq]
    exact iff_of_true rfl (.inr hkeeps)

structure Deliverable (env : Externals) (slot : Option String)
    (values : List String) : Prop where
  rivals : values.Pairwise (Rivals env)
  fresh : ∀ value ∈ values, Fresh env slot value
  decided : values.Pairwise (Decided (later env))

theorem Deliverable.advance {value : String} {values : List String}
    (h : Deliverable env slot (value :: values)) :
    Deliverable env (deliver env slot value) values where
  rivals := h.rivals.of_cons
  decided := h.decided.of_cons
  fresh other hother := by
    have hfresh := h.fresh other (List.mem_cons_of_mem _ hother)
    have hrival := List.rel_of_pairwise_cons h.rivals hother
    unfold deliver
    split
    · exact hrival.fresh
    · split
      · exact hrival.fresh
      · exact hfresh

theorem Deliverable.perm {values more : List String} (hperm : values.Perm more)
    (h : Deliverable env slot values) : Deliverable env slot more where
  rivals := (hperm.pairwise_iff fun hrivals => hrivals.symm).mp h.rivals
  decided := (hperm.pairwise_iff fun hdecided => hdecided.symm).mp h.decided
  fresh value hvalue := h.fresh value (hperm.mem_iff.mpr hvalue)

theorem deliver_perm {values more : List String} (hperm : values.Perm more)
    (h : Deliverable env slot values) :
    values.foldl (deliver env) slot = more.foldl (deliver env) slot := by
  refine foldl_perm_of_ready (Deliverable env) ?_ ?_ ?_ hperm slot h
  · exact fun slot value values h => h.advance
  · exact fun slot values more hperm h => h.perm hperm
  · intro slot first second values h
    have hmem : second ∈ second :: values := List.mem_cons_self ..
    exact (deliver_swap_iff (List.rel_of_pairwise_cons h.rivals hmem)
      (h.fresh first (List.mem_cons_self ..))
      (h.fresh second (List.mem_cons_of_mem _ hmem))).mpr
      (.inl (List.rel_of_pairwise_cons h.decided hmem))

end Slots

/-! ## Two nodes -/

section Nodes

variable {env : Externals} {key : String}

def AllPass (env : Externals) (key : String) (offers : List Offer) : Prop :=
  ∀ offer ∈ offers, offer.key = key ∧ Passes env offer

theorem afterOffers_lookup {store : Store} {offers : List Offer}
    (h : AllPass env key offers) :
    (afterOffers env store offers).data.lookup key =
      (offers.map Offer.value).foldl (deliver env) (store.data.lookup key) := by
  induction offers generalizing store with
  | nil => rfl
  | cons offer offers ih =>
      obtain ⟨hkey, hpasses⟩ := h offer (List.mem_cons_self ..)
      have hrest : AllPass env key offers := fun other hother =>
        h other (List.mem_cons_of_mem _ hother)
      rw [afterOffers, List.foldl_cons, ← afterOffers, ih hrest, List.map_cons,
        List.foldl_cons]
      subst hkey
      rw [apply_lookup_eq_deliver hpasses]

/--
Two nodes store the same value under the key and receive the same accepted
values, rivals of each other with new signatures, each in an order and at
moments of its own.  They end with the same value when every two dates decide.
Of two values delivered in both orders, the nodes agree only if the two dates
decide or neither value moves what is stored.
-/
theorem replicas_converge {store other : Store} {offers more : List Offer}
    (hstored : store.data.lookup key = other.data.lookup key)
    (hperm : (offers.map Offer.value).Perm (more.map Offer.value))
    (hoffers : AllPass env key offers) (hmore : AllPass env key more)
    (hrivals : (offers.map Offer.value).Pairwise (Rivals env))
    (hfresh : ∀ offer ∈ offers,
      Fresh env (store.data.lookup key) offer.value) :
    ((offers.map Offer.value).Pairwise (Decided (later env)) →
        (afterOffers env store offers).data.lookup key =
          (afterOffers env other more).data.lookup key) ∧
      ∀ first second, offers.map Offer.value = [first, second] →
        more.map Offer.value = [second, first] →
        ((afterOffers env store offers).data.lookup key =
            (afterOffers env other more).data.lookup key ↔
          Decided (later env) first second ∨
            Keeps env (store.data.lookup key) first ∧
              Keeps env (store.data.lookup key) second) := by
  have hfreshValues : ∀ value ∈ offers.map Offer.value,
      Fresh env (store.data.lookup key) value := by
    simpa using hfresh
  rw [afterOffers_lookup hoffers, afterOffers_lookup hmore, ← hstored]
  refine ⟨fun hdecided => ?_, fun first second hfirst hsecond => ?_⟩
  · exact deliver_perm hperm ⟨hrivals, hfreshValues, hdecided⟩
  · rw [hfirst] at hrivals hfreshValues
    rw [hfirst, hsecond]
    exact deliver_swap_iff
      (List.rel_of_pairwise_cons hrivals (List.mem_cons_self ..))
      (hfreshValues first (by simp)) (hfreshValues second (by simp))

end Nodes

/-! ## Messages of one date -/

def draftText : String :=
  "\x7b\"last_updated\":\"2024-01-01T00:00:00Z\",\"metadata\":\"message\"," ++
    "\"signature\":\"SigV2a\"\x7d"

def finalText : String :=
  "\x7b\"last_updated\":\"2024-01-01T00:00:00Z\",\"metadata\":\"message\"," ++
    "\"signature\":\"SigV2b\"\x7d"

def datedDocument (lastUpdated signature : String) : Json :=
  .object [("last_updated", .string lastUpdated),
    ("metadata", .string "message"), ("signature", .string signature)]

def laterText : String :=
  "\x7b\"last_updated\":\"2024-01-02T00:00:00Z\",\"metadata\":\"message\"," ++
    "\"signature\":\"SigV2c\"\x7d"

def replicaExternals : Externals :=
  .ofDocuments
    [(draftText, datedDocument "2024-01-01T00:00:00Z" "SigV2a"),
     (finalText, datedDocument "2024-01-01T00:00:00Z" "SigV2b"),
     (laterText, datedDocument "2024-01-02T00:00:00Z" "SigV2c")]

def replicaKey : String :=
  "baa5a0964d3320fbc0c6a922140453c8513ea24ab8fd0577034804a967248096"

def replicaOffer (value : String) : Offer :=
  ⟨⟨1704240000, fun _ => true⟩, replicaKey, value⟩

section Samples

variable {value other lastUpdated otherUpdated signature otherSignature : String}

theorem passes_replicaOffer (hvalue : value ≠ "")
    (hparse : replicaExternals.parse value =
      .ok (datedDocument lastUpdated signature)) :
    Passes replicaExternals (replicaOffer value) := by
  have hshaped : Shaped replicaExternals replicaKey value
      (datedDocument lastUpdated signature) "message" :=
    ⟨by decide, hvalue, hparse, rfl, rfl, by decide⟩
  exact ⟨_, _, hshaped.accepted (.inr rfl), rfl⟩

theorem rivals_datedDocument
    (hparse : replicaExternals.parse value =
      .ok (datedDocument lastUpdated signature))
    (hother : replicaExternals.parse other =
      .ok (datedDocument otherUpdated otherSignature))
    (hne : signature ≠ otherSignature) :
    Rivals replicaExternals value other :=
  ⟨_, _, "message", _, _, hparse, hother, ⟨rfl, rfl, by simp [immutableFields]⟩,
    rfl, rfl, hne⟩

theorem parse_draftText : replicaExternals.parse draftText =
    .ok (datedDocument "2024-01-01T00:00:00Z" "SigV2a") := by
  simp [replicaExternals, Externals.ofDocuments, parseListed]

theorem parse_finalText : replicaExternals.parse finalText =
    .ok (datedDocument "2024-01-01T00:00:00Z" "SigV2b") := by
  have hdraft : (finalText == draftText) = false := by decide
  simp [replicaExternals, Externals.ofDocuments, parseListed, List.lookup_cons, hdraft]

theorem parse_laterText : replicaExternals.parse laterText =
    .ok (datedDocument "2024-01-02T00:00:00Z" "SigV2c") := by
  have hdraft : (laterText == draftText) = false := by decide
  have hfinal : (laterText == finalText) = false := by decide
  simp [replicaExternals, Externals.ofDocuments, parseListed, List.lookup_cons, hdraft, hfinal]

end Samples

theorem replicas_diverge :
    AllPass replicaExternals replicaKey
        [replicaOffer draftText, replicaOffer finalText] ∧
      Rivals replicaExternals draftText finalText ∧
      (afterOffers replicaExternals Store.empty
        [replicaOffer draftText, replicaOffer finalText]).data.lookup
          replicaKey = some draftText ∧
      (afterOffers replicaExternals Store.empty
        [replicaOffer finalText, replicaOffer draftText]).data.lookup
          replicaKey = some finalText ∧
      draftText ≠ finalText := by
  refine ⟨?_, rivals_datedDocument parse_draftText parse_finalText (by decide),
    by decide⟩
  simp only [AllPass, List.forall_mem_cons, List.not_mem_nil]
  exact ⟨⟨rfl, passes_replicaOffer (by decide) parse_draftText⟩,
    ⟨rfl, passes_replicaOffer (by decide) parse_finalText⟩, by simp⟩

/-- The later of two dates wins in both orders. -/
theorem replicas_converge_replicaKey :
    (afterOffers replicaExternals Store.empty
        [replicaOffer draftText, replicaOffer laterText]).data.lookup
          replicaKey =
      (afterOffers replicaExternals Store.empty
        [replicaOffer laterText, replicaOffer draftText]).data.lookup
          replicaKey := by
  have hdraft := passes_replicaOffer (by decide) parse_draftText
  have hlater := passes_replicaOffer (by decide) parse_laterText
  have hrivals := rivals_datedDocument parse_draftText parse_laterText
    (by decide)
  have hdecided : Decided (later replicaExternals) draftText laterText := by
    change Decided Stamp.supersedes (stampOf _ _) (stampOf _ _)
    simp only [stampOf, parse_draftText, parse_laterText]
    exact Stamp.decided_iff.mpr
      (.inr (.inr ⟨_, _, rfl, rfl, by decide⟩))
  have hperm : ([replicaOffer draftText, replicaOffer laterText].map
      Offer.value).Perm
      ([replicaOffer laterText, replicaOffer draftText].map Offer.value) :=
    .swap ..
  have hoffers : AllPass replicaExternals replicaKey
      [replicaOffer draftText, replicaOffer laterText] := by
    simp only [AllPass, List.forall_mem_cons, List.not_mem_nil]
    exact ⟨⟨rfl, hdraft⟩, ⟨rfl, hlater⟩, by simp⟩
  have hmore : AllPass replicaExternals replicaKey
      [replicaOffer laterText, replicaOffer draftText] := by
    simp only [AllPass, List.forall_mem_cons, List.not_mem_nil]
    exact ⟨⟨rfl, hlater⟩, ⟨rfl, hdraft⟩, by simp⟩
  refine (replicas_converge rfl hperm hoffers hmore ?_ ?_).1 ?_
  · simpa [replicaOffer] using hrivals
  · simp [Fresh, Store.empty]
  · simpa [replicaOffer] using hdecided

end Neroshop.Node
