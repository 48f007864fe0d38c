import Neroshop.Gui.Readers
import Neroshop.Market.Rating
import Neroshop.Rpc.Signed

/-!
# One vote per rater

Only the client of a rater looks for an earlier rating; a node takes a rating
under any key of the right length.  So a rater has one vote as long as no other
node offers the rating of a rater under a second key, and the rater's own calls
neither miss a rating that is held nor overlap.
-/

namespace Neroshop.Market

open Neroshop.Foundation Neroshop.Node Neroshop.Rpc Neroshop.Gui

def IsVote (env : Externals) (kind : RatingKind) (raterId : String)
    (subject : Json) (value : String) : Prop :=
  ∃ json, env.parse value = .ok json ∧
    json.string? "metadata" = some kind.metadata ∧
    json.string? "rater_id" = some raterId ∧
    json.find? kind.subjectField = some subject

def HoldsVote (env : Externals) (tables : Store) (kind : RatingKind)
    (raterId : String) (subject : Json) (key : String) : Prop :=
  ∃ value, tables.data.lookup key = some value ∧
    IsVote env kind raterId subject value

def OneVote (env : Externals) (tables : Store) : Prop :=
  ∀ kind raterId subject key other,
    HoldsVote env tables kind raterId subject key →
    HoldsVote env tables kind raterId subject other → key = other

/-- The node of some clients, and their rating calls that have yet to end. -/
structure Poll where
  node : LocalNode
  pending : Nat → Option RatingCall

def Poll.idle (node : LocalNode) : Poll where
  node := node
  pending _ := none

inductive VoteEvent where
  | remote (setting : Setting) (peers : Peers) (query : Query)
  /-- A rating call begins; its lookups are those of its rater. -/
  | start (ticket : Nat) (rating : RatingCall)
  | ask (ticket : Nat) (call : ClientCall) (setting : Setting) (peers : Peers)

/-- A rating call is over with its put. -/
def Poll.pendingAfter (poll : Poll) (ticket : Nat) :
    ClientCall → Nat → Option RatingCall
  | .put _ _ => Function.update poll.pending ticket none
  | .get _ | .set _ _ | .remove _ | .clear => poll.pending

/--
The queries of a rating call arrive in any order, between those of other calls
and of other nodes.
-/
def voteStep (env : Externals) (poll : Poll) : VoteEvent → Option Poll
  | .remote setting peers query =>
      some { poll with
        node := stateAfter (handleMethod env (peers.connect env setting) false
          query (startResponse query poll.node)) poll.node }
  | .start ticket rating =>
      match poll.pending ticket with
      | some _ => none
      | none => some { poll with
          pending := Function.update poll.pending ticket (some rating) }
  | .ask ticket call setting peers =>
      match poll.pending ticket with
      | none => none
      | some rating =>
          if call ∈ rating.calls env then
            some {
              node := stateAfter (handleMethod env (peers.connect env setting)
                true call.sent.toQuery
                (startResponse call.sent.toQuery poll.node)) poll.node
              pending := poll.pendingAfter ticket call }
          else none

def OffersVote (env : Externals) (query : Query) (kind : RatingKind)
    (raterId : String) (subject : Json) (key : String) : Prop :=
  query.query = "put" ∧ query.args.lookup "key" = some key ∧
    ∃ value, query.args.lookup "value" = some value ∧
      IsVote env kind raterId subject value

/-- A call of the rater's on the subject is on its way, and no lookup has shown
it a rating of the rater's. -/
def Poll.Awaits (env : Externals) (poll : Poll) (ticket : Nat)
    (kind : RatingKind) (raterId : String) (subject : Json) : Prop :=
  ∃ rating, poll.pending ticket = some rating ∧ ¬ rating.Shown env ∧
    rating.kind = kind ∧ rating.rater.id = raterId ∧
    Json.string rating.subject = subject

/--
Another node offers no vote that the node holds under another key or that a
rating call is about to put.  A rating call that is shown none begins where
there is none, and where no other such call is on its way.
-/
def KeepsOneVote (env : Externals) (poll : Poll) : VoteEvent → Prop
  | .remote _ _ query => ∀ kind raterId subject key,
      OffersVote env query kind raterId subject key →
        (∀ other, HoldsVote env poll.node.tables kind raterId subject other →
          other = key) ∧
        ∀ ticket, ¬ poll.Awaits env ticket kind raterId subject
  | .start _ rating => ¬ rating.Shown env →
      (∀ key, ¬ HoldsVote env poll.node.tables rating.kind rating.rater.id
        (.string rating.subject) key) ∧
      ∀ ticket, ¬ poll.Awaits env ticket rating.kind rating.rater.id
        (.string rating.subject)
  | .ask _ _ _ _ => True

/-- Every vote is held once, or is about to be put by one call. -/
structure Polled (env : Externals) (poll : Poll) : Prop where
  one : OneVote env poll.node.tables
  absent : ∀ ticket kind raterId subject key,
    poll.Awaits env ticket kind raterId subject →
      ¬ HoldsVote env poll.node.tables kind raterId subject key
  single : ∀ first second kind raterId subject,
    poll.Awaits env first kind raterId subject →
    poll.Awaits env second kind raterId subject → first = second

section Steps

variable {env : Externals} {node after : LocalNode}

theorem RatingKind.metadata_inj {kind other : RatingKind}
    (h : kind.metadata = other.metadata) : kind = other := by
  cases kind <;> cases other <;> simp_all [RatingKind.metadata]

/-- A rating is about one subject. -/
theorem IsVote.subject_unique {kind other : RatingKind}
    {raterId otherId value : String} {subject otherSubject : Json}
    (h : IsVote env kind raterId subject value)
    (hother : IsVote env other otherId otherSubject value) :
    subject = otherSubject := by
  obtain ⟨json, hparse, hkind, -, hsubject⟩ := h
  obtain ⟨otherJson, hotherParse, hotherKind, -, hotherSubject⟩ := hother
  cases hparse.symm.trans hotherParse
  cases RatingKind.metadata_inj
    (Option.some.inj (hkind.symm.trans hotherKind))
  exact Option.some.inj (hsubject.symm.trans hotherSubject)

theorem isVote_of_document {rating : RatingCall} {json : Json} {kind : RatingKind}
    {raterId : String} {subject : Json}
    (hjson : rating.document = .ok json)
    (hparse : env.parse (rating.rater.dump json) = .ok json)
    (hvote : IsVote env kind raterId subject (rating.rater.dump json)) :
    kind = rating.kind ∧ raterId = rating.rater.id ∧
      subject = .string rating.subject := by
  obtain ⟨parsed, hparsed, hkind, hrater, hsubject⟩ := hvote
  cases hparse.symm.trans hparsed
  obtain ⟨hmetadata, hraterId, hrated⟩ := serialize_members hjson
  have hsame := RatingKind.metadata_inj
    (Option.some.inj (hkind.symm.trans hmetadata))
  subst hsame
  exact ⟨rfl, Option.some.inj (hrater.symm.trans hraterId),
    Option.some.inj (hsubject.symm.trans hrated)⟩

theorem holdsVote_of_shrinks (h : DataShrinks node after) {kind : RatingKind}
    {raterId : String} {subject : Json} {key : String}
    (hafter : HoldsVote env after.tables kind raterId subject key) :
    HoldsVote env node.tables kind raterId subject key := by
  obtain ⟨value, hlookup, hvote⟩ := hafter
  exact ⟨value, h key value hlookup, hvote⟩

theorem oneVote_of_shrinks (h : DataShrinks node after)
    (hvotes : OneVote env node.tables) : OneVote env after.tables := by
  intro kind raterId subject key other hkey hother
  exact hvotes kind raterId subject key other (holdsVote_of_shrinks h hkey)
    (holdsVote_of_shrinks h hother)

/-- The offer is no vote, or the rater's vote is under its key if anywhere. -/
theorem oneVote_of_offered {key value : String}
    (h : DataOffered env key value node after)
    (hoffer : ∀ kind raterId subject other,
      IsVote env kind raterId subject value →
      HoldsVote env node.tables kind raterId subject other → other = key)
    (hvotes : OneVote env node.tables) : OneVote env after.tables := by
  rintro kind raterId subject first second ⟨firstValue, hfirst, hfirstVote⟩
    ⟨secondValue, hsecond, hsecondVote⟩
  rcases h first firstValue hfirst with hfirstOld | ⟨rfl, rfl, -⟩
  · have hfirstHeld := And.intro hfirstOld hfirstVote
    rcases h second secondValue hsecond with hsecondOld | ⟨rfl, rfl, -⟩
    · exact hvotes kind raterId subject first second
        ⟨firstValue, hfirstHeld⟩ ⟨secondValue, hsecondOld, hsecondVote⟩
    · exact hoffer kind raterId subject first hsecondVote
        ⟨firstValue, hfirstHeld⟩
  · rcases h second secondValue hsecond with hsecondOld | ⟨rfl, rfl, -⟩
    · exact (hoffer kind raterId subject second hfirstVote
        ⟨secondValue, hsecondOld, hsecondVote⟩).symm
    · rfl

end Steps

section Polls

variable {env : Externals} {poll next : Poll} {ticket : Nat}
  {kind : RatingKind} {raterId : String} {subject : Json}

theorem polled_idle {node : LocalNode} (hvotes : OneVote env node.tables) :
    Polled env (.idle node) where
  one := hvotes
  absent := by
    rintro ticket kind raterId subject key ⟨rating, hpending, -⟩
    cases hpending
  single := by
    rintro first second kind raterId subject ⟨rating, hpending, -⟩
    cases hpending

/-- A node that takes nothing, with no more calls on their way. -/
theorem Polled.of_shrinks (hpolled : Polled env poll)
    (hnode : DataShrinks poll.node next.node)
    (hpending : next.pending = poll.pending) : Polled env next := by
  have hawaits {ticket : Nat} {kind : RatingKind} {raterId : String}
      {subject : Json} (h : next.Awaits env ticket kind raterId subject) :
      poll.Awaits env ticket kind raterId subject := by
    rwa [Poll.Awaits, hpending] at h
  refine ⟨oneVote_of_shrinks hnode hpolled.one, ?_, ?_⟩
  · intro ticket kind raterId subject key h hholds
    exact hpolled.absent ticket kind raterId subject key (hawaits h)
      (holdsVote_of_shrinks hnode hholds)
  · intro first second kind raterId subject hfirst hsecond
    exact hpolled.single first second kind raterId subject (hawaits hfirst)
      (hawaits hsecond)

/-- What is offered is held under its key if anywhere, and no call that is
still on its way is about to put it. -/
theorem Polled.of_offered {key value : String} (hpolled : Polled env poll)
    (hnode : DataOffered env key value poll.node next.node)
    (hawaits : ∀ ticket kind raterId subject,
      next.Awaits env ticket kind raterId subject →
        poll.Awaits env ticket kind raterId subject ∧
          ¬ IsVote env kind raterId subject value)
    (hoffer : ∀ kind raterId subject other,
      IsVote env kind raterId subject value →
      HoldsVote env poll.node.tables kind raterId subject other →
        other = key) : Polled env next := by
  refine ⟨oneVote_of_offered hnode hoffer hpolled.one, ?_, ?_⟩
  · rintro ticket kind raterId subject other h ⟨stored, hlookup, hvote⟩
    obtain ⟨hbefore, hnew⟩ := hawaits ticket kind raterId subject h
    rcases hnode other stored hlookup with hold | ⟨rfl, rfl, -⟩
    · exact hpolled.absent ticket kind raterId subject other hbefore
        ⟨stored, hold, hvote⟩
    · exact hnew hvote
  · intro first second kind raterId subject hfirst hsecond
    exact hpolled.single first second kind raterId subject
      (hawaits first kind raterId subject hfirst).1
      (hawaits second kind raterId subject hsecond).1

theorem polled_remote {setting : Setting} {peers : Peers} {query : Query}
    (hpolled : Polled env poll)
    (hkeeps : KeepsOneVote env poll (.remote setting peers query))
    (hstep : voteStep env poll (.remote setting peers query) = some next) :
    Polled env next := by
  rw [voteStep, Option.some.injEq] at hstep
  subst hstep
  by_cases hput : query.query = "put"
  swap
  · exact hpolled.of_shrinks (handleMethod_shrinks hput poll.node) rfl
  rw [handleMethod_of_put hput]
  cases hkey : query.args.lookup "key" with
  | none =>
      rw [stateAfter_handlePut_of_missing (.inl hkey)]
      exact hpolled
  | some key =>
  cases hvalue : query.args.lookup "value" with
  | none =>
      rw [stateAfter_handlePut_of_missing (.inr hvalue)]
      exact hpolled
  | some value =>
      have hoffers {kind : RatingKind} {raterId : String} {subject : Json}
          (hvote : IsVote env kind raterId subject value) :=
        hkeeps kind raterId subject key ⟨hput, hkey, value, hvalue, hvote⟩
      refine hpolled.of_offered (handlePut_offers hkey hvalue poll.node) ?_ ?_
      · intro ticket kind raterId subject hawaits
        exact ⟨hawaits, fun hvote => (hoffers hvote).2 ticket hawaits⟩
      · exact fun kind raterId subject other hvote => (hoffers hvote).1 other

theorem polled_start {rating : RatingCall} (hpolled : Polled env poll)
    (hkeeps : KeepsOneVote env poll (.start ticket rating))
    (hstep : voteStep env poll (.start ticket rating) = some next) :
    Polled env next := by
  rw [voteStep] at hstep
  cases hpending : poll.pending ticket with
  | some earlier =>
      rw [hpending] at hstep
      cases hstep
  | none =>
  rw [hpending] at hstep
  cases hstep
  -- what is awaited is awaited already, or is what the new call puts
  have hawaits {other : Nat} {kind : RatingKind} {raterId : String}
      {subject : Json}
      (h : Poll.Awaits env { poll with
        pending := Function.update poll.pending ticket (some rating) } other kind
          raterId subject) :
      poll.Awaits env other kind raterId subject ∨
        other = ticket ∧
          (∀ key, ¬ HoldsVote env poll.node.tables kind raterId subject key) ∧
          ∀ earlier, ¬ poll.Awaits env earlier kind raterId subject := by
    obtain ⟨call, hcall, hunshown, rfl, rfl, rfl⟩ := h
    by_cases hticket : other = ticket
    · subst hticket
      dsimp only at hcall
      rw [Function.update_self, Option.some.injEq] at hcall
      subst hcall
      exact .inr ⟨rfl, hkeeps hunshown⟩
    · dsimp only at hcall
      rw [Function.update_of_ne hticket] at hcall
      exact .inl ⟨call, hcall, hunshown, rfl, rfl, rfl⟩
  refine ⟨hpolled.one, ?_, ?_⟩
  · intro other kind raterId subject key h
    rcases hawaits h with hold | ⟨-, habsent, -⟩
    · exact hpolled.absent other kind raterId subject key hold
    · exact habsent key
  · intro first second kind raterId subject hfirst hsecond
    rcases hawaits hfirst with hfirstOld | ⟨rfl, -, hnone⟩
    · rcases hawaits hsecond with hsecondOld | ⟨rfl, -, hnone⟩
      · exact hpolled.single first second kind raterId subject hfirstOld
          hsecondOld
      · exact absurd hfirstOld (hnone first)
    · rcases hawaits hsecond with hsecondOld | ⟨rfl, -, -⟩
      · exact absurd hsecondOld (hnone second)
      · rfl

theorem polled_ask {rating : RatingCall} {call : ClientCall} {setting : Setting}
    {peers : Peers} (hpolled : Polled env poll)
    (hpending : poll.pending ticket = some rating)
    (hparse : ∀ json, rating.document = .ok json →
      env.parse (rating.rater.dump json) = .ok json)
    (hstep : voteStep env poll (.ask ticket call setting peers) = some next) :
    Polled env next := by
  rw [voteStep, hpending] at hstep
  dsimp only at hstep
  split at hstep
  swap
  · cases hstep
  rename_i hcall
  cases hstep
  cases call with
  | get | set | remove | clear =>
      refine hpolled.of_shrinks (handleMethod_shrinks ?_ poll.node) rfl
      simp [ClientCall.sent, WireQuery.toQuery, ClientCall.method]
  | put key value =>
  obtain ⟨hunshown, json, hjson, rfl, rfl⟩ := put_mem_calls hcall
  have hown : poll.Awaits env ticket rating.kind rating.rater.id
      (.string rating.subject) :=
    ⟨rating, hpending, hunshown, rfl, rfl, rfl⟩
  rw [handleMethod_of_put rfl]
  refine hpolled.of_offered (handlePut_offers (put_sent_key _ _)
    (put_sent_value _ _) poll.node) ?_ ?_
  · rintro other kind raterId subject ⟨call, hother, hrest⟩
    dsimp only [Poll.pendingAfter] at hother
    have hne : other ≠ ticket := by
      rintro rfl
      rw [Function.update_self] at hother
      cases hother
    rw [Function.update_of_ne hne] at hother
    refine ⟨⟨call, hother, hrest⟩, fun hvote => hne ?_⟩
    obtain ⟨rfl, rfl, rfl⟩ := isVote_of_document hjson (hparse json hjson) hvote
    exact hpolled.single other ticket _ _ _ ⟨call, hother, hrest⟩ hown
  · intro kind raterId subject other hvote hholds
    obtain ⟨rfl, rfl, rfl⟩ := isVote_of_document hjson (hparse json hjson) hvote
    exact absurd hholds (hpolled.absent ticket _ _ _ other hown)

/-- A rating that the index lists and the lookup brings is shown to the call. -/
theorem shown_of_found {rating : RatingCall} {key value : String}
    (hkey : key ∈ rating.keys) (hname : key ≠ "")
    (hfound : rating.rater.lookup key = .found value)
    (hvote : IsVote env rating.kind rating.rater.id (.string rating.subject)
      value) : rating.Shown env := by
  obtain ⟨json, hparse, hkind, hrater, -⟩ := hvote
  exact ⟨key, hkey, hname, value, hfound, json, hparse, hkind, hrater⟩

end Polls

/-! ## Counting the votes -/

def ratingReader (kind : RatingKind) (subject : String) : Reader :=
  match kind with
  | .seller => .sellerRatings subject
  | .product => .productRatings subject

def ratedBy (raterId : String) : Row → Bool
  | .rating row => row.raterId = raterId
  | _ => false

/-- What the reader finds is in `data`, and is about the subject it asks for. -/
structure ReadsHeld (env : Externals) (desktop : Desktop) (tables : Store)
    (kind : RatingKind) (subject : String) : Prop where
  held : ∀ key ∈ (ratingReader kind subject).keys desktop, ∀ value,
    desktop.lookup key = .found value → tables.data.lookup key = some value
  subject : ∀ key ∈ (ratingReader kind subject).keys desktop, ∀ value json,
    desktop.lookup key = .found value → env.parse value = .ok json →
    json.string? "metadata" = some kind.metadata →
      json.find? kind.subjectField = some (.string subject)

section Counts

variable {env : Externals} {desktop : Desktop} {tables : Store}
  {kind : RatingKind} {subject raterId : String}

theorem raterId_of_readRating {scoreField key : String}
    {readsExpiration : Bool} {json : Json} {row : Row}
    (hobject : json.isObject = true)
    (h : readRating scoreField readsExpiration key json = .ok (some row))
    (hrated : ratedBy raterId row = true) :
    json.string? "rater_id" = some raterId := by
  obtain ⟨rater, hrater, hrest⟩ := bind_eq_ok.mp h
  obtain ⟨comments, -, hrest⟩ := bind_eq_ok.mp hrest
  obtain ⟨signature, -, hrest⟩ := bind_eq_ok.mp hrest
  obtain ⟨score, -, hrow⟩ := bind_eq_ok.mp hrest
  cases hrow
  have hequal : rater = raterId := by simpa [ratedBy] using hrated
  rw [← hequal]
  exact (fetchString_eq_ok hobject).mp hrater

theorem nodup_keys (kind : RatingKind) (subject : String) :
    ((ratingReader kind subject).keys desktop).Nodup := by
  have hkeys (content : String) (searchTerm : Option String) :
      (desktop.keys content searchTerm).Nodup := by
    unfold Desktop.keys
    split
    · exact nodup_selectKeys _ _ _
    · exact List.nodup_nil
  cases kind <;> exact hkeys _ _

/-- The rows are those of `readKeys`, with a `read` for the kind. -/
theorem run_ratingReader {rows : List Row} {calls : List ClientCall}
    (hrun : ((ratingReader kind subject).run env desktop).run [] =
      .ok rows calls) :
    ∃ read, rows = ((ratingReader kind subject).keys desktop).filterMap
        (rowAt desktop.lookup .blank read) ∧
      ∀ key value row, read key value = .ok (some row) →
        ∃ scoreField readsExpiration, readDocument env kind.metadata
          (readRating scoreField readsExpiration key) value =
            .ok (some row) := by
  have hrows {read : String → String → Except Fault (Option Row)}
      {keys : List String} (h : (readKeys desktop.lookup .blank read keys).run
        [] = .ok rows calls) :
      rows = keys.filterMap (rowAt desktop.lookup .blank read) := by
    have hread := (returns_readKeys keys).mp ⟨rows, calls, h⟩
    rw [run_readKeys keys hread] at h
    cases h
    rfl
  cases kind with
  | seller =>
      exact ⟨_, hrows hrun, fun key value row hread => ⟨_, _, hread⟩⟩
  | product =>
      refine ⟨_, hrows hrun, fun key value row hread => ?_⟩
      rw [readProductRating] at hread
      split at hread
      · cases hread
      · exact ⟨_, _, hread⟩

theorem counts_once (hvotes : OneVote env tables)
    (hreads : ReadsHeld env desktop tables kind subject) {rows : List Row}
    {calls : List ClientCall}
    (hrun : ((ratingReader kind subject).run env desktop).run [] =
      .ok rows calls) (raterId : String) :
    rows.countP (ratedBy raterId) ≤ 1 := by
  obtain ⟨read, rfl, hread⟩ := run_ratingReader hrun
  apply countP_filterMap_le_one (nodup_keys kind subject)
  have hholds : ∀ key ∈ (ratingReader kind subject).keys desktop, ∀ row,
      rowAt desktop.lookup .blank read key = some row →
      ratedBy raterId row = true →
        HoldsVote env tables kind raterId (.string subject) key := by
    intro key hkey row hrow hrated
    rcases rowAt_eq_some hrow with rfl | ⟨value, hfound, hvalue⟩
    · simp [ratedBy] at hrated
    obtain ⟨scoreField, readsExpiration, hdocument⟩ :=
      hread key value row hvalue
    obtain ⟨json, hparse, hkind, hrating⟩ := readDocument_eq_some hdocument
    have hrater := raterId_of_readRating (Json.isObject_of_string? hkind)
      hrating hrated
    exact ⟨value, hreads.held key hkey value hfound, json, hparse, hkind, hrater,
      hreads.subject key hkey value json hfound hparse hkind⟩
  intro key hkey other hother row otherRow hrow hrated hotherRow hotherRated
  exact hvotes kind raterId (.string subject) key other
    (hholds key hkey row hrow hrated)
    (hholds other hother otherRow hotherRow hotherRated)

end Counts

/-! ## Runs -/

/-- The rating document that a call puts is parsed back as it was. -/
def Dumps (env : Externals) (rating : RatingCall) : Prop :=
  ∀ json, rating.document = .ok json →
    env.parse (rating.rater.dump json) = .ok json

section Runs

variable {env : Externals} {poll next : Poll} {node : LocalNode}
  {final : Poll} {events : List VoteEvent}

/-- A call that is on its way has been on it, or begins. -/
theorem pending_of_step {event : VoteEvent} {ticket : Nat} {rating : RatingCall}
    (hstep : voteStep env poll event = some next)
    (h : next.pending ticket = some rating) :
    poll.pending ticket = some rating ∨ event = .start ticket rating := by
  cases event with
  | remote setting peers query =>
      cases hstep
      exact .inl h
  | start other call =>
      rw [voteStep] at hstep
      split at hstep
      · cases hstep
      · cases hstep
        dsimp only at h
        by_cases hticket : ticket = other
        · subst hticket
          rw [Function.update_self, Option.some.injEq] at h
          exact .inr (h ▸ rfl)
        · rw [Function.update_of_ne hticket] at h
          exact .inl h
  | ask other call setting peers =>
      rw [voteStep] at hstep
      split at hstep
      · cases hstep
      split at hstep
      swap
      · cases hstep
      cases hstep
      cases call with
      | get | set | remove | clear => exact .inl h
      | put key value =>
          dsimp only [Poll.pendingAfter] at h
          by_cases hticket : ticket = other
          · rw [hticket, Function.update_self] at h
            cases h
          · rw [Function.update_of_ne hticket] at h
            exact .inl h

theorem polled_step {event : VoteEvent} (hpolled : Polled env poll)
    (hdumps : ∀ ticket rating, poll.pending ticket = some rating →
      Dumps env rating)
    (hkeeps : KeepsOneVote env poll event)
    (hstep : voteStep env poll event = some next) : Polled env next := by
  cases event with
  | remote => exact polled_remote hpolled hkeeps hstep
  | start => exact polled_start hpolled hkeeps hstep
  | ask ticket call setting peers =>
      cases hpending : poll.pending ticket with
      | none =>
          rw [voteStep, hpending] at hstep
          cases hstep
      | some rating =>
          exact polled_ask hpolled hpending (hdumps ticket rating hpending) hstep

theorem polled_run (hstart : Polled env poll)
    (hpending : ∀ ticket rating, poll.pending ticket = some rating →
      Dumps env rating)
    (hdumps : ∀ ticket rating, .start ticket rating ∈ events → Dumps env rating)
    (hkeeps : AllMeet (voteStep env) (KeepsOneVote env) poll events)
    (hrun : runFrom (voteStep env) poll events = some final) :
    Polled env final := by
  have hevents : AllMeet (voteStep env) (fun _ event => event ∈ events) poll
      events := allMeet_of_forall (fun _ _ hmem => hmem) poll
  refine (runFrom_invariant
    (fun poll => Polled env poll ∧ ∀ ticket rating,
      poll.pending ticket = some rating → Dumps env rating)
    ?_ (hkeeps.and hevents) hrun ⟨hstart, hpending⟩).1
  rintro before event after ⟨hpolled, hcalls⟩ ⟨hkept, hmem⟩ hafter
  refine ⟨polled_step hpolled hcalls hkept hafter, fun ticket rating h => ?_⟩
  rcases pending_of_step hafter h with hold | rfl
  · exact hcalls ticket rating hold
  · exact hdumps ticket rating hmem

end Runs

/-! ## Ratings under two keys -/

/-- A buyer with these rows in the index, and these lookups. -/
def buyer (mappings : List Mapping) (lookup : String → Lookup) : Rater where
  id := raterId
  lookup := lookup
  mappings := mappings
  prepares := true
  verifyMessage _ _ := .ok true
  timestamp := "2024-01-01T00:00:00Z"
  expirationDate := .ok none
  dump json := ratingText sellerId ((json.string? "signature").getD "")
  sha3 text :=
    if text = ratingText sellerId firstSignature then ratingKey
    else malformedKey

def buyerCall (mappings : List Mapping) (lookup : String → Lookup)
    (signature : String) : RatingCall :=
  ⟨buyer mappings lookup, .seller, sellerId, 1, "Shipped fast", signature⟩

def buyerDocument (signature : String) : Json :=
  Rating.members (buyer [] fun _ => .missing) .seller
    ⟨raterId, "Shipped fast", signature, sellerId, 1⟩

def voteExternals : Externals :=
  .ofSignatures
    [(ratingText sellerId firstSignature, buyerDocument firstSignature),
     (ratingText sellerId secondSignature, buyerDocument secondSignature),
     (ratingText otherSellerId secondSignature,
        ratingDocument otherSellerId secondSignature)]
    [("Shipped fast", raterId, firstSignature),
     ("Shipped fast", raterId, secondSignature)]

def voteOffer (key value : String) : VoteEvent :=
  .remote lonelySetting silentPeers (⟨"1.0", "put", [("id", lonelyNode.id),
    ("key", key), ("value", value)], "a1b2"⟩ : WireQuery).toQuery

def voteAsk (ticket : Nat) (call : ClientCall) : VoteEvent :=
  .ask ticket call lonelySetting silentPeers

def tablesAfter (events : List VoteEvent) : Option Store :=
  (runFrom (voteStep voteExternals) (.idle lonelyNode) events).map
    fun poll => poll.node.tables

theorem parse_buyerDocument {signature : String}
    (hsignature : signature = firstSignature ∨ signature = secondSignature) :
    voteExternals.parse (ratingText sellerId signature) =
      .ok (buyerDocument signature) := by
  have hfirst : (ratingText sellerId secondSignature ==
      ratingText sellerId firstSignature) = false := by decide +kernel
  rcases hsignature with rfl | rfl <;>
    simp [voteExternals, Externals.ofSignatures, parseListed, List.lookup_cons,
      hfirst]

theorem parse_movedVote :
    voteExternals.parse (ratingText otherSellerId secondSignature) =
      .ok (ratingDocument otherSellerId secondSignature) := by
  have hfirst : (ratingText otherSellerId secondSignature ==
      ratingText sellerId firstSignature) = false := by decide +kernel
  have hsecond : (ratingText otherSellerId secondSignature ==
      ratingText sellerId secondSignature) = false := by decide +kernel
  simp [voteExternals, Externals.ofSignatures, parseListed, List.lookup_cons,
    hfirst, hsecond]

theorem isVote_of_parse {value : String} {json subject : Json}
    (hparse : voteExternals.parse value = .ok json)
    (hkind : json.string? "metadata" = some "seller_rating")
    (hrater : json.string? "rater_id" = some raterId)
    (hseller : json.find? "seller_id" = some subject) :
    IsVote voteExternals .seller raterId subject value :=
  ⟨json, hparse, hkind, hrater, hseller⟩

theorem isVote_buyer {signature : String}
    (hsignature : signature = firstSignature ∨ signature = secondSignature) :
    IsVote voteExternals .seller raterId (.string sellerId)
      (ratingText sellerId signature) := by
  apply isVote_of_parse (parse_buyerDocument hsignature) <;>
    simp [buyerDocument, Rating.members, RatingKind.subjectField,
      RatingKind.scoreField, RatingKind.metadata, Json.string?_eq_some]

theorem isVote_moved :
    IsVote voteExternals .seller raterId (.string otherSellerId)
      (ratingText otherSellerId secondSignature) :=
  isVote_of_parse parse_movedVote (by decide) (by decide) rfl

theorem malformedKey_ne : malformedKey ≠ ratingKey := by decide

def twiceRated (first second : String) : Store :=
  (Store.empty.insertData malformedKey first).insertData ratingKey second

theorem twiceRated_lookup (first second : String) :
    (twiceRated first second).data.lookup malformedKey = some first ∧
      (twiceRated first second).data.lookup ratingKey = some second :=
  ⟨by rw [twiceRated, insertData_lookup_of_ne _ _ malformedKey_ne,
      insertData_lookup], insertData_lookup _ _ _⟩

theorem not_oneVote {events : List VoteEvent} {first second : String}
    (hdata : (tablesAfter events).map Store.data =
      some (twiceRated (ratingText sellerId first)
        (ratingText sellerId second)).data)
    (hfirst : first = firstSignature ∨ first = secondSignature)
    (hsecond : second = firstSignature ∨ second = secondSignature) :
    ∃ tables, tablesAfter events = some tables ∧
      ¬ OneVote voteExternals tables := by
  obtain ⟨tables, htables, hheld⟩ := Option.map_eq_some_iff.mp hdata
  obtain ⟨hmalformed, hrating⟩ :=
    twiceRated_lookup (ratingText sellerId first) (ratingText sellerId second)
  rw [← hheld] at hmalformed hrating
  refine ⟨tables, htables, fun h => ?_⟩
  exact malformedKey_ne (h .seller raterId (.string sellerId) _ _
    ⟨_, hmalformed, isVote_buyer hfirst⟩ ⟨_, hrating, isVote_buyer hsecond⟩)

/-- How often a reader counts the buyer for the seller. -/
def counted (desktop : Desktop) : Nat :=
  match ((ratingReader .seller sellerId).run voteExternals desktop).run [] with
  | .ok rows _ => rows.countP (ratedBy raterId)
  | .error _ _ => 0

/-- What the lookups bring is not all held by the node. -/
def elsewhere : Desktop :=
  { Desktop.ofTables (twiceRated (ratingText sellerId secondSignature)
      (ratingText sellerId firstSignature)) with
    mappings := [ratedRow, malformedRow] }

theorem rated_elsewhere :
    tablesAfter [voteOffer ratingKey (ratingText sellerId firstSignature)] =
        some ratedStore ∧
      OneVote voteExternals ratedStore ∧ counted elsewhere = 2 := by
  refine ⟨by decide +kernel, ?_, by decide +kernel⟩
  have hkey {kind : RatingKind} {raterId : String} {subject : Json}
      {key : String}
      (h : HoldsVote voteExternals ratedStore kind raterId subject key) :
      key = ratingKey := by
    obtain ⟨value, hlookup, -⟩ := h
    by_contra hne
    rw [ratedStore, insertData_lookup_of_ne _ _ hne] at hlookup
    cases hlookup
  exact fun kind raterId subject key other hholds hother =>
    (hkey hholds).trans (hkey hother).symm

/-- A rating moves to another seller, and the index still lists it. -/
def movedTables : Store :=
  twiceRated (ratingText otherSellerId secondSignature)
    (ratingText sellerId firstSignature)

theorem rated_moved :
    tablesAfter [voteOffer malformedKey (ratingText sellerId firstSignature),
        voteOffer malformedKey (ratingText otherSellerId secondSignature),
        voteOffer ratingKey (ratingText sellerId firstSignature)] =
        some movedTables ∧
      OneVote voteExternals movedTables ∧
      counted { Desktop.ofTables movedTables with
        mappings := [malformedRow, ratedRow] } = 2 := by
  refine ⟨by decide +kernel, ?_, by decide +kernel⟩
  have hsellers : sellerId ≠ otherSellerId := by decide +kernel
  have hkey {kind : RatingKind} {raterId : String} {subject : Json}
      {key : String}
      (h : HoldsVote voteExternals movedTables kind raterId subject key) :
      key = malformedKey ∧ subject = .string otherSellerId ∨
        key = ratingKey ∧ subject = .string sellerId := by
    obtain ⟨value, hlookup, hvote⟩ := h
    obtain ⟨hmalformed, hrating⟩ := twiceRated_lookup
      (ratingText otherSellerId secondSignature)
      (ratingText sellerId firstSignature)
    by_cases hfirst : key = malformedKey
    · rw [hfirst, movedTables, hmalformed] at hlookup
      cases hlookup
      exact .inl ⟨hfirst, hvote.subject_unique isVote_moved⟩
    by_cases hsecond : key = ratingKey
    · rw [hsecond, movedTables, hrating] at hlookup
      cases hlookup
      exact .inr ⟨hsecond, hvote.subject_unique (isVote_buyer (.inl rfl))⟩
    rw [movedTables, twiceRated, insertData_lookup_of_ne _ _ hsecond,
      insertData_lookup_of_ne _ _ hfirst] at hlookup
    cases hlookup
  intro kind raterId subject key other hholds hother
  rcases hkey hholds with ⟨rfl, rfl⟩ | ⟨rfl, rfl⟩ <;>
    rcases hkey hother with ⟨rfl, hsubject⟩ | ⟨rfl, hsubject⟩
  · rfl
  · exact absurd (Json.string.inj hsubject).symm hsellers
  · exact absurd (Json.string.inj hsubject) hsellers
  · rfl

/-- The lookup of a second call brings the rating of the first. -/
def ratedLookup (key : String) : Lookup :=
  if key = ratingKey then .found (ratingText sellerId firstSignature)
  else .missing

def editedEvents : List VoteEvent :=
  [.start 0 (buyerCall [] (fun _ => .missing) firstSignature),
    voteAsk 0 (.put ratingKey (ratingText sellerId firstSignature)),
    .start 1 (buyerCall [ratedRow] ratedLookup secondSignature),
    voteAsk 1 (.get ratingKey)]

end Neroshop.Market
