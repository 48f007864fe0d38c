import Neroshop.Rpc.Methods

/-!
# Which member a reply has

A reply is right when an error stands for a request that failed, a response
for one that did not, and the transaction id is that of the query.  An error
has no transaction id, and a request that is turned away before its method is
reached gets a response without one, so only what succeeds is replied to
rightly, and a failure only where the query has no transaction id either.
-/

namespace Neroshop.Rpc

open Neroshop.Foundation Neroshop.Node

section Requests

variable (env : Externals) (setting : Setting) (node : LocalNode)
  (ipcMode : Bool)

structure Admitted (parseFromArray : List UInt8 → Option DhtMessage)
    (request : List UInt8) (query : Query) : Prop where
  parsed : parseFromArray request = some (.query query)
  version : query.version = dhtVersion
  id : ipcMode = true ∨ ∃ id, query.args.lookup "id" = some id

/-- A partly stored value is not a failure to the method that stores it. -/
def Succeeds (parseFromArray : List UInt8 → Option DhtMessage)
    (request : List UInt8) : Prop :=
  ∃ query, Admitted ipcMode parseFromArray request query ∧
    (Served env setting node ipcMode query ∨
      PartlyStored env setting node ipcMode query)

structure CorrectReply (parseFromArray : List UInt8 → Option DhtMessage)
    (request : List UInt8) (reply : DhtMessage) : Prop where
  error : reply.hasError = true ↔
    ¬ Succeeds env setting node ipcMode parseFromArray request
  response : reply.hasResponse = true ↔
    Succeeds env setting node ipcMode parseFromArray request
  tid : ∀ query, parseFromArray request = some (.query query) →
    reply.tid = query.tid

end Requests

/-! ## The reply -/

section Replies

variable {env : Externals} {setting : Setting} {node after : LocalNode}
  {ipcMode : Bool} {parseFromArray : List UInt8 → Option DhtMessage}
  {request : List UInt8} {query : Query} {reply : DhtMessage}

theorem finishReply_of_success {message : DhtMessage}
    (hmessage : message.hasResponse = true) :
    finishReply .success message = message := by
  simp [finishReply, hmessage]

theorem finishReply_of_failure (message : DhtMessage) {code : DhtResultCode}
    (hcode : code ≠ .success) :
    (finishReply code message).hasError = true ∧
      (finishReply code message).hasResponse = false ∧
      (finishReply code message).tid = "" := by
  simp [finishReply, hcode]

theorem Admitted.process (h : Admitted ipcMode parseFromArray request query) :
    protobufProcess env setting parseFromArray request ipcMode =
      (get >>= fun node => handleMethod env setting ipcMode query
        (startResponse query node) >>= fun outcome =>
          pure (finishReply outcome.1 outcome.2)) := by
  have hid : ¬ (!ipcMode ∧ (query.args.lookup "id").isNone) := by
    rcases h.id with hipc | ⟨id, hfound⟩
    · simp [hipc]
    · simp [hfound]
  rw [protobufProcess, h.parsed]
  dsimp only
  rw [if_neg (not_not.mpr h.version), if_neg hid]

theorem process_of_not_admitted
    (h : ∀ query, ¬ Admitted ipcMode parseFromArray request query) :
    ∃ text, protobufProcess env setting parseFromArray request ipcMode =
      pure (earlyReply text) := by
  unfold protobufProcess
  split
  · exact ⟨_, rfl⟩
  · next query hparse =>
      split
      · exact ⟨_, rfl⟩
      · next hversion =>
      split
      · exact ⟨_, rfl⟩
      · next hid =>
          refine absurd ⟨hparse, not_not.mp hversion, ?_⟩ (h query)
          cases ipcMode with
          | true => exact .inl rfl
          | false => simpa [Option.isNone_iff_eq_none,
              Option.ne_none_iff_exists'] using hid
  · exact ⟨_, rfl⟩

/-- A reply comes from the method or from one of the checks before it. -/
theorem protobufProcess_cases
    (hrun : (protobufProcess env setting parseFromArray request ipcMode).run
      node = .ok reply after) :
    (∃ text, reply = earlyReply text ∧
      ∀ query, ¬ Admitted ipcMode parseFromArray request query) ∨
    ∃ query outcome, Admitted ipcMode parseFromArray request query ∧
      (handleMethod env setting ipcMode query (startResponse query node)).run
        node = .ok outcome after ∧
      reply = finishReply outcome.1 outcome.2 := by
  by_cases h : ∃ query, Admitted ipcMode parseFromArray request query
  · obtain ⟨query, hadmitted⟩ := h
    rw [hadmitted.process] at hrun
    simp only [run_get_bind, run_bind_eq_ok, run_pure_eq_ok] at hrun
    obtain ⟨outcome, middle, houtcome, rfl, rfl⟩ := hrun
    exact .inr ⟨query, outcome, hadmitted, houtcome, rfl⟩
  · rw [not_exists] at h
    obtain ⟨text, hprocess⟩ := process_of_not_admitted h
    rw [hprocess, run_pure_eq_ok] at hrun
    exact .inl ⟨text, hrun.1.symm, h⟩

theorem Admitted.unique {other : Query}
    (h : Admitted ipcMode parseFromArray request query)
    (hother : Admitted ipcMode parseFromArray request other) :
    query = other := by
  simpa using h.parsed.symm.trans hother.parsed

theorem succeeds_iff (h : Admitted ipcMode parseFromArray request query) :
    Succeeds env setting node ipcMode parseFromArray request ↔
      Served env setting node ipcMode query ∨
        PartlyStored env setting node ipcMode query := by
  constructor
  · rintro ⟨other, hother, hsuccess⟩
    rwa [h.unique hother]
  · exact fun hsuccess => ⟨query, h, hsuccess⟩

/--
The reply to a request is right exactly when the request is admitted and its
operation succeeds, or fails and the query has no transaction id.
-/
theorem protobufProcess_correct_iff
    (hrun : (protobufProcess env setting parseFromArray request ipcMode).run
      node = .ok reply after) :
    CorrectReply env setting node ipcMode parseFromArray request reply ↔
      ∃ query, Admitted ipcMode parseFromArray request query ∧
        (Served env setting node ipcMode query ∨
          query.tid = "" ∧
            ¬ PartlyStored env setting node ipcMode query) := by
  rcases protobufProcess_cases hrun with
    ⟨text, rfl, hearly⟩ | ⟨query, outcome, hadmitted, houtcome, rfl⟩
  · refine iff_of_false (fun hcorrect => ?_) (fun ⟨query, h, _⟩ => hearly query h)
    obtain ⟨query, h, -⟩ := hcorrect.response.mp rfl
    exact hearly query h
  have hjudges := handleMethod_judges (by simp [startResponse]) houtcome
  have hquery : (∃ query, Admitted ipcMode parseFromArray request query ∧
        (Served env setting node ipcMode query ∨
          query.tid = "" ∧ ¬ PartlyStored env setting node ipcMode query)) ↔
      Served env setting node ipcMode query ∨
        query.tid = "" ∧ ¬ PartlyStored env setting node ipcMode query := by
    refine ⟨fun ⟨other, hother, h⟩ => ?_, fun h => ⟨query, hadmitted, h⟩⟩
    rwa [hadmitted.unique hother]
  rw [hquery]
  by_cases hcode : outcome.1 = .success
  · have hserved := hjudges.success.mp hcode
    have hresponse := hjudges.response hcode
    refine iff_of_true ?_ (.inl hserved)
    rw [hcode, finishReply_of_success hresponse]
    have hsucceeds := (succeeds_iff hadmitted).mpr (.inl hserved)
    refine ⟨iff_of_false ?_ (not_not.mpr hsucceeds),
      iff_of_true hresponse hsucceeds, fun other hother => ?_⟩
    · cases hreply : outcome.2 <;> simp_all [DhtMessage.hasResponse,
        DhtMessage.hasError]
    · have hsame : query = other := by
        simpa using hadmitted.parsed.symm.trans hother
      rw [hjudges.tid hcode, ← hsame]
      rfl
  · have hserved : ¬ Served env setting node ipcMode query :=
      fun h => hcode (hjudges.success.mpr h)
    obtain ⟨herror, hresponse, htid⟩ :=
      finishReply_of_failure outcome.2 hcode
    constructor
    · intro hcorrect
      refine .inr ⟨?_, fun hpartly => ?_⟩
      · rw [← hcorrect.tid query hadmitted.parsed, htid]
      · exact hcorrect.error.mp herror
          ((succeeds_iff hadmitted).mpr (.inr hpartly))
    · rintro (h | ⟨hempty, hpartly⟩)
      · exact absurd h hserved
      have hfails : ¬ Succeeds env setting node ipcMode parseFromArray request :=
        fun h => ((succeeds_iff hadmitted).mp h).elim hserved hpartly
      refine ⟨iff_of_true herror hfails, iff_of_false (by simp [hresponse])
        hfails, fun other hother => ?_⟩
      have hsame : query = other := by
        simpa using hadmitted.parsed.symm.trans hother
      rw [htid, ← hsame, hempty]

end Replies

/-! ## A ping of this version and one of another -/

def pingQuery (version : String) : Query := ⟨version, "ping", ∅, "a1b2"⟩

def pingRequest : List UInt8 :=
  [10, 17, 10, 3, 49, 46, 48, 18, 4, 112, 105, 110, 103, 34, 4, 97, 49, 98, 50]

def oldPingRequest : List UInt8 :=
  [10, 17, 10, 3, 48, 46, 57, 18, 4, 112, 105, 110, 103, 34, 4, 97, 49, 98, 50]

def parsePings (request : List UInt8) : Option DhtMessage :=
  if request = pingRequest then some (.query (pingQuery "1.0"))
  else if request = oldPingRequest then some (.query (pingQuery "0.9"))
  else none

/-- A node that has no peers, so nobody acknowledges or supplies a value. -/
def lonelySetting : Setting where
  moment := ⟨1704067200, fun _ => true⟩
  uninitialized := .zero
  sort nodes := nodes.mergeSort fun first second =>
    first.distance ≤ second.distance
  checkCounter _ := 0
  dataRamUsage := 56
  bootstrapProgress := none
  publish _ _ := pure 0
  retrieve _ := pure ""

def lonelyNode : LocalNode where
  id := "0000000000000000000000000000000000000000000000000000000000000000"
  address := "127.0.0.1"
  port := 50881
  networkType := .tor
  tables := .empty
  providers := ∅
  routingTable := .create .zero
  keyMapper := []

/-- Another version is replied to with a response that has nothing but its own. -/
theorem oldPing_misreported :
    (protobufProcess (.ofDocuments []) lonelySetting parsePings oldPingRequest
        false).run lonelyNode =
      .ok (.response ⟨"1.0", ⟨∅, []⟩, ""⟩) lonelyNode ∧
    ¬ CorrectReply (.ofDocuments []) lonelySetting lonelyNode false parsePings
      oldPingRequest (.response ⟨"1.0", ⟨∅, []⟩, ""⟩) := by
  have hparse : parsePings oldPingRequest = some (.query (pingQuery "0.9")) := by
    decide
  constructor
  · simp only [protobufProcess, hparse]
    rw [if_pos (by decide)]
    rfl
  · intro hcorrect
    exact absurd (hcorrect.tid _ hparse) (by decide)

theorem protobufProcess_correct_ping :
    CorrectReply (.ofDocuments []) lonelySetting lonelyNode true parsePings
      pingRequest (startResponse (pingQuery "1.0") lonelyNode) := by
  have hparse : parsePings pingRequest = some (.query (pingQuery "1.0")) := by
    decide
  have hrun : (protobufProcess (.ofDocuments []) lonelySetting parsePings
      pingRequest true).run lonelyNode =
        .ok (startResponse (pingQuery "1.0") lonelyNode) lonelyNode := by
    simp only [protobufProcess, hparse]
    rw [if_neg (by decide), if_neg (by simp)]
    rfl
  exact (protobufProcess_correct_iff hrun).mpr
    ⟨pingQuery "1.0", ⟨hparse, by decide, .inl rfl⟩,
      .inl (.ping (by decide))⟩

end Neroshop.Rpc
