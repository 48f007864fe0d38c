import Neroshop.Node.Succession
import Neroshop.Rpc.Reply
import Neroshop.Rpc.Wire

/-!
# The client of the local node

The client builds a query for each of its methods, without a transaction id,
and the node answers it in the mode for its own clients.  The dispatcher knows
the names of all of them but `set`, so an update that a seller or a rater sends
is answered as an unknown method and changes nothing.
-/

namespace Neroshop.Rpc

open Neroshop.Foundation Neroshop.Node

/-- The methods of `Client` that send a query, with their arguments. -/
inductive ClientCall where
  | put (key value : String)
  | get (key : String)
  | set (key value : String)
  | remove (key : String)
  | clear
  deriving DecidableEq, Repr

namespace ClientCall

def method : ClientCall → String
  | put .. => "put"
  | get .. => "get"
  | set .. => "set"
  | remove .. => "remove"
  | clear => "clear"

def args : ClientCall → List (String × String)
  | put key value => [("key", key), ("value", value)]
  | get key => [("key", key)]
  | set key value => [("key", key), ("value", value)]
  | remove key => [("key", key)]
  | clear => []

/-- The query that the client sends. -/
def sent (call : ClientCall) : WireQuery :=
  ⟨dhtVersion, call.method, call.args, ""⟩

section Operations

variable (env : Externals) (setting : Setting)

/-- What each method is there to make the node do. -/
def operation : ClientCall → NodeCall Unit
  | put key value => do
      let _ ← LocalNode.sendPut env setting key value
      let _ ← storeAndCache env setting key value
  | get key =>
      if key = "status" then pure ()
      else do
        let _ ← LocalNode.sendGet setting key
  | set key value => do
      let _ ← LocalNode.store env setting key value
  | remove key =>
      modify fun node => { node with
        tables := ((node.tables.remove key).deleteHashTable setting.moment
          key).deleteMappings setting.moment key }
  | clear => do
      let _ ← LocalNode.removeAll

end Operations

end ClientCall

/-- The reply to a method that is not there. -/
def unknownReply : DhtMessage :=
  .error ⟨DhtResultCode.parseError.toInt, DhtResultCode.parseError.text, ""⟩

/-- The node does what the client's method is there for, and replies so. -/
structure HandledAs (env : Externals) (setting : Setting) (node : LocalNode)
    (call : ClientCall) (reply : NodeCall DhtMessage) : Prop where
  known : ∀ message after, reply.run node = .ok message after →
    message ≠ unknownReply
  state : stateAfter reply node = stateAfter (call.operation env setting) node
  value : ∀ key value after, call = .get key → key ≠ "status" →
    (LocalNode.sendGet setting key).run node = .ok value after → value ≠ "" →
    ∃ response, reply.run node = .ok (.response response) after ∧
      response.response.data.lookup "value" = some value

section Calls

variable {env : Externals} {setting : Setting} {node : LocalNode}
  {parseFromArray : List UInt8 → Option DhtMessage} {packed : List UInt8}
  {message : DhtMessage}

theorem protobufProcess_query {query : Query}
    (hparse : parseFromArray packed = some (.query query))
    (hversion : query.version = dhtVersion) :
    protobufProcess env setting parseFromArray packed true =
      (get >>= fun node => handleMethod env setting true query
        (startResponse query node) >>= fun outcome =>
          pure (finishReply outcome.1 outcome.2)) :=
  Admitted.process ⟨hparse, hversion, .inl rfl⟩

/-- The reply and the state after a client's query, by its method. -/
theorem run_protobufProcess_sent {call : ClientCall}
    (hparse : parseFromArray packed = some (.query call.sent.toQuery)) :
    (protobufProcess env setting parseFromArray packed true).run node =
      match (handleMethod env setting true call.sent.toQuery
          (startResponse call.sent.toQuery node)).run node with
      | .ok outcome after => .ok (finishReply outcome.1 outcome.2) after
      | .error fault after => .error fault after := by
  rw [protobufProcess_query hparse rfl, run_get_bind, EStateM.run_bind]
  cases (handleMethod env setting true call.sent.toQuery
    (startResponse call.sent.toQuery node)).run node <;> rfl

theorem stateAfter_query {query : Query}
    (hparse : parseFromArray packed = some (.query query))
    (hversion : query.version = dhtVersion) :
    stateAfter (protobufProcess env setting parseFromArray packed true) node =
      stateAfter (handleMethod env setting true query
        (startResponse query node)) node := by
  rw [protobufProcess_query hparse hversion, stateAfter_bind]
  exact stateAfter_bind_of_forall (fun _ _ => rfl) node

theorem toInt_inj {first second : DhtResultCode}
    (h : first.toInt = second.toInt) : first = second := by
  have hidx : first.ctorIdx = second.ctorIdx := by
    simpa [DhtResultCode.toInt] using h
  cases first <;> cases second <;> first | rfl | cases hidx

/-- A method that succeeds with a response, or fails with a code of its own. -/
theorem finishReply_ne_unknown {code : DhtResultCode}
    (hcode : code ≠ .parseError)
    (hresponse : code = .success → message.hasResponse = true) :
    finishReply code message ≠ unknownReply := by
  intro h
  by_cases hsuccess : code = .success
  · subst hsuccess
    have hmessage := hresponse rfl
    rw [finishReply_of_success hmessage] at h
    rw [h] at hmessage
    cases hmessage
  · have hcodes : code.toInt = DhtResultCode.parseError.toInt := by
      cases message <;>
        simp_all [finishReply, DhtMessage.onError, unknownReply,
          DhtMessage.hasResponse, DhtMessage.hasError]
    exact hcode (toInt_inj hcodes)

/-! ## What the dispatcher runs for each method -/

theorem put_sent_key (key value : String) :
    (ClientCall.put key value).sent.toQuery.args.lookup "key" = some key := by
  simp [ClientCall.sent, WireQuery.toQuery, ClientCall.args,
    Finmap.lookup_insert_of_ne]

theorem put_sent_value (key value : String) :
    (ClientCall.put key value).sent.toQuery.args.lookup "value" =
      some value := by
  simp [ClientCall.sent, WireQuery.toQuery, ClientCall.args]

theorem handleMethod_put (key value : String) :
    handleMethod env setting true (ClientCall.put key value).sent.toQuery
        message = (do
      let sent ← LocalNode.sendPut env setting key value
      let cached ← storeAndCache env setting key value
      let code := putCode sent cached
      return if code = .storePartial then (code, message)
        else failWith code message) := by
  have hdispatch : handleMethod env setting true
      (ClientCall.put key value).sent.toQuery message =
        handlePut env setting (ClientCall.put key value).sent.toQuery.args
          message true := (rfl)
  rw [hdispatch, handlePut, put_sent_key, put_sent_value]
  rfl

theorem handleMethod_get (key : String) :
    handleMethod env setting true (ClientCall.get key).sent.toQuery message =
      if key = "status" then handleStatus setting message
      else do
        let value ← LocalNode.sendGet setting key
        return replyValue message value
          (message.overwriteError .retrieveFailed "Key not found") := by
  have hdispatch : handleMethod env setting true
      (ClientCall.get key).sent.toQuery message =
        handleGet setting (ClientCall.get key).sent.toQuery.args message true :=
    (rfl)
  have hkey : (ClientCall.get key).sent.toQuery.args.lookup "key" =
      some key := by
    simp [ClientCall.sent, WireQuery.toQuery, ClientCall.args]
  rw [hdispatch, handleGet, hkey]
  rfl

theorem handleMethod_set (key value : String) :
    handleMethod env setting true (ClientCall.set key value).sent.toQuery
        message =
      pure (.parseError, message.overwriteError .parseError "Unknown method") :=
  (rfl)

theorem run_handleMethod_remove (key : String) :
    (handleMethod env setting true (ClientCall.remove key).sent.toQuery
        message).run node =
      .ok (failWith (removeCode setting node key) message)
        { node with tables :=
          ((node.tables.remove key).deleteHashTable setting.moment
            key).deleteMappings setting.moment key } := by
  have hdispatch : handleMethod env setting true
      (ClientCall.remove key).sent.toQuery message =
        handleRemove setting (ClientCall.remove key).sent.toQuery.args
          message := (rfl)
  rw [hdispatch]
  refine run_handleRemove ?_
  simp [ClientCall.sent, WireQuery.toQuery, ClientCall.args]

theorem handleMethod_clear :
    handleMethod env setting true ClientCall.clear.sent.toQuery message =
      handleClear message := (rfl)

theorem handleMethod_code {call : ClientCall} {outcome : Outcome}
    {after : LocalNode} (hset : ∀ key value, call ≠ .set key value)
    (hrun : (handleMethod env setting true call.sent.toQuery message).run node =
      .ok outcome after) : outcome.1 ≠ .parseError := by
  cases call with
  | put key value =>
      simp only [handleMethod_put, run_bind_eq_ok, run_pure_eq_ok] at hrun
      obtain ⟨sent, -, -, cached, -, -, rfl, -⟩ := hrun
      have hcode : putCode sent cached ≠ .parseError := by
        unfold putCode cachedCode sentCode
        split <;> split_ifs <;> simp
      split
      · exact hcode
      · rwa [failWith_eq]
  | get key =>
      rw [handleMethod_get] at hrun
      split at hrun
      · simp only [handleStatus, run_get_bind, run_bind_eq_ok,
          run_pure_eq_ok] at hrun
        obtain ⟨-, -, -, rfl, -⟩ := hrun
        simp
      · simp only [run_bind_eq_ok, run_pure_eq_ok] at hrun
        obtain ⟨value, -, -, rfl, -⟩ := hrun
        unfold replyValue
        split <;> simp
  | set key value => exact absurd rfl (hset key value)
  | remove key =>
      rw [run_handleMethod_remove, EStateM.Result.ok.injEq] at hrun
      rw [← hrun.1, failWith_eq]
      rcases removeCode_cases setting node key with h | h <;> simp [h]
  | clear =>
      simp only [handleMethod_clear, handleClear, run_bind_eq_ok,
        run_pure_eq_ok] at hrun
      obtain ⟨removed, -, -, rfl, -⟩ := hrun
      rw [failWith_eq]
      cases removed <;> simp

/-! ## What the node does -/

theorem stateAfter_handleMethod {call : ClientCall}
    (hset : ∀ key value, call ≠ .set key value) :
    stateAfter (handleMethod env setting true call.sent.toQuery message) node =
      stateAfter (call.operation env setting) node := by
  cases call with
  | put key value =>
      rw [handleMethod_put]
      refine stateAfter_bind_congr (fun sent middle => ?_) node
      rw [stateAfter_bind_of_forall fun cached last => ?_,
        stateAfter_bind_of_forall fun cached last => rfl]
      dsimp only
      split <;> rfl
  | get key =>
      rw [handleMethod_get, ClientCall.operation]
      split
      · rw [handleStatus]
        change stateAfter (get >>= _) node = node
        rw [stateAfter_bind]
        change stateAfter (_ >>= _) node = node
        rw [stateAfter_bind_of_forall fun _ _ => rfl]
        cases node.routingTable.getNodes.mapM (peerInfo setting node) <;> rfl
      · rw [stateAfter_bind_of_forall fun _ _ => rfl,
          stateAfter_bind_of_forall fun _ _ => rfl]
  | set key value => exact absurd rfl (hset key value)
  | remove key =>
      rw [stateAfter, run_handleMethod_remove]
      rfl
  | clear =>
      rw [handleMethod_clear]
      rfl

theorem replies_value (env : Externals) (message : DhtMessage)
    {key value : String} {after : LocalNode}
    (hmessage : message.hasResponse = true) (hstatus : key ≠ "status")
    (hget : (LocalNode.sendGet setting key).run node = .ok value after)
    (hvalue : value ≠ "") :
    ∃ outcome response, (handleMethod env setting true
        (ClientCall.get key).sent.toQuery message).run node =
          .ok outcome after ∧
      finishReply outcome.1 outcome.2 = .response response ∧
      response.response.data.lookup "value" = some value := by
  cases message with
  | notSet | query | error => cases hmessage
  | response reply =>
      refine ⟨(.success, .response (reply.addData "value" value)),
        reply.addData "value" value, ?_, rfl, by simp [Response.addData]⟩
      rw [handleMethod_get, if_neg hstatus, run_bind_of_ok hget, replyValue,
        if_neg hvalue]
      rfl

/--
In every state, the node does for a query of the client what the client's
method is there for, unless that method is `set`.
-/
theorem client_agrees_iff {call : ClientCall}
    (hparse : parseFromArray packed = some (.query call.sent.toQuery)) :
    HandledAs env setting node call
        (protobufProcess env setting parseFromArray packed true) ↔
      ∀ key value, call ≠ .set key value := by
  constructor
  · rintro hhandled key value rfl
    refine hhandled.known unknownReply node ?_ rfl
    rw [run_protobufProcess_sent hparse, handleMethod_set]
    rfl
  intro hset
  refine ⟨fun reply after hrun => ?_, ?_, ?_⟩
  · rw [run_protobufProcess_sent hparse] at hrun
    cases hmethod : (handleMethod env setting true call.sent.toQuery
        (startResponse call.sent.toQuery node)).run node with
    | error fault middle =>
        rw [hmethod] at hrun
        cases hrun
    | ok outcome middle =>
        rw [hmethod] at hrun
        dsimp only at hrun
        obtain ⟨rfl, -⟩ := EStateM.Result.ok.inj hrun
        have hjudges := handleMethod_judges (by simp [startResponse]) hmethod
        exact finishReply_ne_unknown (handleMethod_code hset hmethod)
          hjudges.response
  · rw [stateAfter_query hparse rfl, stateAfter_handleMethod hset]
  · rintro key value after rfl hstatus hget hvalue
    obtain ⟨outcome, response, hrun, hreply, hfound⟩ :=
      replies_value env (startResponse _ node) (by simp [startResponse])
        hstatus hget hvalue
    refine ⟨response, ?_, hfound⟩
    rw [run_protobufProcess_sent hparse, hrun]
    dsimp only
    rw [hreply]

end Calls

/-! ## An edited rating -/

def ratedNode : LocalNode := { lonelyNode with tables := ratedStore }

def rerateCall (setOrPut : String → String → ClientCall) : ClientCall :=
  setOrPut ratingKey (ratingText sellerId secondSignature)

/-- A `put` of the edited rating changes the node, the client's `set` does not. -/
theorem set_unknown :
    put ratingExternals lonelySetting.moment ratedNode.tables ratingKey
        (ratingText sellerId secondSignature) =
      (.ok true, ratedNode.tables.insertData ratingKey
        (ratingText sellerId secondSignature)) ∧
    (protobufProcess ratingExternals lonelySetting
      (WireQuery.parser [(rerateCall .set).sent]) (rerateCall .set).sent.bytes
        true).run ratedNode = .ok unknownReply ratedNode ∧
    ratedNode.tables.data.lookup ratingKey ≠
      some (ratingText sellerId secondSignature) := by
  refine ⟨by decide +kernel, ?_, by decide +kernel⟩
  rw [run_protobufProcess_sent (WireQuery.parser_bytes_head _ _)]
  rfl

theorem client_agrees_put :
    HandledAs ratingExternals lonelySetting ratedNode (rerateCall .put)
      (protobufProcess ratingExternals lonelySetting
        (WireQuery.parser [(rerateCall .put).sent])
        (rerateCall .put).sent.bytes true) :=
  (client_agrees_iff (WireQuery.parser_bytes_head _ _)).mpr
    (by simp [rerateCall])

end Neroshop.Rpc
