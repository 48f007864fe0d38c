import Neroshop.Network.SamDatagram
import Neroshop.Rpc.Pending
import Neroshop.Rpc.Remote

/-!
# Queries and the handlers that answer them

Each `send_*` call fills the arguments of its query itself, and each network
has a handler of its own for what it delivers.  The handler of Reticulum looks
for the address of the sender among the arguments, where no call puts it, and
the dispatcher looks for the id of the sender, which `send_remove` leaves out.
-/

namespace Neroshop.Rpc

open Neroshop.Foundation Neroshop.Node Neroshop.Routing
open Neroshop.Network (DestinationDecodes IsSamDatagram SamEnvironment fixBase64
  fromPort headerDestination readMessage readMessage_returns_iff)

/-! ## Sending -/

inductive SendCall where
  | sendPing
  | sendFindNode (target : String)
  | sendPut (key value : String)
  | sendGet (key : String)
  | sendGetProviders (key : String)
  /-- One row of the table `hash_table`. -/
  | sendMapV2 (key value : String)
  | sendRemove (key : String)

namespace SendCall

def method : SendCall → String
  | .sendPing => "ping"
  | .sendFindNode _ => "find_node"
  | .sendPut _ _ => "put"
  | .sendGet _ => "get"
  | .sendGetProviders _ => "get_providers"
  | .sendMapV2 _ _ => "map"
  | .sendRemove _ => "remove"

def args (sender : LocalNode) : SendCall → StringMap
  | .sendPing =>
      ((∅ : StringMap).insert "id" sender.id).insert "port"
        (toString sender.port)
  | .sendFindNode target =>
      ((∅ : StringMap).insert "id" sender.id).insert "target" target
  | .sendPut key value =>
      (((∅ : StringMap).insert "id" sender.id).insert "key" key).insert "value"
        value
  | .sendGet key => ((∅ : StringMap).insert "id" sender.id).insert "key" key
  | .sendGetProviders key =>
      ((∅ : StringMap).insert "id" sender.id).insert "key" key
  | .sendMapV2 key value =>
      ((((∅ : StringMap).insert "id" sender.id).insert "port"
        (toString sender.port)).insert "key" key).insert "value" value
  | .sendRemove key => (∅ : StringMap).insert "key" key

def query (call : SendCall) (sender : LocalNode) (tid : String) : Query where
  version := dhtVersion
  query := call.method
  args := call.args sender
  tid := tid

end SendCall

/-! ## Receiving -/

/-- For whom a handler hands a message to its transport. -/
inductive Destination where
  | i2p (destB64 : List UInt8)
  | tor (onion : String) (port : Nat)
  | reticulum (address : String)
  deriving DecidableEq

abbrev Sent := Destination × DhtMessage

/-- What a network hands to its handler. -/
inductive Delivery where
  | i2p (datagram : List UInt8)
  | tor (message : List UInt8) (senderOnion : String) (senderPort : Nat)
  | reticulum (message : List UInt8)

def Delivery.network : Delivery → NetworkType
  | .i2p _ => .i2p
  | .tor _ _ _ => .tor
  | .reticulum _ => .reticulum

section Handlers

variable (env : Externals) (setting : Setting) (sam : SamEnvironment)
  (parseFromArray : List UInt8 → Option DhtMessage)

/-- Only a query is replied to. -/
def replyTo (message : List UInt8) (sender : Destination) :
    NodeCall (List Sent) :=
  match parseFromArray message with
  | some (.query _) => do
      let response ← protobufProcess env setting parseFromArray message false
      return [(sender, response)]
  | _ => pure []

/-- The task that `run_i2p` enqueues for a datagram, which has the address of
the sender from the header before it looks at the payload. -/
def handleI2pMessage (datagram : List UInt8) : NodeCall (List Sent) := do
  let input ← MonadExcept.ofExcept (readMessage sam datagram)
  replyTo env setting parseFromArray input.payload (.i2p input.destB64)

def handleTorMessage (message : List UInt8) (senderOnion : String)
    (senderPort : Nat) : NodeCall (List Sent) :=
  replyTo env setting parseFromArray message (.tor senderOnion senderPort)

def handleReticulumMessage (message : List UInt8) : NodeCall (List Sent) :=
  match parseFromArray message with
  | some (.query query) =>
      match query.args.lookup "address" with
      | none => pure []
      | some senderAddress =>
          if senderAddress = "" then pure []
          else replyTo env setting parseFromArray message
            (.reticulum senderAddress)
  | _ => pure []

def handleDelivery : Delivery → NodeCall (List Sent)
  | .i2p datagram => handleI2pMessage env setting sam parseFromArray datagram
  | .tor message senderOnion senderPort =>
      handleTorMessage env setting parseFromArray message senderOnion senderPort
  | .reticulum message =>
      handleReticulumMessage env setting parseFromArray message

end Handlers

/-- The payload arrives as it was sent, and the network names the sender. -/
inductive Intact (payload : List UInt8) : Delivery → Destination → Prop
  | i2p (datagram destB64 ports : List UInt8)
      (hform : IsSamDatagram datagram destB64 ports payload) :
      Intact payload (.i2p datagram) (.i2p destB64)
  | tor (onion : String) (port : Nat) :
      Intact payload (.tor payload onion port) (.tor onion port)
  | reticulum (address : String) :
      Intact payload (.reticulum payload) (.reticulum address)

/-! ## What is asked of a receiver -/

section Statements

variable (env : Externals) (setting : Setting) (sam : SamEnvironment)
  (receiver : LocalNode)

/-- A handler comes to reply to the sender: its destination is base64, or its
onion address came with the connection. -/
def Repliable : Destination → Prop
  | .i2p destB64 =>
      ∃ decoded, sam.bioRead (destB64.map fixBase64) 1024 = some decoded
  | .tor _ _ => True
  | .reticulum _ => False

/-- The receiver can do what the call asks of it. -/
def Fulfils : SendCall → Prop
  | .sendPing => True
  | .sendFindNode target => Findable receiver target
  | .sendPut key value =>
      Storable env setting.moment receiver.tables key value
  | .sendGet key => heldValue setting receiver key ≠ ""
  | .sendGetProviders _ => True
  | .sendMapV2 key value => ¬ MalformedValue env key value
  | .sendRemove _ => False

/-- One message is sent, to this destination, with this transaction id. -/
def Answers (parseFromArray : List UInt8 → Option DhtMessage)
    (delivery : Delivery) (sender : Destination) (tid : String) : Prop :=
  ∃ reply after,
    (handleDelivery env setting sam parseFromArray delivery).run receiver =
      .ok [(sender, reply)] after ∧
    reply.tid = tid

end Statements

/-! ## The reply of the dispatcher -/

section Replies

variable {env : Externals} {setting : Setting} {receiver after : LocalNode}
  {parseFromArray : List UInt8 → Option DhtMessage} {payload : List UInt8}
  {query : Query} {reply : DhtMessage}

theorem reply_tid_iff {ipcMode : Bool} (htid : query.tid ≠ "")
    (hparse : parseFromArray payload = some (.query query))
    (hrun : (protobufProcess env setting parseFromArray payload ipcMode).run
      receiver = .ok reply after) :
    reply.tid = query.tid ↔
      Admitted ipcMode parseFromArray payload query ∧
        Served env setting receiver ipcMode query := by
  rcases protobufProcess_cases hrun with
    ⟨text, rfl, hearly⟩ | ⟨other, outcome, hadmitted, houtcome, rfl⟩
  · exact iff_of_false (fun h => htid h.symm) fun h => hearly query h.1
  have hsame : other = query := by
    simpa using hadmitted.parsed.symm.trans hparse
  subst hsame
  have hjudges := handleMethod_judges (by simp [startResponse]) houtcome
  rw [and_iff_right hadmitted, ← hjudges.success]
  by_cases hcode : outcome.1 = .success
  · refine iff_of_true ?_ hcode
    rw [hcode, finishReply_of_success (hjudges.response hcode),
      hjudges.tid hcode]
    rfl
  · obtain ⟨-, -, hfailed⟩ := finishReply_of_failure outcome.2 hcode
    rw [hfailed]
    exact iff_of_false htid.symm hcode

theorem run_replyTo {sender : Destination}
    (hparse : parseFromArray payload = some (.query query)) :
    (replyTo env setting parseFromArray payload sender).run receiver =
        .ok [(sender, reply)] after ↔
      (protobufProcess env setting parseFromArray payload false).run receiver =
        .ok reply after := by
  simp only [replyTo, hparse, run_bind_eq_ok, run_pure_eq_ok, List.cons.injEq,
    Prod.mk.injEq, true_and, and_true]
  constructor
  · rintro ⟨response, middle, hrun, rfl, rfl⟩
    exact hrun
  · exact fun hrun => ⟨reply, after, hrun, rfl, rfl⟩

theorem replyTo_answers {sender : Destination} (htid : query.tid ≠ "")
    (hparse : parseFromArray payload = some (.query query)) :
    (∃ reply after,
        (replyTo env setting parseFromArray payload sender).run receiver =
          .ok [(sender, reply)] after ∧ reply.tid = query.tid) ↔
      Admitted false parseFromArray payload query ∧
        Returns (handleMethod env setting false query
          (startResponse query receiver)) receiver ∧
        Served env setting receiver false query := by
  simp only [run_replyTo hparse]
  constructor
  · rintro ⟨reply, after, hrun, hreply⟩
    obtain ⟨hadmitted, hserved⟩ := (reply_tid_iff htid hparse hrun).mp hreply
    have hreturns := protobufProcess_returns.mp ⟨reply, after, hrun⟩
    exact ⟨hadmitted, hreturns query hadmitted, hserved⟩
  · rintro ⟨hadmitted, hmethod, hserved⟩
    have hreturns : Returns
        (protobufProcess env setting parseFromArray payload false) receiver :=
      protobufProcess_returns.mpr fun other hother => by
        rwa [hother.unique hadmitted]
    obtain ⟨reply, after, hrun⟩ := hreturns
    exact ⟨reply, after, hrun,
      (reply_tid_iff htid hparse hrun).mpr ⟨hadmitted, hserved⟩⟩

end Replies

/-! ## The calls -/

section Calls

variable {env : Externals} {setting : Setting} {sender receiver : LocalNode}
  {message : DhtMessage} {tid : String}

theorem map_returns_of_validate {key value : String} {after : Store}
    (h : Node.validate env setting.moment receiver.tables key value =
      (.ok true, after)) :
    ∃ mapped, receiver.keyMapper.add env setting.moment
      receiver.tables.mappings key value = .ok mapped := by
  unfold Node.validate at h
  split at h
  · cases h
  · cases h
  next json hdocument =>
    obtain ⟨metadata, haccepted⟩ := validateDocument_eq_some.mp hdocument
    simp only [KeyMapper.add, haccepted.parsed,
      Json.index_of_isObject haccepted.isObject, Json.getString_getD_find?,
      haccepted.kind, bind, Except.bind, pure, Except.pure]
    exact ⟨_, rfl⟩

theorem handleMap_serves {query : Query} {key value : String}
    (hkey : query.args.lookup "key" = some key)
    (hvalue : query.args.lookup "value" = some value) :
    Returns (handleMap env setting query.args message) receiver ↔
      ¬ MalformedValue env key value := by
  rw [handleMap_returns fun _ _ _ _ _ => map_returns_of_validate]
  simp [hkey, hvalue]

theorem store_eq_true_iff {key value : String} :
    (∃ after, (LocalNode.store env setting key value).run receiver =
        .ok true after) ↔
      Storable env setting.moment receiver.tables key value := by
  rw [← put_eq_true_iff]
  simp only [LocalNode.store, LocalNode.onTables, EStateM.run]
  cases hput : put env setting.moment receiver.tables key value with
  | mk result tables =>
      cases result with
      | error fault => simp
      | ok success => cases success <;> simp

theorem id_sent_iff (call : SendCall) :
    (∃ id, (call.args sender).lookup "id" = some id) ↔
      ∀ key, call ≠ .sendRemove key := by
  cases call with
  | sendRemove key =>
      refine iff_of_false ?_ fun h => h key rfl
      simp [SendCall.args, Finmap.lookup_insert_of_ne]
  | sendPing | sendFindNode | sendPut | sendGet | sendGetProviders
  | sendMapV2 =>
      refine iff_of_true ⟨sender.id, ?_⟩ (by simp)
      simp [SendCall.args, Finmap.lookup_insert_of_ne]

theorem handleMethod_sent (call : SendCall) :
    handleMethod env setting false (call.query sender tid) message =
      match call with
      | .sendPing => pure (.success, message)
      | .sendFindNode _ => handleFindNode setting (call.args sender) message
      | .sendPut _ _ => handlePut env setting (call.args sender) message false
      | .sendGet _ => handleGet setting (call.args sender) message false
      | .sendGetProviders _ =>
          handleGetProviders setting (call.args sender) message
      | .sendMapV2 _ _ => handleMap env setting (call.args sender) message
      | .sendRemove _ =>
          pure (.parseError,
            message.overwriteError .parseError "Unknown method") := by
  cases call <;> rfl

theorem fulfils_iff (call : SendCall) (hcall : ∀ key, call ≠ .sendRemove key) :
    Returns (handleMethod env setting false (call.query sender tid) message)
          receiver ∧
        Served env setting receiver false (call.query sender tid) ↔
      Fulfils env setting receiver call := by
  rw [handleMethod_sent]
  have hargs : (call.query sender tid).args = call.args sender := (rfl)
  cases call with
  | sendPing => exact iff_of_true ⟨returns_pure _, .ping rfl⟩ trivial
  | sendFindNode target =>
      have htarget : ((SendCall.sendFindNode target).args sender).lookup
          "target" = some target := by
        simp [SendCall.args]
      rw [and_iff_left (Served.findNode rfl target htarget), ← hargs]
      refine handleFindNode_returns.trans ?_
      simp [hargs, htarget, Fulfils]
  | sendPut key value =>
      have hkey : ((SendCall.sendPut key value).args sender).lookup "key" =
          some key := by
        simp [SendCall.args, Finmap.lookup_insert_of_ne]
      have hvalue : ((SendCall.sendPut key value).args sender).lookup "value" =
          some value := by
        simp [SendCall.args]
      refine Iff.trans ?_ store_eq_true_iff
      constructor
      · rintro ⟨-, hserved⟩
        cases hserved <;> simp_all [SendCall.query, SendCall.method]
      · rintro ⟨after, hstore⟩
        refine ⟨?_, .put rfl rfl key value hkey hvalue after hstore⟩
        rw [← hargs]
        refine handlePut_returns.mpr fun key' value' hkey' hvalue' => ?_
        cases hkey'.symm.trans hkey
        cases hvalue'.symm.trans hvalue
        exact ⟨true, put_eq_true_iff.mpr (store_eq_true_iff.mp ⟨after, hstore⟩)⟩
  | sendGet key =>
      have hkey : ((SendCall.sendGet key).args sender).lookup "key" =
          some key := by
        simp [SendCall.args]
      constructor
      · rintro ⟨-, hserved⟩
        cases hserved <;>
          simp_all [SendCall.query, SendCall.method, Fulfils]
      · intro hvalue
        rw [← hargs]
        exact ⟨handleGet_returns, .getHeld rfl rfl key hkey hvalue⟩
  | sendGetProviders key =>
      have hkey : ((SendCall.sendGetProviders key).args sender).lookup "key" =
          some key := by
        simp [SendCall.args]
      rw [← hargs]
      exact iff_of_true
        ⟨handleGetProviders_returns, .getProviders rfl key hkey⟩ trivial
  | sendMapV2 key value =>
      have hkey : ((SendCall.sendMapV2 key value).args sender).lookup "key" =
          some key := by
        simp [SendCall.args, Finmap.lookup_insert_of_ne]
      have hvalue : ((SendCall.sendMapV2 key value).args sender).lookup
          "value" = some value := by
        simp [SendCall.args]
      rw [and_iff_left (Served.map rfl key value hkey hvalue), ← hargs]
      exact handleMap_serves hkey hvalue
  | sendRemove key => exact absurd rfl (hcall key)

theorem generateTransactionId_ne_empty (draw : UInt32) :
    generateTransactionId draw ≠ "" := by
  intro h
  have hlist := congrArg String.toList h
  simp [generateTransactionId, tidBytes, hexByte] at hlist

variable {sam : SamEnvironment}
  {parseFromArray : List UInt8 → Option DhtMessage}
  {payload : List UInt8} {call : SendCall} {draw : UInt32}

/-- The handler of Reticulum finds no address in what the calls send. -/
theorem reticulum_silent
    (hparse : parseFromArray payload = some (.query (call.query sender tid))) :
    handleReticulumMessage env setting parseFromArray payload = pure [] := by
  have haddress : (call.args sender).lookup "address" = none := by
    cases call <;> simp [SendCall.args, Finmap.lookup_insert_of_ne]
  simp [handleReticulumMessage, hparse, SendCall.query, haddress]

/-- The task reads the destination of a datagram exactly where the handler
comes to reply. -/
theorem destinationDecodes_iff_repliable {datagram destB64 ports : List UInt8}
    (hform : IsSamDatagram datagram destB64 ports payload) :
    DestinationDecodes sam datagram ↔ Repliable sam (.i2p destB64) := by
  have hheader : headerDestination (destB64 ++ fromPort ++ ports) = destB64 := by
    rw [headerDestination, hform.splitHeader]
  constructor
  · intro hdecodes
    have hdecoded := hdecodes _ _ hform.split
    rwa [hheader] at hdecoded
  · intro hdecoded samHeader payload' hsplit
    rw [hform.split] at hsplit
    cases hsplit
    rwa [hheader]

/-- There the reply is that of the dispatcher. -/
theorem handleDelivery_repliable {delivery : Delivery} {peer : Destination}
    (hintact : Intact payload delivery peer) (hpeer : Repliable sam peer) :
    handleDelivery env setting sam parseFromArray delivery =
      replyTo env setting parseFromArray payload peer := by
  cases hintact with
  | i2p datagram destB64 ports hform =>
      obtain ⟨⟨senderI2p, hread⟩, -⟩ :=
        hform.read ((destinationDecodes_iff_repliable hform).mpr hpeer)
      rw [handleDelivery, handleI2pMessage, hread]
      rfl
  | tor onion port => rfl
  | reticulum address => exact hpeer.elim

/-- Elsewhere none is sent: the task of a datagram throws, and the handler of
Reticulum looks for an address. -/
theorem not_answers_of_not_repliable {delivery : Delivery} {peer : Destination}
    (hparse : parseFromArray payload = some (.query (call.query sender tid)))
    (hintact : Intact payload delivery peer) (hpeer : ¬ Repliable sam peer) :
    ¬ Answers env setting sam receiver parseFromArray delivery peer tid := by
  rintro ⟨reply, after, hrun, -⟩
  cases hintact with
  | i2p datagram destB64 ports hform =>
      rw [handleDelivery, handleI2pMessage, run_bind_eq_ok] at hrun
      obtain ⟨input, middle, hread, -⟩ := hrun
      obtain ⟨hinput, -⟩ := run_ofExcept_eq_ok.mp hread
      exact hpeer ((destinationDecodes_iff_repliable hform).mp
        (readMessage_returns_iff.mp ⟨input, hinput⟩))
  | tor onion port => exact hpeer trivial
  | reticulum address =>
      rw [handleDelivery, reticulum_silent hparse, run_pure_eq_ok] at hrun
      cases hrun.1

/--
A query that arrives as it was sent is answered under its transaction id
exactly where the handler comes to reply and the receiver can do what is asked,
which is nothing for a removal.
-/
theorem answers_iff {delivery : Delivery} {peer : Destination}
    (hparse : parseFromArray payload =
      some (.query (call.query sender (generateTransactionId draw))))
    (hintact : Intact payload delivery peer) :
    Answers env setting sam receiver parseFromArray delivery peer
        (generateTransactionId draw) ↔
      Repliable sam peer ∧ Fulfils env setting receiver call := by
  by_cases hpeer : Repliable sam peer
  swap
  · exact iff_of_false (not_answers_of_not_repliable hparse hintact hpeer)
      fun h => hpeer h.1
  have htid := generateTransactionId_ne_empty draw
  rw [and_iff_right hpeer, Answers, handleDelivery_repliable hintact hpeer]
  refine (replyTo_answers htid hparse).trans ?_
  by_cases hcall : ∀ key, call ≠ .sendRemove key
  · have hadmitted : Admitted false parseFromArray payload
        (call.query sender (generateTransactionId draw)) :=
      ⟨hparse, rfl, .inr ((id_sent_iff call).mpr hcall)⟩
    rw [and_iff_right hadmitted]
    exact fulfils_iff call hcall
  · have hunnamed : ¬ ∃ id, (call.args sender).lookup "id" = some id :=
      fun h => hcall ((id_sent_iff call).mp h)
    push Not at hcall
    obtain ⟨key, rfl⟩ := hcall
    exact iff_of_false (fun h => hunnamed (h.1.id.resolve_left (by simp))) id

end Calls

/-! ## A ping over Reticulum and one over Tor -/

def sentPing : WireQuery :=
  ⟨dhtVersion, "ping", [("id", lonelyNode.id), ("port", "50881")],
    generateTransactionId 0xa1b2c3d4⟩

def pingedOnion : String :=
  "duckduckgogg42xjoc72x3sjasowoarfbgcmvfimaftt6twagswzczad.onion"

theorem parse_sentPing :
    WireQuery.parser [sentPing] sentPing.bytes =
      some (.query (SendCall.sendPing.query lonelyNode
        (generateTransactionId 0xa1b2c3d4))) := by
  rw [WireQuery.parser_bytes_head]
  exact congrArg (fun query => some (DhtMessage.query query)) (by decide)

/-- Over Reticulum nothing is sent back. -/
theorem ping_unanswered :
    WireQuery.parser [sentPing] sentPing.bytes =
        some (.query (SendCall.sendPing.query lonelyNode
          (generateTransactionId 0xa1b2c3d4))) ∧
      (handleDelivery (.ofDocuments []) lonelySetting .sample
          (WireQuery.parser [sentPing]) (.reticulum sentPing.bytes)).run
        lonelyNode = .ok [] lonelyNode ∧
      ∀ peer tid, ¬ Answers (.ofDocuments []) lonelySetting .sample lonelyNode
        (WireQuery.parser [sentPing]) (.reticulum sentPing.bytes) peer tid := by
  have hrun : (handleDelivery (.ofDocuments []) lonelySetting .sample
      (WireQuery.parser [sentPing]) (.reticulum sentPing.bytes)).run
        lonelyNode = .ok [] lonelyNode := by
    rw [handleDelivery, reticulum_silent parse_sentPing]
    rfl
  refine ⟨parse_sentPing, hrun, ?_⟩
  rintro peer tid ⟨reply, after, hsent, -⟩
  cases hrun.symm.trans hsent

theorem answers_tor :
    Answers (.ofDocuments []) lonelySetting .sample lonelyNode
      (WireQuery.parser [sentPing]) (.tor sentPing.bytes pingedOnion 50881)
      (.tor pingedOnion 50881) (generateTransactionId 0xa1b2c3d4) :=
  (answers_iff parse_sentPing (.tor pingedOnion 50881)).mpr
    ⟨trivial, trivial⟩

end Neroshop.Rpc
