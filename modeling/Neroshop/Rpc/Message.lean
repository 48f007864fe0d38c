import Mathlib.Data.Finmap

/-!
# DHT messages

A `DhtMessage` has one member of a oneof: a query, a response or an error.  A
member is edited through its mutable accessor, which clears the other members
and hands out an empty one where the member was not set.
-/

namespace Neroshop.Rpc

abbrev StringMap := Finmap fun _ : String => String

structure Query where
  version : String
  query : String
  args : StringMap
  tid : String
  deriving DecidableEq

structure NodeInfo where
  address : String
  port : Nat
  id : String
  status : Int
  distance : Int
  deriving DecidableEq

structure ResponsePayload where
  data : StringMap
  nodes : List NodeInfo
  deriving DecidableEq

structure Response where
  version : String
  response : ResponsePayload
  tid : String
  deriving DecidableEq

structure ErrorInfo where
  code : Int
  message : String
  data : String
  deriving DecidableEq

/-- `DhtMessage`, with the member of the oneof `msg` that is set. -/
inductive DhtMessage where
  | notSet
  | query (query : Query)
  | response (response : Response)
  | error (error : ErrorInfo)
  deriving DecidableEq

def Response.empty : Response := ⟨"", ⟨∅, []⟩, ""⟩

def ErrorInfo.empty : ErrorInfo := ⟨0, "", ""⟩

namespace Response

def addData (response : Response) (name value : String) : Response :=
  { response with
    response.data := response.response.data.insert name value }

def addNodes (response : Response) (nodes : List NodeInfo) : Response :=
  { response with response.nodes := response.response.nodes ++ nodes }

end Response

namespace DhtMessage

def hasResponse : DhtMessage → Bool
  | .response _ => true
  | _ => false

def hasError : DhtMessage → Bool
  | .error _ => true
  | _ => false

/-- The transaction id.  An error has none, and reads as an empty one. -/
def tid : DhtMessage → String
  | .query sent => sent.tid
  | .response reply => reply.tid
  | _ => ""

/-- The id that a handler looks a response up under. -/
def responseTid : DhtMessage → Option String
  | .response reply => if reply.tid = "" then none else some reply.tid
  | _ => none

/-- Edits through `mutable_response`. -/
def onResponse (message : DhtMessage) (edit : Response → Response) :
    DhtMessage :=
  match message with
  | .response reply => .response (edit reply)
  | _ => .response (edit .empty)

/-- Edits through `mutable_error`. -/
def onError (message : DhtMessage) (edit : ErrorInfo → ErrorInfo) :
    DhtMessage :=
  match message with
  | .error info => .error (edit info)
  | _ => .error (edit .empty)

variable (message : DhtMessage)

@[simp] theorem hasResponse_onResponse (edit : Response → Response) :
    (message.onResponse edit).hasResponse = true := by
  cases message <;> rfl

@[simp] theorem hasError_onResponse (edit : Response → Response) :
    (message.onResponse edit).hasError = false := by
  cases message <;> rfl

@[simp] theorem hasError_onError (edit : ErrorInfo → ErrorInfo) :
    (message.onError edit).hasError = true := by
  cases message <;> rfl

@[simp] theorem hasResponse_onError (edit : ErrorInfo → ErrorInfo) :
    (message.onError edit).hasResponse = false := by
  cases message <;> rfl

@[simp] theorem tid_onError (edit : ErrorInfo → ErrorInfo) :
    (message.onError edit).tid = "" := by
  cases message <;> rfl

theorem tid_onResponse (edit : Response → Response)
    (hedit : ∀ response, (edit response).tid = response.tid)
    (h : message.hasResponse = true) :
    (message.onResponse edit).tid = message.tid := by
  cases message with
  | response reply => exact hedit reply
  | notSet | query | error => cases h

end DhtMessage

inductive DhtResultCode where
  | success
  | generic
  | timeout
  | invalidKey
  | invalidValue
  | invalidToken
  | nodeNotFound
  | bucketFull
  | storeFailed
  | storePartial
  | storeToSelf
  | retrieveFailed
  | joinFailed
  | pingFailed
  | invalidOperation
  | networkError
  | invalidRequest
  | parseError
  | dataVerificationFailed
  | removeFailed
  deriving DecidableEq, Repr

namespace DhtResultCode

/-- `static_cast<int>`: the codes are numbered in order, from zero on. -/
def toInt (code : DhtResultCode) : Int := code.ctorIdx

def text : DhtResultCode → String
  | .success => "Success"
  | .generic => "Error"
  | .timeout => "Timeout"
  | .invalidKey => "Invalid key"
  | .invalidValue => "Invalid value"
  | .invalidToken => "Invalid token"
  | .nodeNotFound => "Node not found"
  | .bucketFull => "Bucket full"
  | .storeFailed => "Store failed"
  | .storePartial => "Store partial"
  | .storeToSelf => "Store to self"
  | .retrieveFailed => "Retrieve failed"
  | .joinFailed => "Join failed"
  | .pingFailed => "Ping failed"
  | .invalidOperation => "Invalid operation"
  | .networkError => "Network error"
  | .invalidRequest => "Invalid request"
  | .parseError => "Parse error"
  | .dataVerificationFailed => "Data verification failed"
  | .removeFailed => "Remove failed"

end DhtResultCode

end Neroshop.Rpc
