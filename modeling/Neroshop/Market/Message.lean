import Neroshop.Rpc.Session

/-!
# Sending a message

The sender and the text are encrypted under the recipient's key, and the text
alone is signed.  The document is put under the hash of its own text.
-/

namespace Neroshop.Market

open Neroshop.Foundation Neroshop.Node Neroshop.Routing Neroshop.Rpc

structure Message where
  senderId : String
  content : String
  recipientId : String
  signature : String
  deriving DecidableEq, Repr

def Message.fields (message : Message) (timestamp : String)
    (expirationDate : Option String) : List (String × Option Json) :=
  [("sender_id", some (.string message.senderId)),
    ("content", some (.string message.content)),
    ("recipient_id", some (.string message.recipientId)),
    ("signature", some (.string message.signature)),
    ("timestamp", some (.string timestamp)),
    ("metadata", some (.string "message")),
    ("expiration_date", expirationDate.map .string)]

def Message.document (message : Message) (timestamp : String)
    (expirationDate : Option String) : Json :=
  .ofFields (message.fields timestamp expirationDate)

/--
A user and what the client meets during a call.  Encryption under a key gives
nothing where it fails, and the wallet signs or throws; the expiration date is
what `set_expiration` reads from the settings, where it does not throw.
-/
structure Mailer where
  id : String
  rsaPublicEncrypt : (publicKey : String) → List UInt8 → List UInt8
  base64Encode : List UInt8 → String
  signMessage : List UInt8 → Except Fault String
  timestamp : String
  expirationDate : Except Fault (Option String)
  dump : Json → String
  sha3 : String → String

namespace Mailer

variable (sender : Mailer)

/-- Encrypted, and encoded for transmission. -/
def encoded (publicKey : String) (text : List UInt8) : String :=
  sender.base64Encode (sender.rsaPublicEncrypt publicKey text)

def message (recipientId publicKey signature : String)
    (content : List UInt8) : Message where
  senderId := sender.encoded publicKey (chars sender.id)
  content := sender.encoded publicKey content
  recipientId := recipientId
  signature := signature

/-- `Serializer::serialize` of a message. -/
def serialize (message : Message) : Except Fault Json := do
  return message.document sender.timestamp (← sender.expirationDate)

/-- What is not encrypted is not sent; nobody writes to himself. -/
def sendMessage (recipientId : String) (content : List UInt8)
    (publicKey : String) : Session Unit :=
  if recipientId = sender.id then pure ()
  else if sender.rsaPublicEncrypt publicKey content = [] then pure ()
  else do
    let signature ← ofExcept (sender.signMessage content)
    let json ← ofExcept (sender.serialize
      (sender.message recipientId publicKey signature content))
    send (.put (sender.sha3 (sender.dump json)) (sender.dump json))

end Mailer

/-- The parser gives the members back, whatever their order. -/
structure ParsesBack (env : Externals) (text : String) (json : Json) : Prop where
  parses : ∃ parsed, env.parse text = .ok parsed ∧ parsed.isObject = true ∧
    ∀ name, parsed.find? name = json.find? name

section Documents

variable {env : Externals} {message : Message} {timestamp : String}
  {expirationDate : Option String} {key value : String}

theorem Message.find?_document (name : String) :
    (message.document timestamp expirationDate).find? name =
      ((message.fields timestamp expirationDate).lookup name).join :=
  Json.find?_ofFields (by simp [Message.fields]) name

/-- Nodes accept any message. -/
theorem Message.accepted (hkey : key.utf8ByteSize = 64) (hvalue : value ≠ "")
    (hparse : ParsesBack env value (message.document timestamp expirationDate)) :
    ∃ json, Accepted env key value json "message" ∧
      ∀ name, json.find? name =
        (message.document timestamp expirationDate).find? name := by
  obtain ⟨json, hjson, hobject, hfind⟩ := hparse.parses
  have hkind : json.string? "metadata" = some "message" := by
    rw [Json.string?, hfind, Message.find?_document]
    rfl
  refine ⟨json, ⟨⟨hkey, hvalue, hjson, hobject, hkind, by decide⟩, ?_, ?_⟩, hfind⟩
  · rw [validateFields_eq hjson hobject hkind]
    rfl
  · exact verify_unsigned hjson hobject hkind (.inr rfl)

end Documents

/-- What a call of `send_message` that puts something has put. -/
theorem Mailer.put_mem_sendMessage {sender : Mailer} {recipientId publicKey : String}
    {content : List UInt8} {calls : List ClientCall} {key value : String}
    (hrun : (sender.sendMessage recipientId content publicKey).run [] =
      .ok () calls) (hput : .put key value ∈ calls) :
    ∃ signature expirationDate, sender.signMessage content = .ok signature ∧
      sender.expirationDate = .ok expirationDate ∧
      sender.rsaPublicEncrypt publicKey content ≠ [] ∧
      value = sender.dump ((sender.message recipientId publicKey signature
        content).document sender.timestamp expirationDate) ∧
      key = sender.sha3 value := by
  rw [Mailer.sendMessage] at hrun
  split at hrun
  · cases hrun
    simp at hput
  split at hrun
  · cases hrun
    simp at hput
  case isFalse hencrypted =>
    obtain ⟨signature, _, hsigned, hrun⟩ := run_bind_eq_ok.mp hrun
    obtain ⟨hsign, rfl⟩ := run_ofExcept_eq_ok.mp hsigned
    obtain ⟨json, _, hserialized, hrun⟩ := run_bind_eq_ok.mp hrun
    obtain ⟨hserialize, rfl⟩ := run_ofExcept_eq_ok.mp hserialized
    obtain ⟨expirationDate, hdate, hdocument⟩ := bind_eq_ok.mp hserialize
    cases hdocument
    cases hrun
    cases List.mem_singleton.mp hput
    exact ⟨signature, expirationDate, hsign, hdate, hencrypted, rfl, rfl⟩

end Neroshop.Market
