import Neroshop.Tor.Frame

/-!
# Frames written by one node and read by another

`send_query` writes a frame in one piece; the stream of frames reaches the
other node cut anywhere.
-/

namespace Neroshop.Tor

open Neroshop.Foundation

/-- The sender's address without the suffix `.onion`. -/
def stripOnion (address : List UInt8) : List UInt8 :=
  if onionSuffix.isSuffixOf address then address.take 56 else address

/--
The frame that `send_query` builds; `none` is the failed assertion on the
length of the address.
-/
def framedPayload (address : List UInt8) (port : UInt16)
    (payload : List UInt8) : Option (List UInt8) :=
  let senderOnion := stripOnion address
  if senderOnion.length = 56 then
    some (toBigEndian 4 ((56 + 2 + payload.length) % 2 ^ 32) ++ senderOnion ++
      toBigEndian 2 port.toNat ++ payload)
  else none

structure Message where
  address : List UInt8
  port : UInt16
  payload : List UInt8

/-- An onion address has 56 characters; the suffix may be written or not. -/
structure Message.Sendable (message : Message) (onion : List UInt8) :
    Prop where
  length : onion.length = 56
  address : message.address = onion ∨ message.address = onion ++ onionSuffix
  payload : message.payload.length < 2 ^ 32 - 62

def Message.frame (message : Message) : List UInt8 :=
  (framedPayload message.address message.port message.payload).getD []

section RoundTrip

variable {message : Message} {onion : List UInt8}

theorem stripOnion_eq (h : message.Sendable onion) :
    stripOnion message.address = onion := by
  rw [stripOnion]
  rcases h.address with haddress | haddress
  · rw [haddress, ← h.length, List.take_length, ite_self]
  · rw [haddress, if_pos (by simp), ← h.length, List.take_left]

theorem framedPayload_eq (h : message.Sendable onion) :
    framedPayload message.address message.port message.payload =
      some (toBigEndian 4 (58 + message.payload.length) ++ onion ++
        toBigEndian 2 message.port.toNat ++ message.payload) := by
  have hpayload := h.payload
  rw [framedPayload, stripOnion_eq h, if_pos h.length,
    Nat.mod_eq_of_lt (by omega)]

theorem frame_eq (h : message.Sendable onion) :
    message.frame = toBigEndian 4 (58 + message.payload.length) ++
      (onion ++ (toBigEndian 2 message.port.toNat ++ message.payload)) := by
  rw [Message.frame, framedPayload_eq h]
  simp

theorem length_frame (h : message.Sendable onion) :
    message.frame.length = 4 + (58 + message.payload.length) := by
  simp [frame_eq h, h.length]
  omega

theorem declaredLength_frame (h : message.Sendable onion)
    (more : List UInt8) : declaredLength (message.frame ++ more) =
      some (58 + message.payload.length) := by
  have hpayload := h.payload
  rw [declaredLength_eq_some, List.length_append, length_frame h, frame_eq h,
    List.append_assoc]
  refine ⟨by omega, ?_⟩
  rw [List.take_left' (length_toBigEndian ..),
    ofBigEndian_toBigEndian (by omega)]

theorem frameOutput_frame (h : message.Sendable onion) (more : List UInt8) :
    frameOutput (message.frame ++ more) (58 + message.payload.length) =
      some ⟨onion ++ onionSuffix, message.port.toNat, message.payload⟩ := by
  have hlength := h.length
  have hport : message.port.toNat < 256 ^ 2 := message.port.toNat_lt
  rw [frameOutput, if_neg (by omega), frame_eq h]
  simp only [List.append_assoc]
  have hdata : ∀ tail, (toBigEndian 4 (58 + message.payload.length) ++
      tail).drop 4 = tail := fun tail =>
    List.drop_left' (length_toBigEndian ..)
  have hport' : ∀ tail, (toBigEndian 4 (58 + message.payload.length) ++
      (onion ++ tail)).drop 60 = tail := fun tail => by
    rw [← List.append_assoc]
    exact List.drop_left' (by simp [hlength])
  have hpayload : ∀ tail, (toBigEndian 4 (58 + message.payload.length) ++
      (onion ++ (toBigEndian 2 message.port.toNat ++ tail))).drop 62 =
        tail := fun tail => by
    rw [← List.append_assoc, ← List.append_assoc]
    exact List.drop_left' (by simp [hlength])
  rw [hdata, hport', hpayload, List.take_left' hlength,
    List.take_left' (length_toBigEndian ..), ofBigEndian_toBigEndian hport,
    List.take_left' (by omega)]

theorem frame_encodes (h : message.Sendable onion) :
    Encodes takeFrame Message.frame
      (fun message => ⟨stripOnion message.address ++ onionSuffix,
        message.port.toNat, message.payload⟩) message where
  complete more := by
    rw [takeFrame_of_complete (declaredLength_frame h more)
        (by rw [List.length_append, length_frame h]; omega),
      frameOutput_frame h, stripOnion_eq h,
      List.drop_left' (length_frame h)]
  incomplete front back hframe hback := by
    have hpayload := h.payload
    have hlength := congrArg List.length hframe
    rw [length_frame h, List.length_append] at hlength
    have hpositive : 0 < back.length := List.length_pos_iff.mpr hback
    have hdeclared := declaredLength_frame h []
    rw [List.append_nil, hframe] at hdeclared
    cases hfront : declaredLength front with
    | none => exact takeFrame_of_short hfront
    | some totalLen =>
        rw [declaredLength_append hfront, Option.some.injEq] at hdeclared
        exact takeFrame_of_incomplete hfront (by omega) (by omega)

/--
However the frames of a list of messages are cut into arrivals, the receiver
dispatches the messages in order, each with the sender's address, port and
payload, and nothing is left in its buffer.
-/
theorem receive_frames {messages : List Message}
    {onion : Message → List UInt8}
    (hmessages : ∀ message ∈ messages, message.Sendable (onion message))
    {chunks : List (List UInt8)}
    (hchunks : chunks.flatten = messages.flatMap Message.frame) :
    receive takeFrame [] chunks =
      .settled (messages.map fun message =>
        ⟨onion message ++ onionSuffix, message.port.toNat, message.payload⟩)
        [] := by
  rw [receive_encoded takeFrame_progressive rfl
    (fun message hmem => frame_encodes (hmessages message hmem)) rfl hchunks]
  congr 1
  refine List.map_congr_left fun message hmem => ?_
  rw [stripOnion_eq (hmessages message hmem)]

end RoundTrip

/-! ## Two frames in three arrivals -/

def sampleOnion : List UInt8 := List.replicate 56 97

def sampleMessages : List Message :=
  [⟨sampleOnion, 57740, [1, 2, 3]⟩, ⟨sampleOnion ++ onionSuffix, 57740, []⟩]

def sampleStream : List UInt8 := sampleMessages.flatMap Message.frame

/-- The first cut falls into a length prefix, the second into a port. -/
def sampleArrivals : List (List UInt8) :=
  [sampleStream.take 2, (sampleStream.drop 2).take 59, sampleStream.drop 61]

theorem receive_frames_sampleArrivals :
    receive takeFrame [] sampleArrivals =
      .settled [⟨sampleOnion ++ onionSuffix, 57740, [1, 2, 3]⟩,
        ⟨sampleOnion ++ onionSuffix, 57740, []⟩] [] := by
  have hmessages : ∀ message ∈ sampleMessages,
      message.Sendable sampleOnion := by
    simp only [sampleMessages, List.forall_mem_cons]
    exact ⟨⟨rfl, .inl rfl, by decide⟩, ⟨rfl, .inr rfl, by decide⟩, by simp⟩
  have hchunks : sampleArrivals.flatten =
      sampleMessages.flatMap Message.frame := by
    decide
  exact receive_frames hmessages hchunks

end Neroshop.Tor
