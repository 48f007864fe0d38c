import Mathlib.Algebra.BigOperators.Group.List.Basic
import Mathlib.Data.UInt

/-!
# Requests and replies between the client and the daemon

Neither side says how long a message is.  The server takes what one read gives
for the request.  The client stops as soon as it has read at least as much into
its buffer as it has already copied out of it: after a first read that does not
fill the buffer, and never once a read has filled it.
-/

namespace Neroshop.Transport

/-- `BUFFER_SIZE`, of either side. -/
def bufferSize : Nat := 4096

/-- What is still to be read, by segments; an empty one is the end. -/
abbrev Stream := List (List UInt8)

/-- `::recv`, which waits where there is nothing to read. -/
def recv (size : Nat) : Stream → Option (List UInt8 × Stream)
  | [] => none
  | segment :: unread =>
      if segment.length ≤ size then some (segment, unread)
      else some (segment.take size, segment.drop size :: unread)

theorem recv_of_le {size : Nat} {segment : List UInt8} (unread : Stream)
    (h : segment.length ≤ size) :
    recv size (segment :: unread) = some (segment, unread) :=
  if_pos h

theorem recv_of_lt {size : Nat} {segment : List UInt8} (unread : Stream)
    (h : size < segment.length) :
    recv size (segment :: unread) =
      some (segment.take size, segment.drop size :: unread) :=
  if_neg (Nat.not_le.mpr h)

def Stream.length (stream : Stream) : Nat := (stream.map List.length).sum

theorem recv_shorter {size : Nat} {stream unread : Stream}
    {bytes : List UInt8} (h : recv size stream = some (bytes, unread))
    (hbytes : bytes ≠ []) : unread.length < stream.length := by
  have hpos := List.length_pos_iff.mpr hbytes
  cases stream with
  | nil => cases h
  | cons segment rest =>
      by_cases hsize : segment.length ≤ size
      · rw [recv_of_le rest hsize] at h
        cases h
        simp only [Stream.length, List.map_cons, List.sum_cons]
        omega
      · rw [recv_of_lt rest (Nat.not_le.mp hsize)] at h
        cases h
        simp only [Stream.length, List.map_cons, List.sum_cons,
          List.length_drop, List.length_take] at hpos ⊢
        omega

structure Receipt where
  /-- The number that the call returns. -/
  returned : Int
  message : List UInt8
  unread : Stream
  /-- A read found nothing and had to wait. -/
  waited : Bool
  deriving DecidableEq

namespace Client

def finish (message buffer : List UInt8) (unread : Stream) : Receipt :=
  ⟨buffer.length, message ++ buffer, unread, false⟩

/--
The loop of `receive`; `buffer` is the part of the buffer that is filled.  A
read that times out ends it with an error.
-/
def receiveLoop (message buffer : List UInt8) (stream : Stream) : Receipt :=
  match h : recv (bufferSize - buffer.length) stream with
  | none => ⟨-1, message, [], true⟩
  | some (bytes, unread) =>
      if bytes = [] then finish message buffer unread
      else
        let total := buffer ++ bytes
        let copied := if total.length = bufferSize then message ++ total
          else message
        let kept := if total.length = bufferSize then [] else total
        if copied.length ≤ kept.length then finish copied kept unread
        else receiveLoop copied kept unread
termination_by stream.length
decreasing_by exact recv_shorter h ‹_›

def receive (stream : Stream) : Receipt := receiveLoop [] [] stream

end Client

/-- The socket of the server has no timeout. -/
def Server.receive (stream : Stream) : Receipt :=
  match recv bufferSize stream with
  | none => ⟨-1, [], [], true⟩
  | some (bytes, unread) => ⟨bytes.length, bytes, unread, false⟩

/-! ## What is asked of the transport -/

/-- A segmentation of a message. -/
structure Segments (stream : Stream) (message : List UInt8) : Prop where
  flatten : stream.flatten = message
  nonempty : ∀ segment ∈ stream, segment ≠ []

/-- Exactly these bytes are handed over, without waiting for others. -/
structure Hands (receipt : Receipt) (message : List UInt8) : Prop where
  message : receipt.message = message
  waited : receipt.waited = false

/-! ## The two sides -/

section Receiving

variable {stream : Stream} {message : List UInt8}

theorem Segments.eq_singleton_iff {segment : List UInt8} {rest : Stream}
    (h : Segments (segment :: rest) message) :
    segment :: rest = [message] ↔ segment = message := by
  have hflatten := h.flatten
  rw [List.flatten_cons] at hflatten
  constructor
  · exact fun heq => (List.cons.inj heq).1
  · rintro rfl
    have hrest : rest.flatten = [] := by simpa using hflatten
    cases rest with
    | nil => rfl
    | cons next rest =>
        rw [List.flatten_cons, List.append_eq_nil_iff] at hrest
        have hnext : next ∈ segment :: next :: rest := by simp
        exact absurd hrest.1 (h.nonempty next hnext)

theorem Server.receive_hands_iff (h : Segments stream message) :
    Hands (Server.receive stream) message ↔
      stream = [message] ∧ message.length ≤ bufferSize := by
  cases stream with
  | nil => exact iff_of_false (fun hhands => nomatch hhands.waited) (by simp)
  | cons segment rest =>
      rw [h.eq_singleton_iff]
      have hflatten := h.flatten
      rw [List.flatten_cons] at hflatten
      by_cases hsize : segment.length ≤ bufferSize
      · rw [Server.receive, recv_of_le rest hsize]
        constructor
        · intro hhands
          have hmessage : segment = message := hhands.message
          exact ⟨hmessage, hmessage ▸ hsize⟩
        · exact fun hwhole => ⟨hwhole.1, rfl⟩
      · refine iff_of_false (fun hhands => ?_)
          fun hwhole => hsize (hwhole.1 ▸ hwhole.2)
        rw [Server.receive, recv_of_lt rest (Nat.not_le.mp hsize)] at hhands
        have hmessage : segment.take bufferSize = message := hhands.message
        have hlength := congrArg List.length (hmessage.trans hflatten.symm)
        simp only [List.length_take, List.length_append] at hlength
        omega

/-- Once a buffer has been filled, only a wait ends the loop. -/
theorem Client.receiveLoop_waits {copied kept : List UInt8}
    (hstream : ∀ segment ∈ stream, segment ≠ [])
    (hcopied : bufferSize ≤ copied.length) (hkept : kept.length < bufferSize) :
    (receiveLoop copied kept stream).waited = true := by
  induction hlength : stream.length using Nat.strong_induction_on
    generalizing stream copied kept with
  | _ length ih =>
  subst hlength
  have hloop (bytes : List UInt8) (unread : Stream) (hbytes : bytes ≠ [])
      (hfits : bytes.length ≤ bufferSize - kept.length)
      (hunread : ∀ segment ∈ unread, segment ≠ [])
      (hrecv : recv (bufferSize - kept.length) stream = some (bytes, unread)) :
      (receiveLoop copied kept stream).waited = true := by
    have hshorter := recv_shorter hrecv hbytes
    have htotal : (kept ++ bytes).length = kept.length + bytes.length :=
      List.length_append
    rw [receiveLoop, hrecv]
    simp only [hbytes, if_false]
    by_cases hfull : (kept ++ bytes).length = bufferSize
    · have hcopied' : bufferSize ≤ (copied ++ (kept ++ bytes)).length := by
        rw [List.length_append]
        omega
      have hpos : 0 < bufferSize := by decide
      simp only [hfull, if_true, List.length_nil]
      rw [if_neg (Nat.not_le.mpr (hpos.trans_le hcopied'))]
      exact ih _ hshorter hunread hcopied' hpos rfl
    · have hroom : (kept ++ bytes).length < bufferSize := by omega
      simp only [hfull, if_false]
      rw [if_neg (Nat.not_le.mpr (hroom.trans_le hcopied))]
      exact ih _ hshorter hunread hcopied hroom rfl
  cases stream with
  | nil =>
      rw [receiveLoop, recv]
  | cons segment rest =>
      have hsegment := hstream segment (List.mem_cons_self ..)
      have hrest : ∀ other ∈ rest, other ≠ [] :=
        fun other hmem => hstream other (List.mem_cons_of_mem _ hmem)
      by_cases hsize : segment.length ≤ bufferSize - kept.length
      · exact hloop segment rest hsegment hsize hrest (recv_of_le rest hsize)
      · have hsize := Nat.not_le.mp hsize
        refine hloop _ _ ?_ ?_ ?_ (recv_of_lt rest hsize)
        · rw [ne_eq, ← List.length_eq_zero_iff, List.length_take]
          omega
        · rw [List.length_take]
          omega
        · rw [List.forall_mem_cons]
          refine ⟨?_, hrest⟩
          rw [ne_eq, ← List.length_eq_zero_iff, List.length_drop]
          omega

/-- A first read that fills the buffer is followed by another. -/
theorem Client.receive_waits {segment : List UInt8} {rest : Stream}
    (hrest : ∀ other ∈ rest, other ≠ [])
    (hsize : bufferSize ≤ segment.length) :
    (receive (segment :: rest)).waited = true := by
  have hloop (bytes : List UInt8) (unread : Stream)
      (hbytes : bytes.length = bufferSize)
      (hunread : ∀ segment ∈ unread, segment ≠ [])
      (hrecv : recv bufferSize (segment :: rest) = some (bytes, unread)) :
      (receive (segment :: rest)).waited = true := by
    have hpos : 0 < bufferSize := by decide
    have hne : bytes ≠ [] := List.length_pos_iff.mp (hbytes ▸ hpos)
    have hrecv' : recv (bufferSize - ([] : List UInt8).length)
        (segment :: rest) = some (bytes, unread) := hrecv
    rw [receive, receiveLoop, hrecv']
    simp only [hne, if_false, List.nil_append, hbytes, if_true, List.length_nil]
    rw [if_neg (Nat.not_le.mpr hpos)]
    exact receiveLoop_waits hunread hbytes.ge hpos
  rcases hsize.eq_or_lt with hexact | hlong
  · exact hloop segment rest hexact.symm hrest (recv_of_le rest hexact.ge)
  · refine hloop _ _ ?_ ?_ (recv_of_lt rest hlong)
    · rw [List.length_take]
      omega
    · rw [List.forall_mem_cons]
      refine ⟨?_, hrest⟩
      rw [ne_eq, ← List.length_eq_zero_iff, List.length_drop]
      omega

theorem Client.receive_hands_iff (h : Segments stream message) :
    Hands (Client.receive stream) message ↔
      stream = [message] ∧ message.length < bufferSize := by
  cases stream with
  | nil =>
      refine iff_of_false (fun hhands => ?_) (by simp)
      rw [Client.receive, receiveLoop, recv] at hhands
      cases hhands.waited
  | cons segment rest =>
      rw [h.eq_singleton_iff]
      have hflatten := h.flatten
      rw [List.flatten_cons] at hflatten
      have hsegment := h.nonempty segment (List.mem_cons_self ..)
      have hrest : ∀ other ∈ rest, other ≠ [] :=
        fun other hmem => h.nonempty other (List.mem_cons_of_mem _ hmem)
      by_cases hsize : segment.length < bufferSize
      · have hreceive : Client.receive (segment :: rest) =
            finish [] segment rest := by
          rw [Client.receive, receiveLoop,
            recv_of_le rest (by simpa using hsize.le)]
          simp [hsegment, hsize.ne]
        rw [hreceive]
        constructor
        · intro hhands
          have hmessage : segment = message := hhands.message
          exact ⟨hmessage, hmessage ▸ hsize⟩
        · exact fun hwhole => ⟨hwhole.1, rfl⟩
      · refine iff_of_false (fun hhands => ?_)
          fun hwhole => hsize (hwhole.1 ▸ hwhole.2)
        have hwaits : (Client.receive (segment :: rest)).waited = true :=
          receive_waits hrest (Nat.not_lt.mp hsize)
        rw [hhands.waited] at hwaits
        cases hwaits

end Receiving

/--
Both sides hand over exactly what was sent where the first read of each gives
the whole message, and on the client's side does not fill the buffer.
-/
theorem messages_handed_iff {request reply : List UInt8}
    {requestStream replyStream : Stream}
    (hrequest : Segments requestStream request)
    (hreply : Segments replyStream reply) :
    Hands (Server.receive requestStream) request ∧
        Hands (Client.receive replyStream) reply ↔
      (requestStream = [request] ∧ request.length ≤ bufferSize) ∧
        replyStream = [reply] ∧ reply.length < bufferSize :=
  and_congr (Server.receive_hands_iff hrequest)
    (Client.receive_hands_iff hreply)

/-- A reply in two segments, of which the client takes the first. -/
theorem reply_cut :
    Segments [[1, 2]] [1, 2] ∧ Segments [[3], [4]] [3, 4] ∧
      Client.receive [[3], [4]] = ⟨1, [3], [[4]], false⟩ ∧
      ¬ (Hands (Server.receive [[1, 2]]) [1, 2] ∧
        Hands (Client.receive [[3], [4]]) [3, 4]) := by
  have hreceive : Client.receive [[3], [4]] = ⟨1, [3], [[4]], false⟩ := by
    rw [Client.receive, Client.receiveLoop,
      recv_of_le [[4]] (by decide)]
    decide
  refine ⟨⟨rfl, by decide⟩, ⟨rfl, by decide⟩, hreceive, fun h => ?_⟩
  have hmessage := h.2.message
  rw [hreceive] at hmessage
  cases hmessage

theorem messages_handed_whole :
    Hands (Server.receive [[1, 2]]) [1, 2] ∧
      Hands (Client.receive [[3, 4]]) [3, 4] :=
  (messages_handed_iff ⟨rfl, by decide⟩ ⟨rfl, by decide⟩).mpr
    ⟨⟨rfl, by decide⟩, rfl, by decide⟩

end Neroshop.Transport
