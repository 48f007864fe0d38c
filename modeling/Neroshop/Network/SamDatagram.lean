import Neroshop.Foundation.Bytes
import Neroshop.Network.Base32
import Neroshop.Rpc.Message

/-!
# Datagrams over SAM

The SAM bridge puts a header line in front of each datagram, with the base64
destination of the sender at its beginning.  `run_i2p` hands what it receives to
a task that reads the header by itself; `datagram_parse` reads it as well, and
is not called there.
-/

namespace Neroshop.Network

open Neroshop.Foundation Neroshop.Routing Neroshop.Rpc

/-- `SAM_BUFSIZE`. -/
def samBufsize : Nat := 8192

def newline : UInt8 := 10

/-- `" FROM_PORT="`. -/
def fromPort : List UInt8 := [32, 70, 82, 79, 77, 95, 80, 79, 82, 84, 61]

/-! ## Addresses -/

/-- What the task of a datagram depends on. -/
structure SamEnvironment where
  /-- `BIO_read` through the base64 filter, of so many bytes at most; there is
  none where it returns no positive number. -/
  bioRead : (input : List UInt8) → (size : Nat) → Option (List UInt8)
  sha256 : List UInt8 → List UInt8
  nickname : List UInt8
  parseFromArray : List UInt8 → Option DhtMessage
  protobufProcess : List UInt8 → Except Fault (List UInt8)
  onPing : (payload senderDest : List UInt8) → Except Fault Unit
  onMap : (payload senderDest : List UInt8) → Except Fault Unit
  /-- Whether a promise waits under a transaction id. -/
  pendingRequests : String → Bool

def fixBase64 (symbol : UInt8) : UInt8 :=
  if symbol = 45 then 43 else if symbol = 126 then 47 else symbol

def base64I2pDecode (env : SamEnvironment) (input : List UInt8) :
    Except Fault (List UInt8) :=
  match env.bioRead (input.map fixBase64) 1024 with
  | some output => .ok output
  | none => .error .runtimeError

def toI2pAddress (env : SamEnvironment) (pubkey : List UInt8) :
    Except Fault (List Char) := do
  let decoded ← base64I2pDecode env pubkey
  return base32I2pEncode (env.sha256 decoded) ++ ".b32.i2p".toList

/-! ## Reading a datagram -/

structure SamDatagram where
  payload : List UInt8
  destination : List UInt8
  header : List UInt8
  deriving DecidableEq

def datagramParse (message : List UInt8) : Except Fault SamDatagram :=
  match splitAround [newline] message with
  | none => .error .runtimeError
  | some (header, payload) =>
      match splitAround fromPort header with
      | some (destination, _) => .ok ⟨payload, destination, header⟩
      | none => .error .runtimeError

/-- What the task has from the message. -/
structure TaskInput where
  payload : List UInt8
  destB64 : List UInt8
  senderI2p : List Char
  deriving DecidableEq

/-- `sam_header.substr(0, from_pos)`, which is all of it where `from_pos` is
`npos`. -/
def headerDestination (samHeader : List UInt8) : List UInt8 :=
  match splitAround fromPort samHeader with
  | some (destB64, _) => destB64
  | none => samHeader

def readMessage (env : SamEnvironment) (message : List UInt8) :
    Except Fault TaskInput :=
  match splitAround [newline] message with
  | none => .ok ⟨[], [], []⟩
  | some (samHeader, payload) => do
      let destB64 := headerDestination samHeader
      let senderI2p ← toI2pAddress env destB64
      return ⟨payload, destB64, senderI2p⟩

inductive TaskEnd where
  | invalidPayload
  /-- The datagram is sent to the bridge. -/
  | answered (datagram : List UInt8)
  | fulfilled (tid : String) (payload : List UInt8)
  | ignored

def responseDatagram (env : SamEnvironment) (destB64 response : List UInt8) :
    List UInt8 :=
  chars "3.0 " ++ env.nickname ++ chars " " ++ destB64 ++ [newline] ++ response

/-- What the task does once it has the payload and the destination. -/
def handlePayload (env : SamEnvironment) (payload destB64 : List UInt8) :
    Except Fault TaskEnd :=
  match env.parseFromArray payload with
  | none => return .invalidPayload
  | some (.query _) => do
      let response ← env.protobufProcess payload
      env.onPing payload destB64
      env.onMap payload destB64
      return .answered (responseDatagram env destB64 response)
  | some (.response response) =>
      if response.tid ≠ "" ∧ env.pendingRequests response.tid then
        return .fulfilled response.tid payload
      else return .ignored
  | some (.error _) => return .ignored
  | some .notSet => return .ignored

/-- The task that a worker of the pool runs. -/
def datagramTask (env : SamEnvironment) (message : List UInt8) :
    Except Fault TaskEnd := do
  let input ← readMessage env message
  handlePayload env input.payload input.destB64

/-! ## Receiving -/

inductive Errno where
  | again
  | wouldBlock
  | notConnected
  | other (number : Nat)
  deriving DecidableEq

/-- How the body of the loop ends once the socket is readable. -/
inductive ReceiveEnd where
  | goesOn
  | leaves
  | throws (fault : Fault)
  | enqueues (message : List UInt8)
  deriving DecidableEq

/-- On the datagram that arrives, of which the buffer takes the front; on none
where `recvfrom` returns a negative number. -/
def receiveStep (closed : Bool) (errno : Errno) :
    Option (List UInt8) → ReceiveEnd
  | none =>
      if errno = .again ∨ errno = .wouldBlock then .goesOn
      else if closed ∧ errno = .notConnected then .leaves
      -- the string is made of as many bytes as `size_t` says -1 is
      else .throws .lengthError
  | some datagram =>
      let received := datagram.take (samBufsize - 1)
      if received = [] then .goesOn
      else if closed ∧ errno = .notConnected then .leaves
      else .enqueues received

/-! ## What is asked of a datagram -/

/-- A destination, the ports and the line end, in front of the payload. -/
structure IsSamDatagram (datagram destination ports payload : List UInt8) :
    Prop where
  bytes : datagram =
    destination ++ fromPort ++ ports ++ [newline] ++ payload
  destination : ∀ symbol ∈ destination, symbol ≠ 32 ∧ symbol ≠ newline
  ports : newline ∉ ports

section Handling

variable (env : SamEnvironment) (closed : Bool) (errno : Errno)
  (arrival : Option (List UInt8))

structure HandlesArrival : Prop where
  step : ∀ fault, receiveStep closed errno arrival ≠ .throws fault
  task : ∀ message, receiveStep closed errno arrival = .enqueues message →
    ∃ ending, datagramTask env message = .ok ending
  exact : ∀ message, receiveStep closed errno arrival = .enqueues message →
    ∀ datagram destination ports payload, arrival = some datagram →
      IsSamDatagram datagram destination ports payload →
      (∃ senderI2p, readMessage env message =
        .ok ⟨payload, destination, senderI2p⟩) ∧
      ∃ header, datagramParse message = .ok ⟨payload, destination, header⟩

/-- What stands for the destination of a message is base64. -/
def DestinationDecodes (message : List UInt8) : Prop :=
  ∀ samHeader payload, splitAround [newline] message = some (samHeader, payload) →
    ∃ decoded, env.bioRead ((headerDestination samHeader).map fixBase64) 1024 =
      some decoded

/-- The socket fails in no way that is not expected, and a datagram has a
destination and fits the buffer. -/
def Expected : Prop :=
  match arrival with
  | none => errno = .again ∨ errno = .wouldBlock ∨
      closed = true ∧ errno = .notConnected
  | some datagram =>
      closed = true ∧ errno = .notConnected ∨
        DestinationDecodes env (datagram.take (samBufsize - 1)) ∧
          ((∃ destination ports payload,
            IsSamDatagram datagram destination ports payload) →
              datagram.length < samBufsize)

end Handling

/-! ## The task -/

section Task

variable {env : SamEnvironment} {message : List UInt8}

theorem readMessage_of_split {samHeader payload : List UInt8}
    (h : splitAround [newline] message = some (samHeader, payload)) :
    readMessage env message = do
      let senderI2p ← toI2pAddress env (headerDestination samHeader)
      return ⟨payload, headerDestination samHeader, senderI2p⟩ := by
  rw [readMessage, h]

theorem toI2pAddress_of_decoded {pubkey decoded : List UInt8}
    (h : env.bioRead (pubkey.map fixBase64) 1024 = some decoded) :
    ∃ address, toI2pAddress env pubkey = .ok address := by
  refine ⟨base32I2pEncode (env.sha256 decoded) ++ ".b32.i2p".toList, ?_⟩
  rw [toI2pAddress, base64I2pDecode, h]
  rfl

/-- A message is read if it has no line end, or a destination that decodes. -/
theorem readMessage_returns_iff :
    (∃ input, readMessage env message = .ok input) ↔
      DestinationDecodes env message := by
  cases hsplit : splitAround [newline] message with
  | none =>
      refine iff_of_true ⟨⟨[], [], []⟩, by rw [readMessage, hsplit]⟩ ?_
      intro samHeader payload h
      rw [hsplit] at h
      cases h
  | some parts =>
      obtain ⟨samHeader, payload⟩ := parts
      rw [readMessage_of_split hsplit]
      constructor
      · rintro ⟨input, hinput⟩ samHeader' payload' h
        rw [hsplit] at h
        cases h
        cases hdecoded : env.bioRead
            ((headerDestination samHeader).map fixBase64) 1024 with
        | some decoded => exact ⟨decoded, rfl⟩
        | none =>
            rw [toI2pAddress, base64I2pDecode, hdecoded] at hinput
            cases hinput
      · intro hdecodes
        obtain ⟨decoded, hdecoded⟩ := hdecodes samHeader payload hsplit
        obtain ⟨address, haddress⟩ := toI2pAddress_of_decoded hdecoded
        exact ⟨_, by rw [haddress]; rfl⟩

section Calls

variable
  (hprocess : ∀ payload, ∃ response, env.protobufProcess payload = .ok response)
  (hping : ∀ payload senderDest, env.onPing payload senderDest = .ok ())
  (hmap : ∀ payload senderDest, env.onMap payload senderDest = .ok ())

include hprocess hping hmap

theorem handlePayload_returns (payload destB64 : List UInt8) :
    ∃ ending, handlePayload env payload destB64 = .ok ending := by
  rw [handlePayload]
  cases env.parseFromArray payload with
  | none => exact ⟨_, rfl⟩
  | some message =>
      cases message with
      | notSet | error => exact ⟨_, rfl⟩
      | query query =>
          obtain ⟨response, hresponse⟩ := hprocess payload
          refine ⟨.answered (responseDatagram env destB64 response), ?_⟩
          dsimp only
          rw [hresponse, hping, hmap]
          rfl
      | response response =>
          dsimp only
          split <;> exact ⟨_, rfl⟩

/-- Nothing else in the task throws, given the three calls. -/
theorem datagramTask_returns_iff :
    (∃ ending, datagramTask env message = .ok ending) ↔
      DestinationDecodes env message := by
  rw [← readMessage_returns_iff, datagramTask]
  cases readMessage env message with
  | error fault =>
      refine iff_of_false ?_ ?_ <;>
        · rintro ⟨result, hresult⟩
          cases hresult
  | ok input =>
      exact iff_of_true (handlePayload_returns hprocess hping hmap _ _)
        ⟨input, rfl⟩

end Calls

end Task

/-! ## Datagrams of the form -/

section Form

variable {datagram destination ports payload : List UInt8}

theorem newline_not_mem_fromPort : newline ∉ fromPort := by decide

theorem IsSamDatagram.newline_not_mem
    (h : IsSamDatagram datagram destination ports payload) :
    newline ∉ destination ++ fromPort ++ ports := by
  rw [List.mem_append, List.mem_append, not_or, not_or]
  exact ⟨⟨fun hmem => (h.destination newline hmem).2 rfl,
    newline_not_mem_fromPort⟩, h.ports⟩

theorem IsSamDatagram.split
    (h : IsSamDatagram datagram destination ports payload) :
    splitAround [newline] datagram =
      some (destination ++ fromPort ++ ports, payload) := by
  rw [h.bytes]
  refine splitAround_append (by simp) payload fun symbol hsymbol heq => ?_
  cases heq
  exact h.newline_not_mem hsymbol

theorem IsSamDatagram.splitHeader
    (h : IsSamDatagram datagram destination ports payload) :
    splitAround fromPort (destination ++ fromPort ++ ports) =
      some (destination, ports) := by
  refine splitAround_append (by decide) ports fun symbol hsymbol heq => ?_
  cases heq
  exact (h.destination 32 hsymbol).1 rfl

/-- The task and `datagram_parse` read the same from the whole of it. -/
theorem IsSamDatagram.read
    (h : IsSamDatagram datagram destination ports payload)
    {env : SamEnvironment} (hdecodes : DestinationDecodes env datagram) :
    (∃ senderI2p, readMessage env datagram =
      .ok ⟨payload, destination, senderI2p⟩) ∧
      ∃ header, datagramParse datagram = .ok ⟨payload, destination, header⟩ := by
  have hheader : headerDestination (destination ++ fromPort ++ ports) =
      destination := by
    rw [headerDestination, h.splitHeader]
  constructor
  · obtain ⟨decoded, hdecoded⟩ := hdecodes _ _ h.split
    obtain ⟨address, haddress⟩ := toI2pAddress_of_decoded hdecoded
    refine ⟨address, ?_⟩
    rw [readMessage_of_split h.split, haddress, hheader]
    rfl
  · refine ⟨destination ++ fromPort ++ ports, ?_⟩
    rw [datagramParse, h.split]
    dsimp only
    rw [h.splitHeader]

theorem datagramParse_eq_ok {message : List UInt8} {read : SamDatagram}
    (h : datagramParse message = .ok read) :
    message = read.header ++ [newline] ++ read.payload := by
  rw [datagramParse] at h
  split at h
  · cases h
  · rename_i header rest hsplit
    split at h
    · cases h
      exact splitAround_eq_some hsplit
    · cases h

/-- A part of the datagram that is not all of it has another payload. -/
theorem IsSamDatagram.payload_cut
    (h : IsSamDatagram datagram destination ports payload) {count : Nat}
    (hcount : count < datagram.length) {read : SamDatagram}
    (hread : datagramParse (datagram.take count) = .ok read) :
    read.payload ≠ payload := by
  intro hpayload
  have hfront := datagramParse_eq_ok hread
  rw [hpayload] at hfront
  have hwhole := List.take_append_drop count datagram
  have hrest : datagram.drop count ≠ [] := by
    apply List.ne_nil_of_length_pos
    rw [List.length_drop]
    omega
  rw [hfront] at hwhole
  generalize datagram.drop count = rest at hwhole hrest
  have heq := hwhole.trans h.bytes
  rw [List.append_assoc, List.append_assoc, List.append_assoc,
    List.append_eq_append_iff] at heq
  rcases heq with ⟨middle, hheader, hmiddle⟩ | ⟨middle, hheader, hmiddle⟩
  · cases middle with
    | nil =>
        have hlength := congrArg List.length hmiddle
        simp only [List.length_append, List.nil_append] at hlength
        exact hrest (List.length_eq_zero_iff.mp (by omega))
    | cons symbol middle =>
        rw [List.singleton_append, List.cons_append, List.cons.injEq] at hmiddle
        refine h.newline_not_mem ?_
        rw [hheader, hmiddle.1]
        simp
  · have hlength := congrArg List.length hmiddle
    simp only [List.length_append] at hlength
    exact hrest (List.length_eq_zero_iff.mp (by omega))

end Form

/-! ## Arrivals -/

section Arrivals

variable {closed : Bool} {errno : Errno} {datagram message : List UInt8}

theorem receiveStep_some (closed : Bool) (errno : Errno)
    (datagram : List UInt8) :
    receiveStep closed errno (some datagram) =
      if datagram = [] then .goesOn
      else if closed ∧ errno = .notConnected then .leaves
      else .enqueues (datagram.take (samBufsize - 1)) := by
  have hempty : datagram.take (samBufsize - 1) = [] ↔ datagram = [] := by
    rw [List.take_eq_nil_iff]
    exact or_iff_right (by decide)
  simp only [receiveStep, hempty]

theorem eq_take_of_enqueues
    (h : receiveStep closed errno (some datagram) = .enqueues message) :
    ¬ (closed = true ∧ errno = .notConnected) ∧
      message = datagram.take (samBufsize - 1) := by
  rw [receiveStep_some] at h
  split at h
  · cases h
  split at h
  · cases h
  · cases h
    exact ⟨‹_›, rfl⟩

theorem enqueues_of_ne_nil (hne : datagram ≠ [])
    (hopen : ¬ (closed = true ∧ errno = .notConnected)) :
    receiveStep closed errno (some datagram) =
      .enqueues (datagram.take (samBufsize - 1)) := by
  rw [receiveStep_some, if_neg hne, if_neg hopen]

theorem IsSamDatagram.ne_nil {destination ports payload : List UInt8}
    (h : IsSamDatagram datagram destination ports payload) : datagram ≠ [] := by
  rw [h.bytes]
  simp

theorem destinationDecodes_nil (env : SamEnvironment) :
    DestinationDecodes env [] := by
  intro samHeader payload h
  cases h

end Arrivals

/-- Whatever arrives is handled as it should be, or the socket has failed, the
destination is no base64, or the buffer was too small. -/
theorem handlesArrival_iff (env : SamEnvironment)
    (hprocess : ∀ payload, ∃ response, env.protobufProcess payload =
      .ok response)
    (hping : ∀ payload senderDest, env.onPing payload senderDest = .ok ())
    (hmap : ∀ payload senderDest, env.onMap payload senderDest = .ok ())
    (closed : Bool) (errno : Errno) (arrival : Option (List UInt8)) :
    HandlesArrival env closed errno arrival ↔
      Expected env closed errno arrival := by
  have htask (message : List UInt8) :
      (∃ ending, datagramTask env message = .ok ending) ↔
        DestinationDecodes env message :=
    datagramTask_returns_iff hprocess hping hmap
  cases arrival with
  | none =>
      constructor
      · rintro ⟨hstep, -, -⟩
        by_contra hunexpected
        rw [Expected, not_or, not_or] at hunexpected
        refine hstep .lengthError ?_
        rw [receiveStep, if_neg (by tauto), if_neg hunexpected.2.2]
      · intro hexpected
        have hends : receiveStep closed errno none = .goesOn ∨
            receiveStep closed errno none = .leaves := by
          rw [receiveStep]
          split
          · exact .inl rfl
          · rename_i hnone
            right
            exact if_pos (by rw [Expected] at hexpected; tauto)
        refine ⟨?_, ?_, fun _ _ _ _ _ _ h => by cases h⟩
        · intro fault h
          rcases hends with heq | heq <;> rw [heq] at h <;> cases h
        · intro message h
          rcases hends with heq | heq <;> rw [heq] at h <;> cases h
  | some datagram =>
      by_cases hclosed : closed = true ∧ errno = .notConnected
      · refine iff_of_true ⟨?_, ?_, ?_⟩ (.inl hclosed)
        · intro fault h
          rw [receiveStep_some, if_pos hclosed] at h
          split at h <;> cases h
        · exact fun message h => absurd hclosed (eq_take_of_enqueues h).1
        · exact fun message h => absurd hclosed (eq_take_of_enqueues h).1
      constructor
      · rintro ⟨-, hreturns, hexact⟩
        refine .inr ⟨?_, ?_⟩
        · by_cases hne : datagram = []
          · subst hne
            exact destinationDecodes_nil env
          · exact (htask _).mp (hreturns _ (enqueues_of_ne_nil hne hclosed))
        · rintro ⟨destination, ports, payload, hform⟩
          obtain ⟨-, header, hparse⟩ := hexact _
            (enqueues_of_ne_nil hform.ne_nil hclosed) datagram destination ports
            payload rfl hform
          by_contra hlong
          have hcount : samBufsize - 1 < datagram.length := by
            have hpos : 0 < samBufsize := by decide
            omega
          exact hform.payload_cut hcount hparse rfl
      · intro hexpected
        obtain ⟨hdecodes, hfits⟩ := hexpected.resolve_left hclosed
        refine ⟨?_, ?_, ?_⟩
        · intro fault h
          rw [receiveStep_some] at h
          split_ifs at h
        · intro message h
          rw [(eq_take_of_enqueues h).2]
          exact (htask _).mpr hdecodes
        · rintro message h datagram' destination ports payload ⟨⟩ hform
          have hlength := hfits ⟨destination, ports, payload, hform⟩
          have hwhole : datagram.take (samBufsize - 1) = datagram :=
            List.take_of_length_le (by omega)
          rw [(eq_take_of_enqueues h).2, hwhole]
          rw [hwhole] at hdecodes
          exact hform.read hdecodes

/-- Over which "AAAA" is the one base64 text, of three zero bytes. -/
def SamEnvironment.sample : SamEnvironment where
  bioRead input _ := if input = [65, 65, 65, 65] then some [0, 0, 0] else none
  sha256 _ := [112, 158, 128, 200, 132, 135, 162, 65, 30, 30, 228, 223,
    185, 242, 42, 134, 20, 146, 210, 12, 71, 101, 21, 12,
    12, 121, 74, 189, 112, 248, 20, 124]
  nickname := chars "neroshop"
  parseFromArray bytes := if bytes = [] then some .notSet else none
  protobufProcess _ := .ok []
  onPing _ _ := .ok ()
  onMap _ _ := .ok ()
  pendingRequests _ := false

theorem sample_handlesArrival :
    HandlesArrival .sample false .again
      (some ([65, 65, 65, 65] ++ fromPort ++ [49] ++ [newline] ++ [8])) := by
  refine (handlesArrival_iff .sample (fun _ => ⟨[], rfl⟩) (fun _ _ => rfl)
    (fun _ _ => rfl) false .again
    (some ([65, 65, 65, 65] ++ fromPort ++ [49] ++ [newline] ++ [8]))).mpr
      (.inr ⟨?_, fun _ => by decide⟩)
  intro samHeader payload hsplit
  have hheader : samHeader = [65, 65, 65, 65] ++ fromPort ++ [49] := by
    have hparts : splitAround [newline]
        (([65, 65, 65, 65] ++ fromPort ++ [49] ++ [newline] ++ [8]).take
          (samBufsize - 1)) =
        some ([65, 65, 65, 65] ++ fromPort ++ [49], [8]) := by
      decide
    rw [hparts] at hsplit
    cases hsplit
    rfl
  subst hheader
  exact ⟨[0, 0, 0], by decide⟩

/-- The task throws on a header that is no destination, and the loop itself on
an error of the socket. -/
theorem header_without_destination :
    datagramTask .sample [120, newline] = .error .runtimeError ∧
      receiveStep false (.other 111) none = .throws .lengthError ∧
      ¬ HandlesArrival .sample false .again (some [120, newline]) ∧
      ¬ HandlesArrival .sample false (.other 111) none := by
  refine ⟨rfl, rfl, ?_, ?_⟩
  · intro h
    obtain ⟨ending, hending⟩ := h.task [120, newline] rfl
    cases hending
  · intro h
    exact h.step .lengthError rfl

end Neroshop.Network
