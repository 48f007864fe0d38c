import Neroshop.Routing.NodeId
import Neroshop.Transport.Ipc

/-!
# Connecting through a SOCKS5 proxy

`connect` reads the replies of the proxy with `recv_all`, which gets as many
bytes as it is asked for or stops short.  It looks at what `recv_all` returns
for the method reply and for the header of the CONNECT reply, and at neither
what it returns for the bound address nor the version of the method reply.
-/

namespace Neroshop.Network

open Neroshop.Routing Neroshop.Transport

inductive ConnectOutcome where
  | established
  | failed (error : String)
  /-- `poll` ran into its timeout, or failed. -/
  | timedOut
  | refused (error : String)

/-- What the system calls do. -/
structure Proxy where
  socket : Int
  isAddress : String → Bool
  connect : (host : String) → (port : UInt16) → ConnectOutcome
  send : List UInt8 → Int
  /-- What `::recv` returns once there is nothing left: 0 from a proxy that has
  closed, or -1 at the timeout. -/
  ending : Int
  ending_nonpos : ending ≤ 0

structure Socks5Client where
  socksHost : String
  socksPort : UInt16
  /-- The port that the Tor manager says, where there is one. -/
  torSocksPort : Option UInt16
  sockfd : Int
  connected : Bool
  open_of_connected : connected = true → sockfd ≠ -1

def Socks5Client.getSocksPort (client : Socks5Client) : UInt16 :=
  client.torSocksPort.getD client.socksPort

def Socks5Client.close (client : Socks5Client) : Socks5Client :=
  if client.sockfd ≠ -1 then
    { client with
      sockfd := -1
      connected := false
      open_of_connected := fun h => absurd h Bool.false_ne_true }
  else client

@[simp] theorem Socks5Client.close_connected (client : Socks5Client) :
    client.close.connected = false := by
  rw [close]
  split
  · rfl
  · rename_i hsockfd
    exact Bool.eq_false_iff.mpr fun h => hsockfd (client.open_of_connected h)

/-- `sockfd_ = ::socket(..)` of a client that has been closed. -/
def Socks5Client.reopen (client : Socks5Client) (sockfd : Int) :
    Socks5Client :=
  { client.close with
    sockfd := sockfd
    open_of_connected :=
      fun hconnected => absurd hconnected (by simp) }

theorem Socks5Client.reopen_socksHost (client : Socks5Client) (sockfd : Int) :
    (client.reopen sockfd).socksHost = client.socksHost := by
  change client.close.socksHost = _
  rw [close]
  split <;> rfl

theorem Socks5Client.reopen_getSocksPort (client : Socks5Client)
    (sockfd : Int) : (client.reopen sockfd).getSocksPort = client.getSocksPort := by
  change client.close.getSocksPort = _
  rw [close]
  split <;> rfl

@[simp] theorem Socks5Client.reopen_connected (client : Socks5Client)
    (sockfd : Int) : (client.reopen sockfd).connected = false :=
  client.close_connected

def sendAllLoop (send : List UInt8 → Int) (sent : Nat) (rest : List UInt8) :
    Int :=
  if rest = [] then sent
  else if send rest ≤ 0 then send rest
  else sendAllLoop send (sent + (send rest).toNat)
    (rest.drop (send rest).toNat)
termination_by rest.length
decreasing_by
  have hpos := List.length_pos_iff.mpr ‹rest ≠ []›
  rw [List.length_drop]
  omega

def sendAll (send : List UInt8 → Int) (buffer : List UInt8) : Int :=
  sendAllLoop send 0 buffer

structure Received where
  returned : Int
  bytes : List UInt8
  unread : Stream

def recvAllLoop (ending : Int) (size : Nat) (received : List UInt8)
    (stream : Stream) : Received :=
  if received.length < size then
    match _ : recv (size - received.length) stream with
    | none => ⟨ending, received, []⟩
    | some (bytes, unread) =>
        if bytes = [] then ⟨0, received, unread⟩
        else recvAllLoop ending size (received ++ bytes) unread
  else ⟨received.length, received, stream⟩
termination_by stream.length
decreasing_by exact recv_shorter ‹_› ‹bytes ≠ []›

def recvAll (ending : Int) (size : Nat) (stream : Stream) : Received :=
  recvAllLoop ending size [] stream

/-- What the arrays on the stack of `connect` hold before they are filled. -/
structure Uninitialized where
  methodReply : Nat → UInt8
  header : Nat → UInt8
  lenByte : UInt8

def socks5Error (repCode : UInt8) : String :=
  match repCode.toNat with
  | 1 => "general SOCKS server failure"
  | 2 => "connection not permitted"
  | 3 => "network unreachable"
  | 4 => "host unreachable"
  | 5 => "connection refused"
  | 6 => "TTL expired"
  | 7 => "command not supported"
  | 8 => "address type not supported"
  | _ => "unknown error 0x" ++ toString repCode.toNat

def connectRequest (destHost : List UInt8) (destPort : UInt16) : List UInt8 :=
  [0x05, 0x01, 0x00, 0x03, UInt8.ofNat destHost.length] ++ destHost ++
    [UInt8.ofNat (destPort.toNat / 256), UInt8.ofNat destPort.toNat]

section Connect

variable (proxy : Proxy) (uninitialized : Uninitialized)

abbrev Negotiation := Except (List UInt8) Unit × Stream

/-- The bound address and the port, of so many bytes. -/
def readBindAddr (remainingBytes : Nat) (stream : Stream) : Negotiation :=
  (.ok (), (recvAll proxy.ending remainingBytes stream).unread)

def readBoundAddress (atyp : UInt8) (stream : Stream) : Negotiation :=
  match atyp.toNat with
  | 1 => readBindAddr proxy 6 stream
  | 3 =>
      let len := recvAll proxy.ending 1 stream
      readBindAddr proxy (2 + (len.bytes.getD 0 uninitialized.lenByte).toNat)
        len.unread
  | 4 => readBindAddr proxy 18 stream
  | atyp => (.error (chars ("Unsupported ATYP: " ++ toString atyp)), stream)

def readConnectReply (stream : Stream) : Negotiation :=
  let reply := recvAll proxy.ending 4 stream
  let header index := reply.bytes.getD index (uninitialized.header index)
  if reply.returned ≠ 4 ∨ header 0 ≠ 0x05 ∨ header 1 ≠ 0x00 then
    (.error (chars ("SOCKS5 connect failed: " ++ socks5Error (header 1))),
      reply.unread)
  else readBoundAddress proxy uninitialized (header 3) reply.unread

/-- What is done over the socket once the proxy is connected. -/
def negotiate (destHost : List UInt8) (destPort : UInt16) (stream : Stream) :
    Negotiation :=
  if sendAll proxy.send [0x05, 0x01, 0x00] ≠ 3 then
    (.error (chars "SOCKS5 greeting send failed"), stream)
  else
    let reply := recvAll proxy.ending 2 stream
    let methodReply index :=
      reply.bytes.getD index (uninitialized.methodReply index)
    if reply.returned ≠ 2 ∨ methodReply 1 ≠ 0x00 then
      (.error (chars "SOCKS5 auth method rejected: " ++ [methodReply 1]),
        reply.unread)
    else
      let req := connectRequest destHost destPort
      if sendAll proxy.send req ≠ req.length then
        (.error (chars "SOCKS5 connect request send failed"), reply.unread)
      else readConnectReply proxy uninitialized reply.unread

structure Attempt where
  outcome : Except (List UInt8) Unit
  client : Socks5Client
  unread : Stream

def maxDomainLen : Nat := 255

/-- The text that `::connect` and what follows it throw with. -/
def ConnectOutcome.error? : ConnectOutcome → Option String
  | .established => none
  | .failed error => some ("connect() failed: " ++ error)
  | .timedOut => some "Connect timeout or error"
  | .refused error => some ("Connect failed: " ++ error)

def Socks5Client.connect (client : Socks5Client) (destHost : List UInt8)
    (destPort : UInt16) (stream : Stream) : Attempt :=
  if maxDomainLen < destHost.length then
    ⟨.error (chars "Destination host too long"), client, stream⟩
  else if chars ".onion" <:+ destHost ∧ destHost.length ≠ 62 then
    ⟨.error (chars "Invalid .onion address length"), client, stream⟩
  else
    let client := client.reopen proxy.socket
    if hsocket : proxy.socket < 0 then
      ⟨.error (chars "socket() failed"), client, stream⟩
    else if proxy.isAddress client.socksHost = false then
      ⟨.error (chars ("Invalid SOCKS proxy IP: " ++ client.socksHost)), client,
        stream⟩
    else
      match (proxy.connect client.socksHost client.getSocksPort).error? with
      | some error => ⟨.error (chars error), client, stream⟩
      | none =>
          match negotiate proxy uninitialized destHost destPort stream with
          | (.error error, unread) => ⟨.error error, client, unread⟩
          | (.ok (), unread) =>
              ⟨.ok (), { client with
                connected := true
                open_of_connected := fun _ hclosed => hsocket (by
                  have hsockfd : proxy.socket = -1 := hclosed
                  omega) }, unread⟩

end Connect

/-! ## What is asked of a connection -/

/-- A complete reply to CONNECT that says success. -/
inductive ConnectReply : List UInt8 → Prop
  | ipv4 (reserved : UInt8) {address port : List UInt8}
      (haddress : address.length = 4) (hport : port.length = 2) :
      ConnectReply ([0x05, 0x00, reserved, 0x01] ++ address ++ port)
  | domainName (reserved : UInt8) {name port : List UInt8}
      (hname : name.length < 256) (hport : port.length = 2) :
      ConnectReply ([0x05, 0x00, reserved, 0x03, UInt8.ofNat name.length] ++
        name ++ port)
  | ipv6 (reserved : UInt8) {address port : List UInt8}
      (haddress : address.length = 16) (hport : port.length = 2) :
      ConnectReply ([0x05, 0x00, reserved, 0x04] ++ address ++ port)

/-- The bytes start with replies that select no authentication and connect. -/
def StartsConnected (content rest : List UInt8) : Prop :=
  ∃ reply, ConnectReply reply ∧ content = [0x05, 0x00] ++ reply ++ rest

structure ConnectsExactly (proxy : Proxy) (uninitialized : Uninitialized)
    (client : Socks5Client) (destHost : List UInt8) (destPort : UInt16)
    (stream : Stream) (content : List UInt8) : Prop where
  accepted : ∀ rest, StartsConnected content rest →
    let attempt := client.connect proxy uninitialized destHost destPort stream
    attempt.outcome = .ok () ∧ attempt.client.connected = true ∧
      attempt.unread.flatten = rest
  rejected : (∀ rest, ¬ StartsConnected content rest) →
    let attempt := client.connect proxy uninitialized destHost destPort stream
    (∃ error, attempt.outcome = .error error) ∧
      attempt.client.connected = false

/-- The call gets as far as to exchange messages with the proxy. -/
structure Reaches (proxy : Proxy) (client : Socks5Client)
    (destHost : List UInt8) (destPort : UInt16) : Prop where
  hostLength : destHost.length ≤ maxDomainLen
  onionLength : chars ".onion" <:+ destHost → destHost.length = 62
  socket : 0 ≤ proxy.socket
  isAddress : proxy.isAddress client.socksHost = true
  established : proxy.connect client.socksHost client.getSocksPort =
    .established
  greeting : sendAll proxy.send [0x05, 0x01, 0x00] = 3
  request : sendAll proxy.send (connectRequest destHost destPort) =
    (connectRequest destHost destPort).length

/-- How many bytes there are behind an address type that the code knows. -/
def boundLength (atyp : UInt8) (rest : List UInt8) : Option Nat :=
  if atyp = 0x01 then some 6
  else if atyp = 0x03 then rest.head?.map fun len => 1 + len.toNat + 2
  else if atyp = 0x04 then some 18
  else none

def IsAddressType (atyp : UInt8) : Prop :=
  atyp = 0x01 ∨ atyp = 0x03 ∨ atyp = 0x04

/-- Where the bytes that are looked at are as they should be, so are the
others. -/
def UncheckedBytesFit (content : List UInt8) : Prop :=
  ∀ version reserved atyp rest,
    content = version :: 0x00 :: 0x05 :: 0x00 :: reserved :: atyp :: rest →
    IsAddressType atyp →
    version = 0x05 ∧ ∃ length, boundLength atyp rest = some length ∧
      length ≤ rest.length

/-! ## Receiving -/

section Receiving

variable {ending : Int} {size : Nat} {received content : List UInt8}
  {stream : Stream}

theorem recvAllLoop_full (hsize : size ≤ received.length) :
    recvAllLoop ending size received stream =
      ⟨received.length, received, stream⟩ := by
  rw [recvAllLoop, if_neg (Nat.not_lt.mpr hsize)]

theorem recvAllLoop_nil (hsize : received.length < size) :
    recvAllLoop ending size received [] = ⟨ending, received, []⟩ := by
  rw [recvAllLoop, if_pos hsize, recv]

theorem recvAllLoop_step {bytes : List UInt8} {unread : Stream}
    (hsize : received.length < size) (hbytes : bytes ≠ [])
    (hrecv : recv (size - received.length) stream = some (bytes, unread)) :
    recvAllLoop ending size received stream =
      recvAllLoop ending size (received ++ bytes) unread := by
  rw [recvAllLoop, if_pos hsize, hrecv]
  exact if_neg hbytes

theorem segments_tail {segment : List UInt8} {unread : Stream}
    (h : Segments (segment :: unread) content) :
    segment ≠ [] ∧ Segments unread unread.flatten :=
  ⟨h.nonempty segment List.mem_cons_self, rfl,
    fun other hmem => h.nonempty other (List.mem_cons_of_mem _ hmem)⟩

/-- However the bytes are cut up, the ones that are asked for are received. -/
theorem recvAllLoop_front {front rest : List UInt8}
    (hsize : size = received.length + front.length)
    (h : Segments stream (front ++ rest)) :
    ∃ unread, Segments unread rest ∧
      recvAllLoop ending size received stream =
        ⟨size, received ++ front, unread⟩ := by
  induction stream generalizing received front with
  | nil =>
      have hflatten := h.flatten
      rw [List.flatten_nil, eq_comm, List.append_eq_nil_iff] at hflatten
      obtain ⟨rfl, rfl⟩ := hflatten
      refine ⟨[], h, ?_⟩
      rw [recvAllLoop_full (by simp [hsize]), List.append_nil, hsize]
      rfl
  | cons segment unread ih =>
      by_cases hfront : front = []
      · subst hfront
        refine ⟨segment :: unread, h, ?_⟩
        rw [recvAllLoop_full (by simp [hsize]), List.append_nil, hsize]
        rfl
      · obtain ⟨hsegment, htail⟩ := segments_tail h
        have hlt : received.length < size := by
          have hpos := List.length_pos_iff.mpr hfront
          omega
        have hflatten := h.flatten
        rw [List.flatten_cons, List.append_eq_append_iff] at hflatten
        rcases hflatten with ⟨last, rfl, hrest⟩ | ⟨left, rfl, hrest⟩
        · -- The whole segment belongs to the bytes that are asked for.
          rw [List.length_append] at hsize
          have hrecv : recv (size - received.length) (segment :: unread) =
              some (segment, unread) :=
            recv_of_le unread (by omega)
          rw [recvAllLoop_step hlt hsegment hrecv]
          rw [hrest] at htail
          have hsum : size = (received ++ segment).length + last.length := by
            rw [List.length_append]
            omega
          obtain ⟨unread', hunread, hloop⟩ := ih hsum htail
          exact ⟨unread', hunread, by rw [hloop, List.append_assoc]⟩
        · by_cases hleft : left = []
          · subst hleft
            rw [List.append_nil] at h hsegment ⊢
            have hrecv : recv (size - received.length) (front :: unread) =
                some (front, unread) :=
              recv_of_le unread (by omega)
            refine ⟨unread, hrest ▸ htail, ?_⟩
            rw [recvAllLoop_step hlt hsegment hrecv,
              recvAllLoop_full (by rw [List.length_append]; omega),
              List.length_append, hsize]
          · have hpos := List.length_pos_iff.mpr hleft
            have hcount : size - received.length = front.length := by omega
            have hrecv : recv (size - received.length)
                ((front ++ left) :: unread) = some (front, left :: unread) := by
              rw [hcount, recv_of_lt unread (by simpa using hpos),
                List.take_left, List.drop_left]
            refine ⟨left :: unread, ⟨?_, ?_⟩, ?_⟩
            · rw [List.flatten_cons, hrest]
            · exact List.forall_mem_cons.mpr ⟨hleft, htail.nonempty⟩
            · rw [recvAllLoop_step hlt hfront hrecv,
                recvAllLoop_full (by rw [List.length_append]; omega),
                List.length_append, hsize]

theorem recvAllLoop_short (hsize : received.length + content.length < size)
    (h : Segments stream content) :
    recvAllLoop ending size received stream =
      ⟨ending, received ++ content, []⟩ := by
  induction stream generalizing received content with
  | nil =>
      have hcontent : content = [] := h.flatten.symm
      subst hcontent
      rw [recvAllLoop_nil (by simpa using hsize), List.append_nil]
  | cons segment unread ih =>
      obtain ⟨hsegment, htail⟩ := segments_tail h
      have hflatten := h.flatten
      rw [List.flatten_cons] at hflatten
      subst hflatten
      rw [List.length_append] at hsize
      have hrecv : recv (size - received.length) (segment :: unread) =
          some (segment, unread) :=
        recv_of_le unread (by omega)
      rw [recvAllLoop_step (by omega) hsegment hrecv,
        ih (by rw [List.length_append]; omega) htail, List.append_assoc]

end Receiving

section Replies

variable {proxy : Proxy} {uninitialized : Uninitialized} {stream : Stream}
  {content : List UInt8}

theorem recvAll_front (ending : Int) (size : Nat) (front : List UInt8)
    {rest : List UInt8} (hsize : front.length = size)
    (h : Segments stream (front ++ rest)) :
    ∃ unread, Segments unread rest ∧
      recvAll ending size stream = ⟨size, front, unread⟩ :=
  recvAllLoop_front (by simpa using hsize.symm) h

theorem recvAll_short {ending : Int} {size : Nat}
    (hsize : content.length < size) (h : Segments stream content) :
    recvAll ending size stream = ⟨ending, content, []⟩ :=
  recvAllLoop_short (by simpa using hsize) h

/-! ## The replies -/

/-- Whatever the proxy has sent, the type alone decides. -/
theorem readBoundAddress_returns_iff (atyp : UInt8) :
    (readBoundAddress proxy uninitialized atyp stream).1 = .ok () ↔
      IsAddressType atyp := by
  constructor
  · intro hok
    have htype (n : Nat) (hn : n < 256) (h : atyp.toNat = n) :
        atyp = UInt8.ofNat n := by
      rw [← h, UInt8.ofNat_toNat]
    rw [readBoundAddress] at hok
    split at hok
    · exact .inl (htype 1 (by decide) ‹_›)
    · exact .inr (.inl (htype 3 (by decide) ‹_›))
    · exact .inr (.inr (htype 4 (by decide) ‹_›))
    · cases hok
  · rintro (rfl | rfl | rfl) <;> rfl

theorem readBindAddr_front {front rest : List UInt8}
    (h : Segments stream (front ++ rest)) :
    ∃ unread, Segments unread rest ∧
      readBindAddr proxy front.length stream = (.ok (), unread) := by
  obtain ⟨unread, hrest, hrecv⟩ := recvAll_front proxy.ending _ _ rfl h
  exact ⟨unread, hrest, by rw [readBindAddr, hrecv]⟩

theorem readBoundAddress_front {atyp : UInt8} {front rest : List UInt8}
    (hlength : boundLength atyp front = some front.length)
    (h : Segments stream (front ++ rest)) :
    ∃ unread, Segments unread rest ∧
      readBoundAddress proxy uninitialized atyp stream = (.ok (), unread) := by
  rw [boundLength] at hlength
  split at hlength
  · rename_i htype
    subst htype
    have hsix : 6 = front.length := Option.some.inj hlength
    change ∃ unread, _ ∧ readBindAddr proxy 6 stream = _
    exact hsix ▸ readBindAddr_front h
  split at hlength
  · rename_i htype
    subst htype
    cases front with
    | nil => cases hlength
    | cons len front =>
        have hcount : 1 + len.toNat + 2 = front.length + 1 :=
          Option.some.inj hlength
        obtain ⟨unread, hunread, hrecv⟩ :=
          recvAll_front proxy.ending 1 [len] rfl h
        have hbound : 2 + len.toNat = front.length := by omega
        change ∃ unread, _ ∧ readBindAddr proxy (2 +
          ((recvAll proxy.ending 1 stream).bytes.getD 0 _).toNat) _ = _
        rw [hrecv]
        change ∃ unread, _ ∧ readBindAddr proxy (2 + len.toNat) _ = _
        rw [hbound]
        exact readBindAddr_front hunread
  split at hlength
  · rename_i htype
    subst htype
    have heighteen : 18 = front.length := Option.some.inj hlength
    change ∃ unread, _ ∧ readBindAddr proxy 18 stream = _
    exact heighteen ▸ readBindAddr_front h
  · cases hlength

theorem readConnectReply_header {reserved atyp : UInt8} {rest : List UInt8}
    (h : Segments stream (0x05 :: 0x00 :: reserved :: atyp :: rest)) :
    ∃ unread, Segments unread rest ∧
      readConnectReply proxy uninitialized stream =
        readBoundAddress proxy uninitialized atyp unread := by
  obtain ⟨unread, hrest, hrecv⟩ :=
    recvAll_front proxy.ending 4 [0x05, 0x00, reserved, atyp] rfl h
  refine ⟨unread, hrest, ?_⟩
  rw [readConnectReply, hrecv]
  rfl

theorem readConnectReply_throws (h : Segments stream content)
    (hheader : ∀ reserved atyp rest,
      content ≠ 0x05 :: 0x00 :: reserved :: atyp :: rest) :
    ∃ error unread,
      readConnectReply proxy uninitialized stream = (.error error, unread) := by
  rw [readConnectReply]
  refine ⟨_, _, if_pos ?_⟩
  match content, h, hheader with
  | version :: rep :: reserved :: atyp :: rest, h, hheader =>
      obtain ⟨unread, -, hrecv⟩ :=
        recvAll_front proxy.ending 4 [version, rep, reserved, atyp] rfl h
      rw [hrecv]
      by_contra hnot
      simp only [not_or, not_not] at hnot
      obtain ⟨-, hversion, hrep⟩ := hnot
      change version = 0x05 at hversion
      change rep = 0x00 at hrep
      subst hversion hrep
      exact hheader reserved atyp rest rfl
  | [], h, _ | [_], h, _ | [_, _], h, _ | [_, _, _], h, _ =>
      rw [recvAll_short (by simp) h]
      have hnonpos := proxy.ending_nonpos
      left
      change proxy.ending ≠ 4
      omega

theorem negotiate_selected {destHost rest : List UInt8} {destPort : UInt16}
    {version : UInt8}
    (hgreeting : sendAll proxy.send [0x05, 0x01, 0x00] = 3)
    (hrequest : sendAll proxy.send (connectRequest destHost destPort) =
      (connectRequest destHost destPort).length)
    (h : Segments stream (version :: 0x00 :: rest)) :
    ∃ unread, Segments unread rest ∧
      negotiate proxy uninitialized destHost destPort stream =
        readConnectReply proxy uninitialized unread := by
  obtain ⟨unread, hrest, hrecv⟩ :=
    recvAll_front proxy.ending 2 [version, 0x00] rfl h
  refine ⟨unread, hrest, ?_⟩
  rw [negotiate, if_neg (not_not_intro hgreeting), hrecv]
  exact if_neg (not_not_intro hrequest)

theorem negotiate_throws {destHost : List UInt8} {destPort : UInt16}
    (hgreeting : sendAll proxy.send [0x05, 0x01, 0x00] = 3)
    (h : Segments stream content)
    (hmethod : ∀ version rest, content ≠ version :: 0x00 :: rest) :
    ∃ error unread,
      negotiate proxy uninitialized destHost destPort stream =
        (.error error, unread) := by
  rw [negotiate, if_neg (not_not_intro hgreeting)]
  refine ⟨_, _, if_pos ?_⟩
  match content, h, hmethod with
  | version :: method :: rest, h, hmethod =>
      obtain ⟨unread, -, hrecv⟩ :=
        recvAll_front proxy.ending 2 [version, method] rfl h
      rw [hrecv]
      right
      intro hzero
      change method = 0x00 at hzero
      subst hzero
      exact hmethod version rest rfl
  | [], h, _ | [_], h, _ =>
      rw [recvAll_short (by simp) h]
      have hnonpos := proxy.ending_nonpos
      left
      change proxy.ending ≠ 2
      omega

/-- The code returns whatever the version of the method reply, and whatever
there is behind the type of the address. -/
theorem negotiate_returns_iff (uninitialized : Uninitialized)
    {destHost : List UInt8} {destPort : UInt16}
    (hgreeting : sendAll proxy.send [0x05, 0x01, 0x00] = 3)
    (hrequest : sendAll proxy.send (connectRequest destHost destPort) =
      (connectRequest destHost destPort).length)
    (h : Segments stream content) :
    (negotiate proxy uninitialized destHost destPort stream).1 = .ok () ↔
      ∃ version reserved atyp rest,
        content = version :: 0x00 :: 0x05 :: 0x00 :: reserved :: atyp :: rest ∧
          IsAddressType atyp := by
  constructor
  · intro hok
    by_contra hnone
    by_cases hmethod : ∃ version reply, content = version :: 0x00 :: reply
    · obtain ⟨version, reply, rfl⟩ := hmethod
      obtain ⟨middle, hmiddle, hrun⟩ :=
        negotiate_selected hgreeting hrequest h
      rw [hrun] at hok
      by_cases hheader : ∃ reserved atyp rest,
          reply = 0x05 :: 0x00 :: reserved :: atyp :: rest
      · obtain ⟨reserved, atyp, rest, rfl⟩ := hheader
        obtain ⟨unread, -, hread⟩ := readConnectReply_header hmiddle
        rw [hread, readBoundAddress_returns_iff] at hok
        exact hnone ⟨version, reserved, atyp, rest, rfl, hok⟩
      · obtain ⟨error, unread, hthrows⟩ := readConnectReply_throws hmiddle
          fun reserved atyp rest heq => hheader ⟨reserved, atyp, rest, heq⟩
        rw [hthrows] at hok
        cases hok
    · obtain ⟨error, unread, hthrows⟩ := negotiate_throws hgreeting h
        fun version reply heq => hmethod ⟨version, reply, heq⟩
      rw [hthrows] at hok
      cases hok
  · rintro ⟨version, reserved, atyp, rest, rfl, htype⟩
    obtain ⟨middle, hmiddle, hrun⟩ := negotiate_selected hgreeting hrequest h
    obtain ⟨unread, -, hread⟩ := readConnectReply_header hmiddle
    rw [hrun, hread]
    exact (readBoundAddress_returns_iff atyp).mpr htype

end Replies

/-! ## What a complete reply is -/

theorem boundLength_isAddressType {atyp : UInt8} {rest : List UInt8}
    {length : Nat} (h : boundLength atyp rest = some length) :
    IsAddressType atyp := by
  rw [boundLength] at h
  split at h
  · exact .inl ‹_›
  split at h
  · exact .inr (.inl ‹_›)
  split at h
  · exact .inr (.inr ‹_›)
  · cases h

theorem connectReply_iff (reply : List UInt8) :
    ConnectReply reply ↔ ∃ reserved atyp bound,
      reply = 0x05 :: 0x00 :: reserved :: atyp :: bound ∧
        boundLength atyp bound = some bound.length := by
  constructor
  · rintro (⟨reserved, haddress, hport⟩ | ⟨reserved, hname, hport⟩ |
      ⟨reserved, haddress, hport⟩)
    · rename_i address port
      refine ⟨reserved, 0x01, address ++ port, rfl, ?_⟩
      rw [List.length_append, haddress, hport]
      rfl
    · rename_i name port
      refine ⟨reserved, 0x03, UInt8.ofNat name.length :: (name ++ port), rfl, ?_⟩
      change some (1 + (UInt8.ofNat name.length).toNat + 2) = _
      rw [List.length_cons, List.length_append, hport,
        UInt8.toNat_ofNat_of_lt' hname]
      congr 1
      omega
    · rename_i address port
      refine ⟨reserved, 0x04, address ++ port, rfl, ?_⟩
      rw [List.length_append, haddress, hport]
      rfl
  · rintro ⟨reserved, atyp, bound, rfl, hlength⟩
    have hsplit (n : Nat) := (List.take_append_drop n bound).symm
    rcases boundLength_isAddressType hlength with rfl | rfl | rfl
    · have hbound : 6 = bound.length := Option.some.inj hlength
      rw [hsplit 4]
      exact .ipv4 reserved (by rw [List.length_take]; omega)
        (by rw [List.length_drop]; omega)
    · cases bound with
      | nil => cases hlength
      | cons len bound =>
          have hbound : 1 + len.toNat + 2 = bound.length + 1 :=
            Option.some.inj hlength
          have hname : (bound.take len.toNat).length = len.toNat := by
            rw [List.length_take]
            omega
          have hreply := ConnectReply.domainName reserved
            (hname.symm ▸ len.toNat_lt)
            (show (bound.drop len.toNat).length = 2 by
              rw [List.length_drop]
              omega)
          rw [hname, UInt8.ofNat_toNat, List.append_assoc,
            List.take_append_drop] at hreply
          exact hreply
    · have hbound : 18 = bound.length := Option.some.inj hlength
      rw [hsplit 16]
      exact .ipv6 reserved (by rw [List.length_take]; omega)
        (by rw [List.length_drop]; omega)

/-- The length is read from the front alone. -/
theorem boundLength_append {atyp : UInt8} {front : List UInt8} {length : Nat}
    (h : boundLength atyp front = some length) (rest : List UInt8) :
    boundLength atyp (front ++ rest) = some length := by
  cases front with
  | cons len front => exact h
  | nil =>
      rcases boundLength_isAddressType h with rfl | rfl | rfl
      · exact h
      · cases h
      · exact h

theorem boundLength_take {atyp : UInt8} {rest : List UInt8} {length : Nat}
    (h : boundLength atyp rest = some length) :
    boundLength atyp (rest.take length) = some length := by
  cases rest with
  | nil => rwa [List.take_nil]
  | cons len rest =>
      rcases boundLength_isAddressType h with rfl | rfl | rfl
      · exact h
      · have hlength : 1 + len.toNat + 2 = length := Option.some.inj h
        subst hlength
        rfl
      · exact h

theorem startsConnected_iff (content rest : List UInt8) :
    StartsConnected content rest ↔ ∃ reserved atyp bound,
      content = 0x05 :: 0x00 :: 0x05 :: 0x00 :: reserved :: atyp ::
          (bound ++ rest) ∧
        boundLength atyp bound = some bound.length := by
  constructor
  · rintro ⟨reply, hreply, rfl⟩
    obtain ⟨reserved, atyp, bound, rfl, hlength⟩ :=
      (connectReply_iff reply).mp hreply
    exact ⟨reserved, atyp, bound, rfl, hlength⟩
  · rintro ⟨reserved, atyp, bound, rfl, hlength⟩
    exact ⟨_, (connectReply_iff _).mpr ⟨reserved, atyp, bound, rfl, hlength⟩,
      rfl⟩

/-! ## The call as a whole -/

section Call

variable {proxy : Proxy} {uninitialized : Uninitialized}
  {client : Socks5Client} {destHost content : List UInt8} {destPort : UInt16}
  {stream : Stream}

/-- Of a host that is taken: the client is connected if the call returns. -/
theorem connected_iff_returns (hlength : destHost.length ≤ maxDomainLen)
    (honion : chars ".onion" <:+ destHost → destHost.length = 62) :
    let attempt := client.connect proxy uninitialized destHost destPort stream
    attempt.client.connected = true ↔ attempt.outcome = .ok () := by
  have honion' : ¬ (chars ".onion" <:+ destHost ∧ destHost.length ≠ 62) :=
    fun hbad => hbad.2 (honion hbad.1)
  have hthrows (error : List UInt8) :
      (client.reopen proxy.socket).connected = true ↔
        (Except.error error : Except (List UInt8) Unit) = .ok () := by
    simp
  rw [Socks5Client.connect, if_neg (Nat.not_lt.mpr hlength), if_neg honion']
  dsimp only
  split
  · exact hthrows _
  split
  · exact hthrows _
  split
  · exact hthrows _
  split
  · exact hthrows _
  · exact iff_of_true rfl rfl

theorem connect_of_reaches (uninitialized : Uninitialized) (stream : Stream)
    (h : Reaches proxy client destHost destPort) :
    let result := negotiate proxy uninitialized destHost destPort stream
    let attempt := client.connect proxy uninitialized destHost destPort stream
    attempt.outcome = result.1 ∧ attempt.unread = result.2 := by
  have honion : ¬ (chars ".onion" <:+ destHost ∧ destHost.length ≠ 62) :=
    fun hbad => hbad.2 (h.onionLength hbad.1)
  have hconnect : (proxy.connect (client.reopen proxy.socket).socksHost
      (client.reopen proxy.socket).getSocksPort).error? = none := by
    rw [Socks5Client.reopen_socksHost, Socks5Client.reopen_getSocksPort,
      h.established]
    rfl
  dsimp only
  rw [Socks5Client.connect, if_neg (Nat.not_lt.mpr h.hostLength),
    if_neg honion]
  dsimp only
  rw [dif_neg (Int.not_lt.mpr h.socket),
    if_neg (by simp [Socks5Client.reopen_socksHost, h.isAddress]), hconnect]
  obtain ⟨outcome | _, unread⟩ :=
    negotiate proxy uninitialized destHost destPort stream
  · exact ⟨rfl, rfl⟩
  · exact ⟨rfl, rfl⟩

theorem connect_accepted (h : Reaches proxy client destHost destPort)
    (hstream : Segments stream content) {rest : List UInt8}
    (hstarts : StartsConnected content rest) :
    let attempt := client.connect proxy uninitialized destHost destPort stream
    attempt.outcome = .ok () ∧ attempt.client.connected = true ∧
      attempt.unread.flatten = rest := by
  obtain ⟨reserved, atyp, bound, rfl, hlength⟩ :=
    (startsConnected_iff _ _).mp hstarts
  obtain ⟨middle, hmiddle, hnegotiate⟩ :=
    negotiate_selected h.greeting h.request hstream
  obtain ⟨last, hlast, hheader⟩ := readConnectReply_header hmiddle
  obtain ⟨unread, hunread, hbound⟩ := readBoundAddress_front hlength hlast
  obtain ⟨houtcome, hrest⟩ := connect_of_reaches uninitialized stream h
  rw [hnegotiate, hheader, hbound] at houtcome hrest
  exact ⟨houtcome,
    (connected_iff_returns h.hostLength h.onionLength).mpr houtcome,
    hrest ▸ hunread.flatten⟩

end Call

/-- Every other stream is rejected as long as what is not looked at is right
wherever what is looked at is. -/
theorem connectsExactly_iff (proxy : Proxy) (uninitialized : Uninitialized)
    (client : Socks5Client) (destHost : List UInt8) (destPort : UInt16)
    (hreaches : Reaches proxy client destHost destPort)
    (stream : Stream) (content : List UInt8)
    (hstream : Segments stream content) :
    ConnectsExactly proxy uninitialized client destHost destPort stream
        content ↔
      UncheckedBytesFit content := by
  have houtcome := (connect_of_reaches uninitialized stream hreaches).1
  have hreturns := negotiate_returns_iff uninitialized
    hreaches.greeting hreaches.request hstream
  constructor
  · intro hexact version reserved atyp rest hcontent htype
    by_cases hstarts : ∃ rest', StartsConnected content rest'
    · obtain ⟨rest', hstarts⟩ := hstarts
      obtain ⟨reserved', atyp', bound, hbound, hlength⟩ :=
        (startsConnected_iff _ _).mp hstarts
      rw [hcontent] at hbound
      simp only [List.cons.injEq, true_and] at hbound
      obtain ⟨rfl, rfl, rfl, rfl⟩ := hbound
      exact ⟨rfl, bound.length, boundLength_append hlength rest', by simp⟩
    · obtain ⟨⟨error, herror⟩, -⟩ := hexact.rejected fun rest' hrest' =>
        hstarts ⟨rest', hrest'⟩
      rw [houtcome] at herror
      rw [hreturns.mpr ⟨version, reserved, atyp, rest, hcontent, htype⟩]
        at herror
      cases herror
  · intro hfit
    refine ⟨fun rest => connect_accepted hreaches hstream, fun hnone => ?_⟩
    have hthrows : (client.connect proxy uninitialized destHost destPort
        stream).outcome ≠ .ok () := by
      intro hok
      rw [houtcome] at hok
      obtain ⟨version, reserved, atyp, rest, rfl, htype⟩ := hreturns.mp hok
      obtain ⟨rfl, length, hlength, hle⟩ :=
        hfit version reserved atyp rest rfl htype
      refine hnone (rest.drop length) ((startsConnected_iff _ _).mpr
        ⟨reserved, atyp, rest.take length, ?_, ?_⟩)
      · rw [List.take_append_drop]
      · rw [boundLength_take hlength, List.length_take_of_le hle]
    have hconnected := mt
      (connected_iff_returns hreaches.hostLength hreaches.onionLength).mp hthrows
    refine ⟨?_, Bool.eq_false_iff.mpr hconnected⟩
    cases hattempt : (client.connect proxy uninitialized destHost destPort
        stream).outcome with
    | error error => exact ⟨error, rfl⟩
    | ok returned => exact absurd hattempt hthrows

/-- A proxy that is there, takes all that is sent, and closes in the end. -/
def Proxy.sample : Proxy where
  socket := 3
  isAddress _ := true
  connect _ _ := .established
  send buffer := buffer.length
  ending := 0
  ending_nonpos := Int.le_refl 0

def Socks5Client.sample : Socks5Client where
  socksHost := "127.0.0.1"
  socksPort := 9050
  torSocksPort := none
  sockfd := -1
  connected := false
  open_of_connected := fun hconnected => absurd hconnected Bool.false_ne_true

theorem sendAll_whole {send : List UInt8 → Int} {buffer : List UInt8}
    (hbuffer : buffer ≠ []) (hsend : send buffer = buffer.length) :
    sendAll send buffer = buffer.length := by
  have hpos := List.length_pos_iff.mpr hbuffer
  rw [sendAll, sendAllLoop, if_neg hbuffer, if_neg (by omega), hsend,
    Int.toNat_natCast, List.drop_length, sendAllLoop, if_pos rfl, Nat.zero_add]

theorem sample_reaches : Reaches .sample .sample [0x61] 80 where
  hostLength := by decide
  onionLength h := by
    have hnot : ¬ chars ".onion" <:+ [0x61] := by decide
    exact absurd h hnot
  socket := by decide
  isAddress := rfl
  established := rfl
  greeting := sendAll_whole (by simp) rfl
  request := sendAll_whole (by simp [connectRequest]) rfl

/-- A complete reply in two segments. -/
theorem sample_connectsExactly :
    ConnectsExactly .sample ⟨fun _ => 0, fun _ => 0, 0⟩ .sample [0x61] 80
      [[0x05, 0x00, 0x05], [0x00, 0x00, 0x03, 0x01, 0x61, 0x00, 0x50]]
      [0x05, 0x00, 0x05, 0x00, 0x00, 0x03, 0x01, 0x61, 0x00, 0x50] :=
  (connectsExactly_iff .sample ⟨fun _ => 0, fun _ => 0, 0⟩ .sample [0x61] 80
    sample_reaches
    [[0x05, 0x00, 0x05], [0x00, 0x00, 0x03, 0x01, 0x61, 0x00, 0x50]]
    [0x05, 0x00, 0x05, 0x00, 0x00, 0x03, 0x01, 0x61, 0x00, 0x50]
    ⟨rfl, by simp⟩).mpr fun version reserved atyp rest hcontent _ => by
      simp only [List.cons.injEq, true_and] at hcontent
      obtain ⟨rfl, rfl, rfl, rfl⟩ := hcontent
      exact ⟨rfl, 4, rfl, Nat.le_refl 4⟩

/-- The connection is closed behind the header of a reply that says success. -/
theorem bound_address_missing :
    (Socks5Client.sample.connect .sample ⟨fun _ => 0, fun _ => 0, 0⟩ [0x61] 80
        [[0x05, 0x00], [0x05, 0x00, 0x00, 0x01]]).outcome = .ok () ∧
      ¬ ConnectsExactly .sample ⟨fun _ => 0, fun _ => 0, 0⟩ .sample [0x61] 80
        [[0x05, 0x00], [0x05, 0x00, 0x00, 0x01]]
        [0x05, 0x00, 0x05, 0x00, 0x00, 0x01] := by
  have hok : (Socks5Client.sample.connect .sample
      ⟨fun _ => 0, fun _ => 0, 0⟩ [0x61] 80
      [[0x05, 0x00], [0x05, 0x00, 0x00, 0x01]]).outcome = .ok () := by
    rw [(connect_of_reaches _ _ sample_reaches).1]
    exact (negotiate_returns_iff _ sample_reaches.greeting
      sample_reaches.request ⟨rfl, by simp⟩).mpr
      ⟨0x05, 0x00, 0x01, [], rfl, .inl rfl⟩
  refine ⟨hok, fun hexact => ?_⟩
  obtain ⟨⟨error, herror⟩, -⟩ := hexact.rejected fun rest hstarts => by
    obtain ⟨reserved, atyp, bound, hcontent, hlength⟩ :=
      (startsConnected_iff _ _).mp hstarts
    simp only [List.cons.injEq, true_and, eq_comm (a := []),
      List.append_eq_nil_iff] at hcontent
    obtain ⟨rfl, rfl, rfl, rfl⟩ := hcontent
    cases hlength
  rw [hok] at herror
  cases herror

end Neroshop.Network
