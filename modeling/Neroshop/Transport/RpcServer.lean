import Neroshop.Foundation.Bytes
import Neroshop.Foundation.Transition
import Neroshop.Routing.NodeId

/-!
# The RPC server

`rpc_server` keeps all clients it has accepted in one list.  The thread that it
starts for a client reads from whichever client is last in that list when it
gets to it, once, and writes to whichever is last when it is done.
-/

namespace Neroshop.Transport.RpcServer

open Neroshop.Foundation Neroshop.Routing

/-! ## One request -/

/-- The part of the buffer that `read` fills. -/
def readSize : Nat := 1023

def extractJsonPayload (request : List UInt8) : List UInt8 :=
  match splitAround (chars "\r\n\r\n") request with
  | some (_, jsonPayload) => jsonPayload
  | none => []

def invalidRequest : List UInt8 :=
  chars ("\x7b\"error\":\x7b\"code\":-32600,\"message\":\"Invalid Request\"\x7d" ++
    ",\"id\":null,\"jsonrpc\":\"2.0\"\x7d")

def httpResponse (status : String) (responseObject : List UInt8) :
    List UInt8 :=
  chars (status ++ "\r\nContent-Type: application/json\r\nContent-Length: " ++
    toString responseObject.length ++ "\r\n\r\n") ++ responseObject

structure Service where
  isJsonRpc : List UInt8 → Bool
  /-- Of the call that the given thread makes; none where it does not return. -/
  jsonProcess : Nat → List UInt8 → Option (List UInt8)

def Service.respond (service : Service) (thread : Nat)
    (request : List UInt8) : Option (List UInt8) :=
  let jsonPayload := extractJsonPayload request
  if service.isJsonRpc jsonPayload then
    (service.jsonProcess thread jsonPayload).map (httpResponse "HTTP/1.1 200 OK")
  else some (httpResponse "HTTP/1.1 400 Bad Request" invalidRequest)

/-! ## The accept loop and its threads -/

inductive Phase where
  | idle
  /-- In front of `server_mutex`. -/
  | waiting
  | locked
  /-- Inside `::read` on the socket of the client. -/
  | reading (client : Nat)
  | processed (response : List UInt8)
  | finished

/-- Clients and the threads started for them have the same numbers. -/
structure State where
  clients : List Nat
  connections : Nat
  /-- How many bytes of its request a client has sent. -/
  sent : Nat → Nat
  /-- How many of them have been read. -/
  taken : Nat → Nat
  /-- The client has shut its side down. -/
  ended : Nat → Bool
  phase : Nat → Phase
  serverMutex : Option Nat
  /-- The responses that have been written to a client. -/
  received : Nat → List (List UInt8)
  closed : Bool
  /-- An exception has left a thread, or the last of no clients was used. -/
  crashed : Bool

namespace State

def start : State :=
  ⟨[], 0, fun _ => 0, fun _ => 0, fun _ => false, fun _ => .idle, none,
    fun _ => [], false, false⟩

def enter (state : State) (thread : Nat) (phase : Phase) : State :=
  { state with phase := Function.update state.phase thread phase }

def crash (state : State) : State := { state with crashed := true }

/-- `shutdown` and `close` of the server. -/
def close (state : State) : State :=
  { state with clients := [], closed := true }

def accept (state : State) : State :=
  { state.enter state.connections .waiting with
    clients := state.clients ++ [state.connections]
    connections := state.connections + 1 }

def send (state : State) (client count : Nat) : State :=
  { state with
    sent := Function.update state.sent client (state.sent client + count) }

def lock (state : State) (thread : Nat) : State :=
  { state.enter thread .locked with serverMutex := some thread }

def unlock (state : State) (thread : Nat) : State :=
  { state.enter thread .finished with serverMutex := none }

def take (state : State) (client count : Nat) : State :=
  { state with
    taken := Function.update state.taken client (state.taken client + count) }

def deliver (state : State) (client : Nat) (response : List UInt8) : State :=
  { state with
    received := Function.update state.received client
      (state.received client ++ [response]) }

end State

inductive Event where
  | accept
  | send (client count : Nat)
  | endSending (client : Nat)
  | lock (thread : Nat)
  /-- `clients.back()` in `read`. -/
  | pick (thread : Nat)
  | read (thread count : Nat)
  | readError (thread : Nat)
  | write (thread : Nat)
  | writeError (thread : Nat)
  /-- The accept loop ends. -/
  | stop

section Steps

variable (service : Service) (request : Nat → List UInt8)

/-- `::read` can return this many bytes; none only at the end of the stream. -/
def Readable (state : State) (client count : Nat) : Prop :=
  state.closed = false ∧ count ≤ readSize ∧
    state.taken client + count ≤ state.sent client ∧
    (count = 0 → state.ended client = true ∧
      state.taken client = state.sent client)

instance (state : State) (client count : Nat) :
    Decidable (Readable state client count) := by
  unfold Readable
  infer_instance

/-- What a thread does with the bytes it has read. -/
def process (state : State) (thread : Nat) (bytes : List UInt8) : State :=
  match service.respond thread bytes with
  | some response => state.enter thread (.processed response)
  | none => state.crash

def running (state : State) : Event → Option State
  | .accept => if state.closed then none else some state.accept
  | .send client count =>
      if state.ended client = false ∧
          state.sent client + count ≤ (request client).length
      then some (state.send client count) else none
  | .endSending client =>
      some { state with ended := Function.update state.ended client true }
  | .lock thread =>
      match state.phase thread, state.serverMutex with
      | .waiting, none => some (state.lock thread)
      | _, _ => none
  | .pick thread =>
      match state.phase thread, state.clients.getLast? with
      | .locked, some client => some (state.enter thread (.reading client))
      | .locked, none => some state.crash
      | _, _ => none
  | .read thread count =>
      match state.phase thread with
      | .reading client =>
          if Readable state client count then
            let bytes := ((request client).drop (state.taken client)).take count
            some (process service (state.take client count) thread bytes)
          else none
      | _ => none
  | .readError thread =>
      match state.phase thread with
      | .reading _ => some (process service state.close thread [])
      | _ => none
  | .write thread =>
      match state.phase thread, state.clients.getLast? with
      | .processed response, some client =>
          some ((state.deliver client response).unlock thread)
      | .processed _, none => some state.crash
      | _, _ => none
  | .writeError thread =>
      match state.phase thread with
      | .processed _ => some (state.unlock thread)
      | _ => none
  | .stop => some state.close

def step (state : State) (event : Event) : Option State :=
  if state.crashed then none else running service request state event

/-! ## What is asked of the server -/

/-- Every request thread that was started has come to its end. -/
def State.Settled (state : State) : Prop :=
  ∀ thread < state.connections, state.phase thread = .finished

/-- Clients get responses to their own requests, in full and not twice. -/
structure Served (state : State) : Prop where
  crashed : state.crashed = false
  own : ∀ client, ∀ response ∈ state.received client,
    state.sent client = (request client).length ∧
      ∃ thread, service.respond thread (request client) = some response
  once : ∀ client, (state.received client).length ≤ 1
  settled : state.Settled →
    ∀ client < state.connections, (state.received client).length = 1

/-- One read can take the request, and `json_process` returns for it. -/
structure Handled (client : Nat) : Prop where
  nonempty : request client ≠ []
  fits : (request client).length ≤ readSize
  returns : (service.respond client (request client)).isSome

/--
Clients are accepted one after the other, each with a request that can be
handled, and a read gives all of it.
-/
def Orderly (state : State) : Event → Prop
  | .accept => state.Settled ∧ Handled service request state.connections
  | .read thread count =>
      ∀ client, state.phase thread = .reading client →
        count = (request client).length
  | .readError _ | .writeError _ => False
  | .stop => state.Settled
  | _ => True

/-! ## The invariant of orderly runs -/

/-- Only the thread started last is not at its end, and its client is last. -/
structure Latest (state : State) (thread : Nat) : Prop where
  last : thread + 1 = state.connections
  isOpen : state.closed = false
  handled : Handled service request thread
  received : state.received thread = []

def PhaseHolds (state : State) (thread : Nat) : Phase → Prop
  | .idle => state.connections ≤ thread ∧ state.taken thread = 0 ∧
      state.received thread = []
  | .waiting | .locked =>
      Latest service request state thread ∧ state.taken thread = 0
  | .reading client => client = thread ∧
      Latest service request state thread ∧ state.taken thread = 0
  | .processed response => Latest service request state thread ∧
      state.sent thread = (request thread).length ∧
      service.respond thread (request thread) = some response
  | .finished => thread < state.connections ∧
      state.sent thread = (request thread).length ∧
      ∃ response, service.respond thread (request thread) = some response ∧
        state.received thread = [response]

def Phase.holdsMutex : Phase → Prop
  | .locked | .reading _ | .processed _ => True
  | _ => False

structure Invariant (state : State) : Prop where
  crashed : state.crashed = false
  clients : state.closed = false →
    state.clients = List.range state.connections
  sent : ∀ client, state.sent client ≤ (request client).length
  phases : ∀ thread, PhaseHolds service request state thread (state.phase thread)
  mutex : ∀ thread, state.serverMutex = some thread →
    (state.phase thread).holdsMutex

theorem Invariant.start : Invariant service request State.start where
  crashed := rfl
  clients := fun _ => rfl
  sent := fun _ => Nat.zero_le _
  phases := fun _ => ⟨Nat.zero_le _, rfl, rfl⟩
  mutex := fun _ h => nomatch h

variable {service request} {state : State}

theorem PhaseHolds.frame {next : State} {thread : Nat} {phase : Phase}
    (h : PhaseHolds service request state thread phase)
    (hconnections : next.connections = state.connections)
    (hclosed : next.closed = state.closed)
    (hsent : state.sent thread = (request thread).length →
      next.sent thread = state.sent thread)
    (htaken : next.taken thread = state.taken thread)
    (hreceived : next.received thread = state.received thread) :
    PhaseHolds service request next thread phase := by
  have hlatest : Latest service request state thread →
      Latest service request next thread := by
    rintro ⟨hlast, hopen, hhandled, hnone⟩
    exact ⟨hconnections ▸ hlast, hclosed ▸ hopen, hhandled, hreceived ▸ hnone⟩
  cases phase with
  | idle => exact ⟨hconnections ▸ h.1, htaken ▸ h.2.1, hreceived ▸ h.2.2⟩
  | waiting => exact ⟨hlatest h.1, htaken ▸ h.2⟩
  | locked => exact ⟨hlatest h.1, htaken ▸ h.2⟩
  | reading client => exact ⟨h.1, hlatest h.2.1, htaken ▸ h.2.2⟩
  | processed response => exact ⟨hlatest h.1, (hsent h.2.1).trans h.2.1, h.2.2⟩
  | finished =>
      obtain ⟨response, hrespond, hone⟩ := h.2.2
      exact ⟨hconnections ▸ h.1, (hsent h.2.1).trans h.2.1, response,
        hrespond, hreceived ▸ hone⟩

theorem PhaseHolds.latest {thread : Nat} {phase : Phase}
    (h : PhaseHolds service request state thread phase)
    (hmutex : phase.holdsMutex) : Latest service request state thread := by
  cases phase with
  | idle => exact hmutex.elim
  | waiting => exact hmutex.elim
  | locked => exact h.1
  | reading client => exact h.2.1
  | processed response => exact h.1
  | finished => exact hmutex.elim

theorem PhaseHolds.eq_idle {thread : Nat} {phase : Phase}
    (h : PhaseHolds service request state thread phase)
    (hle : state.connections ≤ thread) : phase = .idle := by
  cases phase with
  | idle => rfl
  | waiting => exact absurd h.1.last (by omega)
  | locked => exact absurd h.1.last (by omega)
  | reading client => exact absurd h.2.1.last (by omega)
  | processed response => exact absurd h.1.last (by omega)
  | finished => exact absurd h.1 (by omega)

theorem Latest.getLast? (h : Invariant service request state) {thread : Nat}
    (hlatest : Latest service request state thread) :
    state.clients.getLast? = some thread := by
  rw [h.clients hlatest.isOpen, List.getLast?_range, if_neg (by
    have := hlatest.last
    omega)]
  have hlast := hlatest.last
  congr 1
  omega

theorem Invariant.free (h : Invariant service request state)
    (hnone : ∀ thread, ¬ (state.phase thread).holdsMutex) :
    state.serverMutex = none := by
  cases hmutex : state.serverMutex with
  | none => rfl
  | some thread => exact absurd (h.mutex thread hmutex) (hnone thread)

theorem Invariant.phase_of_settled (h : Invariant service request state)
    (hsettled : state.Settled) (thread : Nat) :
    ¬ (state.phase thread).holdsMutex := by
  intro hmutex
  have hlast := ((h.phases thread).latest hmutex).last
  rw [hsettled thread (by omega)] at hmutex
  exact hmutex

/-! ## One step -/

theorem Invariant.accept (h : Invariant service request state)
    (hopen : state.closed = false) (hsettled : state.Settled)
    (hhandled : Handled service request state.connections) :
    Invariant service request state.accept := by
  have hfree := h.free (h.phase_of_settled hsettled)
  refine ⟨h.crashed, fun _ => ?_, h.sent, fun thread => ?_,
    fun thread hmutex => ?_⟩
  · change state.clients ++ [state.connections] =
      List.range (state.connections + 1)
    rw [h.clients hopen, List.range_succ]
  · change PhaseHolds service request state.accept thread
      (Function.update state.phase state.connections .waiting thread)
    have hphase := h.phases thread
    rcases Nat.lt_or_ge thread state.connections with hlt | hge
    · rw [Function.update_of_ne (by omega)]
      rw [hsettled thread hlt] at hphase ⊢
      exact ⟨Nat.lt_succ_of_lt hlt, hphase.2⟩
    · rw [hphase.eq_idle hge] at hphase
      obtain ⟨-, htaken, hreceived⟩ := hphase
      by_cases heq : thread = state.connections
      · subst heq
        rw [Function.update_self]
        exact ⟨⟨rfl, hopen, hhandled, hreceived⟩, htaken⟩
      · rw [Function.update_of_ne heq, (h.phases thread).eq_idle hge]
        exact ⟨by change state.connections + 1 ≤ thread; omega, htaken,
          hreceived⟩
  · have hnone : state.serverMutex = some thread := hmutex
    rw [hfree] at hnone
    cases hnone

theorem Invariant.send (h : Invariant service request state)
    {client count : Nat}
    (hfits : state.sent client + count ≤ (request client).length) :
    Invariant service request (state.send client count) := by
  refine ⟨h.crashed, h.clients, fun other => ?_, fun thread => ?_, h.mutex⟩
  · change Function.update state.sent client _ other ≤ _
    by_cases heq : other = client
    · subst heq
      rwa [Function.update_self]
    · rw [Function.update_of_ne heq]
      exact h.sent other
  · refine (h.phases thread).frame rfl rfl (fun hall => ?_) rfl rfl
    change Function.update state.sent client _ thread = _
    by_cases heq : thread = client
    · subst heq
      rw [Function.update_self]
      omega
    · exact Function.update_of_ne heq _ _

theorem Invariant.move (h : Invariant service request state) {next : State}
    {thread : Nat} {phase : Phase} (hcrashed : next.crashed = state.crashed)
    (hclients : next.clients = state.clients)
    (hclosed : next.closed = state.closed)
    (hconnections : next.connections = state.connections)
    (hsent : next.sent = state.sent)
    (htaken : ∀ other, other ≠ thread → next.taken other = state.taken other)
    (hreceived : ∀ other, other ≠ thread →
      next.received other = state.received other)
    (hphase : next.phase = Function.update state.phase thread phase)
    (hholds : PhaseHolds service request next thread phase)
    (hmutex : phase.holdsMutex ∧ (next.serverMutex = state.serverMutex ∨
      next.serverMutex = some thread) ∨ next.serverMutex = none) :
    Invariant service request next := by
  refine ⟨hcrashed ▸ h.crashed, fun hopen => ?_, fun client => ?_,
    fun other => ?_, fun other hother => ?_⟩
  · rw [hclients, hconnections]
    exact h.clients (hclosed ▸ hopen)
  · rw [hsent]
    exact h.sent client
  · rw [hphase]
    by_cases heq : other = thread
    · subst heq
      rwa [Function.update_self]
    · rw [Function.update_of_ne heq]
      exact (h.phases other).frame hconnections hclosed
        (fun _ => congrFun hsent other) (htaken other heq) (hreceived other heq)
  · rw [hphase]
    by_cases heq : other = thread
    · subst heq
      rw [Function.update_self]
      rcases hmutex with ⟨hholds, -⟩ | hnone
      · exact hholds
      · rw [hnone] at hother
        cases hother
    · rw [Function.update_of_ne heq]
      rcases hmutex with ⟨-, hsame | hself⟩ | hnone
      · exact h.mutex other (hsame ▸ hother)
      · rw [hself] at hother
        cases hother
        exact absurd rfl heq
      · rw [hnone] at hother
        cases hother

theorem Invariant.lock (h : Invariant service request state) {thread : Nat}
    (hphase : state.phase thread = .waiting) :
    Invariant service request (state.lock thread) := by
  have hholds := h.phases thread
  rw [hphase] at hholds
  obtain ⟨⟨hlast, hopen, hhandled, hnone⟩, htaken⟩ := hholds
  have hlocked : PhaseHolds service request (state.lock thread) thread
      .locked :=
    ⟨⟨hlast, hopen, hhandled, hnone⟩, htaken⟩
  exact h.move rfl rfl rfl rfl rfl (fun _ _ => rfl) (fun _ _ => rfl) rfl
    hlocked (.inl ⟨trivial, .inr rfl⟩)

theorem Invariant.pick (h : Invariant service request state) {thread : Nat}
    (hphase : state.phase thread = .locked) :
    state.clients.getLast? = some thread ∧
      Invariant service request (state.enter thread (.reading thread)) := by
  have hholds := h.phases thread
  rw [hphase] at hholds
  obtain ⟨hlatest, htaken⟩ := hholds
  have hreading : PhaseHolds service request
      (state.enter thread (.reading thread)) thread (.reading thread) :=
    ⟨rfl, ⟨hlatest.last, hlatest.isOpen, hlatest.handled, hlatest.received⟩,
      htaken⟩
  exact ⟨hlatest.getLast? h, h.move rfl rfl rfl rfl rfl (fun _ _ => rfl)
    (fun _ _ => rfl) rfl hreading (.inl ⟨trivial, .inl rfl⟩)⟩

theorem Invariant.read (h : Invariant service request state)
    {thread client : Nat} (hphase : state.phase thread = .reading client)
    (hreadable : Readable state client (request client).length) :
    ∃ response, client = thread ∧
      process service (state.take client (request client).length) thread
          (((request client).drop (state.taken client)).take
            (request client).length) =
        (state.take thread (request thread).length).enter thread
          (.processed response) ∧
      Invariant service request
        ((state.take thread (request thread).length).enter thread
          (.processed response)) := by
  have hholds := h.phases thread
  rw [hphase] at hholds
  obtain ⟨rfl, ⟨hlast, hopen, hhandled, hnone⟩, htaken⟩ := hholds
  obtain ⟨response, hrespond⟩ := Option.isSome_iff_exists.mp hhandled.returns
  have hall : state.sent client = (request client).length := by
    have hle := h.sent client
    have := hreadable.2.2.1
    omega
  refine ⟨response, rfl, ?_, ?_⟩
  · rw [htaken, List.drop_zero, List.take_length, process, hrespond]
  · have hprocessed : PhaseHolds service request
        ((state.take client (request client).length).enter client
          (.processed response)) client (.processed response) :=
      ⟨⟨hlast, hopen, hhandled, hnone⟩, hall, hrespond⟩
    exact h.move rfl rfl rfl rfl rfl
      (fun _ hne => Function.update_of_ne hne _ _) (fun _ _ => rfl) rfl
      hprocessed (.inl ⟨trivial, .inl rfl⟩)

theorem Invariant.write (h : Invariant service request state) {thread : Nat}
    {response : List UInt8} (hphase : state.phase thread = .processed response) :
    state.clients.getLast? = some thread ∧
      Invariant service request
        ((state.deliver thread response).unlock thread) := by
  have hholds := h.phases thread
  rw [hphase] at hholds
  obtain ⟨hlatest, hall, hrespond⟩ := hholds
  have hreceived : ((state.deliver thread response).unlock thread).received
      thread = [response] := by
    change Function.update state.received thread _ thread = _
    rw [Function.update_self, hlatest.received, List.nil_append]
  have hlt : thread < state.connections := by
    have := hlatest.last
    omega
  have hfinished : PhaseHolds service request
      ((state.deliver thread response).unlock thread) thread .finished :=
    ⟨hlt, hall, response, hrespond, hreceived⟩
  exact ⟨hlatest.getLast? h, h.move rfl rfl rfl rfl rfl (fun _ _ => rfl)
    (fun _ hne => Function.update_of_ne hne _ _) rfl hfinished (.inr rfl)⟩

theorem Invariant.stop (h : Invariant service request state)
    (hsettled : state.Settled) : Invariant service request state.close := by
  refine ⟨h.crashed, fun hopen => (nomatch hopen), h.sent,
    fun thread => ?_, h.mutex⟩
  have hphase := h.phases thread
  change PhaseHolds service request state.close thread (state.phase thread)
  rcases Nat.lt_or_ge thread state.connections with hlt | hge
  · rw [hsettled thread hlt] at hphase ⊢
    exact hphase
  · have hidle := hphase.eq_idle hge
    rw [hidle] at hphase ⊢
    exact hphase

theorem Invariant.orderly (state : State) (event : Event) (next : State)
    (h : Invariant service request state)
    (horderly : Orderly service request state event)
    (hstep : step service request state event = some next) :
    Invariant service request next := by
  rw [step, h.crashed, if_neg (by simp)] at hstep
  cases event with
  | accept =>
      simp only [running] at hstep
      split at hstep
      · cases hstep
      · rename_i hopen
        cases hstep
        exact h.accept (by simpa using hopen) horderly.1 horderly.2
  | send client count =>
      simp only [running] at hstep
      split at hstep
      · rename_i hsend
        cases hstep
        exact h.send hsend.2
      · cases hstep
  | endSending client =>
      cases hstep
      exact ⟨h.crashed, h.clients, h.sent,
        fun thread => (h.phases thread).frame rfl rfl (fun _ => rfl) rfl rfl,
        h.mutex⟩
  | lock thread =>
      simp only [running] at hstep
      split at hstep
      · rename_i hphase _
        cases hstep
        exact h.lock hphase
      · cases hstep
  | pick thread =>
      cases hphase : state.phase thread with
      | locked =>
          obtain ⟨hlast, hpick⟩ := h.pick hphase
          simp only [running, hphase, hlast] at hstep
          cases hstep
          exact hpick
      | _ => simp [running, hphase] at hstep
  | read thread count =>
      cases hphase : state.phase thread with
      | reading client =>
          have hcount := horderly client hphase
          subst hcount
          simp only [running, hphase] at hstep
          split at hstep
          · rename_i hreadable
            obtain ⟨response, -, hprocess, hread⟩ := h.read hphase hreadable
            rw [hprocess] at hstep
            cases hstep
            exact hread
          · cases hstep
      | _ => simp [running, hphase] at hstep
  | readError thread => exact horderly.elim
  | write thread =>
      cases hphase : state.phase thread with
      | processed response =>
          obtain ⟨hlast, hwrite⟩ := h.write hphase
          simp only [running, hphase, hlast] at hstep
          cases hstep
          exact hwrite
      | _ => simp [running, hphase] at hstep
  | writeError thread => exact horderly.elim
  | stop =>
      cases hstep
      exact h.stop horderly

/-! ## What the invariant gives -/

theorem PhaseHolds.received {thread : Nat} {phase : Phase}
    (h : PhaseHolds service request state thread phase) :
    state.received thread = [] ∨
      state.sent thread = (request thread).length ∧
        ∃ response, service.respond thread (request thread) = some response ∧
          state.received thread = [response] := by
  cases phase with
  | idle => exact .inl h.2.2
  | waiting => exact .inl h.1.received
  | locked => exact .inl h.1.received
  | reading client => exact .inl h.2.1.received
  | processed response => exact .inl h.1.received
  | finished => exact .inr h.2

theorem Invariant.served (h : Invariant service request state) :
    Served service request state := by
  refine ⟨h.crashed, fun client response hmem => ?_, fun client => ?_,
    fun hsettled client hlt => ?_⟩
  · rcases (h.phases client).received with hnone | ⟨hall, _, hrespond, hone⟩
    · rw [hnone] at hmem
      cases hmem
    · rw [hone, List.mem_singleton] at hmem
      exact ⟨hall, client, hmem ▸ hrespond⟩
  · rcases (h.phases client).received with hnone | ⟨_, _, _, hone⟩
    · simp [hnone]
    · simp [hone]
  · have hphase := h.phases client
    rw [hsettled client hlt] at hphase
    obtain ⟨-, -, _, -, hone⟩ := hphase
    simp [hone]

theorem PhaseHolds.finished_or_latest {thread : Nat} {phase : Phase}
    (h : PhaseHolds service request state thread phase)
    (hlt : thread < state.connections) :
    phase = .finished ∨ Latest service request state thread := by
  cases phase with
  | idle => exact absurd h.1 (by omega)
  | waiting => exact .inr h.1
  | locked => exact .inr h.1
  | reading client => exact .inr h.2.1
  | processed response => exact .inr h.1
  | finished => exact .inl rfl

/-! ## Requests that have arrived are answered -/

/-- One thread has come to its end, and nothing else has changed. -/
structure Done (thread : Nat) (state later : State) : Prop where
  finished : later.phase thread = .finished
  others : ∀ other, other ≠ thread → later.phase other = state.phase other
  connections : later.connections = state.connections
  sent : later.sent = state.sent
  closed : later.closed = state.closed

theorem Done.of_enter {thread : Nat} {phase : Phase} {next later : State}
    (h : Done thread next later)
    (hphase : next.phase = Function.update state.phase thread phase)
    (hconnections : next.connections = state.connections)
    (hsent : next.sent = state.sent) (hclosed : next.closed = state.closed) :
    Done thread state later where
  finished := h.finished
  others := fun other hne => by
    rw [h.others other hne, hphase, Function.update_of_ne hne]
  connections := h.connections.trans hconnections
  sent := h.sent.trans hsent
  closed := h.closed.trans hclosed

/-- Some orderly run from here ends with the thread at its end. -/
def Finishes (service : Service) (request : Nat → List UInt8) (state : State)
    (thread : Nat) : Prop :=
  ∃ later, Reaches (step service request) (Orderly service request) state later ∧
    Done thread state later

theorem Invariant.finishes_processed (h : Invariant service request state)
    {thread : Nat} {response : List UInt8}
    (hphase : state.phase thread = .processed response) :
    Finishes service request state thread := by
  obtain ⟨hlast, -⟩ := h.write hphase
  have horderly : Orderly service request state (.write thread) := trivial
  have hstep : step service request state (.write thread) =
      some ((state.deliver thread response).unlock thread) := by
    simp [step, h.crashed, running, hphase, hlast]
  refine ⟨_, .head horderly hstep (.refl _), ?_, fun other hne => ?_, rfl, rfl, rfl⟩
  · exact Function.update_self ..
  · exact Function.update_of_ne hne _ _

theorem Invariant.finishes_reading (h : Invariant service request state)
    {thread client : Nat} (hphase : state.phase thread = .reading client)
    (hall : state.sent thread = (request thread).length) :
    Finishes service request state thread := by
  have hholds := h.phases thread
  rw [hphase] at hholds
  obtain ⟨rfl, hlatest, htaken⟩ := hholds
  have hreadable : Readable state client (request client).length := by
    refine ⟨hlatest.isOpen, hlatest.handled.fits, by omega, fun hzero => ?_⟩
    exact absurd (List.length_eq_zero_iff.mp hzero) hlatest.handled.nonempty
  obtain ⟨response, -, hprocess, hread⟩ := h.read hphase hreadable
  have hstep : step service request state
      (.read client (request client).length) =
        some ((state.take client (request client).length).enter client
          (.processed response)) := by
    simp only [step, h.crashed, running, hphase, if_pos hreadable,
      hprocess, Bool.false_eq_true, if_false]
  have horderly : Orderly service request state
      (.read client (request client).length) := by
    intro other hother
    rw [hphase] at hother
    cases hother
    rfl
  obtain ⟨later, hreaches, hdone⟩ :=
    hread.finishes_processed (Function.update_self ..)
  exact ⟨later, .head horderly hstep hreaches,
    hdone.of_enter rfl rfl rfl rfl⟩

theorem Invariant.finishes_locked (h : Invariant service request state)
    {thread : Nat} (hphase : state.phase thread = .locked)
    (hall : state.sent thread = (request thread).length) :
    Finishes service request state thread := by
  obtain ⟨hlast, hpick⟩ := h.pick hphase
  have horderly : Orderly service request state (.pick thread) := trivial
  have hstep : step service request state (.pick thread) =
      some (state.enter thread (.reading thread)) := by
    simp [step, h.crashed, running, hphase, hlast]
  obtain ⟨later, hreaches, hdone⟩ :=
    hpick.finishes_reading (Function.update_self ..) hall
  exact ⟨later, .head horderly hstep hreaches, hdone.of_enter rfl rfl rfl rfl⟩

theorem Invariant.finishes_waiting (h : Invariant service request state)
    {thread : Nat} (hphase : state.phase thread = .waiting)
    (hall : state.sent thread = (request thread).length) :
    Finishes service request state thread := by
  have hfree : state.serverMutex = none := by
    refine h.free fun other hmutex => ?_
    have hlast := ((h.phases other).latest hmutex).last
    have hholds := h.phases thread
    rw [hphase] at hholds
    have hself := hholds.1.last
    have heq : other = thread := by omega
    rw [heq, hphase] at hmutex
    exact hmutex
  have horderly : Orderly service request state (.lock thread) := trivial
  have hstep : step service request state (.lock thread) =
      some (state.lock thread) := by
    simp [step, h.crashed, running, hphase, hfree]
  obtain ⟨later, hreaches, hdone⟩ :=
    (h.lock hphase).finishes_locked (Function.update_self ..) hall
  exact ⟨later, .head horderly hstep hreaches, hdone.of_enter rfl rfl rfl rfl⟩

theorem Invariant.finishes (h : Invariant service request state)
    {thread : Nat} (hlt : thread < state.connections)
    (hall : state.sent thread = (request thread).length) :
    Finishes service request state thread := by
  cases hphase : state.phase thread with
  | idle => 
      have hholds := h.phases thread
      rw [hphase] at hholds
      exact absurd hholds.1 (by omega)
  | waiting => exact h.finishes_waiting hphase hall
  | locked => exact h.finishes_locked hphase hall
  | reading client => exact h.finishes_reading hphase hall
  | processed response => exact h.finishes_processed hphase
  | finished => exact ⟨state, .refl _, hphase, fun _ _ => rfl, rfl, rfl, rfl⟩

theorem Invariant.settles (h : Invariant service request state)
    (hall : ∀ thread, thread + 1 = state.connections →
      state.sent thread = (request thread).length) :
    ∃ later, Reaches (step service request) (Orderly service request)
        state later ∧
      later.Settled ∧ later.connections = state.connections ∧
        later.sent = state.sent ∧ later.closed = state.closed := by
  cases hconnections : state.connections with
  | zero =>
      refine ⟨state, .refl state, fun thread hlt => ?_, hconnections, rfl, rfl⟩
      rw [hconnections] at hlt
      exact absurd hlt (Nat.not_lt_zero thread)
  | succ last =>
      have hlt : last < state.connections := by omega
      obtain ⟨later, hreaches, hdone⟩ := h.finishes hlt (hall last hconnections.symm)
      refine ⟨later, hreaches, fun thread hthread => ?_,
        hdone.connections.trans hconnections, hdone.sent, hdone.closed⟩
      by_cases heq : thread = last
      · exact heq ▸ hdone.finished
      · rw [hdone.connections] at hthread
        rw [hdone.others thread heq]
        rcases (h.phases thread).finished_or_latest hthread with hfinished | hlatest
        · exact hfinished
        · exact absurd hlatest.last (by omega)

/-- The clients up to this one have sent requests that can be handled. -/
def Arrived (service : Service) (request : Nat → List UInt8) (state : State)
    (client : Nat) : Prop :=
  ∀ other ≤ client, Handled service request other ∧
    state.sent other = (request other).length

theorem Invariant.answers (h : Invariant service request state)
    (hopen : state.closed = false) {client : Nat}
    (harrived : Arrived service request state client) :
    ∃ later, Reaches (step service request) (Orderly service request)
        state later ∧ (later.received client).length = 1 := by
  induction hmissing : client + 1 - state.connections generalizing state with
  | zero =>
      by_cases hlast : client + 1 = state.connections
      · obtain ⟨later, hreaches, hsettled, hconnections, -⟩ := h.settles
          fun thread hthread => (harrived thread (by omega)).2
        have hlater := hreaches.invariant Invariant.orderly h
        exact ⟨later, hreaches, hlater.served.settled hsettled client (by omega)⟩
      · refine ⟨state, .refl state, ?_⟩
        have hlt : client < state.connections := by omega
        have hphase := h.phases client
        rcases hphase.finished_or_latest hlt with hfinished | hlatest
        · rw [hfinished] at hphase
          obtain ⟨-, -, _, -, hone⟩ := hphase
          simp [hone]
        · exact absurd hlatest.last hlast
  | succ missing ih =>
      obtain ⟨settled, hreaches, hsettled, hconnections, hsent, hclosed⟩ :=
        h.settles fun thread hthread => (harrived thread (by omega)).2
      have hinv := hreaches.invariant Invariant.orderly h
      have hhandled : Handled service request settled.connections :=
        (harrived _ (by omega)).1
      have horderly : Orderly service request settled .accept :=
        ⟨hsettled, hhandled⟩
      have hstep : step service request settled .accept =
          some settled.accept := by
        simp [step, hinv.crashed, running, hclosed, hopen]
      have haccept := hinv.orderly _ _ _ horderly hstep
      obtain ⟨later, hrest, hone⟩ := ih haccept (hclosed.trans hopen)
        (fun other hle => ⟨(harrived other hle).1,
          (congrFun hsent other).trans (harrived other hle).2⟩)
        (by change client + 1 - (settled.connections + 1) = missing; omega)
      exact ⟨later, hreaches.trans (.head horderly hstep hrest), hone⟩

/--
After any orderly run every client has what is asked for, and a client whose
request has arrived, with those before it, can still be answered.
-/
theorem served_of_orderly {events : List Event} {final : State}
    (horderly : AllMeet (step service request) (Orderly service request)
      State.start events)
    (hrun : runFrom (step service request) State.start events = some final) :
    Served service request final ∧
      ∀ client, final.closed = false →
        Arrived service request final client →
        ∃ later, Reaches (step service request) (Orderly service request)
            final later ∧ (later.received client).length = 1 := by
  have hinvariant : Invariant service request final :=
    runFrom_invariant _ Invariant.orderly horderly hrun
      (Invariant.start service request)
  exact ⟨hinvariant.served, fun _ hopen harrived =>
    hinvariant.answers hopen harrived⟩

end Steps

def echo : Service := ⟨fun _ => true, fun _ payload => some payload⟩

def posts (client : Nat) : List UInt8 :=
  chars "POST / HTTP/1.1\r\n\r\n" ++ [UInt8.ofNat client]

theorem posts_handled : Handled echo posts 0 := by
  refine ⟨by simp [posts], by decide, rfl⟩

theorem served_of_orderly_one :
    ∃ events final, runFrom (step echo posts) State.start events = some final ∧
      (final.received 0).length = 1 ∧ Served echo posts final := by
  have horderly : AllMeet (step echo posts) (Orderly echo posts) State.start
      [.accept, .send 0 20, .lock 0, .pick 0, .read 0 20, .write 0] := by
    refine ⟨⟨fun _ hlt => absurd hlt (Nat.not_lt_zero _), posts_handled⟩, ?_⟩
    rintro _ ⟨⟩
    refine ⟨trivial, ?_⟩
    rintro _ ⟨⟩
    refine ⟨trivial, ?_⟩
    rintro _ ⟨⟩
    refine ⟨trivial, ?_⟩
    rintro _ ⟨⟩
    refine ⟨?_, ?_⟩
    · rintro _ ⟨⟩
      rfl
    · rintro _ ⟨⟩
      exact ⟨trivial, fun _ _ => trivial⟩
  have hrun : ∃ final, runFrom (step echo posts) State.start
      [.accept, .send 0 20, .lock 0, .pick 0, .read 0 20, .write 0] =
        some final ∧ (final.received 0).length = 1 := ⟨_, rfl, rfl⟩
  obtain ⟨final, hfinal, hone⟩ := hrun
  exact ⟨_, final, hfinal, hone, (served_of_orderly horderly hfinal).1⟩

/-- A client that is accepted before the write gets the response of another. -/
theorem response_to_another :
    ∃ final, runFrom (step echo posts) State.start
        [.accept, .send 0 20, .lock 0, .pick 0, .read 0 20, .accept,
          .write 0] = some final ∧
      ¬ Served echo posts final := by
  refine ⟨_, rfl, fun h => ?_⟩
  have hsent := (h.own 1 _ (List.Mem.head _)).1
  revert hsent
  decide

end Neroshop.Transport.RpcServer
