import Neroshop.Foundation.Transition
import Neroshop.Tor.Safety

/-!
# Connections of a Tor node

`run_tor` keeps one reassembly buffer per peer name, and `send_query` drops and
opens connections to a peer from other threads.  The steps below are those of
the two functions between which another thread can run.  Sockets are numbers
that the system hands out again once they are closed; each socket that is
opened counts as a new connection.
-/

namespace Neroshop.Tor

open Neroshop.Foundation

/-- A thread that owns a client which is not in `tor_peers` yet. -/
inductive Owner where
  | runTor
  | sendQuery (caller : Nat)
  deriving DecidableEq, Repr

/-- `run_tor` holding the lock: the peers it has been to and `peers_to_remove`. -/
structure Round where
  visited : List String
  peersToRemove : List String

structure State where
  sockets : Nat → Option Nat
  torPeers : String → Option Nat
  /-- A peer without an entry has the empty buffer. -/
  clientBuffers : String → List UInt8
  /-- Clients outside `tor_peers`, with the peer they are for. -/
  clients : Owner → Option (String × Nat)
  /-- Present while `run_tor` holds the lock over its peers. -/
  round : Option Round
  connections : Nat
  received : Nat → List UInt8
  /-- The frames dispatched when bytes of the connection were read. -/
  dispatched : Nat → List Frame

namespace State

def start : State :=
  ⟨fun _ => none, fun _ => none, fun _ => [], fun _ => none, none, 0,
    fun _ => [], fun _ => []⟩

def peersToRemove (state : State) : List String :=
  match state.round with
  | some round => round.peersToRemove
  | none => []

def closeSocket (state : State) (fd : Nat) : State :=
  { state with sockets := Function.update state.sockets fd none }

/-- A new connection on an unused socket, held by one thread. -/
def openClient (state : State) (owner : Owner) (peer : String) (fd : Nat) :
    State :=
  { state with
    sockets := Function.update state.sockets fd (some state.connections)
    clients := Function.update state.clients owner (some (peer, fd))
    connections := state.connections + 1 }

def releaseClient (state : State) (owner : Owner) : State :=
  { state with clients := Function.update state.clients owner none }

def destroyClient (state : State) (peer : String) : State :=
  match state.torPeers peer with
  | some fd => state.closeSocket fd
  | none => state

def erasePeer (state : State) (peer : String) : State :=
  { state.destroyClient peer with
    torPeers := Function.update state.torPeers peer none }

/-- `tor_peers[peer] = std::move(client)`. -/
def assignPeer (state : State) (peer : String) (fd : Nat) : State :=
  { state.destroyClient peer with
    torPeers := Function.update state.torPeers peer (some fd) }

/-- `client_buffers.erase(peer)`, and the assignment of an empty buffer. -/
def clearBuffer (state : State) (peer : String) : State :=
  { state with clientBuffers := Function.update state.clientBuffers peer [] }

def removePeer (state : State) (peer : String) : State :=
  (state.erasePeer peer).clearBuffer peer

end State

def incomingPeer (fd : Nat) : String := "incoming_" ++ toString fd

inductive Event where
  | accept (fd : Nat)
  /-- `run_tor` puts an accepted connection into the map. -/
  | insertIncoming
  /-- `send_query` opens a socket to the destination. -/
  | connect (caller : Nat) (destination : String) (fd : Nat)
  /-- Connecting or sending has failed and the client is destroyed. -/
  | abandon (caller : Nat)
  /-- `send_query` puts its client into the map. -/
  | insertOutgoing (caller : Nat)
  /-- Sending over a connection in the map has failed: `send_query` erases it. -/
  | erase (destination : String)
  | lock
  /-- `recv` on the socket of a peer, and the frame loop over its buffer. -/
  | receive (peer : String) (chunk : RecvChunk)
  /-- `recv` reports the end of the connection or an error. -/
  | hangUp (peer : String)
  /-- The peers to remove are removed and the lock is released. -/
  | unlock

def openStep (state : State) (owner : Owner) (peer : String) (fd : Nat) :
    Option State :=
  if state.sockets fd = none ∧ state.clients owner = none
  then some (state.openClient owner peer fd) else none

def receiveStep (state : State) (round : Round) (peer : String)
    (chunk : RecvChunk) : Option State := do
  let fd ← state.torPeers peer
  let connection ← state.sockets fd
  match drain takeFrame (state.clientBuffers peer ++ chunk.bytes) with
  | .settled frames rest =>
      some { state with
        clientBuffers := Function.update state.clientBuffers peer rest
        round := some { round with visited := peer :: round.visited }
        received := Function.update state.received connection
          (state.received connection ++ chunk.bytes)
        dispatched := Function.update state.dispatched connection
          (state.dispatched connection ++ frames) }
  -- behind an access outside the buffer the run is not defined
  | _ => none

def hangUpStep (state : State) (round : Round) (peer : String) :
    Option State := do
  let fd ← state.torPeers peer
  some { state.closeSocket fd with
    round := some ⟨peer :: round.visited, round.peersToRemove ++ [peer]⟩ }

def step (state : State) : Event → Option State
  | .accept fd => openStep state .runTor (incomingPeer fd) fd
  | .connect caller destination fd =>
      openStep state (.sendQuery caller) destination fd
  | .abandon caller => do
      let (_, fd) ← state.clients (.sendQuery caller)
      some ((state.releaseClient (.sendQuery caller)).closeSocket fd)
  | .insertIncoming =>
      match state.round, state.clients .runTor with
      | none, some (peer, fd) =>
          some (((state.releaseClient .runTor).assignPeer peer fd).clearBuffer
            peer)
      | _, _ => none
  | .insertOutgoing caller =>
      match state.round, state.clients (.sendQuery caller) with
      | none, some (peer, fd) =>
          some ((state.releaseClient (.sendQuery caller)).assignPeer peer fd)
      | _, _ => none
  | .erase destination =>
      match state.round, state.torPeers destination with
      | none, some _ => some (state.erasePeer destination)
      | _, _ => none
  | .lock =>
      match state.round with
      | none => some { state with round := some ⟨[], []⟩ }
      | some _ => none
  | .receive peer chunk =>
      match state.round with
      | some round =>
          if peer ∈ round.visited then none
          else receiveStep state round peer chunk
      | none => none
  | .hangUp peer =>
      match state.round with
      | some round =>
          if peer ∈ round.visited then none else hangUpStep state round peer
      | none => none
  | .unlock =>
      match state.round with
      | some round =>
          some { round.peersToRemove.foldl State.removePeer state with
            round := none }
      | none => none

/--
The step reuses nothing that is left of another connection: a connection goes
into the map over an empty buffer only, and no socket is opened under a number
that `run_tor` has closed and is about to close again.
-/
def Undisturbed (state : State) : Event → Prop
  | .insertOutgoing caller => ∀ peer fd,
      state.clients (.sendQuery caller) = some (peer, fd) →
        state.clientBuffers peer = []
  | .accept fd => ∀ peer ∈ state.peersToRemove, state.torPeers peer ≠ some fd
  | .connect _ _ fd =>
      ∀ peer ∈ state.peersToRemove, state.torPeers peer ≠ some fd
  | _ => True

/-- The frames dispatched for a connection are those of its own bytes. -/
def OwnFrames (state : State) (connection : Nat) (rest : List UInt8) : Prop :=
  drain takeFrame (state.received connection) =
    .settled (state.dispatched connection) rest

/--
The invariant.  The peers to remove are a parameter, since removing them one by
one passes through states in which some are left.
-/
structure Separate (peersToRemove : List String) (state : State) : Prop where
  peersDistinct : ∀ first second fd, state.torPeers first = some fd →
    state.torPeers second = some fd → first = second
  clientsDistinct : ∀ first second firstPeer secondPeer fd,
    state.clients first = some (firstPeer, fd) →
    state.clients second = some (secondPeer, fd) → first = second
  apart : ∀ peer owner destination fd, state.torPeers peer = some fd →
    state.clients owner ≠ some (destination, fd)
  socketsDistinct : ∀ first second connection,
    state.sockets first = some connection →
    state.sockets second = some connection → first = second
  opened : ∀ fd connection, state.sockets fd = some connection →
    connection < state.connections
  /-- The buffer of a peer holds what is left of its connection. -/
  peers : ∀ peer fd, state.torPeers peer = some fd → peer ∉ peersToRemove →
    ∃ connection, state.sockets fd = some connection ∧
      OwnFrames state connection (state.clientBuffers peer)
  /-- Nothing has been read from a connection outside the map. -/
  clients : ∀ owner peer fd, state.clients owner = some (peer, fd) →
    ∃ connection, state.sockets fd = some connection ∧
      OwnFrames state connection []
  unopened : ∀ connection, state.connections ≤ connection →
    OwnFrames state connection []
  own : ∀ connection, ∃ rest, OwnFrames state connection rest

/-! ## What each change of the state preserves -/

section Changes

variable {state : State} {peersToRemove : List String} {peer : String}
  {owner : Owner} {fd connection : Nat}

theorem Separate.setRound (h : Separate peersToRemove state)
    (round : Option Round) :
    Separate peersToRemove { state with round := round } := { h with }

theorem Separate.weaken (h : Separate peersToRemove state) (peer : String) :
    Separate (peer :: peersToRemove) state :=
  { h with
    peers := fun other fd hother hnot =>
      h.peers other fd hother fun hmem => hnot (List.mem_cons_of_mem _ hmem) }

theorem Separate.openClient (h : Separate peersToRemove state)
    (hclosed : state.sockets fd = none)
    (hremoved : ∀ peer ∈ peersToRemove, state.torPeers peer ≠ some fd) :
    Separate peersToRemove (state.openClient owner peer fd) := by
  have hpeers (other) : state.torPeers other ≠ some fd := by
    intro hother
    by_cases hmem : other ∈ peersToRemove
    · exact hremoved other hmem hother
    · obtain ⟨connection, hopen, -⟩ := h.peers other fd hother hmem
      rw [hclosed] at hopen
      cases hopen
  have hclients (other destination) :
      state.clients other ≠ some (destination, fd) := by
    intro hother
    obtain ⟨connection, hopen, -⟩ := h.clients other destination fd hother
    rw [hclosed] at hopen
    cases hopen
  have hsockets (other connection) (hother : other ≠ fd)
      (hopen : state.sockets other = some connection) :
      (state.openClient owner peer fd).sockets other = some connection := by
    simpa [State.openClient, hother] using hopen
  constructor
  · exact h.peersDistinct
  · intro first second firstPeer secondPeer socket hfirst hsecond
    simp only [State.openClient, Function.update_apply] at hfirst hsecond
    split at hfirst <;> split at hsecond
    · simp_all
    · cases hfirst
      exact absurd hsecond (hclients second secondPeer)
    · cases hsecond
      exact absurd hfirst (hclients first firstPeer)
    · exact h.clientsDistinct _ _ _ _ _ hfirst hsecond
  · intro other holder destination socket hother hholder
    simp only [State.openClient, Function.update_apply] at hholder
    split at hholder
    · cases hholder
      exact hpeers other hother
    · exact h.apart _ _ _ _ hother hholder
  · intro first second connection hfirst hsecond
    simp only [State.openClient, Function.update_apply] at hfirst hsecond
    split at hfirst <;> split at hsecond
    · simp_all
    · cases hfirst
      exact absurd (h.opened _ _ hsecond) (lt_irrefl _)
    · cases hsecond
      exact absurd (h.opened _ _ hfirst) (lt_irrefl _)
    · exact h.socketsDistinct _ _ _ hfirst hsecond
  · intro socket connection hopen
    simp only [State.openClient, Function.update_apply] at hopen ⊢
    split at hopen
    · cases hopen
      exact Nat.lt_succ_self _
    · exact Nat.lt_succ_of_lt (h.opened _ _ hopen)
  · intro other socket hother hnot
    obtain ⟨connection, hopen, hown⟩ := h.peers other socket hother hnot
    refine ⟨connection, hsockets _ _ ?_ hopen, hown⟩
    rintro rfl
    exact hpeers other hother
  · intro holder destination socket hholder
    simp only [State.openClient, Function.update_apply] at hholder
    split at hholder
    · cases hholder
      exact ⟨state.connections, by simp [State.openClient],
        h.unopened _ le_rfl⟩
    · obtain ⟨connection, hopen, hown⟩ := h.clients _ _ _ hholder
      refine ⟨connection, hsockets _ _ ?_ hopen, hown⟩
      rintro rfl
      exact hclients _ _ hholder
  · exact fun connection hle => h.unopened connection (Nat.le_of_succ_le hle)
  · exact h.own

theorem Separate.releaseClient (h : Separate peersToRemove state)
    (owner : Owner) : Separate peersToRemove (state.releaseClient owner) := by
  have hclients (other destination fd)
      (hother : (state.releaseClient owner).clients other =
        some (destination, fd)) :
      state.clients other = some (destination, fd) := by
    simp only [State.releaseClient, Function.update_apply] at hother
    split at hother
    · cases hother
    · exact hother
  exact
    { h with
      clientsDistinct := fun first second firstPeer secondPeer fd hfirst hsecond =>
        h.clientsDistinct first second firstPeer secondPeer fd
          (hclients _ _ _ hfirst) (hclients _ _ _ hsecond)
      apart := fun peer other destination fd hpeer hother =>
        h.apart peer other destination fd hpeer (hclients _ _ _ hother)
      clients := fun other destination fd hother =>
        h.clients other destination fd (hclients _ _ _ hother) }

theorem Separate.closeSocket (h : Separate peersToRemove state)
    (hpeers : ∀ other, state.torPeers other = some fd → other ∈ peersToRemove)
    (hclients : ∀ other destination,
      state.clients other ≠ some (destination, fd)) :
    Separate peersToRemove (state.closeSocket fd) := by
  have hsockets (other connection)
      (hopen : (state.closeSocket fd).sockets other = some connection) :
      state.sockets other = some connection := by
    simp only [State.closeSocket, Function.update_apply] at hopen
    split at hopen
    · cases hopen
    · exact hopen
  have hkept (other) (hother : other ≠ fd) :
      (state.closeSocket fd).sockets other = state.sockets other := by
    simp [State.closeSocket, hother]
  refine
    { h with
      socketsDistinct := fun first second connection hfirst hsecond =>
        h.socketsDistinct first second connection (hsockets _ _ hfirst)
          (hsockets _ _ hsecond)
      opened := fun fd connection hopen => h.opened fd connection
        (hsockets _ _ hopen)
      peers := ?_
      clients := ?_ }
  · intro other socket hother hnot
    rw [hkept socket (by rintro rfl; exact hnot (hpeers other hother))]
    exact h.peers other socket hother hnot
  · intro other destination socket hother
    rw [hkept socket (by rintro rfl; exact hclients other destination hother)]
    exact h.clients other destination socket hother

theorem Separate.erasePeer (h : Separate (peer :: peersToRemove) state) :
    Separate peersToRemove (state.erasePeer peer) := by
  have hentry (other fd)
      (hother : (state.erasePeer peer).torPeers other = some fd) :
      other ≠ peer ∧ state.torPeers other = some fd := by
    simp only [State.erasePeer, Function.update_apply] at hother
    split at hother
    · cases hother
    · next hne => exact ⟨hne, hother⟩
  have hdestroyed : Separate (peer :: peersToRemove)
      (state.destroyClient peer) := by
    rw [State.destroyClient]
    cases hpeer : state.torPeers peer with
    | none => exact h
    | some fd =>
        refine h.closeSocket (fun other hother => ?_) (fun other destination => ?_)
        · rw [h.peersDistinct other peer fd hother hpeer]
          exact List.mem_cons_self ..
        · exact h.apart peer other destination fd hpeer
  have hsame : (state.destroyClient peer).torPeers = state.torPeers := by
    rw [State.destroyClient]
    split <;> rfl
  refine
    { hdestroyed with
      peersDistinct := ?_
      apart := ?_
      peers := ?_ }
  · intro first second fd hfirst hsecond
    exact h.peersDistinct first second fd (hentry _ _ hfirst).2
      (hentry _ _ hsecond).2
  · intro other holder destination fd hother
    exact hdestroyed.apart other holder destination fd
      (by rw [hsame]; exact (hentry _ _ hother).2)
  · intro other fd hother hnot
    obtain ⟨hne, hold⟩ := hentry _ _ hother
    refine hdestroyed.peers other fd (by rw [hsame]; exact hold) fun hmem => ?_
    rcases List.mem_cons.mp hmem with heq | hmem
    · exact hne heq
    · exact hnot hmem

theorem Separate.clearBuffer (h : Separate (peer :: peersToRemove) state) :
    Separate (peer :: peersToRemove) (state.clearBuffer peer) :=
  { h with
    peers := fun other fd hother hnot => by
      have hne : other ≠ peer := fun heq =>
        hnot (heq ▸ List.mem_cons_self ..)
      obtain ⟨connection, hopen, hown⟩ := h.peers other fd hother hnot
      refine ⟨connection, hopen, ?_⟩
      simpa [State.clearBuffer, OwnFrames, hne] using hown }

theorem Separate.removePeer (h : Separate (peer :: peersToRemove) state) :
    Separate peersToRemove (state.removePeer peer) := by
  have hcommute : state.removePeer peer =
      (state.clearBuffer peer).erasePeer peer := by
    simp only [State.removePeer, State.erasePeer, State.destroyClient,
      State.clearBuffer]
    split <;> rfl
  rw [hcommute]
  exact h.clearBuffer.erasePeer

theorem Separate.removePeers {peers : List String} (h : Separate peers state) :
    Separate [] (peers.foldl State.removePeer state) := by
  induction peers generalizing state with
  | nil => exact h
  | cons peer peers ih => exact ih h.removePeer

theorem Separate.enter (h : Separate peersToRemove state) (connection : Nat)
    (hpeers : ∀ other, other ≠ peer → state.torPeers other ≠ some fd)
    (hclients : ∀ other destination,
      state.clients other ≠ some (destination, fd))
    (hopen : state.sockets fd = some connection)
    (hown : OwnFrames state connection (state.clientBuffers peer)) :
    Separate peersToRemove { state with
      torPeers := Function.update state.torPeers peer (some fd) } := by
  refine { h with peersDistinct := ?_, apart := ?_, peers := ?_ }
  · intro first second socket hfirst hsecond
    simp only [Function.update_apply] at hfirst hsecond
    split at hfirst <;> split at hsecond
    · simp_all
    · next hne =>
        cases hfirst
        exact absurd hsecond (hpeers second hne)
    · next hne _ =>
        cases hsecond
        exact absurd hfirst (hpeers first hne)
    · exact h.peersDistinct first second socket hfirst hsecond
  · intro other holder destination socket hother
    simp only [Function.update_apply] at hother
    split at hother
    · cases hother
      exact hclients holder destination
    · exact h.apart other holder destination socket hother
  · intro other socket hother hnot
    simp only [Function.update_apply] at hother
    split at hother
    · next heq =>
        cases hother
        exact ⟨connection, hopen, heq ▸ hown⟩
    · exact h.peers other socket hother hnot

theorem Separate.assignPeer (h : Separate (peer :: peersToRemove) state)
    (hclient : state.clients owner = some (peer, fd))
    (hbuffer : state.clientBuffers peer = []) :
    Separate peersToRemove
      ((state.releaseClient owner).assignPeer peer fd) := by
  obtain ⟨connection, hopen, hown⟩ := h.clients owner peer fd hclient
  have hbase := (h.releaseClient owner).erasePeer
  have hassign : (state.releaseClient owner).assignPeer peer fd =
      { (state.releaseClient owner).erasePeer peer with
        torPeers := Function.update
          ((state.releaseClient owner).erasePeer peer).torPeers peer
          (some fd) } := by
    simp only [State.assignPeer, State.erasePeer, Function.update_idem]
  have hpeers (other) : state.torPeers other ≠ some fd := fun hother =>
    h.apart other owner peer fd hother hclient
  rw [hassign]
  refine hbase.enter connection ?_ ?_ ?_ ?_
  · intro other hne
    simpa [State.erasePeer, hne, State.releaseClient] using hpeers other
  · intro other destination hother
    have hother' : (state.releaseClient owner).clients other =
        some (destination, fd) := by
      simp only [State.erasePeer, State.destroyClient] at hother
      split at hother <;> exact hother
    simp only [State.releaseClient, Function.update_apply] at hother'
    split at hother'
    · cases hother'
    · next hne => exact hne (h.clientsDistinct _ _ _ _ _ hother' hclient)
  · simp only [State.erasePeer, State.destroyClient]
    split
    · next old hold =>
        have hne : fd ≠ old := by
          rintro rfl
          exact hpeers peer hold
        simpa [State.closeSocket, State.releaseClient, hne] using hopen
    · exact hopen
  · have hsame : OwnFrames ((state.releaseClient owner).erasePeer peer)
          connection
          (((state.releaseClient owner).erasePeer peer).clientBuffers peer) =
        OwnFrames state connection (state.clientBuffers peer) := by
      simp only [State.erasePeer, State.destroyClient]
      split <;> rfl
    rw [hsame, hbuffer]
    exact hown

theorem Separate.receive (h : Separate peersToRemove state)
    (hpeer : state.torPeers peer = some fd) (hnot : peer ∉ peersToRemove)
    (hopen : state.sockets fd = some connection) {chunk rest : List UInt8}
    {frames : List Frame}
    (hdrain : drain takeFrame (state.clientBuffers peer ++ chunk) =
      .settled frames rest) :
    Separate peersToRemove { state with
      clientBuffers := Function.update state.clientBuffers peer rest
      received := Function.update state.received connection
        (state.received connection ++ chunk)
      dispatched := Function.update state.dispatched connection
        (state.dispatched connection ++ frames) } := by
  obtain ⟨connection', hopen', hown⟩ := h.peers peer fd hpeer hnot
  have hsame : connection' = connection :=
    Option.some.inj (hopen'.symm.trans hopen)
  subst hsame
  have hread : drain takeFrame (state.received connection' ++ chunk) =
      .settled (state.dispatched connection' ++ frames) rest := by
    rw [drain_append takeFrame_progressive takeFrame_extensible hown, hdrain]
    rfl
  have hother (other rest') (hne : other ≠ connection')
      (hold : OwnFrames state other rest') :
      OwnFrames { state with
        clientBuffers := Function.update state.clientBuffers peer rest
        received := Function.update state.received connection'
          (state.received connection' ++ chunk)
        dispatched := Function.update state.dispatched connection'
          (state.dispatched connection' ++ frames) } other rest' := by
    simpa [OwnFrames, hne] using hold
  refine { h with peers := ?_, clients := ?_, unopened := ?_, own := ?_ }
  · intro other socket hentry hmem
    obtain ⟨found, hfound, hfoundOwn⟩ := h.peers other socket hentry hmem
    refine ⟨found, hfound, ?_⟩
    by_cases heq : other = peer
    · subst heq
      have hsocket : socket = fd := Option.some.inj (hentry.symm.trans hpeer)
      subst hsocket
      have hconnection : found = connection' :=
        Option.some.inj (hfound.symm.trans hopen)
      subst hconnection
      simpa [OwnFrames] using hread
    · have hne : found ≠ connection' := by
        rintro rfl
        have hsocket := h.socketsDistinct _ _ _ hfound hopen
        subst hsocket
        exact heq (h.peersDistinct _ _ _ hentry hpeer)
      simpa [heq] using hother found _ hne hfoundOwn
  · intro owner destination socket hclient
    obtain ⟨found, hfound, hfoundOwn⟩ := h.clients _ _ _ hclient
    refine ⟨found, hfound, hother found [] ?_ hfoundOwn⟩
    rintro rfl
    have hsocket := h.socketsDistinct _ _ _ hfound hopen
    subst hsocket
    exact h.apart _ _ _ _ hpeer hclient
  · intro other hle
    refine hother other [] ?_ (h.unopened other hle)
    rintro rfl
    exact absurd (h.opened _ _ hopen) (not_lt.mpr hle)
  · intro other
    by_cases heq : other = connection'
    · subst heq
      exact ⟨rest, by simpa [OwnFrames] using hread⟩
    · obtain ⟨rest', hold⟩ := h.own other
      exact ⟨rest', hother other rest' heq hold⟩

end Changes

/-! ## Runs -/

def RoundOk (state : State) : Prop :=
  ∀ round, state.round = some round →
    ∀ peer ∈ round.peersToRemove, peer ∈ round.visited

structure Invariant (state : State) : Prop where
  separate : Separate state.peersToRemove state
  round : RoundOk state

theorem invariant_start : Invariant State.start where
  separate :=
    { peersDistinct := by simp [State.start]
      clientsDistinct := by simp [State.start]
      apart := by simp [State.start]
      socketsDistinct := by simp [State.start]
      opened := by simp [State.start]
      peers := by simp [State.start]
      clients := by simp [State.start]
      unopened := fun _ _ => rfl
      own := fun _ => ⟨[], rfl⟩ }
  round := by simp [RoundOk, State.start]

section Steps

variable {state next : State} {peer : String} {owner : Owner} {fd : Nat}

@[simp] theorem destroyClient_round :
    (state.destroyClient peer).round = state.round := by
  unfold State.destroyClient
  split <;> rfl

@[simp] theorem erasePeer_round :
    (state.erasePeer peer).round = state.round := destroyClient_round

@[simp] theorem assignPeer_round :
    (state.assignPeer peer fd).round = state.round := destroyClient_round

theorem Invariant.of_round_eq (h : Invariant state)
    (hround : next.round = state.round)
    (hseparate : Separate state.peersToRemove next) : Invariant next where
  separate := by
    rw [State.peersToRemove, hround]
    exact hseparate
  round := by
    rw [RoundOk, hround]
    exact h.round

theorem peersToRemove_of_none (h : state.round = none) :
    state.peersToRemove = [] := by
  rw [State.peersToRemove, h]

theorem Invariant.openStep (h : Invariant state)
    (hmeets : ∀ peer ∈ state.peersToRemove, state.torPeers peer ≠ some fd)
    (hstep : openStep state owner peer fd = some next) : Invariant next := by
  rw [Tor.openStep] at hstep
  split at hstep
  · next hfree =>
      cases hstep
      exact h.of_round_eq rfl (h.separate.openClient hfree.1 hmeets)
  · cases hstep

theorem Invariant.abandon (h : Invariant state)
    (hclient : state.clients owner = some (peer, fd)) :
    Invariant ((state.releaseClient owner).closeSocket fd) := by
  refine h.of_round_eq rfl ((h.separate.releaseClient owner).closeSocket ?_ ?_)
  · intro other hother
    exact absurd hclient (h.separate.apart other owner peer fd hother)
  · intro other destination hother
    simp only [State.releaseClient, Function.update_apply] at hother
    split at hother
    · cases hother
    · next hne =>
        exact hne (h.separate.clientsDistinct _ _ _ _ _ hother hclient)

theorem Invariant.insert (h : Invariant state)
    (hclient : state.clients owner = some (peer, fd))
    (hbuffer : state.clientBuffers peer = []) :
    Invariant ((state.releaseClient owner).assignPeer peer fd) :=
  h.of_round_eq assignPeer_round
    ((h.separate.weaken peer).assignPeer hclient hbuffer)

theorem Invariant.insertIncoming (h : Invariant state)
    (hclient : state.clients owner = some (peer, fd)) :
    Invariant
      (((state.releaseClient owner).assignPeer peer fd).clearBuffer peer) := by
  have hcommute :
      ((state.releaseClient owner).assignPeer peer fd).clearBuffer peer =
        ((state.clearBuffer peer).releaseClient owner).assignPeer peer fd := by
    simp only [State.assignPeer, State.destroyClient, State.clearBuffer,
      State.releaseClient]
    split <;> rfl
  rw [hcommute]
  refine h.of_round_eq (by simp [State.releaseClient, State.clearBuffer]) ?_
  exact (h.separate.weaken peer).clearBuffer.assignPeer hclient
    (by simp [State.clearBuffer])

theorem Invariant.receive {round : Round} {chunk : RecvChunk}
    (h : Invariant state) (hround : state.round = some round)
    (hvisited : peer ∉ round.visited)
    (hstep : receiveStep state round peer chunk = some next) :
    Invariant next := by
  simp only [receiveStep, bind, Option.bind_eq_some_iff] at hstep
  obtain ⟨fd, hpeer, connection, hopen, hstep⟩ := hstep
  have hremove : state.peersToRemove = round.peersToRemove := by
    rw [State.peersToRemove, hround]
  have hnot : peer ∉ state.peersToRemove := fun hmem =>
    hvisited (h.round round hround peer (hremove ▸ hmem))
  split at hstep
  · next frames rest hdrain =>
      cases hstep
      refine ⟨?_, ?_⟩
      · exact hremove ▸
          (h.separate.receive hpeer hnot hopen hdrain).setRound _
      · intro found hfound other hmem
        cases hfound
        exact List.mem_cons_of_mem _ (h.round round hround other hmem)
  · cases hstep

theorem Invariant.hangUp {round : Round} (h : Invariant state)
    (hround : state.round = some round)
    (hstep : hangUpStep state round peer = some next) : Invariant next := by
  simp only [hangUpStep, bind, Option.bind_eq_some_iff] at hstep
  obtain ⟨fd, hpeer, hstep⟩ := hstep
  cases hstep
  have hremove : state.peersToRemove = round.peersToRemove := by
    rw [State.peersToRemove, hround]
  have hmore : Separate (round.peersToRemove ++ [peer]) state :=
    { h.separate with
      peers := fun other socket hother hnot =>
        h.separate.peers other socket hother fun hmem =>
          hnot (List.mem_append_left _ (hremove ▸ hmem)) }
  refine ⟨Separate.setRound ?_ _, ?_⟩
  · refine hmore.closeSocket (fun other hother => ?_)
      (h.separate.apart peer · · fd hpeer)
    rw [h.separate.peersDistinct other peer fd hother hpeer]
    simp
  · intro found hfound other hmem
    cases hfound
    rcases List.mem_append.mp hmem with hmem | hmem
    · exact List.mem_cons_of_mem _ (h.round round hround other hmem)
    · rw [List.mem_singleton.mp hmem]
      exact List.mem_cons_self ..

/-- The step rule: an undisturbed step keeps connections separate. -/
theorem invariant_step (event : Event) (h : Invariant state)
    (hmeets : Undisturbed state event) (hstep : step state event = some next) :
    Invariant next := by
  cases event with
  | accept fd => exact h.openStep hmeets hstep
  | connect caller destination fd => exact h.openStep hmeets hstep
  | abandon caller =>
      simp only [step, bind, Option.bind_eq_some_iff] at hstep
      obtain ⟨⟨peer, fd⟩, hclient, hstep⟩ := hstep
      cases hstep
      exact h.abandon hclient
  | insertIncoming =>
      simp only [step] at hstep
      split at hstep
      · next hclient =>
          cases hstep
          exact h.insertIncoming hclient
      · cases hstep
  | insertOutgoing caller =>
      simp only [step] at hstep
      split at hstep
      · next hclient =>
          cases hstep
          exact h.insert hclient (hmeets _ _ hclient)
      · cases hstep
  | erase destination =>
      simp only [step] at hstep
      split at hstep
      · cases hstep
        exact h.of_round_eq erasePeer_round
          (h.separate.weaken destination).erasePeer
      · cases hstep
  | lock =>
      simp only [step] at hstep
      split at hstep
      · next hround =>
          cases hstep
          refine ⟨?_, ?_⟩
          · have hseparate := h.separate
            rw [peersToRemove_of_none hround] at hseparate
            exact hseparate.setRound _
          · intro found hfound
            cases hfound
            simp
      · cases hstep
  | receive peer chunk =>
      simp only [step] at hstep
      split at hstep
      · next round hround =>
          split at hstep
          · cases hstep
          · next hvisited => exact h.receive hround hvisited hstep
      · cases hstep
  | hangUp peer =>
      simp only [step] at hstep
      split at hstep
      · next round hround =>
          split at hstep
          · cases hstep
          · exact h.hangUp hround hstep
      · cases hstep
  | unlock =>
      simp only [step] at hstep
      split at hstep
      · next round hround =>
          cases hstep
          have hseparate := h.separate
          rw [State.peersToRemove, hround] at hseparate
          refine ⟨hseparate.removePeers.setRound none, ?_⟩
          intro found hfound
          cases hfound
      · cases hstep

/--
In every run whose steps are undisturbed, the frames dispatched for a
connection are the complete frames of the bytes read from that connection, in
order, and nothing else.
-/
theorem connections_separate {final : State} {events : List Event}
    (hmeets : AllMeet step Undisturbed State.start events)
    (hrun : runFrom step State.start events = some final) (connection : Nat) :
    ∃ rest, drain takeFrame (final.received connection) =
      .settled (final.dispatched connection) rest :=
  (runFrom_invariant Invariant
    (fun _ event _ h hmeets hstep => invariant_step event h hmeets hstep)
    hmeets hrun invariant_start).separate.own connection

end Steps

/-! ## A new connection read behind what an old one left -/

def destination : String :=
  "duckduckgogg42xjoc72x3sjasowoarfbgcmvfimaftt6twagswzczad.onion"

def wholeChunk : RecvChunk :=
  ⟨[0, 0, 0, 58] ++ List.replicate 56 97 ++ [0, 80], by simp, by simp⟩

/-- The length prefix of a frame that never arrives. -/
def cutChunk : RecvChunk := ⟨[0, 0, 0, 100], by simp, by simp⟩

def wholeFrame : Frame := ⟨List.replicate 56 97 ++ onionSuffix, 80, []⟩

/-- `send_query` replaces a connection that has broken off inside a frame. -/
def reconnectRun : List Event :=
  [.connect 0 destination 5, .insertOutgoing 0, .lock,
    .receive destination cutChunk, .unlock, .erase destination,
    .connect 0 destination 5, .insertOutgoing 0, .lock,
    .receive destination wholeChunk, .unlock]

/-- The frame that arrives whole on the new connection is not dispatched. -/
theorem reconnect_mixes :
    (runFrom step State.start reconnectRun).map
        (fun state => (state.received 1, state.dispatched 1)) =
      some (wholeChunk.bytes, []) ∧
    drain takeFrame wholeChunk.bytes = .settled [wholeFrame] [] := by
  decide

def connectRun : List Event :=
  [.connect 0 destination 5, .insertOutgoing 0, .lock,
    .receive destination wholeChunk]

def connectedState : State :=
  (runFrom step State.start connectRun).getD State.start

theorem runFrom_connectRun :
    runFrom step State.start connectRun = some connectedState := by
  have hsome : (runFrom step State.start connectRun).isSome = true := by
    decide
  exact (Option.getD_of_ne_none (Option.isSome_iff_ne_none.mp hsome) _).symm

theorem undisturbed_connectRun :
    AllMeet step Undisturbed State.start connectRun := by
  refine ⟨by simp [Undisturbed, State.peersToRemove, State.start],
    fun opened hopened => ⟨?_, fun inserted _ => ⟨trivial, fun locked _ =>
      ⟨trivial, fun _ _ => trivial⟩⟩⟩⟩
  have hstep : step State.start (.connect 0 destination 5) =
      some (State.start.openClient (.sendQuery 0) destination 5) := rfl
  rw [hstep, Option.some.injEq] at hopened
  subst hopened
  exact fun peer fd _ => rfl

theorem connections_separate_connectRun :
    ∃ rest, drain takeFrame (connectedState.received 0) =
      .settled (connectedState.dispatched 0) rest :=
  connections_separate undisturbed_connectRun runFrom_connectRun 0

end Neroshop.Tor
