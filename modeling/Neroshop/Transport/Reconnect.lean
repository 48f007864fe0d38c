import Neroshop.Foundation.Transition
import Neroshop.Transport.TcpInterface

/-!
# Connecting again

`loop` closes a connection over which nothing has come for too long, and tries
to connect again after an interval.  The time of the last frame outlives the
connection that the frame came over, so the rule that closes a silent
connection counts the time that has gone by before the present one was there.
-/

namespace Neroshop.Transport

open Neroshop.Foundation

/-- `TCP_CONNECT_TIMEOUT_MS`. -/
def tcpConnectTimeoutMs : Int := 5000

/-- `TCP_RECONNECT_INTERVAL_MS`. -/
def tcpReconnectIntervalMs : Int := 5000

inductive ConnectState where
  | idle
  | connecting
  | connected
  | failed
  deriving DecidableEq

/-- What has happened on the present connection, which the interface itself
does not note. -/
structure Connection where
  established : Int
  lastFrame : Option Int
  /-- `recv` has been called. -/
  wasRead : Bool
  deriving DecidableEq

structure TcpLink where
  online : Bool
  socket : Int
  connectState : ConnectState
  lastAttempt : Int
  lastRxTime : Int
  decoder : Decoder
  /-- The last reading of the steady clock. -/
  clock : Int
  connection : Option Connection
  /-- A connection has been closed by the rule or by the peer. -/
  wasClosed : Bool
  deriving DecidableEq

/-- What `getaddrinfo`, `socket` and `connect` come to. -/
inductive ConnectResult where
  | unresolved
  | noSocket
  | connected (socket : Nat)
  | inProgress (socket : Nat)
  | refused
  deriving DecidableEq

/-- How long it takes to the reading of the clock, and then to the result. -/
structure Attempt where
  elapsed : Nat
  result : ConnectResult
  settled : Nat
  deriving DecidableEq

inductive PollResult where
  | pending
  | refused
  | connected
  deriving DecidableEq

structure Poll where
  elapsed : Nat
  result : PollResult
  settled : Nat
  deriving DecidableEq

namespace TcpLink

/-- An interface as it is constructed. -/
def init (clock : Int) : TcpLink :=
  ⟨false, -1, .idle, 0, 0, .cleared, clock, none, false⟩

/-- `now_ms`, when some time has gone by. -/
def tick (link : TcpLink) (elapsed : Nat) : TcpLink :=
  { link with clock := link.clock + elapsed }

def establish (link : TcpLink) : TcpLink :=
  { link with
    connectState := .connected
    connection := some ⟨link.clock, none, false⟩ }

def beginConnect (link : TcpLink) (attempt : Attempt) : TcpLink :=
  let link := link.tick attempt.elapsed
  let link := { link with
    lastAttempt := link.clock
    connectState := .connecting
    connection := none }
  match attempt.result with
  | .unresolved => { link with connectState := .failed }
  | .noSocket => { link with socket := -1, connectState := .failed }
  | .connected socket =>
      ({ link with socket := socket }.tick attempt.settled).establish
  | .inProgress socket => { link with socket := socket }
  | .refused => { link with socket := -1, connectState := .failed }

/-- The interface after `pollConnect`, and whether that has an outcome. -/
def pollConnect (link : TcpLink) (poll : Poll) : TcpLink × Bool :=
  let link := link.tick poll.elapsed
  if tcpConnectTimeoutMs ≤ link.clock - link.lastAttempt then
    ({ link with socket := -1, connectState := .failed }, true)
  else
    match poll.result with
    | .pending => (link, false)
    | .refused => ({ link with socket := -1, connectState := .failed }, true)
    | .connected => ((link.tick poll.settled).establish, true)

def start (link : TcpLink) (attempt : Attempt) : TcpLink :=
  { link with online := true }.beginConnect attempt

def stop (link : TcpLink) : TcpLink :=
  { link with
    socket := -1
    connectState := .idle
    online := false
    connection := none }

/-- A connection without a socket has failed, and a failed one is left. -/
def settle (link : TcpLink) : TcpLink :=
  let link := if link.connectState = .connected ∧ link.socket < 0
    then { link with connectState := .failed } else link
  if link.connectState = .failed then { link with connectState := .idle }
  else link

structure LoopInput where
  poll : Poll
  elapsed : Nat
  attempt : Attempt
  deriving DecidableEq

/-- A connection is tried again when the interval has gone by. -/
def retry (link : TcpLink) (input : LoopInput) : TcpLink :=
  let link := link.tick input.elapsed
  if tcpReconnectIntervalMs ≤ link.clock - link.lastAttempt
  then link.beginConnect input.attempt else link

/-- `loop` as far as the connected state: what it leaves, and whether it goes
on from there. -/
def loop (link : TcpLink) (input : LoopInput) : TcpLink × Bool :=
  if !link.online then (link, false)
  else
    let (polled, resolved) :=
      if link.connectState = .connecting then link.pollConnect input.poll
      else (link, true)
    if !resolved then (polled, false)
    else if polled.settle.connectState = .idle then
      (polled.settle.retry input, false)
    else (polled.settle, true)

/-- The socket is closed, and the time of that taken for an attempt. -/
def disconnect (link : TcpLink) (elapsed : Nat) : TcpLink :=
  let link := link.tick elapsed
  { link with
    socket := -1
    decoder := .cleared
    connectState := .idle
    lastAttempt := link.clock
    connection := none
    wasClosed := true }

def noteRead (link : TcpLink) : TcpLink :=
  { link with connection := link.connection.map fun connection =>
      { connection with wasRead := true } }

def noteFrame (link : TcpLink) : TcpLink :=
  { link with
    lastRxTime := link.clock
    connection := link.connection.map fun connection =>
      { connection with lastFrame := some link.clock } }

/-- What `recv` gives, and the time until the clock is read next. -/
abbrev Read := Recv × Nat

/-- The drain loop; behind the last result `recv` has nothing yet. -/
def drain : TcpLink → List Read → TcpLink
  | link, [] => link.noteRead
  | link, (result, elapsed) :: reads =>
      let (decoder, len) := link.decoder.readFrame result
      let link := { link.noteRead with decoder := decoder }
      if 0 < len then drain (link.tick elapsed).noteFrame reads
      else if len < 0 then link.disconnect elapsed
      else link

structure ConnectedInput where
  elapsed : Nat
  closing : Nat
  reads : List Read
  deriving DecidableEq

/-- The rule for a silent connection. -/
def isSilent (link : TcpLink) : Bool :=
  0 < link.lastRxTime ∧ tcpKeepaliveTimeoutMs ≤ link.clock - link.lastRxTime

/-- The rest of `loop`, from the connected state on. -/
def connected (link : TcpLink) (input : ConnectedInput) : TcpLink :=
  let link := link.tick input.elapsed
  if link.isSilent then link.disconnect input.closing
  else link.drain input.reads

end TcpLink

/-! ## Runs -/

/-- A link, and whether a call of `loop` has come to the connected state. -/
structure LinkState where
  link : TcpLink
  inLoop : Bool
  deriving DecidableEq

inductive LinkEvent where
  | start (attempt : Attempt)
  | stop
  | loop (input : TcpLink.LoopInput)
  /-- The rest of the call. -/
  | connected (input : TcpLink.ConnectedInput)
  deriving DecidableEq

namespace LinkState

def init (clock : Int) : LinkState := ⟨.init clock, false⟩

def step (state : LinkState) : LinkEvent → Option LinkState
  | .start attempt =>
      if state.inLoop then none else some ⟨state.link.start attempt, false⟩
  | .stop => if state.inLoop then none else some ⟨state.link.stop, false⟩
  | .loop input =>
      if state.inLoop then none
      else some ⟨(state.link.loop input).1, (state.link.loop input).2⟩
  | .connected input =>
      if state.inLoop then some ⟨state.link.connected input, false⟩ else none

/-- The connection has been up for long enough, and no frame has come over it
for as long; behind a close it has been read from. -/
def Outlived (link : TcpLink) : Prop :=
  ∃ connection ∈ link.connection,
    tcpKeepaliveTimeoutMs ≤ link.clock - connection.established ∧
      (∀ frame ∈ connection.lastFrame,
        tcpKeepaliveTimeoutMs ≤ link.clock - frame) ∧
      (link.wasClosed = true → connection.wasRead = true)

/-- The rule closes only connections that have outlived the timeout. -/
def ClosesOutlived (state : LinkState) : LinkEvent → Prop
  | .connected input =>
      state.inLoop = true → (state.link.tick input.elapsed).isSilent = true →
        Outlived (state.link.tick input.elapsed)
  | _ => True

/--
There has been no frame yet, the last one is not old, it has come over the
present connection, or that is as old as the timeout and has been read from.
-/
def FrameIsOwn (state : LinkState) : LinkEvent → Prop
  | .connected input =>
      let link := state.link.tick input.elapsed
      state.inLoop = true →
        link.lastRxTime ≤ 0 ∨
          link.clock - link.lastRxTime < tcpKeepaliveTimeoutMs ∨
          ∃ connection ∈ link.connection,
            connection.lastFrame.isSome = true ∨
              tcpKeepaliveTimeoutMs ≤ link.clock - connection.established ∧
                (link.wasClosed = true → connection.wasRead = true)
  | _ => True

end LinkState

/-! ## What the interface knows of its connection -/

namespace TcpLink

/-- Where a connection is up its history is there, and the time of its last
frame is the one the interface has noted. -/
structure Tracked (link : TcpLink) : Prop where
  present : link.connectState = .connected → link.connection.isSome = true
  past : ∀ connection ∈ link.connection,
    connection.established ≤ link.clock ∧
      ∀ frame ∈ connection.lastFrame, frame = link.lastRxTime ∧
        connection.established ≤ frame ∧ connection.wasRead = true

variable {link : TcpLink}

theorem tracked_of_none (hstate : link.connectState ≠ .connected)
    (hnone : link.connection = none) : link.Tracked where
  present h := absurd h hstate
  past connection hmem := by
    rw [hnone] at hmem
    cases hmem

theorem tracked_establish : link.establish.Tracked where
  present _ := rfl
  past connection hmem := by
    cases hmem
    exact ⟨le_refl _, nofun⟩

theorem Tracked.tick (h : link.Tracked) (elapsed : Nat) :
    (link.tick elapsed).Tracked where
  present := h.present
  past connection hmem := by
    obtain ⟨hpast, hframe⟩ := h.past connection hmem
    refine ⟨?_, hframe⟩
    change connection.established ≤ link.clock + elapsed
    omega

/-- A state without a connection says nothing about it. -/
theorem Tracked.leave (h : link.Tracked) {state : ConnectState}
    (hstate : state ≠ .connected) :
    ({ link with connectState := state } : TcpLink).Tracked :=
  ⟨fun hsame => absurd hsame hstate, h.past⟩

theorem tracked_beginConnect (attempt : Attempt) :
    (link.beginConnect attempt).Tracked := by
  rw [beginConnect]
  dsimp only
  split
  · exact tracked_of_none nofun rfl
  · exact tracked_of_none nofun rfl
  · exact tracked_establish
  · exact tracked_of_none nofun rfl
  · exact tracked_of_none nofun rfl

theorem Tracked.pollConnect (h : link.Tracked) (poll : Poll) :
    (link.pollConnect poll).1.Tracked := by
  rw [TcpLink.pollConnect]
  have hpolled := h.tick poll.elapsed
  split
  · exact ⟨nofun, hpolled.past⟩
  split
  · exact hpolled
  · exact ⟨nofun, hpolled.past⟩
  · exact tracked_establish

theorem tracked_stop : link.stop.Tracked := tracked_of_none nofun rfl

theorem tracked_disconnect (elapsed : Nat) : (link.disconnect elapsed).Tracked :=
  tracked_of_none nofun rfl

theorem Tracked.noteRead (h : link.Tracked) : link.noteRead.Tracked where
  present hstate := by
    rw [TcpLink.noteRead, Option.isSome_map]
    exact h.present hstate
  past connection hmem := by
    obtain ⟨old, hold, rfl⟩ := Option.map_eq_some_iff.mp hmem
    obtain ⟨hpast, hframe⟩ := h.past old hold
    exact ⟨hpast, fun frame hmem =>
      ⟨(hframe frame hmem).1, (hframe frame hmem).2.1, rfl⟩⟩

theorem Tracked.noteFrame (h : link.Tracked)
    (hread : ∀ connection ∈ link.connection, connection.wasRead = true) :
    link.noteFrame.Tracked where
  present hstate := by
    rw [TcpLink.noteFrame, Option.isSome_map]
    exact h.present hstate
  past connection hmem := by
    obtain ⟨old, hold, rfl⟩ := Option.map_eq_some_iff.mp hmem
    obtain ⟨hpast, -⟩ := h.past old hold
    refine ⟨hpast, fun frame hframe => ?_⟩
    cases hframe
    exact ⟨rfl, hpast, hread old hold⟩

theorem wasRead_noteRead : ∀ connection ∈ link.noteRead.connection,
    connection.wasRead = true := by
  intro connection hmem
  obtain ⟨old, -, rfl⟩ := Option.map_eq_some_iff.mp hmem
  rfl

/-- A frame is noted behind the read that it came with. -/
theorem Tracked.drain (h : link.Tracked) (reads : List Read) :
    (link.drain reads).Tracked := by
  induction reads generalizing link with
  | nil => exact h.noteRead
  | cons read reads ih =>
      obtain ⟨result, elapsed⟩ := read
      cases hframe : link.decoder.readFrame result with
      | mk decoder len =>
      have hread : ({ link.noteRead with decoder := decoder } :
          TcpLink).Tracked :=
        ⟨h.noteRead.present, h.noteRead.past⟩
      simp only [TcpLink.drain, hframe]
      split
      · exact ih ((hread.tick elapsed).noteFrame wasRead_noteRead)
      split
      · exact tracked_disconnect elapsed
      · exact hread

theorem Tracked.connected (h : link.Tracked) (input : ConnectedInput) :
    (link.connected input).Tracked := by
  rw [TcpLink.connected]
  split
  · exact tracked_disconnect input.closing
  · exact (h.tick input.elapsed).drain input.reads

theorem Tracked.settle (h : link.Tracked) : link.settle.Tracked := by
  have hfailed : ({ link with connectState := .failed } : TcpLink).Tracked :=
    h.leave nofun
  rw [TcpLink.settle]
  split_ifs
  · exact hfailed.leave nofun
  · exact hfailed
  · exact h.leave nofun
  · exact h

theorem Tracked.retry (h : link.Tracked) (input : LoopInput) :
    (link.retry input).Tracked := by
  rw [TcpLink.retry]
  split
  · exact tracked_beginConnect input.attempt
  · exact h.tick input.elapsed

theorem settle_connected (hstate : link.connectState ≠ .connecting)
    (hidle : link.settle.connectState ≠ .idle) :
    link.settle.connectState = .connected := by
  cases h : link.settle.connectState with
  | connected => rfl
  | idle => exact absurd h hidle
  | connecting =>
      rw [TcpLink.settle] at h
      split_ifs at h
      exact absurd h hstate
  | failed =>
      rw [TcpLink.settle] at h
      split_ifs at h
      all_goals contradiction

theorem resolved_of_pollConnect {poll : Poll}
    (h : (link.pollConnect poll).2 = true) :
    (link.pollConnect poll).1.connectState ≠ .connecting := by
  rw [pollConnect] at h ⊢
  split at h
  next htimeout =>
    rw [if_pos htimeout]
    nofun
  next htimeout =>
    rw [if_neg htimeout]
    cases hresult : poll.result with
    | pending =>
        rw [hresult] at h
        cases h
    | refused => nofun
    | connected => nofun

/-- The call goes on only where a connection is up. -/
theorem Tracked.loop (h : link.Tracked) (input : LoopInput) :
    (link.loop input).1.Tracked ∧
      ((link.loop input).2 = true →
        (link.loop input).1.connectState = .connected) := by
  have hpolled : ∃ polled resolved,
      (if link.connectState = .connecting then link.pollConnect input.poll
        else (link, true)) = (polled, resolved) ∧ polled.Tracked ∧
        (resolved = true → polled.connectState ≠ .connecting) := by
    split
    · exact ⟨_, _, rfl, h.pollConnect input.poll, resolved_of_pollConnect⟩
    next hstate => exact ⟨link, true, rfl, h, fun _ => hstate⟩
  obtain ⟨polled, resolved, hpolled, htracked, hstate⟩ := hpolled
  simp only [TcpLink.loop, hpolled]
  split
  · exact ⟨h, nofun⟩
  split
  · exact ⟨htracked, nofun⟩
  next hresolved =>
    split
    · exact ⟨htracked.settle.retry input, nofun⟩
    next hidle =>
      refine ⟨htracked.settle, fun _ => settle_connected (hstate ?_) hidle⟩
      simpa using hresolved

end TcpLink

namespace LinkState

structure Tracked (state : LinkState) : Prop where
  link : state.link.Tracked
  inside : state.inLoop = true → state.link.connectState = .connected

theorem tracked_init (clock : Int) : (init clock).Tracked where
  link := TcpLink.tracked_of_none nofun rfl
  inside := nofun

theorem Tracked.step {state next : LinkState} (h : state.Tracked)
    {event : LinkEvent} (hstep : state.step event = some next) :
    next.Tracked := by
  cases event with
  | start attempt =>
      simp only [LinkState.step, Option.ite_none_left_eq_some,
        Option.some.injEq] at hstep
      obtain ⟨-, rfl⟩ := hstep
      exact ⟨TcpLink.tracked_beginConnect attempt, nofun⟩
  | stop =>
      simp only [LinkState.step, Option.ite_none_left_eq_some,
        Option.some.injEq] at hstep
      obtain ⟨-, rfl⟩ := hstep
      exact ⟨TcpLink.tracked_stop, nofun⟩
  | loop input =>
      simp only [LinkState.step, Option.ite_none_left_eq_some,
        Option.some.injEq] at hstep
      obtain ⟨-, rfl⟩ := hstep
      exact ⟨(h.link.loop input).1, (h.link.loop input).2⟩
  | connected input =>
      simp only [LinkState.step, Option.ite_none_right_eq_some,
        Option.some.injEq] at hstep
      obtain ⟨-, rfl⟩ := hstep
      exact ⟨h.link.connected input, nofun⟩

theorem isSilent_iff {link : TcpLink} :
    link.isSilent = true ↔ 0 < link.lastRxTime ∧
      tcpKeepaliveTimeoutMs ≤ link.clock - link.lastRxTime := by
  simp [TcpLink.isSilent]

/-- A connection with a frame of its own is as old as that at least. -/
theorem outlived_iff {link : TcpLink} (h : link.Tracked)
    (hsilent : link.isSilent = true) :
    Outlived link ↔ ∃ connection ∈ link.connection,
      connection.lastFrame.isSome = true ∨
        tcpKeepaliveTimeoutMs ≤ link.clock - connection.established ∧
          (link.wasClosed = true → connection.wasRead = true) := by
  obtain ⟨-, htime⟩ := isSilent_iff.mp hsilent
  constructor
  · rintro ⟨connection, hmem, hold, -, hread⟩
    exact ⟨connection, hmem, .inr ⟨hold, hread⟩⟩
  · rintro ⟨connection, hmem, hown⟩
    obtain ⟨-, hframe⟩ := h.past connection hmem
    refine ⟨connection, hmem, ?_⟩
    cases hlast : connection.lastFrame with
    | none =>
        rw [hlast] at hown
        obtain ⟨hold, hread⟩ := hown.resolve_left nofun
        exact ⟨hold, nofun, hread⟩
    | some frame =>
        obtain ⟨hsame, hbefore, hread⟩ := hframe frame hlast
        refine ⟨by omega, fun other hother => ?_, fun _ => hread⟩
        cases hother
        omega

theorem closesOutlived_iff {state : LinkState} (h : state.Tracked)
    (event : LinkEvent) :
    state.ClosesOutlived event ↔ state.FrameIsOwn event := by
  cases event with
  | start attempt => exact Iff.rfl
  | stop => exact Iff.rfl
  | loop input => exact Iff.rfl
  | connected input =>
      refine imp_congr_right fun _ => ?_
      have hticked := h.link.tick input.elapsed
      generalize state.link.tick input.elapsed = link at *
      by_cases hsilent : link.isSilent = true
      · rw [imp_iff_right hsilent, outlived_iff hticked hsilent]
        obtain ⟨hpositive, htime⟩ := isSilent_iff.mp hsilent
        rw [or_iff_right (not_le.mpr hpositive), or_iff_right (not_lt.mpr htime)]
      · refine iff_of_true (fun h => absurd h hsilent) ?_
        rw [isSilent_iff, not_and_or, not_lt, not_le] at hsilent
        exact hsilent.elim .inl fun h => .inr (.inl h)

/--
In every run the rule closes only connections that have outlived the timeout,
exactly where it never goes by the frame of an earlier connection.
-/
theorem closes_outlived_iff (clock : Int) (events : List LinkEvent) :
    AllMeet step ClosesOutlived (init clock) events ↔
      AllMeet step FrameIsOwn (init clock) events := by
  refine allMeet_congr (fun state event htracked =>
    closesOutlived_iff htracked event) ?_ (tracked_init clock)
  intro state event next htracked _ hstep
  exact htracked.step hstep

/-! ## An outage -/

/-- A connection that is made at once, with socket 7. -/
def atOnce : Attempt := ⟨0, .connected 7, 0⟩

def emptyPoll : Poll := ⟨0, .pending, 0⟩

/-- A frame comes, then nothing for five minutes; the connection that is made
five seconds behind the close is closed before it has been read from. -/
def outage : List LinkEvent :=
  [.start atOnce, .loop ⟨emptyPoll, 0, atOnce⟩,
    .connected ⟨0, 0, [(.data (sendFrame [1]), 0)]⟩,
    .loop ⟨emptyPoll, 0, atOnce⟩, .connected ⟨300000, 0, []⟩,
    .loop ⟨emptyPoll, 5000, atOnce⟩, .loop ⟨emptyPoll, 0, atOnce⟩]

theorem outage_closes_again :
    ∃ state, runFrom step (init 1000) outage = some state ∧
      state.link.connection = some ⟨306000, none, false⟩ ∧
      state.step (.connected ⟨0, 0, []⟩) =
        some ⟨state.link.disconnect 0, false⟩ ∧
      ¬ AllMeet step ClosesOutlived (init 1000)
        (outage ++ [.connected ⟨0, 0, []⟩]) := by
  obtain ⟨state, hrun, hconnection, hclosed, hinside, hsilent, hclock⟩ :
      ∃ state, runFrom step (init 1000) outage = some state ∧
        state.link.connection = some ⟨306000, none, false⟩ ∧
        state.step (.connected ⟨0, 0, []⟩) =
          some ⟨state.link.disconnect 0, false⟩ ∧
        state.inLoop = true ∧ (state.link.tick 0).isSilent = true ∧
        (state.link.tick 0).clock = 306000 :=
    ⟨_, rfl, by decide, by decide, by decide,
      by decide, by decide⟩
  refine ⟨state, hrun, hconnection, hclosed, fun hlawful => ?_⟩
  obtain ⟨connection, hmem, hold, -⟩ :=
    (hlawful.split.2 state hrun).1 hinside hsilent
  change state.link.connection = some connection at hmem
  cases hconnection.symm.trans hmem
  rw [hclock] at hold
  exact absurd hold (by decide)

end LinkState

end Neroshop.Transport
