import Mathlib.Data.List.Basic
import Mathlib.Data.UInt

/-!
# Frames over the TCP interface

A frame is sent between two flag bytes, and a flag or an escape byte inside it
is sent as an escape byte and a changed one.  The decoder keeps its state from
one read to the next.  It returns in the middle of a read when a frame is
complete, so the rest of that read is lost, and nothing clears the buffer of a
frame that has been delivered, so the next frame is appended to it.
-/

namespace Neroshop.Transport

def frameStart : UInt8 := 0x7E

def frameEsc : UInt8 := 0x7D

def frameXor : UInt8 := 0x20

/-- `RX_FRAME_MAX`. -/
def rxFrameMax : Nat := 4096

/-- `TCP_KEEPALIVE_TIMEOUT_MS`. -/
def tcpKeepaliveTimeoutMs : Int := 300000

/-! ## Sending -/

def escapeByte (byte : UInt8) : List UInt8 :=
  if byte = frameStart ∨ byte = frameEsc then [frameEsc, byte ^^^ frameXor]
  else [byte]

/-- The bytes that `sendFrame` writes. -/
def sendFrame (data : List UInt8) : List UInt8 :=
  frameStart :: (data.flatMap escapeByte ++ [frameStart])

/-! ## Receiving -/

/-- What a call of `recv` gives: bytes, nothing yet, or an end. -/
inductive Recv where
  | data (bytes : List UInt8)
  | wouldBlock
  | closed
  deriving DecidableEq

structure Decoder where
  inFrame : Bool
  escaped : Bool
  frameBuf : List UInt8
  deriving DecidableEq

namespace Decoder

def cleared : Decoder := ⟨false, false, []⟩

def opened : Decoder := ⟨true, false, []⟩

/-- A byte that is neither a flag nor an escape byte. -/
def push (decoder : Decoder) (byte : UInt8) : Decoder :=
  if rxFrameMax ≤ decoder.frameBuf.length then cleared
  else
    ⟨true, false, decoder.frameBuf ++
      [if decoder.escaped then byte ^^^ frameXor else byte]⟩

/-- The loop of `readFrame` over the bytes read, and whether it returns a frame. -/
def readBytes : Decoder → List UInt8 → Decoder × Bool
  | decoder, [] => (decoder, false)
  | decoder, byte :: bytes =>
      if byte = frameStart then
        if decoder.inFrame && !decoder.frameBuf.isEmpty then (decoder, true)
        else readBytes opened bytes
      else if !decoder.inFrame then readBytes decoder bytes
      else if byte = frameEsc then
        readBytes { decoder with escaped := true } bytes
      else readBytes (decoder.push byte) bytes

/-- `readFrame`: the length of a frame, 0 for none yet, or -1. -/
def readFrame (decoder : Decoder) : Recv → Decoder × Int
  | .data bytes =>
      match decoder.readBytes bytes with
      | (decoder, true) => (decoder, decoder.frameBuf.length)
      | (decoder, false) => (decoder, 0)
  | .wouldBlock => (decoder, 0)
  | .closed => (decoder, -1)

end Decoder

structure TcpInterface where
  connected : Bool
  lastRxTime : Int
  decoder : Decoder
  /-- The frames that have been passed to `on_incoming`. -/
  incoming : List (List UInt8)
  deriving DecidableEq

namespace TcpInterface

def start : TcpInterface := ⟨true, 0, .cleared, []⟩

def disconnect (state : TcpInterface) : TcpInterface :=
  { state with connected := false, decoder := .cleared }

def deliver (state : TcpInterface) (now : Int) (len : Nat) : TcpInterface :=
  { state with
    lastRxTime := now
    incoming := state.incoming ++ [state.decoder.frameBuf.take len] }

/-- The drain loop: the results of `recv` that it takes and those it leaves. -/
def drain (now : Int) : TcpInterface → List Recv → TcpInterface × List Recv
  | state, [] => (state, [])
  | state, result :: results =>
      let (decoder, len) := state.decoder.readFrame result
      let state := { state with decoder := decoder }
      if 0 < len then drain now (state.deliver now len.toNat) results
      else if len < 0 then (state.disconnect, results)
      else (state, results)

/--
`loop` on a connection.  Once that is closed the interface connects again,
which starts another stream.
-/
def loop (now : Int) (state : TcpInterface) (results : List Recv) :
    TcpInterface × List Recv :=
  if !state.connected then (state, results)
  else if 0 < state.lastRxTime ∧
      tcpKeepaliveTimeoutMs ≤ now - state.lastRxTime then
    (state.disconnect, results)
  else drain now state results

/-- Calls of `loop` at these times. -/
def loops : TcpInterface → List Recv → List Int → TcpInterface × List Recv
  | state, results, [] => (state, results)
  | state, results, now :: times =>
      let (state, results) := loop now state results
      loops state results times

end TcpInterface

/-! ## What is asked of the framing -/

def Recv.bytes : Recv → List UInt8
  | .data bytes => bytes
  | _ => []

/-- A stream as `recv` hands it out, into a buffer of 1024 bytes. -/
structure Cuts (results : List Recv) (stream : List UInt8) : Prop where
  flatten : results.flatMap Recv.bytes = stream
  bounds : ∀ bytes, Recv.data bytes ∈ results →
    bytes ≠ [] ∧ bytes.length ≤ 1024
  isOpen : Recv.closed ∉ results

/-- However the stream is cut, the frames come out as they went in. -/
def RoundTrips (frames : List (List UInt8)) : Prop :=
  ∀ results times final, Cuts results (frames.flatMap sendFrame) →
    TcpInterface.start.loops results times = (final, []) →
    final.incoming = frames

/-! ## One read after the other -/

/-- One round of the drain loop, without the time. -/
def receiveOne (state : Decoder × List (List UInt8)) (result : Recv) :
    Decoder × List (List UInt8) :=
  let (decoder, len) := state.1.readFrame result
  (decoder, if 0 < len then state.2 ++ [decoder.frameBuf] else state.2)

theorem Decoder.readFrame_cases (decoder : Decoder) {result : Recv}
    (h : result ≠ .closed) :
    (decoder.readFrame result).2 = 0 ∨
      (decoder.readFrame result).2 =
        (decoder.readFrame result).1.frameBuf.length := by
  cases result with
  | closed => exact absurd rfl h
  | wouldBlock => exact .inl rfl
  | data bytes =>
      simp only [Decoder.readFrame]
      split
      · exact .inr rfl
      · exact .inl rfl

namespace TcpInterface

def received (state : TcpInterface) : Decoder × List (List UInt8) :=
  (state.decoder, state.incoming)

theorem drain_received {now : Int} {state after : TcpInterface}
    {results rest : List Recv} (hopen : Recv.closed ∉ results)
    (h : drain now state results = (after, rest)) :
    ∃ taken, results = taken ++ rest ∧
      after.received = taken.foldl receiveOne state.received := by
  induction results generalizing state with
  | nil =>
      cases h
      exact ⟨[], rfl, rfl⟩
  | cons result results ih =>
      have hrest : Recv.closed ∉ results :=
        fun hmem => hopen (List.mem_cons_of_mem _ hmem)
      cases hframe : state.decoder.readFrame result with
      | mk decoder len =>
      have hlen : len = 0 ∨ len = decoder.frameBuf.length := by
        rw [List.mem_cons, not_or] at hopen
        have hframe' := state.decoder.readFrame_cases (Ne.symm hopen.1)
        rwa [hframe] at hframe'
      have hnonneg : ¬ len < 0 := by omega
      simp only [drain, hframe, hnonneg, if_false] at h
      split at h
      · next hpos =>
          obtain ⟨taken, rfl, hafter⟩ := ih hrest h
          have hlen : len.toNat = decoder.frameBuf.length := by omega
          refine ⟨result :: taken, rfl, ?_⟩
          rw [hafter, List.foldl_cons]
          simp [receiveOne, received, deliver, hframe, hpos, hlen]
      · next hpos =>
          cases h
          refine ⟨[result], rfl, ?_⟩
          simp [receiveOne, received, hframe, hpos]

theorem loops_of_disconnected {state : TcpInterface} {results : List Recv}
    (h : state.connected = false) (times : List Int) :
    state.loops results times = (state, results) := by
  induction times with
  | nil => rfl
  | cons now times ih => simpa [loops, loop, h] using ih

theorem loops_received {state final : TcpInterface} {results rest : List Recv}
    {times : List Int} (hopen : Recv.closed ∉ results)
    (h : state.loops results times = (final, rest)) :
    ∃ taken, results = taken ++ rest ∧
      final.incoming = (taken.foldl receiveOne state.received).2 := by
  induction times generalizing state results with
  | nil =>
      cases h
      exact ⟨[], rfl, rfl⟩
  | cons now times ih =>
      simp only [loops, loop] at h
      split at h
      · next hclosed =>
          rw [loops_of_disconnected (by simpa using hclosed)] at h
          cases h
          exact ⟨[], rfl, rfl⟩
      split at h
      · rw [loops_of_disconnected rfl] at h
        cases h
        exact ⟨[], rfl, rfl⟩
      · cases hdrain : drain now state results with
        | mk after left =>
        rw [hdrain] at h
        obtain ⟨first, rfl, hafter⟩ := drain_received hopen hdrain
        obtain ⟨second, rfl, hfinal⟩ :=
          ih (fun hmem => hopen (List.mem_append_right _ hmem)) h
        refine ⟨first ++ second, by rw [List.append_assoc], ?_⟩
        rw [hfinal, hafter, List.foldl_append]

theorem drain_progress {state after : TcpInterface} {results rest : List Recv}
    (hopen : Recv.closed ∉ results) (htime : state.lastRxTime = 0)
    (h : drain 0 state results = (after, rest)) :
    after.connected = state.connected ∧ after.lastRxTime = 0 ∧
      (results ≠ [] → rest.length < results.length) := by
  induction results generalizing state with
  | nil =>
      cases h
      exact ⟨rfl, htime, fun hne => absurd rfl hne⟩
  | cons result results ih =>
      rw [List.mem_cons, not_or] at hopen
      have hlen := state.decoder.readFrame_cases (Ne.symm hopen.1)
      have hnonneg : ¬ (state.decoder.readFrame result).2 < 0 := by omega
      simp only [drain, hnonneg, if_false] at h
      split at h
      · obtain ⟨hconnected, hafter, hshorter⟩ := ih hopen.2 rfl h
        refine ⟨hconnected, hafter, fun _ => ?_⟩
        by_cases hresults : results = []
        · subst hresults
          cases h
          simp
        · have := hshorter hresults
          rw [List.length_cons]
          omega
      · cases h
        exact ⟨rfl, htime, fun _ => by simp⟩

theorem exists_loops {state : TcpInterface} {results : List Recv}
    (hconnected : state.connected = true) (htime : state.lastRxTime = 0)
    (hopen : Recv.closed ∉ results) :
    ∃ times final, state.loops results times = (final, []) := by
  induction hlength : results.length using Nat.strong_induction_on
    generalizing state results with
  | _ length ih =>
      by_cases hresults : results = []
      · exact ⟨[], state, by rw [hresults]; rfl⟩
      cases hdrain : drain 0 state results with
      | mk after rest =>
      obtain ⟨hafter, hafterTime, hshorter⟩ :=
        drain_progress hopen htime hdrain
      obtain ⟨taken, htaken, -⟩ := drain_received hopen hdrain
      have hrest : Recv.closed ∉ rest := fun hmem =>
        hopen (htaken ▸ List.mem_append_right _ hmem)
      obtain ⟨times, final, hfinal⟩ :=
        ih rest.length (hlength ▸ hshorter hresults)
          (hafter.trans hconnected) hafterTime hrest rfl
      refine ⟨0 :: times, final, ?_⟩
      simp [loops, loop, hconnected, htime, hdrain, hfinal]

end TcpInterface

/-! ## The decoder on the bytes of a frame -/

namespace Decoder

theorem readBytes_append (decoder : Decoder) (bytes more : List UInt8) :
    decoder.readBytes (bytes ++ more) =
      if (decoder.readBytes bytes).2 then decoder.readBytes bytes
      else (decoder.readBytes bytes).1.readBytes more := by
  induction bytes generalizing decoder with
  | nil => rfl
  | cons byte bytes ih =>
      simp only [List.cons_append, readBytes, ih]
      split_ifs <;> simp_all

/-- Only a flag completes a frame. -/
theorem readBytes_incomplete {bytes : List UInt8} (h : frameStart ∉ bytes)
    (decoder : Decoder) : (decoder.readBytes bytes).2 = false := by
  induction bytes generalizing decoder with
  | nil => rfl
  | cons byte bytes ih =>
      rw [List.mem_cons, not_or] at h
      simp only [readBytes, Ne.symm h.1, if_false]
      split_ifs <;> exact ih h.2 _

theorem readBytes_outside {bytes : List UInt8} (h : frameStart ∉ bytes)
    {decoder : Decoder} (hout : decoder.inFrame = false) :
    decoder.readBytes bytes = (decoder, false) := by
  induction bytes with
  | nil => rfl
  | cons byte bytes ih =>
      rw [List.mem_cons, not_or] at h
      simp [readBytes, Ne.symm h.1, hout, ih h.2]

theorem frameStart_notMem_escapeByte (byte : UInt8) :
    frameStart ∉ escapeByte byte := by
  unfold escapeByte
  split_ifs with h
  · rcases h with rfl | rfl <;> decide
  · rw [List.mem_singleton]
    exact fun heq => h (.inl heq.symm)

theorem frameStart_notMem_escaped (data : List UInt8) :
    frameStart ∉ data.flatMap escapeByte := by
  simp only [List.mem_flatMap, not_exists, not_and]
  exact fun byte _ => frameStart_notMem_escapeByte byte

theorem readBytes_escapeByte (kept : List UInt8) (byte : UInt8)
    (more : List UInt8) :
    Decoder.readBytes ⟨true, false, kept⟩ (escapeByte byte ++ more) =
      if rxFrameMax ≤ kept.length then cleared.readBytes more
      else Decoder.readBytes ⟨true, false, kept ++ [byte]⟩ more := by
  have hesc : frameEsc ≠ frameStart := by decide
  unfold escapeByte
  by_cases hspecial : byte = frameStart ∨ byte = frameEsc
  · have hchanged : byte ^^^ frameXor ≠ frameStart ∧
        byte ^^^ frameXor ≠ frameEsc ∧
        byte ^^^ frameXor ^^^ frameXor = byte := by
      rcases hspecial with rfl | rfl <;> decide
    obtain ⟨hstart, hescape, hbyte⟩ := hchanged
    rw [if_pos hspecial]
    simp only [List.cons_append, List.nil_append, readBytes, hesc, hstart,
      hescape, push, hbyte, Bool.not_true, Bool.false_eq_true, if_true,
      if_false]
    split_ifs <;> rfl
  · rw [if_neg hspecial]
    rw [not_or] at hspecial
    simp only [List.cons_append, List.nil_append, readBytes, hspecial, push,
      Bool.not_true, Bool.false_eq_true, if_false]
    split_ifs <;> rfl

/-- The data of a frame is appended to what the buffer holds, or clears it. -/
theorem readBytes_escaped (kept data : List UInt8)
    (hkept : kept.length ≤ rxFrameMax) :
    Decoder.readBytes ⟨true, false, kept⟩ (data.flatMap escapeByte) =
      if kept.length + data.length ≤ rxFrameMax
      then (⟨true, false, kept ++ data⟩, false) else (cleared, false) := by
  induction data generalizing kept with
  | nil => simp [readBytes, hkept]
  | cons byte data ih =>
      rw [List.flatMap_cons, readBytes_escapeByte]
      by_cases hfull : rxFrameMax ≤ kept.length
      · rw [if_pos hfull,
          readBytes_outside (frameStart_notMem_escaped data) rfl, if_neg]
        simp only [List.length_cons]
        omega
      · rw [if_neg hfull, ih _ (by simp; omega)]
        simp only [List.length_append, List.length_cons, List.length_nil,
          List.append_assoc, List.singleton_append]
        have hsum : kept.length + (0 + 1) + data.length =
            kept.length + (data.length + 1) := by omega
        rw [hsum]

theorem readBytes_opening (data : List UInt8)
    (hdata : data.length ≤ rxFrameMax) :
    cleared.readBytes (frameStart :: data.flatMap escapeByte) =
      (⟨true, false, data⟩, false) := by
  have hopen : cleared.readBytes (frameStart :: data.flatMap escapeByte) =
      opened.readBytes (data.flatMap escapeByte) := by
    simp [readBytes, cleared]
  rw [hopen, opened, readBytes_escaped [] data (Nat.zero_le _), if_pos]
  · rfl
  · simpa using hdata

end Decoder

/-! ## One frame -/

theorem receiveOne_of_incomplete {state : Decoder × List (List UInt8)}
    {decoder : Decoder} {bytes : List UInt8}
    (h : state.1.readBytes bytes = (decoder, false)) :
    receiveOne state (.data bytes) = (decoder, state.2) := by
  simp [receiveOne, Decoder.readFrame, h]

theorem receiveOne_of_complete {state : Decoder × List (List UInt8)}
    {decoder : Decoder} {bytes : List UInt8}
    (h : state.1.readBytes bytes = (decoder, true))
    (hbuf : decoder.frameBuf ≠ []) :
    receiveOne state (.data bytes) =
      (decoder, state.2 ++ [decoder.frameBuf]) := by
  have hpos : 0 < decoder.frameBuf.length := List.length_pos_iff.mpr hbuf
  simp only [receiveOne, Decoder.readFrame, h]
  rw [if_pos (by omega)]

theorem Cuts.tail {result : Recv} {results : List Recv} {stream : List UInt8}
    (h : Cuts (result :: results) stream) :
    Cuts results (results.flatMap Recv.bytes) where
  flatten := rfl
  bounds bytes hmem := h.bounds bytes (List.mem_cons_of_mem _ hmem)
  isOpen hmem := h.isOpen (List.mem_cons_of_mem _ hmem)

theorem foldl_receiveOne_idle {results : List Recv} (h : Cuts results [])
    (state : Decoder × List (List UInt8)) :
    results.foldl receiveOne state = state := by
  induction results generalizing state with
  | nil => rfl
  | cons result results ih =>
      have hempty := h.flatten
      rw [List.flatMap_cons, List.append_eq_nil_iff] at hempty
      have htail := h.tail
      rw [hempty.2] at htail
      cases result with
      | closed => exact absurd (List.mem_cons_self ..) h.isOpen
      | wouldBlock => exact ih htail state
      | data bytes =>
          exact absurd hempty.1 (h.bounds bytes (List.mem_cons_self ..)).1

/-- Up to the flag that completes it a frame is read however it is cut. -/
theorem foldl_receiveOne_frame {results : List Recv} {front : List UInt8}
    {decoder after : Decoder} {incoming : List (List UInt8)}
    (hcuts : Cuts results (front ++ [frameStart]))
    (hfront : decoder.readBytes front = (after, false))
    (hframe : after.inFrame = true) (hbuf : after.frameBuf ≠ []) :
    (results.foldl receiveOne (decoder, incoming)).2 =
      incoming ++ [after.frameBuf] := by
  induction results generalizing front decoder with
  | nil => simpa using hcuts.flatten
  | cons result results ih =>
      have hstream := hcuts.flatten
      rw [List.flatMap_cons] at hstream
      have htail := hcuts.tail
      cases result with
      | closed => exact absurd (List.mem_cons_self ..) hcuts.isOpen
      | wouldBlock =>
          rw [show Recv.wouldBlock.bytes = [] from rfl, List.nil_append]
            at hstream
          rw [hstream] at htail
          exact ih htail hfront
      | data bytes =>
          have hbytes := (hcuts.bounds bytes (List.mem_cons_self ..)).1
          rw [show (Recv.data bytes).bytes = bytes from rfl] at hstream
          rw [List.foldl_cons]
          have hsplit : (∃ left, front = bytes ++ left ∧
                results.flatMap Recv.bytes = left ++ [frameStart]) ∨
              bytes = front ++ [frameStart] ∧
                results.flatMap Recv.bytes = [] := by
            rcases List.append_eq_append_iff.mp hstream with
              ⟨left, hleft, hrest⟩ | ⟨extra, hextra, hrest⟩
            · exact .inl ⟨left, hleft, hrest⟩
            · rcases List.append_eq_singleton_iff.mp hrest.symm with
                ⟨rfl, hflag⟩ | ⟨rfl, hnil⟩
              · exact .inl ⟨[], by simpa using hextra.symm, hflag⟩
              · exact .inr ⟨hextra, hnil⟩
          rcases hsplit with ⟨left, hleft, hrest⟩ | ⟨hlast, hrest⟩
          · -- the read stays in front of the flag
            rw [hleft, Decoder.readBytes_append] at hfront
            cases hread : decoder.readBytes bytes with
            | mk middle complete =>
            rw [hread] at hfront
            cases complete with
            | true => cases hfront
            | false =>
                rw [hrest] at htail
                rw [receiveOne_of_incomplete hread]
                exact ih htail hfront
          · -- the flag is read, and nothing is left behind it
            have hread : decoder.readBytes bytes = (after, true) := by
              rw [hlast, Decoder.readBytes_append, hfront]
              simp [Decoder.readBytes, hframe, hbuf]
            rw [hrest] at htail
            rw [receiveOne_of_complete hread hbuf, foldl_receiveOne_idle htail]

/-! ## A cut that loses what is behind a frame -/

/-- Each read hands out one byte. -/
def singles (bytes : List UInt8) : List Recv :=
  bytes.map fun byte => .data [byte]

/-- The flag that ends a frame is read together with the one that opens the next. -/
def lossyTail : List (List UInt8) → List Recv
  | [] => []
  | frame :: frames =>
      singles (frame.flatMap escapeByte) ++
        .data (frameStart :: if frames.isEmpty then [] else [frameStart]) ::
          lossyTail frames

def lossyCut (frames : List (List UInt8)) : List Recv :=
  .data [frameStart] :: lossyTail frames

theorem flatMap_singles (bytes : List UInt8) :
    (singles bytes).flatMap Recv.bytes = bytes := by
  induction bytes with
  | nil => rfl
  | cons byte bytes ih => exact congrArg (byte :: ·) ih

theorem flatMap_lossyTail {frames : List (List UInt8)} (h : frames ≠ []) :
    frameStart :: (lossyTail frames).flatMap Recv.bytes =
      frames.flatMap sendFrame := by
  induction frames with
  | nil => exact absurd rfl h
  | cons frame frames ih =>
      rw [lossyTail, List.flatMap_append, flatMap_singles, List.flatMap_cons,
        List.flatMap_cons, sendFrame, Recv.bytes]
      cases frames with
      | nil => simp [lossyTail]
      | cons next frames => simp [← ih (by simp)]

theorem mem_lossyTail {frames : List (List UInt8)} {result : Recv}
    (h : result ∈ lossyTail frames) :
    ∃ bytes, result = .data bytes ∧ bytes ≠ [] ∧ bytes.length ≤ 1024 := by
  induction frames with
  | nil => cases h
  | cons frame frames ih =>
      simp only [lossyTail, singles, List.mem_append, List.mem_map,
        List.mem_cons] at h
      rcases h with ⟨byte, -, rfl⟩ | rfl | h
      · exact ⟨[byte], rfl, by simp, by simp⟩
      · refine ⟨_, rfl, by simp, ?_⟩
        split <;> simp
      · exact ih h

theorem cuts_lossyCut {frames : List (List UInt8)} (h : frames ≠ []) :
    Cuts (lossyCut frames) (frames.flatMap sendFrame) where
  flatten := flatMap_lossyTail h
  bounds bytes hmem := by
    rcases List.mem_cons.mp hmem with heq | hmem
    · cases heq
      simp
    · obtain ⟨other, heq, hbounds⟩ := mem_lossyTail hmem
      cases heq
      exact hbounds
  isOpen hmem := by
    rcases List.mem_cons.mp hmem with heq | hmem
    · cases heq
    · obtain ⟨bytes, heq, -⟩ := mem_lossyTail hmem
      cases heq

theorem foldl_singles {bytes : List UInt8} (h : frameStart ∉ bytes)
    (decoder : Decoder) (incoming : List (List UInt8)) :
    (singles bytes).foldl receiveOne (decoder, incoming) =
      ((decoder.readBytes bytes).1, incoming) := by
  induction bytes generalizing decoder with
  | nil => rfl
  | cons byte bytes ih =>
      rw [List.mem_cons, not_or] at h
      have hfirst : (decoder.readBytes [byte]).2 = false :=
        Decoder.readBytes_incomplete (by simpa using h.1) decoder
      have hsplit := decoder.readBytes_append [byte] bytes
      rw [hfirst, if_neg (by simp), List.singleton_append] at hsplit
      rw [singles, List.map_cons, List.foldl_cons,
        receiveOne_of_incomplete (Prod.ext rfl hfirst), hsplit]
      exact ih h.2 _

/-- A read delivers one frame at most. -/
theorem receiveOne_grows (state : Decoder × List (List UInt8)) (result : Recv) :
    ∃ more, (receiveOne state result).2 = state.2 ++ more ∧
      more.length ≤ 1 := by
  simp only [receiveOne]
  split_ifs
  · exact ⟨[_], rfl, by simp⟩
  · exact ⟨[], by simp, by simp⟩

theorem foldl_lossyTail_grows (frames : List (List UInt8)) (decoder : Decoder)
    (incoming : List (List UInt8)) :
    ∃ more, ((lossyTail frames).foldl receiveOne (decoder, incoming)).2 =
        incoming ++ more ∧ more.length ≤ frames.length := by
  induction frames generalizing decoder incoming with
  | nil => exact ⟨[], by simp [lossyTail], by simp⟩
  | cons frame frames ih =>
      rw [lossyTail, List.foldl_append,
        foldl_singles (Decoder.frameStart_notMem_escaped frame),
        List.foldl_cons]
      generalize (decoder.readBytes (frame.flatMap escapeByte)).1 = middle
      generalize hresult : Recv.data (frameStart ::
        if frames.isEmpty then [] else [frameStart]) = result
      obtain ⟨first, hfirst, hone⟩ := receiveOne_grows (middle, incoming) result
      obtain ⟨second, hsecond, hrest⟩ :=
        ih (receiveOne (middle, incoming) result).1 (incoming ++ first)
      refine ⟨first ++ second, ?_, by simp; omega⟩
      rw [← List.append_assoc, ← hsecond, ← hfirst]

/-- The buffer still holds one frame when the next is read into it. -/
theorem foldl_lossyTail_ne {kept next : List UInt8}
    {frames : List (List UInt8)} (hkept : kept ≠ [])
    (hlength : kept.length ≤ rxFrameMax) :
    ((lossyTail (next :: frames)).foldl receiveOne
      (⟨true, false, kept⟩, [kept])).2 ≠ kept :: next :: frames := by
  rw [lossyTail, List.foldl_append,
    foldl_singles (Decoder.frameStart_notMem_escaped next),
    Decoder.readBytes_escaped kept next hlength, List.foldl_cons]
  by_cases hfits : kept.length + next.length ≤ rxFrameMax
  · -- both frames are delivered as one
    have hread : Decoder.readBytes ⟨true, false, kept ++ next⟩
        (frameStart :: if frames.isEmpty then [] else [frameStart]) =
          (⟨true, false, kept ++ next⟩, true) := by
      simp [Decoder.readBytes, hkept]
    rw [if_pos hfits, receiveOne_of_complete hread (by simp [hkept])]
    obtain ⟨more, hmore, -⟩ := foldl_lossyTail_grows frames
      ⟨true, false, kept ++ next⟩ [kept, kept ++ next]
    intro h
    have hsame := hmore.symm.trans h
    simp only [List.cons_append, List.nil_append, List.cons.injEq,
      true_and] at hsame
    exact hkept (by simpa using hsame.1)
  · -- the buffer overflows, and neither is
    have hread : Decoder.cleared.readBytes
        (frameStart :: if frames.isEmpty then [] else [frameStart]) =
          (Decoder.opened, false) := by
      cases frames <;> simp [Decoder.readBytes, Decoder.cleared, Decoder.opened]
    rw [if_neg hfits, receiveOne_of_incomplete hread]
    obtain ⟨more, hmore, hcount⟩ :=
      foldl_lossyTail_grows frames Decoder.opened [kept]
    intro h
    have hlengths := congrArg List.length (hmore.symm.trans h)
    simp only [List.length_append, List.length_cons, List.length_nil] at hlengths
    omega

theorem foldl_lossyCut {kept next : List UInt8} {frames : List (List UInt8)}
    (hkept : kept ≠ []) (hlength : kept.length ≤ rxFrameMax) :
    (lossyCut (kept :: next :: frames)).foldl receiveOne (.cleared, []) =
      (lossyTail (next :: frames)).foldl receiveOne
        (⟨true, false, kept⟩, [kept]) := by
  have hopen : Decoder.cleared.readBytes [frameStart] =
      (Decoder.opened, false) := by
    simp [Decoder.readBytes, Decoder.cleared]
  have hend : Decoder.readBytes ⟨true, false, kept⟩ [frameStart, frameStart] =
      (⟨true, false, kept⟩, true) := by
    simp [Decoder.readBytes, hkept]
  rw [lossyCut, List.foldl_cons, receiveOne_of_incomplete hopen, lossyTail,
    List.foldl_append, foldl_singles (Decoder.frameStart_notMem_escaped kept),
    Decoder.opened, Decoder.readBytes_escaped [] kept (Nat.zero_le _),
    if_pos (by simpa using hlength), List.foldl_cons]
  exact congrArg (fun state => (lossyTail (next :: frames)).foldl receiveOne
    state) (receiveOne_of_complete hend hkept)

/-! ## The round trip -/

/--
Frames come out as they went in, however the stream is cut, exactly where there
is at most one of them on a connection.
-/
theorem roundTrips_iff {frames : List (List UInt8)}
    (hframes : ∀ frame ∈ frames, frame ≠ [] ∧ frame.length ≤ rxFrameMax) :
    RoundTrips frames ↔ frames.length ≤ 1 := by
  constructor
  · intro hroundTrips
    by_contra hmany
    obtain ⟨kept, next, rest, rfl⟩ : ∃ kept next rest,
        frames = kept :: next :: rest := by
      match frames, hmany with
      | kept :: next :: rest, _ => exact ⟨kept, next, rest, rfl⟩
      | [], h => simp at h
      | [_], h => simp at h
    obtain ⟨hkept, hlength⟩ := hframes kept (List.mem_cons_self ..)
    have hcuts := cuts_lossyCut (List.cons_ne_nil kept (next :: rest))
    have hconnected : TcpInterface.start.connected = true := rfl
    obtain ⟨times, final, hloops⟩ :=
      TcpInterface.exists_loops hconnected rfl hcuts.isOpen
    obtain ⟨taken, htaken, hfinal⟩ :=
      TcpInterface.loops_received hcuts.isOpen hloops
    rw [List.append_nil] at htaken
    have hincoming := hroundTrips _ times final hcuts hloops
    rw [hfinal, ← htaken] at hincoming
    have hlossy : ((lossyTail (next :: rest)).foldl receiveOne
        (⟨true, false, kept⟩, [kept])).2 = kept :: next :: rest := by
      rw [← foldl_lossyCut hkept hlength]
      exact hincoming
    exact foldl_lossyTail_ne hkept hlength hlossy
  · intro hfew results times final hcuts hloops
    obtain ⟨taken, htaken, hfinal⟩ :=
      TcpInterface.loops_received hcuts.isOpen hloops
    rw [List.append_nil] at htaken
    rw [hfinal, ← htaken]
    match frames, hfew with
    | [], _ =>
        rw [foldl_receiveOne_idle hcuts]
        rfl
    | [frame], _ =>
        obtain ⟨hne, hlength⟩ := hframes frame (List.mem_cons_self ..)
        have hstream : [frame].flatMap sendFrame =
            frameStart :: frame.flatMap escapeByte ++ [frameStart] := by
          simp [sendFrame]
        rw [hstream] at hcuts
        exact foldl_receiveOne_frame hcuts
          (Decoder.readBytes_opening frame hlength) rfl hne

/-- Both frames are read at once, and the second is lost. -/
theorem frames_lost :
    (TcpInterface.start.loops [.data ([[1], [2]].flatMap sendFrame)] [0, 0]) =
        (⟨true, 0, ⟨true, false, [1]⟩, [[1]]⟩, []) ∧
      ¬ RoundTrips [[1], [2]] := by
  have hrun : (TcpInterface.start.loops
      [.data ([[1], [2]].flatMap sendFrame)] [0, 0]) =
        (⟨true, 0, ⟨true, false, [1]⟩, [[1]]⟩, []) := by
    decide
  refine ⟨hrun, fun hroundTrips => ?_⟩
  have hcuts : Cuts [.data ([[1], [2]].flatMap sendFrame)]
      ([[1], [2]].flatMap sendFrame) := by
    refine ⟨by decide, fun bytes hmem => ?_, by decide⟩
    cases List.mem_singleton.mp hmem
    decide
  have hincoming := hroundTrips _ _ _ hcuts hrun
  cases hincoming

theorem roundTrips_one : RoundTrips [[1, 0x7E, 0x7D]] :=
  (roundTrips_iff (by decide)).mpr (by decide)

end Neroshop.Transport
