import Neroshop.Tor.Frame

/-!
# The frame loop on a stream from a peer

`declaredLengths` walks a stream frame by frame with unbounded numbers.  The
loop of `run_tor` is safe on a stream exactly when all of these lengths stay
below the last four 32-bit numbers.
-/

namespace Neroshop.Tor

open Neroshop.Foundation

/-- What one `recv` into an array of 4096 bytes can return. -/
structure RecvChunk where
  bytes : List UInt8
  nonempty : bytes ≠ []
  bounded : bytes.length ≤ 4096

/-- The loop over the bytes of one connection, as they arrive. -/
def receiveChunks (chunks : List RecvChunk) : Drain UInt8 Frame :=
  receive takeFrame [] (chunks.map RecvChunk.bytes)

/-- The length prefixes of a stream; the last frame may be incomplete. -/
def declaredLengths (stream : List UInt8) : List Nat :=
  match declaredLength stream with
  | none => []
  | some totalLen =>
      totalLen ::
        if _h : 4 + totalLen ≤ stream.length
        then declaredLengths (stream.drop (4 + totalLen)) else []
termination_by stream.length
decreasing_by
  rw [List.length_drop]
  omega

/-- No length prefix of the stream wraps when 4 is added to it. -/
def Unwrapped (stream : List UInt8) : Prop :=
  ∀ totalLen ∈ declaredLengths stream, totalLen < 2 ^ 32 - 4

section Streams

variable {stream buffer rest : List UInt8} {totalLen : Nat}

theorem unwrapped_of_undeclared (h : declaredLength stream = none) :
    Unwrapped stream := by
  rw [Unwrapped, declaredLengths, h]
  simp

theorem unwrapped_of_incomplete (h : declaredLength stream = some totalLen)
    (hlength : stream.length < 4 + totalLen) :
    Unwrapped stream ↔ totalLen < 2 ^ 32 - 4 := by
  rw [Unwrapped, declaredLengths, h]
  simp [Nat.not_le.mpr hlength]

theorem unwrapped_of_complete (h : declaredLength stream = some totalLen)
    (hlength : 4 + totalLen ≤ stream.length) :
    Unwrapped stream ↔ totalLen < 2 ^ 32 - 4 ∧
      Unwrapped (stream.drop (4 + totalLen)) := by
  rw [Unwrapped, declaredLengths, h]
  simp [hlength, Unwrapped]

theorem not_unwrapped (h : declaredLength stream = some totalLen)
    (hlarge : 2 ^ 32 - 4 ≤ totalLen) : ¬ Unwrapped stream := by
  by_cases hlength : 4 + totalLen ≤ stream.length
  · rw [unwrapped_of_complete h hlength]
    omega
  · rw [unwrapped_of_incomplete h (by omega)]
    omega

theorem unwrapped_take {output : Option Frame} (more : List UInt8)
    (hsmall : ∀ totalLen, declaredLength buffer = some totalLen →
      4 + totalLen ≤ buffer.length → totalLen < 2 ^ 32 - 4)
    (h : takeFrame buffer = .take output rest) :
    Unwrapped (buffer ++ more) ↔ Unwrapped (rest ++ more) := by
  obtain ⟨totalLen, hdeclared, hlength, -, rfl⟩ := takeFrame_eq_take h
  rw [unwrapped_of_complete (declaredLength_append hdeclared more)
    (by rw [List.length_append]; omega),
    List.drop_append_of_le_length hlength]
  exact and_iff_right (hsmall totalLen hdeclared hlength)

/--
The loop over a buffer of fewer than 2³² bytes settles when the stream it
belongs to is unwrapped, and what is left of the stream is unwrapped if the
stream was.
-/
theorem drain_unwrapped (hlength : buffer.length < 2 ^ 32)
    (more : List UInt8) :
    (drain takeFrame buffer = .faulted → ¬ Unwrapped (buffer ++ more)) ∧
      ∀ outputs rest, drain takeFrame buffer = .settled outputs rest →
        (Unwrapped (buffer ++ more) ↔ Unwrapped (rest ++ more)) := by
  induction buffer using drain_induction takeFrame_progressive with
  | wait buffer h =>
      rw [drain_of_wait takeFrame_progressive h]
      refine ⟨by simp, fun outputs rest hsettled => ?_⟩
      rw [(Drain.settled.inj hsettled).2]
  | fault buffer h =>
      rw [drain_of_fault takeFrame_progressive h]
      refine ⟨fun _ => ?_, by simp⟩
      obtain ⟨totalLen, hdeclared, hlarge⟩ := takeFrame_eq_fault h
      exact not_unwrapped (declaredLength_append hdeclared more) hlarge
  | take buffer output rest h ih =>
      have hshorter := takeFrame_progressive buffer output rest h
      obtain ⟨hfault, hsettle⟩ := ih (by omega)
      rw [drain_of_take takeFrame_progressive h,
        unwrapped_take more (fun totalLen _ _ => by omega) h]
      refine ⟨fun hafter => hfault (Drain.after_eq_faulted.mp hafter), ?_⟩
      intro outputs rest' hsettled
      obtain ⟨later, hlater, -⟩ := Drain.after_eq_settled hsettled
      exact hsettle later rest' hlater

/--
The same behind a buffer that waits, which may itself be almost 2³² bytes
long: its first frame does not wrap.
-/
theorem drain_unwrapped_of_wait (hwait : takeFrame buffer = .wait)
    (chunk : RecvChunk) (more : List UInt8) :
    (drain takeFrame (buffer ++ chunk.bytes) = .faulted →
        ¬ Unwrapped (buffer ++ chunk.bytes ++ more)) ∧
      ∀ outputs rest,
        drain takeFrame (buffer ++ chunk.bytes) = .settled outputs rest →
        (Unwrapped (buffer ++ chunk.bytes ++ more) ↔
          Unwrapped (rest ++ more)) := by
  have hbounded := chunk.bounded
  have hlength : (buffer ++ chunk.bytes).length =
      buffer.length + chunk.bytes.length := List.length_append
  cases hdeclared : declaredLength buffer with
  | none =>
      have hshort := declaredLength_eq_none.mp hdeclared
      exact drain_unwrapped (by omega) more
  | some totalLen =>
      obtain ⟨hsmall, hincomplete⟩ := takeFrame_eq_wait hwait hdeclared
      have hdeclared' := declaredLength_append hdeclared chunk.bytes
      by_cases hcomplete : 4 + totalLen ≤ (buffer ++ chunk.bytes).length
      swap
      · exact drain_unwrapped (by omega) more
      have htake := takeFrame_of_complete hdeclared' hcomplete
      have hrest : ((buffer ++ chunk.bytes).drop (4 + totalLen)).length <
          2 ^ 32 := by
        rw [List.length_drop]
        omega
      obtain ⟨hfault, hsettle⟩ := drain_unwrapped hrest more
      rw [drain_of_take takeFrame_progressive htake, unwrapped_take more ?_ htake]
      · refine ⟨fun hafter => hfault (Drain.after_eq_faulted.mp hafter), ?_⟩
        intro outputs rest' hsettled
        obtain ⟨later, hlater, -⟩ := Drain.after_eq_settled hsettled
        exact hsettle later rest' hlater
      · intro totalLen' hother _
        rw [hdeclared', Option.some.injEq] at hother
        omega

theorem receive_settles_iff (hwait : takeFrame buffer = .wait)
    (chunks : List RecvChunk) :
    (receive takeFrame buffer (chunks.map RecvChunk.bytes)).Settles ↔
      Unwrapped (buffer ++ (chunks.map RecvChunk.bytes).flatten) := by
  induction chunks generalizing buffer with
  | nil =>
      refine iff_of_true ⟨[], buffer, rfl⟩ ?_
      rw [List.map_nil, List.flatten_nil, List.append_nil]
      cases hdeclared : declaredLength buffer with
      | none => exact unwrapped_of_undeclared hdeclared
      | some totalLen =>
          obtain ⟨hsmall, hlength⟩ := takeFrame_eq_wait hwait hdeclared
          exact (unwrapped_of_incomplete hdeclared hlength).mpr hsmall
  | cons chunk chunks ih =>
      obtain ⟨hfault, hsettle⟩ := drain_unwrapped_of_wait hwait chunk
        (chunks.map RecvChunk.bytes).flatten
      rw [List.map_cons, List.flatten_cons, ← List.append_assoc, receive_cons]
      cases hdrain : drain takeFrame (buffer ++ chunk.bytes) with
      | faulted => exact iff_of_false (by simp [Drain.Settles]) (hfault hdrain)
      | exhausted =>
          exact absurd hdrain (drain_ne_exhausted takeFrame_progressive _)
      | settled outputs rest =>
          have hrest := drain_settled_wait takeFrame_progressive hdrain
          rw [hsettle outputs rest hdrain, ← ih hrest]
          exact Drain.settles_after

/--
The loop over the bytes of a connection always ends.  It ends without an access
outside the buffer exactly when no length prefix of the stream wraps.  A round
that does not fault takes a frame only with all of its declared length.
-/
theorem receiveChunks_safe_iff (chunks : List RecvChunk) :
    receiveChunks chunks ≠ .exhausted ∧
      ((receiveChunks chunks).Settles ↔
        Unwrapped (chunks.map RecvChunk.bytes).flatten) ∧
      ∀ buffer output rest, takeFrame buffer = .take output rest →
        ∃ totalLen, declaredLength buffer = some totalLen ∧
          4 + totalLen ≤ buffer.length ∧
          rest = buffer.drop (4 + totalLen) := by
  have hempty : takeFrame [] = .wait := rfl
  refine ⟨receive_ne_exhausted takeFrame_progressive _ _, ?_, ?_⟩
  · rw [receiveChunks, receive_settles_iff hempty, List.nil_append]
  · intro buffer output rest htake
    obtain ⟨totalLen, hdeclared, hlength, -, hrest⟩ := takeFrame_eq_take htake
    exact ⟨totalLen, hdeclared, hlength, hrest⟩

end Streams

/-- Four bytes that announce a frame of 2³² - 1 bytes. -/
def wrappingChunk : RecvChunk := ⟨[255, 255, 255, 255], by simp, by simp⟩

theorem receiveChunks_wrapping :
    receiveChunks [wrappingChunk] = .faulted := by
  decide

end Neroshop.Tor
