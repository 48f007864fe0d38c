import Neroshop.Foundation.Bytes
import Neroshop.Foundation.Framing

/-!
# Framed messages from Tor peers

A frame is a length prefix, the sender's onion address, its port and a payload.
`takeFrame` is one round of the loop in `run_tor` over the bytes a peer has
sent so far.  Each slice is taken, and each erasure made, only inside the
buffer; otherwise the round faults.
-/

namespace Neroshop.Tor

open Neroshop.Foundation

structure Frame where
  fullOnion : List UInt8
  senderPort : Nat
  payload : List UInt8
  deriving DecidableEq, Repr

def onionSuffix : List UInt8 := [46, 111, 110, 105, 111, 110]

/-- `buffer.erase(buffer.begin(), buffer.begin() + count)`. -/
def eraseFront (buffer : List UInt8) (count : Nat) : Option (List UInt8) :=
  if count ≤ buffer.length then some (buffer.drop count) else none

def parseFrame (data : List UInt8) (totalLen : Nat) : Option Frame := do
  let senderOnion ← slice data 0 56
  let senderPort ← slice data 56 (56 + 2)
  let payload ← slice data (56 + 2) totalLen
  return ⟨senderOnion ++ onionSuffix, ofBigEndian senderPort, payload⟩

/--
One round of the loop.  The length is compared in 32-bit arithmetic, while the
erased range is computed on iterators and does not wrap.
-/
def takeFrame (buffer : List UInt8) : Pull UInt8 Frame :=
  if buffer.length < 4 then .wait
  else
    let totalLen := ofBigEndian (buffer.take 4)
    if buffer.length < (4 + totalLen) % 2 ^ 32 then .wait
    else if totalLen < 56 + 2 then
      -- a malformed frame is skipped
      match eraseFront buffer (4 + totalLen) with
      | some rest => .take none rest
      | none => .fault
    else
      match parseFrame (buffer.drop 4) totalLen,
          eraseFront buffer (4 + totalLen) with
      | some frame, some rest => .take (some frame) rest
      | _, _ => .fault

/-- The length in the prefix at the front of a stream, when it is there. -/
def declaredLength (stream : List UInt8) : Option Nat :=
  if stream.length < 4 then none else some (ofBigEndian (stream.take 4))

/-- What a complete frame of this length carries; a short one carries nothing. -/
def frameOutput (buffer : List UInt8) (totalLen : Nat) : Option Frame :=
  if totalLen < 56 + 2 then none
  else some
    ⟨(buffer.drop 4).take 56 ++ onionSuffix,
      ofBigEndian ((buffer.drop 60).take 2),
      (buffer.drop 62).take (totalLen - 58)⟩

section Rounds

variable {buffer : List UInt8} {totalLen : Nat}

theorem declaredLength_eq_some : declaredLength buffer = some totalLen ↔
    4 ≤ buffer.length ∧ ofBigEndian (buffer.take 4) = totalLen := by
  unfold declaredLength
  split <;> simp <;> omega

theorem declaredLength_eq_none :
    declaredLength buffer = none ↔ buffer.length < 4 := by
  unfold declaredLength
  split <;> simp <;> omega

theorem declaredLength_lt (h : declaredLength buffer = some totalLen) :
    totalLen < 2 ^ 32 := by
  obtain ⟨hlength, rfl⟩ := declaredLength_eq_some.mp h
  have hlt := ofBigEndian_lt (buffer.take 4)
  rwa [List.length_take, min_eq_left hlength] at hlt

theorem declaredLength_append (h : declaredLength buffer = some totalLen)
    (more : List UInt8) : declaredLength (buffer ++ more) = some totalLen := by
  obtain ⟨hlength, hprefix⟩ := declaredLength_eq_some.mp h
  rw [declaredLength_eq_some, List.length_append,
    List.take_append_of_le_length hlength]
  exact ⟨by omega, hprefix⟩

theorem takeFrame_of_short (h : declaredLength buffer = none) :
    takeFrame buffer = .wait := by
  rw [takeFrame, if_pos (declaredLength_eq_none.mp h)]

theorem takeFrame_of_declared (h : declaredLength buffer = some totalLen) :
    takeFrame buffer =
      if buffer.length < (4 + totalLen) % 2 ^ 32 then .wait
      else if totalLen < 56 + 2 then
        match eraseFront buffer (4 + totalLen) with
        | some rest => .take none rest
        | none => .fault
      else
        match parseFrame (buffer.drop 4) totalLen,
            eraseFront buffer (4 + totalLen) with
        | some frame, some rest => .take (some frame) rest
        | _, _ => .fault := by
  obtain ⟨hlength, rfl⟩ := declaredLength_eq_some.mp h
  rw [takeFrame, if_neg (by omega)]

theorem takeFrame_of_incomplete (h : declaredLength buffer = some totalLen)
    (hsmall : totalLen < 2 ^ 32 - 4) (hlength : buffer.length < 4 + totalLen) :
    takeFrame buffer = .wait := by
  rw [takeFrame_of_declared h, if_pos]
  rwa [Nat.mod_eq_of_lt (by omega)]

theorem takeFrame_of_complete (h : declaredLength buffer = some totalLen)
    (hlength : 4 + totalLen ≤ buffer.length) :
    takeFrame buffer =
      .take (frameOutput buffer totalLen) (buffer.drop (4 + totalLen)) := by
  have hmod := Nat.mod_le (4 + totalLen) (2 ^ 32)
  rw [takeFrame_of_declared h, if_neg (by omega), eraseFront, if_pos hlength,
    frameOutput]
  by_cases hheader : totalLen < 56 + 2
  · rw [if_pos hheader, if_pos hheader]
  · have hdata : totalLen ≤ (buffer.drop 4).length := by
      rw [List.length_drop]
      omega
    rw [if_neg hheader, if_neg hheader, parseFrame,
      slice_of_le (by omega) (by omega), slice_of_le (by omega) (by omega),
      slice_of_le (by omega) hdata]
    simp [List.drop_drop]

theorem takeFrame_of_wrapped (h : declaredLength buffer = some totalLen)
    (hlarge : 2 ^ 32 - 4 ≤ totalLen) (hlength : buffer.length < 4 + totalLen) :
    takeFrame buffer = .fault := by
  have hlt := declaredLength_lt h
  have hfour := (declaredLength_eq_some.mp h).1
  have hwrap : (4 + totalLen) % 2 ^ 32 = 4 + totalLen - 2 ^ 32 := by omega
  rw [takeFrame_of_declared h, hwrap, if_neg (by omega), if_neg (by omega),
    eraseFront, if_neg (by omega)]
  split
  · contradiction
  · rfl

theorem takeFrame_eq_take {output : Option Frame} {rest : List UInt8}
    (h : takeFrame buffer = .take output rest) :
    ∃ totalLen, declaredLength buffer = some totalLen ∧
      4 + totalLen ≤ buffer.length ∧ output = frameOutput buffer totalLen ∧
      rest = buffer.drop (4 + totalLen) := by
  cases hdeclared : declaredLength buffer with
  | none =>
      rw [takeFrame_of_short hdeclared] at h
      cases h
  | some totalLen =>
      by_cases hlength : 4 + totalLen ≤ buffer.length
      · rw [takeFrame_of_complete hdeclared hlength, Pull.take.injEq] at h
        exact ⟨totalLen, rfl, hlength, h.1.symm, h.2.symm⟩
      · by_cases hsmall : totalLen < 2 ^ 32 - 4
        · rw [takeFrame_of_incomplete hdeclared hsmall (by omega)] at h
          cases h
        · rw [takeFrame_of_wrapped hdeclared (by omega) (by omega)] at h
          cases h

/-- A round faults on a length that wraps, and on no other. -/
theorem takeFrame_eq_fault (h : takeFrame buffer = .fault) :
    ∃ totalLen, declaredLength buffer = some totalLen ∧
      2 ^ 32 - 4 ≤ totalLen := by
  cases hdeclared : declaredLength buffer with
  | none =>
      rw [takeFrame_of_short hdeclared] at h
      cases h
  | some totalLen =>
      refine ⟨totalLen, rfl, ?_⟩
      by_contra hsmall
      by_cases hlength : 4 + totalLen ≤ buffer.length
      · rw [takeFrame_of_complete hdeclared hlength] at h
        cases h
      · rw [takeFrame_of_incomplete hdeclared (by omega) (by omega)] at h
        cases h

theorem takeFrame_eq_wait (h : takeFrame buffer = .wait)
    (hdeclared : declaredLength buffer = some totalLen) :
    totalLen < 2 ^ 32 - 4 ∧ buffer.length < 4 + totalLen := by
  by_cases hlength : 4 + totalLen ≤ buffer.length
  · rw [takeFrame_of_complete hdeclared hlength] at h
    cases h
  · by_cases hsmall : totalLen < 2 ^ 32 - 4
    · exact ⟨hsmall, by omega⟩
    · rw [takeFrame_of_wrapped hdeclared (by omega) (by omega)] at h
      cases h

theorem takeFrame_progressive : Progressive takeFrame := by
  intro buffer output rest h
  obtain ⟨totalLen, -, hlength, -, rfl⟩ := takeFrame_eq_take h
  rw [List.length_drop]
  omega

theorem takeFrame_extensible : Extensible takeFrame := by
  intro buffer output rest more h
  obtain ⟨totalLen, hdeclared, hlength, rfl, rfl⟩ := takeFrame_eq_take h
  rw [takeFrame_of_complete (declaredLength_append hdeclared more)
    (by rw [List.length_append]; omega),
    List.drop_append_of_le_length hlength]
  congr 1
  unfold frameOutput
  split
  · rfl
  · next hheader =>
      rw [List.drop_append_of_le_length (by omega),
        List.drop_append_of_le_length (by omega),
        List.drop_append_of_le_length (by omega),
        List.take_append_of_le_length (by rw [List.length_drop]; omega),
        List.take_append_of_le_length (by rw [List.length_drop]; omega),
        List.take_append_of_le_length (by rw [List.length_drop]; omega)]

end Rounds

end Neroshop.Tor
