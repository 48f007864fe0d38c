import Mathlib.Data.List.Induction
import Mathlib.Data.Nat.Basic
import Mathlib.Tactic.Ring

/-!
# Numbers and slices of byte strings

Big-endian numbers of a fixed width, and slices that exist only where they lie
inside the bytes they are taken from.
-/

namespace Neroshop.Foundation

def ofBigEndian (bytes : List UInt8) : Nat :=
  bytes.foldl (fun number byte => number * 256 + byte.toNat) 0

/-- The low `width` bytes of a number, the most significant first. -/
def toBigEndian : Nat → Nat → List UInt8
  | 0, _ => []
  | width + 1, number =>
      toBigEndian width (number / 256) ++ [UInt8.ofNat number]

theorem ofBigEndian_snoc (bytes : List UInt8) (byte : UInt8) :
    ofBigEndian (bytes ++ [byte]) = ofBigEndian bytes * 256 + byte.toNat := by
  simp [ofBigEndian]

theorem ofBigEndian_lt (bytes : List UInt8) :
    ofBigEndian bytes < 256 ^ bytes.length := by
  induction bytes using List.reverseRecOn with
  | nil => simp [ofBigEndian]
  | append_singleton bytes byte ih =>
      have hbyte := byte.toNat_lt
      rw [ofBigEndian_snoc, List.length_append, List.length_singleton, pow_succ]
      omega

@[simp] theorem length_toBigEndian (width number : Nat) :
    (toBigEndian width number).length = width := by
  induction width generalizing number with
  | zero => rfl
  | succ width ih => simp [toBigEndian, ih]

theorem ofBigEndian_toBigEndian {width number : Nat}
    (h : number < 256 ^ width) :
    ofBigEndian (toBigEndian width number) = number := by
  induction width generalizing number with
  | zero =>
      have hzero : number = 0 := by simpa using h
      subst hzero
      rfl
  | succ width ih =>
      have hquotient : number / 256 < 256 ^ width := by
        rw [pow_succ] at h
        exact Nat.div_lt_of_lt_mul (by rwa [mul_comm])
      rw [toBigEndian, ofBigEndian_snoc, ih hquotient]
      simp only [UInt8.toNat_ofNat']
      omega

variable {α : Type*}

def slice (elements : List α) (first last : Nat) : Option (List α) :=
  if first ≤ last ∧ last ≤ elements.length
  then some ((elements.drop first).take (last - first)) else none

theorem slice_of_le {elements : List α} {first last : Nat}
    (hfirst : first ≤ last) (hlast : last ≤ elements.length) :
    slice elements first last =
      some ((elements.drop first).take (last - first)) :=
  if_pos ⟨hfirst, hlast⟩

section Split

variable [DecidableEq α]

/-- What is in front of the first occurrence of a pattern, and behind it. -/
def splitAround (pattern : List α) : List α → Option (List α × List α)
  | [] => if pattern = [] then some ([], []) else none
  | element :: elements =>
      if pattern.isPrefixOf (element :: elements) then
        some ([], (element :: elements).drop pattern.length)
      else (splitAround pattern elements).map fun (front, back) =>
        (element :: front, back)

theorem splitAround_pattern {pattern : List α} (hpattern : pattern ≠ [])
    (back : List α) : splitAround pattern (pattern ++ back) = some ([], back) := by
  cases pattern with
  | nil => exact absurd rfl hpattern
  | cons element pattern =>
      rw [List.cons_append, splitAround, if_pos (by simp)]
      simp

theorem splitAround_eq_some {pattern elements front back : List α}
    (h : splitAround pattern elements = some (front, back)) :
    elements = front ++ pattern ++ back := by
  induction elements generalizing front with
  | nil =>
      rw [splitAround] at h
      split at h
      · rename_i hpattern
        cases h
        rw [hpattern]
        rfl
      · cases h
  | cons element elements ih =>
      rw [splitAround] at h
      split at h
      · rename_i hprefix
        cases h
        obtain ⟨rest, hrest⟩ := List.isPrefixOf_iff_prefix.mp hprefix
        rw [List.nil_append, ← hrest, List.drop_left]
      · obtain ⟨⟨earlier, rest⟩, hsplit, hcons⟩ := Option.map_eq_some_iff.mp h
        cases hcons
        rw [ih hsplit]
        rfl

/-- The first occurrence is not before the first element of the pattern. -/
theorem splitAround_append {pattern front : List α} (hpattern : pattern ≠ [])
    (back : List α) (hfront : ∀ element ∈ front, pattern.head? ≠ some element) :
    splitAround pattern (front ++ pattern ++ back) = some (front, back) := by
  induction front with
  | nil => exact splitAround_pattern hpattern back
  | cons element front ih =>
      rw [List.forall_mem_cons] at hfront
      have hprefix : ∀ elements,
          pattern.isPrefixOf (element :: elements) = false := by
        intro elements
        cases pattern with
        | nil => exact absurd rfl hpattern
        | cons first pattern =>
            have hne : first ≠ element := by simpa using hfront.1
            simp [List.isPrefixOf, hne]
      rw [List.cons_append, List.cons_append, splitAround, hprefix,
        if_neg (by simp), ih hfront.2]
      rfl

end Split

end Neroshop.Foundation
