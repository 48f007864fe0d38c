import Mathlib.Tactic.Ring
import Neroshop.Foundation.CommonFront

/-!
# Groups of bits

Bits are cut into groups of one width, the last of them filled up with zeros,
which is how the encodings with 2, 16, 32 or 64 characters read their input.
-/

namespace Neroshop.Foundation

variable {width : Nat} {bits other : List Bool}

/-- The bits in groups of that width. -/
def bitGroups (width : Nat) (bits : List Bool) : List (List Bool) :=
  (List.range ((bits.length + (width - 1)) / width)).map fun i =>
    ((bits.drop (width * i)).take width).rightpad width false

theorem length_bitGroups (width : Nat) (bits : List Bool) :
    (bitGroups width bits).length = (bits.length + (width - 1)) / width := by
  rw [bitGroups, List.length_map, List.length_range]

theorem getElem?_bitGroups {i : Nat}
    (hi : i < (bits.length + (width - 1)) / width) :
    (bitGroups width bits)[i]? =
      some (((bits.drop (width * i)).take width).rightpad width false) := by
  rw [bitGroups, List.getElem?_map, List.getElem?_range hi, Option.map_some]

theorem length_of_mem_bitGroups {group : List Bool}
    (h : group ∈ bitGroups width bits) : group.length = width := by
  obtain ⟨i, -, rfl⟩ := List.mem_map.mp h
  rw [List.rightpad, List.length_append, List.length_replicate,
    List.length_take]
  omega

theorem bitGroups_nil (hwidth : 0 < width) : bitGroups width [] = [] := by
  rw [bitGroups, List.length_nil, Nat.div_eq_of_lt (by omega)]
  rfl

/-- The last group is the one that is filled. -/
theorem bitGroups_of_lt (hwidth : bits.length < width) (hne : bits ≠ []) :
    bitGroups width bits = [bits.rightpad width false] := by
  have hpos := List.length_pos_iff.mpr hne
  have hone : (bits.length + (width - 1)) / width = 1 := by
    refine Nat.div_eq_of_lt_le ?_ ?_ <;> omega
  rw [bitGroups, hone]
  simp [List.take_of_length_le hwidth.le, Nat.min_eq_right hwidth.le]

theorem bitGroups_append (hwidth : 0 < width) {front : List Bool}
    (hfront : front.length = width) (rest : List Bool) :
    bitGroups width (front ++ rest) = front :: bitGroups width rest := by
  have hcount : ((front ++ rest).length + (width - 1)) / width =
      (rest.length + (width - 1)) / width + 1 := by
    have hsum : (front ++ rest).length + (width - 1) =
        rest.length + (width - 1) + width := by
      rw [List.length_append]
      omega
    rw [hsum, Nat.add_div_right _ hwidth]
  rw [bitGroups, hcount, List.range_succ_eq_map, List.map_cons, List.map_map,
    bitGroups]
  congr 1
  · simp [← hfront]
  · refine List.map_congr_left fun i _ => ?_
    have hdrop : (front ++ rest).drop (width * (i + 1)) =
        rest.drop (width * i) := by
      rw [List.drop_append, hfront, List.drop_eq_nil_of_le
        (by rw [hfront]; exact Nat.le_mul_of_pos_right _ i.succ_pos),
        List.nil_append]
      congr 1
      rw [Nat.mul_succ, Nat.add_sub_cancel]
    simp only [Function.comp_apply, Nat.succ_eq_add_one, hdrop]

/-- The groups and the length say what the bits are. -/
theorem bitGroups_inj (hwidth : 0 < width) (hlength : bits.length = other.length)
    (h : bitGroups width bits = bitGroups width other) : bits = other := by
  induction hn : bits.length using Nat.strongRecOn generalizing bits other with
  | ind n ih =>
  subst hn
  by_cases hshort : bits.length < width
  · by_cases hnil : bits = []
    · rw [hnil, List.length_nil] at hlength
      rw [hnil, List.length_eq_zero_iff.mp hlength.symm]
    · have hother : other ≠ [] := by
        rintro rfl
        exact hnil (List.length_eq_zero_iff.mp hlength)
      rw [bitGroups_of_lt hshort hnil, bitGroups_of_lt (hlength ▸ hshort) hother,
        List.cons.injEq, List.rightpad, List.rightpad] at h
      exact (List.append_inj h.1 hlength).1
  · have hwhole := Nat.not_lt.mp hshort
    have hbits : (bits.take width).length = width := by
      rw [List.length_take]
      omega
    have hother : (other.take width).length = width := by
      rw [List.length_take]
      omega
    rw [← List.take_append_drop width bits, ← List.take_append_drop width other,
      bitGroups_append hwidth hbits, bitGroups_append hwidth hother,
      List.cons.injEq] at h
    have hrest : bits.drop width = other.drop width := by
      refine ih (bits.drop width).length ?_ ?_ h.2 rfl
      · rw [List.length_drop]
        omega
      · rw [List.length_drop, List.length_drop, hlength]
    rw [← List.take_append_drop width bits, ← List.take_append_drop width other,
      h.1, hrest]

/-! ## The numbers of groups -/

theorem numberOf_append (bits more : List Bool) :
    numberOf (bits ++ more) =
      numberOf bits * 2 ^ more.length + numberOf more := by
  induction bits with
  | nil => simp [numberOf]
  | cons bit bits ih =>
      rw [List.cons_append, numberOf, ih, numberOf, List.length_append, pow_add]
      ring

theorem numberOf_replicate_false (count : Nat) :
    numberOf (List.replicate count false) = 0 := by
  induction count with
  | zero => rfl
  | succ count ih => simp [List.replicate_succ, numberOf, ih]

/-- Zeros behind a number shift it. -/
theorem numberOf_rightpad :
    numberOf (bits.rightpad width false) =
      numberOf bits * 2 ^ (width - bits.length) := by
  rw [List.rightpad, numberOf_append, numberOf_replicate_false,
    List.length_replicate, Nat.add_zero]

theorem numberOf_take :
    numberOf (bits.take width) =
      numberOf bits / 2 ^ (bits.length - width) := by
  have hsplit := numberOf_append (bits.take width) (bits.drop width)
  have hlt := numberOf_lt (bits.drop width)
  rw [List.take_append_drop, List.length_drop] at hsplit
  rw [List.length_drop] at hlt
  rw [hsplit, Nat.mul_comm, Nat.mul_add_div (Nat.two_pow_pos _),
    Nat.div_eq_of_lt hlt, Nat.add_zero]

theorem numberOf_drop :
    numberOf (bits.drop width) =
      numberOf bits % 2 ^ (bits.length - width) := by
  have hsplit := numberOf_append (bits.take width) (bits.drop width)
  have hlt := numberOf_lt (bits.drop width)
  rw [List.take_append_drop, List.length_drop] at hsplit
  rw [List.length_drop] at hlt
  rw [hsplit, Nat.mul_comm, Nat.mul_add_mod, Nat.mod_eq_of_lt hlt]

theorem numberOf_inj (hlength : bits.length = other.length)
    (h : numberOf bits = numberOf other) : bits = other := by
  induction bits generalizing other with
  | nil => exact (List.length_eq_zero_iff.mp hlength.symm).symm
  | cons bit bits ih =>
      cases other with
      | nil => simp at hlength
      | cons bit' other =>
          rw [List.length_cons, List.length_cons, Nat.succ.injEq] at hlength
          have hbits := numberOf_lt bits
          have hother := numberOf_lt other
          rw [numberOf, numberOf, hlength] at h
          rw [hlength] at hbits
          cases bit <;> cases bit' <;>
            simp only [Bool.toNat_false, Bool.toNat_true, zero_mul,
              one_mul] at h
          · rw [ih hlength (by omega)]
          · omega
          · omega
          · rw [ih hlength (by omega)]

end Neroshop.Foundation
