import Neroshop.Routing.NodeId

/-!
# The ultrametric law of the distance

The distance is the length of a common prefix, so of the three distances
between three ids the two smallest are equal.  As there are only two bits, ids
that leave a third one at the same bit agree on that bit.
-/

namespace Neroshop.Routing

open Neroshop.Foundation

section Three

variable (first second third : XorId)

theorem xorDistanceBitIndex_comm :
    xorDistanceBitIndex first second = xorDistanceBitIndex second first := by
  rw [xorDistanceBitIndex_eq, xorDistanceBitIndex_eq, commonFront_comm]

theorem min_le_xorDistanceBitIndex :
    min (xorDistanceBitIndex first second) (xorDistanceBitIndex second third) ≤
      xorDistanceBitIndex first third := by
  simp only [xorDistanceBitIndex_eq]
  exact min_le_commonFront _ _ _

variable {first second third}

theorem xorDistanceBitIndex_eq_min
    (h : xorDistanceBitIndex first second ≠ xorDistanceBitIndex second third) :
    xorDistanceBitIndex first third =
      min (xorDistanceBitIndex first second)
        (xorDistanceBitIndex second third) := by
  simp only [xorDistanceBitIndex_eq] at h ⊢
  exact commonFront_eq_min h

/-- Two ids in one bucket are closer to each other than to the table's id. -/
theorem lt_xorDistanceBitIndex (hne : first ≠ second)
    (hthird : xorDistanceBitIndex first third =
      xorDistanceBitIndex first second) :
    xorDistanceBitIndex first second < xorDistanceBitIndex second third := by
  have hlow := min_le_xorDistanceBitIndex second first third
  rw [xorDistanceBitIndex_comm second first, hthird, min_self] at hlow
  refine lt_of_le_of_ne hlow fun heq => ?_
  have hfirst : first ≠ third := by
    rintro rfl
    rw [xorDistanceBitIndex_eq_size.mpr rfl] at hthird
    exact hne (xorDistanceBitIndex_eq_size.mp hthird.symm)
  have hsecond : second ≠ third := by
    rintro rfl
    rw [xorDistanceBitIndex_eq_size.mpr rfl] at heq
    exact hne (xorDistanceBitIndex_eq_size.mp heq)
  obtain ⟨-, hfs⟩ := differsFirstAt_distance hne
  obtain ⟨-, hft⟩ := differsFirstAt_distance hfirst
  obtain ⟨-, hst⟩ := differsFirstAt_distance hsecond
  rw [hthird] at hft
  rw [← heq] at hst
  have hlt := xorDistanceBitIndex_lt hne.symm
  have hget (id : XorId) : ∃ bit,
      id.bits[xorDistanceBitIndex first second]? = some bit := by
    rw [List.getElem?_eq_getElem (by rw [length_bits]; exact hlt)]
    exact ⟨_, rfl⟩
  obtain ⟨bit, hbit⟩ := hget first
  obtain ⟨other, hother⟩ := hget second
  obtain ⟨another, hanother⟩ := hget third
  rw [hbit, hother] at hfs
  rw [hbit, hanother] at hft
  rw [hother, hanother] at hst
  cases bit <;> cases other <;> cases another <;> simp_all

end Three

/--
`xor_distance_bit_index` counts the leading bits that agree, all 256 for equal
ids only, is symmetric and never below the smaller of two distances that lead
to it.
-/
theorem xorDistanceBitIndex_laws (first second third : XorId) :
    xorDistanceBitIndex first second = commonFront first.bits second.bits ∧
      (xorDistanceBitIndex first second = 256 ↔ first = second) ∧
      xorDistanceBitIndex first second = xorDistanceBitIndex second first ∧
      min (xorDistanceBitIndex first second)
          (xorDistanceBitIndex second third) ≤
        xorDistanceBitIndex first third ∧
      (xorDistanceBitIndex first second ≠ xorDistanceBitIndex second third →
        xorDistanceBitIndex first third =
          min (xorDistanceBitIndex first second)
            (xorDistanceBitIndex second third)) :=
  ⟨xorDistanceBitIndex_eq first second, xorDistanceBitIndex_eq_size,
    xorDistanceBitIndex_comm first second,
    min_le_xorDistanceBitIndex first second third, xorDistanceBitIndex_eq_min⟩

end Neroshop.Routing
