import Mathlib.Algebra.BigOperators.Group.Finset.Basic
import Mathlib.Algebra.Order.BigOperators.Group.List
import Mathlib.Data.Rat.Lemmas
import Mathlib.Tactic.Linarith
import Mathlib.Tactic.NormNum
import Mathlib.Tactic.Ring

/-!
# Amounts in several currencies

Amounts that carry their currency are converted with a rate for every currency.
-/

namespace Neroshop.Foundation

variable {κ : Type} [DecidableEq κ]

def amountIn (amounts : List (κ × ℚ)) (currency : κ) : ℚ :=
  (amounts.map fun entry => if entry.1 = currency then entry.2 else 0).sum

/-- Every amount at the rate of its own currency. -/
def converted (rate : κ → ℚ) (amounts : List (κ × ℚ)) : ℚ :=
  (amounts.map fun entry => entry.2 / rate entry.1).sum

theorem amountIn_cons (entry : κ × ℚ) (amounts : List (κ × ℚ)) (currency : κ) :
    amountIn (entry :: amounts) currency =
      (if entry.1 = currency then entry.2 else 0) + amountIn amounts currency := by
  rw [amountIn, List.map_cons, List.sum_cons]
  rfl

theorem amountIn_nonneg {amounts : List (κ × ℚ)}
    (hpositive : ∀ entry ∈ amounts, 0 < entry.2) (currency : κ) :
    0 ≤ amountIn amounts currency := by
  refine List.sum_nonneg fun amount hamount => ?_
  obtain ⟨entry, hentry, rfl⟩ := List.mem_map.mp hamount
  split
  · exact (hpositive entry hentry).le
  · exact le_rfl

theorem amountIn_eq_zero_iff {amounts : List (κ × ℚ)}
    (hpositive : ∀ entry ∈ amounts, 0 < entry.2) {currency : κ} :
    amountIn amounts currency = 0 ↔ ∀ entry ∈ amounts, entry.1 ≠ currency := by
  induction amounts with
  | nil => exact iff_of_true rfl fun _ h => absurd h List.not_mem_nil
  | cons entry amounts ih =>
      rw [List.forall_mem_cons] at hpositive
      obtain ⟨hentry, hrest⟩ := hpositive
      have hnonneg := amountIn_nonneg hrest currency
      rw [List.forall_mem_cons, ← ih hrest, amountIn_cons]
      split
      case isTrue heq => exact iff_of_false (by linarith) fun h => h.1 heq
      case isFalse hne =>
        rw [zero_add, and_iff_right hne]

theorem converted_eq_sum [Fintype κ] (rate : κ → ℚ) (amounts : List (κ × ℚ)) :
    converted rate amounts = ∑ currency, amountIn amounts currency / rate currency := by
  induction amounts with
  | nil => simp [converted, amountIn]
  | cons entry amounts ih =>
      have hfirst : ∑ currency, (if entry.1 = currency then entry.2 else 0) /
          rate currency = entry.2 / rate entry.1 := by
        rw [Finset.sum_eq_single entry.1, if_pos rfl]
        · intro currency _ hne
          rw [if_neg (Ne.symm hne), zero_div]
        · exact fun h => absurd (Finset.mem_univ _) h
      rw [converted, List.map_cons, List.sum_cons, ← converted, ih, ← hfirst,
        ← Finset.sum_add_distrib]
      refine Finset.sum_congr rfl fun currency _ => ?_
      rw [amountIn_cons, add_div]

theorem converted_of_one [Fintype κ] {amounts : List (κ × ℚ)} {last : κ}
    (h : ∀ currency, currency ≠ last → amountIn amounts currency = 0)
    (rate : κ → ℚ) :
    converted rate amounts = amountIn amounts last / rate last := by
  rw [converted_eq_sum, Finset.sum_eq_single last]
  · intro currency _ hne
    rw [h currency hne, zero_div]
  · exact fun hmem => absurd (Finset.mem_univ _) hmem

/-- Half the rate of one currency doubles what it comes to. -/
theorem converted_half [Fintype κ] (amounts : List (κ × ℚ)) (currency : κ) :
    converted (fun other => if other = currency then 1 / 2 else 1) amounts =
      converted (fun _ => 1) amounts + amountIn amounts currency := by
  rw [converted_eq_sum, converted_eq_sum,
    ← Finset.add_sum_erase _ _ (Finset.mem_univ currency),
    ← Finset.add_sum_erase _ _ (Finset.mem_univ currency), if_pos rfl]
  have hrest : ∑ other ∈ Finset.univ.erase currency, amountIn amounts other /
      (if other = currency then 1 / 2 else 1) =
      ∑ other ∈ Finset.univ.erase currency, amountIn amounts other / 1 :=
    Finset.sum_congr rfl fun other hother => by
      rw [if_neg (Finset.ne_of_mem_erase hother)]
  rw [hrest]
  ring

/-- One conversion of a sum does for all amounts, whatever the rates are, when
nothing is left in the other currencies. -/
theorem converted_at_one_iff [Fintype κ] (amounts : List (κ × ℚ)) (last : κ)
    (sum : ℚ) :
    (∀ rate : κ → ℚ, (∀ currency, 0 < rate currency) →
        sum / rate last = converted rate amounts) ↔
      (∀ currency, currency ≠ last → amountIn amounts currency = 0) ∧
        sum = converted (fun _ => 1) amounts := by
  constructor
  · intro h
    have hone := h (fun _ => 1) fun _ => one_pos
    rw [div_one] at hone
    refine ⟨fun currency hne => ?_, hone⟩
    have hhalf := h (fun other => if other = currency then 1 / 2 else 1) fun other => by
      split <;> norm_num
    rw [converted_half, if_neg (Ne.symm hne), div_one, hone] at hhalf
    linarith
  · rintro ⟨hothers, rfl⟩ rate hrate
    rw [converted_of_one hothers, converted_of_one hothers, div_one]

end Neroshop.Foundation
