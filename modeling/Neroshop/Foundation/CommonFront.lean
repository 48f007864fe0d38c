import Mathlib.Algebra.Group.Nat.Defs
import Mathlib.Data.List.Basic

/-!
# The common front of two lists

`commonFront` counts the leading elements on which two lists agree.  On lists
of one length it is the index of their first difference, and among any three
lists the two smallest counts are equal.  Read as numbers, lists of bits are in
the order of their first ones.
-/

namespace Neroshop.Foundation

variable {α : Type*} [DecidableEq α]

/-- The number of leading elements on which two lists agree. -/
def commonFront : List α → List α → Nat
  | a :: as, b :: bs => if a = b then commonFront as bs + 1 else 0
  | _, _ => 0

/-- The lists agree before the index and differ there. -/
def DiffersFirstAt (first second : List α) (index : Nat) : Prop :=
  first.take index = second.take index ∧ first[index]? ≠ second[index]?

@[simp] theorem commonFront_self (as : List α) :
    commonFront as as = as.length := by
  induction as with
  | nil => rfl
  | cons a as ih => simp [commonFront, ih]

theorem commonFront_le_length (as bs : List α) :
    commonFront as bs ≤ as.length := by
  induction as generalizing bs with
  | nil => simp [commonFront]
  | cons a as ih =>
      cases bs with
      | nil => simp [commonFront]
      | cons b bs =>
          rw [commonFront]
          split
          · exact Nat.succ_le_succ (ih bs)
          · exact Nat.zero_le _

theorem eq_of_commonFront_eq {as bs : List α} (hlength : as.length = bs.length)
    (h : commonFront as bs = as.length) : as = bs := by
  induction as generalizing bs with
  | nil => exact (List.length_eq_zero_iff.mp hlength.symm).symm
  | cons a as ih =>
      cases bs with
      | nil => simp at hlength
      | cons b bs =>
          rw [commonFront] at h
          split at h
          · next heq =>
              rw [heq, ih (by simpa using hlength) (by simpa using h)]
          · simp at h

theorem differsFirstAt_commonFront {as bs : List α}
    (hlength : as.length = bs.length) (hne : as ≠ bs) :
    DiffersFirstAt as bs (commonFront as bs) := by
  induction as generalizing bs with
  | nil => exact absurd (List.length_eq_zero_iff.mp hlength.symm).symm hne
  | cons a as ih =>
      cases bs with
      | nil => simp at hlength
      | cons b bs =>
          rw [commonFront]
          split
          · next heq =>
              obtain ⟨htake, hget⟩ := ih (by simpa using hlength)
                (by simpa [heq] using hne)
              exact ⟨by simp [heq, htake], by simpa using hget⟩
          · next hdiffer => exact ⟨by simp, by simpa using hdiffer⟩

theorem commonFront_of_differsFirstAt {as bs : List α} {index : Nat}
    (h : DiffersFirstAt as bs index) : commonFront as bs = index := by
  induction index generalizing as bs with
  | zero =>
      cases as with
      | nil => rfl
      | cons a as =>
          cases bs with
          | nil => rfl
          | cons b bs => exact if_neg (by simpa using h.2)
  | succ index ih =>
      obtain ⟨htake, hget⟩ := h
      cases as with
      | nil =>
          cases bs with
          | nil => exact absurd rfl hget
          | cons b bs => simp at htake
      | cons a as =>
          cases bs with
          | nil => simp at htake
          | cons b bs =>
              rw [List.take_succ_cons, List.take_succ_cons,
                List.cons.injEq] at htake
              rw [List.getElem?_cons_succ, List.getElem?_cons_succ] at hget
              rw [commonFront, if_pos htake.1, ih ⟨htake.2, hget⟩]

theorem commonFront_append {as bs : List α} (hlength : as.length = bs.length)
    (more more' : List α) :
    commonFront (as ++ more) (bs ++ more') =
      if as = bs then as.length + commonFront more more'
      else commonFront as bs := by
  induction as generalizing bs with
  | nil =>
      have hnil : bs = [] := List.length_eq_zero_iff.mp hlength.symm
      simp [hnil]
  | cons a as ih =>
      cases bs with
      | nil => simp at hlength
      | cons b bs =>
          have hrest := ih (show as.length = bs.length by simpa using hlength)
          simp only [List.cons_append, commonFront, hrest, List.cons.injEq,
            List.length_cons]
          by_cases hhead : a = b <;> by_cases htail : as = bs <;>
            simp [hhead, htail]
          omega

/-- The common front is the number of agreements before the first difference. -/
theorem commonFront_eq_findIdx (as bs : List α)
    (hlength : as.length = bs.length) :
    commonFront as bs =
      (List.zipWith (fun a b => decide (a ≠ b)) as bs).findIdx id := by
  induction as generalizing bs with
  | nil => simp [commonFront]
  | cons a as ih =>
      cases bs with
      | nil => simp at hlength
      | cons b bs =>
          rw [commonFront, List.zipWith_cons_cons, List.findIdx_cons,
            ih bs (by simpa using hlength)]
          by_cases h : a = b <;> simp [h]

/-! ## The ultrametric law -/

theorem commonFront_comm (as bs : List α) :
    commonFront as bs = commonFront bs as := by
  induction as generalizing bs with
  | nil => cases bs <;> rfl
  | cons a as ih =>
      cases bs with
      | nil => rfl
      | cons b bs =>
          rw [commonFront, commonFront, ih bs]
          simp only [eq_comm]

/-- What agrees with both of two lists is a common front of theirs. -/
theorem min_le_commonFront (as bs cs : List α) :
    min (commonFront as bs) (commonFront bs cs) ≤ commonFront as cs := by
  induction as generalizing bs cs with
  | nil => simp [commonFront]
  | cons a as ih =>
      cases bs with
      | nil => simp [commonFront]
      | cons b bs =>
          cases cs with
          | nil => simp [commonFront]
          | cons c cs =>
              have hrest := ih bs cs
              rw [commonFront, commonFront, commonFront]
              by_cases hab : a = b
              · by_cases hbc : b = c
                · rw [if_pos hab, if_pos hbc, if_pos (hab.trans hbc)]
                  omega
                · rw [if_neg hbc, Nat.min_zero]
                  exact Nat.zero_le _
              · rw [if_neg hab, Nat.zero_min]
                exact Nat.zero_le _

theorem commonFront_eq_min {as bs cs : List α}
    (h : commonFront as bs ≠ commonFront bs cs) :
    commonFront as cs = min (commonFront as bs) (commonFront bs cs) := by
  have hlow := min_le_commonFront as bs cs
  have hfirst := min_le_commonFront as cs bs
  have hsecond := min_le_commonFront bs as cs
  rw [commonFront_comm cs bs] at hfirst
  rw [commonFront_comm bs as] at hsecond
  omega

/-! ## Bits as numbers -/

/-- The number that the bits stand for, the highest of them first. -/
def numberOf : List Bool → Nat
  | [] => 0
  | bit :: bits => bit.toNat * 2 ^ bits.length + numberOf bits

theorem numberOf_lt (bits : List Bool) : numberOf bits < 2 ^ bits.length := by
  induction bits with
  | nil => exact Nat.one_pos
  | cons bit bits ih =>
      rw [numberOf, List.length_cons, Nat.pow_succ]
      cases bit <;> simp only [Bool.toNat_false, Bool.toNat_true] <;> omega

/-- Of two numbers the one whose first one-bit comes later is the smaller. -/
theorem numberOf_lt_of_findIdx {first second : List Bool}
    (hlength : first.length = second.length)
    (h : first.findIdx id < second.findIdx id) :
    numberOf second < numberOf first := by
  induction first generalizing second with
  | nil =>
      rw [List.length_eq_zero_iff.mp hlength.symm] at h
      exact absurd h (Nat.lt_irrefl _)
  | cons bit first ih =>
      cases second with
      | nil => exact absurd hlength (Nat.succ_ne_zero _)
      | cons other second =>
          rw [List.length_cons, List.length_cons, Nat.succ.injEq] at hlength
          cases other with
          | true => exact absurd h (by simp [List.findIdx_cons])
          | false =>
              have hsecond := numberOf_lt second
              rw [numberOf, numberOf, hlength]
              cases bit with
              | true =>
                  simp only [Bool.toNat_false, Bool.toNat_true]
                  omega
              | false =>
                  refine Nat.add_lt_add_left (ih hlength ?_) _
                  simpa [List.findIdx_cons] using h

end Neroshop.Foundation
