import Neroshop.Foundation.Overlap
import Neroshop.Tools.Strings

/-!
# Replacing one string by another

`swap_all` replaces the first occurrence of `from` in the whole string until
there is none.
-/

namespace Neroshop.Tools

open Neroshop.Foundation

variable {fromStr toStr str : List UInt8}

/-- The index of the first occurrence, none for `npos`. -/
def find (string0 what : List UInt8) : Option Nat :=
  (splitAround what string0).map fun (front, _) => front.length

def replace (string0 : List UInt8) (start length : Nat) (toStr : List UInt8) :
    List UInt8 :=
  string0.take start ++ toStr ++ string0.drop (start + length)

/-- The loop after at most `rounds` evaluations of its condition. -/
def swapAll (fromStr toStr : List UInt8) : Nat → List UInt8 → Option (List UInt8)
  | 0, _ => none
  | rounds + 1, string0 =>
      match find string0 fromStr with
      | none => some string0
      | some start =>
          swapAll fromStr toStr rounds
            (replace string0 start fromStr.length toStr)

/-- `swap_all` terminates and replaces the leftmost occurrences that do not
overlap. -/
def SwapsAll (str fromStr toStr : List UInt8) : Prop :=
  ∃ rounds, swapAll fromStr toStr rounds str =
    some (replaceAll fromStr toStr 0 str)

theorem swapAll_succ (rounds : Nat) (string0 : List UInt8) :
    swapAll fromStr toStr (rounds + 1) string0 =
      match replaceFirst fromStr toStr string0 with
      | none => some string0
      | some following => swapAll fromStr toStr rounds following := by
  rw [swapAll, find, replaceFirst]
  cases hsplit : splitAround fromStr string0 with
  | none => rfl
  | some found =>
      have hreplace : replace string0 found.1.length fromStr.length toStr =
          found.1 ++ toStr ++ found.2 := by
        rw [splitAround_eq_some hsplit, replace]
        simp
      simp only [Option.map_some, hreplace]

theorem swapAll_eq_some_iff {rounds : Nat} {last : List UInt8} :
    swapAll fromStr toStr rounds str = some last ↔
      ∃ steps < rounds, Exhausts fromStr toStr steps str last := by
  induction rounds generalizing str with
  | zero => simp [swapAll]
  | succ rounds ih =>
      rw [swapAll_succ]
      constructor
      · intro h
        cases hfirst : replaceFirst fromStr toStr str with
        | none =>
            rw [hfirst] at h
            cases h
            exact ⟨0, rounds.succ_pos, .done (Option.map_eq_none_iff.mp hfirst)⟩
        | some following =>
            rw [hfirst] at h
            obtain ⟨steps, hsteps, hrest⟩ := ih.mp h
            exact ⟨steps + 1, Nat.succ_lt_succ hsteps, .next hfirst hrest⟩
      · rintro ⟨steps, hsteps, hexhausts⟩
        cases hexhausts with
        | done hnone => rw [replaceFirst, hnone]; rfl
        | next hfirst hrest =>
            rw [hfirst]
            exact ih.mpr ⟨_, Nat.lt_of_succ_lt_succ hsteps, hrest⟩

theorem swapsAll_iff_exhausts :
    SwapsAll str fromStr toStr ↔ ∃ steps,
      Exhausts fromStr toStr steps str (replaceAll fromStr toStr 0 str) := by
  constructor
  · rintro ⟨rounds, h⟩
    obtain ⟨steps, -, hexhausts⟩ := swapAll_eq_some_iff.mp h
    exact ⟨steps, hexhausts⟩
  · rintro ⟨steps, h⟩
    exact ⟨steps + 1, swapAll_eq_some_iff.mpr ⟨steps, steps.lt_succ_self, h⟩⟩

theorem swapsAll_of_step (hfrom : fromStr ≠ [])
    (h : InStep fromStr toStr [] str) : SwapsAll str fromStr toStr := by
  obtain ⟨count, hpasses⟩ := exists_passes hfrom toStr str
  exact swapsAll_iff_exhausts.mpr ⟨count, h.exhausts hfrom hpasses⟩

/-- A `to` that contains `from` gives the loop no end. -/
theorem swapAll_endless (hfrom : fromStr ≠ []) (hto : fromStr <:+: toStr)
    (hstr : fromStr <:+: str) (rounds : Nat) :
    swapAll fromStr toStr rounds str = none := by
  cases h : swapAll fromStr toStr rounds str with
  | none => rfl
  | some last =>
      obtain ⟨steps, -, hexhausts⟩ := swapAll_eq_some_iff.mp h
      have hnone := (hexhausts.none_of_infix hfrom hto).2
      exact absurd hstr ((splitAround_eq_none_iff hfrom).mp hnone)

/-- `swap_all` is right on the strings on which its loop stays in step with the
replacement of the leftmost occurrences.  If `from` settles its overlaps, it is
right on no others. -/
theorem swapAll_replaces (hfrom : fromStr ≠ []) (toStr str : List UInt8) :
    (InStep fromStr toStr [] str → SwapsAll str fromStr toStr) ∧
      (Settled fromStr toStr →
        (SwapsAll str fromStr toStr ↔ InStep fromStr toStr [] str)) := by
  refine ⟨swapsAll_of_step hfrom, fun hsettled => ⟨fun h => ?_,
    swapsAll_of_step hfrom⟩⟩
  obtain ⟨count, hpasses⟩ := exists_passes hfrom toStr str
  obtain ⟨steps, hexhausts⟩ := swapsAll_iff_exhausts.mp h
  exact (telling_of_settled hfrom hsettled).inStep hpasses hexhausts

/-- `"a b"` with `"%20"` for its space. -/
theorem sample_swapAll_replaces : SwapsAll [97, 32, 98] [32] [37, 50, 48] :=
  (swapAll_replaces (List.cons_ne_nil 32 []) [37, 50, 48] [97, 32, 98]).1
    (.next (show splitAround [32] [97, 32, 98] = some ([97], [98]) from rfl) rfl
      (.done rfl))

/-- `"abb"` with `"a"` for `"ab"` gives `"a"`, and `"a"` with `"aa"` for `"a"`
nothing at all. -/
theorem second_ab_replaced : ¬ SwapsAll [97, 98, 98] [97, 98] [97] ∧
    ∀ rounds, swapAll [97] [97, 97] rounds [97] = none := by
  constructor
  · rintro ⟨rounds, h⟩
    rcases rounds with _ | _ | _ | rounds <;> cases h
  · exact swapAll_endless (List.cons_ne_nil 97 []) ⟨[], [97], rfl⟩ ⟨[], [], rfl⟩

/-! ## Spaces -/

theorem replaceAll_space (text : List UInt8) :
    replaceAll [32] [37, 50, 48] 0 text = swapSpaces text := by
  induction text with
  | nil => rfl
  | cons byte text ih =>
      rw [replaceAll, swapSpaces_cons, ← ih]
      by_cases hspace : byte = 32
      · subst hspace
        simp [List.isPrefixOf]
      · simp [List.isPrefixOf, hspace, Ne.symm hspace]

/-- Payment URIs have their spaces escaped. -/
theorem swapAll_spaces (text : List UInt8) :
    ∃ rounds, swapAll [32] [37, 50, 48] rounds text = some (swapSpaces text) := by
  have hfrom : ([32] : List UInt8) ≠ [] := List.cons_ne_nil _ _
  obtain ⟨count, hpasses⟩ := exists_passes hfrom [37, 50, 48] text
  rw [← replaceAll_space]
  exact swapsAll_of_step hfrom
    (inStep_singleton (by decide) List.not_mem_nil hpasses)

end Neroshop.Tools
