import Mathlib.Algebra.BigOperators.Group.List.Basic
import Mathlib.Data.List.Forall2
import Mathlib.Data.List.Nodup

/-!
# Choices of one value for each key

Factors are keys, each with its values.  A choice is a list of entries, one for
each factor and in their order.  Where the keys are different and no value is
repeated, a choice is determined by its entries in any order.
-/

namespace Neroshop.Foundation

variable {Key Value : Type*}

def choices : List (Key × List Value) → List (List (Key × Value))
  | [] => [[]]
  | (key, values) :: factors =>
      values.flatMap fun value =>
        (choices factors).map fun choice => (key, value) :: choice

theorem mem_choices_cons {key : Key} {values : List Value}
    {factors : List (Key × List Value)} {choice : List (Key × Value)} :
    choice ∈ choices ((key, values) :: factors) ↔
      ∃ value ∈ values, ∃ rest ∈ choices factors,
        (key, value) :: rest = choice := by
  rw [choices, List.mem_flatMap]
  simp only [List.mem_map]

theorem length_choices (factors : List (Key × List Value)) :
    (choices factors).length =
      (factors.map fun factor => factor.2.length).prod := by
  induction factors with
  | nil => rfl
  | cons factor factors ih =>
      obtain ⟨key, values⟩ := factor
      rw [choices, List.length_flatMap, List.map_cons, List.prod_cons]
      simp only [List.length_map, ih, List.map_const', List.sum_replicate_nat]

theorem keys_of_mem_choices {factors : List (Key × List Value)}
    {choice : List (Key × Value)} (h : choice ∈ choices factors) :
    choice.map Prod.fst = factors.map Prod.fst := by
  induction factors generalizing choice with
  | nil => rw [List.mem_singleton.mp h]; rfl
  | cons factor factors ih =>
      obtain ⟨value, -, rest, hrest, rfl⟩ := mem_choices_cons.mp h
      rw [List.map_cons, List.map_cons, ih hrest]

/-- Every entry has a value of its key. -/
theorem values_of_mem_choices {factors : List (Key × List Value)}
    {choice : List (Key × Value)} (h : choice ∈ choices factors) :
    ∀ entry ∈ choice, ∃ factor ∈ factors,
      factor.1 = entry.1 ∧ entry.2 ∈ factor.2 := by
  induction factors generalizing choice with
  | nil =>
      rw [List.mem_singleton.mp h]
      exact fun entry hentry => absurd hentry List.not_mem_nil
  | cons factor factors ih =>
      obtain ⟨value, hvalue, rest, hrest, rfl⟩ := mem_choices_cons.mp h
      refine List.forall_mem_cons.mpr
        ⟨⟨factor, List.mem_cons_self, rfl, hvalue⟩, fun entry hentry => ?_⟩
      obtain ⟨other, hother, hkey⟩ := ih hrest entry hentry
      exact ⟨other, .tail _ hother, hkey⟩

theorem nodup_choices {factors : List (Key × List Value)}
    (h : ∀ factor ∈ factors, factor.2.Nodup) : (choices factors).Nodup := by
  induction factors with
  | nil => exact List.nodup_singleton []
  | cons factor factors ih =>
      obtain ⟨hvalues, hrest⟩ := List.forall_mem_cons.mp h
      obtain ⟨key, values⟩ := factor
      refine List.nodup_flatMap.mpr ⟨fun value _ => ?_, ?_⟩
      · exact (ih hrest).map fun first second hsame =>
          (List.cons.inj hsame).2
      · refine hvalues.imp fun {first second} hne => ?_
        rintro choice hfirst hsecond
        obtain ⟨rest, -, rfl⟩ := List.mem_map.mp hfirst
        obtain ⟨other, -, hsame⟩ := List.mem_map.mp hsecond
        exact hne (Prod.mk.inj (List.cons.inj hsame).1).2.symm

/-- Entries under different keys are in one order only, that of the keys. -/
theorem eq_of_perm_of_keys {first second : List (Key × Value)}
    (hkeys : first.map Prod.fst = second.map Prod.fst)
    (hnodup : (first.map Prod.fst).Nodup) (hperm : first.Perm second) :
    first = second := by
  induction first generalizing second with
  | nil => exact hperm.nil_eq
  | cons entry first ih =>
      cases second with
      | nil => cases hkeys
      | cons other second =>
          rw [List.map_cons, List.map_cons, List.cons.injEq] at hkeys
          obtain ⟨hkey, hrest⟩ := hkeys
          obtain ⟨hnew, hnodup⟩ := List.nodup_cons.mp hnodup
          have hsame : entry = other := by
            rcases List.mem_cons.mp (hperm.subset List.mem_cons_self) with
              hsame | hlater
            · exact hsame
            · exact absurd (hrest ▸ List.mem_map_of_mem hlater) hnew
          subst hsame
          rw [ih hrest hnodup (List.perm_cons entry |>.mp hperm)]

/-- Whatever has one value for every key is a choice, but for the order. -/
theorem exists_choice_perm [DecidableEq Key] [DecidableEq Value]
    {factors : List (Key × List Value)} {entries : List (Key × Value)}
    (hfactors : (factors.map Prod.fst).Nodup)
    (hentries : (entries.map Prod.fst).Nodup)
    (hkeys : ∀ key, key ∈ entries.map Prod.fst ↔ key ∈ factors.map Prod.fst)
    (hvalues : ∀ factor ∈ factors, ∀ value,
      (factor.1, value) ∈ entries → value ∈ factor.2) :
    ∃ choice ∈ choices factors, choice.Perm entries := by
  induction factors generalizing entries with
  | nil =>
      have hnone : entries = [] := by
        rw [← List.map_eq_nil_iff (f := Prod.fst)]
        exact List.eq_nil_iff_forall_not_mem.mpr fun key hkey =>
          List.not_mem_nil ((hkeys key).mp hkey)
      exact ⟨[], List.mem_singleton_self [], hnone ▸ List.Perm.refl _⟩
  | cons factor factors ih =>
      obtain ⟨key, values⟩ := factor
      obtain ⟨hnew, hrest⟩ := List.nodup_cons.mp hfactors
      obtain ⟨value, hentry⟩ : ∃ value, (key, value) ∈ entries := by
        obtain ⟨entry, hentry, hkey⟩ :=
          List.mem_map.mp ((hkeys key).mpr List.mem_cons_self)
        exact ⟨entry.2, hkey ▸ hentry⟩
      have hperm := List.perm_cons_erase hentry
      have hnodup := (hperm.map Prod.fst).nodup_iff.mp hentries
      obtain ⟨hfirst, hothers⟩ := List.nodup_cons.mp hnodup
      have hothersKeys : ∀ other,
          other ∈ (entries.erase (key, value)).map Prod.fst ↔
            other ∈ factors.map Prod.fst := by
        intro other
        have hmem := hkeys other
        rw [(hperm.map Prod.fst).mem_iff, List.map_cons, List.map_cons,
          List.mem_cons, List.mem_cons] at hmem
        constructor
        · intro hother
          refine (hmem.mp (.inr hother)).resolve_left ?_
          rintro rfl
          exact hfirst hother
        · intro hother
          refine (hmem.mpr (.inr hother)).resolve_left ?_
          rintro rfl
          exact hnew hother
      obtain ⟨choice, hchoice, hsame⟩ := ih hrest hothers hothersKeys
        fun factor hfactor other hother =>
          hvalues factor (.tail _ hfactor) other (List.mem_of_mem_erase hother)
      refine ⟨(key, value) :: choice, mem_choices_cons.mpr ⟨value, ?_, choice,
        hchoice, rfl⟩, (hsame.cons _).trans hperm.symm⟩
      exact hvalues _ List.mem_cons_self value hentry

end Neroshop.Foundation
