import Mathlib.Algebra.BigOperators.Group.List.Basic
import Mathlib.Data.List.Nodup

/-!
# Lists of values under distinct keys

Giving a key another value leaves the keys as they are, and changes the sum of
the values by what the key gains or loses.  Elements that are sorted by a key
into groups are all there, once.  An element enters where its key is new.
-/

namespace Neroshop.Foundation

variable {Key Value : Type*} [DecidableEq Key]

def assign (key : Key) (value : Value) (entries : List (Key × Value)) :
    List (Key × Value) :=
  entries.map fun entry => if entry.1 = key then (key, value) else entry

theorem assign_cons (key : Key) (value : Value) (entry : Key × Value)
    (entries : List (Key × Value)) :
    assign key value (entry :: entries) =
      (if entry.1 = key then (key, value) else entry) ::
        assign key value entries := rfl

@[simp] theorem length_assign (key : Key) (value : Value)
    (entries : List (Key × Value)) :
    (assign key value entries).length = entries.length :=
  List.length_map _

@[simp] theorem keys_assign (key : Key) (value : Value)
    (entries : List (Key × Value)) :
    (assign key value entries).map Prod.fst = entries.map Prod.fst := by
  rw [assign, List.map_map]
  refine List.map_congr_left fun entry _ => ?_
  by_cases h : entry.1 = key
  · simp [h]
  · simp [h]

theorem assign_of_notMem {key : Key} {entries : List (Key × Value)}
    (h : key ∉ entries.map Prod.fst) (value : Value) :
    assign key value entries = entries := by
  refine (List.map_congr_left fun entry hentry => ?_).trans (List.map_id _)
  rw [if_neg, id]
  rintro rfl
  exact h (List.mem_map.mpr ⟨entry, hentry, rfl⟩)

theorem mem_assign {key : Key} {value : Value} {entries : List (Key × Value)}
    {entry : Key × Value} (h : entry ∈ assign key value entries) :
    entry = (key, value) ∧ key ∈ entries.map Prod.fst ∨
      entry.1 ≠ key ∧ entry ∈ entries := by
  obtain ⟨old, hold, heq⟩ := List.mem_map.mp h
  by_cases hkey : old.1 = key
  · rw [if_pos hkey] at heq
    exact .inl ⟨heq.symm, List.mem_map.mpr ⟨old, hold, hkey⟩⟩
  · rw [if_neg hkey] at heq
    exact .inr ⟨heq ▸ hkey, heq ▸ hold⟩

theorem sum_assign [AddCommMonoid Value] {key : Key} {old : Value}
    {entries : List (Key × Value)} (hkeys : (entries.map Prod.fst).Nodup)
    (hold : (key, old) ∈ entries) (value : Value) :
    ((assign key value entries).map Prod.snd).sum + old =
      (entries.map Prod.snd).sum + value := by
  induction entries with
  | nil => cases hold
  | cons entry entries ih =>
      rw [List.map_cons, List.nodup_cons] at hkeys
      rw [assign_cons, List.map_cons, List.map_cons, List.sum_cons,
        List.sum_cons]
      rcases List.mem_cons.mp hold with rfl | hrest
      · rw [if_pos rfl, assign_of_notMem hkeys.1]
        rw [add_comm value, add_comm old, add_right_comm]
      · have hne : entry.1 ≠ key := by
          rintro rfl
          exact hkeys.1 (List.mem_map.mpr ⟨_, hrest, rfl⟩)
        rw [if_neg hne, add_assoc, ih hkeys.2 hrest, add_assoc]

theorem assign_append_cons {key : Key} {old : Value}
    {front back : List (Key × Value)}
    (hkeys : ((front ++ (key, old) :: back).map Prod.fst).Nodup)
    (value : Value) :
    assign key value (front ++ (key, old) :: back) =
      front ++ (key, value) :: back := by
  rw [List.map_append, List.map_cons, List.nodup_middle, List.nodup_cons,
    List.mem_append, not_or] at hkeys
  have hsplit : assign key value (front ++ (key, old) :: back) =
      assign key value front ++ assign key value ((key, old) :: back) :=
    List.map_append
  rw [hsplit, assign_cons, if_pos rfl, assign_of_notMem hkeys.1.1,
    assign_of_notMem hkeys.1.2]

/-- The groups of all keys, one after the other. -/
theorem flatMap_filter_perm {Element : Type*} (keyOf : Element → Key)
    {keys : List Key} (hkeys : keys.Nodup) {elements : List Element}
    (hmem : ∀ element ∈ elements, keyOf element ∈ keys) :
    (keys.flatMap fun key =>
      elements.filter fun element => keyOf element = key).Perm elements := by
  induction keys generalizing elements with
  | nil =>
      have hnone : elements = [] := List.eq_nil_iff_forall_not_mem.mpr
        fun element helement => List.not_mem_nil (hmem element helement)
      rw [hnone]
      exact List.Perm.refl _
  | cons key keys ih =>
      obtain ⟨hkey, hrest⟩ := List.nodup_cons.mp hkeys
      have hrestMem : ∀ element ∈ elements.filter fun element =>
          ¬ keyOf element = key, keyOf element ∈ keys := by
        intro element helement
        have hne : keyOf element ≠ key := by
          simpa using (List.mem_filter.mp helement).2
        exact (List.mem_cons.mp (hmem element
          (List.mem_filter.mp helement).1)).resolve_left hne
      have hothers := ih hrest hrestMem
      have hsame : (keys.flatMap fun other => (elements.filter fun element =>
            ¬ keyOf element = key).filter fun element =>
              keyOf element = other) =
          keys.flatMap fun other => elements.filter fun element =>
            keyOf element = other := by
        refine List.flatMap_congr fun other hother => ?_
        rw [List.filter_filter]
        refine List.filter_congr fun element _ => ?_
        have hne : other ≠ key := fun heq => hkey (heq ▸ hother)
        grind
      rw [hsame] at hothers
      rw [List.flatMap_cons]
      refine (hothers.append_left _).trans ?_
      simpa using List.filter_append_perm
        (fun element => decide (keyOf element = key)) elements

/-! ## Elements that enter under new keys -/

section Enter

variable {Element : Type*} {keyOf : Element → Key}

def enter (keyOf : Element → Key) (elements : List Element)
    (element : Element) : List Element :=
  if elements.any fun existing => keyOf existing = keyOf element then elements
  else elements ++ [element]

theorem any_key_iff {elements : List Element} {key : Key} :
    (elements.any fun existing => keyOf existing = key) = true ↔
      key ∈ elements.map keyOf := by
  simp

theorem mem_enter {elements : List Element} {entering element : Element} :
    element ∈ enter keyOf elements entering ↔
      element ∈ elements ∨
        element = entering ∧ keyOf entering ∉ elements.map keyOf := by
  rw [enter]
  split
  · next hold =>
      rw [any_key_iff] at hold
      simp [hold]
  · next hnew =>
      rw [any_key_iff] at hnew
      simp [hnew]

theorem key_mem_enter {elements : List Element} {entering : Element}
    {key : Key} :
    key ∈ (enter keyOf elements entering).map keyOf ↔
      key ∈ elements.map keyOf ∨ key = keyOf entering := by
  rw [enter]
  split
  · next hold =>
      rw [any_key_iff] at hold
      constructor
      · exact .inl
      · rintro (hkey | rfl)
        · exact hkey
        · exact hold
  · rw [List.map_append, List.mem_append, List.map_singleton,
      List.mem_singleton]

/-- Of elements with different keys, none keeps another one out. -/
theorem mem_foldl_enter {entering elements : List Element} {element : Element}
    (hkeys : (entering.map keyOf).Nodup) :
    element ∈ entering.foldl (enter keyOf) elements ↔
      element ∈ elements ∨
        element ∈ entering ∧ keyOf element ∉ elements.map keyOf := by
  induction entering generalizing elements with
  | nil => simp
  | cons first entering ih =>
      rw [List.map_cons, List.nodup_cons] at hkeys
      rw [List.foldl_cons, ih hkeys.2, mem_enter, key_mem_enter, not_or,
        List.mem_cons, or_assoc]
      refine or_congr_right ?_
      by_cases hfirst : element = first
      · subst hfirst
        have hrest : element ∉ entering := fun hmem =>
          hkeys.1 (List.mem_map_of_mem hmem)
        simp [hrest]
      · have hne : element ∈ entering → keyOf element ≠ keyOf first :=
          fun hmem heq => hkeys.1 (heq ▸ List.mem_map_of_mem hmem)
        simp only [hfirst, false_and, false_or]
        constructor
        · rintro ⟨hmem, hnew, -⟩
          exact ⟨hmem, hnew⟩
        · rintro ⟨hmem, hnew⟩
          exact ⟨hmem, hnew, hne hmem⟩

/-- All are in exactly where a key that is there is there with its element. -/
theorem foldl_enter_exact_iff {entering elements : List Element}
    (hkeys : (entering.map keyOf).Nodup) :
    (∀ element, element ∈ entering.foldl (enter keyOf) elements ↔
        element ∈ elements ∨ element ∈ entering) ↔
      ∀ element ∈ entering, keyOf element ∈ elements.map keyOf →
        element ∈ elements := by
  simp only [mem_foldl_enter hkeys]
  constructor
  · intro h element hmem hkey
    rcases (h element).mpr (.inr hmem) with hold | ⟨-, hnew⟩
    · exact hold
    · exact absurd hkey hnew
  · intro h element
    refine or_congr_right' fun hnew => ?_
    exact ⟨And.left, fun hmem => ⟨hmem, fun hkey => hnew (h element hmem hkey)⟩⟩

theorem enter_of_mem {elements : List Element} {entering : Element}
    (h : keyOf entering ∈ elements.map keyOf) :
    enter keyOf elements entering = elements := by
  rw [enter, if_pos (any_key_iff.mpr h)]

theorem enter_of_notMem {elements : List Element} {entering : Element}
    (h : keyOf entering ∉ elements.map keyOf) :
    enter keyOf elements entering = elements ++ [entering] := by
  rw [enter, if_neg (mt any_key_iff.mp h)]

/-- Nothing enters where every key is there. -/
theorem foldl_enter_of_mem {entering elements : List Element}
    (h : ∀ element ∈ entering, keyOf element ∈ elements.map keyOf) :
    entering.foldl (enter keyOf) elements = elements := by
  induction entering with
  | nil => rfl
  | cons first entering ih =>
      obtain ⟨hfirst, hrest⟩ := List.forall_mem_cons.mp h
      rw [List.foldl_cons, enter_of_mem hfirst, ih hrest]

/-- What enters stands behind what was there, each under a key of its own. -/
theorem foldl_enter_eq_append (keyOf : Element → Key)
    (entering elements : List Element) :
    ∃ fresh, entering.foldl (enter keyOf) elements = elements ++ fresh ∧
      (fresh.map keyOf).Nodup ∧
      (∀ element ∈ fresh,
        element ∈ entering ∧ keyOf element ∉ elements.map keyOf) ∧
      ∀ element ∈ entering, keyOf element ∈ (elements ++ fresh).map keyOf := by
  induction entering generalizing elements with
  | nil => exact ⟨[], by simp⟩
  | cons first entering ih =>
      obtain ⟨fresh, hfold, hnodup, hfresh, hkeys⟩ :=
        ih (enter keyOf elements first)
      rw [List.foldl_cons, hfold]
      by_cases hfirst : keyOf first ∈ elements.map keyOf
      · rw [enter_of_mem hfirst] at hfresh hkeys ⊢
        refine ⟨fresh, rfl, hnodup, fun element helement => ?_,
          List.forall_mem_cons.mpr ⟨?_, hkeys⟩⟩
        · exact ⟨.tail _ (hfresh element helement).1, (hfresh element helement).2⟩
        · rw [List.map_append, List.mem_append]
          exact .inl hfirst
      · rw [enter_of_notMem hfirst] at hfresh hkeys ⊢
        have hlater : ∀ element ∈ fresh, element ∈ entering ∧
            keyOf element ∉ elements.map keyOf ∧
            keyOf element ≠ keyOf first := by
          intro element helement
          obtain ⟨hentering, hnew⟩ := hfresh element helement
          rw [List.map_append, List.mem_append, not_or, List.map_singleton,
            List.mem_singleton] at hnew
          exact ⟨hentering, hnew⟩
        rw [List.append_assoc, List.singleton_append] at hkeys ⊢
        refine ⟨first :: fresh, rfl, ?_, ?_,
          List.forall_mem_cons.mpr ⟨by simp, hkeys⟩⟩
        · rw [List.map_cons, List.nodup_cons]
          refine ⟨fun hmem => ?_, hnodup⟩
          obtain ⟨element, helement, hsame⟩ := List.mem_map.mp hmem
          exact (hlater element helement).2.2 hsame
        · refine List.forall_mem_cons.mpr ⟨⟨List.mem_cons_self, hfirst⟩, ?_⟩
          intro element helement
          obtain ⟨hentering, hnew, -⟩ := hlater element helement
          exact ⟨.tail _ hentering, hnew⟩

end Enter

end Neroshop.Foundation
