import Mathlib.Data.List.Infix
import Neroshop.Foundation.Bytes

/-!
# Replacing a pattern in a text

A pattern is replaced by another list either in one pass, which goes on behind
each occurrence that it replaces, or by a loop that replaces the first
occurrence of the whole text until there is none.  The loop also finds
occurrences that the replacements made.  It reaches what the pass writes if
each text on the way has its first occurrence where the pass goes on.
-/

namespace Neroshop.Foundation

variable {α : Type*} [DecidableEq α]
variable {pattern replacement text front back : List α}

/-! ## First occurrences -/

theorem splitAround_some_of_cons {element : α}
    (h : splitAround pattern (element :: text) = some (front, back)) :
    (front = [] ∧ pattern <+: element :: text ∧
        back = (element :: text).drop pattern.length) ∨
      ∃ earlier, front = element :: earlier ∧ ¬ pattern <+: element :: text ∧
        splitAround pattern text = some (earlier, back) := by
  rw [splitAround] at h
  split at h
  case isTrue hstarts =>
    cases h
    exact .inl ⟨rfl, List.isPrefixOf_iff_prefix.mp hstarts, rfl⟩
  case isFalse hstarts =>
    obtain ⟨⟨earlier, rest⟩, hsplit, hcons⟩ := Option.map_eq_some_iff.mp h
    cases hcons
    exact .inr ⟨earlier, rfl,
      fun hpattern => hstarts (List.isPrefixOf_iff_prefix.mpr hpattern), hsplit⟩

/-- No occurrence is in front of the first one. -/
theorem exists_splitAround (hpattern : pattern ≠ []) (before after : List α) :
    ∃ front back, splitAround pattern (before ++ pattern ++ after) =
        some (front, back) ∧ front.length ≤ before.length := by
  induction before with
  | nil =>
      refine ⟨[], after, ?_, Nat.le_refl _⟩
      exact splitAround_pattern hpattern after
  | cons element before ih =>
      obtain ⟨front, back, hsplit, hlength⟩ := ih
      rw [List.cons_append, List.cons_append, splitAround]
      split
      · exact ⟨[], _, rfl, Nat.zero_le _⟩
      · refine ⟨element :: front, back, by rw [hsplit]; rfl, ?_⟩
        simpa using hlength

theorem splitAround_eq_none_iff (hpattern : pattern ≠ []) :
    splitAround pattern text = none ↔ ¬ pattern <:+: text := by
  constructor
  · rintro h ⟨before, after, rfl⟩
    obtain ⟨front, back, hsplit, -⟩ := exists_splitAround hpattern before after
    rw [h] at hsplit
    cases hsplit
  · intro h
    cases hsplit : splitAround pattern text with
    | none => rfl
    | some found =>
        exact absurd ⟨found.1, found.2, (splitAround_eq_some hsplit).symm⟩ h

/-- The first occurrence of `made ++ text` is not behind that of `text`. -/
theorem exists_splitAround_append (hpattern : pattern ≠ []) (made : List α)
    (h : splitAround pattern text = some (front, back)) :
    ∃ earlier later, splitAround pattern (made ++ text) =
        some (earlier, later) ∧ earlier.length ≤ made.length + front.length := by
  rw [splitAround_eq_some h]
  have hfound := exists_splitAround hpattern (made ++ front) back
  simpa only [List.append_assoc, List.length_append] using hfound

/-! ## One pass -/

/-- One pass over the text.  The number counts the elements in front that are
part of the occurrence that was replaced last. -/
def replaceAll (pattern replacement : List α) : Nat → List α → List α
  | _, [] => []
  | skipped + 1, _ :: elements => replaceAll pattern replacement skipped elements
  | 0, element :: elements =>
      if pattern.isPrefixOf (element :: elements) then
        replacement ++
          replaceAll pattern replacement (pattern.length - 1) elements
      else element :: replaceAll pattern replacement 0 elements

/-- The occurrences that one pass replaces, and what it writes. -/
inductive Passes (pattern replacement : List α) :
    Nat → List α → List α → Prop
  | done {text : List α} (h : splitAround pattern text = none) :
      Passes pattern replacement 0 text text
  | next {count : Nat} {text front back written : List α}
      (h : splitAround pattern text = some (front, back))
      (rest : Passes pattern replacement count back written) :
      Passes pattern replacement (count + 1) text (front ++ replacement ++ written)

theorem replaceAll_skip (skipped : Nat) (text : List α) :
    replaceAll pattern replacement skipped text =
      replaceAll pattern replacement 0 (text.drop skipped) := by
  induction text generalizing skipped with
  | nil => cases skipped <;> rfl
  | cons element elements ih =>
      cases skipped with
      | zero => rfl
      | succ skipped => exact ih skipped

theorem replaceAll_of_none (h : splitAround pattern text = none) :
    replaceAll pattern replacement 0 text = text := by
  induction text with
  | nil => rfl
  | cons element elements ih =>
      rw [splitAround] at h
      split at h
      case isTrue => cases h
      case isFalse hstarts =>
        rw [replaceAll, if_neg hstarts, ih (Option.map_eq_none_iff.mp h)]

theorem replaceAll_of_some (hpattern : pattern ≠ [])
    (h : splitAround pattern text = some (front, back)) :
    replaceAll pattern replacement 0 text =
      front ++ replacement ++ replaceAll pattern replacement 0 back := by
  induction text generalizing front with
  | nil =>
      rw [splitAround, if_neg hpattern] at h
      cases h
  | cons element elements ih =>
      rcases splitAround_some_of_cons h with
        ⟨rfl, hstarts, rfl⟩ | ⟨earlier, rfl, hstarts, hsplit⟩
      · obtain ⟨first, others, rfl⟩ := List.exists_cons_of_ne_nil hpattern
        rw [replaceAll, if_pos (List.isPrefixOf_iff_prefix.mpr hstarts),
          replaceAll_skip]
        simp
      · rw [replaceAll, if_neg (by simpa using hstarts), ih hsplit]
        rfl

theorem exists_passes (hpattern : pattern ≠ []) (replacement text : List α) :
    ∃ count, Passes pattern replacement count text
      (replaceAll pattern replacement 0 text) := by
  induction hlength : text.length using Nat.strongRecOn generalizing text with
  | ind length ih =>
      cases hsplit : splitAround pattern text with
      | none =>
          rw [replaceAll_of_none hsplit]
          exact ⟨0, .done hsplit⟩
      | some found =>
          have hpos := List.length_pos_iff.mpr hpattern
          have hshorter : found.2.length < length := by
            rw [← hlength, splitAround_eq_some hsplit]
            simp only [List.length_append]
            omega
          obtain ⟨count, hrest⟩ := ih _ hshorter found.2 rfl
          rw [replaceAll_of_some hpattern hsplit]
          exact ⟨count + 1, .next hsplit hrest⟩

/-! ## The loop -/

def replaceFirst (pattern replacement text : List α) : Option (List α) :=
  (splitAround pattern text).map fun (front, back) =>
    front ++ replacement ++ back

/-- The rounds of the loop from a text to the one that it ends with. -/
inductive Exhausts (pattern replacement : List α) :
    Nat → List α → List α → Prop
  | done {text : List α} (h : splitAround pattern text = none) :
      Exhausts pattern replacement 0 text text
  | next {steps : Nat} {text following last : List α}
      (h : replaceFirst pattern replacement text = some following)
      (rest : Exhausts pattern replacement steps following last) :
      Exhausts pattern replacement (steps + 1) text last

/-- The loop is in step with a pass that has written `made` and goes on with
`rest`: the first occurrence of the whole text is the one the pass replaces
next, or gives the same text, and so on until there is none. -/
inductive InStep (pattern replacement : List α) :
    List α → List α → Prop
  | done {made rest : List α}
      (h : replaceFirst pattern replacement (made ++ rest) = none) :
      InStep pattern replacement made rest
  | next {made rest front back : List α}
      (hsplit : splitAround pattern rest = some (front, back))
      (hfirst : replaceFirst pattern replacement (made ++ rest) =
        some (made ++ front ++ replacement ++ back))
      (hrest : InStep pattern replacement
        (made ++ front ++ replacement) back) :
      InStep pattern replacement made rest

variable {made rest written last following : List α} {steps count : Nat}

theorem exists_of_replaceFirst
    (h : replaceFirst pattern replacement text = some following) :
    ∃ front back, splitAround pattern text = some (front, back) ∧
      text = front ++ pattern ++ back ∧
        following = front ++ replacement ++ back := by
  obtain ⟨⟨front, back⟩, hsplit, hfollowing⟩ := Option.map_eq_some_iff.mp h
  exact ⟨front, back, hsplit, splitAround_eq_some hsplit, hfollowing.symm⟩

theorem splitAround_none_of_append (hpattern : pattern ≠ [])
    (h : splitAround pattern (made ++ rest) = none) :
    splitAround pattern rest = none := by
  rw [splitAround_eq_none_iff hpattern] at h ⊢
  exact fun hinside => h (hinside.trans (List.suffix_append made rest).isInfix)

/-- In step, the loop writes what one pass writes, in as many rounds. -/
theorem InStep.exhausts (hpattern : pattern ≠ [])
    (h : InStep pattern replacement made rest)
    (hpasses : Passes pattern replacement count rest written) :
    Exhausts pattern replacement count (made ++ rest) (made ++ written) := by
  induction h generalizing count written with
  | done h =>
      have hnone := Option.map_eq_none_iff.mp h
      cases hpasses with
      | done => exact .done hnone
      | next hsplit =>
          rw [splitAround_none_of_append hpattern hnone] at hsplit
          cases hsplit
  | next hsplit hfirst _ ih =>
      cases hpasses with
      | done hnone =>
          rw [hsplit] at hnone
          cases hnone
      | next hother hrest =>
          rw [hsplit] at hother
          cases hother
          have hlast := ih hrest
          simp only [List.append_assoc] at hfirst hlast ⊢
          exact .next hfirst hlast

theorem Exhausts.last_eq_none (h : Exhausts pattern replacement steps text last) :
    splitAround pattern last = none := by
  induction h with
  | done h => exact h
  | next _ _ ih => exact ih

theorem Exhausts.length (h : Exhausts pattern replacement steps text last) :
    last.length + steps * pattern.length =
      text.length + steps * replacement.length := by
  induction h with
  | done => rw [Nat.zero_mul, Nat.zero_mul]
  | next h _ ih =>
      obtain ⟨front, back, -, rfl, rfl⟩ := exists_of_replaceFirst h
      simp only [List.length_append, Nat.succ_mul] at ih ⊢
      omega

theorem Passes.length (h : Passes pattern replacement count text written) :
    written.length + count * pattern.length =
      text.length + count * replacement.length := by
  induction h with
  | done => rw [Nat.zero_mul, Nat.zero_mul]
  | next h _ ih =>
      rw [splitAround_eq_some h]
      simp only [List.length_append, Nat.succ_mul] at ih ⊢
      omega

theorem Exhausts.rest_of_replaceFirst
    (h : Exhausts pattern replacement steps text last)
    (hfirst : replaceFirst pattern replacement text = some following) :
    ∃ fewer, steps = fewer + 1 ∧
      Exhausts pattern replacement fewer following last := by
  cases h with
  | done hnone =>
      rw [replaceFirst, hnone] at hfirst
      cases hfirst
  | next hother hrest =>
      rw [hfirst] at hother
      cases hother
      exact ⟨_, rfl, hrest⟩

omit [DecidableEq α] in
/-- Two occurrences, the second at a distance of `skipped` elements behind the
first one. -/
theorem exists_overlap {earlier later : List α}
    (htext : made ++ (front ++ pattern ++ back) = earlier ++ pattern ++ later)
    (hlength : earlier.length ≤ made.length + front.length) :
    ∃ skipped read, made ++ front = earlier ++ skipped ∧
      skipped ++ pattern = pattern ++ read ∧ later = read ++ back := by
  have hwhole : earlier ++ (pattern ++ later) =
      made ++ front ++ (pattern ++ back) := by
    simpa only [List.append_assoc] using htext.symm
  have hfront : made ++ front <+: made ++ front ++ (pattern ++ back) :=
    List.prefix_append _ _
  obtain ⟨skipped, hskipped⟩ := List.prefix_of_prefix_length_le
    ⟨pattern ++ later, hwhole⟩ hfront (by simpa using hlength)
  have hbehind : skipped ++ pattern ++ back = pattern ++ later := by
    rw [← hskipped, List.append_assoc] at hwhole
    simpa only [List.append_assoc] using
      (List.append_cancel_left hwhole).symm
  have hpattern : pattern <+: skipped ++ pattern :=
    List.prefix_of_prefix_length_le ⟨later, rfl⟩ ⟨back, hbehind⟩ (by simp)
  obtain ⟨read, hread⟩ := hpattern
  refine ⟨skipped, read, hskipped.symm, hread.symm, ?_⟩
  rw [← hread, List.append_assoc] at hbehind
  exact (List.append_cancel_left hbehind).symm

/-- What the loop does in a round where the pass goes on with `rest`: it
replaces an occurrence that is `skipped` elements in front of the next one of
the pass. -/
theorem exists_replaceFirst_append (hpattern : pattern ≠ []) (made : List α)
    (hsplit : splitAround pattern rest = some (front, back)) :
    ∃ earlier skipped read, made ++ front = earlier ++ skipped ∧
      skipped ++ pattern = pattern ++ read ∧
        replaceFirst pattern replacement (made ++ rest) =
          some (earlier ++ replacement ++ read ++ back) := by
  obtain ⟨earlier, later, hfirst, hlength⟩ :=
    exists_splitAround_append hpattern made hsplit
  have htext := splitAround_eq_some hfirst
  rw [splitAround_eq_some hsplit] at htext
  obtain ⟨skipped, read, hfront, hoverlap, rfl⟩ := exists_overlap htext hlength
  refine ⟨earlier, skipped, read, hfront, hoverlap, ?_⟩
  rw [replaceFirst, hfirst]
  simp

/-- The loop needs a round for each occurrence that one pass finds. -/
theorem Passes.le_steps (hpattern : pattern ≠ [])
    (hpasses : Passes pattern replacement count text written)
    (h : Exhausts pattern replacement steps (made ++ text) last) :
    count ≤ steps := by
  induction hpasses generalizing made steps with
  | done => exact Nat.zero_le _
  | next hsplit _ ih =>
      obtain ⟨earlier, skipped, read, -, -, hfirst⟩ :=
        exists_replaceFirst_append hpattern made hsplit
      obtain ⟨fewer, rfl, hrest⟩ := h.rest_of_replaceFirst hfirst
      exact Nat.succ_le_succ (ih hrest)

/-! ## Patterns of one element -/

theorem not_mem_front {element : α}
    (h : splitAround [element] text = some (front, back)) : element ∉ front := by
  induction text generalizing front with
  | nil => cases h
  | cons other text ih =>
      rcases splitAround_some_of_cons h with
        ⟨rfl, -, -⟩ | ⟨earlier, rfl, hstarts, hsplit⟩
      · exact List.not_mem_nil
      · rw [List.mem_cons, not_or]
        exact ⟨by simpa using hstarts, ih hsplit⟩

/-- Nothing disturbs the search for an element that no replacement has. -/
theorem inStep_singleton {element : α} (hreplacement : element ∉ replacement)
    (hmade : element ∉ made)
    (hpasses : Passes [element] replacement count rest written) :
    InStep [element] replacement made rest := by
  induction hpasses generalizing made with
  | done h =>
      have hsingleton : [element] ≠ [] := List.cons_ne_nil _ _
      rw [splitAround_eq_none_iff hsingleton, List.singleton_infix_iff] at h
      refine .done (Option.map_eq_none_iff.mpr ?_)
      rw [splitAround_eq_none_iff hsingleton, List.singleton_infix_iff]
      simp [hmade, h]
  | @next _ _ front back _ hsplit _ ih =>
      have hfront := not_mem_front hsplit
      have hclear : ∀ other ∈ made ++ front, [element].head? ≠ some other := by
        rintro other hother ⟨⟩
        simp [hmade, hfront] at hother
      have hfirst := splitAround_append (List.cons_ne_nil element []) back hclear
      refine .next hsplit ?_ (ih (by simp [hmade, hfront, hreplacement]))
      rw [splitAround_eq_some hsplit, replaceFirst, ← List.append_assoc,
        ← List.append_assoc, hfirst]
      rfl

end Neroshop.Foundation
