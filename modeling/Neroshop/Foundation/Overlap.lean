import Neroshop.Foundation.Replace

/-!
# When the loop and the pass agree

A loop that ends with what one pass writes was in step with it all the way,
unless the pattern overlaps itself in a stretch that the replacement starts and
ends.  If the pattern is in the replacement the loop does not end, if neither starts
the other each round lowers the text, and if the replacement starts the pattern
the number of rounds tells how they went.
-/

namespace Neroshop.Foundation

variable {α : Type*} [DecidableEq α]
variable {pattern replacement text front back : List α}
variable {made rest written last following : List α} {steps count : Nat}

/-- A pattern and a replacement for which a loop that ends with what the pass
writes has always the same first occurrence as the pass. -/
structure Telling (pattern replacement : List α) : Prop where
  stops {steps : Nat} {text : List α}
    (h : Exhausts pattern replacement steps text text) : steps = 0
  first {steps count : Nat} {made rest front back written : List α}
    (hsplit : splitAround pattern rest = some (front, back))
    (hpasses : Passes pattern replacement count back written)
    (h : Exhausts pattern replacement steps (made ++ rest)
      (made ++ front ++ replacement ++ written)) :
    replaceFirst pattern replacement (made ++ rest) =
      some (made ++ front ++ replacement ++ back)

theorem Telling.inStep (htelling : Telling pattern replacement)
    (hpasses : Passes pattern replacement count rest written)
    (h : Exhausts pattern replacement steps (made ++ rest) (made ++ written)) :
    InStep pattern replacement made rest := by
  induction hpasses generalizing made steps with
  | done =>
      have hzero := htelling.stops h
      subst hzero
      cases h with
      | done hsplit => exact .done (Option.map_eq_none_iff.mpr hsplit)
  | next hsplit hrest ih =>
      simp only [← List.append_assoc] at h
      have hfirst := htelling.first hsplit hrest h
      obtain ⟨fewer, rfl, hfollowing⟩ := h.rest_of_replaceFirst hfirst
      exact .next hsplit hfirst (ih hfollowing)

/-- A loop that writes its own pattern does not come to an end. -/
theorem Exhausts.none_of_infix (hpattern : pattern ≠ [])
    (hinside : pattern <:+: replacement)
    (h : Exhausts pattern replacement steps text last) :
    steps = 0 ∧ splitAround pattern text = none := by
  induction h with
  | done h => exact ⟨rfl, h⟩
  | next h _ ih =>
      obtain ⟨front, back, -, -, rfl⟩ := exists_of_replaceFirst h
      rw [splitAround_eq_none_iff hpattern] at ih
      exact absurd (hinside.trans ⟨front, back, rfl⟩) ih.2

theorem telling_of_infix (hpattern : pattern ≠ [])
    (hinside : pattern <:+: replacement) : Telling pattern replacement where
  stops h := (h.none_of_infix hpattern hinside).1
  first hsplit _ h := by
    have hnone := splitAround_none_of_append hpattern
      (h.none_of_infix hpattern hinside).2
    rw [hsplit] at hnone
    cases hnone

/-- Where the lists differ first, the lower one has `chosen` and the upper one
`other`. -/
def Below (chosen other : α) (lower upper : List α) : Prop :=
  ∃ index : Nat, (∀ earlier < index, lower[earlier]? = upper[earlier]?) ∧
    lower[index]? = some chosen ∧ upper[index]? = some other

section Order

variable {chosen other : α} {shared lower middle upper : List α}

omit [DecidableEq α]

theorem not_below_self (hne : chosen ≠ other) : ¬ Below chosen other text text := by
  rintro ⟨index, -, hchosen, hother⟩
  exact hne (Option.some.inj (hchosen.symm.trans hother))

theorem Below.trans (hne : chosen ≠ other) (hlower : Below chosen other lower middle)
    (hupper : Below chosen other middle upper) : Below chosen other lower upper := by
  obtain ⟨first, hfirst, hchosen, hother⟩ := hlower
  obtain ⟨second, hsecond, hchosen', hother'⟩ := hupper
  refine ⟨min first second, fun earlier hearlier => ?_, ?_⟩
  · rw [hfirst earlier (by omega), hsecond earlier (by omega)]
  · rcases Nat.lt_trichotomy first second with hlt | rfl | hlt
    · rw [Nat.min_eq_left hlt.le, ← hsecond first hlt]
      exact ⟨hchosen, hother⟩
    · exact absurd (Option.some.inj (hchosen'.symm.trans hother)) hne
    · rw [Nat.min_eq_right hlt.le, hfirst second hlt]
      exact ⟨hchosen', hother'⟩

theorem below_append (chosen other : α) (shared lower upper : List α) :
    Below chosen other (shared ++ chosen :: lower) (shared ++ other :: upper) := by
  refine ⟨shared.length, fun earlier hearlier => ?_, by simp, by simp⟩
  rw [List.getElem?_append_left hearlier, List.getElem?_append_left hearlier]

theorem exists_differ (hpattern : ¬ pattern <+: replacement)
    (hreplacement : ¬ replacement <+: pattern) :
    ∃ shared chosen other replaced rest, chosen ≠ other ∧
      replacement = shared ++ chosen :: replaced ∧
        pattern = shared ++ other :: rest := by
  induction pattern generalizing replacement with
  | nil => exact absurd (List.nil_prefix) hpattern
  | cons element elements ih =>
      cases replacement with
      | nil => exact absurd (List.nil_prefix) hreplacement
      | cons first others =>
          by_cases heq : first = element
          · subst heq
            rw [List.cons_prefix_cons] at hpattern hreplacement
            obtain ⟨shared, chosen, other, replaced, rest, hne, rfl, rfl⟩ :=
              ih (fun h => hpattern ⟨rfl, h⟩) (fun h => hreplacement ⟨rfl, h⟩)
            exact ⟨first :: shared, chosen, other, replaced, rest, hne, rfl, rfl⟩
          · exact ⟨[], first, element, others, elements, heq, rfl, rfl⟩

end Order

section Differ

variable {chosen other : α} {shared replaced others : List α}

theorem below_of_replaceFirst
    (h : replaceFirst (shared ++ other :: others) (shared ++ chosen :: replaced)
      text = some following) : Below chosen other following text := by
  obtain ⟨front, back, -, rfl, rfl⟩ := exists_of_replaceFirst h
  simpa using below_append chosen other (front ++ shared)
    (replaced ++ back) (others ++ back)

theorem Exhausts.last_below (hne : chosen ≠ other)
    (h : Exhausts (shared ++ other :: others) (shared ++ chosen :: replaced)
      steps text last) :
    last = text ∨ Below chosen other last text := by
  induction h with
  | done => exact .inl rfl
  | next h _ ih =>
      have hbelow := below_of_replaceFirst h
      rcases ih with rfl | hlast
      · exact .inr hbelow
      · exact .inr (hlast.trans hne hbelow)

omit [DecidableEq α] in
theorem exists_of_overlap {skipped read : List α} (hskipped : skipped ≠ [])
    (hoverlap : skipped ++ (shared ++ other :: others) =
      shared ++ other :: others ++ read) :
    ∃ between, skipped ++ shared = shared ++ other :: between := by
  have hskippedFront : skipped ++ shared <+:
      skipped ++ (shared ++ other :: others) := ⟨other :: others, by simp⟩
  have hsharedFront : shared ++ [other] <+:
      skipped ++ (shared ++ other :: others) := ⟨others ++ read, by simp [hoverlap]⟩
  have hpos := List.length_pos_iff.mpr hskipped
  obtain ⟨between, hbetween⟩ := List.prefix_of_prefix_length_le hsharedFront
    hskippedFront (by simp only [List.length_append, List.length_singleton]; omega)
  exact ⟨between, by simp [← hbetween]⟩

omit [DecidableEq α] in
theorem below_of_overlap {skipped read : List α} (hskipped : skipped ≠ [])
    (hoverlap : skipped ++ (shared ++ other :: others) =
      shared ++ other :: others ++ read) (chosen : α)
    (replaced earlier back written : List α) :
    Below chosen other (earlier ++ (shared ++ chosen :: replaced) ++ back)
      (earlier ++ skipped ++ (shared ++ chosen :: replaced) ++ written) := by
  obtain ⟨between, hbetween⟩ := exists_of_overlap hskipped hoverlap
  have hbelow := below_append chosen other (earlier ++ shared)
    (replaced ++ back)
    (between ++ chosen :: replaced ++ written)
  have hmiddle : skipped ++ (shared ++ chosen :: (replaced ++ written)) =
      shared ++ other :: (between ++ chosen :: (replaced ++ written)) := by
    rw [← List.append_assoc, hbetween]
    simp
  simpa [hmiddle] using hbelow

/-- After a round in front of where the pass goes on, the text is below all
that the pass can still write. -/
theorem telling_of_differ (hne : chosen ≠ other) :
    Telling (shared ++ other :: others) (shared ++ chosen :: replaced) where
  stops h := by
    cases h with
    | done => rfl
    | next hfirst hrest =>
        have hbelow := below_of_replaceFirst hfirst
        rcases hrest.last_below hne with hlast | hlast
        · rw [← hlast] at hbelow
          exact absurd hbelow (not_below_self hne)
        · exact absurd (hlast.trans hne hbelow) (not_below_self hne)
  first {_ _ made _ _ back written} hsplit _ h := by
    obtain ⟨earlier, skipped, read, hfront, hoverlap, hfirst⟩ :=
      exists_replaceFirst_append (by simp) made hsplit
    obtain ⟨fewer, rfl, hrest⟩ := h.rest_of_replaceFirst hfirst
    by_cases hskipped : skipped = []
    · subst hskipped
      have hread : read = [] := by simpa using hoverlap.symm
      subst hread
      simpa [hfront] using hfirst
    · rw [hfront, List.append_assoc _ read] at hrest
      have hbelow := below_of_overlap hskipped hoverlap chosen replaced earlier
        (read ++ back) written
      rcases hrest.last_below hne with hlast | hlast
      · rw [hlast] at hbelow
        exact absurd hbelow (not_below_self hne)
      · exact absurd (hlast.trans hne hbelow) (not_below_self hne)

end Differ

section Overlap

/-- Where the pattern overlaps itself in a stretch that starts and ends with
the replacement, replacing one occurrence or the other gives one text. -/
def Settled (pattern replacement : List α) : Prop :=
  ∀ first middle last, first ++ middle = pattern → middle ++ last = pattern →
    replacement <+: middle → replacement <:+ middle →
      first ++ replacement = replacement ++ last

omit [DecidableEq α] in
/-- Of two lists that `period` can be put behind, the shorter one ends the
longer one. -/
theorem suffix_of_period {shorter longer period : List α} (hperiod : period ≠ [])
    (hshorter : shorter <:+ shorter ++ period)
    (hlonger : longer <:+ longer ++ period)
    (hlength : shorter.length ≤ longer.length) : shorter <:+ longer := by
  have hpos := List.length_pos_iff.mpr hperiod
  induction h : shorter.length using Nat.strongRecOn
    generalizing shorter longer with
  | ind length ih =>
      have hback := List.suffix_append shorter period
      have hback' := List.suffix_append longer period
      rcases Nat.le_total shorter.length period.length with hle | hle
      · have hends := List.suffix_of_suffix_length_le hshorter hback hle
        rcases Nat.le_total longer.length period.length with hle' | hle'
        · exact List.suffix_of_suffix_length_le hends
            (List.suffix_of_suffix_length_le hlonger hback' hle') hlength
        · exact hends.trans (List.suffix_of_suffix_length_le hback' hlonger hle')
      · obtain ⟨front, rfl⟩ := List.suffix_of_suffix_length_le hback hshorter hle
        obtain ⟨front', rfl⟩ := List.suffix_of_suffix_length_le hback' hlonger
          (hle.trans hlength)
        obtain ⟨before, hbefore⟩ := hshorter
        obtain ⟨before', hbefore'⟩ := hlonger
        rw [List.length_append] at h
        simp only [List.length_append] at hlength
        have hfront : front <:+ front' := by
          refine ih front.length (by omega) ⟨before, ?_⟩ ⟨before', ?_⟩ (by omega) rfl
          · simpa [← List.append_assoc] using hbefore
          · simpa [← List.append_assoc] using hbefore'
        obtain ⟨start, rfl⟩ := hfront
        exact ⟨start, by simp⟩

theorem eq_of_rounds {last text width written steps count : Nat}
    (hwidth : written < width)
    (hsteps : last + steps * width = text + steps * written)
    (hcount : last + count * width = text + count * written) : steps = count := by
  obtain ⟨gap, rfl⟩ := Nat.exists_eq_add_of_lt hwidth
  have hsplit : ∀ rounds, rounds * (written + gap + 1) =
      rounds * written + rounds * (gap + 1) := fun rounds => by
    rw [Nat.add_assoc, Nat.mul_add]
  rw [hsplit] at hsteps hcount
  have hequal : steps * (gap + 1) = count * (gap + 1) := by omega
  exact Nat.eq_of_mul_eq_mul_right gap.succ_pos hequal

omit [DecidableEq α] in
/-- The occurrences overlap, or the second one is behind the first. -/
theorem overlap_cases {skipped read : List α}
    (hoverlap : skipped ++ pattern = pattern ++ read) :
    (∃ between, read = between ++ pattern) ∨
      ∃ middle, skipped ++ middle = pattern ∧ middle ++ read = pattern := by
  have hskipped : skipped <+: pattern ++ read := ⟨pattern, hoverlap⟩
  have hpattern : pattern <+: pattern ++ read := List.prefix_append _ _
  rcases Nat.le_total pattern.length skipped.length with hle | hle
  · obtain ⟨between, rfl⟩ :=
      List.prefix_of_prefix_length_le hpattern hskipped hle
    rw [List.append_assoc] at hoverlap
    exact .inl ⟨between, (List.append_cancel_left hoverlap).symm⟩
  · obtain ⟨middle, rfl⟩ :=
      List.prefix_of_prefix_length_le hskipped hpattern hle
    rw [List.append_assoc skipped] at hoverlap
    exact .inr ⟨middle, rfl, (List.append_cancel_left hoverlap).symm⟩

omit [DecidableEq α] in
/-- The text after a round on an overlap is the one the pass writes, unless
the occurrence that the round leaves out is still there. -/
theorem eq_or_infix_of_overlap {earlier skipped middle read : List α}
    (hstarts : replacement <+: pattern) (hsettled : Settled pattern replacement)
    (hskipped : skipped ++ middle = pattern) (hread : middle ++ read = pattern)
    (h : earlier ++ replacement ++ read = made ++ replacement) :
    earlier ++ skipped = made ∨ pattern <:+: made ++ replacement := by
  have hlength : skipped.length = read.length := by
    have hwidth := congrArg List.length (hskipped.trans hread.symm)
    rw [List.length_append, List.length_append] at hwidth
    omega
  by_cases hnil : read = []
  · rw [hnil, List.length_nil] at hlength
    rw [hnil, List.append_nil] at h
    rw [List.length_eq_zero_iff.mp hlength, List.append_nil]
    exact .inl (List.append_cancel_right h)
  · have hends : replacement <:+ replacement ++ read :=
      List.suffix_of_suffix_length_le ⟨made, h.symm⟩
        ⟨earlier, by simp⟩ (by simp)
    have hpattern : pattern <:+ pattern ++ read := by
      refine ⟨skipped, ?_⟩
      rw [← hskipped, List.append_assoc skipped, hread, hskipped]
    have hsuffix := suffix_of_period hnil hends hpattern hstarts.length_le
    have hfront : middle <+: pattern := ⟨read, hread⟩
    have hback : middle <:+ pattern := ⟨skipped, hskipped⟩
    rcases Nat.le_total replacement.length middle.length with hle | hle
    · have hturn := hsettled skipped middle read hskipped hread
        (List.prefix_of_prefix_length_le hstarts hfront hle)
        (List.suffix_of_suffix_length_le hsuffix hback hle)
      rw [List.append_assoc, ← hturn, ← List.append_assoc] at h
      exact .inl (List.append_cancel_right h)
    · obtain ⟨start, hstart⟩ := List.suffix_of_suffix_length_le hback hsuffix hle
      refine .inr ⟨earlier ++ start, [], ?_⟩
      rw [← h, ← hstart, ← hread]
      simp

/-- A round that the loop makes where the pass goes on with `rest`. -/
theorem Exhausts.round (hpattern : pattern ≠ [])
    (hstarts : replacement <+: pattern) (hsettled : Settled pattern replacement)
    {held : List α}
    (hsplit : splitAround pattern rest = some (front, back))
    (hpasses : Passes pattern replacement count back written)
    (h : Exhausts pattern replacement (count + 1) (held ++ rest)
      (made ++ front ++ replacement ++ written))
    (hlength : held.length = made.length)
    (heq : ∀ {held made : List α}, held.length = made.length →
      Exhausts pattern replacement count (held ++ back) (made ++ written) →
        held = made) :
    held = made ∧ replaceFirst pattern replacement (held ++ rest) =
      some (made ++ front ++ replacement ++ back) := by
  obtain ⟨earlier, skipped, read, hfront, hoverlap, hfirst⟩ :=
    exists_replaceFirst_append hpattern held hsplit
  obtain ⟨fewer, hfewer, hrest⟩ := h.rest_of_replaceFirst hfirst
  cases hfewer
  have hwidth := congrArg List.length hoverlap
  have hfrontLength := congrArg List.length hfront
  simp only [List.length_append] at hwidth hfrontLength
  have hwritten : earlier ++ replacement ++ read =
      made ++ front ++ replacement :=
    heq (by simp only [List.length_append]; omega) hrest
  rcases overlap_cases hoverlap with ⟨between, rfl⟩ | ⟨middle, hskipped, hread⟩
  · -- The occurrence that the pass replaces is still ahead, one round too many.
    have hmore := Passes.next (splitAround_pattern hpattern back) hpasses
    have hahead : Exhausts pattern replacement count
        (earlier ++ replacement ++ between ++ (pattern ++ back))
        (made ++ front ++ replacement ++ written) := by simpa using hrest
    exact absurd (hmore.le_steps hpattern hahead) (Nat.not_succ_le_self _)
  · rcases eq_or_infix_of_overlap hstarts hsettled hskipped hread hwritten with
      hmade | hinside
    · rw [← hfront] at hmade
      refine ⟨List.append_cancel_right hmade, ?_⟩
      rw [hfirst, hwritten]
    · have hnone := h.last_eq_none
      rw [splitAround_eq_none_iff hpattern] at hnone
      exact absurd (hinside.trans (List.prefix_append _ written).isInfix) hnone

theorem Passes.eq_of_exhausts (hpattern : pattern ≠ [])
    (hstarts : replacement <+: pattern) (hsettled : Settled pattern replacement)
    (hpasses : Passes pattern replacement count rest written) {held made : List α}
    (hlength : held.length = made.length)
    (h : Exhausts pattern replacement count (held ++ rest) (made ++ written)) :
    held = made := by
  induction hpasses generalizing held made with
  | done =>
      generalize hheld : held ++ _ = text at h
      generalize hmade : made ++ _ = last at h
      cases h
      exact List.append_cancel_right (hheld.trans hmade.symm)
  | next hsplit hpasses ih =>
      simp only [← List.append_assoc] at h
      exact (h.round hpattern hstarts hsettled hsplit hpasses hlength ih).1

theorem telling_of_prefix (hpattern : pattern ≠ [])
    (hstarts : replacement <+: pattern)
    (hwidth : replacement.length < pattern.length)
    (hsettled : Settled pattern replacement) : Telling pattern replacement where
  stops {steps text} h := by
    refine eq_of_rounds hwidth h.length ?_
    rw [Nat.zero_mul, Nat.zero_mul]
  first {steps count made rest front back written} hsplit hpasses h := by
    have hlength := (Passes.next hsplit hpasses).length
    have hsteps := h.length
    simp only [List.length_append] at hlength hsteps
    have hcount : steps = count + 1 :=
      eq_of_rounds hwidth (by omega) (by omega)
    subst hcount
    exact (h.round hpattern hstarts hsettled hsplit hpasses rfl
      fun hsame hrest =>
        hpasses.eq_of_exhausts hpattern hstarts hsettled hsame hrest).2

end Overlap

theorem telling_of_settled (hpattern : pattern ≠ [])
    (hsettled : Settled pattern replacement) : Telling pattern replacement := by
  by_cases hlonger : pattern <+: replacement
  · exact telling_of_infix hpattern hlonger.isInfix
  · by_cases hstarts : replacement <+: pattern
    · refine telling_of_prefix hpattern hstarts ?_ hsettled
      refine Nat.lt_of_le_of_ne hstarts.length_le fun hlength => hlonger ?_
      rw [hstarts.eq_of_length hlength]
    · obtain ⟨shared, chosen, other, replaced, others, hne, rfl, rfl⟩ :=
        exists_differ hlonger hstarts
      exact telling_of_differ hne

end Neroshop.Foundation
