import Mathlib.Logic.Basic
import Neroshop.Foundation.Effects

/-!
# Fallback

Sources are asked one after the other until one gives a value.  A source is
misread where what is read from it is not what it holds.
-/

namespace Neroshop.Foundation

section Fallback

variable {ι ε α : Type}

/-- The first source that something is read from, and what is read. -/
def firstRead (reading : ι → Except ε (Option α)) :
    List ι → Except ε (Option (ι × α))
  | [] => .ok none
  | source :: sources => do
      match ← reading source with
      | some value => return some (source, value)
      | none => firstRead reading sources

/-- The first source that holds something, and what it holds. -/
def firstHeld (held : ι → Option α) (sources : List ι) : Option (ι × α) :=
  sources.findSome? fun source => (held source).map (source, ·)

variable (reading : ι → Except ε (Option α)) (held : ι → Option α) (nothing : α)

/-- What is held first is read, or nothing where nothing is held. -/
structure ReadsFirst (sources : List ι) : Prop where
  found : ∀ entry, firstHeld held sources = some entry →
    firstRead reading sources = .ok (some entry)
  missing : firstHeld held sources = none →
    firstRead reading sources = .ok none ∨
      ∃ source, firstRead reading sources = .ok (some (source, nothing))

def Misread (source : ι) : Prop := reading source ≠ .ok (held source)

/-- A source that is misread before anything is found is read as nothing, and
nothing is held. -/
def Undisturbed (sources : List ι) : Prop :=
  ∀ before source after, sources = before ++ source :: after →
    (∀ earlier ∈ before, ¬ Misread reading held earlier ∧ held earlier = none) →
    Misread reading held source →
    (∀ other ∈ sources, held other = none) ∧ reading source = .ok (some nothing)

variable {reading held nothing}

theorem firstHeld_eq_none_iff {sources : List ι} :
    firstHeld held sources = none ↔ ∀ source ∈ sources, held source = none := by
  simp [firstHeld]

theorem firstHeld_cons (source : ι) (sources : List ι) :
    firstHeld held (source :: sources) =
      ((held source).map (source, ·)).or (firstHeld held sources) := by
  rw [firstHeld, List.findSome?_cons]
  cases held source <;> rfl

variable (held) in
theorem firstHeld_map {β : Type} (f : α → β) (sources : List ι) :
    firstHeld (fun source => (held source).map f) sources =
      (firstHeld held sources).map fun entry => (entry.1, f entry.2) := by
  induction sources with
  | nil => rfl
  | cons source sources ih =>
      rw [firstHeld_cons, firstHeld_cons, ih]
      cases held source <;> rfl

theorem firstRead_some {source : ι} {value : α}
    (h : reading source = .ok (some value)) (sources : List ι) :
    firstRead reading (source :: sources) = .ok (some (source, value)) := by
  rw [firstRead, h]
  rfl

theorem firstRead_none {source : ι} (h : reading source = .ok none)
    (sources : List ι) :
    firstRead reading (source :: sources) = firstRead reading sources := by
  rw [firstRead, h]
  rfl

theorem mem_of_firstHeld {sources : List ι} {entry : ι × α}
    (h : firstHeld held sources = some entry) : entry.1 ∈ sources := by
  obtain ⟨source, hsource, hentry⟩ := List.exists_of_findSome?_eq_some h
  obtain ⟨value, -, rfl⟩ := Option.map_eq_some_iff.mp hentry
  exact hsource

theorem mem_of_firstRead {sources : List ι} {entry : ι × α}
    (h : firstRead reading sources = .ok (some entry)) : entry.1 ∈ sources := by
  induction sources with
  | nil => cases h
  | cons source sources ih =>
      rw [firstRead] at h
      obtain ⟨value, -, hrest⟩ := bind_eq_ok.mp h
      cases value with
      | some value =>
          cases hrest
          exact List.mem_cons_self
      | none => exact List.mem_cons_of_mem _ (ih hrest)

theorem reading_of_firstRead {sources : List ι} {entry : ι × α}
    (h : firstRead reading sources = .ok (some entry)) :
    reading entry.1 = .ok (some entry.2) := by
  induction sources with
  | nil => cases h
  | cons source sources ih =>
      rw [firstRead] at h
      obtain ⟨value, hvalue, hrest⟩ := bind_eq_ok.mp h
      cases value with
      | some value =>
          cases hrest
          exact hvalue
      | none => exact ih hrest

theorem firstRead_eq_none_iff {sources : List ι} :
    firstRead reading sources = .ok none ↔
      ∀ source ∈ sources, reading source = .ok none := by
  induction sources with
  | nil => exact iff_of_true rfl (by simp)
  | cons source sources ih =>
      rw [List.forall_mem_cons, ← ih, firstRead, bind_eq_ok]
      constructor
      · rintro ⟨value, hvalue, hrest⟩
        cases value with
        | some value => cases hrest
        | none => exact ⟨hvalue, hrest⟩
      · rintro ⟨hvalue, hrest⟩
        exact ⟨none, hvalue, hrest⟩

/-- Reading gets through where something is read before each fault. -/
theorem yields_firstRead_iff {sources : List ι} :
    Yields (firstRead reading sources) ↔
      ∀ before source after, sources = before ++ source :: after →
        ¬ Yields (reading source) →
          ∃ earlier ∈ before, ∃ value, reading earlier = .ok (some value) := by
  induction sources with
  | nil =>
      refine iff_of_true (yields_ok none) fun before source after h => ?_
      exact absurd h.symm (List.append_ne_nil_of_right_ne_nil _ nofun)
  | cons first sources ih =>
      cases hfirst : reading first with
      | error fault =>
          refine iff_of_false ?_ fun h => ?_
          · rw [firstRead, hfirst]
            exact not_yields_error fault
          · obtain ⟨earlier, hearlier, -⟩ := h [] first sources rfl
              (by rw [hfirst]; exact not_yields_error fault)
            exact absurd hearlier List.not_mem_nil
      | ok value =>
          cases value with
          | some value =>
              refine iff_of_true ⟨_, firstRead_some hfirst sources⟩ ?_
              intro before source after hsplit hfault
              cases before with
              | nil =>
                  cases hsplit
                  exact absurd ⟨_, hfirst⟩ hfault
              | cons head before =>
                  cases hsplit
                  exact ⟨first, List.mem_cons_self, value, hfirst⟩
          | none =>
              rw [firstRead_none hfirst, ih]
              constructor
              · intro h before source after hsplit hfault
                cases before with
                | nil =>
                    cases hsplit
                    exact absurd ⟨_, hfirst⟩ hfault
                | cons head before =>
                    cases hsplit
                    obtain ⟨earlier, hearlier, hvalue⟩ :=
                      h before source after rfl hfault
                    exact ⟨earlier, List.mem_cons_of_mem _ hearlier, hvalue⟩
              · intro h before source after hsplit hfault
                obtain ⟨earlier, hearlier, value, hvalue⟩ :=
                  h (first :: before) source after
                    (by rw [hsplit, List.cons_append]) hfault
                rcases List.mem_cons.mp hearlier with rfl | hearlier
                · rw [hfirst] at hvalue
                  cases hvalue
                · exact ⟨earlier, hearlier, value, hvalue⟩

variable (held) in
theorem map_snd_firstHeld (sources : List ι) :
    (firstHeld held sources).map Prod.snd = sources.findSome? held := by
  induction sources with
  | nil => rfl
  | cons source sources ih =>
      rw [firstHeld_cons, List.findSome?_cons, ← ih]
      cases held source <;> rfl

theorem firstRead_of_right {sources : List ι}
    (h : ∀ source ∈ sources, reading source = .ok (held source)) :
    firstRead reading sources = .ok (firstHeld held sources) := by
  induction sources with
  | nil => rfl
  | cons source sources ih =>
      rw [List.forall_mem_cons] at h
      rw [firstHeld_cons]
      cases hheld : held source with
      | some value => exact firstRead_some (h.1.trans (congrArg Except.ok hheld)) sources
      | none =>
          rw [firstRead_none (h.1.trans (congrArg Except.ok hheld)), ih h.2]
          rfl

/-- The condition behind a source that is read right and holds nothing. -/
theorem undisturbed_cons {source : ι} {sources : List ι}
    (hright : reading source = .ok none) (hnone : held source = none) :
    Undisturbed reading held nothing (source :: sources) ↔
      Undisturbed reading held nothing sources := by
  have hread : ¬ Misread reading held source := by
    rw [Misread, not_not, hright, hnone]
  constructor
  · intro h before other after hsplit hbefore hmisread
    obtain ⟨hall, hzero⟩ := h (source :: before) other after (by rw [hsplit]; rfl)
      (List.forall_mem_cons.mpr ⟨⟨hread, hnone⟩, hbefore⟩) hmisread
    exact ⟨fun later hlater => hall later (List.mem_cons_of_mem _ hlater), hzero⟩
  · intro h before other after hsplit hbefore hmisread
    cases before with
    | nil =>
        cases hsplit
        exact absurd hmisread hread
    | cons first before =>
        cases hsplit
        rw [List.forall_mem_cons] at hbefore
        obtain ⟨hall, hzero⟩ := h before other after rfl hbefore.2 hmisread
        exact ⟨List.forall_mem_cons.mpr ⟨hnone, hall⟩, hzero⟩

theorem readsFirst_of_misread {source : ι} {sources : List ι}
    (hmem : source ∉ sources) (hmisread : Misread reading held source)
    (h : ReadsFirst reading held nothing (source :: sources)) :
    (∀ other ∈ source :: sources, held other = none) ∧
      reading source = .ok (some nothing) := by
  cases hfirst : firstHeld held (source :: sources) with
  | some entry =>
      have hread := h.found entry hfirst
      cases hreading : reading source with
      | error fault =>
          rw [firstRead, hreading] at hread
          cases hread
      | ok value =>
          have hheld : held source = value := by
            cases hsource : held source with
            | some own =>
                rw [firstHeld_cons, hsource] at hfirst
                cases hfirst
                cases value with
                | some value =>
                    rw [firstRead_some hreading] at hread
                    cases hread
                    rfl
                | none =>
                    rw [firstRead_none hreading] at hread
                    exact absurd (mem_of_firstRead hread) hmem
            | none =>
                rw [firstHeld_cons, hsource] at hfirst
                have hlater := mem_of_firstHeld hfirst
                cases value with
                | some value =>
                    rw [firstRead_some hreading] at hread
                    cases hread
                    exact absurd hlater hmem
                | none => rfl
          exact absurd (hreading.trans (congrArg Except.ok hheld.symm)) hmisread
  | none =>
      have hnone := firstHeld_eq_none_iff.mp hfirst
      refine ⟨hnone, ?_⟩
      cases hreading : reading source with
      | error fault =>
          rcases h.missing hfirst with hread | ⟨other, hread⟩ <;>
            · rw [firstRead, hreading] at hread
              cases hread
      | ok value =>
          cases value with
          | none =>
              have hheld := hnone source List.mem_cons_self
              exact absurd (hreading.trans (congrArg Except.ok hheld.symm)) hmisread
          | some value =>
              rcases h.missing hfirst with hread | ⟨other, hread⟩
              · rw [firstRead_some hreading] at hread
                cases hread
              · rw [firstRead_some hreading] at hread
                cases hread
                rfl

/-- What is held first is read exactly where no source disturbs it. -/
theorem readsFirst_iff {sources : List ι} (hsources : sources.Nodup) :
    ReadsFirst reading held nothing sources ↔
      Undisturbed reading held nothing sources := by
  induction sources with
  | nil =>
      refine iff_of_true ⟨fun entry h => ?_, fun _ => .inl rfl⟩ ?_
      · cases h
      intro before source after hsplit
      exact absurd hsplit (by simp)
  | cons source sources ih =>
      rw [List.nodup_cons] at hsources
      by_cases hmisread : Misread reading held source
      · constructor
        · intro h before other after hsplit hbefore hother
          cases before with
          | nil =>
              cases hsplit
              exact readsFirst_of_misread hsources.1 hmisread h
          | cons first before =>
              cases hsplit
              exact absurd hmisread (hbefore _ List.mem_cons_self).1
        · intro h
          obtain ⟨hnone, hzero⟩ := h [] source sources rfl
            (fun _ hmem => absurd hmem List.not_mem_nil) hmisread
          refine ⟨fun entry hentry => ?_, fun _ => ?_⟩
          · rw [firstHeld_eq_none_iff.mpr hnone] at hentry
            cases hentry
          · exact .inr ⟨source, firstRead_some hzero sources⟩
      · have hright := not_not.mp hmisread
        cases hheld : held source with
        | some value =>
            rw [hheld] at hright
            have hfirst : firstHeld held (source :: sources) = some (source, value) := by
              rw [firstHeld_cons, hheld]
              rfl
            refine iff_of_true ⟨fun entry hentry => ?_, fun hnone => ?_⟩ ?_
            · cases hfirst.symm.trans hentry
              exact firstRead_some hright sources
            · cases hfirst.symm.trans hnone
            · intro before other after hsplit hbefore hother
              cases before with
              | nil =>
                  cases hsplit
                  exact absurd hother hmisread
              | cons first before =>
                  cases hsplit
                  have hnone := (hbefore _ List.mem_cons_self).2
                  rw [hheld] at hnone
                  cases hnone
        | none =>
            rw [hheld] at hright
            rw [undisturbed_cons hright hheld, ← ih hsources.2]
            have hread := firstRead_none hright sources
            have hfirst : firstHeld held (source :: sources) = firstHeld held sources := by
              rw [firstHeld_cons, hheld]
              rfl
            constructor
            · intro h
              exact ⟨fun entry hentry => hread ▸ h.found entry (hfirst.trans hentry),
                fun hnone => hread ▸ h.missing (hfirst.trans hnone)⟩
            · intro h
              exact ⟨fun entry hentry => hread.trans (h.found entry (hfirst ▸ hentry)),
                fun hnone => hread ▸ h.missing (hfirst ▸ hnone)⟩

end Fallback

end Neroshop.Foundation
