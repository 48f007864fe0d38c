import Mathlib.Data.List.Perm.Basic

/-!
# Runs of partial step functions

An event either is enabled in a state and leads to the next one, or it is not.
A run executes a list of events in order.  `AllMeet` restricts a run to steps
that satisfy a condition on the state they are taken from, which is the form
in which a conditional guarantee about whole runs is stated.
-/

namespace Neroshop.Foundation

variable {State Event : Type*}

/-- Execute the events in order; an event that is not enabled ends the run. -/
def runFrom (step : State → Event → Option State) :
    State → List Event → Option State
  | state, [] => some state
  | state, event :: events =>
      (step state event).bind fun next => runFrom step next events

/-- Every step of the run satisfies `meets` in the state it is taken from. -/
def AllMeet (step : State → Event → Option State)
    (meets : State → Event → Prop) : State → List Event → Prop
  | _, [] => True
  | state, event :: events =>
      meets state event ∧
        ∀ next, step state event = some next → AllMeet step meets next events

@[simp] theorem runFrom_nil (step : State → Event → Option State)
    (state : State) : runFrom step state [] = some state := rfl

theorem runFrom_cons (step : State → Event → Option State) (state : State)
    (event : Event) (events : List Event) :
    runFrom step state (event :: events) =
      (step state event).bind fun next => runFrom step next events := rfl

theorem runFrom_append (step : State → Event → Option State)
    (state : State) (events more : List Event) :
    runFrom step state (events ++ more) =
      (runFrom step state events).bind fun next => runFrom step next more := by
  induction events generalizing state with
  | nil => rfl
  | cons event events ih =>
      rw [List.cons_append, runFrom_cons, runFrom_cons, Option.bind_assoc]
      exact congrArg _ (funext ih)

instance decidableAllMeet (step : State → Event → Option State)
    (meets : State → Event → Prop)
    [∀ state event, Decidable (meets state event)] :
    ∀ state events, Decidable (AllMeet step meets state events)
  | _, [] => .isTrue trivial
  | state, event :: events =>
      have := fun next => decidableAllMeet step meets next events
      inferInstanceAs (Decidable (meets state event ∧
        ∀ next ∈ step state event, AllMeet step meets next events))

theorem allMeet_of_forall {step : State → Event → Option State}
    {meets : State → Event → Prop} {events : List Event}
    (h : ∀ state, ∀ event ∈ events, meets state event) (state : State) :
    AllMeet step meets state events := by
  induction events generalizing state with
  | nil => trivial
  | cons event events ih =>
      refine ⟨h state event (List.mem_cons_self ..), fun next _ => ih ?_ next⟩
      exact fun state event hevent =>
        h state event (List.mem_cons_of_mem _ hevent)

theorem AllMeet.and {step : State → Event → Option State}
    {meets other : State → Event → Prop} {state : State} {events : List Event}
    (hmeets : AllMeet step meets state events)
    (hother : AllMeet step other state events) :
    AllMeet step (fun state event => meets state event ∧ other state event)
      state events := by
  induction events generalizing state with
  | nil => trivial
  | cons event events ih =>
      refine ⟨⟨hmeets.1, hother.1⟩, fun next hstep => ?_⟩
      exact ih (hmeets.2 next hstep) (hother.2 next hstep)

/-- The condition is asked of every event in the state it is taken from. -/
theorem allMeet_iff {step : State → Event → Option State}
    {meets : State → Event → Prop} {state : State} {events : List Event} :
    AllMeet step meets state events ↔
      ∀ before event later reached, events = before ++ event :: later →
        runFrom step state before = some reached → meets reached event := by
  induction events generalizing state with
  | nil =>
      refine iff_of_true trivial fun before event later reached h => ?_
      exact absurd h.symm (List.append_ne_nil_of_right_ne_nil _ nofun)
  | cons first events ih =>
      constructor
      · rintro ⟨hfirst, hrest⟩ before event later reached hevents hrun
        cases before with
        | nil =>
            obtain ⟨rfl, rfl⟩ := List.cons.inj hevents
            exact Option.some.inj hrun ▸ hfirst
        | cons head before =>
            obtain ⟨rfl, htail⟩ := List.cons.inj hevents
            rw [runFrom_cons, Option.bind_eq_some_iff] at hrun
            obtain ⟨next, hstep, hnext⟩ := hrun
            exact ih.mp (hrest next hstep) before event later reached htail hnext
      · intro h
        refine ⟨h [] first events state rfl rfl, fun next hstep => ih.mpr ?_⟩
        intro before event later reached hevents hrun
        refine h (first :: before) event later reached
          (by rw [hevents, List.cons_append]) ?_
        rw [runFrom_cons, hstep]
        exact hrun

/-- A run that meets the condition is made of two that do. -/
theorem AllMeet.split {step : State → Event → Option State}
    {meets : State → Event → Prop} {state : State} {before later : List Event}
    (h : AllMeet step meets state (before ++ later)) :
    AllMeet step meets state before ∧
      ∀ reached, runFrom step state before = some reached →
        AllMeet step meets reached later := by
  rw [allMeet_iff] at h
  constructor
  · rw [allMeet_iff]
    intro first event rest reached hevents hrun
    refine h first event (rest ++ later) reached ?_ hrun
    rw [hevents, List.append_assoc, List.cons_append]
  · intro reached hreached
    rw [allMeet_iff]
    intro first event rest final hevents hrun
    refine h (before ++ first) event rest final ?_ ?_
    · rw [hevents, List.append_assoc]
    · rw [runFrom_append, hreached]
      exact hrun

/-- Two conditions that agree where an invariant holds, if the first of them
keeps it. -/
theorem allMeet_congr {step : State → Event → Option State}
    {meets other : State → Event → Prop} {invariant : State → Prop}
    (hiff : ∀ state event, invariant state →
      (meets state event ↔ other state event))
    (preserved : ∀ state event next, invariant state → meets state event →
      step state event = some next → invariant next)
    {state : State} {events : List Event} (hstart : invariant state) :
    AllMeet step meets state events ↔ AllMeet step other state events := by
  induction events generalizing state with
  | nil => exact Iff.rfl
  | cons event events ih =>
      constructor
      · rintro ⟨hevent, hrest⟩
        refine ⟨(hiff state event hstart).mp hevent, fun next hstep => ?_⟩
        exact (ih (preserved state event next hstart hevent hstep)).mp
          (hrest next hstep)
      · rintro ⟨hevent, hrest⟩
        have hmeets := (hiff state event hstart).mpr hevent
        refine ⟨hmeets, fun next hstep => ?_⟩
        exact (ih (preserved state event next hstart hmeets hstep)).mpr
          (hrest next hstep)

/--
The run rule: an invariant of every step that meets the condition is an
invariant of every run whose steps all meet it.
-/
theorem runFrom_invariant {step : State → Event → Option State}
    {meets : State → Event → Prop} (invariant : State → Prop)
    (preserved : ∀ state event next, invariant state → meets state event →
      step state event = some next → invariant next)
    {state final : State} {events : List Event}
    (hmeets : AllMeet step meets state events)
    (hrun : runFrom step state events = some final)
    (hstart : invariant state) : invariant final := by
  induction events generalizing state with
  | nil =>
      simp only [runFrom_nil, Option.some.injEq] at hrun
      exact hrun ▸ hstart
  | cons event events ih =>
      rw [runFrom_cons, Option.bind_eq_some_iff] at hrun
      obtain ⟨next, hstep, hrest⟩ := hrun
      exact ih (hmeets.2 next hstep) hrest
        (preserved state event next hstart hmeets.1 hstep)

theorem runFrom_invariant_of_step {step : State → Event → Option State}
    {invariant : State → Prop}
    (preserved : ∀ state event next, invariant state →
      step state event = some next → invariant next)
    {state final : State} {events : List Event}
    (hrun : runFrom step state events = some final)
    (hstart : invariant state) : invariant final := by
  have hmeets : AllMeet step (fun _ _ => True) state events :=
    allMeet_of_forall (fun _ _ _ => trivial) state
  exact runFrom_invariant invariant
    (fun state event next hinv _ => preserved state event next hinv)
    hmeets hrun hstart

/-- Some run whose steps all meet the condition leads there. -/
def Reaches (step : State → Event → Option State)
    (meets : State → Event → Prop) (state later : State) : Prop :=
  ∃ events, AllMeet step meets state events ∧
    runFrom step state events = some later

section Reaches

variable {step : State → Event → Option State} {meets : State → Event → Prop}

theorem Reaches.refl (state : State) : Reaches step meets state state :=
  ⟨[], trivial, rfl⟩

theorem Reaches.head {state next later : State} {event : Event}
    (hmeets : meets state event) (hstep : step state event = some next)
    (h : Reaches step meets next later) : Reaches step meets state later := by
  obtain ⟨events, hevents, hrun⟩ := h
  refine ⟨event :: events, ⟨hmeets, fun other hother => ?_⟩, ?_⟩
  · rw [hstep, Option.some.injEq] at hother
    exact hother ▸ hevents
  · rw [runFrom_cons, hstep]
    exact hrun

theorem Reaches.trans {state next later : State}
    (h : Reaches step meets state next) (hlater : Reaches step meets next later) :
    Reaches step meets state later := by
  obtain ⟨events, hevents, hrun⟩ := h
  induction events generalizing state with
  | nil =>
      rw [runFrom_nil, Option.some.injEq] at hrun
      exact hrun ▸ hlater
  | cons event events ih =>
      rw [runFrom_cons, Option.bind_eq_some_iff] at hrun
      obtain ⟨middle, hstep, hrest⟩ := hrun
      exact .head hevents.1 hstep (ih (hevents.2 middle hstep) hrest)

theorem Reaches.invariant {invariant : State → Prop}
    (preserved : ∀ state event next, invariant state → meets state event →
      step state event = some next → invariant next)
    {state later : State} (h : Reaches step meets state later)
    (hstart : invariant state) : invariant later := by
  obtain ⟨events, hevents, hrun⟩ := h
  exact runFrom_invariant invariant preserved hevents hrun hstart

/-- A goal is reached where, short of it, some step lowers a measure. -/
theorem Reaches.of_measure {invariant goal : State → Prop}
    (measure : State → Nat)
    (advance : ∀ state, invariant state → ¬ goal state →
      ∃ event next, meets state event ∧ step state event = some next ∧
        invariant next ∧ measure next < measure state)
    {state : State} (hstart : invariant state) :
    ∃ later, Reaches step meets state later ∧ goal later := by
  induction hmeasure : measure state using Nat.strongRecOn
    generalizing state with
  | ind bound ih =>
      by_cases hgoal : goal state
      · exact ⟨state, .refl state, hgoal⟩
      · obtain ⟨event, next, hmeets, hstep, hnext, hless⟩ :=
          advance state hstart hgoal
        obtain ⟨later, hreaches, hlater⟩ :=
          ih (measure next) (hmeasure ▸ hless) hnext rfl
        exact ⟨later, .head hmeets hstep hreaches, hlater⟩

/-- A run is no longer than a measure that every step of it lowers. -/
theorem length_le_of_measure (measure : State → Nat)
    (lowers : ∀ state event next, meets state event →
      step state event = some next → measure next < measure state)
    {state final : State} {events : List Event}
    (hmeets : AllMeet step meets state events)
    (hrun : runFrom step state events = some final) :
    events.length + measure final ≤ measure state := by
  induction events generalizing state with
  | nil =>
      rw [runFrom_nil, Option.some.injEq] at hrun
      rw [hrun, List.length_nil]
      omega
  | cons event events ih =>
      rw [runFrom_cons, Option.bind_eq_some_iff] at hrun
      obtain ⟨next, hstep, hrest⟩ := hrun
      have hless := lowers state event next hmeets.1 hstep
      have hlater := ih (hmeets.2 next hstep) hrest
      rw [List.length_cons]
      omega

end Reaches

/-! ## Deliveries whose order does not matter -/

/--
Delivering permuted lists leads to the same state, when adjacent deliveries
commute in every state that is `ready` for them and readiness survives both a
delivery and a reordering of what is still to come.
-/
theorem foldl_perm_of_ready {op : State → Event → State}
    (ready : State → List Event → Prop)
    (advance : ∀ state event events,
      ready state (event :: events) → ready (op state event) events)
    (reorder : ∀ state {events more : List Event},
      events.Perm more → ready state events → ready state more)
    (swap : ∀ state first second events,
      ready state (first :: second :: events) →
        op (op state first) second = op (op state second) first)
    {events more : List Event} (hperm : events.Perm more) :
    ∀ state, ready state events → events.foldl op state = more.foldl op state := by
  induction hperm with
  | nil => intro state _; rfl
  | cons event _ ih =>
      intro state hready
      exact ih (op state event) (advance state event _ hready)
  | swap first second events =>
      intro state hready
      simp only [List.foldl_cons]
      rw [swap state second first events hready]
  | trans hperm _ ihFirst ihSecond =>
      intro state hready
      rw [ihFirst state hready, ihSecond state (reorder state hperm hready)]

end Neroshop.Foundation
