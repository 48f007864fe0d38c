import Mathlib.Order.Defs.Unbundled

/-!
# Calls that return

A call runs on a state and returns a value or ends in a fault, and leaves a
state either way.  The rules below take a call that returned apart into the
calls it is made of.
-/

namespace Neroshop.Foundation

variable {ε σ α β γ : Type}

section Returned

variable {state after : σ} {value : α}

@[simp] theorem run_pure_eq_ok {result : α} :
    (pure value : EStateM ε σ α).run state = .ok result after ↔
      value = result ∧ state = after := by
  rw [EStateM.run_pure, EStateM.Result.ok.injEq]

@[simp] theorem run_ofExcept_eq_ok {result : Except ε α} :
    (MonadExcept.ofExcept result : EStateM ε σ α).run state =
        .ok value after ↔
      result = .ok value ∧ state = after := by
  cases result with
  | error fault =>
      refine iff_of_false (fun h => ?_) (by simp)
      cases h
  | ok found =>
      rw [Except.ok.injEq]
      exact run_pure_eq_ok

theorem run_bind_eq_ok {first : EStateM ε σ α} {next : α → EStateM ε σ β}
    {result : β} :
    (first >>= next).run state = .ok result after ↔
      ∃ value middle, first.run state = .ok value middle ∧
        (next value).run middle = .ok result after := by
  rw [EStateM.run_bind]
  cases first.run state with
  | error fault middle => simp
  | ok value middle => simp [and_assoc]

theorem run_bind_of_ok {first : EStateM ε σ α} {next : α → EStateM ε σ β}
    (h : first.run state = .ok value after) :
    (first >>= next).run state = (next value).run after := by
  rw [EStateM.run_bind, h]

theorem run_get_bind {next : σ → EStateM ε σ β} :
    (get >>= next).run state = (next state).run state := (rfl)

theorem run_set_bind {next : PUnit → EStateM ε σ β} :
    (set after >>= next).run state = (next ⟨⟩).run after := (rfl)

theorem run_ofExcept_bind {result : Except ε α} {next : α → EStateM ε σ β}
    (h : result = .ok value) :
    (MonadExcept.ofExcept result >>= next).run state =
      (next value).run state :=
  run_bind_of_ok (run_ofExcept_eq_ok.mpr ⟨h, rfl⟩)

end Returned

def Returns (call : EStateM ε σ α) (state : σ) : Prop :=
  ∃ value after, call.run state = .ok value after

section Returns

variable {state : σ}

@[simp] theorem returns_pure (value : α) :
    Returns (pure value : EStateM ε σ α) state :=
  ⟨value, state, rfl⟩

theorem returns_bind {first : EStateM ε σ α} {next : α → EStateM ε σ β} :
    Returns (first >>= next) state ↔
      ∃ value middle, first.run state = .ok value middle ∧
        Returns (next value) middle := by
  simp only [Returns, run_bind_eq_ok]
  constructor
  · rintro ⟨result, after, value, middle, hfirst, hnext⟩
    exact ⟨value, middle, hfirst, result, after, hnext⟩
  · rintro ⟨value, middle, hfirst, result, after, hnext⟩
    exact ⟨result, after, value, middle, hfirst, hnext⟩

theorem returns_get_bind {next : σ → EStateM ε σ β} :
    Returns (get >>= next) state ↔ Returns (next state) state := by
  simp only [Returns, run_get_bind]

theorem returns_bind_of_forall {first : EStateM ε σ α}
    {next : α → EStateM ε σ β}
    (hnext : ∀ value middle, Returns (next value) middle) :
    Returns (first >>= next) state ↔ Returns first state := by
  rw [returns_bind]
  constructor
  · rintro ⟨value, middle, hfirst, -⟩
    exact ⟨value, middle, hfirst⟩
  · rintro ⟨value, middle, hfirst⟩
    exact ⟨value, middle, hfirst, hnext value middle⟩

@[simp] theorem returns_ofExcept {result : Except ε α} :
    Returns (MonadExcept.ofExcept result : EStateM ε σ α) state ↔
      ∃ value, result = .ok value := by
  simp [Returns]

theorem returns_bind_pure {call : EStateM ε σ α} {result : α → β} :
    Returns (call >>= fun value => pure (result value)) state ↔
      Returns call state :=
  returns_bind_of_forall fun value _ => returns_pure (result value)

theorem returns_ofExcept_bind {result : Except ε α}
    {next : α → EStateM ε σ β} :
    Returns (MonadExcept.ofExcept result >>= next) state ↔
      ∃ value, result = .ok value ∧ Returns (next value) state := by
  rw [returns_bind]
  constructor
  · rintro ⟨value, middle, hresult, hnext⟩
    obtain ⟨rfl, rfl⟩ := run_ofExcept_eq_ok.mp hresult
    exact ⟨value, rfl, hnext⟩
  · rintro ⟨value, rfl, hnext⟩
    exact ⟨value, state, run_ofExcept_eq_ok.mpr ⟨rfl, rfl⟩, hnext⟩

end Returns

/-- The call ends in that fault. -/
def Faults (fault : ε) (call : EStateM ε σ α) (state : σ) : Prop :=
  ∃ after, call.run state = .error fault after

section Faults

variable {fault : ε} {state : σ}

@[simp] theorem not_faults_pure (value : α) :
    ¬ Faults fault (pure value : EStateM ε σ α) state := by
  rintro ⟨after, h⟩
  cases h

@[simp] theorem faults_ofExcept {result : Except ε α} :
    Faults fault (MonadExcept.ofExcept result : EStateM ε σ α) state ↔
      result = .error fault := by
  cases result with
  | error other =>
      constructor
      · rintro ⟨after, h⟩
        exact congrArg Except.error (EStateM.Result.error.inj h).1
      · rintro h
        exact ⟨state, by rw [Except.error.inj h]; rfl⟩
  | ok value =>
      refine iff_of_false ?_ nofun
      rintro ⟨after, h⟩
      cases h

theorem faults_get_bind {next : σ → EStateM ε σ β} :
    Faults fault (get >>= next) state ↔ Faults fault (next state) state :=
  Iff.rfl

theorem faults_set_bind {after : σ} {next : PUnit → EStateM ε σ β} :
    Faults fault (set after >>= next) state ↔ Faults fault (next ⟨⟩) after :=
  Iff.rfl

theorem faults_bind {first : EStateM ε σ α} {next : α → EStateM ε σ β} :
    Faults fault (first >>= next) state ↔
      Faults fault first state ∨
        ∃ value middle, first.run state = .ok value middle ∧
          Faults fault (next value) middle := by
  simp only [Faults, EStateM.run_bind]
  cases first.run state with
  | error other after => simp
  | ok value middle =>
      simp only [reduceCtorEq, exists_false, false_or,
        EStateM.Result.ok.injEq, and_assoc, exists_and_left, exists_eq_left']

theorem faults_ofExcept_bind {result : Except ε α}
    {next : α → EStateM ε σ β} :
    Faults fault (MonadExcept.ofExcept result >>= next) state ↔
      result = .error fault ∨
        ∃ value, result = .ok value ∧ Faults fault (next value) state := by
  rw [faults_bind, faults_ofExcept]
  refine or_congr_right ⟨?_, ?_⟩
  · rintro ⟨value, middle, hresult, hnext⟩
    obtain ⟨rfl, rfl⟩ := run_ofExcept_eq_ok.mp hresult
    exact ⟨value, rfl, hnext⟩
  · rintro ⟨value, rfl, hnext⟩
    exact ⟨value, state, run_ofExcept_eq_ok.mpr ⟨rfl, rfl⟩, hnext⟩

end Faults

/-! ## Results -/

/-- How a call with that result ends. -/
def ended (result : Except ε α) (after : σ) : EStateM.Result ε σ α :=
  match result with
  | .ok value => .ok value after
  | .error fault => .error fault after

def Yields (result : Except ε α) : Prop := ∃ value, result = .ok value

section Yields

theorem exists_eq_ok {result : Except ε α} :
    (∃ value, result = .ok value) ↔ Yields result :=
  Iff.rfl

@[simp] theorem yields_ok (value : α) : Yields (.ok value : Except ε α) :=
  ⟨value, rfl⟩

@[simp] theorem yields_pure (value : α) : Yields (pure value : Except ε α) :=
  ⟨value, rfl⟩

@[simp] theorem not_yields_error (fault : ε) :
    ¬ Yields (.error fault : Except ε α) := by
  rintro ⟨value, h⟩
  cases h

theorem bind_eq_ok {first : Except ε α} {next : α → Except ε β} {result : β} :
    first >>= next = .ok result ↔
      ∃ value, first = .ok value ∧ next value = .ok result := by
  cases first with
  | error fault => simp [bind, Except.bind]
  | ok value => simp [bind, Except.bind]

theorem bind_eq_error {first : Except ε α} {next : α → Except ε β} {fault : ε} :
    first >>= next = .error fault ↔
      first = .error fault ∨
        ∃ value, first = .ok value ∧ next value = .error fault := by
  cases first with
  | error other => simp [bind, Except.bind]
  | ok value => simp [bind, Except.bind]

theorem yields_bind {first : Except ε α} {next : α → Except ε β} :
    Yields (first >>= next) ↔
      ∃ value, first = .ok value ∧ Yields (next value) := by
  cases first with
  | error fault => simp [bind, Except.bind]
  | ok value => simp [bind, Except.bind]

theorem yields_bind_iff {first : Except ε α} {next : α → Except ε β}
    {condition : Prop} (hnext : ∀ value, Yields (next value) ↔ condition) :
    Yields (first >>= next) ↔ Yields first ∧ condition := by
  rw [yields_bind]
  simp only [hnext, exists_and_right]
  rfl

/-- Every item comes back from what it was made into. -/
theorem mapM_map_eq_ok {encode : α → β} {read : β → Except ε α}
    (h : ∀ item, read (encode item) = .ok item) (items : List α) :
    (items.map encode).mapM read = .ok items := by
  induction items with
  | nil => rfl
  | cons item items ih =>
      rw [List.map_cons, List.mapM_cons, h, ih]
      rfl

end Yields

/-! ## What a call leaves alone -/

/-- The state that a call leaves, whether it returned or ended in a fault. -/
def stateAfter (call : EStateM ε σ α) (state : σ) : σ :=
  match call.run state with
  | .ok _ after => after
  | .error _ after => after

theorem stateAfter_bind (first : EStateM ε σ α) (next : α → EStateM ε σ β)
    (state : σ) :
    stateAfter (first >>= next) state =
      match first.run state with
      | .ok value middle => stateAfter (next value) middle
      | .error _ after => after := by
  rw [stateAfter, EStateM.run_bind]
  cases first.run state <;> rfl

theorem stateAfter_bind_of_forall {first : EStateM ε σ α}
    {next : α → EStateM ε σ β}
    (hnext : ∀ value middle, stateAfter (next value) middle = middle)
    (state : σ) : stateAfter (first >>= next) state = stateAfter first state := by
  rw [stateAfter_bind, stateAfter]
  cases first.run state with
  | ok value middle => exact hnext value middle
  | error fault after => rfl

theorem stateAfter_bind_congr {first : EStateM ε σ α}
    {next : α → EStateM ε σ β} {other : α → EStateM ε σ γ}
    (h : ∀ value middle, stateAfter (next value) middle =
      stateAfter (other value) middle) (state : σ) :
    stateAfter (first >>= next) state = stateAfter (first >>= other) state := by
  rw [stateAfter_bind, stateAfter_bind]
  cases first.run state with
  | ok value middle => exact h value middle
  | error fault after => rfl

theorem stateAfter_bind_of_ok {first : EStateM ε σ α} {next : α → EStateM ε σ β}
    {state middle : σ} {value : α} (h : first.run state = .ok value middle) :
    stateAfter (first >>= next) state = stateAfter (next value) middle := by
  rw [stateAfter_bind, h]

theorem stateAfter_bind_of_not_returns {first : EStateM ε σ α}
    {next : α → EStateM ε σ β} {state : σ} (h : ¬ Returns first state) :
    stateAfter (first >>= next) state = stateAfter first state := by
  rw [stateAfter_bind, stateAfter]
  cases hrun : first.run state with
  | ok value middle => exact absurd ⟨value, middle, hrun⟩ h
  | error fault after => rfl

/-- The states before and after the call are related, return or not. -/
def Relates (relation : σ → σ → Prop) (call : EStateM ε σ α) : Prop :=
  ∀ state, relation state (stateAfter call state)

theorem Relates.mono {relation other : σ → σ → Prop} {call : EStateM ε σ α}
    (hrelation : ∀ state after, relation state after → other state after)
    (h : Relates relation call) : Relates other call :=
  fun state => hrelation state _ (h state)

section Relates

variable {relation : σ → σ → Prop} [IsPreorder σ relation]

theorem relates_of_stateAfter {call : EStateM ε σ α}
    (h : ∀ state, stateAfter call state = state) : Relates relation call := by
  intro state
  rw [h]
  exact refl_of relation state

theorem relates_pure (value : α) :
    Relates relation (pure value : EStateM ε σ α) :=
  relates_of_stateAfter fun _ => rfl

theorem relates_get : Relates relation (get : EStateM ε σ σ) :=
  relates_of_stateAfter fun _ => rfl

theorem relates_throw (fault : ε) :
    Relates relation (throw fault : EStateM ε σ α) :=
  relates_of_stateAfter fun _ => rfl

theorem relates_ofExcept (result : Except ε α) :
    Relates relation (MonadExcept.ofExcept result : EStateM ε σ α) := by
  refine relates_of_stateAfter fun state => ?_
  cases result <;> rfl

theorem relates_bind {first : EStateM ε σ α} {next : α → EStateM ε σ β}
    (hfirst : Relates relation first)
    (hnext : ∀ value, Relates relation (next value)) :
    Relates relation (first >>= next) := by
  intro state
  have hmiddle := hfirst state
  rw [stateAfter] at hmiddle
  rw [stateAfter_bind]
  cases hrun : first.run state with
  | error fault middle => rwa [hrun] at hmiddle
  | ok value middle =>
      rw [hrun] at hmiddle
      exact trans_of relation hmiddle (hnext value middle)

theorem relates_bind_pure {first : EStateM ε σ α} {result : α → β}
    (hfirst : Relates relation first) :
    Relates relation (first >>= fun value => pure (result value)) :=
  relates_bind hfirst fun _ => relates_pure _

theorem relates_foldlM {body : β → γ → EStateM ε σ β}
    (hbody : ∀ value item, Relates relation (body value item))
    (items : List γ) (value : β) :
    Relates relation (items.foldlM body value) := by
  induction items generalizing value with
  | nil => exact relates_pure value
  | cons item items ih =>
      rw [List.foldlM_cons]
      exact relates_bind (hbody value item) ih

end Relates

/-! ## What a call does on a part of its state -/

variable {τ : Type}

/-- How a call ended, with what is kept of the state. -/
def keepOf (keep : σ → τ) : EStateM.Result ε σ α → EStateM.Result ε τ α
  | .ok value after => .ok value (keep after)
  | .error fault after => .error fault (keep after)

/-- On what is kept of the state, the call does what the other one does. -/
def Projects (keep : σ → τ) (call : EStateM ε σ α) (image : EStateM ε τ α) :
    Prop :=
  ∀ state, image.run (keep state) = keepOf keep (call.run state)

section Projects

variable {keep : σ → τ}

theorem projects_pure (value : α) :
    Projects keep (pure value : EStateM ε σ α) (pure value) :=
  fun _ => rfl

theorem projects_bind {first : EStateM ε σ α} {next : α → EStateM ε σ β}
    {image : EStateM ε τ α} {images : α → EStateM ε τ β}
    (hfirst : Projects keep first image)
    (hnext : ∀ value, Projects keep (next value) (images value)) :
    Projects keep (first >>= next) (image >>= images) := by
  intro state
  rw [EStateM.run_bind, EStateM.run_bind, hfirst state]
  cases first.run state with
  | ok value after => exact hnext value after
  | error fault after => rfl

theorem projects_get_bind {next : σ → EStateM ε σ β}
    {images : τ → EStateM ε τ β}
    (hnext : ∀ state, Projects keep (next state) (images (keep state))) :
    Projects keep (get >>= next) (get >>= images) :=
  fun state => hnext state state

/-- What is changed beside that part of the state does not show. -/
theorem projects_modify_bind {change : σ → σ} {next : EStateM ε σ β}
    {image : EStateM ε τ β} (hchange : ∀ state, keep (change state) = keep state)
    (hnext : Projects keep next image) :
    Projects keep (modify change >>= fun _ => next) image := by
  intro state
  rw [← hchange state]
  exact hnext (change state)

end Projects

end Neroshop.Foundation
