import Neroshop.Foundation.Effects

/-!
# Contracts of calls

From a state of one kind a call returns in another kind, or ends in a fault in a
third.  A call made of two meets a contract if the first one meets the kind of
state that the second starts from, and what holds after a fault is the same for
both.
-/

namespace Neroshop.Foundation

variable {ε σ α β : Type}

def Meets (pre : σ → Prop) (call : EStateM ε σ α) (post : α → σ → Prop)
    (fails : σ → Prop) : Prop :=
  ∀ state, pre state →
    match call.run state with
    | .ok value after => post value after
    | .error _ after => fails after

section Rules

variable {pre : σ → Prop} {post : α → σ → Prop} {fails : σ → Prop}

theorem Meets.mono {call : EStateM ε σ α} {weaker : σ → Prop}
    {stronger : α → σ → Prop} {faults : σ → Prop}
    (h : Meets weaker call stronger faults)
    (hpre : ∀ state, pre state → weaker state)
    (hpost : ∀ value state, stronger value state → post value state)
    (hfails : ∀ state, faults state → fails state) :
    Meets pre call post fails := by
  intro state hstate
  have hrun := h state (hpre state hstate)
  cases hcall : call.run state with
  | ok value after =>
      rw [hcall] at hrun
      exact hpost value after hrun
  | error fault after =>
      rw [hcall] at hrun
      exact hfails after hrun

theorem Meets.bind {first : EStateM ε σ α} {next : α → EStateM ε σ β}
    {post : β → σ → Prop} (between : α → σ → Prop)
    (hfirst : Meets pre first between fails)
    (hnext : ∀ value, Meets (between value) (next value) post fails) :
    Meets pre (first >>= next) post fails := by
  intro state hstate
  have hrun := hfirst state hstate
  rw [EStateM.run_bind]
  cases hcall : first.run state with
  | ok value after =>
      rw [hcall] at hrun
      exact hnext value after hrun
  | error fault after =>
      rw [hcall] at hrun
      exact hrun

theorem meets_pure {value : α} (h : ∀ state, pre state → post value state) :
    Meets pre (pure value : EStateM ε σ α) post fails :=
  h

theorem meets_throw {fault : ε} (h : ∀ state, pre state → fails state) :
    Meets pre (throw fault : EStateM ε σ α) post fails :=
  h

theorem meets_set {after : σ} {post : PUnit → σ → Prop}
    (h : ∀ state, pre state → post ⟨⟩ after) :
    Meets pre (set after : EStateM ε σ PUnit) post fails :=
  h

/-- The state that is read is the one that the rest starts from. -/
theorem meets_get_bind {next : σ → EStateM ε σ α}
    (h : ∀ state, pre state → Meets (· = state) (next state) post fails) :
    Meets pre (get >>= next) post fails :=
  fun state hstate => h state hstate state rfl

theorem meets_ite {condition : Prop} [Decidable condition]
    {first second : EStateM ε σ α}
    (hfirst : condition → Meets pre first post fails)
    (hsecond : ¬ condition → Meets pre second post fails) :
    Meets pre (if condition then first else second) post fails := by
  split
  case isTrue h => exact hfirst h
  case isFalse h => exact hsecond h

end Rules

section Outcome

variable {pre : σ → Prop} {call : EStateM ε σ α} {post : α → σ → Prop}
  {fails : σ → Prop} {state : σ}

theorem Meets.of_ok (h : Meets pre call post fails) (hstate : pre state)
    {value : α} {after : σ} (hrun : call.run state = .ok value after) :
    post value after := by
  have hmeets := h state hstate
  rwa [hrun] at hmeets

/-- What holds of the states after a return and after a fault holds of the
state that the call leaves. -/
theorem Meets.stateAfter (h : Meets pre call post fails) (hstate : pre state)
    {kind : σ → Prop} (hpost : ∀ value after, post value after → kind after)
    (hfails : ∀ after, fails after → kind after) :
    kind (stateAfter call state) := by
  have hmeets := h state hstate
  rw [Foundation.stateAfter]
  cases hrun : call.run state with
  | ok value after =>
      rw [hrun] at hmeets
      exact hpost value after hmeets
  | error fault after =>
      rw [hrun] at hmeets
      exact hfails after hmeets

end Outcome

end Neroshop.Foundation
