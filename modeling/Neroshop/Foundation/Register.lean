import Mathlib.Data.Option.Basic

/-!
# Registers in which one value supersedes another

A register holds at most one value, and a written value takes the place of the
one that is there when it supersedes it.  Two writes may be swapped exactly
when one of the two values supersedes the other and not the reverse, or when
neither of them is taken.
-/

namespace Neroshop.Foundation

variable {Value : Type*}

def write (supersedes : Value → Value → Bool) :
    Option Value → Value → Option Value
  | none, value => some value
  | some current, value =>
      if supersedes value current then some value else some current

/-- Exactly one of the two values supersedes the other. -/
def Decided (supersedes : Value → Value → Bool) (first second : Value) : Prop :=
  supersedes first second ≠ supersedes second first

/--
A value that supersedes a third, which the second one does not, is kept against
the second one exactly when the two are decided.
-/
def Separating (supersedes : Value → Value → Bool) : Prop :=
  ∀ first second third, supersedes first third = true →
    supersedes second third = false →
      (supersedes second first = false ↔ Decided supersedes first second)

theorem write_cases (supersedes : Value → Value → Bool)
    (register : Option Value) (value : Value) :
    write supersedes register value = some value ∨
      write supersedes register value = register := by
  cases register with
  | none => exact .inl rfl
  | some current =>
      cases h : supersedes value current <;> simp [write, h]

theorem Decided.symm {supersedes : Value → Value → Bool}
    {first second : Value} (h : Decided supersedes first second) :
    Decided supersedes second first := Ne.symm h

theorem decided_comm {supersedes : Value → Value → Bool}
    {first second : Value} :
    Decided supersedes first second ↔ Decided supersedes second first :=
  ⟨.symm, .symm⟩

theorem write_swap_iff {supersedes : Value → Value → Bool}
    (hseparating : Separating supersedes) {first second : Value}
    (hne : first ≠ second) (register : Option Value) :
    write supersedes (write supersedes register first) second =
        write supersedes (write supersedes register second) first ↔
      Decided supersedes first second ∨
        ∃ current, register = some current ∧
          supersedes first current = false ∧
          supersedes second current = false := by
  cases register with
  | none =>
      simp only [write, Decided]
      cases supersedes second first <;> cases supersedes first second <;>
        simp [hne, Ne.symm hne]
  | some current =>
      cases hfirst : supersedes first current <;>
        cases hsecond : supersedes second current
      · simp [write, hfirst, hsecond]
      · -- only the second is taken at once
        rw [decided_comm, ← hseparating second first current hsecond hfirst]
        cases hkept : supersedes first second <;>
          simp [write, hfirst, hsecond, hkept, Ne.symm hne]
      · rw [← hseparating first second current hfirst hsecond]
        cases hkept : supersedes second first <;>
          simp [write, hfirst, hsecond, hkept, Ne.symm hne]
      · simp only [write, hfirst, hsecond, if_true, Decided]
        cases supersedes second first <;> cases supersedes first second <;>
          simp [hne, Ne.symm hne, hfirst, hsecond]

end Neroshop.Foundation
