import Mathlib.Data.Finmap

/-!
# Words of a text, and a table filled from the front

A text falls into words at its blanks.  A table that is filled entry after entry
holds for each key what the last entry with that key gave it.
-/

namespace Neroshop.Foundation

section Words

variable {α : Type*} (blank : α → Bool)

/-- The words of a text that goes on in the middle of one. -/
def wordsFrom : List α → List α → List (List α)
  | carry, [] => if carry = [] then [] else [carry]
  | carry, symbol :: rest =>
      if blank symbol then
        if carry = [] then wordsFrom [] rest else carry :: wordsFrom [] rest
      else wordsFrom (carry ++ [symbol]) rest

def words (text : List α) : List (List α) := wordsFrom blank [] text

/-- A word that a text can have. -/
def IsWord (word : List α) : Prop :=
  word ≠ [] ∧ ∀ symbol ∈ word, blank symbol = false

variable {blank}

@[simp] theorem words_nil : words blank [] = [] := rfl

theorem wordsFrom_append_blank (carry text : List α) {symbol : α}
    (h : blank symbol = true) (rest : List α) :
    wordsFrom blank carry (text ++ symbol :: rest) =
      wordsFrom blank carry text ++ words blank rest := by
  induction text generalizing carry with
  | nil =>
      rw [List.nil_append, wordsFrom.eq_2, if_pos h, wordsFrom.eq_1, words]
      split <;> rfl
  | cons first text ih =>
      rw [List.cons_append, wordsFrom, wordsFrom]
      by_cases hfirst : blank first = true
      · rw [if_pos hfirst, if_pos hfirst, ih]
        split <;> rfl
      · rw [if_neg hfirst, if_neg hfirst, ih]

/-- A blank separates the words before it from those behind it. -/
theorem words_append_blank (text : List α) {symbol : α}
    (h : blank symbol = true) (rest : List α) :
    words blank (text ++ symbol :: rest) =
      words blank text ++ words blank rest :=
  wordsFrom_append_blank [] text h rest

theorem wordsFrom_of_solid {text : List α}
    (h : ∀ symbol ∈ text, blank symbol = false) (carry : List α) :
    wordsFrom blank carry text =
      if carry ++ text = [] then [] else [carry ++ text] := by
  induction text generalizing carry with
  | nil => rw [wordsFrom, List.append_nil]
  | cons symbol text ih =>
      rw [List.forall_mem_cons] at h
      rw [wordsFrom, if_neg (by simp [h.1]), ih h.2, List.append_assoc,
        List.singleton_append]

theorem words_of_isWord {word : List α} (h : IsWord blank word) :
    words blank word = [word] := by
  rw [words, wordsFrom_of_solid h.2, List.nil_append, if_neg h.1]

theorem words_append_isWord (text : List α) {symbol : α}
    (hsymbol : blank symbol = true) {word : List α} (h : IsWord blank word) :
    words blank (text ++ symbol :: word) = words blank text ++ [word] := by
  rw [words_append_blank text hsymbol, words_of_isWord h]

end Words

section Fill

variable {Key : Type*} [DecidableEq Key] {Value Entry : Type*}
  (keyOf : Entry → Key) (valueOf : Entry → Value)

def fill (entries : List Entry) : Finmap fun _ : Key => Value :=
  entries.foldl (fun table entry => table.insert (keyOf entry) (valueOf entry)) ∅

variable {keyOf valueOf}

/-- The last entry of a key decides. -/
theorem lookup_fill (entries : List Entry) (key : Key) :
    (fill keyOf valueOf entries).lookup key =
      ((entries.filter fun entry => keyOf entry = key).getLast?).map valueOf := by
  induction entries using List.reverseRecOn with
  | nil => rfl
  | append_singleton entries entry ih =>
      rw [fill, List.foldl_append, List.foldl_cons, List.foldl_nil,
        List.filter_append]
      by_cases h : keyOf entry = key
      · rw [h, Finmap.lookup_insert, List.filter_cons_of_pos (by simpa using h)]
        simp
      · rw [Finmap.lookup_insert_of_ne _ (Ne.symm h),
          List.filter_cons_of_neg (by simpa using h), List.filter_nil,
          List.append_nil, ← ih, fill]

end Fill

end Neroshop.Foundation
