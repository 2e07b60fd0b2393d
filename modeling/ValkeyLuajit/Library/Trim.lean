import Mathlib.Data.List.DropRight

/-!
# Trimming

Trimming drops the elements with a property from both ends of a list. What is left
neither starts nor ends with such an element, so trimming again changes nothing, and a
list that is all such elements vanishes.
-/

namespace ValkeyLuajit

variable {α : Type} {p : α → Bool} {text : List α}

/-- Drop the elements with the property from both ends. -/
def trim (p : α → Bool) (text : List α) : List α := (text.dropWhile p).rdropWhile p

@[simp] theorem trim_nil : trim p [] = [] := rfl

/-- Nothing is dropped from the end past an element that stays. -/
theorem rdropWhile_cons_of_neg {x : α} (text : List α) (stays : ¬ p x) :
    (x :: text).rdropWhile p = x :: text.rdropWhile p := by
  induction text using List.reverseRecOn with
  | nil => simp [List.rdropWhile_singleton, stays]
  | append_singleton text y inductionHypothesis =>
      rw [← List.cons_append, List.rdropWhile_concat, List.rdropWhile_concat, inductionHypothesis]
      split <;> rfl

/-- What is left neither starts nor ends with a dropped element. -/
theorem trim_ends : (∀ x, (trim p text).head? = some x → ¬ p x) ∧
    ∀ x, (trim p text).getLast? = some x → ¬ p x := by
  constructor
  · intro x isHead
    obtain ⟨rest, kept⟩ := List.rdropWhile_prefix p (text.dropWhile p)
    have first : (text.dropWhile p).head? = some x := by
      rw [← kept, List.head?_append]
      rw [trim] at isHead
      simp [isHead]
    have unlike := List.head?_dropWhile_not p text
    rw [first] at unlike
    simpa using unlike
  · intro x isLast
    obtain ⟨nonempty, rfl⟩ := List.mem_getLast?_eq_getLast (Option.mem_def.mpr isLast)
    exact List.rdropWhile_last_not p _ nonempty

/-- A list is left alone exactly when it neither starts nor ends with a dropped element. -/
theorem trim_eq_self_iff : trim p text = text ↔
    (∀ x, text.head? = some x → ¬ p x) ∧ ∀ x, text.getLast? = some x → ¬ p x := by
  constructor
  · intro same
    have ends := @trim_ends α p text
    rwa [same] at ends
  · rintro ⟨start, stop⟩
    have kept : text.dropWhile p = text := by
      cases text with
      | nil => rfl
      | cons first rest => exact List.dropWhile_cons_of_neg (start first rfl)
    rw [trim, kept, List.rdropWhile_eq_self_iff]
    exact fun nonempty => stop _ (List.getLast?_eq_some_getLast nonempty)

/-- Trimming twice is trimming once. -/
@[simp] theorem trim_trim : trim p (trim p text) = trim p text :=
  trim_eq_self_iff.mpr trim_ends

/-- What is left was there. -/
theorem mem_of_mem_trim {x : α} (member : x ∈ trim p text) : x ∈ text :=
  (List.dropWhile_sublist p).mem ((List.rdropWhile_prefix p _).sublist.mem member)

end ValkeyLuajit
