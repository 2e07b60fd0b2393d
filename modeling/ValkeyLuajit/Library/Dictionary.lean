import Mathlib.Data.List.AList

/-!
# Dictionaries

A dictionary is a list of entries with distinct keys, so that iterating over it
visits every entry once. Two operations are added to those of `AList`: a map over
the values, and an insertion that leaves a key that is taken alone.
-/

namespace AList

universe u v w

variable {α : Type u} {β : Type v} {γ : Type w} [DecidableEq α]

/-- Apply a function to every value. -/
def mapValues (f : α → β → γ) (dict : AList fun _ : α => β) : AList fun _ : α => γ where
  entries := dict.entries.map fun entry => ⟨entry.1, f entry.1 entry.2⟩
  nodupKeys := by
    have keys : (dict.entries.map fun entry => (⟨entry.1, f entry.1 entry.2⟩ : Σ _ : α, γ)).keys =
        dict.entries.keys := by
      simp [List.keys]
    rw [List.NodupKeys, keys]
    exact dict.nodupKeys

/-- A value is found with the function applied. -/
@[simp] theorem lookup_mapValues (f : α → β → γ) (dict : AList fun _ : α => β) (key : α) :
    (dict.mapValues f).lookup key = (dict.lookup key).map (f key) :=
  List.dlookup_map₂ key

/-- Insert an entry unless the key is taken. -/
def insertNew (key : α) (value : β) (dict : AList fun _ : α => β) : AList fun _ : α => β :=
  if key ∈ dict then dict else dict.insert key value

/-- A new key has the new value. -/
theorem lookup_insertNew_self {key : α} (value : β) {dict : AList fun _ : α => β}
    (absent : key ∉ dict) : (dict.insertNew key value).lookup key = some value := by
  rw [insertNew, if_neg absent, lookup_insert]

/-- Another key keeps its value. -/
theorem lookup_insertNew_of_ne {key other : α} (value : β) {dict : AList fun _ : α => β}
    (ne : other ≠ key) : (dict.insertNew key value).lookup other = dict.lookup other := by
  unfold insertNew
  split
  · rfl
  · exact lookup_insert_ne ne

/-- The key is there afterwards, new or not. -/
@[simp] theorem mem_insertNew {key other : α} {value : β} {dict : AList fun _ : α => β} :
    other ∈ dict.insertNew key value ↔ other = key ∨ other ∈ dict := by
  unfold insertNew
  split
  · rename_i present
    constructor
    · exact .inr
    · rintro (rfl | member)
      · exact present
      · exact member
  · exact mem_insert dict

/-- The values are those under a key and those under the others. -/
theorem values_perm_erase (dict : AList fun _ : α => β) (key : α) :
    (dict.entries.map Sigma.snd).Perm
      ((dict.lookup key).toList ++ (dict.erase key).entries.map Sigma.snd) := by
  have entries : (dict.erase key).entries = dict.entries.kerase key := rfl
  rw [entries]
  cases found : dict.lookup key with
  | none =>
      have absent : key ∉ dict := lookup_eq_none.mp found
      rw [List.kerase_of_notMem_keys absent]
      exact List.Perm.refl _
  | some value =>
      have present : key ∈ dict.entries.keys := lookup_isSome.mp (by simp [found])
      obtain ⟨stored, before, after, -, whole, erased⟩ := List.exists_of_kerase present
      have member : (⟨key, stored⟩ : Sigma fun _ : α => β) ∈ dict.entries := by simp [whole]
      have same : value = stored := by
        have lookup := mem_lookup_iff.mpr member
        rw [found] at lookup
        exact Option.mem_some_iff.mp lookup
      rw [erased, whole, same]
      simp

end AList
