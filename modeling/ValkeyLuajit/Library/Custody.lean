import Mathlib.Data.List.Nodup
import Mathlib.Data.List.Perm.Subperm
import Mathlib.Data.List.Range
import Mathlib.Data.Nat.Basic

/-!
# Numbered objects

Objects are numbered in the order they are made. `Made first last` says of a list
that its objects were made between two points of time and that none of them is
listed twice; lists made one after the other can be joined. A list that is as long
as the time allows has every object made in it exactly once.
-/

namespace ValkeyLuajit

/-- The objects have numbers from `first` on and below `last`, all different. -/
structure Made (first last : Nat) (objects : List Nat) : Prop where
  order : first ≤ last
  distinct : objects.Nodup
  range : ∀ object ∈ objects, first ≤ object ∧ object < last

namespace Made

variable {first middle last object : Nat} {objects others : List Nat}

theorem nil (order : first ≤ last) : Made first last [] := ⟨order, List.nodup_nil, by simp⟩

/-- The next object. -/
theorem next : Made first (first + 1) [first] :=
  ⟨Nat.le_succ first, List.nodup_singleton first, by simp⟩

theorem perm (made : Made first last objects) (same : objects.Perm others) :
    Made first last others where
  order := made.order
  distinct := same.nodup_iff.mp made.distinct
  range := fun object member => made.range object (same.mem_iff.mpr member)

theorem sublist (made : Made first last objects) (part : others.Sublist objects) :
    Made first last others where
  order := made.order
  distinct := made.distinct.sublist part
  range := fun object member => made.range object (part.subset member)

/-- More time passes before and after. -/
theorem widen {earlier later : Nat} (made : Made first last objects) (before : earlier ≤ first)
    (after : last ≤ later) : Made earlier later objects where
  order := before.trans (made.order.trans after)
  distinct := made.distinct
  range := fun object member =>
    ⟨before.trans (made.range object member).1, (made.range object member).2.trans_le after⟩

/-- What was made before and what was made after have nothing in common. -/
theorem append (early : Made first middle objects) (late : Made middle last others) :
    Made first last (objects ++ others) where
  order := early.order.trans late.order
  distinct := by
    refine List.nodup_append'.mpr ⟨early.distinct, late.distinct, fun object old new => ?_⟩
    have below := (early.range object old).2
    have above := (late.range object new).1
    omega
  range := by
    intro object member
    rcases List.mem_append.mp member with old | new
    · have inside := early.range object old
      have later := late.order
      omega
    · have inside := late.range object new
      have earlier := early.order
      omega

/-- Two joint lists, each made further, are still made together. -/
theorem append_append {freed held : List Nat} (early : Made first middle (objects ++ others))
    (late : Made middle last (freed ++ held)) :
    Made first last (objects ++ freed ++ (others ++ held)) := by
  refine (early.append late).perm ?_
  simp only [List.append_assoc]
  refine List.Perm.append_left objects ?_
  rw [← List.append_assoc, ← List.append_assoc]
  exact List.perm_append_comm.append_right held

/-- Every object made is listed exactly when the list is as long as the time allows. -/
theorem complete_iff (made : Made first last objects) :
    (∀ object, first ≤ object → object < last → object ∈ objects) ↔
      last - first ≤ objects.length := by
  have within : objects ⊆ List.range' first (last - first) := by
    intro object member
    have inside := made.range object member
    exact List.mem_range'_1.mpr (by omega)
  constructor
  · intro complete
    have all : List.range' first (last - first) ⊆ objects := by
      intro object member
      have inside := List.mem_range'_1.mp member
      exact complete object inside.1 (by omega)
    simpa using (List.subperm_of_subset List.nodup_range' all).length_le
  · intro long object above below
    have same := (List.subperm_of_subset made.distinct within).perm_of_length_le (by simpa using long)
    exact same.mem_iff.mpr (List.mem_range'_1.mpr (by omega))

end Made

end ValkeyLuajit
