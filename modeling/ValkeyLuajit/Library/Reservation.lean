import Mathlib.Order.MinMax
import Mathlib.Data.Nat.Basic
import Mathlib.Tactic.Common

/-!
# Reserved slots

A program works on a stack that promises it a number of slots. A reservation raises
the promise to a height, a push takes the slot at a height, and the promise suffices
when no push takes a slot that was not promised before. What a program does to its
stack is a list of such moments.
-/

namespace ValkeyLuajit

/-- The top of the stack reaches a height, or the slots up to a height are promised. -/
inductive Moment where
  | push (height : Nat)
  | reserve (height : Nat)
deriving DecidableEq

/-- The slots that are promised after these moments. -/
def promised (slots : Nat) : List Moment → Nat
  | [] => slots
  | .push _ :: rest => promised slots rest
  | .reserve height :: rest => promised (max slots height) rest

/-- Every push takes a promised slot. -/
def Suffices (slots : Nat) : List Moment → Prop
  | [] => True
  | .push height :: rest => height ≤ slots ∧ Suffices slots rest
  | .reserve height :: rest => Suffices (max slots height) rest

/-- The moments of a program that reserves nothing. -/
def OnlyPushes (moments : List Moment) : Prop := ∀ height, Moment.reserve height ∉ moments

section

variable {slots more : Nat} {before after moments : List Moment}

@[simp] theorem promised_nil : promised slots [] = slots := rfl

@[simp] theorem suffices_nil : Suffices slots [] := trivial

/-- What is promised after both is what the second adds to the first. -/
theorem promised_append : promised slots (before ++ after) = promised (promised slots before) after := by
  induction before generalizing slots with
  | nil => rfl
  | cons moment before inductionHypothesis =>
      cases moment with
      | push height => exact inductionHypothesis
      | reserve height => exact inductionHypothesis

/-- A promise suffices for both when what it has become suffices for the second. -/
theorem suffices_append : Suffices slots (before ++ after) ↔
    Suffices slots before ∧ Suffices (promised slots before) after := by
  induction before generalizing slots with
  | nil => simp
  | cons moment before inductionHypothesis =>
      cases moment with
      | push height =>
          rw [List.cons_append, Suffices, Suffices, inductionHypothesis, and_assoc]
          rfl
      | reserve height => exact inductionHypothesis

/-- A promise is never taken back. -/
theorem le_promised (moments : List Moment) : slots ≤ promised slots moments := by
  induction moments generalizing slots with
  | nil => exact Nat.le_refl slots
  | cons moment moments inductionHypothesis =>
      cases moment with
      | push height => exact inductionHypothesis
      | reserve height => exact (Nat.le_max_left slots height).trans inductionHypothesis

/-- A larger promise suffices too. -/
theorem Suffices.mono (enough : Suffices slots moments) (le : slots ≤ more) :
    Suffices more moments := by
  induction moments generalizing slots more with
  | nil => trivial
  | cons moment moments inductionHypothesis =>
      cases moment with
      | push height => exact ⟨enough.1.trans le, inductionHypothesis enough.2 le⟩
      | reserve height => exact inductionHypothesis enough (max_le_max_right height le)

/-- Only reservations raise the promise. -/
theorem OnlyPushes.promised (pushes : OnlyPushes moments) : promised slots moments = slots := by
  induction moments with
  | nil => rfl
  | cons moment moments inductionHypothesis =>
      cases moment with
      | push height => exact inductionHypothesis fun other member => pushes other (by simp [member])
      | reserve height => exact absurd (List.mem_cons_self ..) (pushes height)

/-- Two records of pushes make one. -/
theorem OnlyPushes.append (first : OnlyPushes before) (rest : OnlyPushes after) :
    OnlyPushes (before ++ after) := by
  intro height member
  exact (List.mem_append.mp member).elim (first height) (rest height)

end

end ValkeyLuajit
