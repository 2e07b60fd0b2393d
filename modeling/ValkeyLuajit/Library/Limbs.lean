import Mathlib.Data.Nat.ModEq
import Mathlib.Tactic.Ring

/-!
# Three-limb arithmetic

A number below the cube of a base is three limbs. Multiplying two such numbers and adding a
third, limb by limb and with a carry from each limb to the next, is multiplication and
addition modulo the cube; so a congruential sequence can be computed on limbs.
-/

namespace ValkeyLuajit

/-- Three limbs, the lowest first. -/
@[ext]
structure Limbs where
  low : Nat
  mid : Nat
  high : Nat
deriving DecidableEq

namespace Limbs

/-- The number that the limbs stand for. -/
def value (base : Nat) (x : Limbs) : Nat := x.low + base * (x.mid + base * x.high)

/-- Every limb is below the base. -/
structure Within (base : Nat) (x : Limbs) : Prop where
  low : x.low < base
  mid : x.mid < base
  high : x.high < base

/-- Multiply by `a` and add `c`. What is carried out of the highest limb is lost. -/
def mulAdd (base : Nat) (a : Limbs) (c : Nat) (x : Limbs) : Limbs :=
  let low := a.low * x.low + c
  let mid := low / base + (a.low * x.mid + a.mid * x.low)
  let high := mid / base + (a.low * x.high + a.mid * x.mid + a.high * x.low)
  ⟨low % base, mid % base, high % base⟩

variable {base c : Nat} {a x : Limbs}

/-- Limbs below the base stand for a number below its cube. -/
theorem Within.value_lt (within : x.Within base) : x.value base < base ^ 3 := by
  have upper : x.mid + base * x.high + 1 ≤ base * base := by
    calc x.mid + base * x.high + 1 ≤ base + base * x.high := by have := within.mid; omega
      _ = base * (x.high + 1) := by ring
      _ ≤ base * base := Nat.mul_le_mul_left _ within.high
  calc x.value base < base + base * (x.mid + base * x.high) := by
        have := within.low
        unfold value
        omega
    _ = base * (x.mid + base * x.high + 1) := by ring
    _ ≤ base * (base * base) := Nat.mul_le_mul_left _ upper
    _ = base ^ 3 := by ring

theorem mulAdd_within (positive : 0 < base) : (mulAdd base a c x).Within base :=
  ⟨Nat.mod_lt _ positive, Nat.mod_lt _ positive, Nat.mod_lt _ positive⟩

/-- A limb keeps the remainder and carries the quotient to the next. -/
theorem carried (base k n : Nat) :
    base ^ k * n = base ^ k * (n % base) + base ^ (k + 1) * (n / base) := by
  calc base ^ k * n = base ^ k * (n % base + base * (n / base)) := by rw [Nat.mod_add_div]
    _ = base ^ k * (n % base) + base ^ (k + 1) * (n / base) := by ring

/-- The limbs are those of the product and the sum, modulo the cube of the base. -/
theorem value_mulAdd (positive : 0 < base) :
    (mulAdd base a c x).value base = (a.value base * x.value base + c) % base ^ 3 := by
  let low := a.low * x.low + c
  let mid := low / base + (a.low * x.mid + a.mid * x.low)
  let high := mid / base + (a.low * x.high + a.mid * x.mid + a.high * x.low)
  let above := a.mid * x.high + a.high * x.mid + base * (a.high * x.high)
  have whole : a.value base * x.value base + c =
      (mulAdd base a c x).value base + base ^ 3 * (high / base + above) := by
    calc a.value base * x.value base + c
        = base ^ 0 * low + base ^ 1 * (a.low * x.mid + a.mid * x.low) +
            base ^ 2 * (a.low * x.high + a.mid * x.mid + a.high * x.low) + base ^ 3 * above := by
          simp only [value, low, above]
          ring
      _ = low % base + base ^ 1 * mid +
            base ^ 2 * (a.low * x.high + a.mid * x.mid + a.high * x.low) + base ^ 3 * above := by
          rw [carried base 0 low]
          ring
      _ = low % base + base ^ 1 * (mid % base) + base ^ 2 * high + base ^ 3 * above := by
          rw [carried base 1 mid]
          ring
      _ = low % base + base ^ 1 * (mid % base) + base ^ 2 * (high % base) +
            base ^ 3 * (high / base + above) := by
          rw [carried base 2 high]
          ring
      _ = (mulAdd base a c x).value base + base ^ 3 * (high / base + above) := by
          simp only [value, mulAdd, low, mid, high]
          ring
  rw [whole, Nat.add_mul_mod_self_left, Nat.mod_eq_of_lt (mulAdd_within positive).value_lt]

end Limbs

/-- The sequence that starts with `start`, each number computed from the one before it as
`multiplier * x + increment` modulo `modulus`. -/
def congruential (multiplier increment modulus start : Nat) : Nat → Nat
  | 0 => start
  | k + 1 =>
      (multiplier * congruential multiplier increment modulus start k + increment) % modulus

/-- Limbs that are multiplied and added to run through the sequence. -/
theorem Limbs.value_iterate_mulAdd {base c : Nat} (positive : 0 < base) (a x : Limbs) (k : Nat) :
    (((mulAdd base a c)^[k]) x).value base =
      congruential (a.value base) c (base ^ 3) (x.value base) k := by
  induction k with
  | zero => rfl
  | succ k inductionHypothesis =>
      rw [Function.iterate_succ_apply', value_mulAdd positive, inductionHypothesis, congruential]

end ValkeyLuajit
