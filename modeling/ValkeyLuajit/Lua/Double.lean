import ValkeyLuajit.Library.Interchange
import ValkeyLuajit.Library.Scientific
import ValkeyLuajit.Lua.Value

/-!
# Lua numbers as doubles

A Lua number is a `double`. The rationals that a `double` can have are those of its
interchange format; any other is rounded to one of them.
-/

namespace ValkeyLuajit

open Lua

/-- A number as C has it. -/
def Lua.Number.datum : Number → Datum
  | .finite value => .finite value
  | .infinite negative => .infinite negative
  | .nan => .nan

/-- A number of C in Lua. -/
def Datum.number : Datum → Number
  | .finite value => .finite value
  | .infinite negative => .infinite negative
  | .nan => .nan

@[simp] theorem number_datum (n : Number) : n.datum.number = n := by cases n <;> rfl

/-- The number is one that a `double` can have. -/
def Lua.Number.IsDouble (n : Number) : Prop := Interchange.double.Holds n.datum

/-- The nearest `double`. Beyond the last one it is infinite. -/
def toDouble (value : Rat) : Number :=
  (Interchange.double.datum (Interchange.double.bits 0x7ff8000000000000 (.finite value))).number

theorem toDouble_eq {value : Rat} (double : (Number.finite value).IsDouble) :
    toDouble value = .finite value := by
  have isNan : Interchange.double.datum 0x7ff8000000000000 = .nan := by decide +kernel
  have same : Interchange.double.Holds (.finite value) := double
  rw [toDouble, Interchange.datum_bits same isNan]
  rfl

/-- A number with the other sign. -/
def negated : Number → Number
  | .finite value => .finite (-value)
  | .infinite negative => .infinite (!negative)
  | .nan => .nan

/-- The sign has no part in rounding. -/
theorem toDouble_neg {value : Rat} (nonnegative : 0 ≤ value) :
    toDouble (-value) = negated (toDouble value) := by
  have code : Interchange.double.round |value| ≤ Interchange.double.infinity := Nat.min_le_right ..
  rcases nonnegative.eq_or_lt with rfl | positive
  · decide +kernel
  · obtain ⟨minus, rest⟩ := Interchange.sign_add true code
    obtain ⟨plus, rest'⟩ := Interchange.sign_add false code
    have below : decide (-value < 0) = true := by simpa using positive
    have above : decide (value < 0) = false := by simpa using nonnegative
    simp only [toDouble, Interchange.bits, Interchange.datum, abs_neg, below, above, minus, plus,
      rest, rest']
    split
    · simp [Datum.number, negated]
    · split <;> rfl

theorem two_pow_le (n : Nat) : (2 : Rat) ^ (2 * n) ≤ 10 ^ n := by
  rw [pow_mul]
  exact pow_le_pow_left₀ (by norm_num) (by norm_num) n

/-- A code below the infinity is a fraction of 53 bits, shifted by 2045 bits at most. -/
theorem units_le {code : Nat} (below : code < Interchange.double.infinity) :
    ∃ fraction < 2 ^ 53, ∃ shift ≤ 2045, Interchange.double.units code = fraction * 2 ^ shift := by
  refine ⟨_, Interchange.fraction_lt, _, ?_, rfl⟩
  have infinity : Interchange.double.infinity = 2047 * 2 ^ 52 := by decide
  have quotient : code / 2 ^ 52 < 2047 := Nat.div_lt_of_lt_mul (by omega)
  change code / 2 ^ 52 - 1 ≤ 2045
  omega

/-- The magnitudes of a `double` that are not zero lie between these. -/
theorem magnitude_bounds {value : Rat} (double : (Number.finite value).IsDouble) (some : value ≠ 0) :
    (10 : Rat) ^ (-537 : Int) ≤ |value| ∧ |value| < (10 : Rat) ^ (512 : Int) := by
  obtain ⟨code, below, same⟩ := double
  obtain ⟨fraction, small, shift, few, units⟩ := units_le below
  have positive : 0 < |value| := abs_pos.mpr some
  rw [Interchange.magnitude, units] at same
  have least : 1 ≤ fraction * 2 ^ shift := by
    rcases Nat.eq_zero_or_pos (fraction * 2 ^ shift) with zero | one
    · rw [same, zero] at positive
      simp at positive
    · exact one
  -- The powers stay powers: as numerals they are too large to compute with.
  obtain ⟨depth, exact⟩ : ∃ n : Nat, n = 537 := ⟨_, rfl⟩
  obtain ⟨height, exact'⟩ : ∃ n : Nat, n = 512 := ⟨_, rfl⟩
  have whole : Interchange.double.depth = 2 * depth := by
    rw [exact]
    decide
  have lower := two_pow_le depth
  have upper := two_pow_le height
  have scale : (0 : Rat) < 2 ^ (2 * depth) := by positivity
  rw [whole] at same
  constructor
  · have bound : (10 : Rat) ^ (-(depth : Int)) ≤ |value| := by
      rw [same, le_div_iff₀ scale, zpow_neg, zpow_natCast, inv_mul_le_iff₀ (by positivity)]
      calc (2 : Rat) ^ (2 * depth) ≤ 10 ^ depth * 1 := by rwa [mul_one]
        _ ≤ 10 ^ depth * ((fraction * 2 ^ shift : Nat) : Rat) := by
            gcongr
            exact_mod_cast least
    rwa [exact] at bound
  · have bound : |value| < (10 : Rat) ^ (height : Int) := by
      rw [same, div_lt_iff₀ scale, zpow_natCast]
      calc ((fraction * 2 ^ shift : Nat) : Rat) = fraction * 2 ^ shift := by push_cast; rfl
        _ < 2 ^ 53 * 2 ^ shift := by
            gcongr
            exact_mod_cast small
        _ = 2 ^ (53 + shift) := (pow_add ..).symm
        _ ≤ 2 ^ (2 * height + 2 * depth) := pow_le_pow_right₀ (by norm_num) (by omega)
        _ = 2 ^ (2 * height) * 2 ^ (2 * depth) := pow_add ..
        _ ≤ 10 ^ height * 2 ^ (2 * depth) := by gcongr
    rwa [exact'] at bound

/-- The powers of ten that the first digit of a `double` is worth. -/
theorem scale_bounds {value : Rat} (more : Nat) (double : (Number.finite value).IsDouble) :
    (significant more |value|).2.natAbs < 1000 := by
  have log : -537 ≤ Int.log 10 |value| ∧ Int.log 10 |value| < 512 := by
    rcases eq_or_ne value 0 with rfl | some
    · simp
    · obtain ⟨lower, upper⟩ := magnitude_bounds double some
      have positive : 0 < |value| := abs_pos.mpr some
      constructor
      · exact (Int.zpow_le_iff_le_log (b := 10) (by decide) positive).mp (by exact_mod_cast lower)
      · exact (Int.lt_zpow_iff_log_lt (b := 10) (by decide) positive).mp (by exact_mod_cast upper)
  simp only [significant]
  split <;> omega

end ValkeyLuajit
