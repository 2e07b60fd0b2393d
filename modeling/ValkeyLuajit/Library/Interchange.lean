import Mathlib.Algebra.Order.Field.Basic
import Mathlib.Algebra.Order.Floor.Ring
import Mathlib.Data.Rat.Floor
import Mathlib.Tactic.Linarith
import Mathlib.Tactic.Ring

/-!
# Binary interchange formats

A format of IEEE 754 has a sign bit, bits of an exponent and bits of a fraction. Without the
sign, the codes below the infinity number the magnitudes in ascending order, so rounding is
finding a code. The sign of zero and the payload of a NaN are not kept.
-/

namespace ValkeyLuajit

/-- How many bits the fraction and the exponent have. -/
structure Interchange where
  fraction : Nat
  exponent : Nat
deriving DecidableEq

/-- What a pattern of bits stands for. -/
inductive Datum where
  | finite (value : Rat)
  | infinite (negative : Bool)
  | nan
deriving DecidableEq

/-- `==` of C: a NaN is not equal to itself. -/
def Datum.equal : Datum → Datum → Bool
  | .nan, _ => false
  | left, right => left = right

namespace Interchange

/-- `float`. -/
def single : Interchange := ⟨23, 8⟩

/-- `double`. -/
def double : Interchange := ⟨52, 11⟩

variable (format : Interchange)

/-- The last place of the smallest numbers is worth `2 ^ -depth`. -/
def depth : Nat := 2 ^ (format.exponent - 1) - 2 + format.fraction

/-- The code of the infinity. -/
def infinity : Nat := (2 ^ format.exponent - 1) * 2 ^ format.fraction

/-- The bit of the sign. -/
def sign (negative : Bool) : Nat :=
  if negative then 2 ^ (format.exponent + format.fraction) else 0

/-- By how many places the fraction of a code is shifted. -/
def shift (code : Nat) : Nat := code / 2 ^ format.fraction - 1

/-- The magnitude of a code, in units of the smallest number. -/
def units (code : Nat) : Nat :=
  (code - format.shift code * 2 ^ format.fraction) * 2 ^ format.shift code

/-- The magnitude of a code. -/
def magnitude (code : Nat) : Rat := format.units code / 2 ^ format.depth

/-- The nearest natural number, the even one of two. -/
def nearest (value : Rat) : Nat :=
  let whole := ⌊value⌋₊
  let rest := value - whole
  if rest < 1 / 2 ∨ rest = 1 / 2 ∧ whole % 2 = 0 then whole else whole + 1

/-- The code of the nearest magnitude. What is beyond the last becomes infinite. -/
def round (value : Rat) : Nat :=
  let scaled := value * 2 ^ format.depth
  let shift := ⌊scaled⌋₊.log2 - format.fraction
  min (shift * 2 ^ format.fraction + nearest (scaled / 2 ^ shift)) format.infinity

/-- What the bits stand for. -/
def datum (bits : Nat) : Datum :=
  let negative := decide (bits / 2 ^ (format.exponent + format.fraction) % 2 = 1)
  let code := bits % 2 ^ (format.exponent + format.fraction)
  if code < format.infinity then
    .finite (if negative then -format.magnitude code else format.magnitude code)
  else if code = format.infinity then .infinite negative
  else .nan

/-- The bits of the nearest datum; `nan` are those of a NaN. -/
def bits (nan : Nat) : Datum → Nat
  | .finite value => format.sign (decide (value < 0)) + format.round |value|
  | .infinite negative => format.sign negative + format.infinity
  | .nan => nan

/-- The format has the datum itself. -/
def Holds : Datum → Prop
  | .finite value => ∃ code < format.infinity, |value| = format.magnitude code
  | _ => True

section Rounding

theorem nearest_natCast (n : Nat) : nearest (n : Rat) = n := by
  simp [nearest]

variable {format} {code : Nat}

/-- Below the first shift the fraction is the code itself. -/
theorem fraction_lt : code - format.shift code * 2 ^ format.fraction < 2 ^ (format.fraction + 1) := by
  have positive : 0 < 2 ^ format.fraction := Nat.two_pow_pos _
  have split := Nat.div_add_mod' code (2 ^ format.fraction)
  have rest := Nat.mod_lt code positive
  rw [shift, Nat.pow_succ]
  cases quotient : code / 2 ^ format.fraction with
  | zero =>
      rw [quotient] at split
      omega
  | succ e =>
      rw [quotient, Nat.add_mul] at split
      rw [Nat.add_sub_cancel]
      omega

/-- A fraction that is shifted starts with a one. -/
theorem le_fraction (shifted : format.shift code ≠ 0) :
    2 ^ format.fraction ≤ code - format.shift code * 2 ^ format.fraction := by
  have split := Nat.div_add_mod' code (2 ^ format.fraction)
  rw [shift] at shifted ⊢
  cases quotient : code / 2 ^ format.fraction with
  | zero => simp [quotient] at shifted
  | succ e =>
      rw [quotient, Nat.add_mul] at split
      rw [Nat.add_sub_cancel]
      omega

/-- The shift is read off the magnitude. -/
theorem log2_units : (format.units code).log2 - format.fraction = format.shift code := by
  have upper : code - format.shift code * 2 ^ format.fraction < 2 ^ (format.fraction + 1) :=
    fraction_lt
  rw [units]
  generalize shifted : format.shift code = e at *
  generalize mantissa : code - e * 2 ^ format.fraction = m at *
  cases e with
  | zero =>
      rw [Nat.pow_zero, Nat.mul_one]
      by_cases zero : m = 0
      · simp [zero]
      · have below := (Nat.log2_lt zero).mpr upper
        omega
  | succ e =>
      have lower : 2 ^ format.fraction ≤ m := by
        rw [← mantissa, ← shifted]
        exact le_fraction (by omega)
      have power : 0 < 2 ^ (e + 1) := Nat.two_pow_pos _
      have bits : (m * 2 ^ (e + 1)).log2 = format.fraction + (e + 1) := by
        have positive : 0 < 2 ^ format.fraction := Nat.two_pow_pos _
        rw [Nat.log2_eq_iff (Nat.ne_of_gt (Nat.mul_pos (by omega) power))]
        constructor
        · rw [Nat.pow_add]
          exact Nat.mul_le_mul_right _ lower
        · have split : 2 ^ (format.fraction + (e + 1) + 1) =
              2 ^ (format.fraction + 1) * 2 ^ (e + 1) := by
            rw [← Nat.pow_add]
            congr 1
            omega
          rw [split]
          exact Nat.mul_lt_mul_of_pos_right upper power
      omega

/-- A magnitude of the format is rounded to itself. -/
theorem round_magnitude (below : code < format.infinity) :
    format.round (format.magnitude code) = code := by
  have power : (2 : Rat) ^ format.depth ≠ 0 := by positivity
  have scaled : format.magnitude code * 2 ^ format.depth = format.units code := by
    rw [magnitude, div_mul_cancel₀ _ power]
  have shiftPower : (2 : Rat) ^ format.shift code ≠ 0 := by positivity
  have mantissa : (format.units code : Rat) / 2 ^ format.shift code =
      ((code - format.shift code * 2 ^ format.fraction : Nat) : Rat) := by
    rw [units, Nat.cast_mul, Nat.cast_pow, Nat.cast_ofNat, mul_div_cancel_right₀ _ shiftPower]
  have inside : format.shift code * 2 ^ format.fraction ≤ code := by
    have split := Nat.div_mul_le_self code (2 ^ format.fraction)
    have less : format.shift code ≤ code / 2 ^ format.fraction := Nat.sub_le _ _
    exact (Nat.mul_le_mul_right _ less).trans split
  rw [round, scaled, Nat.floor_natCast, log2_units, mantissa, nearest_natCast,
    Nat.add_sub_cancel' inside, Nat.min_eq_left (Nat.le_of_lt below)]

end Rounding

section Patterns

variable {format} {nan : Nat} {datum : Datum}

theorem infinity_lt : format.infinity < 2 ^ (format.exponent + format.fraction) := by
  have exponent : 2 ^ format.exponent - 1 < 2 ^ format.exponent :=
    Nat.sub_lt (Nat.two_pow_pos _) (by decide)
  rw [infinity, Nat.pow_add]
  exact Nat.mul_lt_mul_of_pos_right exponent (Nat.two_pow_pos _)

/-- The sign and the code are parts of the bits on their own. -/
theorem sign_add (negative : Bool) {code : Nat} (below : code ≤ format.infinity) :
    decide ((format.sign negative + code) / 2 ^ (format.exponent + format.fraction) % 2 = 1) =
        negative ∧
      (format.sign negative + code) % 2 ^ (format.exponent + format.fraction) = code := by
  have inside : code < 2 ^ (format.exponent + format.fraction) := lt_of_le_of_lt below infinity_lt
  have positive : 0 < 2 ^ (format.exponent + format.fraction) := Nat.two_pow_pos _
  cases negative with
  | true => simp [sign, Nat.add_div_left _ positive, Nat.div_eq_of_lt inside, Nat.mod_eq_of_lt inside]
  | false => simp [sign, Nat.div_eq_of_lt inside, Nat.mod_eq_of_lt inside]

/-- A datum of the format is read back from its bits. -/
theorem datum_bits (held : format.Holds datum) (isNan : format.datum nan = .nan) :
    format.datum (format.bits nan datum) = datum := by
  cases datum with
  | finite value =>
      obtain ⟨code, below, absolute⟩ := held
      obtain ⟨negative, rest⟩ := sign_add (decide (value < 0)) (Nat.le_of_lt below)
      rw [Interchange.datum, bits, absolute, round_magnitude below, negative, rest, if_pos below,
        ← absolute]
      rcases lt_or_ge value 0 with less | greater
      · simp [less, abs_of_neg less]
      · simp [not_lt.mpr greater, abs_of_nonneg greater]
  | infinite sign =>
      obtain ⟨negative, rest⟩ := sign_add sign (Nat.le_refl format.infinity)
      rw [Interchange.datum, bits, negative, rest]
      simp
  | nan => exact isNan

/-- Bits that are a pattern of the format stay below its width. -/
theorem bits_lt (isNan : nan < 2 ^ (format.exponent + format.fraction + 1)) :
    format.bits nan datum < 2 ^ (format.exponent + format.fraction + 1) := by
  have inside : format.infinity < 2 ^ (format.exponent + format.fraction) := infinity_lt
  have code (negative : Bool) {code : Nat} (below : code ≤ format.infinity) :
      format.sign negative + code < 2 ^ (format.exponent + format.fraction + 1) := by
    rw [Nat.pow_succ]
    cases negative <;> simp only [sign] <;> split <;> omega
  cases datum with
  | finite value => exact code _ (Nat.min_le_right ..)
  | infinite negative => exact code _ (Nat.le_refl _)
  | nan => exact isNan

end Patterns

end Interchange

end ValkeyLuajit
