import ValkeyLuajit.Function.Load
import ValkeyLuajit.Script.Random
import Mathlib.Algebra.Order.Floor.Ring
import Mathlib.Data.Rat.Cast.Order
import Mathlib.Tactic.NormNum
import Mathlib.Tactic.Positivity

/-!
# Random draws stay in range

A draw is a fraction below one, so scaling it to a width and rounding down stays below the
width. With two bounds the width is computed as an `int`, and a wide interval overflows
it.
-/

namespace ValkeyLuajit

open Lua

/-- The value fits an `int`. -/
def IsInt32 (value : Int) : Prop := -2 ^ 31 ≤ value ∧ value < 2 ^ 31

instance (value : Int) : Decidable (IsInt32 value) := inferInstanceAs (Decidable (_ ∧ _))

/-- What fits is kept. -/
theorem toInt32_eq_self {value : Int} (fits : IsInt32 value) : toInt32 value = value := by
  obtain ⟨lower, upper⟩ := fits
  rw [toInt32, Int.bmod_def]
  omega

/-- `luaL_checkint` reads an `int` as it is. -/
theorem toInt32_toLongLong {value : Int} (fits : IsInt32 value) :
    toInt32 (Number.finite (value : Rat)).toLongLong = value := by
  obtain ⟨lower, upper⟩ := fits
  rw [Number.toLongLong_intCast (by omega) (by omega), toInt32_eq_self ⟨lower, upper⟩]

/-- A fraction of a width, rounded down, stays below the width. -/
theorem floor_scaled_mem {draw bound : Nat} (width : Int) (positive : 0 < width)
    (below : draw < bound) :
    0 ≤ ⌊(draw : Rat) / bound * width⌋ ∧ ⌊(draw : Rat) / bound * width⌋ < width := by
  have bound_pos : (0 : Rat) < bound := by exact_mod_cast Nat.zero_lt_of_lt below
  have width_pos : (0 : Rat) < width := by exact_mod_cast positive
  have fraction : (draw : Rat) / bound < 1 := by
    rw [div_lt_one bound_pos]
    exact_mod_cast below
  constructor
  · apply Int.floor_nonneg.mpr
    positivity
  · apply Int.floor_lt.mpr
    calc (draw : Rat) / bound * width
        < 1 * width := mul_lt_mul_of_pos_right fraction width_pos
      _ = width := one_mul _

/-- The function returned an integer between the bounds. -/
def YieldsBetween (outcome : Outcome Generator Unit) (l u : Int) : Prop :=
  ∃ (n : Int) (final : World Generator), outcome = .done () final ∧
    final.get (-1) = .number (.finite n) ∧ l ≤ n ∧ n ≤ u

section

variable (rt : Runtime) (generator : Generator) (base : List Value) (breached : Bool)
  (lua : State) (calls : List (FuncRef × State))

/-- `math.random` with these arguments. -/
def randomOf (arguments : List Int) : Outcome Generator Unit :=
  serverMathRandom rt ⟨(arguments.map fun argument => .number (.finite argument)).reverse, base,
    breached, lua, generator, calls⟩

/-- The fraction that is drawn. -/
def drawnFraction : Rat :=
  (Rand.lrand48 (Rand.next generator) % serverLrand48Max : Nat) / serverLrand48Max

variable {generator base breached lua calls}

/-- With one bound it is scaled to it. -/
theorem randomOf_one {u : Int} (fits : IsInt32 u) (positive : 1 ≤ u) :
    randomOf rt generator base breached lua calls [u] =
      .done () ⟨[.number (.finite (⌊drawnFraction generator * u⌋ + 1 : Int)),
        .number (.finite u)], base, breached, lua, Rand.next generator, calls⟩ := by
  simp [randomOf, serverMathRandom, serverLrand48, luaLCheckInt, luaLArgCheck, Value.toNumber,
    toInt32_toLongLong fits, positive, drawnFraction, World.setHost]

/-- With two bounds it is scaled to the width as an `int` holds it. -/
theorem randomOf_two {l u : Int} (lFits : IsInt32 l) (uFits : IsInt32 u) (ordered : l ≤ u) :
    randomOf rt generator base breached lua calls [l, u] =
      .done () ⟨[.number (.finite (⌊drawnFraction generator * toInt32 (u - l + 1)⌋ + l : Int)),
        .number (.finite u), .number (.finite l)], base, breached, lua, Rand.next generator,
          calls⟩ := by
  simp [randomOf, serverMathRandom, serverLrand48, luaLCheckInt, luaLArgCheck, Value.toNumber,
    World.get, World.slot, toInt32_toLongLong lFits, toInt32_toLongLong uFits, ordered,
    drawnFraction, World.setHost]

/-- A scaled fraction stays below the width. -/
theorem drawnFraction_scaled {width : Int} (positive : 0 < width) :
    0 ≤ ⌊drawnFraction generator * width⌋ ∧ ⌊drawnFraction generator * width⌋ < width :=
  floor_scaled_mem width positive (Nat.mod_lt _ (by decide))

end

/-- `math.random(u)` draws between 1 and `u`. `math.random(l, u)` draws between its bounds
without an overflow of the width exactly when the width fits an `int`. -/
theorem math_random_in_range_iff (rt : Runtime) (generator : Generator) (base : List Value)
    (breached : Bool) (lua : State) (calls : List (FuncRef × State)) {l u : Int}
    (lFits : IsInt32 l) (uFits : IsInt32 u) :
    (1 ≤ u → YieldsBetween (randomOf rt generator base breached lua calls [u]) 1 u) ∧
      (l ≤ u → ((IsInt32 (u - l) ∧ IsInt32 (u - l + 1) ∧
        YieldsBetween (randomOf rt generator base breached lua calls [l, u]) l u) ↔
          u - l + 1 < 2 ^ 31)) := by
  constructor
  · intro positive
    obtain ⟨lower, upper⟩ := @drawnFraction_scaled generator u (by omega)
    exact ⟨_, _, randomOf_one rt uFits positive, rfl, by omega, by omega⟩
  · intro ordered
    constructor
    · rintro ⟨-, width, -⟩
      exact width.2
    · intro narrow
      have width : IsInt32 (u - l + 1) := ⟨by omega, narrow⟩
      obtain ⟨lower, upper⟩ := @drawnFraction_scaled generator (u - l + 1) (by omega)
      have drawn : randomOf rt generator base breached lua calls [l, u] = _ :=
        randomOf_two rt lFits uFits ordered
      rw [toInt32_eq_self width] at drawn
      exact ⟨⟨by omega, by omega⟩, width, _, _, drawn, rfl, by omega, by omega⟩

/-- With bounds too far apart the first draw of the process misses the interval. -/
theorem wide_interval_missed : ¬ ∀ (rt : Runtime) (generator : Generator) (base : List Value)
    (breached : Bool) (lua : State) (calls : List (FuncRef × State)) (l u : Int),
    IsInt32 l → IsInt32 u → l ≤ u →
      YieldsBetween (randomOf rt generator base breached lua calls [l, u]) l u := by
  intro inRange
  obtain ⟨n, final, drawn, top, lower, -⟩ := inRange .plain Rand.initial [] false luaLNewstate []
    (-1) (2 ^ 31 - 1) (by decide) (by decide) (by decide)
  have wide : toInt32 (2 ^ 31 - 1 - -1 + 1) = -(2 ^ 31 - 1) := by decide
  have fraction : 0 < drawnFraction Rand.initial := by
    have draw : 0 < Rand.lrand48 (Rand.next Rand.initial) % serverLrand48Max := by decide
    rw [drawnFraction]
    exact div_pos (by exact_mod_cast draw) (by norm_num [serverLrand48Max])
  have below : ⌊drawnFraction Rand.initial * ((-(2 ^ 31 - 1) : Int) : Rat)⌋ < 0 := by
    apply Int.floor_lt.mpr
    exact mul_neg_of_pos_of_neg fraction (by norm_num)
  rw [randomOf_two .plain (by decide) (by decide) (by decide), wide] at drawn
  cases drawn
  have same : ⌊drawnFraction Rand.initial * ((-(2 ^ 31 - 1) : Int) : Rat)⌋ + -1 = n := by
    injection top with number
    injection number with value
    exact_mod_cast value
  omega

/-- A die. -/
theorem die_in_range :
    (YieldsBetween (randomOf .plain Rand.initial [] false luaLNewstate [] [6]) 1 6) ∧
      IsInt32 (6 - 1) ∧ IsInt32 (6 - 1 + 1) ∧
        YieldsBetween (randomOf .plain Rand.initial [] false luaLNewstate [] [1, 6]) 1 6 := by
  obtain ⟨one, two⟩ := @math_random_in_range_iff .plain Rand.initial [] false luaLNewstate [] 1 6
    (by decide) (by decide)
  exact ⟨one (by decide), (two (by decide)).mpr (by decide)⟩

end ValkeyLuajit
