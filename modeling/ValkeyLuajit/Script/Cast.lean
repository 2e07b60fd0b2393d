import ValkeyLuajit.Lua.Recorded
import ValkeyLuajit.Script.Command
import Mathlib.Data.Rat.Floor
import Mathlib.Tactic.Linarith

/-!
# Casts of Lua numbers to C integers

A cast drops the fraction. C says what it gives only when the rest is a value of the type;
a NaN and the infinities have no rest.
-/

namespace ValkeyLuajit

open Lua

/-- The C integer types that the module casts to. -/
inductive CInteger where
  | int
  | longLong
deriving DecidableEq

/-- The bits of the type besides the sign. -/
def CInteger.bits : CInteger → Nat
  | .int => 31
  | .longLong => 63

/-- The integer is a value of the type. -/
def CInteger.Holds (type : CInteger) (whole : Int) : Prop :=
  -(2 : Int) ^ type.bits ≤ whole ∧ whole < 2 ^ type.bits

instance (type : CInteger) (whole : Int) : Decidable (type.Holds whole) :=
  inferInstanceAs (Decidable (_ ∧ _))

/-- A finite number without its fraction. -/
def Lua.Number.truncated : Number → Option Int
  | .finite value => some (value.num.tdiv value.den)
  | _ => none

/-- A cast that the code performs. -/
structure Cast where
  number : Number
  type : CInteger
deriving DecidableEq

/-- C says what the cast gives. -/
def Cast.Defined (cast : Cast) : Prop :=
  ∃ whole, cast.number.truncated = some whole ∧ cast.type.Holds whole

instance (cast : Cast) : Decidable cast.Defined :=
  match found : cast.number.truncated with
  | none => .isFalse (by simp [Cast.Defined, found])
  | some whole => decidable_of_iff (cast.type.Holds whole) (by simp [Cast.Defined, found])

section Truncation

/-- Above zero the fraction is dropped downwards, below zero upwards. -/
theorem tdiv_den_of_nonneg {value : Rat} (positive : 0 ≤ value) :
    value.num.tdiv value.den = ⌊value⌋ := by
  rw [Int.tdiv_eq_ediv_of_nonneg (Rat.num_nonneg.mpr positive)]
  exact (Rat.floor_def value).symm

theorem tdiv_den_of_neg {value : Rat} (negative : value < 0) :
    value.num.tdiv value.den = -⌊-value⌋ := by
  have positive : 0 ≤ -value := by linarith
  have opposite := tdiv_den_of_nonneg positive
  rw [Rat.num_neg_eq_neg_num, Rat.den_neg_eq_den, Int.neg_tdiv] at opposite
  rw [← opposite, Int.neg_neg]

/-- What is left fits when the number lies between the neighbours of the type's values. -/
theorem holds_truncated_iff (type : CInteger) (value : Rat) :
    type.Holds (value.num.tdiv value.den) ↔
      -(2 : Rat) ^ type.bits - 1 < value ∧ value < 2 ^ type.bits := by
  have bound : (0 : Rat) < 2 ^ type.bits := by positivity
  have whole : (0 : Int) < 2 ^ type.bits := by positivity
  rcases le_or_gt 0 value with positive | negative
  · have upper : ⌊value⌋ < 2 ^ type.bits ↔ value < 2 ^ type.bits := by
      rw [Int.floor_lt]
      push_cast
      rfl
    have lower : 0 ≤ ⌊value⌋ := Int.floor_nonneg.mpr positive
    rw [CInteger.Holds, tdiv_den_of_nonneg positive, upper]
    constructor
    · exact fun ⟨_, below⟩ => ⟨by linarith, below⟩
    · exact fun ⟨_, below⟩ => ⟨by linarith, below⟩
  · have lower : ⌊-value⌋ < 2 ^ type.bits + 1 ↔ -(2 : Rat) ^ type.bits - 1 < value := by
      rw [Int.floor_lt]
      push_cast
      constructor <;> intro below <;> linarith
    have upper : 0 ≤ ⌊-value⌋ := Int.floor_nonneg.mpr (by linarith)
    rw [CInteger.Holds, tdiv_den_of_neg negative, ← lower]
    constructor
    · rintro ⟨above, -⟩
      exact ⟨by omega, by linarith⟩
    · rintro ⟨above, -⟩
      exact ⟨by omega, by omega⟩

end Truncation

/-- The numbers that a cast to the type is defined for. -/
def CInteger.Admits (type : CInteger) : Number → Prop
  | .finite value => -(2 : Rat) ^ type.bits - 1 < value ∧ value < 2 ^ type.bits
  | _ => False

theorem Cast.defined_iff (cast : Cast) : cast.Defined ↔ cast.type.Admits cast.number := by
  obtain ⟨number, type⟩ := cast
  cases number with
  | finite value => simp [Cast.Defined, Number.truncated, CInteger.Admits, holds_truncated_iff]
  | infinite negative => simp [Cast.Defined, Number.truncated, CInteger.Admits]
  | nan => simp [Cast.Defined, Number.truncated, CInteger.Admits]

/-- What casts give, as far as C says it. -/
def Casts (convert : Cast → Int) : Prop :=
  ∀ cast whole, cast.number.truncated = some whole → cast.type.Holds whole → convert cast = whole

/-- `d < bound`, which is false of a NaN. -/
def Lua.Number.below (d : Number) (bound : Rat) : Bool :=
  match d with
  | .finite value => value < bound
  | .infinite negative => negative
  | .nan => false

/-- `d > bound`, which is false of a NaN. -/
def Lua.Number.above (d : Number) (bound : Rat) : Bool :=
  match d with
  | .finite value => bound < value
  | .infinite negative => !negative
  | .nan => false

namespace Noted

open Recorded

variable (convert : Cast → Int)

/-- `double2ll`: the answer, and the cast if it comes to that. -/
def double2ll (d : Number) : Option Int × List Cast :=
  if d.below (-(2 : Rat) ^ 62) || d.above (2 ^ 62) then (none, [])
  else
    let ll := convert ⟨d, .longLong⟩
    (if Number.finite ll = d then some ll else none, [⟨d, .longLong⟩])

variable {convert}

theorem outside_iff {value : Rat} : value < -(2 : Rat) ^ 62 ∨ 2 ^ 62 < value ↔
    ¬ (-(2 : Rat) ^ 62 ≤ value ∧ value ≤ 2 ^ 62) := by
  rw [not_and_or, not_le, not_le]

/-- The cast is performed on what is within the bounds, and on a NaN. -/
theorem mem_double2ll {d : Number} {cast : Cast} : cast ∈ (double2ll convert d).2 ↔
    cast = ⟨d, .longLong⟩ ∧
      (d = .nan ∨ ∃ value, d = .finite value ∧ -(2 : Rat) ^ 62 ≤ value ∧ value ≤ 2 ^ 62) := by
  cases d with
  | finite value =>
      by_cases outside : value < -(2 : Rat) ^ 62 ∨ 2 ^ 62 < value
      · have never := outside_iff.mp outside
        simp [double2ll, Number.below, Number.above, outside, never]
      · have bounds := not_not.mp (outside_iff.not.mp outside)
        simp [double2ll, Number.below, Number.above, outside, bounds]
  | infinite negative => cases negative <;> simp [double2ll, Number.below, Number.above]
  | nan => simp [double2ll, Number.below, Number.above]

/-- Within the bounds the cast is defined. -/
theorem defined_of_bounded {value : Rat} (lower : -(2 : Rat) ^ 62 ≤ value)
    (upper : value ≤ 2 ^ 62) : (⟨.finite value, .longLong⟩ : Cast).Defined := by
  rw [Cast.defined_iff]
  constructor
  · rw [CInteger.bits]
    linarith
  · rw [CInteger.bits]
    linarith

/-- A number is whole when nothing is lost by dropping its fraction. -/
theorem intCast_tdiv_eq_iff {value : Rat} :
    ((value.num.tdiv value.den : Int) : Rat) = value ↔ value.den = 1 := by
  constructor
  · intro same
    rw [← same]
    exact Rat.den_intCast _
  · intro whole
    rw [whole, Nat.cast_one, Int.tdiv_one]
    exact Rat.coe_int_num_of_den_eq_one whole

/-- Whatever undefined casts give, the answer is that of a whole number within the bounds. -/
theorem double2ll_eq (casts : Casts convert) (d : Number) :
    (double2ll convert d).1 = ValkeyLuajit.double2ll d := by
  cases d with
  | finite value =>
      by_cases outside : value < -(2 : Rat) ^ 62 ∨ 2 ^ 62 < value
      · have never := outside_iff.mp outside
        rw [double2ll, if_pos (by simpa [Number.below, Number.above] using outside),
          ValkeyLuajit.double2ll, if_neg fun ⟨above, below, _⟩ => never ⟨above, below⟩]
      · have bounds := not_not.mp (outside_iff.not.mp outside)
        obtain ⟨whole, truncated, holds⟩ := defined_of_bounded bounds.1 bounds.2
        cases truncated
        have given : convert ⟨.finite value, .longLong⟩ = value.num.tdiv value.den :=
          casts _ _ rfl holds
        rw [double2ll, if_neg (by simpa [Number.below, Number.above] using outside)]
        dsimp only
        rw [given, ValkeyLuajit.double2ll]
        by_cases whole : value.den = 1
        · rw [if_pos (congrArg Number.finite (intCast_tdiv_eq_iff.mpr whole)),
            if_pos ⟨bounds.1, bounds.2, whole⟩, whole, Nat.cast_one, Int.tdiv_one]
        · rw [if_neg fun same => whole (intCast_tdiv_eq_iff.mp (Number.finite.inj same)),
            if_neg fun ⟨_, _, same⟩ => whole same]
  | infinite negative => cases negative <;> rfl
  | nan =>
      rw [double2ll, if_neg (by simp [Number.below, Number.above])]
      dsimp only
      rw [if_neg (by simp)]
      rfl

/-- It answers 1 for the whole numbers within its bounds, and stores the number. -/
theorem double2ll_eq_some_iff (casts : Casts convert) {d : Number} {n : Int} :
    (double2ll convert d).1 = some n ↔ d = .finite n ∧ -2 ^ 62 ≤ n ∧ n ≤ 2 ^ 62 := by
  rw [double2ll_eq casts]
  cases d with
  | finite value =>
      rw [ValkeyLuajit.double2ll, Number.finite.injEq]
      constructor
      · intro found
        split at found
        · rename_i bounds
          obtain ⟨lower, upper, whole⟩ := bounds
          have same : (value.num : Rat) = value := Rat.coe_int_num_of_den_eq_one whole
          obtain rfl := Option.some.inj found
          rw [← same] at lower upper
          exact ⟨same.symm, by exact_mod_cast lower, by exact_mod_cast upper⟩
        · cases found
      · rintro ⟨rfl, lower, upper⟩
        have bounds : -(2 : Rat) ^ 62 ≤ (n : Rat) ∧ (n : Rat) ≤ 2 ^ 62 :=
          ⟨by exact_mod_cast lower, by exact_mod_cast upper⟩
        rw [if_pos ⟨bounds.1, bounds.2, Rat.den_intCast n⟩, Rat.num_intCast]
  | infinite negative => simp [ValkeyLuajit.double2ll]
  | nan => simp [ValkeyLuajit.double2ll]

section Arguments

variable (convert) (rt : Runtime) (fpconv : Number → Bytes)

/-- The text of an argument, and the cast it takes. -/
def argumentText : Value → Option Bytes × List Cast
  | .number num =>
      (some (match (double2ll convert num).1 with
        | some lvalue => ll2stringText (Int64.ofInt lvalue)
        | none => fpconv num), (double2ll convert num).2)
  | .string text => (some text, [])
  | _ => (none, [])

def argvLoop : Nat → Nat → Recorded Cast CommandHost (List ModuleString)
  | 0, _ => pure []
  | rounds + 1, j => do
      let argument ← run (luaValue (j + 1))
      note (argumentText convert fpconv argument).2
      match (argumentText convert fpconv argument).1 with
      | none => pure []
      | some text => do
          let string ← run (createString text)
          let rest ← argvLoop rounds (j + 1)
          pure (string :: rest)

def luajitArgsToServerArgv : Recorded Cast CommandHost (Option (List ModuleString)) := do
  let argc ← run luaGetTop
  if argc = 0 then do
    run (luajitPushError rt "Please specify at least one argument for this call")
    pure none
  else do
    let argv ← argvLoop convert fpconv argc 0
    run (luaPop argc)
    if argv.length ≠ argc then do
      run (freeLuajitServerArgv argv)
      run (luajitPushError rt "ERR Command arguments must be strings or integers")
      pure none
    else pure (some argv)

variable {convert}

/-- The text of an argument does not depend on undefined casts. -/
theorem argumentText_eq (casts : Casts convert) (argument : Value) :
    (argumentText convert fpconv argument).1 = ValkeyLuajit.argumentText fpconv argument := by
  cases argument with
  | number num =>
      let text (found : Option Int) : Bytes := match found with
        | some lvalue => ll2stringText (Int64.ofInt lvalue)
        | none => fpconv num
      exact congrArg (fun found => some (text found)) (double2ll_eq casts num)
  | _ => rfl

theorem erases_argvLoop (casts : Casts convert) (rounds j : Nat) :
    Erases (argvLoop convert fpconv rounds j) (ValkeyLuajit.argvLoop fpconv rounds j) := by
  induction rounds generalizing j with
  | zero => exact erases_pure []
  | succ rounds inductionHypothesis =>
      apply erases_step
      intro argument
      apply erases_note
      rw [← argumentText_eq fpconv casts argument]
      cases (argumentText convert fpconv argument).1 with
      | none => exact erases_pure []
      | some text =>
          apply erases_step
          intro string
          exact erases_bind (inductionHypothesis (j + 1)) fun _ => erases_pure _

theorem erases_luajitArgsToServerArgv (casts : Casts convert) :
    Erases (luajitArgsToServerArgv convert rt fpconv)
      (ValkeyLuajit.luajitArgsToServerArgv rt fpconv) := by
  apply erases_step
  intro argc
  apply erases_ite
  · exact erases_step fun _ => erases_pure none
  · apply erases_bind (erases_argvLoop fpconv casts argc 0)
    intro argv
    apply erases_step
    intro _
    apply erases_ite
    · exact erases_step fun _ => erases_step fun _ => erases_pure none
    · exact erases_pure _

/-- Every cast is one of `double2ll`. -/
def FromDouble2ll (convert : Cast → Int) (cast : Cast) : Prop := ∃ d, cast ∈ (double2ll convert d).2

theorem every_argvLoop (rounds j : Nat) :
    (Account.every (FromDouble2ll convert)).Covers (argvLoop convert fpconv rounds j) := by
  induction rounds generalizing j with
  | zero => exact Account.covers_pure []
  | succ rounds inductionHypothesis =>
      refine Account.every_step fun argument => Account.every_note ?_ ?_
      · intro cast member
        cases argument with
        | number num => exact ⟨num, member⟩
        | _ => cases member
      · cases (argumentText convert fpconv argument).1 with
        | none => exact Account.covers_pure []
        | some text =>
            exact Account.every_step fun string =>
              Account.covers_bind (inductionHypothesis (j + 1)) fun _ => Account.covers_pure _

theorem every_luajitArgsToServerArgv :
    (Account.every (FromDouble2ll convert)).Covers (luajitArgsToServerArgv convert rt fpconv) := by
  refine Account.every_step fun argc => Account.covers_ite ?_ ?_
  · exact Account.every_step fun _ => Account.covers_pure none
  · refine Account.covers_bind (every_argvLoop fpconv argc 0) fun argv => ?_
    refine Account.every_step fun _ => Account.covers_ite ?_ ?_
    · exact Account.every_step fun _ => Account.every_step fun _ => Account.covers_pure none
    · exact Account.covers_pure _

end Arguments

end Noted

end ValkeyLuajit
