import ValkeyLuajit.Library.Limbs
import ValkeyLuajit.Script.Random

/-!
# The generator on machine words

`rand.c` keeps its limbs in unsigned 32-bit words and computes with words, signed 32-bit
integers and `long`, whose width is the platform's. On every platform these
computations are the ones on natural numbers, and the numbers drawn are the upper 31 bits
of the 48-bit congruential sequence.
-/

namespace ValkeyLuajit

namespace RandWords

/-- What differs between platforms: the width of `long`, which C bounds from below. -/
structure Platform where
  longBits : Nat
  atLeast : 32 ≤ longBits

/-- `x[3]`. -/
structure Words where
  x0 : UInt32
  x1 : UInt32
  x2 : UInt32
deriving DecidableEq

/-- The conversion of an integer to `uint32_t`. -/
def toUnsigned (value : Int) : UInt32 := UInt32.ofNat (value % 2 ^ 32).toNat

/-- A signed integer of this many bits, in two's complement. -/
def toSigned (bits : Nat) (value : Int) : Int := value.bmod (2 ^ bits)

/-- `MASK`. -/
def mask : Nat := (1 <<< 15) + (1 <<< 15) - 1

/-- `LOW` of an unsigned word. -/
def low (x : UInt32) : UInt32 := x &&& UInt32.ofNat mask

/-- `LOW` of an `int32_t`. -/
def lowOf (value : Int) : UInt32 := low (toUnsigned value)

/-- `HIGH` of an `int32_t`; the shift of a negative number is arithmetic. -/
def highOf (value : Int) : UInt32 := lowOf (value >>> (16 : Nat))

def a0 : UInt32 := 0xE66D
def a1 : UInt32 := 0xDEEC
def a2 : UInt32 := 0x5
def c : UInt32 := 0xB

/-- `serverSrand48`. -/
def serverSrand48 (seedval : Int32) : Words := ⟨0x330E, lowOf seedval.toInt, highOf seedval.toInt⟩

section

variable (platform : Platform)

/-- The conversion to `long`. -/
def toLong (value : Int) : Int := toSigned platform.longBits value

/-- `MUL`: the product of two `long`s, of which 32 bits are kept. -/
def mul (x y : UInt32) : UInt32 × UInt32 :=
  let l := toSigned 32 (toLong platform (toLong platform x.toNat * toLong platform y.toNat))
  (lowOf l, highOf l)

/-- `CARRY`: the sum of an `int32_t` and a `long`. -/
def carry (x y : UInt32) : UInt32 :=
  if toLong platform (toSigned 32 x.toNat + toLong platform y.toNat) > mask then 1 else 0

/-- `next`. -/
def next (x : Words) : Words :=
  let (p0, p1) := mul platform a0 x.x0
  let carry0 := carry platform p0 c
  let p0 := low (p0 + c)
  let carry1 := carry platform p1 carry0
  let p1 := low (p1 + carry0)
  let (q0, q1) := mul platform a0 x.x1
  let carry0 := carry platform p1 q0
  let p1 := low (p1 + q0)
  let (r0, r1) := mul platform a1 x.x0
  { x2 := low (carry0 + carry1 + carry platform p1 r0 + q1 + r1 + a0 * x.x2 + a1 * x.x1 +
      a2 * x.x0)
    x1 := low (p1 + r0)
    x0 := low p0 }

/-- `serverLrand48`: the number drawn, an `int32_t`, and the limbs after it. -/
def serverLrand48 (x : Words) : Int × Words :=
  let x := next platform x
  (toSigned 32 (toUnsigned (toSigned 32 (x.x2.toNat <<< 15)) + (x.x1 >>> 1)).toNat, x)

/-- The number that `serverLrand48` draws after `n` earlier draws. -/
def draw : Nat → Words → Int
  | 0, x => (serverLrand48 platform x).1
  | n + 1, x => draw n (serverLrand48 platform x).2

end

/-- The limbs as natural numbers. -/
def Words.generator (x : Words) : Generator := ⟨x.x0.toNat, x.x1.toNat, x.x2.toNat⟩

/-- Every word holds a limb: 16 bits. -/
structure Words.Short (x : Words) : Prop where
  x0 : x.x0.toNat ≤ 0xFFFF
  x1 : x.x1.toNat ≤ 0xFFFF
  x2 : x.x2.toNat ≤ 0xFFFF

section

variable (platform : Platform)

@[simp] theorem low_toNat (x : UInt32) : (low x).toNat = Rand.low x.toNat := by
  have bits : (UInt32.ofNat mask).toNat = 2 ^ 16 - 1 := rfl
  rw [low, UInt32.toNat_and, bits, Nat.and_two_pow_sub_one_eq_mod, Rand.low]

theorem low_le (x : UInt32) : (low x).toNat ≤ 0xFFFF := by
  rw [low_toNat, Rand.low]
  omega

@[simp] theorem toUnsigned_toNat (value : Int) :
    (toUnsigned value).toNat = (value % 2 ^ 32).toNat := by
  rw [toUnsigned, UInt32.toNat_ofNat']
  omega

/-- A value in range is kept. -/
theorem toSigned_self {bits : Nat} {value : Int} (lower : -2 ^ bits ≤ value * 2)
    (upper : value * 2 < 2 ^ bits) : toSigned bits value = value :=
  Int.bmod_eq_of_le_mul_two (by exact_mod_cast lower) (by exact_mod_cast upper)

/-- What goes through a `long` on its way to 32 bits loses nothing more. -/
theorem toSigned_toLong (value : Int) :
    toSigned 32 (toLong platform value) = toSigned 32 value := by
  refine Int.bmod_bmod_of_dvd ?_
  exact Nat.pow_dvd_pow 2 platform.atLeast

theorem toSigned_mul (value other : Int) :
    toSigned 32 (toLong platform value * toLong platform other) = toSigned 32 (value * other) := by
  have here := Int.mul_bmod (toLong platform value) (toLong platform other) (2 ^ 32)
  have there := Int.mul_bmod value other (2 ^ 32)
  have first := toSigned_toLong platform value
  have second := toSigned_toLong platform other
  rw [toSigned] at first second ⊢
  rw [here, first, second, toSigned, toSigned, toSigned, ← there]

theorem lowOf_toSigned (value : Nat) : (lowOf (toSigned 32 value)).toNat = Rand.low value := by
  have wrapped : toSigned 32 value % 2 ^ 32 = (value : Int) % 2 ^ 32 := Int.bmod_emod
  rw [lowOf, low_toNat, toUnsigned_toNat, wrapped, Rand.low, Rand.low]
  omega

/-- The arithmetic shift brings the upper half down. -/
theorem highOf_toSigned {value : Nat} (fits : value < 2 ^ 32) :
    (highOf (toSigned 32 value)).toNat = Rand.high value := by
  have wrapped : toSigned 32 value = value ∨ toSigned 32 value = value - 2 ^ 32 := by
    rw [toSigned, Int.bmod_def]
    omega
  rw [highOf, lowOf, low_toNat, toUnsigned_toNat, Int.shiftRight_eq_div_pow, Rand.low, Rand.high,
    Rand.low]
  omega

/-- `MUL` of two limbs. -/
theorem mul_toNat {x y : UInt32} (xShort : x.toNat ≤ 0xFFFF) (yShort : y.toNat ≤ 0xFFFF) :
    (mul platform x y).1.toNat = Rand.low (x.toNat * y.toNat) ∧
      (mul platform x y).2.toNat = Rand.high (x.toNat * y.toNat) := by
  have product : toSigned 32 (toLong platform
      (toLong platform x.toNat * toLong platform y.toNat)) =
        toSigned 32 ((x.toNat * y.toNat : Nat) : Int) := by
    rw [toSigned_toLong, toSigned_mul, Nat.cast_mul]
  have fits : x.toNat * y.toNat < 2 ^ 32 := by
    calc x.toNat * y.toNat ≤ 0xFFFF * 0xFFFF := Nat.mul_le_mul xShort yShort
      _ < 2 ^ 32 := by decide
  rw [mul]
  dsimp only
  rw [product]
  exact ⟨lowOf_toSigned _, highOf_toSigned fits⟩

/-- Where `long` has more than 32 bits, the product of two limbs does not overflow it. -/
theorem longProduct_fits {x y : UInt32} (wide : 32 < platform.longBits)
    (xShort : x.toNat ≤ 0xFFFF) (yShort : y.toNat ≤ 0xFFFF) :
    toLong platform x.toNat * toLong platform y.toNat = (x.toNat * y.toNat : Nat) ∧
      toLong platform ((x.toNat * y.toNat : Nat) : Int) = (x.toNat * y.toNat : Nat) := by
  have bits : (2 : Int) ^ 33 ≤ 2 ^ platform.longBits := pow_le_pow_right₀ (by decide) wide
  have product : x.toNat * y.toNat ≤ 0xFFFF * 0xFFFF := Nat.mul_le_mul xShort yShort
  constructor
  · rw [toLong, toLong, toSigned_self (by omega) (by omega), toSigned_self (by omega) (by omega),
      Nat.cast_mul]
  · exact toSigned_self (by omega) (by omega)

/-- `CARRY` of two limbs. -/
theorem carry_toNat {x y : UInt32} (xShort : x.toNat ≤ 0xFFFF) (yShort : y.toNat ≤ 0xFFFF) :
    (carry platform x y).toNat = Rand.carry x.toNat y.toNat := by
  have wide : (2 : Int) ^ 32 ≤ 2 ^ platform.longBits :=
    pow_le_pow_right₀ (by decide) platform.atLeast
  have inner : toSigned 32 x.toNat + toLong platform y.toNat = ((x.toNat + y.toNat : Nat) : Int) := by
    rw [toLong, toSigned_self (by omega) (by omega), toSigned_self (by omega) (by omega)]
    rfl
  have outer : toLong platform ((x.toNat + y.toNat : Nat) : Int) = (x.toNat + y.toNat : Nat) :=
    toSigned_self (by omega) (by omega)
  have bound : (mask : Int) = 2 ^ 16 - 1 := rfl
  rw [carry, inner, outer, bound, Rand.carry]
  by_cases carries : x.toNat + y.toNat > 2 ^ 16 - 1
  · rw [if_pos (by omega), if_pos carries]
    rfl
  · rw [if_neg (by omega), if_neg carries]
    rfl

/-- `ADDEQU` keeps the sum of two limbs without what it carries. -/
theorem low_add_toNat (x y : UInt32) : (low (x + y)).toNat = Rand.low (x.toNat + y.toNat) := by
  rw [low_toNat, UInt32.toNat_add, Rand.low, Rand.low]
  omega

theorem next_short (x : Words) : (next platform x).Short :=
  ⟨low_le _, low_le _, low_le _⟩

theorem mul_le (x y : UInt32) :
    (mul platform x y).1.toNat ≤ 0xFFFF ∧ (mul platform x y).2.toNat ≤ 0xFFFF :=
  ⟨low_le _, low_le _⟩

theorem carry_le (x y : UInt32) : (carry platform x y).toNat ≤ 0xFFFF := by
  unfold carry
  split <;> decide

/-- A step on words is a step on natural numbers. -/
theorem next_generator {x : Words} (short : x.Short) :
    (next platform x).generator = Rand.next x.generator := by
  have a0Short : a0.toNat ≤ 0xFFFF := by decide
  have a1Short : a1.toNat ≤ 0xFFFF := by decide
  have cShort : c.toNat ≤ 0xFFFF := by decide
  obtain ⟨p0, p1⟩ := mul_toNat platform a0Short short.x0
  obtain ⟨q0, q1⟩ := mul_toNat platform a0Short short.x1
  obtain ⟨r0, r1⟩ := mul_toNat platform a1Short short.x0
  obtain ⟨p0Short, p1Short⟩ := mul_le platform a0 x.x0
  obtain ⟨q0Short, -⟩ := mul_le platform a0 x.x1
  obtain ⟨r0Short, -⟩ := mul_le platform a1 x.x0
  have carry0 := carry_toNat platform p0Short cShort
  have carry1 := carry_toNat platform p1Short (carry_le platform (mul platform a0 x.x0).1 c)
  have carry2 := carry_toNat platform
    (low_le ((mul platform a0 x.x0).2 + carry platform (mul platform a0 x.x0).1 c)) q0Short
  have carry3 := carry_toNat platform
    (low_le (low ((mul platform a0 x.x0).2 + carry platform (mul platform a0 x.x0).1 c) +
      (mul platform a0 x.x1).1)) r0Short
  rw [low_add_toNat] at carry2
  simp only [low_add_toNat] at carry3
  rw [p0] at carry0
  rw [p1, carry0] at carry1
  rw [p1, carry0, q0] at carry2
  rw [p1, carry0, q0, r0] at carry3
  simp only [next, Words.generator, Rand.next, Generator.mk.injEq]
  refine ⟨?_, ?_, ?_⟩
  · rw [low_toNat, low_add_toNat, p0]
    rfl
  · simp only [low_add_toNat, p1, q0, r0, carry0]
    rfl
  · simp only [low_toNat, UInt32.toNat_add, UInt32.toNat_mul, carry1, carry2, carry3, q1, r1]
    have limbs : a0.toNat = Rand.a0 ∧ a1.toNat = Rand.a1 ∧ a2.toNat = Rand.a2 ∧ c.toNat = Rand.c :=
      ⟨rfl, rfl, rfl, rfl⟩
    rw [limbs.1, limbs.2.1, limbs.2.2.1, limbs.2.2.2]
    simp only [Rand.low]
    omega

/-- The shift and the sum of `serverLrand48` stay in range, so that the number is the one on
natural numbers. -/
theorem serverLrand48_eq {x : Words} (short : x.Short) :
    (serverLrand48 platform x).1 = Rand.lrand48 (Rand.next x.generator) ∧
      (serverLrand48 platform x).2.generator = Rand.next x.generator := by
  refine ⟨?_, next_generator platform short⟩
  obtain ⟨-, x1Short, x2Short⟩ := next_short platform x
  rw [← next_generator platform short]
  have shifted : (((next platform x).x2.toNat <<< 15 : Nat) : Int) =
      (next platform x).x2.toNat * 2 ^ 15 := by
    rw [Nat.shiftLeft_eq]
    rfl
  have halved : ((next platform x).x1 >>> 1).toNat = (next platform x).x1.toNat / 2 := by
    rw [UInt32.toNat_shiftRight]
    exact Nat.shiftRight_eq_div_pow _ _
  have kept : toSigned 32 ((next platform x).x2.toNat * 2 ^ 15) =
      (next platform x).x2.toNat * 2 ^ 15 := toSigned_self (by omega) (by omega)
  have sum : (toUnsigned ((next platform x).x2.toNat * 2 ^ 15) +
      ((next platform x).x1 >>> 1)).toNat = Rand.lrand48 (next platform x).generator := by
    rw [UInt32.toNat_add, toUnsigned_toNat, halved]
    simp only [Rand.lrand48, Words.generator]
    omega
  have fits : Rand.lrand48 (next platform x).generator < 2 ^ 31 := by
    simp only [Rand.lrand48, Words.generator]
    omega
  simp only [serverLrand48, shifted, kept, sum]
  exact toSigned_self (by omega) (by omega)

theorem serverSrand48_short (seedval : Int32) : (serverSrand48 seedval).Short :=
  ⟨Nat.le_of_lt_succ (by decide : (0x330E : UInt32).toNat < 0x10000), low_le _, low_le _⟩

/-- Seeding splits the seed into halves, whatever its sign. -/
theorem serverSrand48_generator (seedval : Int32) :
    (serverSrand48 seedval).generator = Rand.serverSrand48 seedval.toInt := by
  have low : (lowOf seedval.toInt).toNat = Rand.low (seedval.toInt % 2 ^ 32).toNat := by
    rw [lowOf, low_toNat, toUnsigned_toNat]
  have high : (highOf seedval.toInt).toNat = Rand.high (seedval.toInt % 2 ^ 32).toNat := by
    rw [highOf, lowOf, low_toNat, toUnsigned_toNat, Int.shiftRight_eq_div_pow, Rand.high, Rand.low,
      Rand.low]
    omega
  simp only [serverSrand48, Words.generator, Rand.serverSrand48, low, high]
  rfl

end

end RandWords

/-- The limbs of the generator. -/
def Generator.limbs (generator : Generator) : Limbs := ⟨generator.x0, generator.x1, generator.x2⟩

/-- The multiplier `0x5DEECE66D`. -/
def Rand.multiplier : Limbs := ⟨Rand.a0, Rand.a1, Rand.a2⟩

/-- `CARRY` of two limbs is what their sum carries. -/
theorem Rand.carry_eq {x y : Nat} (xShort : x < 2 ^ 16) (yShort : y < 2 ^ 16) :
    Rand.carry x y = (x + y) / 2 ^ 16 := by
  unfold Rand.carry
  split <;> omega

theorem Rand.low_lt (n : Nat) : Rand.low n < 2 ^ 16 := Nat.mod_lt _ (by decide)

/-- A step multiplies by `a` and adds `c`, whatever way the carries are collected. -/
theorem Rand.next_limbs {generator : Generator} (within : generator.limbs.Within (2 ^ 16)) :
    (Rand.next generator).limbs =
      Limbs.mulAdd (2 ^ 16) Rand.multiplier Rand.c generator.limbs := by
  obtain ⟨x0, x1, x2⟩ := generator
  obtain ⟨x0Short, x1Short, -⟩ := within
  simp only [Generator.limbs] at x0Short x1Short
  have pFits : Rand.a0 * x0 < 2 ^ 32 := by unfold Rand.a0; omega
  have qFits : Rand.a0 * x1 < 2 ^ 32 := by unfold Rand.a0; omega
  have rFits : Rand.a1 * x0 < 2 ^ 32 := by unfold Rand.a1; omega
  have cShort : Rand.c < 2 ^ 16 := by decide
  simp only [Rand.next, Generator.limbs, Limbs.mulAdd, Rand.multiplier, Rand.high]
  generalize Rand.a0 * x0 = p at *
  generalize Rand.a0 * x1 = q at *
  generalize Rand.a1 * x0 = r at *
  have carried : (Rand.low p + Rand.c) / 2 ^ 16 < 2 ^ 16 := by
    have := Rand.low_lt p
    omega
  rw [Rand.carry_eq (Rand.low_lt p) cShort, Rand.carry_eq (Rand.low_lt (p / 2 ^ 16)) carried,
    Rand.carry_eq (Rand.low_lt _) (Rand.low_lt q), Rand.carry_eq (Rand.low_lt _) (Rand.low_lt r)]
  simp only [Rand.low, Limbs.mk.injEq]
  generalize Rand.c = c at *
  refine ⟨?_, ?_, ?_⟩
  · omega
  · omega
  · omega

namespace RandWords

variable (platform : Platform)

/-- The limbs after `n` draws. -/
def wordsAfter (n : Nat) (x : Words) : Words := (fun x => (serverLrand48 platform x).2)^[n] x

/-- `X_n` of the congruential sequence, for a seed. -/
def sequence (seedval : Int32) : Nat → Nat :=
  congruential 0x5DEECE66D 0xB (2 ^ 48) ((seedval.toInt % 2 ^ 32).toNat * 2 ^ 16 + 0x330E)

theorem Words.Short.within {x : Words} (short : x.Short) : x.generator.limbs.Within (2 ^ 16) :=
  ⟨Nat.lt_succ_of_le short.x0, Nat.lt_succ_of_le short.x1, Nat.lt_succ_of_le short.x2⟩

theorem wordsAfter_succ (n : Nat) (x : Words) :
    wordsAfter platform (n + 1) x = next platform (wordsAfter platform n x) := by
  rw [wordsAfter, Function.iterate_succ_apply']
  rfl

/-- Every draw leaves limbs. -/
theorem wordsAfter_short {x : Words} (short : x.Short) (n : Nat) :
    (wordsAfter platform n x).Short := by
  cases n with
  | zero => exact short
  | succ n =>
      rw [wordsAfter_succ]
      exact next_short platform _

/-- Draw by draw the limbs are multiplied and added to. -/
theorem wordsAfter_limbs {x : Words} (short : x.Short) (n : Nat) :
    (wordsAfter platform n x).generator.limbs =
      ((Limbs.mulAdd (2 ^ 16) Rand.multiplier Rand.c)^[n]) x.generator.limbs := by
  induction n with
  | zero => rfl
  | succ n inductionHypothesis =>
      have before := wordsAfter_short platform short n
      rw [wordsAfter_succ, next_generator platform before, Rand.next_limbs before.within,
        inductionHypothesis, Function.iterate_succ_apply']

/-- The limbs after `n` draws stand for `X_n`. -/
theorem wordsAfter_value (seedval : Int32) (n : Nat) :
    (wordsAfter platform n (serverSrand48 seedval)).generator.limbs.value (2 ^ 16) =
      sequence seedval n := by
  have start : (serverSrand48 seedval).generator.limbs.value (2 ^ 16) =
      (seedval.toInt % 2 ^ 32).toNat * 2 ^ 16 + 0x330E := by
    rw [serverSrand48_generator]
    simp only [Rand.serverSrand48, Generator.limbs, Limbs.value, Rand.low, Rand.high, Rand.x0]
    omega
  rw [wordsAfter_limbs platform (serverSrand48_short seedval), Limbs.value_iterate_mulAdd (by decide),
    start]
  rfl

/-- The number drawn after `n` draws. -/
theorem draw_eq (n : Nat) (x : Words) :
    draw platform n x = (serverLrand48 platform (wordsAfter platform n x)).1 := by
  induction n generalizing x with
  | zero => rfl
  | succ n inductionHypothesis => exact inductionHypothesis (serverLrand48 platform x).2

/-- Seeded alike, the generator draws the upper 31 bits of the congruential sequence on every
platform, and its words hold 16-bit limbs all along. -/
theorem draws_congruential (seedval : Int32) (n : Nat) :
    draw platform n (serverSrand48 seedval) = (sequence seedval (n + 1) / 2 ^ 17 : Nat) ∧
      0 ≤ draw platform n (serverSrand48 seedval) ∧
      (wordsAfter platform n (serverSrand48 seedval)).Short := by
  have before := wordsAfter_short platform (serverSrand48_short seedval) n
  have after := wordsAfter_short platform (serverSrand48_short seedval) (n + 1)
  have drawn : draw platform n (serverSrand48 seedval) =
      (sequence seedval (n + 1) / 2 ^ 17 : Nat) := by
    rw [draw_eq, (serverLrand48_eq platform before).1, ← next_generator platform before,
      ← wordsAfter_succ, ← wordsAfter_value platform seedval (n + 1)]
    obtain ⟨x0Short, x1Short, -⟩ := after
    simp only [Rand.lrand48, Generator.limbs, Limbs.value, Words.generator]
    omega
  refine ⟨drawn, ?_, before⟩
  rw [drawn]
  exact Int.natCast_nonneg _

/-- Where `long` has 64 bits. -/
def lp64 : Platform := ⟨64, by decide⟩

/-- Where `long` is as short as C allows. -/
def ilp32 : Platform := ⟨32, le_rfl⟩

/-- The third number after a negative seed is the same on both. -/
theorem draws_congruential_platforms :
    draw lp64 2 (serverSrand48 (-1)) = (sequence (-1) 3 / 2 ^ 17 : Nat) ∧
      draw ilp32 2 (serverSrand48 (-1)) = (sequence (-1) 3 / 2 ^ 17 : Nat) :=
  ⟨(draws_congruential lp64 (-1) 2).1, (draws_congruential ilp32 (-1) 2).1⟩

end RandWords

end ValkeyLuajit
