import Mathlib.Data.Int.Log
import Mathlib.Data.List.DropRight
import Mathlib.Tactic.FieldSimp
import ValkeyLuajit.Library.Decimal
import ValkeyLuajit.Library.Interchange

/-!
# Decimal numerals with a point and an exponent

A numeral of this kind has digits in front of its point, perhaps some behind it, and perhaps an
exponent. A positive number is rounded to so many significant digits by scaling it with a power
of ten; the numeral that a program writes of the digits has no zeros at the end of its fraction.
-/

namespace ValkeyLuajit

/-- The characters of digits. -/
def digitText (digits : List (Fin 10)) : List UInt8 :=
  digits.map fun digit : Fin 10 => digitChar digit.val

/-- What digits stand for. -/
def digitsValue (digits : List (Fin 10)) : Nat :=
  digits.foldl (fun (n : Nat) (digit : Fin 10) => 10 * n + digit.val) 0

/-- So many digits of a number, the last ones. -/
def lastDigits : (count n : Nat) → List (Fin 10)
  | 0, _ => []
  | count + 1, n => lastDigits count (n / 10) ++ [⟨n % 10, Nat.mod_lt n (by decide)⟩]

/-- An exponent: its letter, its sign if it has one, and at least one digit. -/
structure Exponent where
  letter : UInt8
  sign : Option UInt8
  first : Fin 10
  more : List (Fin 10)
  isLetter : letter = 0x65 ∨ letter = 0x45
  isSign : ∀ char ∈ sign, char = 0x2b ∨ char = 0x2d

namespace Exponent

variable (exponent : Exponent)

/-- All digits of the exponent. -/
def digits : List (Fin 10) := exponent.first :: exponent.more

/-- The exponent as it is written. -/
def text : List UInt8 := exponent.letter :: (exponent.sign.toList ++ digitText exponent.digits)

/-- What it is worth, with its sign. -/
def value : Int :=
  if exponent.sign = some 0x2d then -(digitsValue exponent.digits : Int)
  else digitsValue exponent.digits

end Exponent

/-- A numeral, with at least one digit in front of its point. -/
structure Scientific where
  negative : Bool
  first : Fin 10
  more : List (Fin 10)
  fraction : List (Fin 10)
  exponent : Option Exponent

namespace Scientific

variable (numeral : Scientific)

/-- The digits in front of the point. -/
def whole : List (Fin 10) := numeral.first :: numeral.more

/-- What the exponent is worth, zero if there is none. -/
def scale : Int := (numeral.exponent.map Exponent.value).getD 0

/-- The text, with this character as the point. A numeral without a fraction has no point. -/
def text (point : UInt8) : List UInt8 :=
  (if numeral.negative then [0x2d] else []) ++ (digitText numeral.whole ++
    ((if numeral.fraction = [] then [] else point :: digitText numeral.fraction) ++
      ((numeral.exponent.map Exponent.text).getD [])))

/-- The number without its sign. -/
def magnitude : Rat :=
  digitsValue (numeral.whole ++ numeral.fraction) *
    (10 : Rat) ^ (numeral.scale - numeral.fraction.length)

/-- What the numeral stands for. -/
def value : Rat := if numeral.negative then -numeral.magnitude else numeral.magnitude

/-- No zero comes first, unless it is the only digit in front of the point. -/
def Plain : Prop := numeral.first = 0 → numeral.more = []

instance : Decidable numeral.Plain := inferInstanceAs (Decidable (_ → _))

end Scientific

section Digits

variable {digits : List (Fin 10)} {count n : Nat}

/-- What is in front weighs more by a power of ten for each digit behind it. -/
theorem digitsValue_append (left right : List (Fin 10)) :
    digitsValue (left ++ right) = digitsValue left * 10 ^ right.length + digitsValue right := by
  induction right using List.reverseRecOn with
  | nil => simp [digitsValue]
  | append_singleton right digit inductionHypothesis =>
      have step (front : List (Fin 10)) :
          digitsValue (front ++ [digit]) = 10 * digitsValue front + digit.val := by
        simp [digitsValue]
      rw [← List.append_assoc, step, step, inductionHypothesis, List.length_append,
        List.length_singleton, Nat.pow_succ]
      ring

@[simp] theorem length_lastDigits (count n : Nat) : (lastDigits count n).length = count := by
  induction count generalizing n with
  | zero => rfl
  | succ count inductionHypothesis => simp [lastDigits, inductionHypothesis]

/-- The last digits stand for the remainder. -/
theorem digitsValue_lastDigits (count n : Nat) : digitsValue (lastDigits count n) = n % 10 ^ count := by
  induction count generalizing n with
  | zero => simp [lastDigits, digitsValue, Nat.mod_one]
  | succ count inductionHypothesis =>
      have single (digit : Fin 10) : digitsValue [digit] = digit.val := by simp [digitsValue]
      rw [lastDigits, digitsValue_append, inductionHypothesis, single, List.length_singleton,
        Nat.pow_one, Nat.pow_succ', Nat.mod_mul]
      ring

/-- Zeros are worth nothing. -/
theorem digitsValue_replicate_zero (count : Nat) :
    digitsValue (List.replicate count 0) = 0 := by
  induction count with
  | zero => rfl
  | succ count inductionHypothesis =>
      rw [List.replicate_succ', digitsValue_append, inductionHypothesis]
      rfl

/-- Zeros at the end of a fraction do not count. -/
theorem digitsValue_rdropWhile (front : List (Fin 10)) (fraction : List (Fin 10)) (scale : Int) :
    (digitsValue (front ++ fraction.rdropWhile (· = 0)) : Rat) *
        (10 : Rat) ^ (scale - (fraction.rdropWhile (· = 0)).length) =
      digitsValue (front ++ fraction) * (10 : Rat) ^ (scale - fraction.length) := by
  induction fraction using List.reverseRecOn with
  | nil => rfl
  | append_singleton fraction digit inductionHypothesis =>
      rw [List.rdropWhile_concat]
      split
      · rename_i zero
        obtain rfl : digit = 0 := by simpa using zero
        have shift : scale - (fraction.length : Int) = scale - ((fraction.length : Int) + 1) + 1 := by
          omega
        rw [inductionHypothesis, ← List.append_assoc, digitsValue_append (front ++ fraction),
          List.length_append, List.length_singleton, Nat.cast_succ, shift,
          zpow_add_one₀ (by decide)]
        have none : digitsValue [(0 : Fin 10)] = 0 := rfl
        rw [none]
        push_cast
        ring
      · rfl

/-- A digit in front of the last ones. -/
theorem digitsValue_leading (below : n < 10 ^ (count + 1)) :
    digitsValue (⟨n / 10 ^ count % 10, Nat.mod_lt _ (by decide)⟩ :: lastDigits count n) = n := by
  have single : digitsValue [(⟨n / 10 ^ count % 10, Nat.mod_lt _ (by decide)⟩ : Fin 10)] =
      n / 10 ^ count % 10 := by simp [digitsValue]
  have first : n / 10 ^ count < 10 :=
    Nat.div_lt_of_lt_mul (by rwa [Nat.pow_succ] at below)
  rw [← List.singleton_append, digitsValue_append, single, length_lastDigits,
    digitsValue_lastDigits, Nat.mod_eq_of_lt first, Nat.mul_comm]
  exact Nat.div_add_mod n (10 ^ count)

end Digits

/-- The exponent that is written for a scale, with two digits or more. -/
def Exponent.ofInt (scale : Int) : Exponent where
  letter := 0x65
  sign := some (if scale < 0 then 0x2d else 0x2b)
  first := ⟨scale.natAbs / 10 ^ max 1 (Nat.log 10 scale.natAbs) % 10, Nat.mod_lt _ (by decide)⟩
  more := lastDigits (max 1 (Nat.log 10 scale.natAbs)) scale.natAbs
  isLetter := .inl rfl
  isSign := by
    intro char member
    obtain rfl : (if scale < 0 then 0x2d else 0x2b) = char := by simpa using member
    split
    · exact .inr rfl
    · exact .inl rfl

/-- An exponent is worth the number it is made of. -/
theorem Exponent.value_ofInt (scale : Int) : (Exponent.ofInt scale).value = scale := by
  have below : scale.natAbs < 10 ^ (max 1 (Nat.log 10 scale.natAbs) + 1) :=
    (Nat.lt_pow_succ_log_self (by decide) _).trans_le
      (Nat.pow_le_pow_right (by decide) (by omega))
  have digits : digitsValue (Exponent.ofInt scale).digits = scale.natAbs :=
    digitsValue_leading below
  rw [Exponent.value, digits]
  by_cases negative : scale < 0
  · have minus : (Exponent.ofInt scale).sign = some 0x2d := by simp [ofInt, negative]
    rw [if_pos minus]
    omega
  · have plus : (Exponent.ofInt scale).sign ≠ some 0x2d := by simp [ofInt, negative]
    rw [if_neg plus]
    omega

/-- A positive number rounded to `more + 1` significant digits: the digits, and the power of ten
that the first of them is worth. -/
def significant (more : Nat) (q : Rat) : Nat × Int :=
  let scale := Int.log 10 q
  let digits := Interchange.nearest (q / (10 : Rat) ^ (scale - more))
  if digits = 10 ^ (more + 1) then (10 ^ more, scale + 1) else (digits, scale)

/-- What is left of a number after rounding it to `more + 1` significant digits. -/
def roundedTo (more : Nat) (q : Rat) : Rat :=
  (significant more q).1 * (10 : Rat) ^ ((significant more q).2 - more)

/-- The numeral of digits, the first of which is worth this power of ten. It has an exponent if
the number is very small, or has more digits in front of its point than there are. -/
def Scientific.laidOut (negative : Bool) (first : Fin 10) (rest : List (Fin 10)) (scale : Int) :
    Scientific :=
  if scale < -4 ∨ rest.length < scale then
    ⟨negative, first, [], rest.rdropWhile (· = 0), some (.ofInt scale)⟩
  else if scale < 0 then
    ⟨negative, 0, [],
      (List.replicate (-scale - 1).toNat 0 ++ first :: rest).rdropWhile (· = 0), none⟩
  else
    ⟨negative, first, rest.take scale.toNat, (rest.drop scale.toNat).rdropWhile (· = 0), none⟩

/-- The numeral of a magnitude, rounded to `more + 1` significant digits. -/
def Scientific.general (more : Nat) (negative : Bool) (q : Rat) : Scientific :=
  let digits := (significant more q).1
  .laidOut negative ⟨digits / 10 ^ more % 10, Nat.mod_lt _ (by decide)⟩ (lastDigits more digits)
    (significant more q).2

section Rounding

open Interchange

variable {more n : Nat} {q : Rat}

/-- Rounding does not fall below a whole number. -/
theorem le_nearest (lower : (n : Rat) ≤ q) : n ≤ nearest q := by
  have whole : n ≤ ⌊q⌋₊ := Nat.le_floor lower
  simp only [nearest]
  split <;> omega

/-- Nor does it rise above one. -/
theorem nearest_le (upper : q < n) (positive : 0 ≤ q) : nearest q ≤ n := by
  have whole : ⌊q⌋₊ < n := (Nat.floor_lt positive).mpr upper
  simp only [nearest]
  split <;> omega

/-- Scaled by its power of ten, a number has one digit more in front of its point than is
asked for. -/
theorem scaled_bounds (more : Nat) (positive : 0 < q) :
    ((10 ^ more : Nat) : Rat) ≤ q / (10 : Rat) ^ (Int.log 10 q - more) ∧
      q / (10 : Rat) ^ (Int.log 10 q - more) < ((10 ^ (more + 1) : Nat) : Rat) := by
  have lower : (10 : Rat) ^ Int.log 10 q ≤ q := by
    exact_mod_cast Int.zpow_log_le_self (b := 10) (by decide) positive
  have upper : q < (10 : Rat) ^ (Int.log 10 q + 1) := by
    exact_mod_cast Int.lt_zpow_succ_log_self (b := 10) (by decide) q
  have power : (0 : Rat) < (10 : Rat) ^ (Int.log 10 q - more) := zpow_pos (by decide) _
  constructor
  · rw [le_div_iff₀ power]
    push_cast
    rw [← zpow_natCast, ← zpow_add₀ (by decide)]
    simpa using lower
  · rw [div_lt_iff₀ power]
    push_cast
    rw [← zpow_natCast, ← zpow_add₀ (by decide)]
    have shift : ((more + 1 : Nat) : Int) + (Int.log 10 q - more) = Int.log 10 q + 1 := by
      push_cast
      ring
    rwa [shift]

/-- So many digits, of which the first is not zero. -/
theorem significant_bounds (more : Nat) (positive : 0 < q) :
    10 ^ more ≤ (significant more q).1 ∧ (significant more q).1 < 10 ^ (more + 1) := by
  obtain ⟨lower, upper⟩ := scaled_bounds more positive
  have least := le_nearest lower
  have most := nearest_le upper ((Nat.cast_nonneg _).trans lower)
  simp only [significant]
  split
  · exact ⟨Nat.le_refl _, Nat.pow_lt_pow_right (by decide) (Nat.lt_succ_self more)⟩
  · exact ⟨least, by omega⟩

/-- There are no more digits than were asked for. -/
theorem significant_lt (more : Nat) (nonnegative : 0 ≤ q) : (significant more q).1 < 10 ^ (more + 1) := by
  rcases nonnegative.eq_or_lt with rfl | positive
  · have none : nearest (0 / (10 : Rat) ^ (Int.log 10 (0 : Rat) - more)) = 0 := by simp [nearest]
    have power : (0 : Nat) < 10 ^ (more + 1) := Nat.pow_pos (by decide)
    simp only [significant, none]
    rw [if_neg (by omega)]
    exact power
  · exact (significant_bounds more positive).2

/-- A number is rounded to a neighbour of it. -/
theorem roundedTo_eq (more : Nat) (q : Rat) :
    roundedTo more q = nearest (q / (10 : Rat) ^ (Int.log 10 q - more)) *
      (10 : Rat) ^ (Int.log 10 q - more) := by
  simp only [roundedTo, significant]
  split
  · rename_i carried
    have shift : Int.log 10 q + 1 - more = Int.log 10 q - more + 1 := by ring
    rw [carried, shift, zpow_add_one₀ (by decide)]
    push_cast
    rw [pow_succ]
    ring
  · rfl

/-- A whole number of so many digits is not changed by rounding. -/
theorem roundedTo_natCast (small : n < 10 ^ (more + 1)) : roundedTo more n = n := by
  rcases Nat.eq_zero_or_pos n with rfl | positive
  · simp [roundedTo_eq, nearest]
  · have large : Nat.log 10 n ≤ more :=
      Nat.lt_succ_iff.mp (Nat.log_lt_of_lt_pow (by omega) small)
    have scale : Int.log 10 (n : Rat) = Nat.log 10 n := Int.log_natCast 10 n
    have shift : (Nat.log 10 n : Int) - more = -((more - Nat.log 10 n : Nat) : Int) := by
      rw [Nat.cast_sub large]
      ring
    have power : (10 : Rat) ^ (more - Nat.log 10 n) ≠ 0 := by positivity
    have whole : (n : Rat) / (10 : Rat) ^ ((Nat.log 10 n : Int) - more) =
        ((n * 10 ^ (more - Nat.log 10 n) : Nat) : Rat) := by
      rw [shift, zpow_neg, div_inv_eq_mul, zpow_natCast]
      push_cast
      rfl
    rw [roundedTo_eq, scale, whole, nearest_natCast, shift, zpow_neg, zpow_natCast]
    push_cast
    field_simp

end Rounding

namespace Scientific

variable {negative : Bool} {first : Fin 10} {rest : List (Fin 10)} {scale : Int} {more : Nat}
  {q : Rat}

/-- The layout keeps the sign. -/
theorem negative_laidOut : (laidOut negative first rest scale).negative = negative := by
  unfold laidOut
  split
  · rfl
  · split <;> rfl

/-- Wherever the point is put, the digits are worth the same. -/
theorem magnitude_laidOut : (laidOut negative first rest scale).magnitude =
    digitsValue (first :: rest) * (10 : Rat) ^ (scale - rest.length) := by
  unfold laidOut
  split
  · have stripped := digitsValue_rdropWhile [first] rest scale
    simpa [magnitude, whole, Scientific.scale, Exponent.value_ofInt] using stripped
  · split
    · have zeros : digitsValue ([0] ++ (List.replicate (-scale - 1).toNat 0 ++ first :: rest)) =
          digitsValue (first :: rest) := by
        rw [← List.append_assoc, List.singleton_append, ← List.replicate_succ, digitsValue_append,
          digitsValue_replicate_zero, Nat.zero_mul, Nat.zero_add]
      have stripped := digitsValue_rdropWhile [0]
        (List.replicate (-scale - 1).toNat 0 ++ first :: rest) 0
      have places : (0 : Int) - (List.replicate (-scale - 1).toNat 0 ++ first :: rest).length =
          scale - rest.length := by
        rw [List.length_append, List.length_replicate, List.length_cons]
        omega
      rw [zeros, places] at stripped
      exact stripped
    · have parts : first :: rest.take scale.toNat ++ rest.drop scale.toNat = first :: rest := by
        rw [List.cons_append, List.take_append_drop]
      have stripped := digitsValue_rdropWhile (first :: rest.take scale.toNat)
        (rest.drop scale.toNat) 0
      have places : (0 : Int) - (rest.drop scale.toNat).length = scale - rest.length := by
        rw [List.length_drop]
        omega
      rw [parts, places] at stripped
      exact stripped

/-- Digits that start with a zero are plain if that zero is in front of the point on its own. -/
theorem plain_laidOut (leads : first = 0 → scale = 0) :
    (laidOut negative first rest scale).Plain := by
  intro zero
  unfold laidOut at zero ⊢
  split at zero
  · rw [if_pos ‹_›]
  · rw [if_neg ‹_›]
    split at zero
    · rw [if_pos ‹_›]
    · rw [if_neg ‹_›]
      simp [leads zero]

/-- The text has room for the sign, the point and an exponent of three digits. -/
theorem length_text_laidOut (negative : Bool) (first : Fin 10) (rest : List (Fin 10)) (point : UInt8)
    (few : scale.natAbs < 1000) :
    ((laidOut negative first rest scale).text point).length ≤ rest.length + 8 := by
  have fraction (digits : List (Fin 10)) : (if digits.rdropWhile (· = 0) = [] then []
      else point :: digitText (digits.rdropWhile (· = 0))).length ≤ digits.length + 1 := by
    have stripped := (List.rdropWhile_prefix (· = 0) (l := digits)).length_le
    split
    · exact Nat.zero_le _
    · simpa [digitText] using stripped
  have sign : (if negative then [(0x2d : UInt8)] else []).length ≤ 1 := by split <;> simp
  unfold laidOut
  split
  · have exponent : (Exponent.ofInt scale).text.length ≤ 5 := by
      have log : Nat.log 10 scale.natAbs < 3 := Nat.log_lt_of_lt_pow' (by decide) few
      simp only [Exponent.text, Exponent.digits, Exponent.ofInt, digitText, List.length_cons,
        List.length_append, List.length_map, length_lastDigits, Option.toList, List.length_nil]
      omega
    have places := fraction rest
    simp only [text, whole, List.length_append, digitText, List.length_map, List.length_cons,
      List.length_nil, Option.map_some, Option.getD_some] at *
    omega
  · split
    · have places := fraction (List.replicate (-scale - 1).toNat 0 ++ first :: rest)
      simp only [text, whole, List.length_append, digitText, List.length_map, List.length_cons,
        List.length_nil, Option.map_none, Option.getD_none, List.length_replicate] at *
      omega
    · have places := fraction (rest.drop scale.toNat)
      simp only [text, whole, List.length_append, digitText, List.length_map, List.length_cons,
        List.length_nil, Option.map_none, Option.getD_none, List.length_drop,
        List.length_take] at *
      omega

/-- The digits that are written stand for the rounded number. -/
theorem value_general (nonnegative : 0 ≤ q) : (general more negative q).value =
    if negative then -roundedTo more q else roundedTo more q := by
  have digits := digitsValue_leading (significant_lt more nonnegative)
  rw [value, general, negative_laidOut, magnitude_laidOut, digits, length_lastDigits, roundedTo]

/-- The only number whose digits start with a zero is zero. -/
theorem plain_general (nonnegative : 0 ≤ q) : (general more negative q).Plain := by
  apply plain_laidOut
  intro zero
  rcases nonnegative.eq_or_lt with rfl | positive
  · have power : (10 : Nat) ^ (more + 1) ≠ 0 := by positivity
    simp [significant, Interchange.nearest, power.symm]
  · obtain ⟨lower, upper⟩ := significant_bounds more positive
    have power : 0 < 10 ^ more := Nat.pow_pos (by decide)
    have one : 1 ≤ (significant more q).1 / 10 ^ more := (Nat.one_le_div_iff power).mpr lower
    have ten : (significant more q).1 / 10 ^ more < 10 :=
      Nat.div_lt_of_lt_mul (by rwa [Nat.pow_succ] at upper)
    rw [Fin.mk_eq_zero] at zero
    omega

/-- How long the text of a number is at most. -/
theorem length_text_general (negative : Bool) (point : UInt8)
    (few : (significant more q).2.natAbs < 1000) :
    ((general more negative q).text point).length ≤ more + 8 := by
  have laid := length_text_laidOut negative
    ⟨(significant more q).1 / 10 ^ more % 10, Nat.mod_lt _ (by decide)⟩
    (lastDigits more (significant more q).1) point few
  rwa [length_lastDigits] at laid

end Scientific

end ValkeyLuajit
