import Mathlib.Data.Nat.Digits.Lemmas

/-!
# Decimal numerals

The numeral of a number is a minus sign if it is negative, and the digits without leading
zeros. Numerals are taken apart at their end, where a writer that goes backwards starts.
-/

namespace ValkeyLuajit

/-- The character of a digit. -/
def digitChar (digit : Nat) : UInt8 := UInt8.ofNat (48 + digit)

/-- The digits of a natural number, the first one first. -/
def natNumeral (n : Nat) : List UInt8 :=
  if n = 0 then [digitChar 0] else (Nat.digits 10 n).reverse.map digitChar

/-- The numeral of an integer. -/
def numeral (n : Int) : List UInt8 :=
  if n < 0 then UInt8.ofNat '-'.toNat :: natNumeral n.natAbs else natNumeral n.natAbs

variable {n k : Nat}

theorem natNumeral_of_lt (small : n < 10) : natNumeral n = [digitChar n] := by
  by_cases zero : n = 0
  · rw [natNumeral, if_pos zero, zero]
  · rw [natNumeral, if_neg zero, Nat.digits_of_lt 10 n zero small]
    rfl

/-- The last digit is the remainder. -/
theorem natNumeral_of_le (large : 10 ≤ n) :
    natNumeral n = natNumeral (n / 10) ++ [digitChar (n % 10)] := by
  have positive : n ≠ 0 := by omega
  have positive' : n / 10 ≠ 0 := by omega
  rw [natNumeral, if_neg positive, natNumeral, if_neg positive',
    Nat.digits_eq_cons_digits_div (by decide) positive, List.reverse_cons, List.map_append]
  rfl

/-- The last two digits. -/
theorem natNumeral_of_hundred_le (large : 100 ≤ n) :
    natNumeral n = natNumeral (n / 100) ++ [digitChar (n % 100 / 10), digitChar (n % 100 % 10)] := by
  have tens : n / 10 % 10 = n % 100 / 10 := by omega
  have units : n % 10 = n % 100 % 10 := by omega
  rw [natNumeral_of_le (by omega), natNumeral_of_le (by omega), Nat.div_div_eq_div_mul, tens, units,
    List.append_assoc]
  rfl

/-- A number below a hundred that needs two digits. -/
theorem natNumeral_of_lt_hundred (large : 10 ≤ n) (small : n < 100) :
    natNumeral n = [digitChar (n / 10), digitChar (n % 10)] := by
  rw [natNumeral_of_le large, natNumeral_of_lt (by omega)]
  rfl

/-- At most so many digits. -/
theorem length_natNumeral_le (upper : n < 10 ^ (k + 1)) : (natNumeral n).length ≤ k + 1 := by
  by_cases zero : n = 0
  · rw [natNumeral, if_pos zero]
    exact Nat.succ_le_succ (Nat.zero_le k)
  · rw [natNumeral, if_neg zero, List.length_map, List.length_reverse]
    exact (Nat.digits_length_le_iff (by decide) n).mpr upper

theorem length_natNumeral_pos : 0 < (natNumeral n).length := by
  by_cases small : n < 10
  · rw [natNumeral_of_lt small]
    exact Nat.one_pos
  · rw [natNumeral_of_le (by omega), List.length_append]
    exact Nat.succ_pos _

/-- The number of digits. -/
theorem length_natNumeral (upper : n < 10 ^ (k + 1)) (lower : k ≠ 0 → 10 ^ k ≤ n) :
    (natNumeral n).length = k + 1 := by
  apply Nat.le_antisymm (length_natNumeral_le upper)
  by_cases none : k = 0
  · rw [none]
    exact length_natNumeral_pos
  · have large := lower none
    have power : 0 < 10 ^ k := Nat.pow_pos (by decide)
    rw [natNumeral, if_neg (by omega), List.length_map, List.length_reverse]
    exact (Nat.lt_digits_length_iff (by decide) n).mpr large

/-- The number of digits between two lengths is told by one comparison. -/
theorem length_natNumeral_pair (lower : 10 ^ k ≤ n) (upper : n < 10 ^ (k + 2)) :
    (natNumeral n).length = k + 1 + (decide (10 ^ (k + 1) ≤ n)).toNat := by
  by_cases longer : 10 ^ (k + 1) ≤ n
  · rw [length_natNumeral upper fun _ => longer, decide_eq_true longer]
    rfl
  · rw [length_natNumeral (Nat.not_le.mp longer) fun _ => lower, decide_eq_false longer]
    rfl

/-- Dividing by a power of ten takes as many digits away. -/
theorem length_natNumeral_div (large : 10 ^ k ≤ n) :
    (natNumeral n).length = k + (natNumeral (n / 10 ^ k)).length := by
  induction k generalizing n with
  | zero => simp
  | succ k inductionHypothesis =>
      have power : 0 < 10 ^ k := Nat.pow_pos (by decide)
      rw [Nat.pow_succ'] at large
      have ten : 10 ≤ n := by omega
      have rest : 10 ^ k ≤ n / 10 := by omega
      rw [natNumeral_of_le ten, List.length_append, inductionHypothesis rest, Nat.pow_succ',
        Nat.div_div_eq_div_mul, List.length_singleton]
      omega

end ValkeyLuajit
