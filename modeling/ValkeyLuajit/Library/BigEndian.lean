import Mathlib.Algebra.Group.Nat.Defs
import Mathlib.Data.Nat.Bitwise
import Mathlib.Tactic.Ring

/-!
# Numbers as bytes

The bytes of a number, the heaviest first, and the number that bytes stand for: what is
above the bytes of a number is lost, and the heavy bytes come before the light ones.
-/

namespace ValkeyLuajit

/-- The lowest `width` bytes of a number, the heaviest first. -/
def bigEndian : (width n : Nat) → List UInt8
  | 0, _ => []
  | width + 1, n => UInt8.ofNat (n / 256 ^ width) :: bigEndian width n

/-- The number that bytes stand for, the heaviest first. -/
def ofBigEndian (bytes : List UInt8) : Nat :=
  bytes.foldl (fun n byte => n * 256 + byte.toNat) 0

variable {width n : Nat} {bytes : List UInt8}

/-- There are as many bytes as were asked for. -/
@[simp] theorem length_bigEndian (width n : Nat) : (bigEndian width n).length = width := by
  induction width with
  | zero => rfl
  | succ width inductionHypothesis => simp [bigEndian, inductionHypothesis]

/-- No bytes stand for zero. -/
@[simp] theorem ofBigEndian_nil : ofBigEndian [] = 0 := rfl

/-- What was read before weighs more than all that follows. -/
theorem foldl_ofBigEndian (bytes : List UInt8) (n : Nat) :
    bytes.foldl (fun n byte => n * 256 + byte.toNat) n =
      n * 256 ^ bytes.length + ofBigEndian bytes := by
  induction bytes generalizing n with
  | nil => simp
  | cons byte bytes inductionHypothesis =>
      have rest : ofBigEndian (byte :: bytes) =
          (0 * 256 + byte.toNat) * 256 ^ bytes.length + ofBigEndian bytes := by
        rw [ofBigEndian, List.foldl_cons, inductionHypothesis]
      rw [List.foldl_cons, inductionHypothesis, rest, List.length_cons]
      ring

/-- The first byte weighs most. -/
theorem ofBigEndian_cons (byte : UInt8) (bytes : List UInt8) :
    ofBigEndian (byte :: bytes) = byte.toNat * 256 ^ bytes.length + ofBigEndian bytes := by
  rw [ofBigEndian, List.foldl_cons, foldl_ofBigEndian]
  simp

/-- Bytes stand for a number that fits them. -/
theorem ofBigEndian_lt (bytes : List UInt8) : ofBigEndian bytes < 256 ^ bytes.length := by
  induction bytes with
  | nil => simp
  | cons byte bytes inductionHypothesis =>
      rw [ofBigEndian_cons, List.length_cons]
      have small : byte.toNat + 1 ≤ 256 := byte.toNat_lt
      calc byte.toNat * 256 ^ bytes.length + ofBigEndian bytes
          < byte.toNat * 256 ^ bytes.length + 256 ^ bytes.length :=
            Nat.add_lt_add_left inductionHypothesis _
        _ = (byte.toNat + 1) * 256 ^ bytes.length := by ring
        _ ≤ 256 * 256 ^ bytes.length := Nat.mul_le_mul_right _ small
        _ = 256 ^ (bytes.length + 1) := by ring

/-- The bytes of a number stand for its remainder. -/
theorem ofBigEndian_bigEndian (width n : Nat) :
    ofBigEndian (bigEndian width n) = n % 256 ^ width := by
  induction width with
  | zero => simp [bigEndian, Nat.mod_one]
  | succ width inductionHypothesis =>
      have byte : (UInt8.ofNat (n / 256 ^ width)).toNat = n / 256 ^ width % 256 := UInt8.toNat_ofNat'
      rw [bigEndian, ofBigEndian_cons, inductionHypothesis, length_bigEndian, byte, Nat.pow_succ,
        Nat.mod_mul]
      ring

/-- The bytes of a number do not depend on what is above them. -/
theorem bigEndian_add_mul (width n high : Nat) :
    bigEndian width (high * 256 ^ width + n) = bigEndian width n := by
  induction width generalizing high with
  | zero => rfl
  | succ width inductionHypothesis =>
      have split : high * 256 ^ (width + 1) + n = high * 256 * 256 ^ width + n := by ring
      rw [bigEndian, bigEndian, split, inductionHypothesis, Nat.add_comm,
        Nat.add_mul_div_right _ _ (Nat.pow_pos (by decide))]
      congr 1
      apply UInt8.toNat_inj.mp
      rw [UInt8.toNat_ofNat', UInt8.toNat_ofNat']
      omega

/-- Nor are they changed by taking the remainder. -/
theorem bigEndian_mod (width n : Nat) : bigEndian width (n % 256 ^ width) = bigEndian width n := by
  have split : n = n / 256 ^ width * 256 ^ width + n % 256 ^ width := (Nat.div_add_mod' ..).symm
  conv_rhs => rw [split, bigEndian_add_mul]

/-- The heavy bytes and the light bytes of a number. -/
theorem bigEndian_append (left right n : Nat) :
    bigEndian (left + right) n = bigEndian left (n / 256 ^ right) ++ bigEndian right n := by
  induction left with
  | zero => simp [bigEndian]
  | succ left inductionHypothesis =>
      rw [Nat.add_right_comm, bigEndian, bigEndian, inductionHypothesis, List.cons_append,
        Nat.div_div_eq_div_mul, ← Nat.pow_add, Nat.add_comm right]

end ValkeyLuajit
