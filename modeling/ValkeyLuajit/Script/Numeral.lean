import ValkeyLuajit.Library.Block
import ValkeyLuajit.Library.Decimal
import ValkeyLuajit.Lua.Value

/-!
# Writing numbers

A number of a command's arguments that a `long long` holds is written into a buffer on the
C stack. The digits are counted first and written from the end, two at a time from a table
of all pairs. Every access is checked against the bounds of the buffer and of the table.
-/

namespace ValkeyLuajit

open Lua

def digits10 (v : UInt64) : Nat :=
  if v < 10 then 1
  else if v < 100 then 2
  else if v < 1000 then 3
  else if v < 1000000000000 then
    if v < 100000000 then
      if v < 1000000 then
        if v < 10000 then 4
        else 5 + (decide (v ≥ 100000)).toNat
      else 7 + (decide (v ≥ 10000000)).toNat
    else if v < 10000000000 then 9 + (decide (v ≥ 1000000000)).toNat
    else 11 + (decide (v ≥ 100000000000)).toNat
  else 12 + digits10 (v / 1000000000000)
termination_by v.toNat
decreasing_by
  rename_i large
  rw [UInt64.not_lt, UInt64.le_iff_toNat_le] at large
  rw [UInt64.toNat_div]
  exact Nat.div_lt_self (Nat.lt_of_lt_of_le (by decide) large) (by decide)

/-- The table `digits`. -/
def digitPairs : Block :=
  bytes "0001020304050607080910111213141516171819" ++
  bytes "2021222324252627282930313233343536373839" ++
  bytes "4041424344454647484950515253545556575859" ++
  bytes "6061626364656667686970717273747576777879" ++
  bytes "8081828384858687888990919293949596979899"

/-- `dst[next] = digits[i + 1]; dst[next - 1] = digits[i]`, with `dst` at the place in the
buffer. -/
def storePair (buffer : Block) (dst next i : Int) : Option Block := do
  let units ← digitPairs.load (i + 1)
  let buffer ← buffer.store (dst + next) units
  let tens ← digitPairs.load i
  buffer.store (dst + (next - 1)) tens

/-- The loop of `ull2string`, and the digits that are left after it. -/
def ull2stringLoop (buffer : Block) (dst next : Int) (value : UInt64) : Option Block :=
  if value ≥ 100 then do
    let buffer ← storePair buffer dst next (value % 100 * 2).toNat
    ull2stringLoop buffer dst (next - 2) (value / 100)
  else if value < 10 then buffer.store (dst + next) (48 + value.toUInt8)
  else storePair buffer dst next (value * 2).toNat
termination_by value.toNat
decreasing_by
  rename_i large
  rw [ge_iff_le, UInt64.le_iff_toNat_le] at large
  rw [UInt64.toNat_div]
  exact Nat.div_lt_self (Nat.lt_of_lt_of_le (by decide) large) (by decide)

/-- The label `err`: a NUL is put at the start, if there is room for it. -/
def numeralError (buffer : Block) (dst : Int) (dstlen : Nat) : Option (Nat × Block) :=
  if 0 < dstlen then (buffer.store dst 0).map (0, ·) else some (0, buffer)

def ull2string (buffer : Block) (dst : Int) (dstlen : Nat) (value : UInt64) :
    Option (Nat × Block) := do
  let length := digits10 value
  if length ≥ dstlen then numeralError buffer dst dstlen
  else do
    let next : Int := length - 1
    let buffer ← buffer.store (dst + (next + 1)) 0
    let buffer ← ull2stringLoop buffer dst next value
    some (length, buffer)

/-- The buffer has the length that the function is told. -/
def ll2string (buffer : Block) (svalue : Int64) : Option (Nat × Block) := do
  let dstlen := buffer.length
  if svalue < 0 then
    let value := if svalue ≠ Int64.minValue then (-svalue).toUInt64
      else Int64.maxValue.toUInt64 + 1
    if dstlen < 2 then numeralError buffer 0 dstlen
    else do
      let buffer ← buffer.store 0 (UInt8.ofNat '-'.toNat)
      let (length, buffer) ← ull2string buffer 1 (dstlen - 1) value
      some (if length = 0 then 0 else length + 1, buffer)
  else ull2string buffer 0 dstlen svalue.toUInt64

section

variable {v : UInt64} {n : Nat}

/-- `digits10` counts the digits. -/
theorem digits10_eq (v : UInt64) : digits10 v = (natNumeral v.toNat).length := by
  fun_induction digits10 v <;>
    simp only [UInt64.lt_iff_toNat_lt, ge_iff_le, UInt64.le_iff_toNat_le, UInt64.reduceToNat,
      UInt64.toNat_div] at *
  case case1 => exact (length_natNumeral (by omega) (by omega)).symm
  case case2 => exact (length_natNumeral (k := 1) (by omega) (by omega)).symm
  case case3 => exact (length_natNumeral (k := 2) (by omega) (by omega)).symm
  case case4 => exact (length_natNumeral (k := 3) (by omega) (by omega)).symm
  case case5 => exact (length_natNumeral_pair (k := 4) (by omega) (by omega)).symm
  case case6 => exact (length_natNumeral_pair (k := 6) (by omega) (by omega)).symm
  case case7 => exact (length_natNumeral_pair (k := 8) (by omega) (by omega)).symm
  case case8 => exact (length_natNumeral_pair (k := 10) (by omega) (by omega)).symm
  case case9 ih =>
    rw [ih]
    exact (length_natNumeral_div (k := 12) (by omega)).symm

end

section

variable {front old back : Block}

/-- The table is made of the two digits of every number below a hundred, in order. -/
theorem digitPairs_eq : digitPairs =
    (List.range 100).flatMap fun r => [digitChar (r / 10), digitChar (r % 10)] := by
  decide +kernel

theorem digitPairs_load (r : Fin 100) :
    digitPairs.load (2 * r.val : Nat) = some (digitChar (r / 10)) ∧
      digitPairs.load ((2 * r.val : Nat) + 1) = some (digitChar (r % 10)) := by
  rw [digitPairs_eq]
  revert r
  decide +kernel

/-- Two places of the buffer get the two digits. -/
theorem storePair_eq {first second : UInt8} {r : Nat} {dst next : Int} (small : r < 100)
    (last : dst + next = (front.length : Int) + 1) :
    storePair (front ++ first :: second :: back) dst next (2 * r : Nat) =
      some (front ++ digitChar (r / 10) :: digitChar (r % 10) :: back) := by
  obtain ⟨tens, units⟩ := digitPairs_load ⟨r, small⟩
  have lower := Block.store_append (front ++ [first]) back second (digitChar (r % 10))
  have upper := Block.store_append front (digitChar (r % 10) :: back) first (digitChar (r / 10))
  rw [List.append_assoc, List.append_assoc, List.length_append, List.length_singleton] at lower
  have place : dst + next = ((front.length + 1 : Nat) : Int) := last
  have place' : dst + (next - 1) = (front.length : Int) := by omega
  simp only [storePair, units, tens, place, place', Option.bind_eq_bind, Option.bind_some]
  change (Block.store (front ++ ([first] ++ second :: back)) _ _).bind _ = _
  rw [lower, Option.bind_some]
  exact upper

/-- The loop writes the numeral into the places there are for it, and touches no other. -/
theorem ull2stringLoop_eq {dst next : Int} {value : UInt64}
    (room : old.length = (natNumeral value.toNat).length)
    (last : dst + next = (front.length : Int) + old.length - 1) :
    ull2stringLoop (front ++ old ++ back) dst next value =
      some (front ++ natNumeral value.toNat ++ back) := by
  induction number : value.toNat using Nat.strong_induction_on generalizing value old back next with
  | _ n inductionHypothesis =>
      subst number
      rw [ull2stringLoop]
      by_cases several : value ≥ 100
      · have large : 100 ≤ value.toNat := several
        have pair : (value % 100 * 2).toNat = 2 * (value.toNat % 100) := by
          rw [UInt64.toNat_mul, UInt64.toNat_mod]
          change value.toNat % 100 * 2 % 2 ^ 64 = _
          omega
        have quotient : (value / 100).toNat = value.toNat / 100 := UInt64.toNat_div value 100
        rw [natNumeral_of_hundred_le large] at room ⊢
        obtain ⟨rest, first, second, rfl⟩ : ∃ rest first second, old = rest ++ [first, second] := by
          have ends : (old.drop (old.length - 2)).length = 2 := by
            rw [List.length_append] at room
            simp at room ⊢
            omega
          obtain ⟨first, second, parts⟩ := List.length_eq_two.mp ends
          exact ⟨old.take (old.length - 2), first, second, by rw [← parts, List.take_append_drop]⟩
        have stored := @storePair_eq (front ++ rest) back first second _ dst next
          (Nat.mod_lt value.toNat (by decide)) (by simp at last ⊢; omega)
        have again := @inductionHypothesis (value.toNat / 100) (by omega) rest
          (digitChar (value.toNat % 100 / 10) :: digitChar (value.toNat % 100 % 10) :: back)
          (next - 2) (value / 100) (by simpa [quotient] using room) (by simp at last ⊢; omega) quotient
        rw [if_pos several, pair]
        simp only [List.append_assoc, List.cons_append, List.nil_append] at stored again ⊢
        change (storePair _ _ _ _).bind _ = _
        rw [stored, Option.bind_some]
        exact again
      · have small : value.toNat < 100 := UInt64.not_le.mp several
        rw [if_neg several]
        by_cases one : value < 10
        · have digit : value.toNat < 10 := one
          rw [if_pos one]
          rw [natNumeral_of_lt digit] at room ⊢
          obtain ⟨first, rfl⟩ := List.length_eq_one_iff.mp room
          have char : 48 + value.toUInt8 = digitChar value.toNat := by
            rw [digitChar, UInt8.ofNat_add, ← UInt64.ofNat_toNat (x := value)]
            simp
          have place : dst + next = (front.length : Int) := by simp at last; omega
          rw [char, place, List.append_assoc, List.append_assoc]
          exact Block.store_append front back first _
        · have two : 10 ≤ value.toNat := UInt64.not_lt.mp one
          have pair : (value * 2).toNat = 2 * value.toNat := by
            rw [UInt64.toNat_mul]
            change value.toNat * 2 % 2 ^ 64 = _
            omega
          rw [if_neg one, pair]
          rw [natNumeral_of_lt_hundred two small] at room ⊢
          obtain ⟨first, second, rfl⟩ := List.length_eq_two.mp room
          have stored := @storePair_eq front back first second _ dst next small
            (by simp at last; omega)
          simpa using stored

end

/-- The answer of a writer: where the text and a NUL fit into the buffer they are put at its
start and the length is answered, else the answer is 0. The buffer keeps its size. -/
def WritesText (text buffer : Block) (answer : Nat × Block) : Prop :=
  answer.2.length = buffer.length ∧
    if text.length + 1 ≤ buffer.length then
      answer = (text.length, text ++ 0 :: buffer.drop (text.length + 1))
    else answer.1 = 0

section

variable {front rest buffer : Block}

/-- The label `err` only writes inside. -/
theorem numeralError_eq : ∃ after, numeralError (front ++ rest) front.length rest.length =
    some (0, front ++ after) ∧ after.length = rest.length := by
  cases rest with
  | nil => exact ⟨[], rfl, rfl⟩
  | cons first rest =>
      refine ⟨0 :: rest, ?_, rfl⟩
      rw [numeralError, if_pos (by simp), Block.store_append]
      rfl

/-- `ull2string` writes the numeral where it is told to. -/
theorem ull2string_writes (value : UInt64) : ∃ n after,
    ull2string (front ++ rest) front.length rest.length value = some (n, front ++ after) ∧
      WritesText (natNumeral value.toNat) rest (n, after) := by
  rw [ull2string, digits10_eq]
  by_cases full : (natNumeral value.toNat).length ≥ rest.length
  · obtain ⟨after, error, length⟩ := @numeralError_eq front rest
    exact ⟨0, after, by rw [if_pos full, error], length, by rw [if_neg (by omega)]⟩
  · let old := rest.take (natNumeral value.toNat).length
    have oldLength : old.length = (natNumeral value.toNat).length := by simp [old]; omega
    obtain ⟨last, parts⟩ : ∃ last, rest =
        old ++ last :: rest.drop ((natNumeral value.toNat).length + 1) := by
      refine ⟨rest[(natNumeral value.toNat).length], ?_⟩
      rw [← List.drop_eq_getElem_cons, List.take_append_drop]
    let back := rest.drop ((natNumeral value.toNat).length + 1)
    have ended := Block.store_append (front ++ old) back last 0
    have place : (front.length : Int) + (((natNumeral value.toNat).length : Int) - 1 + 1) =
        ((front ++ old).length : Nat) := by
      rw [List.length_append, oldLength]
      omega
    have looped := @ull2stringLoop_eq front old (0 :: back) front.length
      ((natNumeral value.toNat).length - 1) value oldLength (by omega)
    refine ⟨(natNumeral value.toNat).length, natNumeral value.toNat ++ 0 :: back, ?_, ?_, ?_⟩
    · have stored : Block.store (front ++ rest)
          ((front.length : Int) + (((natNumeral value.toNat).length : Int) - 1 + 1)) 0 =
            some (front ++ old ++ 0 :: back) := by
        rw [place, ← ended, List.append_assoc]
        exact congrArg (fun bytes => Block.store (front ++ bytes) _ 0) parts
      rw [if_neg full]
      change (Block.store _ _ _).bind _ = _
      rw [stored, Option.bind_some]
      change (ull2stringLoop _ _ _ _).bind _ = _
      rw [looped, Option.bind_some, List.append_assoc]
    · simp [back]
      omega
    · rw [if_pos (by omega)]

/-- The magnitude of a signed number, as an unsigned one. -/
theorem magnitude_toNat {svalue : Int64} (negative : svalue < 0) :
    (if svalue ≠ Int64.minValue then (-svalue).toUInt64
      else Int64.maxValue.toUInt64 + 1).toNat = svalue.toInt.natAbs := by
  have below : svalue.toInt < 0 := Int64.lt_iff_toInt_lt.mp negative
  by_cases least : svalue = Int64.minValue
  · subst least
    rfl
  · have above : -2 ^ 63 ≤ svalue.toInt := svalue.le_toInt
    have above' : svalue.toInt ≠ -2 ^ 63 := fun same => least (Int64.toInt_inj.mp same)
    have opposite : (-svalue).toInt = -svalue.toInt := by
      rw [Int64.toInt_neg]
      exact Int.bmod_eq_of_le (by omega) (by omega)
    have order : 0 ≤ -svalue := by
      rw [Int64.le_iff_toInt_le, opposite]
      change 0 ≤ -svalue.toInt
      omega
    rw [if_pos least, Int64.toNat_toUInt64_of_le order]
    have cast := Int64.cast_toNatClampNeg (-svalue) order
    omega

/-- `ll2string` writes the numeral of every `long long`, if the buffer has room for it. -/
theorem ll2string_writes (buffer : Block) (svalue : Int64) :
    ∃ answer, ll2string buffer svalue = some answer ∧
      WritesText (numeral svalue.toInt) buffer answer := by
  rw [ll2string, numeral]
  by_cases negative : svalue < 0
  · have negative' : svalue.toInt < 0 := Int64.lt_iff_toInt_lt.mp negative
    simp only [if_pos negative, if_pos negative']
    have magnitude := magnitude_toNat negative
    generalize (if svalue ≠ Int64.minValue then (-svalue).toUInt64
      else Int64.maxValue.toUInt64 + 1) = value at magnitude ⊢
    match buffer with
    | [] => exact ⟨(0, []), rfl, rfl, by simp⟩
    | [only] => exact ⟨(0, [0]), rfl, rfl, by simp⟩
    | first :: second :: rest =>
        obtain ⟨n, after, written, length, writes⟩ :=
          @ull2string_writes [UInt8.ofNat '-'.toNat] (second :: rest) value
        have signed : Block.store (first :: second :: rest) 0 (UInt8.ofNat '-'.toNat) =
            some (UInt8.ofNat '-'.toNat :: second :: rest) := Block.store_append [] _ first _
        have written' : ull2string (UInt8.ofNat '-'.toNat :: second :: rest) 1
            ((first :: second :: rest).length - 1) value =
              some (n, UInt8.ofNat '-'.toNat :: after) := written
        rw [magnitude] at writes
        refine ⟨(if n = 0 then 0 else n + 1, UInt8.ofNat '-'.toNat :: after), ?_, ?_, ?_⟩
        · have long : ¬ (first :: second :: rest).length < 2 := by simp
          rw [if_neg long]
          change (Block.store _ _ _).bind _ = _
          rw [signed, Option.bind_some]
          change (ull2string _ _ _ _).bind _ = _
          rw [written', Option.bind_some]
        · simpa using length
        · by_cases fits : (natNumeral svalue.toInt.natAbs).length + 1 ≤ (second :: rest).length
          · have some := @length_natNumeral_pos svalue.toInt.natAbs
            rw [if_pos fits] at writes
            cases writes
            rw [if_pos (by simpa using fits), if_neg (by omega)]
            rfl
          · rw [if_neg fits] at writes
            rw [if_neg (by simpa using fits)]
            exact if_pos writes
  · have positive : ¬ svalue.toInt < 0 := fun less => negative (Int64.lt_iff_toInt_lt.mpr less)
    have same : svalue.toUInt64.toNat = svalue.toInt.natAbs := by
      have order : 0 ≤ svalue := Int64.not_lt.mp negative
      rw [Int64.toNat_toUInt64_of_le order]
      have cast := Int64.cast_toNatClampNeg svalue order
      omega
    obtain ⟨n, after, written, writes⟩ :=
      @ull2string_writes [] buffer svalue.toUInt64
    rw [same] at writes
    exact ⟨(n, after), by simpa [negative] using written, by simpa [positive] using writes⟩

end

/-- The text of a number in `dbuf`. There would be none after an access outside of it. -/
def ll2stringText (svalue : Int64) : Bytes :=
  match ll2string (List.replicate 64 0) svalue with
  | some (length, dbuf) => dbuf.take length
  | none => []

/-- The buffer is large enough for every number. -/
theorem ll2stringText_eq (svalue : Int64) : ll2stringText svalue = numeral svalue.toInt := by
  obtain ⟨answer, written, -, writes⟩ := ll2string_writes (List.replicate 64 0) svalue
  have room : (numeral svalue.toInt).length + 1 ≤ (List.replicate 64 (0 : UInt8)).length := by
    have lower : -2 ^ 63 ≤ svalue.toInt := svalue.le_toInt
    have upper : svalue.toInt < 2 ^ 63 := svalue.toInt_lt
    have digits := @length_natNumeral_le svalue.toInt.natAbs 18 (by omega)
    rw [List.length_replicate, numeral]
    split
    · rw [List.length_cons]
      omega
    · omega
  rw [if_pos room] at writes
  rw [ll2stringText, written, writes]
  exact List.take_left

end ValkeyLuajit
