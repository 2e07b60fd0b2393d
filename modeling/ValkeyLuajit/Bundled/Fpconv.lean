import ValkeyLuajit.Function.Register
import ValkeyLuajit.Lua.Double
import ValkeyLuajit.Script.CallReply

/-!
# Numbers as text

`fpconv.c`, and `strtod` and `snprintf` as it uses them: a number is read and written with the
point of the locale, and `fpconv.c` puts a dot where that has another point.
-/

namespace ValkeyLuajit

open Lua

/-- `isxdigit`. -/
def isHexDigit (char : UInt8) : Bool :=
  isDigit char || decide (97 ≤ toLower char ∧ toLower char ≤ 102)

/-- `isspace`. -/
def isSpace (char : UInt8) : Bool := char = 32 || decide (9 ≤ char ∧ char ≤ 13)

/-- What a digit is worth, in base ten or sixteen. -/
def digitWorth (char : UInt8) : Nat :=
  if isDigit char then char.toNat - 48 else (toLower char).toNat - 87

/-- What digits are worth. -/
def worth (base : Nat) (digits : Bytes) : Nat :=
  digits.foldl (fun (n : Nat) (char : UInt8) => base * n + digitWorth char) 0

/-- The sign at the start of a text. -/
def signOf (text : Bytes) : Bytes :=
  if text.head? = some 0x2d ∨ text.head? = some 0x2b then text.take 1 else []

/-- Digits around a point, and how many bytes they take. -/
structure Places where
  whole : Bytes
  fraction : Bytes
  used : Nat

/-- The digits and the point at the start of a text. -/
def places (digit : UInt8 → Bool) (point : UInt8) (text : Bytes) : Places :=
  let whole := text.takeWhile digit
  let rest := text.dropWhile digit
  if rest.head? = some point then
    let fraction := rest.tail.takeWhile digit
    ⟨whole, fraction, whole.length + 1 + fraction.length⟩
  else ⟨whole, [], whole.length⟩

/-- The exponent at the start of a text, behind this letter in either case, and how many bytes
it takes. -/
def exponentOf (letter : UInt8) (text : Bytes) : Int × Nat :=
  let sign := signOf text.tail
  let digits := (text.tail.drop sign.length).takeWhile isDigit
  if text.head?.map toLower = some letter ∧ digits ≠ [] then
    (if sign = [0x2d] then -(worth 10 digits : Int) else worth 10 digits,
      1 + sign.length + digits.length)
  else (0, 0)

/-- How many bytes a name in brackets takes at the start of a text. -/
def nanName (text : Bytes) : Nat :=
  let name := text.tail.takeWhile fun char =>
    isDigit char || decide (97 ≤ toLower char ∧ toLower char ≤ 122) || char = 0x5f
  if text.head? = some 0x28 ∧ (text.tail.drop name.length).head? = some 0x29 then name.length + 2
  else 0

/-- `strtod` behind the sign. -/
def strtodUnsigned (point : UInt8) (text : Bytes) : Number × Nat :=
  let hex := places isHexDigit point (text.drop 2)
  let decimal := places isDigit point text
  let lower := text.map toLower
  if lower.take 2 = bytes "0x" ∧ hex.whole ++ hex.fraction ≠ [] then
    let exponent := exponentOf 0x70 (text.drop (2 + hex.used))
    (toDouble (worth 16 (hex.whole ++ hex.fraction) *
      (2 : Rat) ^ (exponent.1 - 4 * (hex.fraction.length : Int))), 2 + hex.used + exponent.2)
  else if decimal.whole ++ decimal.fraction ≠ [] then
    let exponent := exponentOf 0x65 (text.drop decimal.used)
    (toDouble (worth 10 (decimal.whole ++ decimal.fraction) *
      (10 : Rat) ^ (exponent.1 - (decimal.fraction.length : Int))), decimal.used + exponent.2)
  else if lower.take 8 = bytes "infinity" then (.infinite false, 8)
  else if lower.take 3 = bytes "inf" then (.infinite false, 3)
  else if lower.take 3 = bytes "nan" then (.nan, 3 + nanName (text.drop 3))
  else (.finite 0, 0)

/-- `strtod` in a locale with this point: the number, and how many bytes it was read from. -/
def strtod (point : UInt8) (text : Bytes) : Number × Nat :=
  let blanks := text.takeWhile isSpace
  let rest := text.dropWhile isSpace
  let sign := signOf rest
  let found := strtodUnsigned point (rest.drop sign.length)
  if found.2 = 0 then (.finite 0, 0)
  else (if sign = [0x2d] then negated found.1 else found.1, blanks.length + sign.length + found.2)

/-- `snprintf` with the format `%.{precision}g`, in a locale with this point. -/
def formatG (point : UInt8) (precision : Nat) : Number → Bytes
  | .finite value => (Scientific.general (precision - 1) (decide (value < 0)) |value|).text point
  | .infinite negative => bytes (if negative then "-inf" else "inf")
  | .nan => bytes "nan"

/-- `.`. -/
def dot : UInt8 := 0x2e

/-- `FPCONV_G_FMT_BUFSIZE`. -/
def fpconvGFmtBufsize : Nat := 32

/-- `valid_number_character`. -/
def validNumberCharacter (ch : UInt8) : Bool :=
  if 48 ≤ ch ∧ ch ≤ 57 then true
  else if ch = 0x2d ∨ ch = 0x2b ∨ ch = dot then true
  else
    let lowerCh := ch ||| 0x20
    decide (97 ≤ lowerCh ∧ lowerCh ≤ 121)

/-- `strtod_buffer_size`. -/
def strtodBufferSize (s : Bytes) : Nat := (s.takeWhile validNumberCharacter).length

/-- The first dot is replaced. -/
def setPoint (point : UInt8) : Bytes → Bytes
  | [] => []
  | char :: rest => if char = dot then point :: rest else char :: setPoint point rest

/-- `fpconv_strtod`. -/
def fpconvStrtod (point : UInt8) (nptr : Bytes) : Number × Nat :=
  if point = dot then strtod point nptr
  else
    let buflen := strtodBufferSize nptr
    if buflen = 0 then (.finite 0, 0)
    else strtod point (setPoint point (nptr.take buflen))

/-- `fpconv_g_fmt`: the bytes it writes, with a NUL behind them, and the length it returns. -/
def fpconvGFmt (point : UInt8) (num : Number) (precision : Nat) : Bytes × Nat :=
  let text := formatG point precision num
  let buf := text.take (fpconvGFmtBufsize - 1) ++ [0]
  if point = dot then (buf, text.length)
  else (buf.map fun b => if b = point then dot else b, text.length)

/-- A character that a locale may have as its point: none that numbers are made of besides,
and none that ends a string. -/
def IsPoint (point : UInt8) : Prop :=
  point = dot ∨ validNumberCharacter point = false ∧ point ≠ 0

section Numerals

variable {point : UInt8} {tail rest : Bytes}

theorem isDigit_digitChar : ∀ digit : Fin 10, isDigit (digitChar digit.val) = true := by decide

theorem digitWorth_digitChar : ∀ digit : Fin 10, digitWorth (digitChar digit.val) = digit.val := by
  decide

theorem valid_digitChar :
    ∀ digit : Fin 10, validNumberCharacter (digitChar digit.val) = true := by decide

/-- A character that numbers are not made of is not one of these. -/
theorem ne_of_invalid {char other : UInt8} (invalid : validNumberCharacter char = false)
    (valid : validNumberCharacter other = true) : char ≠ other := by
  rintro rfl
  rw [invalid] at valid
  cases valid

theorem not_isDigit_of_invalid {char : UInt8} (invalid : validNumberCharacter char = false) :
    isDigit char = false := by
  cases digit : isDigit char with
  | false => rfl
  | true =>
      have range : 48 ≤ char ∧ char ≤ 57 := by simpa [isDigit] using digit
      rw [validNumberCharacter, if_pos range] at invalid
      cases invalid

theorem IsPoint.not_isDigit (isPoint : IsPoint point) : isDigit point = false := by
  rcases isPoint with rfl | ⟨invalid, -⟩
  · decide
  · exact not_isDigit_of_invalid invalid

/-- A point is none of the other characters of a numeral. -/
theorem IsPoint.ne (isPoint : IsPoint point) {other : UInt8}
    (valid : validNumberCharacter other = true) (ne : other ≠ dot) : point ≠ other := by
  rcases isPoint with rfl | ⟨invalid, -⟩
  · exact ne.symm
  · exact ne_of_invalid invalid valid

/-- What follows a numeral does not go on with it. -/
def Ended (point : UInt8) (rest : Bytes) : Prop :=
  ∀ char ∈ rest.head?, validNumberCharacter char = false ∧ char ≠ point

theorem worth_digitText (digits : List (Fin 10)) : worth 10 (digitText digits) = digitsValue digits := by
  induction digits using List.reverseRecOn with
  | nil => rfl
  | append_singleton digits digit inductionHypothesis =>
      have front : worth 10 (digitText (digits ++ [digit])) =
          10 * worth 10 (digitText digits) + digitWorth (digitChar digit.val) := by
        simp [worth, digitText]
      rw [front, inductionHypothesis, digitWorth_digitChar]
      simp [digitsValue]

theorem takeWhile_digitText (digits : List (Fin 10))
    (stops : ∀ char ∈ tail.head?, isDigit char = false) :
    (digitText digits ++ tail).takeWhile isDigit = digitText digits ∧
      (digitText digits ++ tail).dropWhile isDigit = tail := by
  have all : ∀ char ∈ digitText digits, isDigit char = true := by
    intro char member
    obtain ⟨digit, -, rfl⟩ := List.mem_map.mp member
    exact isDigit_digitChar digit
  have stopped : tail.takeWhile isDigit = [] ∧ tail.dropWhile isDigit = tail := by
    cases tail with
    | nil => exact ⟨rfl, rfl⟩
    | cons char tail => simp [stops char rfl]
  rw [List.takeWhile_append_of_pos all, List.dropWhile_append_of_pos all, stopped.1, stopped.2,
    List.append_nil]
  exact ⟨rfl, rfl⟩

/-- The digits around a point are found. -/
theorem places_digitText (whole fraction : List (Fin 10)) (isPoint : IsPoint point)
    (stops : ∀ char ∈ tail.head?, isDigit char = false ∧ char ≠ point) :
    places isDigit point (digitText whole ++
        ((if fraction = [] then [] else point :: digitText fraction) ++ tail)) =
      ⟨digitText whole, digitText fraction, (digitText whole ++
        (if fraction = [] then [] else point :: digitText fraction)).length⟩ := by
  by_cases none : fraction = []
  · subst none
    obtain ⟨taken, dropped⟩ := takeWhile_digitText whole fun char first => (stops char first).1
    have other : tail.head? ≠ some point := fun same => (stops point same).2 rfl
    simp only [places, if_pos, List.nil_append, List.append_nil, taken, dropped, if_neg other]
    rfl
  · obtain ⟨taken, dropped⟩ := takeWhile_digitText whole
      (show ∀ char ∈ (point :: digitText fraction ++ tail).head?, isDigit char = false by
        simpa using isPoint.not_isDigit)
    obtain ⟨behind, -⟩ := takeWhile_digitText fraction fun char first => (stops char first).1
    have first : (point :: digitText fraction ++ tail).head? = some point := rfl
    have rest : (point :: digitText fraction ++ tail).tail = digitText fraction ++ tail := rfl
    simp only [places, if_neg none, taken, dropped, if_pos first, rest, behind, List.length_append,
      List.length_cons]
    congr 1
    omega

/-- An exponent is found. -/
theorem exponentOf_text (exponent : Exponent)
    (stops : ∀ char ∈ tail.head?, isDigit char = false) :
    exponentOf 0x65 (exponent.text ++ tail) = (exponent.value, exponent.text.length) := by
  obtain ⟨letter, sign, first, more, isLetter, isSign⟩ := exponent
  have lower : toLower letter = 0x65 := by rcases isLetter with rfl | rfl <;> decide
  have signed : signOf (sign.toList ++ (digitText (first :: more) ++ tail)) = sign.toList := by
    cases sign with
    | none =>
        have plus : ∀ digit : Fin 10, digitChar digit.val ≠ 0x2d ∧ digitChar digit.val ≠ 0x2b := by
          decide
        obtain ⟨notMinus, notPlus⟩ := plus first
        simp [signOf, digitText, notMinus, notPlus]
    | some char => rcases isSign char rfl with rfl | rfl <;> rfl
  obtain ⟨taken, -⟩ := takeWhile_digitText (first :: more) stops
  have some : digitText (first :: more) ≠ [] := by simp [digitText]
  have minus : sign.toList = [0x2d] ↔ sign = Option.some 0x2d := by cases sign <;> simp
  simp only [exponentOf, Exponent.text, Exponent.digits, List.cons_append, List.append_assoc,
    List.tail_cons, List.head?_cons, Option.map_some, lower, signed, List.drop_left, taken]
  rw [if_pos ⟨trivial, some⟩, worth_digitText]
  simp only [minus, Exponent.value, Exponent.digits, List.length_cons, List.length_append]
  congr 1
  omega

theorem exponentOf_none (stops : ∀ char ∈ tail.head?, toLower char ≠ 0x65) :
    exponentOf 0x65 tail = (0, 0) := by
  rw [exponentOf, if_neg]
  rintro ⟨first, -⟩
  cases tail with
  | nil => cases first
  | cons char tail =>
      apply stops char rfl
      simpa using first

/-- What the places after the first digit can start with. -/
theorem head_of_tail {numeral : Scientific} {char : UInt8}
    (head : char ∈ (digitText numeral.more ++
      ((if numeral.fraction = [] then [] else point :: digitText numeral.fraction) ++
        ((numeral.exponent.map Exponent.text).getD [] ++ rest))).head?) :
    (∃ digit : Fin 10, char = digitChar digit.val) ∨ char = point ∨
      (char = 0x65 ∨ char = 0x45) ∨ char ∈ rest.head? := by
  obtain ⟨negative, first, more, fraction, exponent⟩ := numeral
  cases more with
  | cons digit more => exact .inl ⟨digit, by simpa [digitText] using head.symm⟩
  | nil =>
      by_cases none : fraction = []
      · rw [if_pos none] at head
        cases exponent with
        | none => exact .inr (.inr (.inr (by simpa [digitText] using head)))
        | some exponent =>
            obtain rfl : exponent.letter = char := by
              simpa [digitText, Exponent.text] using head
            exact .inr (.inr (.inl exponent.isLetter))
      · rw [if_neg none] at head
        exact .inr (.inl (by simpa [digitText] using head.symm))

theorem toLower_eq {char lower : UInt8} (same : toLower char = lower) :
    char = lower ∨ char = lower - 32 := by
  rw [toLower] at same
  split at same
  · exact .inr (UInt8.eq_sub_iff_add_eq.mpr same)
  · exact .inl same

/-- The text without its sign. -/
def Scientific.unsigned (point : UInt8) (numeral : Scientific) : Bytes :=
  digitText numeral.whole ++
    ((if numeral.fraction = [] then [] else point :: digitText numeral.fraction) ++
      (numeral.exponent.map Exponent.text).getD [])

/-- A numeral is read to its end. -/
theorem strtodUnsigned_text (numeral : Scientific) (isPoint : IsPoint point)
    (ended : Ended point rest) : strtodUnsigned point (numeral.unsigned point ++ rest) =
      (toDouble numeral.magnitude, (numeral.unsigned point).length) := by
  let mark : Bytes := if numeral.fraction = [] then [] else point :: digitText numeral.fraction
  let power : Bytes := (numeral.exponent.map Exponent.text).getD []
  have text : numeral.unsigned point ++ rest =
      digitText numeral.whole ++ (mark ++ (power ++ rest)) := by
    simp [Scientific.unsigned, mark, power]
  have letters : validNumberCharacter 0x65 = true ∧ validNumberCharacter 0x45 = true := by decide
  have crosses : validNumberCharacter 0x78 = true ∧ validNumberCharacter 0x58 = true := by decide
  -- The second character is no `x`.
  have decimal : ((numeral.unsigned point ++ rest).map toLower).take 2 ≠ bytes "0x" := by
    intro hex
    have parts : numeral.unsigned point ++ rest =
        digitChar numeral.first.val :: (digitText numeral.more ++ (mark ++ (power ++ rest))) := text
    obtain ⟨char, head, cross⟩ : ∃ char ∈ (digitText numeral.more ++ (mark ++ (power ++ rest))).head?,
        char = 0x78 ∨ char = 0x58 := by
      rw [parts] at hex
      cases follow : digitText numeral.more ++ (mark ++ (power ++ rest)) with
      | nil => simp [follow, bytes] at hex
      | cons char follow' =>
          rw [follow] at hex
          have lower : toLower (digitChar numeral.first.val) = 0x30 ∧ toLower char = 0x78 := by
            simpa [bytes] using hex
          exact ⟨char, rfl, toLower_eq lower.2⟩
    rcases head_of_tail head with ⟨digit, rfl⟩ | rfl | (rfl | rfl) | head
    · have digits : ∀ digit : Fin 10, ¬ (digitChar digit.val = 0x78 ∨ digitChar digit.val = 0x58) := by
        decide
      exact digits digit cross
    · rcases cross with cross | cross
      · exact isPoint.ne crosses.1 (by decide) cross
      · exact isPoint.ne crosses.2 (by decide) cross
    · revert cross
      decide
    · revert cross
      decide
    · have invalid := (ended char head).1
      rcases cross with rfl | rfl
      · exact ne_of_invalid invalid crosses.1 rfl
      · exact ne_of_invalid invalid crosses.2 rfl
  have stops : ∀ char ∈ (power ++ rest).head?, isDigit char = false ∧ char ≠ point := by
    intro char head
    cases exponent : numeral.exponent with
    | none =>
        have first := ended char (by simpa [power, exponent] using head)
        exact ⟨not_isDigit_of_invalid first.1, first.2⟩
    | some given =>
        obtain rfl : given.letter = char := by
          simpa [power, exponent, Exponent.text] using head
        rcases given.isLetter with same | same <;> rw [same]
        · exact ⟨by decide, fun same => isPoint.ne letters.1 (by decide) same.symm⟩
        · exact ⟨by decide, fun same => isPoint.ne letters.2 (by decide) same.symm⟩
  have found := places_digitText numeral.whole numeral.fraction isPoint stops
  have scale : exponentOf 0x65 (power ++ rest) = (numeral.scale, power.length) := by
    cases exponent : numeral.exponent with
    | none =>
        have none : power = [] := by simp [power, exponent]
        rw [none, List.nil_append, Scientific.scale, exponent]
        apply exponentOf_none
        intro char head same
        have invalid := (ended char head).1
        rcases toLower_eq same with rfl | rfl
        · exact ne_of_invalid invalid letters.1 rfl
        · exact ne_of_invalid invalid letters.2 rfl
    | some given =>
        have same : power = given.text := by simp [power, exponent]
        have digitless : ∀ char ∈ rest.head?, isDigit char = false :=
          fun char head => not_isDigit_of_invalid (ended char head).1
        rw [same, exponentOf_text given digitless, Scientific.scale, exponent]
        rfl
  have some : digitText numeral.whole ++ digitText numeral.fraction ≠ [] := by
    simp [Scientific.whole, digitText]
  have digits : digitText numeral.whole ++ digitText numeral.fraction =
      digitText (numeral.whole ++ numeral.fraction) := List.map_append.symm
  have behind : (numeral.unsigned point ++ rest).drop (digitText numeral.whole ++ mark).length =
      power ++ rest := by
    rw [text, ← List.append_assoc, List.drop_left]
  have start : places isDigit point (numeral.unsigned point ++ rest) =
      ⟨digitText numeral.whole, digitText numeral.fraction, (digitText numeral.whole ++ mark).length⟩ := by
    rw [text]
    exact found
  have length : (digitText numeral.fraction).length = numeral.fraction.length := List.length_map ..
  simp only [strtodUnsigned]
  rw [if_neg (fun hex => decimal hex.1), start]
  simp only
  rw [if_pos some, behind, scale, digits, worth_digitText, length, Scientific.magnitude]
  congr 1
  rw [← List.length_append, List.append_assoc]
  rfl

/-- A numeral is read to its end, and comes to the `double` nearest to what it stands for. -/
theorem strtod_text (numeral : Scientific) (isPoint : IsPoint point) (ended : Ended point rest) :
    strtod point (numeral.text point ++ rest) =
      (toDouble numeral.value, (numeral.text point).length) := by
  have unsigned := strtodUnsigned_text numeral isPoint ended
  have positive : (0 : Rat) ≤ numeral.magnitude := by
    rw [Scientific.magnitude]
    exact mul_nonneg (Nat.cast_nonneg _) (zpow_nonneg (by decide) _)
  have some : (numeral.unsigned point).length ≠ 0 := by
    simp [Scientific.unsigned, Scientific.whole, digitText]
  have text : numeral.text point =
      (if numeral.negative then [0x2d] else []) ++ numeral.unsigned point := rfl
  have digits : ∀ digit : Fin 10, isSpace (digitChar digit.val) = false ∧
      digitChar digit.val ≠ 0x2d ∧ digitChar digit.val ≠ 0x2b := by decide
  obtain ⟨noSpace, notMinus, notPlus⟩ := digits numeral.first
  obtain ⟨others, first⟩ : ∃ others, numeral.unsigned point ++ rest =
      digitChar numeral.first.val :: others := ⟨_, rfl⟩
  cases negative : numeral.negative with
  | false =>
      have whole : numeral.text point ++ rest = numeral.unsigned point ++ rest := by
        simp [text, negative]
      have blanks : (numeral.unsigned point ++ rest).takeWhile isSpace = [] ∧
          (numeral.unsigned point ++ rest).dropWhile isSpace = numeral.unsigned point ++ rest := by
        simp [first, noSpace]
      have sign : signOf (numeral.unsigned point ++ rest) = [] := by
        simp [signOf, first, notMinus, notPlus]
      simp only [strtod, whole, blanks.1, blanks.2, sign, List.length_nil, List.drop_zero, unsigned]
      rw [if_neg some, if_neg (by simp), Scientific.value, negative, if_neg (by simp), text,
        negative]
      simp
  | true =>
      have whole : numeral.text point ++ rest = 0x2d :: (numeral.unsigned point ++ rest) := by
        simp [text, negative]
      have blanks : (0x2d :: (numeral.unsigned point ++ rest)).takeWhile isSpace = [] ∧
          (0x2d :: (numeral.unsigned point ++ rest)).dropWhile isSpace =
            0x2d :: (numeral.unsigned point ++ rest) := ⟨rfl, rfl⟩
      have sign : signOf (0x2d :: (numeral.unsigned point ++ rest)) = [0x2d] := rfl
      simp only [strtod, whole, blanks.1, blanks.2, sign, List.length_nil, List.length_singleton,
        List.drop_succ_cons, List.drop_zero, unsigned]
      rw [if_neg some, if_pos trivial, Scientific.value, negative, if_pos rfl, toDouble_neg positive,
        text, negative]
      simp [Nat.add_comm]

end Numerals

section Locales

variable {point : UInt8} {numeral : Scientific} {rest : Bytes}

/-- A character of a numeral besides its point. -/
def IsNumeralChar (char : UInt8) : Prop := validNumberCharacter char = true ∧ char ≠ dot

theorem isNumeralChar_digitText {digits : List (Fin 10)} :
    ∀ char ∈ digitText digits, IsNumeralChar char := by
  intro char member
  obtain ⟨digit, -, rfl⟩ := List.mem_map.mp member
  have notDot : ∀ digit : Fin 10, digitChar digit.val ≠ dot := by decide
  exact ⟨valid_digitChar digit, notDot digit⟩

theorem isNumeralChar_exponent {exponent : Exponent} :
    ∀ char ∈ exponent.text, IsNumeralChar char := by
  obtain ⟨letter, sign, first, more, isLetter, isSign⟩ := exponent
  intro char member
  rcases List.mem_cons.mp member with rfl | member
  · rcases isLetter with same | same <;> rw [same] <;> exact ⟨by decide, by decide⟩
  · rcases List.mem_append.mp member with member | member
    · rcases isSign char (by simpa using member) with rfl | rfl <;> exact ⟨by decide, by decide⟩
    · exact isNumeralChar_digitText char member

/-- In whatever locale, a numeral differs in the point only. -/
theorem Scientific.text_parts (numeral : Scientific) : ∃ front back : Bytes,
    (∀ char ∈ front ++ back, IsNumeralChar char) ∧
      ((∀ point, numeral.text point = front ++ point :: back) ∨
        back = [] ∧ ∀ point, numeral.text point = front) := by
  let power : Bytes := (numeral.exponent.map Exponent.text).getD []
  let sign : Bytes := if numeral.negative then [0x2d] else []
  have powers : ∀ char ∈ power, IsNumeralChar char := by
    intro char member
    cases exponent : numeral.exponent with
    | none => simp [power, exponent] at member
    | some given =>
        exact isNumeralChar_exponent char (by simpa [power, exponent] using member)
  have signs : ∀ char ∈ sign, IsNumeralChar char := by
    intro char member
    cases negative : numeral.negative with
    | false => simp [sign, negative] at member
    | true =>
        obtain rfl : char = 0x2d := by simpa [sign, negative] using member
        exact ⟨by decide, by decide⟩
  by_cases none : numeral.fraction = []
  · refine ⟨sign ++ (digitText numeral.whole ++ power), [], ?_, .inr ⟨rfl, fun point => ?_⟩⟩
    · simp only [List.append_nil, List.mem_append]
      rintro char (member | member | member)
      · exact signs char member
      · exact isNumeralChar_digitText char member
      · exact powers char member
    · rw [text, if_pos none]
      rfl
  · refine ⟨sign ++ digitText numeral.whole, digitText numeral.fraction ++ power, ?_,
      .inl fun point => ?_⟩
    · simp only [List.mem_append]
      rintro char ((member | member) | member | member)
      · exact signs char member
      · exact isNumeralChar_digitText char member
      · exact isNumeralChar_digitText char member
      · exact powers char member
    · rw [text, if_neg none, List.append_assoc]
      rfl

theorem setPoint_of_not_mem {text : Bytes} (none : dot ∉ text) (point : UInt8) :
    setPoint point text = text := by
  induction text with
  | nil => rfl
  | cons char text inductionHypothesis =>
      obtain ⟨other, rest⟩ := not_or.mp (List.mem_cons.not.mp none)
      rw [setPoint, if_neg (Ne.symm other), inductionHypothesis rest]

theorem setPoint_append {front : Bytes} (none : dot ∉ front) (point : UInt8) (back : Bytes) :
    setPoint point (front ++ dot :: back) = front ++ point :: back := by
  induction front with
  | nil => rfl
  | cons char front inductionHypothesis =>
      obtain ⟨other, rest⟩ := not_or.mp (List.mem_cons.not.mp none)
      rw [List.cons_append, setPoint, if_neg (Ne.symm other), inductionHypothesis rest]
      rfl

/-- The first dot of a numeral is its point. -/
theorem setPoint_text (numeral : Scientific) (point : UInt8) :
    setPoint point (numeral.text dot) = numeral.text point := by
  obtain ⟨front, back, chars, text | ⟨-, text⟩⟩ := numeral.text_parts
  · rw [text, text, setPoint_append fun member => (chars dot (List.mem_append_left _ member)).2 rfl]
  · rw [text, text, setPoint_of_not_mem fun member => (chars dot (List.mem_append_left _ member)).2 rfl]

/-- The characters of a numeral are those that are looked for. -/
theorem takeWhile_text (numeral : Scientific)
    (ended : ∀ char ∈ rest.head?, validNumberCharacter char = false) :
    (numeral.text dot ++ rest).takeWhile validNumberCharacter = numeral.text dot := by
  have all : ∀ char ∈ numeral.text dot, validNumberCharacter char = true := by
    obtain ⟨front, back, chars, text | ⟨-, text⟩⟩ := numeral.text_parts
    · intro char member
      rw [text] at member
      rcases List.mem_append.mp member with member | member
      · exact (chars char (List.mem_append_left _ member)).1
      · rcases List.mem_cons.mp member with rfl | member
        · decide
        · exact (chars char (List.mem_append_right _ member)).1
    · intro char member
      rw [text] at member
      exact (chars char (List.mem_append_left _ member)).1
  rw [List.takeWhile_append_of_pos all]
  cases rest with
  | nil => simp
  | cons char rest => simp [ended char rfl]

theorem ended_of_invalid (ended : ∀ char ∈ rest.head?, validNumberCharacter char = false) :
    Ended dot rest :=
  fun char head => ⟨ended char head, ne_of_invalid (ended char head) (by decide)⟩

theorem length_text (numeral : Scientific) (point : UInt8) :
    (numeral.text point).length = (numeral.text dot).length := by
  obtain ⟨front, back, -, text | ⟨-, text⟩⟩ := numeral.text_parts <;> simp [text]

/-- In every locale a numeral is read to its end, with a dot as its point. -/
theorem fpconvStrtod_text (numeral : Scientific) (isPoint : IsPoint point)
    (ended : ∀ char ∈ rest.head?, validNumberCharacter char = false) :
    fpconvStrtod point (numeral.text dot ++ rest) =
      (toDouble numeral.value, (numeral.text dot).length) := by
  rw [fpconvStrtod]
  split
  · rename_i same
    rw [same]
    exact strtod_text numeral (.inl rfl) (ended_of_invalid ended)
  · have cut := takeWhile_text numeral ended
    have some : (numeral.text dot).length ≠ 0 := by simp [Scientific.text, Scientific.whole, digitText]
    have read : strtod point (numeral.text point ++ []) =
        (toDouble numeral.value, (numeral.text point).length) :=
      strtod_text numeral isPoint fun char head => by cases head
    simp only [strtodBufferSize, cut]
    rw [if_neg some, List.take_left, setPoint_text]
    rwa [List.append_nil, length_text numeral point] at read

/-- What has no point in it is not translated. -/
theorem map_point {text : Bytes} (isPoint : IsPoint point)
    (chars : ∀ char ∈ text, IsNumeralChar char) :
    text.map (fun b => if b = point then dot else b) = text := by
  conv_rhs => rw [← List.map_id text]
  apply List.map_congr_left
  intro char member
  obtain ⟨valid, notDot⟩ := chars char member
  exact if_neg fun same => isPoint.ne valid notDot same.symm

/-- The point is all that is translated. -/
theorem map_text (numeral : Scientific) (isPoint : IsPoint point) :
    (numeral.text point).map (fun b => if b = point then dot else b) = numeral.text dot := by
  obtain ⟨front, back, chars, text⟩ := numeral.text_parts
  have fronts := map_point isPoint fun char member => chars char (List.mem_append_left back member)
  have backs := map_point isPoint fun char member => chars char (List.mem_append_right front member)
  rcases text with text | ⟨-, text⟩
  · rw [text, text, List.map_append, List.map_cons, fronts, backs, if_pos rfl]
  · rw [text, text, fronts]

theorem IsPoint.ne_nul (isPoint : IsPoint point) : (0 : UInt8) ≠ point := by
  rintro rfl
  rcases isPoint with same | ⟨-, nonzero⟩
  · cases same
  · exact nonzero rfl

/-- In every locale a number is written as a numeral with a dot as its point. -/
theorem fpconvGFmt_finite {value : Rat} {precision : Nat} (isPoint : IsPoint point)
    (double : (Number.finite value).IsDouble) (few : precision ≤ 14) :
    fpconvGFmt point (.finite value) precision =
      ((Scientific.general (precision - 1) (decide (value < 0)) |value|).text dot ++ [0],
        ((Scientific.general (precision - 1) (decide (value < 0)) |value|).text dot).length) := by
  have length := Scientific.length_text_general (decide (value < 0)) point
    (scale_bounds (precision - 1) double)
  have same := length_text (Scientific.general (precision - 1) (decide (value < 0)) |value|) point
  have translated := map_text (Scientific.general (precision - 1) (decide (value < 0)) |value|) isPoint
  have text : formatG point precision (.finite value) =
      (Scientific.general (precision - 1) (decide (value < 0)) |value|).text point := rfl
  simp only [fpconvGFmt, text]
  generalize Scientific.general (precision - 1) (decide (value < 0)) |value| = numeral at *
  have short : (numeral.text point).length ≤ fpconvGFmtBufsize - 1 := by
    rw [fpconvGFmtBufsize]
    omega
  rw [List.take_of_length_le short, same]
  split
  · rename_i isDot
    rw [isDot]
  · rw [List.map_append, translated, List.map_singleton, if_neg isPoint.ne_nul]

/-- In every locale, what `fpconv_g_fmt` writes is read back by `fpconv_strtod` to its end, as the
number rounded to the digits that were written. A whole number of no more digits is the same
again. -/
theorem fpconvStrtod_fpconvGFmt {value : Rat} {precision : Nat} (isPoint : IsPoint point)
    (double : (Number.finite value).IsDouble) (few : precision ≤ 14)
    (ended : ∀ char ∈ rest.head?, validNumberCharacter char = false) :
    ∃ text read, fpconvGFmt point (.finite value) precision = (text ++ [0], text.length) ∧
      fpconvStrtod point (text ++ rest) = (read, text.length) ∧
      read = toDouble (if value < 0 then -roundedTo (precision - 1) |value|
        else roundedTo (precision - 1) |value|) ∧
      ∀ n : Nat, n < 10 ^ precision → |value| = n → read = .finite value := by
  refine ⟨_, _, fpconvGFmt_finite isPoint double few, fpconvStrtod_text _ isPoint ended, ?_, ?_⟩
  · rw [Scientific.value_general (abs_nonneg value)]
    simp only [decide_eq_true_eq]
  · intro n small whole
    have digits : 10 ^ precision ≤ 10 ^ (precision - 1 + 1) :=
      Nat.pow_le_pow_right (by decide) (by omega)
    rw [Scientific.value_general (abs_nonneg value), whole,
      roundedTo_natCast (small.trans_le digits), ← whole]
    have signed : (if decide (value < 0) = true then -|value| else |value|) = value := by
      simp only [decide_eq_true_eq]
      split
      · rename_i negative
        rw [abs_of_neg negative, neg_neg]
      · rename_i nonnegative
        exact abs_of_nonneg (not_lt.mp nonnegative)
    rw [signed, toDouble_eq double]

/-- A negative number in a locale with a comma, which also follows it. -/
theorem fpconvStrtod_comma : ∃ text read,
    fpconvGFmt 0x2c (.finite (-5 / 2)) 14 = (text ++ [0], text.length) ∧
      fpconvStrtod 0x2c (text ++ bytes ",1]") = (read, text.length) ∧
      read = toDouble (if (-5 / 2 : Rat) < 0 then -roundedTo (14 - 1) |(-5 / 2 : Rat)|
        else roundedTo (14 - 1) |(-5 / 2 : Rat)|) ∧
      ∀ n : Nat, n < 10 ^ 14 → |(-5 / 2 : Rat)| = n → read = .finite (-5 / 2) :=
  fpconvStrtod_fpconvGFmt (.inr (by decide))
    ⟨0x4004000000000000, by decide +kernel, by rw [abs_of_neg (by norm_num)]; decide +kernel⟩
    (by decide) fun char first => by
      obtain rfl : 0x2c = char := Option.mem_some.mp first
      decide

/-- So is an infinite number, and what is no number. -/
theorem fpconvGFmt_name {num : Number} (precision : Nat) (isPoint : IsPoint point)
    (name : ∀ value, num ≠ .finite value) : fpconvGFmt point num precision =
      (formatG dot precision num ++ [0], (formatG dot precision num).length) := by
  obtain ⟨text, same, short, chars⟩ : ∃ text : Bytes, (∀ point, formatG point precision num = text) ∧
      text.length ≤ 4 ∧ (text.all fun char => validNumberCharacter char && char != dot) = true := by
    cases num with
    | finite value => exact absurd rfl (name value)
    | infinite negative =>
        refine ⟨_, fun _ => rfl, ?_⟩
        cases negative <;> exact ⟨by decide, rfl⟩
    | nan => exact ⟨_, fun _ => rfl, by decide, rfl⟩
  have chars : ∀ char ∈ text, IsNumeralChar char := by
    intro char member
    have both := List.all_eq_true.mp chars char member
    simpa [IsNumeralChar] using both
  have cut : text.take (fpconvGFmtBufsize - 1) = text :=
    List.take_of_length_le (by rw [fpconvGFmtBufsize]; omega)
  simp only [fpconvGFmt, same, cut]
  split
  · rfl
  · rw [List.map_append, map_point isPoint chars, List.map_singleton, if_neg isPoint.ne_nul]

end Locales

end ValkeyLuajit
