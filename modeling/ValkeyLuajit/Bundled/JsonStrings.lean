import ValkeyLuajit.Bundled.JsonGrammar

/-!
# Decoding the strings of a JSON text

`lua_cjson.c`: the token of a string. `ptr` is what is left of the text, with the NUL behind it,
and `tmp` is a buffer that is as large as the text: nothing is checked when it is filled.
-/

namespace ValkeyLuajit

open Lua

/-- What `json_parse_t` says about the place in the text. -/
structure JsonParse where
  ptr : Bytes
  tmp : StrBuf

/-- The character `*(json->ptr + i)`. -/
def JsonParse.char (json : JsonParse) (i : Nat) : Except JsonStop UInt8 :=
  match json.ptr[i]? with
  | none => .error .outside
  | some ch => .ok ch

/-- `hexdigit2int`: nothing stands for -1. -/
def hexdigit2int (hex : UInt8) : Option Nat :=
  if 48 ≤ hex ∧ hex ≤ 57 then some (hex.toNat - 48)
  else
    let hex := hex ||| 0x20
    if 97 ≤ hex ∧ hex ≤ 102 then some (10 + hex.toNat - 97) else none

/-- The loop of `decode_hex4`. -/
def hexDigits : (count : Nat) → Bytes → Except JsonStop (Option (List Nat))
  | 0, _ => .ok (some [])
  | _ + 1, [] => .error .outside
  | count + 1, hex :: rest =>
      match hexdigit2int hex with
      | none => .ok none
      | some digit => (hexDigits count rest).map (Option.map (digit :: ·))

/-- The value of the digits in `decode_hex4`. -/
def hex4 : List Nat → Nat
  | [a, b, c, d] => (a <<< 12) + (b <<< 8) + (c <<< 4) + d
  | _ => 0

/-- `decode_hex4`: nothing stands for -1. -/
def decodeHex4 (hex : Bytes) : Except JsonStop (Option Nat) := (hexDigits 4 hex).map (Option.map hex4)

/-- `codepoint_to_utf8`: the bytes it writes. -/
def codepointToUtf8 (codepoint : Nat) : Bytes :=
  if codepoint ≤ 0x7f then [UInt8.ofNat codepoint]
  else if codepoint ≤ 0x7ff then
    [UInt8.ofNat (codepoint >>> 6 ||| 0xc0), UInt8.ofNat (codepoint &&& 0x3f ||| 0x80)]
  else if codepoint ≤ 0xffff then
    [UInt8.ofNat (codepoint >>> 12 ||| 0xe0), UInt8.ofNat (codepoint >>> 6 &&& 0x3f ||| 0x80),
      UInt8.ofNat (codepoint &&& 0x3f ||| 0x80)]
  else if codepoint ≤ 0x1fffff then
    [UInt8.ofNat (codepoint >>> 18 ||| 0xf0), UInt8.ofNat (codepoint >>> 12 &&& 0x3f ||| 0x80),
      UInt8.ofNat (codepoint >>> 6 &&& 0x3f ||| 0x80), UInt8.ofNat (codepoint &&& 0x3f ||| 0x80)]
  else []

/-- The end of `json_append_unicode_escape`. -/
def jsonAppendCodepoint (json : JsonParse) (codepoint escapeLen : Nat) :
    Except JsonStop (Option JsonParse) :=
  let utf8 := codepointToUtf8 codepoint
  if utf8.length = 0 then .ok none
  else (strbufAppendMemUnsafe json.tmp utf8).map fun tmp => some ⟨json.ptr.drop escapeLen, tmp⟩

/-- `json_append_unicode_escape` after the second code unit of a pair. -/
def jsonAppendPair (json : JsonParse) (codepoint : Nat) :
    Option Nat → Except JsonStop (Option JsonParse)
  | none => .ok none
  | some surrogateLow =>
      if surrogateLow &&& 0xfc00 ≠ 0xdc00 then .ok none
      else jsonAppendCodepoint json
        (((codepoint &&& 0x3ff) <<< 10 ||| surrogateLow &&& 0x3ff) + 0x10000) 12

/-- The branch of `json_append_unicode_escape` for surrogates. -/
def jsonAppendSurrogate (json : JsonParse) (codepoint : Nat) : Except JsonStop (Option JsonParse) :=
  if codepoint &&& 0x400 ≠ 0 then .ok none
  else do
    let slash ← json.char 6
    if slash ≠ 0x5c then .ok none
    else
      let u ← json.char 7
      if u ≠ 0x75 then .ok none
      else
        let surrogateLow ← decodeHex4 (json.ptr.drop 8)
        jsonAppendPair json codepoint surrogateLow

/-- `json_append_unicode_escape` after the first code unit. -/
def jsonAppendUnit (json : JsonParse) : Option Nat → Except JsonStop (Option JsonParse)
  | none => .ok none
  | some codepoint =>
      if codepoint &&& 0xf800 = 0xd800 then jsonAppendSurrogate json codepoint
      else jsonAppendCodepoint json codepoint 6

/-- `json_append_unicode_escape`: nothing stands for -1. -/
def jsonAppendUnicodeEscape (json : JsonParse) : Except JsonStop (Option JsonParse) := do
  let codepoint ← decodeHex4 (json.ptr.drop 2)
  jsonAppendUnit json codepoint

/-- The table `escape2char` of the settings. -/
def escape2char (ch : UInt8) : UInt8 :=
  match ch.toNat with
  | 0x22 => 0x22
  | 0x5c => 0x5c
  | 0x2f => 0x2f
  | 0x62 => 0x08
  | 0x74 => 0x09
  | 0x6e => 0x0a
  | 0x66 => 0x0c
  | 0x72 => 0x0d
  | 0x75 => 0x75
  | _ => 0

/-- The loop of `json_next_string_token`: nothing, or what kind of error the token is. It goes
around once for each character at most. -/
def jsonStringLoop : (rounds : Nat) → JsonParse → Except JsonStop (Option String × JsonParse)
  | 0, _ => .error .endless
  | rounds + 1, json => do
      let ch ← json.char 0
      if ch = 0x22 then .ok (none, json)
      else if ch = 0 then .ok (some "unexpected end of string", json)
      else if ch = 0x5c then
        let ch := escape2char (← json.char 1)
        if ch = 0x75 then
          match ← jsonAppendUnicodeEscape json with
          | some json => jsonStringLoop rounds json
          | none => .ok (some "invalid unicode escape code", json)
        else if ch = 0 then .ok (some "invalid escape code", json)
        else
          let tmp ← strbufAppendCharUnsafe json.tmp ch
          jsonStringLoop rounds ⟨json.ptr.drop 2, tmp⟩
      else
        let tmp ← strbufAppendCharUnsafe json.tmp ch
        jsonStringLoop rounds ⟨json.ptr.drop 1, tmp⟩

/-- `json_next_string_token`, on a text that goes on with a quotation mark: the string, or what
kind of error the token is. -/
def jsonNextStringToken (json : JsonParse) : Except JsonStop (Except String Bytes × JsonParse) := do
  let json : JsonParse := ⟨json.ptr.drop 1, strbufReset json.tmp⟩
  match ← jsonStringLoop json.ptr.length json with
  | (some errtype, json) => .ok (.error errtype, json)
  | (none, json) =>
      let json : JsonParse := ⟨json.ptr.drop 1, json.tmp⟩
      let tmp ← strbufEnsureNull json.tmp
      let string ← strbufString tmp
      .ok (.ok string, ⟨json.ptr, tmp⟩)

section Units

/-- The text has a NUL at its end. -/
def Terminated (text : Bytes) : Prop := ∃ front, text = front ++ [0]

/-- Behind a character that is not NUL the text goes on to its end. -/
theorem Terminated.tail {ch : UInt8} {rest : Bytes} (ends : Terminated (ch :: rest)) (some : ch ≠ 0) :
    Terminated rest := by
  obtain ⟨front, same⟩ := ends
  cases front with
  | nil =>
      rw [List.nil_append, List.cons.injEq] at same
      exact absurd same.1 some
  | cons first front => exact ⟨front, (List.cons.inj same).2⟩

theorem hexdigit2int_eq (hex : UInt8) : hexdigit2int hex = Json.hexWorth hex := by
  have all : ∀ n : Fin 256, hexdigit2int (UInt8.ofNat n) = Json.hexWorth (UInt8.ofNat n) := by
    decide +kernel
  have here := all ⟨hex.toNat, hex.toNat_lt⟩
  rwa [UInt8.ofNat_toNat] at here

theorem hexWorth_lt {hex : UInt8} {digit : Nat} (worth : Json.hexWorth hex = some digit) :
    digit < 16 ∧ hex ≠ 0 := by
  have all : ∀ n : Fin 256, ((Json.hexWorth (UInt8.ofNat n)).all fun digit =>
      decide (digit < 16 ∧ UInt8.ofNat n ≠ 0)) = true := by decide +kernel
  have here := all ⟨hex.toNat, hex.toNat_lt⟩
  rw [UInt8.ofNat_toNat, worth] at here
  simpa using here

theorem hexDigits_cases {hex : Bytes} (ends : Terminated hex) (count : Nat) :
    (hexDigits count hex = .ok none ∧ ∀ digits rest, hex = digits ++ rest → digits.length = count →
      digits.mapM Json.hexWorth = none) ∨
    ∃ digits rest worths, hex = digits ++ rest ∧ digits.length = count ∧
      digits.mapM Json.hexWorth = some worths ∧ hexDigits count hex = .ok (some worths) ∧
        Terminated rest := by
  induction count generalizing hex with
  | zero => exact .inr ⟨[], hex, [], rfl, rfl, rfl, rfl, ends⟩
  | succ count inductionHypothesis =>
      cases hex with
      | nil =>
          obtain ⟨front, same⟩ := ends
          simp at same
      | cons first hex =>
          cases worth : Json.hexWorth first with
          | none =>
              refine .inl ⟨by rw [hexDigits, hexdigit2int_eq, worth], ?_⟩
              rintro (_ | ⟨digit, digits⟩) rest same length
              · cases length
              · obtain ⟨rfl, -⟩ := List.cons.inj same
                rw [List.mapM_cons, worth]
                rfl
          | some digit =>
              have step : hexDigits (count + 1) (first :: hex) =
                  (hexDigits count hex).map (Option.map (digit :: ·)) := by
                rw [hexDigits, hexdigit2int_eq, worth]
              rcases inductionHypothesis (ends.tail (hexWorth_lt worth).2) with
                ⟨stopped, never⟩ | ⟨digits, rest, worths, rfl, length, all, run, ends⟩
              · refine .inl ⟨by rw [step, stopped]; rfl, ?_⟩
                rintro (_ | ⟨other, digits⟩) rest same length
                · cases length
                · have tail := (List.cons.inj same).2
                  rw [List.mapM_cons, never digits rest tail (Nat.succ.inj length)]
                  cases Json.hexWorth other <;> rfl
              · refine .inr ⟨first :: digits, rest, digit :: worths, rfl, congrArg (· + 1) length, ?_,
                  by rw [step, run]; rfl, ends⟩
                rw [List.mapM_cons, worth, all]
                rfl

theorem exists_of_length_four {digits : Bytes} (four : digits.length = 4) :
    ∃ a b c d, digits = [a, b, c, d] := by
  rcases digits with _ | ⟨a, _ | ⟨b, _ | ⟨c, _ | ⟨d, _ | ⟨e, more⟩⟩⟩⟩⟩ <;> simp at four ⊢

theorem codeUnit_eq {digits : Bytes} (four : digits.length = 4) :
    Json.codeUnit digits = (digits.mapM Json.hexWorth).map hex4 := by
  obtain ⟨a, b, c, d, rfl⟩ := exists_of_length_four four
  rw [Json.codeUnit]
  simp only [List.mapM_cons, List.mapM_nil]
  cases Json.hexWorth a <;> cases Json.hexWorth b <;> cases Json.hexWorth c <;>
    cases Json.hexWorth d <;> try rfl
  simp only [Option.pure_def, Option.bind_eq_bind, Option.bind_some, Option.map_some, hex4,
    Nat.shiftLeft_eq, Option.some.injEq]
  omega

theorem length_of_codeUnit {digits : Bytes} {code : Nat} (unit : Json.codeUnit digits = some code) :
    digits.length = 4 := by
  unfold Json.codeUnit at unit
  split at unit
  · rfl
  · cases unit

/-- What `decode_hex4` makes of four characters, or of fewer in front of the end. -/
theorem decodeHex4_cases {hex : Bytes} (ends : Terminated hex) :
    (decodeHex4 hex = .ok none ∧
      ∀ digits rest code, hex = digits ++ rest → Json.codeUnit digits ≠ some code) ∨
    ∃ digits rest code, hex = digits ++ rest ∧ digits.length = 4 ∧
      Json.codeUnit digits = some code ∧ decodeHex4 hex = .ok (some code) ∧ Terminated rest := by
  rcases hexDigits_cases ends 4 with
    ⟨stopped, never⟩ | ⟨digits, rest, worths, same, four, all, run, ends⟩
  · refine .inl ⟨by rw [decodeHex4, stopped]; rfl, ?_⟩
    intro digits rest code same unit
    have four := length_of_codeUnit unit
    rw [codeUnit_eq four, never digits rest same four] at unit
    cases unit
  · refine .inr ⟨digits, rest, hex4 worths, same, four, ?_, by rw [decodeHex4, run]; rfl, ends⟩
    rw [codeUnit_eq four, all]
    rfl

/-- A character is written as its bytes. -/
theorem codepointToUtf8_eq {code : Nat} (low : ¬ (0xd800 ≤ code ∧ code < 0xe000))
    (high : code < 0x110000) : codepointToUtf8 code = Json.utf8 code := by
  have valid : code.isValidChar := by
    unfold Nat.isValidChar
    omega
  have scalar : (Char.ofNat code).val.toNat = code := by
    rw [Char.ofNat, dif_pos valid]
    rfl
  have continued : ∀ x : Fin 64, x.val ||| 0x80 = x.val + 0x80 := by decide
  have two : ∀ x : Fin 32, x.val ||| 0xc0 = x.val + 0xc0 := by decide
  have three : ∀ x : Fin 16, x.val ||| 0xe0 = x.val + 0xe0 := by decide
  have four : ∀ x : Fin 8, x.val ||| 0xf0 = x.val + 0xf0 := by decide
  have six (n : Nat) : n &&& 0x3f = n % 64 := Nat.and_two_pow_sub_one_eq_mod n 6
  have next (n : Nat) : n &&& 0x3f ||| 0x80 = n % 64 + 0x80 := by
    rw [six]
    exact continued ⟨n % 64, Nat.mod_lt _ (by decide)⟩
  rw [codepointToUtf8, Json.utf8, String.utf8EncodeChar, scalar]
  simp only [next, Nat.shiftRight_eq_div_pow, Nat.reducePow]
  split
  · rfl
  · split
    · have first : code / 64 % 32 = code / 64 := by omega
      rw [first, two ⟨code / 64, by omega⟩]
    · split
      · have first : code / 4096 % 16 = code / 4096 := by omega
        rw [first, three ⟨code / 4096, by omega⟩]
      · have first : code / 262144 % 8 = code / 262144 := by omega
        rw [if_pos (by omega), first, four ⟨code / 262144, by omega⟩]

theorem and_shiftLeft (x mask k : Nat) : x &&& mask <<< k = (x >>> k &&& mask) <<< k := by
  apply Nat.eq_of_testBit_eq
  intro i
  simp only [Nat.testBit_and, Nat.testBit_shiftLeft, Nat.testBit_shiftRight]
  by_cases above : k ≤ i
  · rw [Nat.add_sub_cancel' above]
    simp [above]
  · simp [above]

/-- The masks of the surrogates, as numbers. -/
theorem and_masks (x : Nat) : x &&& 0xf800 = x / 2048 % 32 * 2048 ∧ x &&& 0x400 = x / 1024 % 2 * 1024 ∧
    x &&& 0xfc00 = x / 1024 % 64 * 1024 ∧ x &&& 0x3ff = x % 1024 := by
  have five (n : Nat) : n &&& 31 = n % 32 := Nat.and_two_pow_sub_one_eq_mod n 5
  have one (n : Nat) : n &&& 1 = n % 2 := Nat.and_two_pow_sub_one_eq_mod n 1
  have six (n : Nat) : n &&& 63 = n % 64 := Nat.and_two_pow_sub_one_eq_mod n 6
  have plane := and_shiftLeft x 31 11
  have half := and_shiftLeft x 1 10
  have kind := and_shiftLeft x 63 10
  rw [five, Nat.shiftRight_eq_div_pow, Nat.shiftLeft_eq (x / 2 ^ 11 % 32)] at plane
  rw [one, Nat.shiftRight_eq_div_pow, Nat.shiftLeft_eq (x / 2 ^ 10 % 2)] at half
  rw [six, Nat.shiftRight_eq_div_pow, Nat.shiftLeft_eq (x / 2 ^ 10 % 64)] at kind
  exact ⟨plane, half, kind, Nat.and_two_pow_sub_one_eq_mod x 10⟩

/-- The two halves of a pair are put together. -/
theorem pair_eq (x y : Nat) : ((x &&& 0x3ff) <<< 10 ||| y &&& 0x3ff) + 0x10000 =
    0x10000 + x % 1024 * 0x400 + y % 1024 := by
  have below : y % 1024 < 2 ^ 10 := Nat.mod_lt _ (by decide)
  rw [(and_masks x).2.2.2, (and_masks y).2.2.2, ← Nat.shiftLeft_add_eq_or_of_lt below,
    Nat.shiftLeft_eq]
  omega

theorem codeUnit_lt {digits : Bytes} {code : Nat} (unit : Json.codeUnit digits = some code) :
    code < 0x10000 := by
  unfold Json.codeUnit at unit
  split at unit
  · rename_i a b c d
    cases first : Json.hexWorth a <;> cases second : Json.hexWorth b <;>
      cases third : Json.hexWorth c <;> cases fourth : Json.hexWorth d <;>
      simp [first, second, third, fourth] at unit
    have one := (hexWorth_lt first).1
    have two := (hexWorth_lt second).1
    have three := (hexWorth_lt third).1
    have four := (hexWorth_lt fourth).1
    omega
  · cases unit

theorem length_utf8 (code : Nat) : 1 ≤ (Json.utf8 code).length ∧ (Json.utf8 code).length ≤ 4 := by
  rw [Json.utf8, String.utf8EncodeChar]
  split
  · simp
  · split
    · simp
    · split <;> simp

end Units

section Escapes

/-- A character that the decoder takes as it is. -/
def looseChar (char : UInt8) : Prop := char ≠ 0 ∧ char ≠ 0x22 ∧ char ≠ 0x5c

variable {hex rest done : Bytes} {tmp : StrBuf}

/-- The spellings that start with `\u`. -/
theorem chars_unicode {chars text : Bytes} (spelled : Json.Chars looseChar chars text)
    (same : 0x5c :: 0x75 :: hex = text ++ 0x22 :: rest) :
    (∃ digits chars' text' code, Json.codeUnit digits = some code ∧
      ¬ (0xd800 ≤ code ∧ code < 0xe000) ∧ chars = Json.utf8 code ++ chars' ∧
      text = 0x5c :: 0x75 :: (digits ++ text') ∧ Json.Chars looseChar chars' text') ∨
    ∃ digits digits' chars' text' high low, high < 0x400 ∧ low < 0x400 ∧
      Json.codeUnit digits = some (0xd800 + high) ∧ Json.codeUnit digits' = some (0xdc00 + low) ∧
      chars = Json.utf8 (0x10000 + high * 0x400 + low) ++ chars' ∧
      text = 0x5c :: 0x75 :: (digits ++ 0x5c :: 0x75 :: (digits' ++ text')) ∧
      Json.Chars looseChar chars' text' := by
  cases spelled with
  | nil => cases same
  | plain loose _ =>
      obtain ⟨rfl, -⟩ := List.cons.inj same
      exact absurd rfl loose.2.2
  | short letter _ =>
      obtain ⟨-, same⟩ := List.cons.inj same
      obtain ⟨rfl, -⟩ := List.cons.inj same
      cases letter
  | unit unit low more => exact .inl ⟨_, _, _, _, unit, low, rfl, rfl, more⟩
  | pair high low first second more =>
      exact .inr ⟨_, _, _, _, _, _, high, low, first, second, rfl, rfl, more⟩

/-- However the start of the text is read, up to a quotation mark, it means this. -/
def SpelledOnly (means : (chars rest : Bytes) → Prop) (text : Bytes) : Prop :=
  ∀ chars inside rest, Json.Chars looseChar chars inside → text = inside ++ 0x22 :: rest →
    means chars rest

/-- No spelling starts like this. -/
def Unspelled (text : Bytes) : Prop := SpelledOnly (fun _ _ => False) text

/-- A part of the text that is read as these characters: it spells them, and no spelling starts
in another way. -/
structure Spelling (used chars rest : Bytes) : Prop where
  sound : ∀ more text, Json.Chars looseChar more text →
    Json.Chars looseChar (chars ++ more) (used ++ text)
  sole : ∀ means, SpelledOnly (fun more behind => means (chars ++ more) behind) rest →
    SpelledOnly means (used ++ rest)
  short : chars.length ≤ used.length
  some : 1 ≤ used.length

/-- A unit that is no half of a pair. -/
theorem spelling_unit {digits : Bytes} {code : Nat} (unit : Json.codeUnit digits = some code)
    (low : ¬ (0xd800 ≤ code ∧ code < 0xe000)) (rest : Bytes) :
    Spelling (0x5c :: 0x75 :: digits) (Json.utf8 code) rest where
  sound more text spelled := .unit unit low spelled
  short := (length_utf8 code).2.trans (by simp [length_of_codeUnit unit])
  some := by simp
  sole means only := by
    intro chars inside behind spelled same
    have four := length_of_codeUnit unit
    rcases chars_unicode spelled same with
      ⟨digits', chars', text', code', unit', -, rfl, rfl, more⟩ |
      ⟨digits', digits'', chars', text', high, -, small, -, unit', -, rfl, rfl, more⟩
    · have parts := List.append_inj (show digits ++ rest = digits' ++ (text' ++ 0x22 :: behind) by
        simpa using same) (four.trans (length_of_codeUnit unit').symm)
      obtain rfl : code = code' := by
        rw [parts.1, unit', Option.some.injEq] at unit
        exact unit.symm
      exact only _ _ _ more parts.2
    · have parts := List.append_inj (show digits ++ rest =
          digits' ++ (0x5c :: 0x75 :: (digits'' ++ text') ++ 0x22 :: behind) by
        simpa using same) (four.trans (length_of_codeUnit unit').symm)
      rw [parts.1, unit', Option.some.injEq] at unit
      omega

/-- A pair of halves. -/
theorem spelling_pair {digits digits' : Bytes} {high low : Nat} (above : high < 0x400)
    (below : low < 0x400) (first : Json.codeUnit digits = some (0xd800 + high))
    (second : Json.codeUnit digits' = some (0xdc00 + low)) (rest : Bytes) :
    Spelling (0x5c :: 0x75 :: (digits ++ 0x5c :: 0x75 :: digits'))
      (Json.utf8 (0x10000 + high * 0x400 + low)) rest where
  sound more text spelled := by
    have whole := Json.Chars.pair above below first second spelled
    simpa using whole
  short := (length_utf8 _).2.trans (by simp [length_of_codeUnit first]; omega)
  some := by simp
  sole means only := by
    intro chars inside behind spelled same
    have four := length_of_codeUnit first
    have four' := length_of_codeUnit second
    have starts : 0x5c :: 0x75 :: (digits ++ 0x5c :: 0x75 :: digits' ++ rest) =
        inside ++ 0x22 :: behind := by simpa using same
    rcases chars_unicode spelled starts with
      ⟨other, chars', text', code', unit', apart, rfl, rfl, more⟩ |
      ⟨other, other', chars', text', high', low', -, -, unit', unit'', rfl, rfl, more⟩
    · have parts := List.append_inj (show digits ++ (0x5c :: 0x75 :: (digits' ++ rest)) =
          other ++ (text' ++ 0x22 :: behind) by simpa using same)
        (four.trans (length_of_codeUnit unit').symm)
      rw [parts.1, unit', Option.some.injEq] at first
      omega
    · have parts := List.append_inj (show digits ++ (0x5c :: 0x75 :: (digits' ++ rest)) =
          other ++ (0x5c :: 0x75 :: (other' ++ (text' ++ 0x22 :: behind))) by simpa using same)
        (four.trans (length_of_codeUnit unit').symm)
      have later := List.append_inj (List.cons.inj (List.cons.inj parts.2).2).2
        (four'.trans (length_of_codeUnit unit'').symm)
      rw [parts.1, unit', Option.some.injEq, Nat.add_left_cancel_iff] at first
      rw [later.1, unit'', Option.some.injEq, Nat.add_left_cancel_iff] at second
      rw [first, second]
      exact only _ _ _ more later.2

/-- The bytes of a character are put into the buffer. -/
theorem jsonAppendCodepoint_holds (holds : tmp.Holds done) {code : Nat}
    (low : ¬ (0xd800 ≤ code ∧ code < 0xe000)) (high : code < 0x110000)
    (room : done.length + 4 < tmp.size) (ptr : Bytes) (escapeLen : Nat) :
    ∃ after, jsonAppendCodepoint ⟨ptr, tmp⟩ code escapeLen =
      .ok (some ⟨ptr.drop escapeLen, after⟩) ∧ after.Holds (done ++ Json.utf8 code) ∧
        after.size = tmp.size := by
  have length := length_utf8 code
  obtain ⟨after, stored, here, size⟩ :=
    strbufAppendMemUnsafe_holds (c := Json.utf8 code) holds (by omega)
  refine ⟨after, ?_, here, size⟩
  simp only [jsonAppendCodepoint, codepointToUtf8_eq low high]
  rw [if_neg (by omega), stored]
  rfl

/-- What follows half of a pair has to be its other half. -/
theorem unspelled_surrogate {digits : Bytes} {code : Nat} (unit : Json.codeUnit digits = some code)
    (surrogate : 0xd800 ≤ code ∧ code < 0xe000)
    (never : code < 0xdc00 → ∀ digits' low more, low < 0x400 →
      rest = 0x5c :: 0x75 :: (digits' ++ more) → Json.codeUnit digits' ≠ some (0xdc00 + low)) :
    Unspelled (0x5c :: 0x75 :: (digits ++ rest)) := by
  intro chars inside behind spelled same
  have four := length_of_codeUnit unit
  rcases chars_unicode spelled same with
    ⟨other, chars', text', code', unit', apart, rfl, rfl, more⟩ |
    ⟨other, other', chars', text', high, low, small, small', unit', unit'', rfl, rfl, more⟩
  · have parts := List.append_inj (show digits ++ rest = other ++ (text' ++ 0x22 :: behind) by
      simpa using same) (four.trans (length_of_codeUnit unit').symm)
    rw [parts.1, unit', Option.some.injEq] at unit
    omega
  · have parts := List.append_inj (show digits ++ rest =
        other ++ (0x5c :: 0x75 :: (other' ++ (text' ++ 0x22 :: behind))) by simpa using same)
      (four.trans (length_of_codeUnit unit').symm)
    rw [parts.1, unit', Option.some.injEq] at unit
    exact never (by omega) other' low _ small' parts.2 unit''

/-- What is read of an escape, with what the buffer holds before. -/
def Escaped (done : Bytes) (tmp : StrBuf) (ptr : Bytes)
    (result : Except JsonStop (Option JsonParse)) : Prop :=
  (result = .ok none ∧ Unspelled ptr) ∨
  ∃ used chars rest after, ptr = used ++ rest ∧ Spelling used chars rest ∧
    result = .ok (some ⟨rest, after⟩) ∧ after.Holds (done ++ chars) ∧ after.size = tmp.size ∧
    Terminated rest

/-- The second half of a pair. -/
theorem jsonAppendPair_escaped (holds : tmp.Holds done) {a b c d : UInt8} {code : Nat}
    (unit : Json.codeUnit [a, b, c, d] = some code) (surrogate : 0xd800 ≤ code ∧ code < 0xe000)
    (isHigh : ¬ 0xdc00 ≤ code) (ends : Terminated rest) (room : done.length + 4 < tmp.size) :
    Escaped done tmp (0x5c :: 0x75 :: ([a, b, c, d] ++ 0x5c :: 0x75 :: rest))
      (decodeHex4 rest >>=
        jsonAppendPair ⟨0x5c :: 0x75 :: ([a, b, c, d] ++ 0x5c :: 0x75 :: rest), tmp⟩ code) := by
  rcases decodeHex4_cases ends with
    ⟨stopped, never⟩ | ⟨digits, rest, other, rfl, four, unit', run, ends'⟩
  · rw [stopped]
    refine .inl ⟨rfl, unspelled_surrogate unit surrogate ?_⟩
    intro _ digits' low more _ same
    exact never digits' more _ (List.cons.inj (List.cons.inj same).2).2
  · obtain ⟨e, f, g, h, rfl⟩ := exists_of_length_four four
    have below := codeUnit_lt unit'
    obtain ⟨-, -, kind, -⟩ := and_masks other
    rw [run]
    change Escaped _ _ _ (if other &&& 0xfc00 ≠ 0xdc00 then _ else _)
    by_cases isLow : 0xdc00 ≤ other ∧ other < 0xe000
    · have small : other % 1024 < 0x400 := Nat.mod_lt _ (by decide)
      have small' : code % 1024 < 0x400 := Nat.mod_lt _ (by decide)
      have first : Json.codeUnit [a, b, c, d] = some (0xd800 + code % 1024) := by
        rw [unit]
        congr 1
        omega
      have second : Json.codeUnit [e, f, g, h] = some (0xdc00 + other % 1024) := by
        rw [unit']
        congr 1
        omega
      obtain ⟨after, appended, here, size⟩ := jsonAppendCodepoint_holds holds
        (show ¬ (0xd800 ≤ 0x10000 + code % 1024 * 0x400 + other % 1024 ∧
          0x10000 + code % 1024 * 0x400 + other % 1024 < 0xe000) by omega) (by omega) room
        (0x5c :: 0x75 :: ([a, b, c, d] ++ 0x5c :: 0x75 :: ([e, f, g, h] ++ rest))) 12
      rw [if_neg (by omega), pair_eq]
      exact .inr ⟨0x5c :: 0x75 :: ([a, b, c, d] ++ 0x5c :: 0x75 :: [e, f, g, h]), _, rest, after, rfl,
        spelling_pair small' small first second rest, appended, here, size, ends'⟩
    · rw [if_pos (by omega)]
      refine .inl ⟨rfl, unspelled_surrogate unit surrogate ?_⟩
      intro _ digits' low more small same unit''
      have parts := List.append_inj (List.cons.inj (List.cons.inj same).2).2
        (four.trans (length_of_codeUnit unit'').symm)
      rw [← parts.1, unit', Option.some.injEq] at unit''
      omega

theorem jsonAppendSurrogate_escaped (holds : tmp.Holds done) {a b c d : UInt8} {code : Nat}
    (unit : Json.codeUnit [a, b, c, d] = some code) (surrogate : 0xd800 ≤ code ∧ code < 0xe000)
    (ends : Terminated rest) (room : done.length + 4 < tmp.size) :
    Escaped done tmp (0x5c :: 0x75 :: ([a, b, c, d] ++ rest))
      (jsonAppendSurrogate ⟨0x5c :: 0x75 :: ([a, b, c, d] ++ rest), tmp⟩ code) := by
  obtain ⟨-, half, -, low⟩ := and_masks code
  rw [jsonAppendSurrogate]
  by_cases isLow : 0xdc00 ≤ code
  · rw [if_pos (by omega)]
    exact .inl ⟨rfl, unspelled_surrogate unit surrogate fun high => by omega⟩
  rw [if_neg (by omega)]
  cases rest with
  | nil =>
      obtain ⟨front, same⟩ := ends
      simp at same
  | cons slash rest =>
      change Escaped _ _ _ (if slash ≠ 0x5c then _ else _)
      by_cases isSlash : slash = 0x5c
      · subst isSlash
        rw [if_neg (not_not.mpr rfl)]
        have ends := ends.tail (by decide)
        cases rest with
        | nil =>
            obtain ⟨front, same⟩ := ends
            simp at same
        | cons u rest =>
            change Escaped _ _ _ (if u ≠ 0x75 then _ else _)
            by_cases isU : u = 0x75
            · subst isU
              rw [if_neg (not_not.mpr rfl)]
              exact jsonAppendPair_escaped holds unit surrogate isLow (ends.tail (by decide)) room
            · rw [if_pos isU]
              refine .inl ⟨rfl, unspelled_surrogate unit surrogate ?_⟩
              intro _ digits' low more _ same
              exact absurd (List.cons.inj (List.cons.inj same).2).1 isU
      · rw [if_pos isSlash]
        refine .inl ⟨rfl, unspelled_surrogate unit surrogate ?_⟩
        intro _ digits' low more _ same
        exact absurd (List.cons.inj same).1 isSlash

/-- An escape is read as the character it spells, and an escape that is refused spells none. -/
theorem jsonAppendUnicodeEscape_escaped (holds : tmp.Holds done) (ends : Terminated hex)
    (room : done.length + hex.length < tmp.size) : Escaped done tmp (0x5c :: 0x75 :: hex)
      (jsonAppendUnicodeEscape ⟨0x5c :: 0x75 :: hex, tmp⟩) := by
  have start : jsonAppendUnicodeEscape ⟨0x5c :: 0x75 :: hex, tmp⟩ =
      decodeHex4 hex >>= jsonAppendUnit ⟨0x5c :: 0x75 :: hex, tmp⟩ := rfl
  rw [start]
  rcases decodeHex4_cases ends with
    ⟨stopped, never⟩ | ⟨digits, rest, code, rfl, four, unit, run, ends'⟩
  · rw [stopped]
    refine .inl ⟨rfl, ?_⟩
    intro chars inside behind spelled same
    rcases chars_unicode spelled same with
      ⟨digits, chars', text', code, unit, -, rfl, rfl, -⟩ |
      ⟨digits, digits', chars', text', high, low, -, -, unit, -, rfl, rfl, -⟩
    · exact never digits (text' ++ 0x22 :: behind) code (by simpa using same) unit
    · exact never digits (0x5c :: 0x75 :: (digits' ++ (text' ++ 0x22 :: behind))) _
        (by simpa using same) unit
  · obtain ⟨a, b, c, d, rfl⟩ := exists_of_length_four four
    have below := codeUnit_lt unit
    obtain ⟨plane, -⟩ := and_masks code
    rw [List.length_append, four] at room
    rw [run]
    change Escaped _ _ _ (if code &&& 0xf800 = 0xd800 then _ else _)
    by_cases surrogate : 0xd800 ≤ code ∧ code < 0xe000
    · rw [if_pos (by omega)]
      exact jsonAppendSurrogate_escaped holds unit surrogate ends' (by omega)
    · rw [if_neg (by omega)]
      obtain ⟨after, appended, here, size⟩ := jsonAppendCodepoint_holds holds surrogate (by omega)
        (by omega) (0x5c :: 0x75 :: ([a, b, c, d] ++ rest)) 6
      exact .inr ⟨0x5c :: 0x75 :: [a, b, c, d], _, rest, after, rfl,
        spelling_unit unit surrogate rest, appended, here, size, ends'⟩

end Escapes

section Tokens

variable {done ptr used chars rest : Bytes} {tmp after : StrBuf}

/-- What the loop makes of a text, with what the buffer holds before. -/
def Scanned (done : Bytes) (tmp : StrBuf) (ptr : Bytes)
    (result : Except JsonStop (Option String × JsonParse)) : Prop :=
  (∃ errtype json, result = .ok (some errtype, json) ∧ Unspelled ptr) ∨
  ∃ chars inside rest after, ptr = inside ++ 0x22 :: rest ∧ Json.Chars looseChar chars inside ∧
    SpelledOnly (fun chars' rest' => chars' = chars ∧ rest' = rest) ptr ∧
    result = .ok (none, ⟨0x22 :: rest, after⟩) ∧ after.Holds (done ++ chars) ∧
    after.size = tmp.size

/-- The loop goes on behind what is read. -/
theorem Scanned.behind {result : Except JsonStop (Option String × JsonParse)}
    (spelling : Spelling used chars rest) (size : after.size = tmp.size)
    (next : Scanned (done ++ chars) after rest result) : Scanned done tmp (used ++ rest) result := by
  rcases next with
    ⟨errtype, json, stopped, unspelled⟩ |
    ⟨more, inside, behind, last, rfl, spelled, only, run, holds, same⟩
  · exact .inl ⟨errtype, json, stopped, spelling.sole _ unspelled⟩
  · refine .inr ⟨chars ++ more, used ++ inside, behind, last, ?_, spelling.sound more inside spelled,
      spelling.sole _ ?_, run, ?_, same.trans size⟩
    · rw [List.append_assoc]
    · intro other inside' behind' spelled' text
      obtain ⟨rfl, rfl⟩ := only other inside' behind' spelled' text
      exact ⟨rfl, rfl⟩
    · rwa [List.append_assoc] at holds

theorem spelling_plain {char : UInt8} (loose : looseChar char) (rest : Bytes) :
    Spelling [char] [char] rest where
  sound more text spelled := .plain loose spelled
  short := Nat.le_refl _
  some := Nat.le_refl _
  sole means only := by
    intro chars inside behind spelled same
    cases spelled with
    | nil => exact absurd (List.cons.inj same).1 loose.2.1
    | plain _ more =>
        obtain ⟨rfl, rest⟩ := List.cons.inj same
        exact only _ _ _ more rest
    | short _ _ => exact absurd (List.cons.inj same).1 loose.2.2
    | unit _ _ _ => exact absurd (List.cons.inj same).1 loose.2.2
    | pair _ _ _ _ _ => exact absurd (List.cons.inj same).1 loose.2.2

theorem spelling_short {letter char : UInt8} (escape : Json.escaped letter = some char)
    (rest : Bytes) : Spelling [0x5c, letter] [char] rest where
  sound more text spelled := .short escape spelled
  short := by simp
  some := by simp
  sole means only := by
    intro chars inside behind spelled same
    have noUnit : letter ≠ 0x75 := by
      rintro rfl
      cases escape
    cases spelled with
    | nil => cases (List.cons.inj same).1
    | plain loose _ => exact absurd (List.cons.inj same).1.symm loose.2.2
    | short escape' more =>
        obtain ⟨rfl, rest⟩ := List.cons.inj (List.cons.inj same).2
        obtain rfl := Option.some.inj (escape.symm.trans escape')
        exact only _ _ _ more rest
    | unit _ _ _ => exact absurd (List.cons.inj (List.cons.inj same).2).1 noUnit
    | pair _ _ _ _ _ => exact absurd (List.cons.inj (List.cons.inj same).2).1 noUnit

/-- What the table says about a letter. -/
theorem escape2char_cases (letter : UInt8) :
    (escape2char letter = 0x75 ∧ letter = 0x75) ∨
    (escape2char letter = 0 ∧ letter ≠ 0x75 ∧ Json.escaped letter = none) ∨
    (escape2char letter ≠ 0x75 ∧ escape2char letter ≠ 0 ∧
      Json.escaped letter = some (escape2char letter)) := by
  have all : ∀ n : Fin 256,
      (escape2char (UInt8.ofNat n) = 0x75 ∧ UInt8.ofNat n = 0x75) ∨
      (escape2char (UInt8.ofNat n) = 0 ∧ UInt8.ofNat n ≠ 0x75 ∧
        Json.escaped (UInt8.ofNat n) = none) ∨
      (escape2char (UInt8.ofNat n) ≠ 0x75 ∧ escape2char (UInt8.ofNat n) ≠ 0 ∧
        Json.escaped (UInt8.ofNat n) = some (escape2char (UInt8.ofNat n))) := by decide +kernel
  have here := all ⟨letter.toNat, letter.toNat_lt⟩
  rwa [UInt8.ofNat_toNat] at here

/-- Up to a quotation mark there is nothing. -/
theorem spelled_quote (rest : Bytes) :
    SpelledOnly (fun chars' rest' => chars' = [] ∧ rest' = rest) (0x22 :: rest) := by
  intro chars inside behind spelled same
  cases spelled with
  | nil => exact ⟨rfl, (List.cons.inj same).2.symm⟩
  | plain loose _ => exact absurd (List.cons.inj same).1.symm loose.2.1
  | short _ _ => cases (List.cons.inj same).1
  | unit _ _ _ => cases (List.cons.inj same).1
  | pair _ _ _ _ _ => cases (List.cons.inj same).1

theorem unspelled_nul (rest : Bytes) : Unspelled (0 :: rest) := by
  intro chars inside behind spelled same
  cases spelled with
  | nil => cases (List.cons.inj same).1
  | plain loose _ => exact loose.1 (List.cons.inj same).1.symm
  | short _ _ => cases (List.cons.inj same).1
  | unit _ _ _ => cases (List.cons.inj same).1
  | pair _ _ _ _ _ => cases (List.cons.inj same).1

theorem unspelled_letter {letter : UInt8} (noUnit : letter ≠ 0x75)
    (none : Json.escaped letter = none) (rest : Bytes) : Unspelled (0x5c :: letter :: rest) := by
  intro chars inside behind spelled same
  cases spelled with
  | nil => cases (List.cons.inj same).1
  | plain loose _ => exact loose.2.2 (List.cons.inj same).1.symm
  | short escape _ =>
      rw [← (List.cons.inj (List.cons.inj same).2).1, none] at escape
      cases escape
  | unit _ _ _ => exact noUnit (List.cons.inj (List.cons.inj same).2).1
  | pair _ _ _ _ _ => exact noUnit (List.cons.inj (List.cons.inj same).2).1

/-- The loop reads the characters up to the quotation mark, or there are none that it could
read: no character is read behind the NUL, and none is written behind the buffer. -/
theorem jsonStringLoop_scanned (rounds : Nat) (holds : tmp.Holds done) (ends : Terminated ptr)
    (room : done.length + ptr.length < tmp.size) (enough : ptr.length ≤ rounds) :
    Scanned done tmp ptr (jsonStringLoop rounds ⟨ptr, tmp⟩) := by
  induction rounds generalizing done tmp ptr with
  | zero =>
      obtain ⟨front, rfl⟩ := ends
      simp at enough
  | succ rounds inductionHypothesis =>
      cases ptr with
      | nil =>
          obtain ⟨front, same⟩ := ends
          simp at same
      | cons ch rest =>
          rw [List.length_cons] at room enough
          change Scanned _ _ _ (if ch = 0x22 then _ else if ch = 0 then _ else if ch = 0x5c then _ else _)
          by_cases quote : ch = 0x22
          · subst quote
            exact .inr ⟨[], [], rest, tmp, rfl, .nil, spelled_quote rest, rfl,
              by rwa [List.append_nil], rfl⟩
          rw [if_neg quote]
          by_cases nul : ch = 0
          · subst nul
            exact .inl ⟨_, _, rfl, unspelled_nul rest⟩
          rw [if_neg nul]
          have later := ends.tail nul
          by_cases slash : ch = 0x5c
          · subst slash
            rw [if_pos rfl]
            cases rest with
            | nil =>
                obtain ⟨front, same⟩ := later
                simp at same
            | cons letter rest =>
                rw [List.length_cons] at room enough
                change Scanned _ _ _ (if escape2char letter = 0x75 then _ else
                  if escape2char letter = 0 then _ else _)
                rcases escape2char_cases letter with
                  ⟨u, rfl⟩ | ⟨nothing, noUnit, none⟩ | ⟨noU, something, escape⟩
                · rw [if_pos u]
                  rcases jsonAppendUnicodeEscape_escaped holds (later.tail (by decide)) (by omega) with
                    ⟨refused, unspelled⟩ | ⟨used, chars, rest', after, same, spelling, run, here,
                      size, ends'⟩
                  · rw [refused]
                    exact .inl ⟨_, _, rfl, unspelled⟩
                  · have lengths := congrArg List.length same
                    have short := spelling.short
                    have some := spelling.some
                    simp only [List.length_cons, List.length_append] at lengths
                    rw [run, same]
                    apply Scanned.behind spelling size
                    apply inductionHypothesis here ends'
                    · rw [List.length_append, size]
                      omega
                    · omega
                · rw [nothing, if_neg (by decide), if_pos rfl]
                  exact .inl ⟨_, _, rfl, unspelled_letter noUnit none rest⟩
                · rw [if_neg noU, if_neg something]
                  have behind := later.tail (show letter ≠ 0 by rintro rfl; cases escape)
                  obtain ⟨after, stored, here, size⟩ := strbufAppendMemUnsafe_holds
                    (c := [escape2char letter]) holds (by rw [List.length_singleton]; omega)
                  have next := inductionHypothesis here behind
                    (by rw [List.length_append, List.length_singleton, size]; omega) (by omega)
                  rw [strbufAppendCharUnsafe, stored]
                  exact Scanned.behind (spelling_short escape rest) size next
          · rw [if_neg slash]
            obtain ⟨after, stored, here, size⟩ := strbufAppendMemUnsafe_holds (c := [ch]) holds
              (by rw [List.length_singleton]; omega)
            have next := inductionHypothesis here later
              (by rw [List.length_append, List.length_singleton, size]; omega) (by omega)
            rw [strbufAppendCharUnsafe, stored]
            exact Scanned.behind (spelling_plain ⟨nul, quote, slash⟩ rest) size next

/-- JSON with control characters in its strings, which the decoder takes as they are. -/
def jsonLooseDialect : Json.Dialect Number := { jsonDialect with plain := looseChar }

variable {text old : Bytes}

/-- What the token of a string comes to. -/
theorem jsonNextStringToken_cases (holds : tmp.Holds old) (ends : Terminated text)
    (room : text.length < tmp.size) :
    (∃ errtype json, jsonNextStringToken ⟨0x22 :: text, tmp⟩ = .ok (.error errtype, json) ∧
      Unspelled text) ∨
    ∃ chars inside rest after, text = inside ++ 0x22 :: rest ∧ Json.Chars looseChar chars inside ∧
      SpelledOnly (fun chars' rest' => chars' = chars ∧ rest' = rest) text ∧
      jsonNextStringToken ⟨0x22 :: text, tmp⟩ = .ok (.ok chars, ⟨rest, after⟩) := by
  have scanned := jsonStringLoop_scanned text.length holds.reset ends
    (by rw [List.length_nil, Nat.zero_add]; exact room) (Nat.le_refl _)
  rw [jsonNextStringToken]
  simp only [List.drop_succ_cons, List.drop_zero]
  rcases scanned with
    ⟨errtype, json, stopped, unspelled⟩ | ⟨chars, inside, rest, after, same, spelled, only, run,
      here, size⟩
  · rw [stopped]
    exact .inl ⟨errtype, json, rfl, unspelled⟩
  · rw [List.nil_append] at here
    obtain ⟨last, stored, there⟩ := here.put_nul (c := [])
      (by rw [← here.length, List.length_nil]; exact here.room)
    rw [List.append_nil] at there
    rw [run]
    refine .inr ⟨chars, inside, rest, last, same, spelled, only, ?_⟩
    exact ok_of_steps rfl (ok_of_steps stored (ok_of_steps there.string rfl))

/-- A string is read exactly when the text goes on with one, and it is the string that the text
spells. Whatever the text is, it is not read behind its NUL, and the buffer is not overrun. -/
theorem jsonNextStringToken_reads (holds : tmp.Holds old) (ends : Terminated text)
    (room : text.length < tmp.size) :
    (∃ token json, jsonNextStringToken ⟨0x22 :: text, tmp⟩ = .ok (token, json)) ∧
    ∀ chars rest, (∃ after, jsonNextStringToken ⟨0x22 :: text, tmp⟩ = .ok (.ok chars, ⟨rest, after⟩)) ↔
      ∃ quoted, Json.Quotes jsonLooseDialect chars quoted ∧ 0x22 :: text = quoted ++ rest := by
  have inner {chars quoted rest : Bytes} (quotes : Json.Quotes jsonLooseDialect chars quoted)
      (same : 0x22 :: text = quoted ++ rest) :
      ∃ inside, Json.Chars looseChar chars inside ∧ text = inside ++ 0x22 :: rest := by
    obtain ⟨inside, rfl, spelled⟩ := quotes
    exact ⟨inside, spelled, by simpa using same⟩
  rcases jsonNextStringToken_cases holds ends room with
    ⟨errtype, json, stopped, unspelled⟩ | ⟨chars, inside, rest, after, same, spelled, only, run⟩
  · refine ⟨⟨_, _, stopped⟩, fun chars rest => ⟨?_, ?_⟩⟩
    · rintro ⟨after, run⟩
      rw [stopped] at run
      cases run
    · rintro ⟨quoted, quotes, same⟩
      obtain ⟨inside, spelled, text⟩ := inner quotes same
      exact (unspelled chars inside rest spelled text).elim
  · refine ⟨⟨_, _, run⟩, fun chars' rest' => ⟨?_, ?_⟩⟩
    · rintro ⟨after', run'⟩
      rw [run] at run'
      cases run'
      exact ⟨0x22 :: (inside ++ [0x22]), ⟨inside, rfl, spelled⟩, by simp [same]⟩
    · rintro ⟨quoted, quotes, same'⟩
      obtain ⟨inside', spelled', text'⟩ := inner quotes same'
      obtain ⟨rfl, rfl⟩ := only chars' inside' rest' spelled' text'
      exact ⟨after, run⟩

/-- A new buffer. -/
def freshBuf : StrBuf := ⟨List.replicate 1023 0, 1023, 0⟩

theorem freshBuf_holds : freshBuf.Holds [] where
  size := List.length_replicate.symm
  length := rfl
  room := by decide
  small := by decide
  text := rfl

/-- An escape for a character of two bytes. -/
theorem jsonNextStringToken_escape : ∃ after,
    jsonNextStringToken ⟨bytes "\"\\u00e9\"" ++ [0], freshBuf⟩ =
      .ok (.ok [0xc3, 0xa9], ⟨[0], after⟩) :=
  ((jsonNextStringToken_reads freshBuf_holds ⟨bytes "\\u00e9\"", rfl⟩ (by decide)).2
    [0xc3, 0xa9] [0]).mpr ⟨bytes "\"\\u00e9\"", ⟨bytes "\\u00e9", rfl,
      .unit (show Json.codeUnit (bytes "00e9") = some 0xe9 from rfl) (by decide) .nil⟩, rfl⟩

variable {buf : StrBuf}

/-- What `json_append_string` writes behind any text is read back, whatever bytes the string is
made of. -/
theorem jsonNextStringToken_jsonAppendString {front str : Bytes} (held : buf.Holds front)
    (short : (front ++ Json.quoted jsonCharText str).length < 2 ^ 64 - 64) (holds : tmp.Holds old)
    (ends : Terminated rest) (room : (Json.quoted jsonCharText str ++ rest).length ≤ tmp.size) :
    ∃ written text after, jsonAppendString str buf = (.ok (), written) ∧
      strbufString written = .ok (front ++ text) ∧
      jsonNextStringToken ⟨text ++ rest, tmp⟩ = .ok (.ok str, ⟨rest, after⟩) := by
  obtain ⟨written, run, here⟩ := writes_jsonAppendString str buf front held
    (by rw [limit_strbufSink, ← List.length_append]; exact short)
  have spelled : Json.Chars looseChar str (str.flatMap jsonCharText) := by
    obtain ⟨inside, same, spelled⟩ := Json.quotes_quoted chars_jsonCharText str
    obtain rfl : str.flatMap jsonCharText = inside := by
      simpa [Json.quoted] using same
    refine spelled.mono fun char plain => ⟨?_, plain.2⟩
    rintro rfl
    exact absurd plain.1 (by decide)
  have whole : Json.quoted jsonCharText str ++ rest =
      0x22 :: (str.flatMap jsonCharText ++ 0x22 :: rest) := by simp [Json.quoted]
  have behind : Terminated (str.flatMap jsonCharText ++ 0x22 :: rest) := by
    obtain ⟨front, rfl⟩ := ends
    exact ⟨str.flatMap jsonCharText ++ 0x22 :: front, by simp⟩
  rw [whole, List.length_cons] at room
  refine ⟨written, Json.quoted jsonCharText str, ?_⟩
  rcases jsonNextStringToken_cases holds behind room with
    ⟨errtype, json, -, unspelled⟩ | ⟨chars, inside, rest', after, -, -, only, read⟩
  · exact (unspelled _ _ _ spelled rfl).elim
  · obtain ⟨rfl, rfl⟩ := only _ _ _ spelled rfl
    exact ⟨after, run, here.string, by rw [whole]; exact read⟩

/-- A buffer in which a list was begun. -/
def begunBuf : StrBuf := ⟨0x5b :: List.replicate 15 0, 16, 1⟩

theorem begunBuf_holds : begunBuf.Holds [0x5b] where
  size := rfl
  length := rfl
  room := by decide
  small := by decide
  text := rfl

/-- A quotation mark, a line feed and a byte that is no character. -/
theorem jsonNextStringToken_bytes : ∃ written text after,
    jsonAppendString [0x22, 0x0a, 0xff] begunBuf = (.ok (), written) ∧
      strbufString written = .ok ([0x5b] ++ text) ∧
      jsonNextStringToken ⟨text ++ [0], freshBuf⟩ = .ok (.ok [0x22, 0x0a, 0xff], ⟨[0], after⟩) :=
  jsonNextStringToken_jsonAppendString begunBuf_holds (by decide) freshBuf_holds ⟨[], rfl⟩ (by decide)

end Tokens

end ValkeyLuajit
