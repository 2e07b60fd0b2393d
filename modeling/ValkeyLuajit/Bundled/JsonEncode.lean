import ValkeyLuajit.Bundled.Fpconv
import ValkeyLuajit.Bundled.StrBuf
import ValkeyLuajit.Script.Cast
import ValkeyLuajit.Script.Random

/-!
# Encoding Lua values as JSON

`lua_cjson.c`: `json_encode` and what it calls. The value that the C code has on the top of the
stack is an argument here, and `height` counts the slots in use, the value's own among them.
`levels` is how many levels of tables are left before the limit on nesting.
-/

namespace ValkeyLuajit

open Lua

/-- The settings of `encode_invalid_numbers`. -/
inductive InvalidNumbers where
  | off
  | on
  | null
deriving DecidableEq

/-- `json_config_t`, but for the buffer, with the ranges that the settings are checked for. -/
structure JsonConfig where
  encodeSparseConvert : Bool
  encodeSparseRatio : Nat
  encodeSparseSafe : Nat
  encodeMaxDepth : Nat
  encodeInvalidNumbers : InvalidNumbers
  encodeNumberPrecision : Nat
  encodeKeepBuffer : Bool
  decodeInvalidNumbers : Bool
  decodeMaxDepth : Nat
  ratio_lt : encodeSparseRatio < 2 ^ 31
  safe_lt : encodeSparseSafe < 2 ^ 31
  encodeDepth : 1 ≤ encodeMaxDepth ∧ encodeMaxDepth < 2 ^ 31
  precision : 1 ≤ encodeNumberPrecision ∧ encodeNumberPrecision ≤ 14
  decodeDepth : 1 ≤ decodeMaxDepth ∧ decodeMaxDepth < 2 ^ 31
deriving DecidableEq

/-- The settings of `json_create_config`. -/
def jsonCreateConfig : JsonConfig where
  encodeSparseConvert := false
  encodeSparseRatio := 2
  encodeSparseSafe := 10
  encodeMaxDepth := 1000
  encodeInvalidNumbers := .off
  encodeNumberPrecision := 14
  encodeKeepBuffer := true
  decodeInvalidNumbers := true
  decodeMaxDepth := 1000
  ratio_lt := by decide
  safe_lt := by decide
  encodeDepth := by decide
  precision := by decide
  decodeDepth := by decide

/-- What the encoder relies on: the point of the locale, and what casts give. A cast that C
leaves open gives some value of its type. -/
structure JsonHost where
  point : UInt8
  isPoint : IsPoint point
  convert : Cast → Int
  casts : Casts convert
  holds : ∀ cast : Cast, cast.type.Holds (convert cast)

/-- The digit of a number below sixteen. -/
def hexChar (digit : Nat) : UInt8 := UInt8.ofNat (if digit < 10 then 48 + digit else 87 + digit)

/-- `char2escape`. -/
def char2escape (char : UInt8) : Option Bytes :=
  match char.toNat with
  | 0x08 => some (bytes "\\b")
  | 0x09 => some (bytes "\\t")
  | 0x0a => some (bytes "\\n")
  | 0x0c => some (bytes "\\f")
  | 0x0d => some (bytes "\\r")
  | 0x22 => some (bytes "\\\"")
  | 0x2f => some (bytes "\\/")
  | 0x5c => some (bytes "\\\\")
  | n =>
      if n < 0x20 ∨ n = 0x7f then some (bytes "\\u00" ++ [hexChar (n / 16), hexChar (n % 16)])
      else none

/-- What encodes to a buffer. -/
abbrev JsonM (α : Type) : Type := Writer StrBuf JsonStop α

/-- `strbuf_append_char`. -/
def appendChar (c : UInt8) : JsonM Unit := Writer.step (strbufAppendChar · c)

/-- `strbuf_append_mem`. -/
def appendMem (c : Bytes) : JsonM Unit := Writer.step (strbufAppendMem · c)

/-- `json_encode_exception` about a value. -/
def jsonEncodeException {α : Type} (value : Value) (reason : String) : Except JsonStop α :=
  .error (.raised (bytes ("Cannot serialise " ++ value.type.name ++ ": " ++ reason)))

/-- The loop of `json_append_string`. -/
def jsonAppendChars : Bytes → JsonM Unit
  | [] => pure ()
  | char :: str => do
      match char2escape char with
      | some escstr => Writer.step (strbufAppendString · escstr)
      | none => appendChar char
      jsonAppendChars str

/-- `json_append_string`. -/
def jsonAppendString (str : Bytes) : JsonM Unit :=
  if sizeMax - 3 < str.length then throw .aborted
  else do
    Writer.step fun json => do
      let json ← strbufEnsureEmptyLength json (str.length + 2)
      strbufAppendCharUnsafe json 0x22
    jsonAppendChars str
    appendChar 0x22

variable (host : JsonHost) (cfg : JsonConfig)

/-- A number is written to the end of the buffer. -/
def jsonAppendGFmt (num : Number) : JsonM Unit :=
  Writer.step fun json => do
    let json ← strbufEnsureEmptyLength json fpconvGFmtBufsize
    let (text, len) := fpconvGFmt host.point num cfg.encodeNumberPrecision
    let json ← json.put text
    .ok (strbufExtendLength json len)

/-- `json_append_number`. -/
def jsonAppendNumber (num : Number) : JsonM Unit :=
  match cfg.encodeInvalidNumbers, num with
  | _, .finite _ => jsonAppendGFmt host cfg num
  | .off, _ => jsonEncodeException (.number num) "must not be NaN or Inf"
  | .on, .nan => appendMem (bytes "nan")
  | .on, .infinite _ => jsonAppendGFmt host cfg num
  | .null, _ => appendMem (bytes "null")

/-- `floor(k) == k && k >= 1`, of a key that is not zero. -/
def isIndex : Number → Bool
  | .finite k => decide (k ≠ 0 ∧ (⌊k⌋ : Rat) = k ∧ 1 ≤ k)
  | .infinite negative => !negative
  | .nan => false

/-- The loop of `lua_array_length`: the largest index and how many there are, or nothing when
some key is none. -/
def arrayIndices : List Value → (max items : Int) → Option (Int × Int)
  | [], max, items => some (max, items)
  | .number k :: keys, max, items =>
      if isIndex k then
        arrayIndices keys (if k.above max then host.convert ⟨k, .int⟩ else max) (items + 1)
      else none
  | _ :: _, _, _ => none

/-- The keys are so sparse that the table is no array. A product that no `int` holds is left
open, like a cast. -/
def excessivelySparse (max items : Int) : Bool :=
  let bound := host.convert ⟨.finite ((items * cfg.encodeSparseRatio : Int) : Rat), .int⟩
  decide (0 < cfg.encodeSparseRatio ∧ bound < max ∧ (cfg.encodeSparseSafe : Int) < max)

/-- `lua_array_length`: -1 is a table that is no array. -/
def luaArrayLength (addr : Addr) (table : Table) : Except JsonStop Int :=
  match arrayIndices host table.entries.keys 0 0 with
  | none => .ok (-1)
  | some (max, items) =>
      if excessivelySparse host cfg max items then
        if cfg.encodeSparseConvert then .ok (-1)
        else jsonEncodeException (.table addr) "excessively sparse array"
      else .ok max

/-- `json_check_encode_depth`. -/
def jsonCheckEncodeDepth (currentDepth height : Nat) : Except JsonStop Unit :=
  if currentDepth ≤ cfg.encodeMaxDepth ∧ height + 3 ≤ maxCStack then .ok ()
  else .error (.raised (bytes
    ("Cannot serialise, excessive nesting (" ++ toString currentDepth ++ ")")))

/-- A comma, but not in front of the first. -/
def jsonComma (comma : Bool) : JsonM Unit := if comma then appendChar 0x2c else pure ()

section

variable (append : (height : Nat) → Value → JsonM Unit)

/-- The loop of `json_append_array`, from index `i` on. -/
def jsonAppendElements (table : Table) (height : Nat) : (rounds i : Nat) → (comma : Bool) → JsonM Unit
  | 0, _, _ => pure ()
  | rounds + 1, i, comma => do
      jsonComma comma
      append (height + 1) (table.rawGet (.number (.finite i)))
      jsonAppendElements table height rounds (i + 1) true

/-- `json_append_array`. The counter of its loop cannot go beyond the last `int`. -/
def jsonAppendArray (table : Table) (height arrayLength : Nat) : JsonM Unit := do
  appendChar 0x5b
  jsonAppendElements append table height arrayLength 1 false
  if arrayLength = 2 ^ 31 - 1 then throw .overflow
  appendChar 0x5d

/-- The key of an object, and the colon. -/
def jsonAppendKey : Value → JsonM Unit
  | .number num => do
      appendChar 0x22
      jsonAppendNumber host cfg num
      appendMem [0x22, 0x3a]
  | .string str => do
      jsonAppendString str
      appendChar 0x3a
  | key => jsonEncodeException key "table key must be a number or string"

/-- The loop of `json_append_object`: the key lies between the table and the value. -/
def jsonAppendEntries (height : Nat) : List (Sigma fun _ : Value => Value) → (comma : Bool) → JsonM Unit
  | [], _ => pure ()
  | entry :: rest, comma => do
      jsonComma comma
      jsonAppendKey host cfg entry.1
      append (height + 2) entry.2
      jsonAppendEntries height rest true

/-- `json_append_object`. -/
def jsonAppendObject (table : Table) (height : Nat) : JsonM Unit := do
  appendChar 0x7b
  jsonAppendEntries host cfg append height table.entries.entries false
  appendChar 0x7d

/-- The branch of `json_append_data` for tables. -/
def jsonAppendTable (addr : Addr) (table : Table) (currentDepth height : Nat) : JsonM Unit := do
  jsonCheckEncodeDepth cfg currentDepth height
  let len ← luaArrayLength host cfg addr table
  if 0 < len then jsonAppendArray append table height len.toNat
  else jsonAppendObject host cfg append table height

end

variable (heap : Heap)

/-- `json_append_data`. Below the last level the check of the depth fails. -/
def jsonAppendData : (levels currentDepth height : Nat) → Value → JsonM Unit
  | _, _, _, .string str => jsonAppendString str
  | _, _, _, .number num => jsonAppendNumber host cfg num
  | _, _, _, .boolean flag => appendMem (bytes (if flag then "true" else "false"))
  | levels, currentDepth, height, .table addr =>
      match levels with
      | 0 => jsonAppendTable host cfg (fun _ _ => throw .endless) addr (heap.cells addr)
          (currentDepth + 1) height
      | levels + 1 => jsonAppendTable host cfg (jsonAppendData levels (currentDepth + 1)) addr
          (heap.cells addr) (currentDepth + 1) height
  | _, _, _, .nil => appendMem (bytes "null")
  | _, _, _, .lightuserdata 0 => appendMem (bytes "null")
  | _, _, _, value => jsonEncodeException value "type not supported"

/-- `json_append_data` on the argument, and the text that it leaves in the buffer. -/
def jsonEncodeTo (value : Value) (encodeBuf : StrBuf) : Except JsonStop Bytes × StrBuf :=
  match jsonAppendData host cfg heap cfg.encodeMaxDepth 0 1 value encodeBuf with
  | (.ok (), json) => (strbufString json, json)
  | (.error stop, json) => (.error stop, json)

/-- An instance of the module: its settings, and the buffer it keeps. -/
structure JsonModule where
  cfg : JsonConfig
  encodeBuf : Option StrBuf
deriving DecidableEq

/-- `json_encode`: the text, and the buffer that is kept. -/
def jsonEncode (json : JsonModule) (args : List Value) : Except JsonStop Bytes × Option StrBuf :=
  match args with
  | [value] =>
      if json.cfg.encodeKeepBuffer then
        match json.encodeBuf with
        | none => (.error .outside, none)
        | some encodeBuf =>
            let ended := jsonEncodeTo host json.cfg heap value (strbufReset encodeBuf)
            (ended.1, some ended.2)
      else
        match strbufInit 0 with
        | .error stop => (.error stop, json.encodeBuf)
        | .ok encodeBuf => ((jsonEncodeTo host json.cfg heap value encodeBuf).1, json.encodeBuf)
  | _ =>
      (.error (.raised (bytes "bad argument #1 to 'encode' (expected 1 argument)")), json.encodeBuf)

end ValkeyLuajit
