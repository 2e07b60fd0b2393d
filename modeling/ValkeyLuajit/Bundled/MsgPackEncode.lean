import ValkeyLuajit.Bundled.MsgPackBuffer
import ValkeyLuajit.Script.Cast

/-!
# Encoding Lua values as MessagePack

`lua_cmsgpack.c`: `mp_pack` and what it calls. The value that the C code has on the top of the
stack is an argument here, and `height` counts the slots in use, the value's own among them.
`levels` is how many levels of tables are left before the limit on nesting.
-/

namespace ValkeyLuajit

open Lua

/-- `n` is followed by nothing, and is zero or the place of a value. -/
def Border (table : Table) (n : Nat) : Prop :=
  (n = 0 ∨ table.rawGet (.number (.finite n)) ≠ .nil) ∧
    table.rawGet (.number (.finite (n + 1 : Nat))) = .nil

/-- What the encoder relies on: what casts give, the bits of a NaN, and the border that
`lua_objlen` finds. A cast that C leaves open gives some value of its type. -/
structure MpHost where
  convert : Cast → Int
  casts : Casts convert
  holds : ∀ cast : Cast, cast.type.Holds (convert cast)
  nan : NanBits
  objlen : Table → Nat
  border : ∀ table, Border table (objlen table)

/-- The error of `luaL_checkstack`. -/
def stackOverflow (message : String) : MpStop :=
  .raised (bytes ("stack overflow (" ++ message ++ ")"))

/-- The message of `luaL_argerror`. -/
def argErrorText (narg : Nat) (function : String) (message : Bytes) : Bytes :=
  bytes ("bad argument #" ++ toString narg ++ " to '" ++ function ++ "' (") ++
    (message ++ bytes ")")

/-- `luaL_checkstack`. -/
def luaLCheckStack (height extra : Nat) (message : String) : Except MpStop Unit :=
  if height + extra ≤ maxCStack then .ok () else .error (stackOverflow message)

variable (host : MpHost) (heap : Heap)

/-- `IS_INT_TYPE_EQUIVALENT`. -/
def isIntTypeEquivalent (x : Number) (type : CInteger) : Bool :=
  match x with
  | .infinite _ => false
  | x => (toLuaNumber (host.convert ⟨x, type⟩)).datum.equal x.datum

/-- `mp_encode_lua_string`. -/
def mpEncodeLuaString (s : Bytes) (buf : MpBuf) : Except MpStop MpBuf := mpEncodeBytes s buf

/-- `mp_encode_lua_bool`. -/
def mpEncodeLuaBool (flag : Bool) (buf : MpBuf) : Except MpStop MpBuf :=
  mpBufAppend buf [if flag then 0xc3 else 0xc2]

/-- `mp_encode_lua_integer`. -/
def mpEncodeLuaInteger (n : Number) (buf : MpBuf) : Except MpStop MpBuf :=
  mpEncodeInt (host.convert ⟨n, .longLong⟩) buf

/-- `mp_encode_lua_number`. -/
def mpEncodeLuaNumber (n : Number) (buf : MpBuf) : Except MpStop MpBuf :=
  if isIntTypeEquivalent host n .longLong then mpEncodeLuaInteger host n buf
  else mpEncodeDouble host.nan n buf

/-- `mp_encode_lua_null`. -/
def mpEncodeLuaNull (buf : MpBuf) : Except MpStop MpBuf := mpBufAppend buf [0xc0]

/-- The loop of `table_is_an_array` over the keys. -/
def countKeys : List Value → (count max : Int) → Bool
  | [], count, max => max = count
  | .number n :: rest, count, max =>
      if n.below 0 || n == .finite 0 || !isIntTypeEquivalent host n .int then false
      else
        let max := if n.above max then host.convert ⟨n, .int⟩ else max
        countKeys rest (count + 1) max
  | _ :: _, _, _ => false

/-- `table_is_an_array`. -/
def tableIsAnArray (height : Nat) (table : Table) : Except MpStop Bool := do
  luaLCheckStack height 2 "in function table_is_an_array"
  .ok (countKeys host table.entries.keys 0 0)

section

variable (encode : Nat → Value → MpBuf → Except MpStop MpBuf)

/-- The elements of an array, from index `j` on. -/
def mpEncodeElements (object : Value) (height : Nat) :
    (rounds j : Nat) → MpBuf → Except MpStop MpBuf
  | 0, _, buf => .ok buf
  | rounds + 1, j, buf =>
      match heap.index object (.number (.finite j)) with
      | .value value => do
          let buf ← encode (height + 1) value buf
          mpEncodeElements object height rounds (j + 1) buf
      | .call handler _ => .error (.script handler)
      | .error message => .error (.raised message)

/-- `mp_encode_lua_table_as_array`. -/
def mpEncodeLuaTableAsArray (height : Nat) (addr : Addr) (buf : MpBuf) : Except MpStop MpBuf := do
  let len := host.objlen (heap.cells addr)
  let buf ← mpEncodeArray len buf
  luaLCheckStack height 1 "in function mp_encode_lua_table_as_array"
  mpEncodeElements heap encode (.table addr) height len 1 buf

/-- The entries of a map: above the table are the key, the value and the key again. -/
def mpEncodeEntries (height : Nat) :
    List (Sigma fun _ : Value => Value) → MpBuf → Except MpStop MpBuf
  | [], buf => .ok buf
  | entry :: rest, buf => do
      let buf ← encode (height + 3) entry.1 buf
      let buf ← encode (height + 2) entry.2 buf
      mpEncodeEntries height rest buf

/-- `mp_encode_lua_table_as_map`. -/
def mpEncodeLuaTableAsMap (height : Nat) (addr : Addr) (buf : MpBuf) : Except MpStop MpBuf := do
  luaLCheckStack height 3 "in function mp_encode_lua_table_as_map"
  let entries := (heap.cells addr).entries.entries
  let buf ← mpEncodeMap entries.length buf
  mpEncodeEntries encode height entries buf

/-- `mp_encode_lua_table`. -/
def mpEncodeLuaTable (height : Nat) (addr : Addr) (buf : MpBuf) : Except MpStop MpBuf := do
  let isArray ← tableIsAnArray host height (heap.cells addr)
  if isArray then mpEncodeLuaTableAsArray host heap encode height addr buf
  else mpEncodeLuaTableAsMap heap encode height addr buf

end

/-- `LUACMSGPACK_MAX_NESTING`. -/
def maxNesting : Nat := 16

/-- `mp_encode_lua_type`. A table at the limit is encoded like what has no encoding. -/
def mpEncodeLuaType : (levels height : Nat) → Value → MpBuf → Except MpStop MpBuf
  | _, _, .string s, buf => mpEncodeLuaString s buf
  | _, _, .boolean flag, buf => mpEncodeLuaBool flag buf
  | _, _, .number n, buf => mpEncodeLuaNumber host n buf
  | levels + 1, height, .table addr, buf =>
      mpEncodeLuaTable host heap (mpEncodeLuaType levels) height addr buf
  | _, _, _, buf => mpEncodeLuaNull buf

/-- The loop of `mp_pack`: the text of each argument, and the buffer they share. -/
def mpPackArguments : (height : Nat) → List Value → MpBuf → Except MpStop (List Bytes × MpBuf)
  | _, [], buf => .ok ([], buf)
  | height, argument :: rest, buf => do
      luaLCheckStack height 1 "in function mp_check"
      let buf ← mpEncodeLuaType host heap maxNesting (height + 1) argument buf
      match buf.b.loadRange 0 buf.len with
      | none => .error .outside
      | some text => do
          let (others, buf) ← mpPackArguments (height + 1) rest buf.reuse
          .ok (text :: others, buf)

/-- `mp_pack`. Both checks blame argument 0. -/
def mpPack (args : List Value) : Except MpStop Bytes :=
  if args = [] then
    .error (.raised (argErrorText 0 "pack" (bytes "MessagePack pack needs input.")))
  else if maxCStack < args.length + args.length then
    .error (.raised (argErrorText 0 "pack" (bytes "Too many arguments for MessagePack pack.")))
  else do
    let (texts, _) ← mpPackArguments host heap args.length args mpBufNew
    .ok texts.flatten

end ValkeyLuajit
