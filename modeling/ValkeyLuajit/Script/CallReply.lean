import ValkeyLuajit.Script.Error

/-!
# Converting a reply to a Lua value

`callReplyToLuaType` builds the Lua value of a reply that a command gave. Every table
it makes is fresh, so no metamethod is involved; the conversion can still end early,
because the Lua stack is full or because a null would become the key of an entry.
-/

namespace ValkeyLuajit

open Lua

/-- `(lua_Number)val` of a `long long`: the nearest double, the even one of two. -/
def toLuaNumber (value : Int) : Number :=
  let magnitude := value.natAbs
  if magnitude ≤ 2 ^ 53 then .finite value
  else
    let unit := 2 ^ (magnitude.log2 - 52)
    let whole := magnitude / unit
    let rest := magnitude % unit
    let rounded := if rest * 2 < unit ∨ rest * 2 = unit ∧ whole % 2 = 0 then whole else whole + 1
    .finite (value.sign * ((rounded * unit : Nat) : Int) : Int)

/-- The format of a verbatim string: three characters. The protocol pads a shorter
name with spaces, so none of them is NUL. -/
structure VerbatimFormat where
  text : Bytes
  length : text.length = 3
  printable : (0 : UInt8) ∉ text
deriving DecidableEq

/-- A character of a decimal numeral. -/
def isDigit (char : UInt8) : Bool := decide (48 ≤ char ∧ char ≤ 57)

/-- A big number: an optional sign and decimal digits. -/
structure BigNumber where
  text : Bytes
  numeral : ∃ sign digits, text = sign ++ digits ∧
    (sign = [] ∨ sign = bytes "-" ∨ sign = bytes "+") ∧ digits.all isDigit = true

/-- `ValkeyModuleCallReply`. An attribute is no reply of its own, it comes with the reply
it precedes; `unknown` stands for the types the module does not expect. -/
inductive CallReply where
  | string (text : Bytes)
  | simpleString (text : Bytes)
  | error (text : Bytes)
  | integer (value : Int)
  | null
  | arrayNull
  | array (elements : List CallReply)
  | map (entries : List (CallReply × CallReply))
  | set (elements : List CallReply)
  | bool (value : Bool)
  | double (value : Number)
  | bigNumber (number : BigNumber)
  | verbatim (text : Bytes) (format : VerbatimFormat)
  | unknown

/-- Induction over a reply: a container has the property when what it contains has. -/
@[induction_eliminator]
theorem CallReply.induction {motive : CallReply → Prop}
    (string : ∀ text, motive (.string text))
    (simpleString : ∀ text, motive (.simpleString text))
    (error : ∀ text, motive (.error text))
    (integer : ∀ value, motive (.integer value))
    (null : motive .null)
    (arrayNull : motive .arrayNull)
    (array : ∀ elements, (∀ element ∈ elements, motive element) → motive (.array elements))
    (map : ∀ entries, (∀ entry ∈ entries, motive entry.1 ∧ motive entry.2) →
      motive (.map entries))
    (set : ∀ elements, (∀ element ∈ elements, motive element) → motive (.set elements))
    (bool : ∀ value, motive (.bool value))
    (double : ∀ value, motive (.double value))
    (bigNumber : ∀ number, motive (.bigNumber number))
    (verbatim : ∀ text format, motive (.verbatim text format))
    (unknown : motive .unknown) (reply : CallReply) : motive reply :=
  CallReply.rec (motive_1 := motive)
    (motive_2 := fun elements => ∀ element ∈ elements, motive element)
    (motive_3 := fun entries => ∀ entry ∈ entries, motive entry.1 ∧ motive entry.2)
    (motive_4 := fun entry => motive entry.1 ∧ motive entry.2)
    string simpleString error integer null arrayNull array map set bool double bigNumber verbatim
    unknown
    (by simp) (fun _ _ head tail => List.forall_mem_cons.mpr ⟨head, tail⟩)
    (by simp) (fun _ _ head tail => List.forall_mem_cons.mpr ⟨head, tail⟩)
    (fun _ _ key value => ⟨key, value⟩) reply

/-- `serverPanic`. -/
def serverPanic {σ α : Type} (message : String) : LuaM σ α := fun world => .aborted message world

def stackLimitPanic : String := "lua stack limit reach when parsing server.call reply"

section

variable {σ : Type} (rt : Runtime)

/-- Room for `extra` more slots, or panic. -/
def requireStack (extra : Nat) : LuaM σ Unit := do
  let fits ← luaCheckStack extra
  if fits then pure () else serverPanic stackLimitPanic

/-- A fresh table whose only field is a string or a number. -/
def pushFieldTable (field : String) (content : Value) : LuaM σ Unit := do
  luaNewTable
  luaPushString field
  luaPush content
  luaSetTable rt (-3)

mutual

/-- Push the Lua value of a reply. -/
def callReplyToLuaType (resp : Nat) : CallReply → LuaM σ Unit
  | .string text => do
      requireStack 1
      luaPush (.string text)
  | .simpleString text => do
      requireStack 3
      pushFieldTable rt "ok" (.string text)
  | .integer value => do
      requireStack 1
      luaPush (.number (toLuaNumber value))
  | .array elements => do
      requireStack 2
      luaNewTable
      arrayElementsToLua resp 1 elements
  | .null => do
      requireStack 1
      luaPush (if resp = 2 then .boolean false else .nil)
  | .arrayNull => do
      requireStack 1
      luaPush (if resp = 2 then .boolean false else .nil)
  | .map entries => do
      requireStack 3
      luaNewTable
      luaPushString "map"
      luaNewTable
      mapEntriesToLua resp entries
      luaSetTable rt (-3)
  | .set elements => do
      requireStack 3
      luaNewTable
      luaPushString "set"
      luaNewTable
      setElementsToLua resp elements
      luaSetTable rt (-3)
  | .bool value => do
      requireStack 1
      luaPush (.boolean value)
  | .double value => do
      requireStack 3
      pushFieldTable rt "double" (.number value)
  | .bigNumber number => do
      requireStack 3
      pushFieldTable rt "big_number" (.string number.text)
  | .verbatim text format => do
      requireStack 5
      luaNewTable
      luaPushString "verbatim_string"
      luaNewTable
      luaPushString "string"
      luaPush (.string text)
      luaSetTable rt (-3)
      luaPushString "format"
      luaPush (.string format.text)
      luaSetTable rt (-3)
      luaSetTable rt (-3)
  | .error text => do
      requireStack 3
      luajitPushErrorBuff rt text
      luaPushString "ignore_error_stats_update"
      luaPush (.boolean true)
      luaSetTable rt (-3)
  | .unknown => fun world => .aborted "0" world

/-- The elements of an array, from index `i` on. -/
def arrayElementsToLua (resp : Nat) (i : Nat) : List CallReply → LuaM σ Unit
  | [] => pure ()
  | element :: rest => do
      luaPush (.number (.finite i))
      callReplyToLuaType resp element
      luaSetTable rt (-3)
      arrayElementsToLua resp (i + 1) rest

/-- The entries of a map. -/
def mapEntriesToLua (resp : Nat) : List (CallReply × CallReply) → LuaM σ Unit
  | [] => pure ()
  | (key, value) :: rest => do
      callReplyToLuaType resp key
      callReplyToLuaType resp value
      luaSetTable rt (-3)
      mapEntriesToLua resp rest

/-- The elements of a set become keys. -/
def setElementsToLua (resp : Nat) : List CallReply → LuaM σ Unit
  | [] => pure ()
  | element :: rest => do
      callReplyToLuaType resp element
      luaPush (.boolean true)
      luaSetTable rt (-3)
      setElementsToLua resp rest

end

end

end ValkeyLuajit
