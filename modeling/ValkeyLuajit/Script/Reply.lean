import ValkeyLuajit.Script.Error

/-!
# Converting a Lua value to a reply

`luajitReplyToServerReply` recurses over a value the script built, which may be
cyclic: what bounds it is the Lua stack. The functions here follow the source
push by push; the chain of field tests is one definition applied to each field.
-/

namespace ValkeyLuajit

open Lua

/-- `(long long)` of a Lua number. C leaves a value out of range undefined; what
x86-64 computes is the least 64-bit integer. -/
def Lua.Number.toLongLong : Number → Int
  | .finite value =>
      let whole := value.num.tdiv value.den
      if -(2 : Int) ^ 63 ≤ whole ∧ whole < 2 ^ 63 then whole else -(2 : Int) ^ 63
  | _ => -(2 : Int) ^ 63

/-- An integer in the range of a `long long` is kept. -/
theorem Lua.Number.toLongLong_intCast {value : Int} (lower : -(2 : Int) ^ 63 ≤ value)
    (upper : value < 2 ^ 63) : (Number.finite (value : Rat)).toLongLong = value := by
  have whole : (value : Rat).num.tdiv (value : Rat).den = value := by
    rw [Rat.num_intCast, Rat.den_intCast]
    exact Int.tdiv_one value
  simp only [toLongLong, whole, if_pos (And.intro lower upper)]

/-- `strmapchars`: every character found in `from` becomes its counterpart. -/
def strmapchars (text source target : Bytes) : Bytes :=
  text.map fun char => ((source.zip target).lookup char).getD char

/-- The text of a line reply: a copy of the field, cut at its first NUL, with
line ends blanked. -/
def lineText (content : Bytes) : Bytes :=
  strmapchars (cString content) (bytes "\r\n") (bytes "  ")

/-- A line end becomes a space. -/
def blanked (char : UInt8) : UInt8 := if char = 13 ∨ char = 10 then 32 else char

theorem lineText_eq (content : Bytes) : lineText content = (cString content).map blanked := by
  refine List.map_congr_left fun char _ => ?_
  have source : bytes "\r\n" = [13, 10] := rfl
  have target : bytes "  " = [32, 32] := rfl
  rw [source, target, List.zip_cons_cons, List.zip_cons_cons, List.lookup_cons, List.lookup_cons,
    blanked]
  by_cases carriage : char = 13
  · simp [carriage]
  · by_cases feed : char = 10
    · simp [feed]
    · simp [carriage, feed, beq_false_of_ne carriage, beq_false_of_ne feed]

/-- A line has no line end in it, and no NUL. -/
theorem mem_lineText {content : Bytes} {char : UInt8} (member : char ∈ lineText content) :
    char ≠ 13 ∧ char ≠ 10 ∧ char ≠ 0 := by
  rw [lineText_eq] at member
  obtain ⟨original, inside, rfl⟩ := List.mem_map.mp member
  have kept : original ≠ 0 := by simpa using List.mem_takeWhile_imp inside
  unfold blanked
  split
  · decide
  · tauto

/-- The raw field of a table value. -/
def Lua.State.field (lua : State) (object : Value) (name : String) : Value :=
  (lua.tableOf object).rawGet (.string (bytes name))

/-- The bytes of a string value. -/
def Lua.Value.stringBytes : Value → Bytes
  | .string content => content
  | _ => []

section

variable (rt : Runtime)

/-- Fetch a raw field of the table on the top. A field of the expected type is
handled; otherwise it is dropped and the next test made. -/
def onField (field : String) (type : LuaType) (handle : Value → LuaM CallHost Unit)
    (otherwise : LuaM CallHost Unit) : LuaM CallHost Unit := do
  luaPushString field
  luaRawGet (-2)
  let found ← luaValue (-1)
  if found.type = type then handle found
  else do
    luaPop 1
    otherwise

/-- Handle an error reply: the message is dropped and read again, with the other
fields, by `luajitExtractErrorInformation`. -/
def replyErrorTable (_ : Value) : LuaM CallHost Unit := do
  luaPop 1
  let info ← luajitExtractErrorInformation rt
  reply (.error (info.msg.getD []) (!info.ignoreErrStatsUpdate))
  luaPop 1

/-- Handle a status reply. -/
def replyStatus (found : Value) : LuaM CallHost Unit := do
  reply (.simple (lineText found.stringBytes))
  luaPop 2

/-- Handle a double reply. -/
def replyDouble (found : Value) : LuaM CallHost Unit := do
  reply (.double (match found with
    | .number value => value
    | _ => .nan))
  luaPop 2

/-- Handle a big number reply. -/
def replyBigNumber (found : Value) : LuaM CallHost Unit := do
  reply (.bigNumber (lineText found.stringBytes))
  luaPop 2

/-- Handle a verbatim reply: both inner fields must be strings, or the table is
tested further. -/
def replyVerbatim (otherwise : LuaM CallHost Unit) : LuaM CallHost Unit := do
  luaPushString "verbatim_string"
  luaRawGet (-2)
  let inner ← luaValue (-1)
  if inner.type = .table then do
    luaPushString "format"
    luaRawGet (-2)
    let format ← luaValue (-1)
    if format.type = .string then do
      luaPushString "string"
      luaRawGet (-3)
      let text ← luaValue (-1)
      if text.type = .string then do
        reply (.verbatim text.stringBytes (cString format.stringBytes))
        luaPop 4
      else do
        luaPop 1
        luaPop 1
        luaPop 1
        otherwise
    else do
      luaPop 1
      luaPop 1
      otherwise
  else do
    luaPop 1
    otherwise

/-- More rounds than a traversal of the table on the top can take. -/
def loopBound : LuaM CallHost Nat := fun world =>
  .done ((world.lua.tableOf (world.get (-1))).entries.entries.length + 1) world

/-- The map loop: each key is duplicated before it is consumed. -/
def replyMapLoop (convert : LuaM CallHost Unit) : Nat → LuaM CallHost Nat
  | 0 => fun world => .aborted "loop bound" world
  | fuel + 1 => do
      let more ← luaNext (-2)
      if more then do
        luaPushValue (-2)
        convert
        convert
        let rest ← replyMapLoop convert fuel
        pure (rest + 1)
      else pure 0

/-- Handle a map reply. -/
def replyMap (convert : LuaM CallHost Unit) (_ : Value) : LuaM CallHost Unit := do
  reply .openMap
  let bound ← loopBound
  luaPush .nil
  let maplen ← replyMapLoop convert bound
  reply (.closeMap maplen)
  luaPop 2

/-- The set loop: the value is discarded and the key duplicated. -/
def replySetLoop (convert : LuaM CallHost Unit) : Nat → LuaM CallHost Nat
  | 0 => fun world => .aborted "loop bound" world
  | fuel + 1 => do
      let more ← luaNext (-2)
      if more then do
        luaPop 1
        luaPushValue (-1)
        convert
        let rest ← replySetLoop convert fuel
        pure (rest + 1)
      else pure 0

/-- Handle a set reply. -/
def replySet (convert : LuaM CallHost Unit) (_ : Value) : LuaM CallHost Unit := do
  reply .openSet
  let bound ← loopBound
  luaPush .nil
  let setlen ← replySetLoop convert bound
  reply (.closeSet setlen)
  luaPop 2

/-- The array loop: elements from index `j` on, up to the first nil. -/
def replyArrayLoop (convert : LuaM CallHost Unit) : Nat → Nat → LuaM CallHost Nat
  | 0, _ => fun world => .aborted "loop bound" world
  | fuel + 1, j => do
      luaPush (.number (.finite j))
      luaRawGet (-2)
      let element ← luaValue (-1)
      if element.type = .nil then do
        luaPop 1
        pure 0
      else do
        convert
        let rest ← replyArrayLoop convert fuel (j + 1)
        pure (rest + 1)

/-- Handle an array reply. -/
def replyArray (convert : LuaM CallHost Unit) : LuaM CallHost Unit := do
  reply .openArray
  let bound ← loopBound
  let mbulklen ← replyArrayLoop convert bound 1
  reply (.closeArray mbulklen)
  luaPop 1

/-- The `LUA_TTABLE` case: the fields are tested in this order. -/
def replyTable (convert : LuaM CallHost Unit) : LuaM CallHost Unit :=
  onField "err" .string (replyErrorTable rt)
    (onField "ok" .string replyStatus
      (onField "double" .number replyDouble
        (onField "big_number" .string replyBigNumber
          (replyVerbatim
            (onField "map" .table (replyMap convert)
              (onField "set" .table (replySet convert)
                (replyArray convert)))))))

/-- Reply with the value on the top, which is consumed. Only the engine does this, after
its `lua_pcall`. Each level of recursion takes at least one stack slot, so `maxCStack`
levels are never exhausted. -/
def luajitReplyToServerReply (resp : Nat) : Nat → LuaM CallHost Unit
  | 0 => fun world => .aborted "recursion bound" world
  | fuel + 1 => do
      let value ← luaValue (-1)
      let fits ← luaCheckStackFromBottom 4
      if fits then
        match value with
        | .string text => do
            reply (.bulk text)
            luaPop 1
        | .boolean flag => do
            reply (if resp = 2 then (if flag then .integer 1 else .null) else .bool flag)
            luaPop 1
        | .number number => do
            reply (.integer number.toLongLong)
            luaPop 1
        | .table _ | .hidden _ =>
            replyTable rt (luajitReplyToServerReply resp fuel)
        | _ => do
            reply .null
            luaPop 1
      else do
        reply (.error (bytes "ERR reached lua stack limit") true)
        luaPop 1

end

end ValkeyLuajit
