import ValkeyLuajit.Lua.Traced
import ValkeyLuajit.Script.CallReply
import ValkeyLuajit.Script.Reply

/-!
# The conversions with their moments

`callReplyToLuaType` and `luajitReplyToServerReply`, with everything they call, over
the recorded operations. Each is the same text as the function of its name, and
`traces_callReplyToLuaType` and `traces_luajitReplyToServerReply` say that apart from
the record it is that function.
-/

namespace ValkeyLuajit.Lua.Traced

section Replies

variable {σ α : Type} (rt : Runtime)

/-- The process ends, and no further moment is recorded. -/
def serverPanic (message : String) : Traced σ α := call (ValkeyLuajit.serverPanic message)

/-- The error table of an answer: a new table whose field `err` is the text. -/
def luajitPushErrorBuff (errBuffer : Bytes) : Traced σ Unit := do
  luaNewTable
  luaPushString "err"
  luaPush (.string (errorBuffText errBuffer))
  luaSetTable rt (-3)

/-- Ask for slots, or end the process. -/
def requireStack (extra : Nat) : Traced σ Unit := do
  let fits ← luaCheckStack extra
  if fits then pure () else serverPanic stackLimitPanic

/-- A table with this one field. -/
def pushFieldTable (field : String) (content : Value) : Traced σ Unit := do
  luaNewTable
  luaPushString field
  luaPush content
  luaSetTable rt (-3)

mutual

/-- Put an answer on the stack, with a moment for each value pushed and each check of the slots,
those of the elements of a container included. -/
def callReplyToLuaType (resp : Nat) : CallReply → Traced σ Unit
  | .string text => do
      requireStack 1
      luaPush (.string text)
  | .simpleString text => do
      requireStack 3
      pushFieldTable rt "ok" (.string text)
  | .integer value => do
      requireStack 1
      luaPush (.number (toLuaNumber value))
  | .array elements => do
      requireStack 2
      luaNewTable
      arrayElementsToLua resp 1 elements
  | .null => do
      requireStack 1
      luaPush (if resp = 2 then .boolean false else .nil)
  | .arrayNull => do
      requireStack 1
      luaPush (if resp = 2 then .boolean false else .nil)
  | .map entries => do
      requireStack 3
      luaNewTable
      luaPushString "map"
      luaNewTable
      mapEntriesToLua resp entries
      luaSetTable rt (-3)
  | .set elements => do
      requireStack 3
      luaNewTable
      luaPushString "set"
      luaNewTable
      setElementsToLua resp elements
      luaSetTable rt (-3)
  | .bool value => do
      requireStack 1
      luaPush (.boolean value)
  | .double value => do
      requireStack 3
      pushFieldTable rt "double" (.number value)
  | .bigNumber number => do
      requireStack 3
      pushFieldTable rt "big_number" (.string number.text)
  | .verbatim text format => do
      requireStack 5
      luaNewTable
      luaPushString "verbatim_string"
      luaNewTable
      luaPushString "string"
      luaPush (.string text)
      luaSetTable rt (-3)
      luaPushString "format"
      luaPush (.string format.text)
      luaSetTable rt (-3)
      luaSetTable rt (-3)
  | .error text => do
      requireStack 3
      luajitPushErrorBuff rt text
      luaPushString "ignore_error_stats_update"
      luaPush (.boolean true)
      luaSetTable rt (-3)
  | .unknown => call fun world => .aborted "0" world

/-- The elements of an array, stored under 1, 2 and so on. -/
def arrayElementsToLua (resp : Nat) (i : Nat) : List CallReply → Traced σ Unit
  | [] => pure ()
  | element :: rest => do
      luaPush (.number (.finite i))
      callReplyToLuaType resp element
      luaSetTable rt (-3)
      arrayElementsToLua resp (i + 1) rest

/-- The entries of a map: the value is stored under the key below it. -/
def mapEntriesToLua (resp : Nat) : List (CallReply × CallReply) → Traced σ Unit
  | [] => pure ()
  | (key, value) :: rest => do
      callReplyToLuaType resp key
      callReplyToLuaType resp value
      luaSetTable rt (-3)
      mapEntriesToLua resp rest

/-- The elements of a set, each stored under itself as `true`. -/
def setElementsToLua (resp : Nat) : List CallReply → Traced σ Unit
  | [] => pure ()
  | element :: rest => do
      callReplyToLuaType resp element
      luaPush (.boolean true)
      luaSetTable rt (-3)
      setElementsToLua resp rest

end

/-- Whether the slots are there is looked at once. -/
theorem traces_requireStack (extra : Nat) :
    Traces (σ := σ) (requireStack extra) (ValkeyLuajit.requireStack extra) :=
  traces_bind (traces_checkStack extra) fun _ => traces_ite (traces_pure ()) (traces_call _)

/-- Recorded or not, the same error table is built. -/
theorem traces_luajitPushErrorBuff (errBuffer : Bytes) : Traces (σ := σ)
    (luajitPushErrorBuff rt errBuffer) (ValkeyLuajit.luajitPushErrorBuff rt errBuffer) :=
  traces_step fun _ => traces_step fun _ => traces_step fun _ => traces_call _

/-- Recorded or not, the same table is built. -/
theorem traces_pushFieldTable (field : String) (content : Value) : Traces (σ := σ)
    (pushFieldTable rt field content) (ValkeyLuajit.pushFieldTable rt field content) :=
  traces_step fun _ => traces_step fun _ => traces_step fun _ => traces_call _

variable {rt} {resp : Nat}

/-- An array is traced when the conversions of its elements are, from any index on. -/
theorem traces_arrayElementsToLua {elements : List CallReply}
    (each : ∀ element ∈ elements, Traces (σ := σ) (callReplyToLuaType rt resp element)
      (ValkeyLuajit.callReplyToLuaType rt resp element)) (i : Nat) :
    Traces (σ := σ) (arrayElementsToLua rt resp i elements)
      (ValkeyLuajit.arrayElementsToLua rt resp i elements) := by
  induction elements generalizing i with
  | nil => exact traces_pure ()
  | cons element rest inductionHypothesis =>
      apply traces_step
      intro _
      apply traces_bind (each element (by simp))
      intro _
      apply traces_step
      intro _
      exact inductionHypothesis (fun other member => each other (by simp [member])) (i + 1)

/-- A map is traced when the conversions of its keys and values are. -/
theorem traces_mapEntriesToLua {entries : List (CallReply × CallReply)}
    (each : ∀ entry ∈ entries, Traces (σ := σ) (callReplyToLuaType rt resp entry.1)
        (ValkeyLuajit.callReplyToLuaType rt resp entry.1) ∧
      Traces (σ := σ) (callReplyToLuaType rt resp entry.2)
        (ValkeyLuajit.callReplyToLuaType rt resp entry.2)) :
    Traces (σ := σ) (mapEntriesToLua rt resp entries)
      (ValkeyLuajit.mapEntriesToLua rt resp entries) := by
  induction entries with
  | nil => exact traces_pure ()
  | cons entry rest inductionHypothesis =>
      obtain ⟨key, value⟩ := each entry (by simp)
      apply traces_bind key
      intro _
      apply traces_bind value
      intro _
      apply traces_step
      intro _
      exact inductionHypothesis fun other member => each other (by simp [member])

/-- A set is traced when the conversions of its elements are. -/
theorem traces_setElementsToLua {elements : List CallReply}
    (each : ∀ element ∈ elements, Traces (σ := σ) (callReplyToLuaType rt resp element)
      (ValkeyLuajit.callReplyToLuaType rt resp element)) :
    Traces (σ := σ) (setElementsToLua rt resp elements)
      (ValkeyLuajit.setElementsToLua rt resp elements) := by
  induction elements with
  | nil => exact traces_pure ()
  | cons element rest inductionHypothesis =>
      apply traces_bind (each element (by simp))
      intro _
      apply traces_step
      intro _
      apply traces_step
      intro _
      exact inductionHypothesis fun other member => each other (by simp [member])

/-- The conversion of any answer, containers within containers included, is what
`callReplyToLuaType` does. -/
theorem traces_callReplyToLuaType (reply : CallReply) : Traces (σ := σ)
    (callReplyToLuaType rt resp reply) (ValkeyLuajit.callReplyToLuaType rt resp reply) := by
  induction reply with
  | string | integer | bool | null | arrayNull =>
      exact traces_bind (traces_requireStack 1) fun _ => traces_call _
  | simpleString | double | bigNumber =>
      exact traces_bind (traces_requireStack 3) fun _ => traces_pushFieldTable rt _ _
  | error text =>
      apply traces_bind (traces_requireStack 3)
      intro _
      apply traces_bind (traces_luajitPushErrorBuff rt text)
      intro _
      exact traces_step fun _ => traces_step fun _ => traces_call _
  | verbatim text format =>
      apply traces_bind (traces_requireStack 5)
      intro _
      iterate 9 (apply traces_step; intro _)
      exact traces_call _
  | array elements each =>
      apply traces_bind (traces_requireStack 2)
      intro _
      exact traces_step fun _ => traces_arrayElementsToLua each 1
  | map entries each =>
      apply traces_bind (traces_requireStack 3)
      intro _
      iterate 3 (apply traces_step; intro _)
      exact traces_bind (traces_mapEntriesToLua each) fun _ => traces_call _
  | set elements each =>
      apply traces_bind (traces_requireStack 3)
      intro _
      iterate 3 (apply traces_step; intro _)
      exact traces_bind (traces_setElementsToLua each) fun _ => traces_call _
  | unknown => exact traces_call _

end Replies

section Values

variable (rt : Runtime)

/-- A reply is a moment like any other operation. -/
def reply (token : Token) : Traced CallHost Unit := call (ValkeyLuajit.reply token)

/-- A text field of an error table: fetched, looked at and dropped. -/
def readErrorField (field : String) : Traced CallHost (Option Bytes) := do
  luaGetField rt (-1) field
  let found ← luaValue (-1)
  luaPop 1
  pure (if found.isString then some (cString (found.text rt)) else none)

/-- What a raised value says of the error: a text is the message itself, a table names message,
source and line in its fields. -/
def luajitExtractErrorInformation : Traced CallHost ErrorInfo := do
  let top ← luaValue (-1)
  if top.isString then
    pure ⟨some (bytes "ERR " ++ cString (top.text rt)), none, none, false⟩
  else
    let msg ← readErrorField rt "err"
    let source ← readErrorField rt "source"
    let line ← readErrorField rt "line"
    luaGetField rt (-1) "ignore_error_stats_update"
    let found ← luaValue (-1)
    luaPop 1
    pure ⟨some (msg.getD (bytes "ERR unknown error")), source, line,
      found.isBoolean && found.toBoolean⟩

/-- Fetch a raw field of the table on the top: it is handled if it has the type, else dropped. -/
def onField (field : String) (type : LuaType) (handle : Value → Traced CallHost Unit)
    (otherwise : Traced CallHost Unit) : Traced CallHost Unit := do
  luaPushString field
  luaRawGet (-2)
  let found ← luaValue (-1)
  if found.type = type then handle found
  else do
    luaPop 1
    otherwise

/-- The message found is dropped, and read again with the other fields. -/
def replyErrorTable (_ : Value) : Traced CallHost Unit := do
  luaPop 1
  let info ← luajitExtractErrorInformation rt
  reply (.error (info.msg.getD []) (!info.ignoreErrStatsUpdate))
  luaPop 1

/-- A status: the field stays on the stack until it is sent. -/
def replyStatus (found : Value) : Traced CallHost Unit := do
  reply (.simple (lineText found.stringBytes))
  luaPop 2

/-- A double: the field stays on the stack until it is sent. -/
def replyDouble (found : Value) : Traced CallHost Unit := do
  reply (.double (match found with
    | .number value => value
    | _ => .nan))
  luaPop 2

/-- A big number: the field stays on the stack until it is sent. -/
def replyBigNumber (found : Value) : Traced CallHost Unit := do
  reply (.bigNumber (lineText found.stringBytes))
  luaPop 2

/-- A verbatim text needs both inner fields, with the three tables and texts on the stack at
once. Whichever test fails drops what was fetched so far. -/
def replyVerbatim (otherwise : Traced CallHost Unit) : Traced CallHost Unit := do
  luaPushString "verbatim_string"
  luaRawGet (-2)
  let inner ← luaValue (-1)
  if inner.type = .table then do
    luaPushString "format"
    luaRawGet (-2)
    let format ← luaValue (-1)
    if format.type = .string then do
      luaPushString "string"
      luaRawGet (-3)
      let text ← luaValue (-1)
      if text.type = .string then do
        reply (.verbatim text.stringBytes (cString format.stringBytes))
        luaPop 4
      else do
        luaPop 1
        luaPop 1
        luaPop 1
        otherwise
    else do
      luaPop 1
      luaPop 1
      otherwise
  else do
    luaPop 1
    otherwise

/-- The bound on the rounds of a loop, read before the first. -/
def loopBound : Traced CallHost Nat := call ValkeyLuajit.loopBound

/-- The loop over a map. The key is copied, since converting takes what it converts. -/
def replyMapLoop (convert : Traced CallHost Unit) : Nat → Traced CallHost Nat
  | 0 => call fun world => .aborted "loop bound" world
  | fuel + 1 => do
      let more ← luaNext (-2)
      if more then do
        luaPushValue (-2)
        convert
        convert
        let rest ← replyMapLoop convert fuel
        pure (rest + 1)
      else pure 0

/-- A map: opened, traversed, and closed with the number of its entries. -/
def replyMap (convert : Traced CallHost Unit) (_ : Value) : Traced CallHost Unit := do
  reply .openMap
  let bound ← loopBound
  luaPush .nil
  let maplen ← replyMapLoop convert bound
  reply (.closeMap maplen)
  luaPop 2

/-- The loop over a set: the value is dropped and the key is copied. -/
def replySetLoop (convert : Traced CallHost Unit) : Nat → Traced CallHost Nat
  | 0 => call fun world => .aborted "loop bound" world
  | fuel + 1 => do
      let more ← luaNext (-2)
      if more then do
        luaPop 1
        luaPushValue (-1)
        convert
        let rest ← replySetLoop convert fuel
        pure (rest + 1)
      else pure 0

/-- A set: opened, traversed, and closed with the number of its elements. -/
def replySet (convert : Traced CallHost Unit) (_ : Value) : Traced CallHost Unit := do
  reply .openSet
  let bound ← loopBound
  luaPush .nil
  let setlen ← replySetLoop convert bound
  reply (.closeSet setlen)
  luaPop 2

/-- The loop over an array, up to the first index without an element. -/
def replyArrayLoop (convert : Traced CallHost Unit) : Nat → Nat → Traced CallHost Nat
  | 0, _ => call fun world => .aborted "loop bound" world
  | fuel + 1, j => do
      luaPush (.number (.finite j))
      luaRawGet (-2)
      let element ← luaValue (-1)
      if element.type = .nil then do
        luaPop 1
        pure 0
      else do
        convert
        let rest ← replyArrayLoop convert fuel (j + 1)
        pure (rest + 1)

/-- An array: opened, read from 1 on, and closed with the number of its elements. -/
def replyArray (convert : Traced CallHost Unit) : Traced CallHost Unit := do
  reply .openArray
  let bound ← loopBound
  let mbulklen ← replyArrayLoop convert bound 1
  reply (.closeArray mbulklen)
  luaPop 1

/-- The tests on a table, in the order in which they are made. -/
def replyTable (convert : Traced CallHost Unit) : Traced CallHost Unit :=
  onField "err" .string (replyErrorTable rt)
    (onField "ok" .string replyStatus
      (onField "double" .number replyDouble
        (onField "big_number" .string replyBigNumber
          (replyVerbatim
            (onField "map" .table (replyMap convert)
              (onField "set" .table (replySet convert)
                (replyArray convert)))))))

/-- Reply with the value on the top. A container needs the conversion of what it holds, one
level further down. -/
def luajitReplyToServerReply (resp : Nat) : Nat → Traced CallHost Unit
  | 0 => call fun world => .aborted "recursion bound" world
  | fuel + 1 => do
      let value ← luaValue (-1)
      let fits ← luaCheckStackFromBottom 4
      if fits then
        match value with
        | .string text => do
            reply (.bulk text)
            luaPop 1
        | .boolean flag => do
            reply (if resp = 2 then (if flag then .integer 1 else .null) else .bool flag)
            luaPop 1
        | .number number => do
            reply (.integer number.toLongLong)
            luaPop 1
        | .table _ | .hidden _ =>
            replyTable rt (luajitReplyToServerReply resp fuel)
        | _ => do
            reply .null
            luaPop 1
      else do
        reply (.error (bytes "ERR reached lua stack limit") true)
        luaPop 1

/-- Recorded or not, the same field is read. -/
theorem traces_readErrorField (field : String) :
    Traces (readErrorField rt field) (ValkeyLuajit.readErrorField rt field) :=
  traces_step fun _ => traces_step fun _ => traces_step fun _ => traces_pure _

/-- Recorded or not, the same error is found. -/
theorem traces_luajitExtractErrorInformation : Traces (luajitExtractErrorInformation rt)
    (ValkeyLuajit.luajitExtractErrorInformation rt) := by
  apply traces_step
  intro top
  apply traces_ite (traces_pure _)
  iterate 3 (apply traces_bind (traces_readErrorField rt _); intro _)
  exact traces_step fun _ => traces_step fun _ => traces_step fun _ => traces_pure _

/-- The test is traced when both its outcomes are. -/
theorem traces_onField (field : String) (type : LuaType) {handle : Value → Traced CallHost Unit}
    {otherwise : Traced CallHost Unit} {taken : Value → LuaM CallHost Unit}
    {dropped : LuaM CallHost Unit} (found : ∀ value, Traces (handle value) (taken value))
    (missing : Traces otherwise dropped) : Traces (onField field type handle otherwise)
      (ValkeyLuajit.onField field type taken dropped) := by
  apply traces_step
  intro _
  apply traces_step
  intro _
  apply traces_step
  intro value
  exact traces_ite (found value) (traces_step fun _ => missing)

/-- Recorded or not, the same error is replied. -/
theorem traces_replyErrorTable (found : Value) :
    Traces (replyErrorTable rt found) (ValkeyLuajit.replyErrorTable rt found) := by
  apply traces_step
  intro _
  apply traces_bind (traces_luajitExtractErrorInformation rt)
  intro info
  exact traces_step fun _ => traces_call _

/-- The tests on a verbatim text are traced when the further tests are. -/
theorem traces_replyVerbatim {otherwise : Traced CallHost Unit} {dropped : LuaM CallHost Unit}
    (missing : Traces otherwise dropped) :
    Traces (replyVerbatim otherwise) (ValkeyLuajit.replyVerbatim dropped) := by
  iterate 3 (apply traces_step; intro _)
  apply traces_ite
  · iterate 3 (apply traces_step; intro _)
    apply traces_ite
    · iterate 3 (apply traces_step; intro _)
      apply traces_ite
      · exact traces_step fun _ => traces_call _
      · exact traces_step fun _ => traces_step fun _ => traces_step fun _ => missing
    · exact traces_step fun _ => traces_step fun _ => missing
  · exact traces_step fun _ => missing

section Containers

variable {rt} {convert : Traced CallHost Unit} {operation : LuaM CallHost Unit}
  (each : Traces convert operation)

include each

/-- The loop over a map is traced when the conversion is. -/
theorem traces_replyMapLoop (fuel : Nat) :
    Traces (replyMapLoop convert fuel) (ValkeyLuajit.replyMapLoop operation fuel) := by
  induction fuel with
  | zero => exact traces_call _
  | succ fuel inductionHypothesis =>
      apply traces_step
      intro more
      apply traces_ite
      · apply traces_step
        intro _
        apply traces_bind each
        intro _
        apply traces_bind each
        intro _
        exact traces_bind inductionHypothesis fun _ => traces_pure _
      · exact traces_pure 0

/-- The loop over a set is traced when the conversion is. -/
theorem traces_replySetLoop (fuel : Nat) :
    Traces (replySetLoop convert fuel) (ValkeyLuajit.replySetLoop operation fuel) := by
  induction fuel with
  | zero => exact traces_call _
  | succ fuel inductionHypothesis =>
      apply traces_step
      intro more
      apply traces_ite
      · apply traces_step
        intro _
        apply traces_step
        intro _
        apply traces_bind each
        intro _
        exact traces_bind inductionHypothesis fun _ => traces_pure _
      · exact traces_pure 0

/-- The loop over an array is traced when the conversion is, from any index on. -/
theorem traces_replyArrayLoop (fuel j : Nat) :
    Traces (replyArrayLoop convert fuel j) (ValkeyLuajit.replyArrayLoop operation fuel j) := by
  induction fuel generalizing j with
  | zero => exact traces_call _
  | succ fuel inductionHypothesis =>
      iterate 3 (apply traces_step; intro _)
      apply traces_ite
      · exact traces_step fun _ => traces_pure 0
      · apply traces_bind each
        intro _
        exact traces_bind (inductionHypothesis (j + 1)) fun _ => traces_pure _

/-- A map is traced when the conversion of what it holds is. -/
theorem traces_replyMap (found : Value) :
    Traces (replyMap convert found) (ValkeyLuajit.replyMap operation found) := by
  iterate 3 (apply traces_step; intro _)
  exact traces_bind (traces_replyMapLoop each _) fun _ => traces_step fun _ => traces_call _

/-- A set is traced when the conversion of what it holds is. -/
theorem traces_replySet (found : Value) :
    Traces (replySet convert found) (ValkeyLuajit.replySet operation found) := by
  iterate 3 (apply traces_step; intro _)
  exact traces_bind (traces_replySetLoop each _) fun _ => traces_step fun _ => traces_call _

/-- An array is traced when the conversion of what it holds is. -/
theorem traces_replyArray : Traces (replyArray convert) (ValkeyLuajit.replyArray operation) := by
  iterate 2 (apply traces_step; intro _)
  exact traces_bind (traces_replyArrayLoop each _ 1) fun _ => traces_step fun _ => traces_call _

/-- All tests on a table are traced when the conversion of what it holds is. -/
theorem traces_replyTable :
    Traces (replyTable rt convert) (ValkeyLuajit.replyTable rt operation) := by
  apply traces_onField "err" .string (traces_replyErrorTable rt)
  apply traces_onField "ok" .string fun _ => traces_step fun _ => traces_call _
  apply traces_onField "double" .number fun _ => traces_step fun _ => traces_call _
  apply traces_onField "big_number" .string fun _ => traces_step fun _ => traces_call _
  apply traces_replyVerbatim
  apply traces_onField "map" .table (traces_replyMap each)
  exact traces_onField "set" .table (traces_replySet each) (traces_replyArray each)

end Containers

/-- The reply with any value, tables within tables included, is what `luajitReplyToServerReply`
does. -/
theorem traces_luajitReplyToServerReply (resp fuel : Nat) :
    Traces (luajitReplyToServerReply rt resp fuel)
      (ValkeyLuajit.luajitReplyToServerReply rt resp fuel) := by
  induction fuel with
  | zero => exact traces_call _
  | succ fuel inductionHypothesis =>
      apply traces_step
      intro value
      apply traces_bind (traces_checkStackFromBottom 4)
      intro fits
      apply traces_ite
      · cases value with
        | table | hidden => exact traces_replyTable inductionHypothesis
        | _ => exact traces_step fun _ => traces_call _
      · exact traces_step fun _ => traces_call _

end Values

end ValkeyLuajit.Lua.Traced
