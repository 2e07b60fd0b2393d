import ValkeyLuajit.Script.Reply

/-!
# Calling a function

`luajitCallFunction` installs the run context and the hook, passes the keys and
the arguments, runs the function under `lua_pcall`, reports what it left and
clears up. What runs is a parameter: the code belongs to the script.
-/

namespace ValkeyLuajit

open Lua

section

variable (rt : Runtime)

/-- Store the elements under 1, 2, ... of the table on the top. -/
def storeElements {σ : Type} : Nat → List Bytes → LuaM σ Unit
  | _, [] => pure ()
  | j, element :: rest => do
      luaPush (.number (.finite j))
      luaPush (.string element)
      luaRawSet (-3)
      storeElements (j + 1) rest

/-- `luajitCreateArray`: push a table of the strings. -/
def luajitCreateArray {σ : Type} (elements : List Bytes) : LuaM σ Unit := do
  luaNewTable
  storeElements 1 elements

/-- `lua_tointeger`. -/
def Lua.Value.toInteger : Value → Int
  | .number quantity => quantity.toLongLong
  | _ => 0

/-- Read a counter of the registry, 0 when it is not there. -/
def readCounter {σ : Type} (name : String) : LuaM σ Int := do
  luaGetRegistry name
  let saved ← luaValue (-1)
  luaPop 1
  pure (if saved.isNil then 0 else saved.toInteger)

/-- Store a counter in the registry. -/
def writeCounter {σ : Type} (name : String) (value : Int) : LuaM σ Unit := do
  luaPush (.number (.finite value))
  luaSetRegistry name

def luaGcCyclePeriod : Int := 50
def luaFullGcCycle : Int := 500

/-- The bookkeeping that decides when to collect garbage. -/
def countGcCycle {σ : Type} : LuaM σ Unit := do
  let gcCount ← readCounter "__gc_count"
  let fullGcCount ← readCounter "__full_gc_count"
  writeCounter "__gc_count" (if gcCount + 1 ≥ luaGcCyclePeriod then 0 else gcCount + 1)
  writeCounter "__full_gc_count"
    (if fullGcCount + 1 ≥ luaFullGcCycle then 0 else fullGcCount + 1)

/-- Report the error value on the top to the client, and pop it. -/
def reportError : LuaM CallHost Unit := do
  let error ← luaValue (-1)
  if error.isTable then do
    let info ← luajitExtractErrorInformation rt
    let msg := info.msg.getD []
    reply (.error
      (match info.line, info.source with
        | some line, some source =>
            msg ++ bytes " script: on " ++ source ++ bytes ":" ++ line ++ bytes "."
        | _, _ => msg)
      (!info.ignoreErrStatsUpdate))
    luaPop 1
  else do
    let msg := if error.isString then cString (error.text rt) else bytes "execution failure"
    reply (.error (bytes "ERR Error running script, " ++ msg.take 100 ++ bytes "\n") true)
    luaPop 1

/-- The RESP version the script left in its run context. -/
def currentResp : LuaM CallHost Nat := fun world =>
  .done ((world.host.callCtx.map FuncCallCtx.resp).getD 2) world

/-- The part of `luajitCallFunction` up to `lua_pcall`. -/
def beginCall (callCtx : FuncCallCtx) (keys args : List Bytes) : LuaM CallHost Unit := do
  setCallCtx (some callCtx)
  luajitSaveOnRegistry registryRunCtxName (some callCtxPointer)
  luaSetHook (some ⟨"luajitMaskCountHook", .count luaHookCheckInterval⟩)
  luajitCreateArray keys
  if callCtx.type = .eval then luaSetGlobal rt "KEYS" else pure ()
  luajitCreateArray args
  if callCtx.type = .eval then luaSetGlobal rt "ARGV" else pure ()

/-- The part of `luajitCallFunction` after `lua_pcall` returned: nothing here is
protected any more. -/
def finishCall (err : Bool) : LuaM CallHost Unit := do
  countGcCycle
  if err then reportError rt
  else do
    let resp ← currentResp
    luajitReplyToServerReply rt resp (maxCStack + 1)
  luaSetHook none
  luajitSaveOnRegistry registryRunCtxName none
  setCallCtx none

/-- `luajitCallFunction`. -/
def luajitCallFunction (callCtx : FuncCallCtx) (keys args : List Bytes)
    (body : FuncRef → List Value → LuaM CallHost (List Value)) : LuaM CallHost Unit := do
  beginCall rt callCtx keys args
  let err ← luaPCall (if callCtx.type = .eval then 0 else 2) body
  finishCall rt err

end

end ValkeyLuajit
