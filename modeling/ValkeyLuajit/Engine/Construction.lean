import ValkeyLuajit.Engine.State
import ValkeyLuajit.Lua.Depth
import ValkeyLuajit.Script.Log

/-!
# Making a user's Lua state

`createUserLuaState` and the functions it calls, operation by operation. They run
unprotected, so that an error ends the process. What LuaJIT's and the bundled libraries do
when they are opened, and what the embedded chunks come to, is left open.
-/

namespace ValkeyLuajit.Construction

open Lua Recorded

/-- The chunks that are run during set-up. -/
inductive SetupChunk where
  | wrapLoad
  | errorHandler
  | ffiCdef
  | ffiApi
deriving DecidableEq

/-- How many values the text of a chunk returns. -/
def SetupChunk.results : SetupChunk → Nat
  | .wrapLoad => 0
  | .errorHandler | .ffiCdef | .ffiApi => 1

/-- The values a chunk returns. -/
abbrev Returned (count : Nat) := { values : List Value // values.length = count }

/-- The versions that `get_version_info` finds. -/
structure VersionInfo where
  redisVersion : Bytes
  redisVersionNum : Nat
  serverName : Bytes
  valkeyVersion : Bytes
  valkeyVersionNum : Nat

/-- What the construction meets: the slot below the bottom of a new stack, what opening a
library and running a chunk in a state gives or raises and makes of the state, which chunks
do not load, and the file of the module. -/
structure Surroundings where
  bottom : Value
  opens : String → State → Except Value (List Value) × State
  rejects : SetupChunk → Option Bytes
  runs : (chunk : SetupChunk) → State → Except Value (Returned chunk.results) × State
  dliFname : Option Bytes
  version : VersionInfo

/-- Where the construction leaves its messages. -/
structure SetupHost where
  log : List LogLine := []
  stderr : List Bytes := []

section Operations

variable (rt : Runtime) (surroundings : Surroundings)

/-- So many values: nil stands for those that are missing. -/
def adjust (count : Nat) (values : List Value) : List Value :=
  (values ++ List.replicate count Value.nil).take count

/-- There are exactly so many. -/
theorem length_adjust (count : Nat) (values : List Value) : (adjust count values).length = count := by
  rw [adjust, List.length_take, List.length_append, List.length_replicate]
  omega

/-- The function and its arguments give way to the results. -/
def returnTo (world : World SetupHost) (count : Nat) (values : List Value) (lua : State) :
    World SetupHost :=
  { world.pop (count + 1) with
    frame := values.reverse ++ (world.pop (count + 1)).frame
    lua := lua }

/-- `lua_call` of a function that opens a library. -/
def luaCall (library : String) (nargs nresults : Nat) : LuaM SetupHost Unit := fun world =>
  match surroundings.opens library world.lua with
  | (.ok values, lua) => .done () (returnTo world nargs (adjust nresults values) lua)
  | (.error error, lua) => .raised error (returnTo world nargs [] lua)

/-- `luaL_loadstring`: true when the chunk was rejected. -/
def luaLLoadstring (chunk : SetupChunk) : LuaM SetupHost Bool := fun world =>
  match surroundings.rejects chunk with
  | some message => .done true (world.push (.string message))
  | none => .done false (world.push (.function (.chunk [])))

/-- `lua_pcall` of a chunk with as many results as it returns: true when it raised. -/
def luaPCallChunk (chunk : SetupChunk) : LuaM SetupHost Bool := fun world =>
  match surroundings.runs chunk world.lua with
  | (.ok values, lua) => .done false (returnTo world 0 values.val lua)
  | (.error error, lua) => .done true (returnTo world 0 [error] lua)

/-- `lua_pcall` with one result, also of a message that stands where a function should. -/
def luaPCallOne (rejected : Bool) (chunk : SetupChunk) : LuaM SetupHost Unit := fun world =>
  if rejected then
    .done () (returnTo world 0 [.string (bytes "attempt to call a string value")] world.lua)
  else
    match surroundings.runs chunk world.lua with
    | (.ok values, lua) => .done () (returnTo world 0 (adjust 1 values.val) lua)
    | (.error error, lua) => .done () (returnTo world 0 [error] lua)

/-- `lua_getglobal`. -/
def luaGetGlobal (name : String) : LuaM SetupHost Unit := fun world =>
  (luaIndex rt (.table world.lua.globals) (.string (bytes name)) world).andThen fun value =>
    luaPush value

/-- `lua_settable` on the registry: the key below the value is this name. -/
def luaSetTableRegistry (name : String) : LuaM SetupHost Unit := fun world =>
  .done () ((world.pop 2).setRegistry name (world.get (-1)))

/-- `lua_gettable` on the registry: the key on the top is this name. -/
def luaGetTableRegistry (name : String) : LuaM SetupHost Unit := fun world =>
  .done () ((world.pop 1).push (world.lua.registry name))

/-- `lua_newtable` of a table that only the registry will refer to. -/
def luaNewHidden (name : String) : LuaM SetupHost Unit := fun world =>
  .done () ((world.setHidden name .empty).push (.hidden name))

/-- `lua_tostring` of the value on the top, in a message. -/
def errorMessage (error : Value) : Bytes :=
  if error.isString then cString (error.text rt) else bytes "unknown"

/-- `ValkeyModule_Log`. -/
def logWarning (text : Bytes) : LuaM SetupHost Unit := fun world =>
  .done () (world.setHost { world.host with log := world.host.log ++ [⟨"warning", text⟩] })

/-- `fprintf` to `stderr`. -/
def printError (text : Bytes) : LuaM SetupHost Unit := fun world =>
  .done () (world.setHost { world.host with stderr := world.host.stderr ++ [text] })

end Operations

/-- `luaL_newstate`: one slot is the state's own. -/
def newState (surroundings : Surroundings) : World SetupHost :=
  ⟨[], [surroundings.bottom], false, luaLNewstate, {}, []⟩

/-- How many slots are above the bottom of such a stack. -/
def stackHeight (world : World SetupHost) : Int := world.stack.length - 1

/-- A function of the constructions. -/
abbrev Setup (α : Type) := Recorded Underflow SetupHost α

section Source

variable (rt : Runtime) (surroundings : Surroundings)

/-- `lua_pushstring`, `lua_push…` and `lua_settable` on the table below. -/
def setEntry (name : String) (value : Value) : Setup Unit := do
  api 0 (luaPushString name)
  api 0 (luaPush value)
  api 3 (luaSetTable rt (-3))

/-- A C function of the module. -/
def cFunction (name : String) : Value := .function (.native name)

/-- A number. -/
def number (value : Nat) : Value := .number (.finite value)

/-- Push a value and store it as a global. -/
def pushGlobal (name : String) (value : Value) : Setup Unit := do
  api 0 (luaPush value)
  api 1 (luaSetGlobal rt name)

/-- `luajitSaveOnRegistry`: a pointer, or nil, under a name in the registry. -/
def luajitSaveOnRegistry (name : String) (ptr : Option Nat) : Setup Unit := do
  api 0 (luaPushString name)
  api 0 (luaPush (match ptr with
    | some address => .lightuserdata address
    | none => .nil))
  api 2 (luaSetTableRegistry name)

/-- `luajitLoadLib`: the opening function is called with the name of the library. -/
def luajitLoadLib (libname : String) (luafunc : String) : Setup Unit := do
  api 0 (luaPush (cFunction luafunc))
  api 0 (luaPushString libname)
  api 2 (luaCall surroundings luafunc 1 0)

/-- Open a library of the module and store what it returns as a global. -/
def openGlobal (name : String) (luafunc : String) : Setup Unit := do
  api 0 (luaPush (cFunction luafunc))
  api 1 (luaCall surroundings luafunc 0 1)
  api 1 (luaSetGlobal rt name)

/-- `luaL_dostring`: true when the chunk failed, with the message on the top. -/
def luaLDostring (chunk : SetupChunk) : Setup Bool := do
  let rejected ← api 0 (luaLLoadstring surroundings chunk)
  if rejected then pure true else api 1 (luaPCallChunk surroundings chunk)

/-- `luajitWrapLoadFunction`: a failure is logged and its message dropped. -/
def luajitWrapLoadFunction : Setup Unit := do
  let failed ← luaLDostring surroundings .wrapLoad
  if failed then do
    let err ← api 1 (luaValue (-1))
    api 0 (logWarning (bytes "Failed to wrap load() function: " ++ errorMessage rt err))
    api 1 (luaPop 1)
  else pure ()

/-- A table with `clock` alone takes the place of `os`. -/
def replaceOs : Setup Unit := do
  api 0 (luaGetGlobal rt "os")
  api 1 (luaGetField rt (-1) "clock")
  api 0 luaNewTable
  api 2 (luaPushValue (-2))
  api 2 (luaSetFieldC rt (-2) (bytes "clock"))
  api 1 (luaSetGlobal rt "os")
  api 2 (luaPop 2)

/-- `luajitLoadLibraries`, in the order of the source. -/
def luajitLoadLibraries : Setup Unit := do
  luajitLoadLib surroundings "" "luaopen_base"
  luajitLoadLib surroundings "table" "luaopen_table"
  luajitLoadLib surroundings "string" "luaopen_string"
  luajitLoadLib surroundings "math" "luaopen_math"
  luajitLoadLib surroundings "debug" "luaopen_debug"
  luajitLoadLib surroundings "os" "luaopen_os"
  replaceOs rt
  luajitLoadLib surroundings "bit" "luaopen_bit"
  openGlobal rt surroundings "cjson" "luaopen_cjson"
  openGlobal rt surroundings "cjson.safe" "luaopen_cjson_safe"
  openGlobal rt surroundings "struct" "luaopen_struct"
  openGlobal rt surroundings "cmsgpack" "luaopen_cmsgpack"
  openGlobal rt surroundings "cmsgpack_safe" "luaopen_cmsgpack_safe"
  luajitWrapLoadFunction rt surroundings

/-- The loop over the deny list. -/
def removeGlobals : List String → Setup Unit
  | [] => pure ()
  | name :: rest => do
      pushGlobal rt name .nil
      removeGlobals rest

/-- `luajitRemoveUnsafeGlobals`, with its deny list. -/
def luajitRemoveUnsafeGlobals : Setup Unit :=
  removeGlobals rt ["dofile", "loadfile", "print", "setfenv", "getfenv", "newproxy"]

/-- `luajitRegisterVersion`, on the table on the top. -/
def luajitRegisterVersion (version : VersionInfo) : Setup Unit := do
  setEntry rt "REDIS_VERSION_NUM" (number version.redisVersionNum)
  setEntry rt "REDIS_VERSION" (.string (cString version.redisVersion))
  setEntry rt "VALKEY_VERSION_NUM" (number version.valkeyVersionNum)
  setEntry rt "VALKEY_VERSION" (.string (cString version.valkeyVersion))
  setEntry rt "SERVER_NAME" (.string (cString version.serverName))

/-- `luajitRegisterLogFunction`, on the table on the top. -/
def luajitRegisterLogFunction : Setup Unit := do
  setEntry rt "log" (cFunction "luajitLogCommand")
  setEntry rt "LOG_DEBUG" (number 0)
  setEntry rt "LOG_VERBOSE" (number 1)
  setEntry rt "LOG_NOTICE" (number 2)
  setEntry rt "LOG_WARNING" (number 3)

/-- The table `server` of `luajitRegisterServerAPI`. -/
def registerServerTable : Setup Unit := do
  api 0 luaNewTable
  setEntry rt "call" (cFunction "luajitRedisCallCommand")
  setEntry rt "pcall" (cFunction "luajitRedisPCallCommand")
  luajitRegisterLogFunction rt
  luajitRegisterVersion rt surroundings.version
  setEntry rt "setresp" (cFunction "luajitSetResp")
  setEntry rt "sha1hex" (cFunction "luajitRedisSha1hexCommand")
  setEntry rt "error_reply" (cFunction "luajitRedisErrorReplyCommand")
  setEntry rt "status_reply" (cFunction "luajitRedisStatusReplyCommand")
  setEntry rt "set_repl" (cFunction "luajitRedisSetReplCommand")
  setEntry rt "REPL_NONE" (number propagateNone)
  setEntry rt "REPL_AOF" (number propagateAof)
  setEntry rt "REPL_SLAVE" (number propagateRepl)
  setEntry rt "REPL_REPLICA" (number propagateRepl)
  setEntry rt "REPL_ALL" (number (propagateAof ||| propagateRepl))
  setEntry rt "acl_check_cmd" (cFunction "luajitRedisAclCheckCmdPermissionsCommand")
  api 1 (luaSetGlobal rt "server")

/-- The functions that `luajitRegisterServerAPI` puts in the place of those of `math`. -/
def replaceRandom : Setup Unit := do
  api 0 (luaGetGlobal rt "math")
  setEntry rt "random" (cFunction "server_math_random")
  setEntry rt "randomseed" (cFunction "server_math_randomseed")
  api 1 (luaSetGlobal rt "math")

/-- Push a value and store it in the registry with `lua_setfield`. -/
def pushRegistry (name : String) (value : Value) : Setup Unit := do
  api 0 (luaPush value)
  api 1 (luaSetRegistry name)

/-- `luajitRegisterServerAPI`: libraries, deny list and the two tables of the API. -/
def luajitRegisterServerAPI : Setup Unit := do
  luajitLoadLibraries rt surroundings
  luajitRemoveUnsafeGlobals rt
  luajitSaveOnRegistry registryRunCtxName none
  pushGlobal rt "pcall" (cFunction "luajitRedisPcall")
  registerServerTable rt surroundings
  api 0 (luaGetGlobal rt "server")
  api 1 (luaSetGlobal rt "redis")
  replaceRandom rt
  pushRegistry "__gc_count" (number 0)
  pushRegistry "__full_gc_count" (number 0)

/-- `luajitStateInstallErrorHandler`: what its chunk comes to is stored, whatever that is. -/
def luajitStateInstallErrorHandler : Setup Unit := do
  api 0 (luaPushString registryErrorHandlerName)
  let rejected ← api 0 (luaLLoadstring surroundings .errorHandler)
  api 1 (luaPCallOne surroundings rejected .errorHandler)
  api 2 (luaSetTableRegistry registryErrorHandlerName)

/-- `initializeEvalExtras` up to its last line. -/
def evalExtras : Setup Unit := do
  api 0 (luaGetGlobal rt "server")
  setEntry rt "breakpoint" (cFunction "luajitServerBreakpointCommand")
  setEntry rt "debug" (cFunction "luajitServerDebugCommand")
  setEntry rt "replicate_commands" (cFunction "luajitServerReplicateCommandsCommand")
  api 1 (luaSetGlobal rt "server")
  api 0 (luaPushString registryErrorHandlerName)
  api 1 (luaGetTableRegistry registryErrorHandlerName)
  api 1 (luaSetGlobal rt "__server__err__handler")

/-- The handler is stored under a second name, but there is no second copy of it. -/
def initializeEvalExtras : Setup Unit := do
  evalExtras rt
  api 1 (luaSetGlobal rt "__redis__err__handler")

/-- The library is a global too, if the table of loaded libraries is there. -/
def setFfiGlobal (loaded : Value) : Setup Unit :=
  if loaded.isTable then do
    api 1 (luaGetField rt (-1) "ffi")
    api 1 (luaSetGlobal rt "ffi")
  else pure ()

/-- The name of the module's file, if the loader knows it. -/
def setModulePath : Setup Unit :=
  match surroundings.dliFname with
  | some path => pushGlobal rt "__vkm_module_path" (.string (cString path))
  | none => pure ()

/-- A chunk of the FFI failed: the message is printed and dropped. -/
def dropFailure (what : String) : Setup Unit := do
  let err ← api 1 (luaValue (-1))
  api 0 (printError (bytes what ++ errorMessage rt err ++ bytes "\n"))
  api 1 (luaPop 1)

/-- From the second chunk of `luajitLoadFFI` on. -/
def loadFfiApi : Setup Unit := do
  let failed ← luaLDostring surroundings .ffiApi
  if failed then do
    dropFailure rt "WARNING: FFI API init failed: "
    pushGlobal rt "__ffi_cdef_str" .nil
  else do
    api 1 (luaSetGlobal rt "VKM")
    pushGlobal rt "__ffi_cdef_str" .nil
    pushGlobal rt "__vkm_module_path" .nil

/-- `luajitLoadFFI`: the second chunk runs only if the first one did. -/
def luajitLoadFFI : Setup Unit := do
  luajitLoadLib surroundings "ffi" "luaopen_ffi"
  api 0 (luaGetRegistry "_LOADED")
  let loaded ← api 1 (luaValue (-1))
  setFfiGlobal rt loaded
  api 1 (luaPop 1)
  luajitLoadLib surroundings "jit" "luaopen_jit"
  pushGlobal rt "__vkm_get_ctx" (cFunction "luajitFFIGetCurrentContext")
  setModulePath rt surroundings
  let failed ← luaLDostring surroundings .ffiCdef
  if failed then dropFailure rt "WARNING: FFI cdef init failed: "
  else do
    api 1 (luaSetGlobal rt "__ffi_cdef_str")
    loadFfiApi rt surroundings

/-- A table that the engine keeps in the registry. -/
def keepTable (name : String) : Setup Unit := do
  api 0 (luaNewHidden name)
  api 1 (luaSetRegistry name)

/-- What function states have besides. -/
def functionExtras : Setup Unit := do
  keepTable libraryFunctionsName
  keepTable libraryCompiledName
  api 0 (luaGetGlobal rt "server")
  setEntry rt "register_function" (cFunction "luajitUserStateRegisterFunction")
  api 1 (luaPop 1)

/-- `createUserLuaState` from the FFI on. -/
def finishUserLuaState (ctx : EngineCtx) (type : SubsystemType) : Setup Unit := do
  (if ctx.enableFfiApi then luajitLoadFFI rt surroundings else pure ())
  api 0 (luaPushString registryFuncCacheName)
  api 0 (luaNewHidden registryFuncCacheName)
  api 2 (luaSetTableRegistry registryFuncCacheName)
  (if type = .function then functionExtras rt else pure ())
  if ctx.enableFfiApi then pushRegistry ffiCtxName (.lightuserdata 0) else pure ()

/-- `createUserLuaState`, after `luaL_newstate`. -/
def createUserLuaState (ctx : EngineCtx) (type : SubsystemType) : Setup Unit := do
  luajitRegisterServerAPI rt surroundings
  luajitStateInstallErrorHandler surroundings
  (if type = .eval then initializeEvalExtras rt else pure ())
  finishUserLuaState rt surroundings ctx type

end Source

section Slots

variable {rt : Runtime} {surroundings : Surroundings}

/-- The frame loses the function with its arguments and gains the results; the rest of the stack
is as it was. -/
theorem returnTo_slots {world : World SetupHost} {count : Nat} (values : List Value) (lua : State)
    (inside : count + 1 ≤ world.frame.length) :
    (returnTo world count values lua).frame.length =
        world.frame.length - (count + 1) + values.length ∧
      (returnTo world count values lua).base = world.base ∧
        (returnTo world count values lua).breached = world.breached := by
  obtain ⟨height, base, breached⟩ := World.pop_within inside
  refine ⟨?_, base, breached⟩
  rw [returnTo, List.length_append, List.length_reverse, height, Nat.add_comm]

/-- A call takes the function with its arguments and leaves what was asked for. -/
theorem shifts_call (library : String) (nargs nresults : Nat) :
    Shifts (luaCall surroundings library nargs nresults) (nargs + 1) fun _ => nresults := by
  intro world value final ended inside
  unfold luaCall at ended
  split at ended
  · rename_i values lua _
    cases ended
    have slots := returnTo_slots (adjust nresults values) lua inside
    rwa [length_adjust] at slots
  · cases ended

/-- A chunk or a message is pushed. -/
theorem shifts_loadstring (chunk : SetupChunk) :
    Shifts (luaLLoadstring surroundings chunk) 0 fun _ => 1 := by
  rintro world value final ended -
  unfold luaLLoadstring at ended
  split at ended <;> (cases ended; exact ⟨rfl, rfl, rfl⟩)

/-- A chunk gives way to its message or to its results. -/
theorem shifts_pcallChunk (chunk : SetupChunk) : Shifts (luaPCallChunk surroundings chunk) 1
    fun failed => if failed then 1 else chunk.results := by
  intro world value final ended inside
  unfold luaPCallChunk at ended
  split at ended
  · rename_i values lua _
    cases ended
    have slots := returnTo_slots values.val lua inside
    rwa [values.property] at slots
  · rename_i error lua _
    cases ended
    exact returnTo_slots [error] lua inside

/-- What is called gives way to one value in any case. -/
theorem shifts_pcallOne (rejected : Bool) (chunk : SetupChunk) :
    Shifts (luaPCallOne surroundings rejected chunk) 1 fun _ => 1 := by
  intro world value final ended inside
  unfold luaPCallOne at ended
  split at ended
  · cases ended
    exact returnTo_slots [_] _ inside
  · split at ended
    · rename_i values lua _
      cases ended
      have slots := returnTo_slots (adjust 1 values.val) lua inside
      rwa [length_adjust] at slots
    · rename_i error lua _
      cases ended
      exact returnTo_slots [error] lua inside

/-- A global is pushed. -/
theorem shifts_getGlobal (name : String) : Shifts (luaGetGlobal rt name) 0 fun _ => 1 :=
  shifts_index rt (fun world => .table world.lua.globals) _ fun _ => rfl

/-- The key and the value are taken. -/
theorem shifts_setTableRegistry (name : String) :
    Shifts (luaSetTableRegistry name) 2 fun _ => 0 := by
  rintro world value final ended inside
  cases ended
  exact World.pop_within inside

/-- The key gives way to the value. -/
theorem shifts_getTableRegistry (name : String) :
    Shifts (luaGetTableRegistry name) 1 fun _ => 1 := by
  rintro world value final ended inside
  cases ended
  obtain ⟨height, base, breached⟩ := World.pop_within inside
  exact ⟨congrArg (· + 1) height, base, breached⟩

/-- A table is pushed. -/
theorem shifts_newHidden (name : String) : Shifts (luaNewHidden name) 0 fun _ => 1 := by
  rintro world value final ended -
  cases ended
  exact ⟨rfl, rfl, rfl⟩

/-- A message leaves the stack alone. -/
theorem shifts_logWarning (text : Bytes) : Shifts (logWarning text) 0 fun _ => 0 := by
  rintro world value final ended -
  cases ended
  exact ⟨rfl, rfl, rfl⟩

/-- A message leaves the stack alone, on `stderr` too. -/
theorem shifts_printError (text : Bytes) : Shifts (printError text) 0 fun _ => 0 := by
  rintro world value final ended -
  cases ended
  exact ⟨rfl, rfl, rfl⟩

end Slots

section Blocks

variable {before : Nat} (rt : Runtime) (surroundings : Surroundings)

/-- An entry is stored in the table that is on the top. -/
theorem balanced_setEntry (name : String) (value : Value) (below : 1 ≤ before) :
    Balanced before (setEntry rt name value) fun _ => before := by
  refine balanced_step (shifts_pushString name) (by omega) (by omega) fun _ => ?_
  refine balanced_step (shifts_push value) (by omega) (by omega) fun _ => ?_
  exact balanced_last (shifts_setTable rt (-3)) (by omega) (by omega) fun _ => by omega

/-- A global is stored with no slot left. -/
theorem balanced_pushGlobal (name : String) (value : Value) :
    Balanced before (pushGlobal rt name value) fun _ => before := by
  refine balanced_step (shifts_push value) (by omega) (by omega) fun _ => ?_
  exact balanced_last (shifts_setGlobal rt name) (by omega) (by omega) fun _ => by omega

/-- A registry field is stored with no slot left. -/
theorem balanced_pushRegistry (name : String) (value : Value) :
    Balanced before (pushRegistry name value) fun _ => before := by
  refine balanced_step (shifts_push value) (by omega) (by omega) fun _ => ?_
  exact balanced_last (shifts_setRegistry name) (by omega) (by omega) fun _ => by omega

/-- So is a pointer. -/
theorem balanced_saveOnRegistry (name : String) (ptr : Option Nat) :
    Balanced before (luajitSaveOnRegistry name ptr) fun _ => before := by
  refine balanced_step (shifts_pushString name) (by omega) (by omega) fun _ => ?_
  refine balanced_step (shifts_push _) (by omega) (by omega) fun _ => ?_
  exact balanced_last (shifts_setTableRegistry name) (by omega) (by omega) fun _ => by omega

/-- A library is opened with no slot left. -/
theorem balanced_loadLib (libname luafunc : String) :
    Balanced before (luajitLoadLib surroundings libname luafunc) fun _ => before := by
  refine balanced_step (shifts_push _) (by omega) (by omega) fun _ => ?_
  refine balanced_step (shifts_pushString libname) (by omega) (by omega) fun _ => ?_
  exact balanced_last (shifts_call luafunc 1 0) (by omega) (by omega) fun _ => by omega

/-- A library of the module is opened and stored with no slot left. -/
theorem balanced_openGlobal (name luafunc : String) :
    Balanced before (openGlobal rt surroundings name luafunc) fun _ => before := by
  refine balanced_step (shifts_push _) (by omega) (by omega) fun _ => ?_
  refine balanced_step (shifts_call luafunc 0 1) (by omega) (by omega) fun _ => ?_
  exact balanced_last (shifts_setGlobal rt name) (by omega) (by omega) fun _ => by omega

/-- A chunk that fails leaves its message, another one what it returns. -/
theorem balanced_dostring (chunk : SetupChunk) : Balanced before (luaLDostring surroundings chunk)
    fun failed => before + if failed then 1 else chunk.results := by
  refine balanced_step (shifts_loadstring chunk) (by omega) (by omega) fun rejected => ?_
  refine balanced_ite (fun _ => balanced_pure (by simp)) fun _ => ?_
  exact balanced_last (shifts_pcallChunk chunk) (by omega) (by omega) fun _ => by omega

/-- A chunk that returns one value leaves one value, whether it fails or not. -/
theorem balanced_dostring_one {chunk : SetupChunk} (one : chunk.results = 1) :
    Balanced before (luaLDostring surroundings chunk) fun _ => before + 1 := by
  refine (balanced_dostring surroundings chunk).congr fun failed => ?_
  rw [one, ite_self]

/-- The message of a failure is dropped, and success leaves nothing. -/
theorem balanced_wrapLoadFunction :
    Balanced before (luajitWrapLoadFunction rt surroundings) fun _ => before := by
  refine balanced_bind (balanced_dostring surroundings .wrapLoad) fun failed => ?_
  refine balanced_ite ?_ ?_
  · rintro rfl
    refine balanced_step (shifts_value (-1)) (by simp) (by simp) fun err => ?_
    refine balanced_step (shifts_logWarning _) (by omega) (by omega) fun _ => ?_
    exact balanced_last (shifts_pop 1) (by simp) (by simp) fun _ => by simp
  · intro succeeded
    exact balanced_pure (by simp [succeeded, SetupChunk.results])

/-- The old table and its `clock` are dropped. -/
theorem balanced_replaceOs : Balanced before (replaceOs rt) fun _ => before := by
  refine balanced_step (shifts_getGlobal "os") (by omega) (by omega) fun _ => ?_
  refine balanced_step (shifts_getField rt (-1) "clock") (by omega) (by omega) fun _ => ?_
  refine balanced_step shifts_newTable (by omega) (by omega) fun _ => ?_
  refine balanced_step (shifts_pushValue (-2)) (by omega) (by omega) fun _ => ?_
  refine balanced_step (shifts_setFieldC rt (-2) (bytes "clock")) (by omega) (by omega) fun _ => ?_
  refine balanced_step (shifts_setGlobal rt "os") (by omega) (by omega) fun _ => ?_
  exact balanced_last (shifts_pop 2) (by omega) (by omega) fun _ => by omega

/-- All libraries are opened with no slot left. -/
theorem balanced_loadLibraries :
    Balanced before (luajitLoadLibraries rt surroundings) fun _ => before := by
  iterate 6 refine balanced_bind (balanced_loadLib surroundings _ _) fun _ => ?_
  refine balanced_bind (balanced_replaceOs rt) fun _ => ?_
  refine balanced_bind (balanced_loadLib surroundings _ _) fun _ => ?_
  iterate 5 refine balanced_bind (balanced_openGlobal rt surroundings _ _) fun _ => ?_
  exact balanced_wrapLoadFunction rt surroundings

/-- However long the list, no slot is left. -/
theorem balanced_removeGlobals (names : List String) :
    Balanced before (removeGlobals rt names) fun _ => before := by
  induction names with
  | nil => exact balanced_pure rfl
  | cons name rest inductionHypothesis =>
      exact balanced_bind (balanced_pushGlobal rt name .nil) fun _ => inductionHypothesis

/-- The table stays where it is. -/
theorem balanced_registerVersion (version : VersionInfo) (below : 1 ≤ before) :
    Balanced before (luajitRegisterVersion rt version) fun _ => before := by
  iterate 4 refine balanced_bind (balanced_setEntry rt _ _ below) fun _ => ?_
  exact balanced_setEntry rt _ _ below

/-- Here too the table stays where it is. -/
theorem balanced_registerLogFunction (below : 1 ≤ before) :
    Balanced before (luajitRegisterLogFunction rt) fun _ => before := by
  iterate 4 refine balanced_bind (balanced_setEntry rt _ _ below) fun _ => ?_
  exact balanced_setEntry rt _ _ below

/-- The table is taken by `lua_setglobal` when it is complete. -/
theorem balanced_registerServerTable :
    Balanced before (registerServerTable rt surroundings) fun _ => before := by
  have below : 1 ≤ before - 0 + 1 := by omega
  refine balanced_step shifts_newTable (by omega) (by omega) fun _ => ?_
  iterate 2 refine balanced_bind (balanced_setEntry rt _ _ below) fun _ => ?_
  refine balanced_bind (balanced_registerLogFunction rt below) fun _ => ?_
  refine balanced_bind (balanced_registerVersion rt _ below) fun _ => ?_
  iterate 11 refine balanced_bind (balanced_setEntry rt _ _ below) fun _ => ?_
  exact balanced_last (shifts_setGlobal rt "server") (by omega) (by omega) fun _ => by omega

/-- The table `math` is fetched and stored again. -/
theorem balanced_replaceRandom : Balanced before (replaceRandom rt) fun _ => before := by
  have below : 1 ≤ before - 0 + 1 := by omega
  refine balanced_step (shifts_getGlobal "math") (by omega) (by omega) fun _ => ?_
  iterate 2 refine balanced_bind (balanced_setEntry rt _ _ below) fun _ => ?_
  exact balanced_last (shifts_setGlobal rt "math") (by omega) (by omega) fun _ => by omega

/-- The API is registered with no slot left. -/
theorem balanced_registerServerAPI :
    Balanced before (luajitRegisterServerAPI rt surroundings) fun _ => before := by
  have stored : Balanced (before + 1) (api 1 (luaSetGlobal rt "redis") : Setup Unit) fun _ => before :=
    balanced_last (shifts_setGlobal rt "redis") (by omega) (by omega) fun _ => by omega
  refine balanced_bind (balanced_loadLibraries rt surroundings) fun _ => ?_
  refine balanced_bind (balanced_removeGlobals rt _) fun _ => ?_
  refine balanced_bind (balanced_saveOnRegistry _ _) fun _ => ?_
  refine balanced_bind (balanced_pushGlobal rt _ _) fun _ => ?_
  refine balanced_bind (balanced_registerServerTable rt surroundings) fun _ => ?_
  refine balanced_step (shifts_getGlobal "server") (by omega) (by omega) fun _ => ?_
  refine balanced_bind stored fun _ => ?_
  refine balanced_bind (balanced_replaceRandom rt) fun _ => ?_
  exact balanced_bind (balanced_pushRegistry _ _) fun _ => balanced_pushRegistry _ _

/-- The handler takes one slot, whatever the chunk comes to. -/
theorem balanced_installErrorHandler :
    Balanced before (luajitStateInstallErrorHandler surroundings) fun _ => before := by
  refine balanced_step (shifts_pushString _) (by omega) (by omega) fun _ => ?_
  refine balanced_step (shifts_loadstring .errorHandler) (by omega) (by omega) fun rejected => ?_
  refine balanced_step (shifts_pcallOne rejected .errorHandler) (by omega) (by omega) fun _ => ?_
  exact balanced_last (shifts_setTableRegistry _) (by omega) (by omega) fun _ => by omega

/-- What EVAL states have besides is stored with no slot left, up to the last line. -/
theorem balanced_evalExtras : Balanced before (evalExtras rt) fun _ => before := by
  have below : 1 ≤ before - 0 + 1 := by omega
  refine balanced_step (shifts_getGlobal "server") (by omega) (by omega) fun _ => ?_
  iterate 3 refine balanced_bind (balanced_setEntry rt _ _ below) fun _ => ?_
  refine balanced_step (shifts_setGlobal rt "server") (by omega) (by omega) fun _ => ?_
  refine balanced_step (shifts_pushString _) (by omega) (by omega) fun _ => ?_
  refine balanced_step (shifts_getTableRegistry _) (by omega) (by omega) fun _ => ?_
  exact balanced_last (shifts_setGlobal rt _) (by omega) (by omega) fun _ => by omega

/-- The table that is read stays for the caller to pop. -/
theorem balanced_setFfiGlobal (loaded : Value) (below : 1 ≤ before) :
    Balanced before (setFfiGlobal rt loaded) fun _ => before := by
  refine balanced_ite (fun _ => ?_) fun _ => balanced_pure rfl
  refine balanced_step (shifts_getField rt (-1) "ffi") below (by omega) fun _ => ?_
  exact balanced_last (shifts_setGlobal rt "ffi") (by omega) (by omega) fun _ => by omega

/-- No slot is left, whether the file is known or not. -/
theorem balanced_setModulePath :
    Balanced before (setModulePath rt surroundings) fun _ => before := by
  unfold setModulePath
  split
  · exact balanced_pushGlobal rt _ _
  · exact balanced_pure rfl

/-- The message is what the failed chunk left. -/
theorem balanced_dropFailure (what : String) :
    Balanced (before + 1) (dropFailure rt what) fun _ => before := by
  refine balanced_step (shifts_value (-1)) (by omega) (by omega) fun err => ?_
  refine balanced_step (shifts_printError _) (by omega) (by omega) fun _ => ?_
  exact balanced_last (shifts_pop 1) (by omega) (by omega) fun _ => by omega

/-- The second chunk leaves one value, which is dropped as a message or stored. -/
theorem balanced_loadFfiApi : Balanced before (loadFfiApi rt surroundings) fun _ => before := by
  refine balanced_bind (balanced_dostring_one surroundings rfl) fun failed => ?_
  refine balanced_ite (fun _ => ?_) fun _ => ?_
  · exact balanced_bind (balanced_dropFailure rt _) fun _ => balanced_pushGlobal rt _ _
  · refine balanced_step (shifts_setGlobal rt "VKM") (by omega) (by omega) fun _ => ?_
    exact balanced_bind (balanced_pushGlobal rt _ _) fun _ => balanced_pushGlobal rt _ _

/-- The FFI is loaded with no slot left, whichever chunk fails. -/
theorem balanced_loadFFI : Balanced before (luajitLoadFFI rt surroundings) fun _ => before := by
  refine balanced_bind (balanced_loadLib surroundings _ _) fun _ => ?_
  refine balanced_step (shifts_getRegistry "_LOADED") (by omega) (by omega) fun _ => ?_
  refine balanced_step (shifts_value (-1)) (by omega) (by omega) fun loaded => ?_
  refine balanced_bind (balanced_setFfiGlobal rt loaded (by omega)) fun _ => ?_
  refine balanced_step (shifts_pop 1) (by omega) (by omega) fun _ => ?_
  refine balanced_bind (balanced_loadLib surroundings _ _) fun _ => ?_
  refine balanced_bind (balanced_pushGlobal rt _ _) fun _ => ?_
  refine balanced_bind (balanced_setModulePath rt surroundings) fun _ => ?_
  refine balanced_bind (balanced_dostring_one surroundings rfl) fun failed => ?_
  refine balanced_ite (fun _ => balanced_dropFailure rt _) fun _ => ?_
  refine balanced_step (shifts_setGlobal rt "__ffi_cdef_str") (by omega) (by omega) fun _ => ?_
  exact balanced_loadFfiApi rt surroundings

/-- A table is kept with no slot left. -/
theorem balanced_keepTable (name : String) :
    Balanced before (keepTable name) fun _ => before := by
  refine balanced_step (shifts_newHidden name) (by omega) (by omega) fun _ => ?_
  exact balanced_last (shifts_setRegistry name) (by omega) (by omega) fun _ => by omega

/-- What function states have besides is stored with no slot left. -/
theorem balanced_functionExtras : Balanced before (functionExtras rt) fun _ => before := by
  iterate 2 refine balanced_bind (balanced_keepTable _) fun _ => ?_
  refine balanced_step (shifts_getGlobal "server") (by omega) (by omega) fun _ => ?_
  refine balanced_bind (balanced_setEntry rt _ _ (by omega)) fun _ => ?_
  exact balanced_last (shifts_pop 1) (by omega) (by omega) fun _ => by omega

/-- With the FFI or without, no slot is left. -/
theorem balanced_finishUserLuaState (ctx : EngineCtx) (type : SubsystemType) :
    Balanced before (finishUserLuaState rt surroundings ctx type) fun _ => before := by
  refine balanced_bind
    (balanced_ite (fun _ => balanced_loadFFI rt surroundings) fun _ => balanced_pure rfl) fun _ => ?_
  refine balanced_step (shifts_pushString _) (by omega) (by omega) fun _ => ?_
  refine balanced_step (shifts_newHidden _) (by omega) (by omega) fun _ => ?_
  refine balanced_step (shifts_setTableRegistry _) (by omega) (by omega) fun _ => ?_
  refine balanced_bind
    (balanced_ite (fun _ => balanced_functionExtras rt) fun _ => balanced_pure rfl) fun _ => ?_
  exact balanced_ite (fun _ => balanced_pushRegistry _ _) fun _ => balanced_pure rfl

/-- A state of another subsystem than EVAL ends as high as it begins. -/
theorem balanced_createUserLuaState (ctx : EngineCtx) {type : SubsystemType} (other : type ≠ .eval) :
    Balanced before (createUserLuaState rt surroundings ctx type) fun _ => before := by
  refine balanced_bind (balanced_registerServerAPI rt surroundings) fun _ => ?_
  refine balanced_bind (balanced_installErrorHandler surroundings) fun _ => ?_
  have nothing : Balanced before (if type = .eval then initializeEvalExtras rt else pure ())
      fun _ => before := balanced_ite (fun same => absurd same other) fun _ => balanced_pure rfl
  refine balanced_bind nothing fun _ => ?_
  exact balanced_finishUserLuaState rt surroundings ctx type

end Blocks

section Eval

variable {rt : Runtime} {surroundings : Surroundings} {world final : World SetupHost}

/-- With nothing on the stack, a global takes the slot below its bottom. -/
theorem setGlobal_empty {name : String} (empty : world.frame.length = 0)
    (ended : luaSetGlobal rt name world = .done () final) :
    final.frame.length = 0 ∧ final.base = world.base.drop 1 := by
  have same := luaAssign_sameSlots rt (world.pop 1) (.table world.lua.globals)
    (.string (bytes name)) (world.get (-1))
  change World.SameSlots _ (luaSetGlobal rt name world).world at same
  rw [ended] at same
  constructor
  · refine (congrArg List.length same.frame).trans ?_
    rw [World.pop, List.length_drop, empty]
  · exact same.base.trans (by rw [World.pop, empty])

/-- The second name of the handler. -/
theorem initializeEvalExtras_sinks (empty : world.frame.length = 0)
    (ended : (initializeEvalExtras rt world).outcome = .done () final) :
    ⟨0, 1⟩ ∈ (initializeEvalExtras rt world).notes ∧ final.frame.length = 0 ∧
      final.base = world.base.drop 1 := by
  obtain ⟨_, mid, stored, last⟩ := bind_eq_done.mp ended
  obtain ⟨height, base, -⟩ := (balanced_evalExtras rt world empty).2 _ mid stored
  obtain ⟨midHeight, sunk⟩ := setGlobal_empty height last
  refine ⟨?_, midHeight, sunk.trans (congrArg (List.drop 1) base)⟩
  unfold initializeEvalExtras
  rw [notes_bind_of_done stored, api, height]
  exact List.mem_append_right _ List.mem_cons_self

/-- A state for EVAL ends one slot below where it begins. -/
theorem createUserLuaState_sinks {ctx : EngineCtx} (empty : world.frame.length = 0)
    (ended : (createUserLuaState rt surroundings ctx .eval world).outcome = .done () final) :
    ⟨0, 1⟩ ∈ (createUserLuaState rt surroundings ctx .eval world).notes ∧ final.frame.length = 0 ∧
      final.base = world.base.drop 1 := by
  obtain ⟨_, registered, first, ended⟩ := bind_eq_done.mp ended
  obtain ⟨_, handled, second, ended⟩ := bind_eq_done.mp ended
  obtain ⟨_, sunk, third, last⟩ := bind_eq_done.mp ended
  obtain ⟨registeredHeight, registeredBase, -⟩ :=
    (balanced_registerServerAPI rt surroundings world empty).2 _ registered first
  obtain ⟨handledHeight, handledBase, -⟩ :=
    (balanced_installErrorHandler surroundings registered registeredHeight).2 _ handled second
  obtain ⟨noted, sunkHeight, sunkBase⟩ := initializeEvalExtras_sinks handledHeight third
  obtain ⟨finalHeight, finalBase, -⟩ :=
    (balanced_finishUserLuaState rt surroundings ctx .eval sunk sunkHeight).2 _ final last
  refine ⟨?_, finalHeight, ?_⟩
  · unfold createUserLuaState
    rw [notes_bind_of_done first, notes_bind_of_done second, notes_bind_of_done third]
    exact List.mem_append_right _ (List.mem_append_right _ (List.mem_append_left _ noted))
  · rw [finalBase, sunkBase, handledBase, registeredBase]

end Eval

end ValkeyLuajit.Construction
