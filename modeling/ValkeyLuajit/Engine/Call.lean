import ValkeyLuajit.Engine.Compile
import ValkeyLuajit.Script.Call

/-!
# Calling a compiled function

`luajitEngineFunctionCall` fetches the callback from the closure cache of the
user's state, or loads it: EVAL text is compiled again, a library is loaded on
the first call of one of its functions. Every early exit pops by hand what it
has pushed.
-/

namespace ValkeyLuajit

open Lua

section

variable (rt : Runtime)

/-- `lua_tostring` of the error value on the top, or a fixed text for NULL. -/
def errorText (error : Value) : Bytes :=
  if error.isString then cString (error.text rt) else bytes "unknown error"

/-- Reply with a formatted error. -/
def replyErrorFormat (text : Bytes) : LuaM CallHost Unit := reply (.error text true)

/-- Load the text of an EVAL script: true when the function is on the top. -/
def loadEvalScript (text : Bytes) : LuaM CallHost Bool := do
  let rejected ← luaLLoadbuffer rt text
  if rejected then do
    let errmsg ← luaValue (-1)
    replyErrorFormat (bytes "ERR Error loading script: " ++ errorText rt errmsg)
    luaPop 2
    pure false
  else pure true

/-- `luajitCompileLibraryInUserState`: true when it failed, with the error on the top. An
observer notes when the top-level code has run to its end. -/
def luajitCompileLibraryInUserState (code : Bytes) (load : ScriptRun) : LuaM CallHost Bool := do
  let rejected ← luaLLoadbuffer rt code
  if rejected then pure true
  else luaPCall 0 fun callee arguments => do
    let _ ← enterUserCode rt .function .library load callee arguments
    emit (.completed callee)
    pure []

/-- Look a library's id up in the table of loaded libraries. -/
def isCompiled (libId : Nat) : LuaM CallHost Bool := do
  luaGetRegistry libraryCompiledName
  luaPush (.number (.finite libId))
  luaGetTable rt (-2)
  let mark ← luaValue (-1)
  luaPop 1
  luaPop 1
  pure (!mark.isNil)

/-- Mark a library as loaded. -/
def markCompiled (libId : Nat) : LuaM CallHost Unit := do
  luaGetRegistry libraryCompiledName
  luaPush (.number (.finite libId))
  luaPush (.boolean true)
  luaSetTable rt (-3)
  luaPop 1

/-- Load the library unless it is loaded: false when an error was replied. -/
def ensureCompiled (lib : LuajitLibrary) (libId : Nat) (load : ScriptRun) :
    LuaM CallHost Bool := do
  let compiled ← isCompiled rt libId
  if compiled then pure true
  else do
    let failed ← luajitCompileLibraryInUserState rt lib.code load
    if failed then do
      let errmsg ← luaValue (-1)
      replyErrorFormat (bytes "ERR Error compiling library " ++ lib.name ++ bytes ": " ++
        errorText rt errmsg)
      luaPop 2
      pure false
    else do
      markCompiled rt libId
      pure true

/-- Look the function up by name: true when the callback is on the top. -/
def lookupCallback (name : Bytes) : LuaM CallHost Bool := do
  luaGetRegistry libraryFunctionsName
  luaGetFieldC rt (-1) name
  let callback ← luaValue (-1)
  if callback.isNil || !callback.isFunction then do
    luaPop 3
    replyErrorFormat (bytes "ERR Function " ++ name ++ bytes " not found in library")
    pure false
  else do
    luaRemove (-2)
    pure true

/-- Resolve a function of a library: true when the callback is on the top. -/
def loadLibraryFunction (ctx : EngineCtx) (name : Bytes) (libId : Nat) (load : ScriptRun) :
    LuaM CallHost Bool :=
  match ctx.libraries.lookup libId with
  | none => do
      replyErrorFormat (bytes "ERR Library for function " ++ name ++ bytes " not found")
      luaPop 2
      pure false
  | some lib => do
      let ready ← ensureCompiled rt lib libId load
      if ready then lookupCallback rt name else pure false

/-- Store the pointer FFI code finds its context under, if FFI is enabled. -/
def setFfiContext (ctx : EngineCtx) (pointer : Nat) : LuaM CallHost Unit :=
  if ctx.enableFfiApi then do
    luaPush (.lightuserdata pointer)
    luaSetRegistry ffiCtxName
  else pure ()

/-- The address of the module context. -/
def moduleCtxPointer : Nat := 3

/-- Call the callback on the top of the stack, under the error handler. -/
def invokeCallback (ctx : EngineCtx) (type : SubsystemType) (keys args : List Bytes)
    (body : ScriptRun) : LuaM CallHost Unit := do
  luaGetRegistry registryErrorHandlerName
  luaInsert (-2)
  setFfiContext ctx moduleCtxPointer
  luajitCallFunction rt
    { moduleCtx := moduleCtxPointer
      runCtx := 4
      type := type
      replicationFlags := propagateAof + propagateRepl
      resp := 2
      luaEnableInsecureApi := ctx.luaEnableInsecureApi }
    keys args
    (enterUserCode rt (if type = .eval then .eval else .function) .body body)
  setFfiContext ctx 0
  luaPop 1

/-- The callback on the top goes into the closure cache below it. -/
def rememberCallback (function : LuajitFunction) : LuaM CallHost Unit := do
  luaPush (.lightuserdata function.funcId)
  luaPushValue (-2)
  luaRawSet (-4)
  luaRemove (-2)

/-- The part of `luajitEngineFunctionCall` for a function that is not in the cache:
true when the callback is on the top, and cached. -/
def resolveCallback (ctx : EngineCtx) (function : LuajitFunction) (load : ScriptRun) :
    LuaM CallHost Bool := do
  let resolved ← match function.data with
    | .source text => loadEvalScript rt text
    | .functionRef name libId => loadLibraryFunction rt ctx name libId load
  if resolved then do
    rememberCallback function
    pure true
  else pure false

/-- Find the callback in the closure cache, or resolve it: true when it is on the top. -/
def findCallback (ctx : EngineCtx) (function : LuajitFunction) (load : ScriptRun) :
    LuaM CallHost Bool := do
  luaGetRegistry registryFuncCacheName
  luaPush (.lightuserdata function.funcId)
  luaRawGet (-2)
  let cached ← luaValue (-1)
  if cached.isFunction then do
    luaRemove (-2)
    pure true
  else do
    luaPop 1
    resolveCallback rt ctx function load

/-- `luajitEngineFunctionCall`, from the closure cache on. `load` is what the top
level of the library does if it is loaded, `body` what the callback does. -/
def luajitEngineFunctionCall (ctx : EngineCtx) (function : LuajitFunction) (type : SubsystemType)
    (keys args : List Bytes) (load body : ScriptRun) : LuaM CallHost Unit := do
  let found ← findCallback rt ctx function load
  if found then invokeCallback rt ctx type keys args body else pure ()

end

end ValkeyLuajit
