import ValkeyLuajit.Script.Execution

/-!
# Loading a function library

`luajitFunctionLibraryCreate` compiles the library in a scratch state, runs its
top-level code under `lua_pcall`, and turns the functions it registered into
compiled functions.
-/

namespace ValkeyLuajit

open Lua

/-- The union in `luajitFunction`. -/
inductive FunctionData where
  /-- An EVAL script keeps its text. -/
  | source (text : Bytes)
  /-- A function of a library keeps its name and the library's id. -/
  | functionRef (name : Bytes) (libId : Nat)
deriving DecidableEq

/-- `luajitFunction`. -/
structure LuajitFunction where
  data : FunctionData
  funcId : Nat
deriving DecidableEq

/-- `ValkeyModuleScriptingEngineCompiledFunction`. -/
structure CompiledFunction where
  name : Option ModuleString
  desc : Option ModuleString
  function : LuajitFunction
  flags : Nat
deriving DecidableEq

/-- `lua_State` as `luaL_newstate` makes it, with its globals at address 0. -/
def luaLNewstate : State where
  heap := { (default : Heap) with next := 1 }
  globals := 0
  registry := fun _ => .nil
  hidden := fun _ => .empty
  hook := none

/-- The scratch state of one load, with nothing on its stack. -/
def scratchState : World LoadHost := ⟨[], [], false, luaLNewstate, {}, []⟩

/-- Where the top-level code of a library starts in the scratch state. -/
def scratchStart : World LoadHost :=
  ⟨[], [], false,
    { luaLNewstate with
      registry := Function.update luaLNewstate.registry registryLoadCtxName
        (.lightuserdata loadCtxPointer)
      hook := some ⟨"luajitEngineLoadHook", .count luaHookCheckInterval⟩ }, {}, []⟩

/-- `freePendingFunc`, for every function of the load context. -/
def freePending : List PendingFunc → LuaM LoadHost Unit
  | [] => pure ()
  | pf :: rest => do
      free (pf.name.map ModuleString.id)
      free (pf.desc.map ModuleString.id)
      free (some pf.id)
      freePending rest

/-- The compiled function of a pending one. Its name is copied as a C string. -/
def compilePending (pf : PendingFunc) : CompiledFunction where
  name := pf.name
  desc := pf.desc
  function := ⟨.functionRef (cString ((pf.name.map ModuleString.text).getD [])) 0, 0⟩
  flags := pf.flags

/-- The functions of the load context. -/
def loadedFunctions : LuaM LoadHost (List PendingFunc) := fun world =>
  .done world.host.functions world

/-- After `lua_pcall`: the message of the error, which is read outside a protected
call, or the functions. -/
def collectFunctions (rt : Runtime) (raised : Bool) :
    LuaM LoadHost (Except Bytes (List CompiledFunction)) := do
  let functions ← loadedFunctions
  if raised then do
    let info ← luajitExtractErrorInformation rt
    luaPop 1
    freePending functions
    pure (.error (bytes "Error registering functions: " ++ info.msg.getD []))
  else pure (.ok (functions.map compilePending))

/-- `luajitFunctionLibraryCreate`: the compiled functions, or the message in `err`. -/
def luajitFunctionLibraryCreate (rt : Runtime) (fuel : Nat) (code : Bytes)
    (topLevel : ScriptRun) : LuaM LoadHost (Except Bytes (List CompiledFunction)) := do
  let rejected ← luaLLoadbuffer rt code
  if rejected then do
    let message ← luaValue (-1)
    luaPop 1
    pure (.error (bytes "Error compiling function: " ++ cString (message.text rt)))
  else do
    luajitSaveOnRegistry registryLoadCtxName (some loadCtxPointer)
    luaSetHook (some ⟨"luajitEngineLoadHook", .count luaHookCheckInterval⟩)
    let raised ← luaPCall 0 fun _ _ => do
      let _ ← (scratchSetting rt fuel).run topLevel
      pure []
    let result ← collectFunctions rt raised
    luaSetHook none
    luajitSaveOnRegistry registryLoadCtxName none
    pure result

/-- The scratch state after the top-level code, with this on its stack. -/
def scratchEnd (frame : List Value) (final : World LoadHost) : World LoadHost :=
  ⟨frame, [], final.breached, final.lua, final.host, final.metaCalls⟩

/-- A load whose source compiles goes on from the end of its top-level code. -/
theorem luajitFunctionLibraryCreate_accepted {rt : Runtime} {fuel : Nat} {code : Bytes}
    {topLevel : ScriptRun} (accepted : rt.syntaxError code = none) :
    luajitFunctionLibraryCreate rt fuel code topLevel scratchState =
      (match (scratchSetting rt fuel).run topLevel scratchStart with
        | .done _ final => collectFunctions rt false (scratchEnd [] final)
        | .raised error final => collectFunctions rt true (scratchEnd [error] final)
        | .aborted reason final => .aborted reason (scratchEnd [] final)).andThen
      fun result => (do
        luaSetHook none
        luajitSaveOnRegistry registryLoadCtxName none
        pure result) := by
  have starts : (⟨[], [], false, scratchStart.lua, {}, []⟩ : World LoadHost) = scratchStart := rfl
  simp only [luajitFunctionLibraryCreate, luaLLoadbuffer, accepted, scratchState, LuaM.bind_apply,
    Outcome.andThen_done, World.push_mk, Bool.false_eq_true, if_false, luajitSaveOnRegistry_some,
    luaSetHook_apply, World.setHook_mk, luaPCall, inFrame, World.pop_mk_succ, World.pop_mk_zero,
    World.stack_mk, List.take_zero, List.reverse_nil, List.append_nil]
  rw [show ({ luaLNewstate with
      registry := Function.update luaLNewstate.registry registryLoadCtxName
        (.lightuserdata loadCtxPointer)
      hook := some ⟨"luajitEngineLoadHook", .count luaHookCheckInterval⟩ } : State) =
    scratchStart.lua from rfl, starts]
  cases (scratchSetting rt fuel).run topLevel scratchStart <;> rfl

end ValkeyLuajit
