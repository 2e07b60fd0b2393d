import ValkeyLuajit.Function.Load
import ValkeyLuajit.Library.Dictionary

/-!
# The engine's data

Every user has two Lua states of their own, made when first needed. Libraries are
kept as text under numeric ids and loaded into a user's function state on the
first call of one of their functions. Ids are 64-bit counters, which no run of the
server exhausts; they are natural numbers here.
-/

namespace ValkeyLuajit

open Lua

/-- `luajitLibrary`. -/
structure LuajitLibrary where
  code : Bytes
  libId : Nat
  name : Bytes
  refCount : Int
deriving DecidableEq

/-- A `lua_State` between two calls: what is left on its stack, and the rest. -/
structure UserLua where
  stack : List Value
  lua : State

/-- `luajitPerUserState`. -/
structure PerUserState where
  evalLua : UserLua
  functionLua : UserLua

/-- `luajitEngineCtx`. -/
structure EngineCtx where
  userStates : AList fun _ : Bytes => PerUserState
  libraries : AList fun _ : Nat => LuajitLibrary
  nextFuncId : Nat
  nextLibId : Nat
  enableFfiApi : Bool
  luaEnableInsecureApi : Bool

/-- `createEngineContext`, once the configuration is loaded. -/
def createEngineContext (enableFfiApi : Bool) : EngineCtx where
  userStates := ∅
  libraries := ∅
  nextFuncId := 0
  nextLibId := 0
  enableFfiApi := enableFfiApi
  luaEnableInsecureApi := false

/-- The error handler `luajitStateInstallErrorHandler` leaves in the registry. -/
def errorHandler : Value := .function (.native "error_handler")

/-- The registry `createUserLuaState` leaves: the slots the engine reads. -/
def userRegistry (enableFfiApi : Bool) (type : SubsystemType) (name : String) : Value :=
  if name = registryErrorHandlerName then errorHandler
  else if name = "__gc_count" ∨ name = "__full_gc_count" then .number (.finite 0)
  else if name = registryFuncCacheName then .hidden registryFuncCacheName
  else if type = .function ∧ name = libraryFunctionsName then .hidden libraryFunctionsName
  else if type = .function ∧ name = libraryCompiledName then .hidden libraryCompiledName
  else if enableFfiApi ∧ name = ffiCtxName then .lightuserdata 0
  else .nil

/-- `createUserLuaState`. What scripts find in the globals is the subject of the
modules on the sandbox; the engine itself reads only the registry. The stack is counted
from where the construction leaves it. -/
def createUserLuaState (ctx : EngineCtx) (type : SubsystemType) : UserLua where
  stack := []
  lua := { luaLNewstate with registry := userRegistry ctx.enableFfiApi type }

def createPerUserState (ctx : EngineCtx) : PerUserState where
  evalLua := createUserLuaState ctx .eval
  functionLua := createUserLuaState ctx .function

/-- The user's states, which are made when there are none. -/
def userState (ctx : EngineCtx) (username : Bytes) : PerUserState :=
  (ctx.userStates.lookup (cString username)).getD (createPerUserState ctx)

/-- `getOrCreateUserState`, as far as the dictionary goes. -/
def getOrCreateUserState (ctx : EngineCtx) (username : Bytes) : EngineCtx :=
  { ctx with userStates := ctx.userStates.insertNew (cString username) (createPerUserState ctx) }

/-- The state of one subsystem. -/
def PerUserState.of (user : PerUserState) (type : SubsystemType) : UserLua :=
  if type = .eval then user.evalLua else user.functionLua

/-- Put the state of one subsystem in place. -/
def PerUserState.put (user : PerUserState) (type : SubsystemType) (lua : UserLua) : PerUserState :=
  if type = .eval then { user with evalLua := lua } else { user with functionLua := lua }

/-- A C function of the module is entered with what is on the stack below it. -/
def UserLua.enter (user : UserLua) : World CallHost :=
  ⟨[], user.stack, false, user.lua, ⟨none, []⟩, []⟩

/-- The state a C function of the module leaves. -/
def leaveLua (world : World CallHost) : UserLua := ⟨world.stack, world.lua⟩

/-- What the closure cache holds for a function. -/
def Lua.State.cached (lua : State) (funcId : Nat) : Value :=
  (lua.hidden registryFuncCacheName).rawGet (.lightuserdata funcId)

/-- Put a callback into the closure cache. -/
def Lua.State.remember (lua : State) (funcId : Nat) (callback : Value) : State :=
  { lua with
    hidden := Function.update lua.hidden registryFuncCacheName
      ((lua.hidden registryFuncCacheName).rawSet (.lightuserdata funcId) callback) }

/-- The library counts as loaded in a function state. -/
def Lua.State.loaded (lua : State) (libId : Nat) : Bool :=
  !((lua.hidden libraryCompiledName).rawGet (.number (.finite libId))).isNil

/-- Mark a library as loaded. -/
def Lua.State.mark (lua : State) (libId : Nat) : State :=
  { lua with
    hidden := Function.update lua.hidden libraryCompiledName
      ((lua.hidden libraryCompiledName).rawSet (.number (.finite libId)) (.boolean true)) }

section Tables

variable {lua : State} {funcId libId : Nat} {callback : Value} {name : Bytes}

/-- The cache changes for one function. -/
theorem Lua.State.cached_remember (other : Nat) :
    (lua.remember funcId callback).cached other =
      if other = funcId then callback else lua.cached other := by
  simp [State.cached, State.remember, Table.rawGet_rawSet]

@[simp] theorem Lua.State.cached_mark (other : Nat) :
    (lua.mark libId).cached other = lua.cached other := by
  simp [State.cached, State.mark, libraryCompiledName, registryFuncCacheName]

@[simp] theorem Lua.State.cached_bindFunction (other : Nat) :
    (lua.bindFunction name callback).cached other = lua.cached other := by
  simp [State.cached, State.bindFunction, libraryFunctionsName, registryFuncCacheName]

/-- One more library is loaded. -/
theorem Lua.State.loaded_mark (other : Nat) :
    (lua.mark libId).loaded other = (decide (other = libId) || lua.loaded other) := by
  by_cases same : other = libId
  · simp [State.loaded, State.mark, Table.rawGet_rawSet, same, Value.isNil, Value.type]
  · have apart : (other : Rat) ≠ libId := by exact_mod_cast same
    simp [State.loaded, State.mark, Table.rawGet_rawSet, same, apart]

@[simp] theorem Lua.State.loaded_remember (other : Nat) :
    (lua.remember funcId callback).loaded other = lua.loaded other := by
  simp [State.loaded, State.remember, libraryCompiledName, registryFuncCacheName]

@[simp] theorem Lua.State.loaded_bindFunction (other : Nat) :
    (lua.bindFunction name callback).loaded other = lua.loaded other := by
  simp [State.loaded, State.bindFunction, libraryFunctionsName, libraryCompiledName]

@[simp] theorem Lua.State.functionNamed_remember (other : Bytes) :
    (lua.remember funcId callback).functionNamed other = lua.functionNamed other := by
  simp [State.functionNamed, State.remember, libraryFunctionsName, registryFuncCacheName]

@[simp] theorem Lua.State.functionNamed_mark (other : Bytes) :
    (lua.mark libId).functionNamed other = lua.functionNamed other := by
  simp [State.functionNamed, State.mark, libraryFunctionsName, libraryCompiledName]

end Tables

end ValkeyLuajit
