import ValkeyLuajit.Engine.State

/-!
# Freeing functions and resetting the environment

Freeing a function removes its name from every user's table and lowers the count
of its library. A reset drops the libraries and replaces users' states; the old
states are closed at once or by the callback that is handed back.
-/

namespace ValkeyLuajit

open Lua

/-- `luajitRemoveFunctionFromUserState`. -/
def luajitRemoveFunctionFromUserState (rt : Runtime) (functionName : Bytes) :
    LuaM CallHost Unit := do
  luaGetRegistry libraryFunctionsName
  let functions ← luaValue (-1)
  if functions.isTable then do
    luaPush .nil
    luaSetFieldC rt (-2) functionName
  else pure ()
  luaPop 1

/-- The same for one user. -/
def removeFunction (rt : Runtime) (functionName : Bytes) (user : PerUserState) : PerUserState :=
  { user with
    functionLua := leaveLua
      (luajitRemoveFunctionFromUserState rt functionName user.functionLua.enter).world }

/-- One function of the library is gone; with the last one the library goes. -/
def releaseLibrary (libraries : AList fun _ : Nat => LuajitLibrary) (libId : Nat) :
    AList fun _ : Nat => LuajitLibrary :=
  match libraries.lookup libId with
  | none => libraries
  | some lib =>
      if lib.refCount - 1 = 0 then libraries.erase libId
      else libraries.insert libId { lib with refCount := lib.refCount - 1 }

/-- Releasing a library leaves the others alone. -/
theorem lookup_releaseLibrary_of_ne {libraries : AList fun _ : Nat => LuajitLibrary}
    {libId other : Nat} (ne : other ≠ libId) :
    (releaseLibrary libraries libId).lookup other = libraries.lookup other := by
  unfold releaseLibrary
  split
  · rfl
  · split
    · exact AList.lookup_erase_ne ne
    · exact AList.lookup_insert_ne ne

/-- Releasing a library lowers its count or drops it. -/
theorem lookup_releaseLibrary_self {libraries : AList fun _ : Nat => LuajitLibrary} {libId : Nat}
    {lib : LuajitLibrary} (found : libraries.lookup libId = some lib) :
    (releaseLibrary libraries libId).lookup libId =
      if lib.refCount - 1 = 0 then none
      else some { lib with refCount := lib.refCount - 1 } := by
  unfold releaseLibrary
  rw [found]
  dsimp only
  split
  · exact AList.lookup_erase _ _
  · exact AList.lookup_insert _

theorem releaseLibrary_absent {libraries : AList fun _ : Nat => LuajitLibrary} {libId : Nat}
    (absent : libId ∉ libraries) : releaseLibrary libraries libId = libraries := by
  rw [releaseLibrary, AList.lookup_eq_none.mpr absent]

theorem mem_of_mem_releaseLibrary {libraries : AList fun _ : Nat => LuajitLibrary}
    {libId other : Nat} (member : other ∈ releaseLibrary libraries libId) : other ∈ libraries := by
  by_cases same : other = libId
  · subst same
    by_contra absent
    rw [releaseLibrary_absent absent] at member
    exact absent member
  · rw [← AList.lookup_isSome, lookup_releaseLibrary_of_ne same] at member
    exact AList.lookup_isSome.mp member

/-- What is left after a release was there before, with the same code. -/
theorem lookup_of_lookup_releaseLibrary {libraries : AList fun _ : Nat => LuajitLibrary}
    {libId other : Nat} {lib : LuajitLibrary}
    (found : (releaseLibrary libraries libId).lookup other = some lib) :
    ∃ former, libraries.lookup other = some former ∧ former.code = lib.code := by
  by_cases same : other = libId
  · subst same
    cases before : libraries.lookup other with
    | none =>
        rw [releaseLibrary_absent (AList.lookup_eq_none.mp before), before] at found
        cases found
    | some former =>
        rw [lookup_releaseLibrary_self before] at found
        split at found
        · cases found
        · cases found
          exact ⟨former, rfl, rfl⟩
  · rw [lookup_releaseLibrary_of_ne same] at found
    exact ⟨lib, found, rfl⟩

/-- `luajitEngineFreeFunction`. -/
def luajitEngineFreeFunction (rt : Runtime) (ctx : EngineCtx) (compiled : CompiledFunction) :
    EngineCtx :=
  match compiled.function.data with
  | .source _ => ctx
  | .functionRef name libId =>
      { ctx with
        userStates := ctx.userStates.mapValues fun _ => removeFunction rt name
        libraries := releaseLibrary ctx.libraries libId }

/-- A `luajitPerUserState` that is about to be destroyed: NULL states are skipped. -/
structure OldState where
  evalLua : Option UserLua
  functionLua : Option UserLua

/-- What a reset takes from a user. -/
def oldState (type : SubsystemType) (user : PerUserState) : OldState :=
  match type with
  | .all => ⟨some user.evalLua, some user.functionLua⟩
  | .eval => ⟨some user.evalLua, none⟩
  | .function => ⟨none, some user.functionLua⟩

/-- What a reset leaves the user with, unless the whole entry goes. -/
def renewedState (ctx : EngineCtx) (type : SubsystemType) (user : PerUserState) : PerUserState :=
  if type = .eval then { user with evalLua := createUserLuaState ctx .eval }
  else { user with functionLua := createUserLuaState ctx .function }

/-- The outcome of a reset: the engine, the states closed at once and those the
callback closes. -/
structure ResetOutcome where
  ctx : EngineCtx
  closed : List OldState
  callback : Option (List OldState)

/-- The part of a reset that is about libraries. -/
def resetLibraries (ctx : EngineCtx) (type : SubsystemType) : EngineCtx :=
  if type = .function ∨ type = .all then { ctx with libraries := ∅, nextLibId := 0 } else ctx

/-- `luajitEngineResetEnv`. The server answers whether the insecure API is enabled. -/
def luajitEngineResetEnv (ctx : EngineCtx) (type : SubsystemType) (async insecure : Bool) :
    ResetOutcome :=
  let ctx := resetLibraries ctx type
  let oldStates := ctx.userStates.entries.map fun entry => oldState type entry.2
  let userStates := if type = .all then ∅
    else ctx.userStates.mapValues fun _ => renewedState ctx type
  { ctx := { ctx with userStates := userStates, luaEnableInsecureApi := insecure }
    closed := if async then [] else oldStates
    callback := if async ∧ oldStates ≠ [] then some oldStates else none }

end ValkeyLuajit
