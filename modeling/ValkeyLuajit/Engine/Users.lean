import ValkeyLuajit.Engine.Invoke
import ValkeyLuajit.Engine.System

/-!
# What every run keeps of the users' states

As long as the process lives, every user's states are as the engine made them, as
far as it relies on them: the tables are where they were and nothing of a call is
left behind.
-/

namespace ValkeyLuajit

open Lua

/-- No function is installed as a hook exactly when there is no hook. -/
theorem hookFunction_eq_none {lua : State} : hookFunction lua = none ↔ lua.hook = none := by
  simp [hookFunction]

section Called

variable {rt : Runtime} {ctx : EngineCtx} {function : LuajitFunction} {type : SubsystemType}
  {load body : ScriptRun} {before after : Core CallHost}

/-- A prepared state is one that has its registry and no hook. -/
theorem Prepared.of_same {first second : State} (prepared : Prepared type first)
    (registry : second.registry = first.registry)
    (hook : hookFunction second = hookFunction first) : Prepared type second where
  runCtx := by rw [registry, prepared.runCtx]
  hook := by rw [← hookFunction_eq_none, hook, hookFunction_eq_none, prepared.hook]
  ffi := by rw [registry]; exact prepared.ffi
  cache := by rw [registry, prepared.cache]
  functions := by rw [registry]; exact prepared.functions
  compiled := by rw [registry]; exact prepared.compiled

/-- Outside the slots of a call, the registry comes out of it as it went in. -/
theorem Invoked.registry {callback : FuncRef} {returns : Bool}
    (invoked : Invoked rt ctx type body callback before returns after) {name : String}
    (other : name ∉ counterNames) (notRunCtx : name ≠ registryRunCtxName)
    (notFfi : name ≠ ffiCtxName) :
    after.lua.registry name = before.lua.registry name := by
  have armed : (before.arm ctx type).lua.registry name = before.lua.registry name :=
    (State.arm_registry notRunCtx).trans (State.withFfi_registry notFfi)
  have cleared (core : Core CallHost) :
      (core.disarm ctx).lua.registry name = core.lua.registry name :=
    (State.withFfi_registry notFfi).trans (State.disarm_registry notRunCtx)
  cases invoked with
  | unstarted _ handled => exact (handled.guard.registry name other).trans armed
  | aborted handled executed =>
      exact (congrFun executed.effect.registry name).trans ((handled.guard.registry name other).trans armed)
  | unreported handled executed reported =>
      exact (reported.guard.registry name other).trans ((congrFun executed.effect.registry name).trans
        ((handled.guard.registry name other).trans armed))
  | finished handled executed reported =>
      exact (cleared _).trans ((reported.guard.registry name other).trans
        ((congrFun executed.effect.registry name).trans
          ((handled.guard.registry name other).trans armed)))

/-- A call that returns leaves the run context and the hook cleared, and the FFI
context as it was when FFI is disabled. -/
theorem Invoked.idle {callback : FuncRef} (idle : Idle before.lua)
    (invoked : Invoked rt ctx type body callback before true after) : Idle after.lua := by
  cases invoked with
  | finished handled executed reported =>
      rename_i begun core arguments outcome
      refine ⟨?_, ?_, ?_⟩
      · exact (State.withFfi_registry (by decide)).trans (State.disarm_runCtx _)
      · exact State.withFfi_hook _ _ _
      · cases enabled : ctx.enableFfiApi with
        | true => exact .inr (by simp [Core.disarm, State.withFfi, enabled])
        | false =>
            have kept : (core.disarm ctx).lua.registry ffiCtxName =
                before.lua.registry ffiCtxName := by
              have cleared : (core.disarm ctx).lua = core.lua.disarm := by
                simp [Core.disarm, State.withFfi, enabled]
              have armed : (before.arm ctx type).lua = before.lua.arm := by
                simp [Core.arm, State.withFfi, enabled]
              calc (core.disarm ctx).lua.registry ffiCtxName
                  = core.lua.registry ffiCtxName := by
                    rw [cleared]
                    exact State.disarm_registry (by decide)
                _ = outcome.world.lua.registry ffiCtxName :=
                    reported.guard.registry _ (by decide)
                _ = begun.lua.registry ffiCtxName := congrFun executed.effect.registry _
                _ = (before.arm ctx type).lua.registry ffiCtxName :=
                    handled.guard.registry _ (by decide)
                _ = before.lua.registry ffiCtxName := by
                    rw [armed]
                    exact State.arm_registry (by decide)
            rw [kept]
            exact idle.ffi

/-- A call that returns leaves the state prepared for the next. -/
theorem Called.prepared (prepared : Prepared type before.lua)
    (called : Called rt ctx function type load body before true after) : Prepared type after.lua := by
  cases called with
  | refused fetched => exact prepared.of_same fetched.guard.1 fetched.guard.2
  | invoked fetched invoked =>
      have found := prepared.of_same fetched.guard.1 fetched.guard.2
      have registry {name : String} (other : name ∉ counterNames ∧ name ≠ registryRunCtxName ∧
          name ≠ ffiCtxName) := invoked.registry other.1 other.2.1 other.2.2
      exact
        { toIdle := invoked.idle found.toIdle
          cache := by rw [registry (by decide), found.cache]
          functions := by rw [registry (by decide)]; exact found.functions
          compiled := by rw [registry (by decide)]; exact found.compiled }

end Called

/-- A state is made prepared. -/
theorem createUserLuaState_prepared (ctx : EngineCtx) {type : SubsystemType} (one : type ≠ .all) :
    Prepared type (createUserLuaState ctx type).lua where
  runCtx := by simp [createUserLuaState, userRegistry, registryRunCtxName,
    registryErrorHandlerName, registryFuncCacheName, libraryFunctionsName, libraryCompiledName,
    ffiCtxName]
  hook := rfl
  ffi := by
    cases ctx.enableFfiApi <;>
      simp [createUserLuaState, userRegistry, registryErrorHandlerName, registryFuncCacheName,
        libraryFunctionsName, libraryCompiledName, ffiCtxName]
  cache := rfl
  functions := by
    cases type <;> first | exact absurd rfl | exact fun _ => rfl | exact absurd rfl one
  compiled := by
    cases type <;> first | exact absurd rfl | exact fun _ => rfl | exact absurd rfl one

/-- Removing a function unbinds its name. -/
theorem removeFunction_functionLua {rt : Runtime} {name : Bytes} {user : PerUserState}
    (functions : user.functionLua.lua.registry libraryFunctionsName =
      .hidden libraryFunctionsName) :
    (removeFunction rt name user).functionLua.lua = user.functionLua.lua.bindFunction name .nil := by
  have table : (Value.hidden libraryFunctionsName).isTable = true := rfl
  simp [removeFunction, luajitRemoveFunctionFromUserState, UserLua.enter, functions, leaveLua,
    table, luaSetFieldC, State.bindFunction]

/-- A function of a library is called in the function state. -/
theorem Held.refs (handle : Held) : ∀ name libId,
    handle.compiled.function.data = .functionRef name libId → handle.type ≠ .eval := by
  intro name libId data
  simp [Held.type, data]

theorem Held.type_library (handle : Held) {name : Bytes} {libId : Nat}
    (data : handle.compiled.function.data = .functionRef name libId) : handle.type = .function := by
  simp [Held.type, data]

namespace System

/-- Every user's states are prepared. -/
def UsersPrepared (system : System) : Prop :=
  ∀ username user, system.ctx.userStates.lookup username = some user →
    Prepared .eval user.evalLua.lua ∧ Prepared .function user.functionLua.lua

/-- So are those that are made when they are first needed. -/
theorem UsersPrepared.states {system : System} (prepared : system.UsersPrepared)
    (username : Bytes) :
    Prepared .eval (userState system.ctx username).evalLua.lua ∧
      Prepared .function (userState system.ctx username).functionLua.lua := by
  unfold userState
  cases found : system.ctx.userStates.lookup (cString username) with
  | some user => exact prepared _ _ found
  | none => exact ⟨createUserLuaState_prepared _ (by decide),
      createUserLuaState_prepared _ (by decide)⟩

theorem UsersPrepared.of {system : System} (prepared : system.UsersPrepared) (username : Bytes)
    (handle : Held) :
    Prepared handle.type ((userState system.ctx username).of handle.type).lua := by
  have both := prepared.states username
  unfold Held.type
  split
  · exact both.1
  · exact both.2

/-- How a call by a user goes. -/
theorem callOutcome_called (rt : Runtime) {system : System} (prepared : system.UsersPrepared)
    (username : Bytes) (handle : Held) (keys args : List Bytes) (load body : ScriptRun) :
    Called rt system.ctx handle.compiled.function handle.type load body
      ⟨((userState system.ctx username).of handle.type).lua, ⟨none, []⟩, []⟩
      (decide (callOutcome rt system.ctx username handle keys args load body).IsDone)
      (callOutcome rt system.ctx username handle keys args load body).world.core :=
  luajitEngineFunctionCall_called [] ((userState system.ctx username).of handle.type).stack false
    ⟨_, ⟨none, []⟩, []⟩ (prepared.of username handle) handle.refs

/-- The users' states are prepared as long as the process lives. -/
def Sound (system : System) : Prop := system.crashed = false → system.UsersPrepared

theorem initial_sound (enableFfiApi : Bool) : (initial enableFfiApi).Sound := by
  intro _ username user found
  simp [initial, createEngineContext] at found

/-- Compiling gives out ids and adds libraries. -/
theorem step_compile_ctx {rt : Runtime} {system : System} {type : SubsystemType} {code : Bytes}
    {fuel : Nat} {topLevel : ScriptRun} : ∃ libraries nextFuncId nextLibId,
      (system.step rt (.compile type code fuel topLevel)).ctx =
        { system.ctx with
          libraries := libraries
          nextFuncId := nextFuncId
          nextLibId := nextLibId } := by
  simp only [step]
  split
  · exact ⟨_, _, _, rfl⟩
  · rename_i run
    rw [luajitEngineCompileCode_error run]
    exact ⟨_, _, _, rfl⟩
  · rename_i run
    obtain ⟨-, ⟨-, -, after⟩ | ⟨-, -, -, after⟩⟩ := luajitEngineCompileCode_ok run
    · exact ⟨_, _, _, after⟩
    · exact ⟨_, _, _, after⟩

/-- Compiling touches no user. -/
theorem step_compile_userStates {rt : Runtime} {system : System} {type : SubsystemType}
    {code : Bytes} {fuel : Nat} {topLevel : ScriptRun} :
    (system.step rt (.compile type code fuel topLevel)).ctx.userStates = system.ctx.userStates := by
  obtain ⟨libraries, nextFuncId, nextLibId, ctx⟩ := step_compile_ctx
  rw [ctx]

/-- A call changes one state of one user. -/
theorem step_call_lookup {rt : Runtime} {system : System} {username : Bytes} {handle : Held}
    {keys args : List Bytes} {load body : ScriptRun} (other : Bytes) :
    (system.step rt (.call username handle keys args load body)).ctx.userStates.lookup other =
      if other = cString username then some ((userState system.ctx username).put handle.type
        (leaveLua (callOutcome rt system.ctx username handle keys args load body).world))
      else system.ctx.userStates.lookup other := by
  simp only [step, ValkeyLuajit.callCtx]
  split
  · subst other
    exact AList.lookup_insert _
  · exact AList.lookup_insert_ne ‹_›

/-- Freeing a function of a library removes its name for every user. -/
theorem step_free_lookup {rt : Runtime} {system : System} {handle : Held} (username : Bytes) :
    (system.step rt (.free handle)).ctx.userStates.lookup username =
      match handle.compiled.function.data with
      | .source _ => system.ctx.userStates.lookup username
      | .functionRef name _ => (system.ctx.userStates.lookup username).map (removeFunction rt name) := by
  simp only [step, luajitEngineFreeFunction]
  cases handle.compiled.function.data with
  | source text => rfl
  | functionRef name libId => exact AList.lookup_mapValues _ _ _

/-- A reset drops the users or renews one of their states. -/
theorem step_reset_lookup {rt : Runtime} {system : System} {type : SubsystemType}
    {async insecure : Bool} (username : Bytes) :
    (system.step rt (.reset type async insecure)).ctx.userStates.lookup username =
      if type = .all then none
      else (system.ctx.userStates.lookup username).map
        (renewedState (resetLibraries system.ctx type) type) := by
  have users : (resetLibraries system.ctx type).userStates = system.ctx.userStates := by
    unfold resetLibraries
    split <;> rfl
  simp only [step, luajitEngineResetEnv, users]
  split
  · exact AList.lookup_empty _
  · exact AList.lookup_mapValues _ _ _

/-- Every request keeps the users' states prepared. -/
theorem sound_step {rt : Runtime} {system : System} (request : Request) (sound : system.Sound)
    (admitted : system.Admits request) : (system.step rt request).Sound := by
  intro alive other user found
  cases request with
  | compile type code fuel topLevel =>
      rw [step_compile_userStates] at found
      exact sound admitted other user found
  | call username handle keys args load body =>
      have prepared := sound admitted.1
      have returns : (callOutcome rt system.ctx username handle keys args load body).IsDone := by
        simpa [step] using alive
      rw [step_call_lookup] at found
      split at found
      · have called := callOutcome_called rt prepared username handle keys args load body
        rw [decide_eq_true returns] at called
        have after := called.prepared (prepared.of username handle)
        have both := prepared.states username
        cases found
        unfold Held.type at after ⊢
        split at after
        · exact ⟨after, both.2⟩
        · exact ⟨both.1, after⟩
      · exact prepared other user found
  | free handle =>
      have prepared := sound admitted.1
      rw [step_free_lookup] at found
      split at found
      · exact prepared other user found
      · obtain ⟨before, present, rfl⟩ := Option.map_eq_some_iff.mp found
        have both := prepared other before present
        refine ⟨both.1, both.2.of_same ?_ ?_⟩ <;>
          rw [removeFunction_functionLua (both.2.functions (by decide))] <;> rfl
  | reset type async insecure =>
      rw [step_reset_lookup] at found
      split at found
      · simp at found
      · rename_i one
        obtain ⟨before, present, rfl⟩ := Option.map_eq_some_iff.mp found
        have both := sound admitted other before present
        unfold renewedState
        split
        · exact ⟨createUserLuaState_prepared _ (by decide), both.2⟩
        · exact ⟨both.1, createUserLuaState_prepared _ (by decide)⟩

/-- The users' states are prepared in every state of a run. -/
theorem sound_throughout {rt : Runtime} {enableFfiApi : Bool} {requests : List Request}
    (run : (machine rt).Run (initial enableFfiApi) requests) :
    (machine rt).Visits Sound (initial enableFfiApi) requests :=
  run.visits (fun _ request sound admitted _ => sound_step request sound admitted)
    (initial_sound enableFfiApi) (run.mono fun _ _ _ => trivial)

end System

end ValkeyLuajit
