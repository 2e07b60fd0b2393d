import ValkeyLuajit.Engine.Entry
import ValkeyLuajit.Engine.Lifetime

/-!
# The closure caches

Each of a user's two states has a closure cache, filled by the first call of a
function there. Freeing a function unbinds its name in the function states, but
takes nothing out of a cache.
-/

namespace ValkeyLuajit

open Lua

/-- The closure cache of a state. -/
def Lua.State.closures (lua : State) : Table := lua.hidden registryFuncCacheName

/-- The state of a user in one subsystem, a new one when the user has none. -/
def userLua (ctx : EngineCtx) (user : Bytes) (type : SubsystemType) : State :=
  (((ctx.userStates.lookup user).getD (createPerUserState ctx)).of type).lua

/-- A reset of one type replaces the users' states of this one. -/
def renews (reset type : SubsystemType) : Bool :=
  reset = .all || decide (reset = .eval) == decide (type = .eval)

section Tables

variable {lua : State}

@[simp] theorem Lua.State.closures_mark (libId : Nat) : (lua.mark libId).closures = lua.closures := by
  simp [State.closures, State.mark, libraryCompiledName, registryFuncCacheName]

@[simp] theorem Lua.State.closures_bindFunction (name : Bytes) (callback : Value) :
    (lua.bindFunction name callback).closures = lua.closures := by
  simp [State.closures, State.bindFunction, libraryFunctionsName, registryFuncCacheName]

@[simp] theorem Lua.State.closures_remember (funcId : Nat) (callback : Value) :
    (lua.remember funcId callback).closures =
      lua.closures.rawSet (.lightuserdata funcId) callback := by
  simp [State.closures, State.remember]

end Tables

/-- A raw store adds no key but its own. -/
theorem Lua.Table.mem_rawSet {table : Table} {key value other : Value}
    (member : other ∈ (table.rawSet key value).entries) : other = key ∨ other ∈ table.entries := by
  unfold Table.rawSet at member
  split at member
  · exact .inr (AList.mem_erase.mp member).2
  · exact (AList.mem_insert _).mp member

section Calls

variable {rt : Runtime} {ctx : EngineCtx} {function : LuajitFunction} {type : SubsystemType}
  {load body : ScriptRun} {before after : Core CallHost}

/-- Getting a library ready leaves the cache alone. -/
theorem Readied.closures {lib : LuajitLibrary} {libId : Nat} {result : Except String Bool}
    (readied : Readied rt lib libId load before result after) :
    after.lua.closures = before.lua.closures := by
  have cache : registryFuncCacheName ≠ libraryFunctionsName := by decide
  cases readied with
  | already => rfl
  | rejected => rfl
  | failed _ _ executed => exact executed.effect.hidden _ cache
  | loaded _ _ executed =>
      rw [Core.map_lua, State.closures_mark]
      exact executed.effect.hidden _ cache
  | aborted _ _ executed => exact executed.effect.hidden _ cache

/-- A callback that is found anew goes into the cache under the function's id. -/
theorem Fetched.closures {result : Except String (Option FuncRef)}
    (fetched : Fetched rt ctx function load before result after) :
    after.lua.closures = before.lua.closures ∨
      ∃ callback, after.lua.closures =
        before.lua.closures.rawSet (.lightuserdata function.funcId) (.function callback) := by
  cases fetched with
  | hit => exact .inl rfl
  | rejected => exact .inl rfl
  | compiled => exact .inr ⟨_, State.closures_remember _ _⟩
  | missing => exact .inl rfl
  | unready _ _ _ readied => exact .inl readied.closures
  | crashed _ _ _ readied => exact .inl readied.closures
  | unbound _ _ _ readied => exact .inl readied.closures
  | @bound name libId lib ready callback _ _ _ readied =>
      refine .inr ⟨callback, ?_⟩
      rw [Core.map_lua, State.closures_remember, readied.closures]

/-- A call adds to the cache at most the function that is called. -/
theorem Called.mem_closures {returns : Bool} {key : Value}
    (called : Called rt ctx function type load body before returns after)
    (member : key ∈ after.lua.closures.entries) :
    key = .lightuserdata function.funcId ∨ key ∈ before.lua.closures.entries := by
  have found {result : Except String (Option FuncRef)} {core : Core CallHost}
      (fetched : Fetched rt ctx function load before result core)
      (here : key ∈ core.lua.closures.entries) :
      key = .lightuserdata function.funcId ∨ key ∈ before.lua.closures.entries := by
    rcases fetched.closures with same | ⟨callback, stored⟩
    · exact .inr (same ▸ here)
    · exact Table.mem_rawSet (stored ▸ here)
  cases called with
  | crashed fetched => exact found fetched member
  | refused fetched => exact found fetched member
  | invoked fetched invoked =>
      refine found fetched ?_
      rwa [State.closures, invoked.hidden (by decide)] at member

/-- What the cache has for other functions stays as it is. -/
theorem Called.cached_other {returns : Bool} {other : Nat}
    (called : Called rt ctx function type load body before returns after)
    (apart : other ≠ function.funcId) : after.lua.cached other = before.lua.cached other := by
  have found {result : Except String (Option FuncRef)} {core : Core CallHost}
      (fetched : Fetched rt ctx function load before result core) :
      core.lua.closures.rawGet (.lightuserdata other) =
        before.lua.closures.rawGet (.lightuserdata other) := by
    rcases fetched.closures with same | ⟨callback, stored⟩
    · rw [same]
    · rw [stored, Table.rawGet_rawSet_of_ne _ _ (by simpa using apart)]
  cases called with
  | crashed fetched => exact found fetched
  | refused fetched => exact found fetched
  | invoked fetched invoked =>
      rw [State.cached, invoked.hidden (by decide)]
      exact found fetched

end Calls

namespace System

/-- What every run keeps: the numbers in order and the users' states prepared. -/
structure Steady (system : System) : Prop where
  numbers : system.Numbering
  sound : system.Sound

theorem initial_steady (enableFfiApi : Bool) : (initial enableFfiApi).Steady :=
  ⟨initial_numbering enableFfiApi, initial_sound enableFfiApi⟩

theorem steady_step {rt : Runtime} {system : System} (request : Request) (steady : system.Steady)
    (admitted : system.Admits request) : (system.step rt request).Steady :=
  ⟨numbering_step request steady.numbers, sound_step request steady.sound admitted⟩

/-- Every key of every closure cache is the id of a function the server holds. -/
def ClosuresLive (system : System) : Prop :=
  ∀ user type, ∀ key ∈ (userLua system.ctx user type).closures.entries,
    ∃ handle ∈ system.held, key = .lightuserdata handle.compiled.function.funcId

/-- No closure cache is larger than the number of functions the server holds. -/
def ClosuresBounded (system : System) : Prop :=
  ∀ user type,
    (userLua system.ctx user type).closures.entries.keys.length ≤ system.held.length

/-- A free leaves no closure of the function in any cache. -/
def ForgetsFreed (rt : Runtime) (system : System) : Request → Prop
  | .free handle => ∀ user type, .lightuserdata handle.compiled.function.funcId ∉
      (userLua (system.step rt (.free handle)).ctx user type).closures.entries
  | _ => True

/-- A function that is freed is in no user's closure cache. -/
def FreesUncached (system : System) : Request → Prop
  | .free handle => ∀ user type, .lightuserdata handle.compiled.function.funcId ∉
      (userLua system.ctx user type).closures.entries
  | _ => True

/-- Live keys are no more than the functions held. -/
theorem ClosuresLive.bounded {system : System} (live : system.ClosuresLive) :
    system.ClosuresBounded := by
  intro user type
  have listed : (userLua system.ctx user type).closures.entries.keys ⊆
      system.held.map fun handle => .lightuserdata handle.compiled.function.funcId := by
    intro key member
    obtain ⟨handle, held, rfl⟩ := live user type key member
    exact List.mem_map_of_mem held
  have distinct : (userLua system.ctx user type).closures.entries.keys.Nodup :=
    (userLua system.ctx user type).closures.entries.nodupKeys
  calc (userLua system.ctx user type).closures.entries.keys.length
      ≤ (system.held.map fun handle =>
          Value.lightuserdata handle.compiled.function.funcId).length :=
        (List.subperm_of_subset distinct listed).length_le
    _ = system.held.length := List.length_map _

section Steps

variable {rt : Runtime} {system : System} {user : Bytes} {type : SubsystemType}

theorem closures_createPerUserState (ctx : EngineCtx) :
    ((createPerUserState ctx).of type).lua.closures = .empty := by
  unfold PerUserState.of
  split <;> rfl

/-- The caches are those of the users the engine knows. -/
theorem closures_congr {before after : EngineCtx}
    (same : (after.userStates.lookup user).map (fun state => (state.of type).lua.closures) =
      (before.userStates.lookup user).map fun state => (state.of type).lua.closures) :
    (userLua after user type).closures = (userLua before user type).closures := by
  unfold userLua
  cases earlier : before.userStates.lookup user <;>
    cases later : after.userStates.lookup user <;>
    simp only [earlier, later, Option.map_none, Option.map_some, reduceCtorEq,
      Option.some.injEq] at same
  · simp only [Option.getD_none, closures_createPerUserState]
  · exact same

theorem closures_compile {kind : SubsystemType} {code : Bytes} {fuel : Nat}
    {topLevel : ScriptRun} :
    (userLua (system.step rt (.compile kind code fuel topLevel)).ctx user type).closures =
      (userLua system.ctx user type).closures :=
  closures_congr (by rw [step_compile_userStates])

/-- A call changes one cache of one user. -/
theorem closures_call {username : Bytes} {handle : Held} {keys args : List Bytes}
    {load body : ScriptRun} :
    (userLua (system.step rt (.call username handle keys args load body)).ctx user type).closures =
      if user = cString username ∧ (type = .eval ↔ handle.type = .eval) then
        (callOutcome rt system.ctx username handle keys args load body).world.lua.closures
      else (userLua system.ctx user type).closures := by
  by_cases own : user = cString username
  · subst own
    simp only [userLua, step_call_lookup]
    by_cases eval : type = .eval <;> by_cases called : handle.type = .eval <;>
      simp [PerUserState.of, PerUserState.put, eval, called, leaveLua, userState]
  · rw [if_neg fun both => own both.1]
    refine closures_congr ?_
    rw [step_call_lookup, if_neg own]

/-- Freeing a function leaves every cache as it is. -/
theorem closures_free {handle : Held} (prepared : system.UsersPrepared) :
    (userLua (system.step rt (.free handle)).ctx user type).closures =
      (userLua system.ctx user type).closures := by
  apply closures_congr
  rw [step_free_lookup]
  cases handle.compiled.function.data with
  | source text => rfl
  | functionRef name libId =>
      cases present : system.ctx.userStates.lookup user with
      | none => rfl
      | some state =>
          have functions := (prepared user state present).2.functions (by decide)
          have freed : (removeFunction rt name state).functionLua.lua.closures =
              state.functionLua.lua.closures := by
            rw [removeFunction_functionLua functions, State.closures_bindFunction]
          simp only [Option.map_some, Option.some.injEq, PerUserState.of]
          split
          · rfl
          · exact freed

/-- A reset empties the caches of the states it replaces. -/
theorem closures_reset {reset : SubsystemType} {async insecure : Bool} :
    (userLua (system.step rt (.reset reset async insecure)).ctx user type).closures =
      if renews reset type then .empty else (userLua system.ctx user type).closures := by
  simp only [userLua, step_reset_lookup]
  cases present : system.ctx.userStates.lookup user with
  | none =>
      have blank (ctx : EngineCtx) :
          ((createPerUserState ctx).of type).lua.closures = .empty :=
        closures_createPerUserState ctx
      simp [blank]
  | some state =>
      cases reset <;> cases type <;> rfl

/-- A request that frees nothing cached keeps the caches live, and one that keeps them
live frees nothing cached. -/
theorem closuresLive_step_iff (request : Request) (steady : system.Steady)
    (live : system.ClosuresLive) (admitted : system.Admits request) :
    (system.step rt request).ClosuresLive ↔ system.FreesUncached request := by
  obtain ⟨numbers, sound⟩ := steady
  cases request with
  | compile kind code fuel topLevel =>
      refine iff_of_true (fun user type key member => ?_) trivial
      rw [closures_compile] at member
      obtain ⟨handle, held, rfl⟩ := live user type key member
      refine ⟨handle, ?_, rfl⟩
      simp only [step]
      split
      · exact held
      · exact held
      · exact List.mem_append_left _ held
  | call username handle keys args load body =>
      refine iff_of_true (fun user type key member => ?_) trivial
      rw [closures_call] at member
      split at member
      · rename_i own
        have called := callOutcome_called rt (sound admitted.1) username handle keys args load body
        rcases called.mem_closures member with rfl | old
        · exact ⟨handle, admitted.2, rfl⟩
        · exact live (cString username) handle.type key old
      · exact live user type key member
  | free handle =>
      have prepared := sound admitted.1
      constructor
      · intro after user type cached
        obtain ⟨other, still, same⟩ := after user type _ (by rwa [closures_free prepared])
        have apart := (mem_step_free numbers).mp still
        refine apart.1 (List.inj_on_of_nodup_map numbers.funcIds apart.2 admitted.2 ?_)
        simpa using same.symm
      · intro uncached user type key member
        rw [closures_free prepared] at member
        obtain ⟨other, held, rfl⟩ := live user type key member
        refine ⟨other, (mem_step_free numbers).mpr ⟨?_, held⟩, rfl⟩
        rintro rfl
        exact uncached user type member
  | reset reset async insecure =>
      refine iff_of_true (fun user type key member => ?_) trivial
      rw [closures_reset] at member
      split at member
      · simp [Table.empty] at member
      · exact live user type key member

/-- A free forgets the function exactly when no cache has it. -/
theorem forgetsFreed_iff (request : Request) (sound : system.Sound)
    (admitted : system.Admits request) :
    system.ForgetsFreed rt request ↔ system.FreesUncached request := by
  cases request with
  | free handle => simp only [ForgetsFreed, FreesUncached, closures_free (sound admitted.1)]
  | _ => exact Iff.rfl

end Steps

theorem initial_closuresLive (enableFfiApi : Bool) : (initial enableFfiApi).ClosuresLive := by
  intro user type key member
  have blank : (userLua (initial enableFfiApi).ctx user type).closures = .empty :=
    closures_createPerUserState _
  rw [blank] at member
  simp [Table.empty] at member

/-- In every run, all closure caches hold none but live functions in every state, are
bounded by the functions the server holds, and forget what is freed, exactly when no
function is freed that some user's closure cache has. -/
theorem closuresLive_throughout_iff (rt : Runtime) (enableFfiApi : Bool) (requests : List Request)
    (run : (machine rt).Run (initial enableFfiApi) requests) :
    ((machine rt).Visits (fun system => system.ClosuresLive ∧ system.ClosuresBounded)
        (initial enableFfiApi) requests ∧
      (machine rt).Along (ForgetsFreed rt) (initial enableFfiApi) requests) ↔
      (machine rt).Along FreesUncached (initial enableFfiApi) requests := by
  have sound := sound_throughout run
  have forgets : (machine rt).Along (ForgetsFreed rt) (initial enableFfiApi) requests ↔
      (machine rt).Along FreesUncached (initial enableFfiApi) requests :=
    run.along_iff (fun _ request sound admitted => forgetsFreed_iff request sound admitted) sound
  have exact : (machine rt).Visits ClosuresLive (initial enableFfiApi) requests ↔
      (machine rt).Along FreesUncached (initial enableFfiApi) requests := by
    have stepExact (system : System) (request : Request) (steady : system.Steady)
        (live : system.ClosuresLive) (admitted : (machine rt).Admits system request) :
        ((machine rt).step system request).ClosuresLive ↔ system.FreesUncached request :=
      closuresLive_step_iff request steady live admitted
    have stepSteady (system : System) (request : Request) (steady : system.Steady)
        (_ : system.ClosuresLive) (admitted : (machine rt).Admits system request)
        (_ : system.FreesUncached request) : ((machine rt).step system request).Steady :=
      steady_step request steady admitted
    exact run.visits_iff_along stepExact stepSteady (initial_closuresLive enableFfiApi)
      (initial_steady enableFfiApi)
  constructor
  · rintro ⟨visits, -⟩
    exact exact.mp (visits.mono fun _ both => both.1)
  · intro guarded
    refine ⟨InputMachine.Visits.mono ?_ (exact.mpr guarded), forgets.mpr guarded⟩
    intro system live
    exact ⟨live, live.bounded⟩

/-- The handle of the first EVAL script that is compiled. -/
def scriptHandle : Held := ⟨⟨none, none, ⟨.source [1], 1⟩, 0⟩, [1], 0, 0⟩

/-- An EVAL script is compiled, called by a user and freed. -/
def evaluateOnce : List Request :=
  [.compile .eval [1] 1 idleBody, .call [] scriptHandle [] [] idleBody idleBody,
    .free scriptHandle]

/-- The user's closure cache keeps the script. -/
theorem freed_script_stays_cached :
    (machine .plain).Run (initial false) evaluateOnce ∧
      ¬ ((machine .plain).Visits (fun system => system.ClosuresLive ∧ system.ClosuresBounded)
          (initial false) evaluateOnce ∧
        (machine .plain).Along (ForgetsFreed .plain) (initial false) evaluateOnce) := by
  refine ⟨by decide +kernel, ?_⟩
  rintro ⟨-, -, -, forgets, -⟩
  have cached : Value.lightuserdata 1 ∈ (userLua ((machine .plain).after (initial false)
      evaluateOnce).ctx (cString []) .eval).closures.entries := by decide +kernel
  exact forgets (cString []) .eval cached

/-- Here the environment is reset before the script is freed. -/
def evaluateAndReset : List Request :=
  [.compile .eval [1] 1 idleBody, .call (bytes "alice") scriptHandle [] [] idleBody idleBody,
    .reset .all true false, .free scriptHandle]

/-- A script that was called is freed without a trace after a reset. -/
theorem reset_script_forgotten :
    (machine .plain).Visits (fun system => system.ClosuresLive ∧ system.ClosuresBounded)
        (initial false) evaluateAndReset ∧
      (machine .plain).Along (ForgetsFreed .plain) (initial false) evaluateAndReset := by
  have run : (machine .plain).Run (initial false) evaluateAndReset := by decide +kernel
  refine (closuresLive_throughout_iff .plain false _ run).mpr
    ⟨trivial, trivial, trivial, ?_, trivial⟩
  intro user type
  let called : System := (machine .plain).after (initial false) (evaluateAndReset.take 2)
  have blank : (userLua (called.step .plain (.reset .all true false)).ctx user type).closures =
      .empty := by
    rw [closures_reset]
    rfl
  exact blank ▸ List.not_mem_nil

end System

end ValkeyLuajit
