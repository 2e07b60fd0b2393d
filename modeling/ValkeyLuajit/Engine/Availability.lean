import ValkeyLuajit.Engine.Users
import ValkeyLuajit.Script.Assertions

/-!
# Top-level code without a run context

The top-level code of a library runs twice without a run context: in the scratch
state when the library is compiled, and in a user's function state when one of its
functions is first called. Both states expose functions that assert one.
-/

namespace ValkeyLuajit

open Lua

/-- An abort under `lua_pcall` is one of the code it called. -/
theorem luaPCall_aborted_iff {σ : Type} {count : Nat} {reason : String} {world : World σ}
    {body : FuncRef → List Value → LuaM σ (List Value)} :
    (∃ final, luaPCall count body world = .aborted reason final) ↔
      ∃ final, body (world.callee count) (world.stack.take count).reverse
        ⟨(world.stack.take count).reverse.reverse, (world.pop (count + 1)).stack, false,
          world.lua, world.host, world.metaCalls⟩ = .aborted reason final := by
  have frames : (∃ final, luaPCall count body world = .aborted reason final) ↔
      ∃ final, inFrame (world.stack.take count).reverse
        (body (world.callee count) (world.stack.take count).reverse) (world.pop (count + 1)) =
          .aborted reason final := by
    simp only [luaPCall]
    cases inFrame (world.stack.take count).reverse
      (body (world.callee count) (world.stack.take count).reverse) (world.pop (count + 1)) <;> simp
  rw [frames]
  simp only [inFrame_eq_aborted]
  constructor
  · rintro ⟨final, inner, ended, -⟩
    exact ⟨inner, ended⟩
  · rintro ⟨inner, ended⟩
    exact ⟨_, inner, ended, rfl⟩

/-- A continuation that makes no such assertion adds no abort of this kind. -/
theorem andThen_aborted_iff {σ α β : Type} {next : α → LuaM σ β}
    (passes : ∀ value world final, next value world ≠ .aborted runCtxAssertion final)
    {outcome : Outcome σ α} :
    (∃ final, outcome.andThen next = .aborted runCtxAssertion final) ↔
      ∃ final, outcome = .aborted runCtxAssertion final := by
  cases outcome with
  | done value mid => simp [passes value mid]
  | raised error mid => simp
  | aborted reason mid => simp

/-- Loading a library dies of the assertion exactly when its top-level code comes to
call a function that makes it. -/
theorem luajitFunctionLibraryCreate_aborted_iff {rt : Runtime} {fuel : Nat} {code : Bytes}
    {topLevel : ScriptRun} :
    (∃ final, luajitFunctionLibraryCreate rt fuel code topLevel scratchState =
      .aborted runCtxAssertion final) ↔
      rt.syntaxError code = none ∧
        (scratchSetting rt fuel).ReachesAssertion topLevel.actions scratchStart := by
  cases accepted : rt.syntaxError code with
  | some message =>
      simp [luajitFunctionLibraryCreate, luaLLoadbuffer, accepted, scratchState]
  | none =>
      let body : FuncRef → List Value → LuaM LoadHost (List Value) := fun _ _ => do
        let _ ← (scratchSetting rt fuel).run topLevel
        pure []
      have starts : luajitFunctionLibraryCreate rt fuel code topLevel scratchState =
          (luaPCall 0 body ⟨[.function (.chunk code)], [], false, scratchStart.lua, {}, []⟩).andThen
            fun raised => (do
              let result ← collectFunctions rt raised
              luaSetHook none
              luajitSaveOnRegistry registryLoadCtxName none
              pure result) := by
        simp [luajitFunctionLibraryCreate, luaLLoadbuffer, accepted, scratchState, scratchStart,
          body]
      have passes (raised : Bool) (world final : World LoadHost) : ((do
          let result ← collectFunctions rt raised
          luaSetHook none
          luajitSaveOnRegistry registryLoadCtxName none
          pure result) : LuaM LoadHost (Except Bytes (List CompiledFunction))) world ≠
            .aborted runCtxAssertion final := by
        have collects : ∀ final, collectFunctions rt raised world ≠ .aborted runCtxAssertion final :=
          (calm_collectFunctions raised).passes world
        rw [LuaM.bind_apply]
        cases ended : collectFunctions rt raised world with
        | done result mid => simp [luajitSaveOnRegistry]
        | raised error mid => simp
        | aborted reason mid =>
            rw [ended] at collects
            simpa using collects final
      have entered : (∃ final, body (.chunk code) [] scratchStart =
          .aborted runCtxAssertion final) ↔ ∃ final,
          (scratchSetting rt fuel).run topLevel scratchStart = .aborted runCtxAssertion final := by
        simp only [body, LuaM.bind_apply]
        exact andThen_aborted_iff fun _ world final => (Calm.pure []).passes world final
      have empty : NoRunCtx scratchStart := by
        simp [NoRunCtx, scratchStart, registryLoadCtxName, registryRunCtxName, luaLNewstate]
      rw [starts, andThen_aborted_iff passes, luaPCall_aborted_iff]
      simp only [true_and]
      rw [← (scratch_unguarded fuel).run_aborted_iff topLevel empty, ← entered]
      rfl

section Call

variable {rt : Runtime} {ctx : EngineCtx} {function : LuajitFunction} {type : SubsystemType}
  {load : ScriptRun} {before after : Core CallHost} {frame base : List Value} {breached : Bool}

/-- The top-level code of a library calls a function that needs a run context. -/
def CallsAsserting (load : ScriptRun) : Prop :=
  ∃ action ∈ load.actions, action.Asserts StateKind.function.exposed

/-- Top-level code that starts in an idle state is loading a library. -/
theorem Executed.loading {callee : FuncRef} {arguments : List Value}
    {outcome : Outcome CallHost (List Value)} (idle : Idle before.lua)
    (functions : before.lua.registry libraryFunctionsName = .hidden libraryFunctionsName)
    (executed : Executed rt .function .library load callee arguments before outcome) :
    ∃ inner, Loading inner ∧ (userSetting rt .function .library).run load inner = outcome := by
  obtain ⟨inner, entered, ended⟩ := executed.runs
  have lua : inner.lua = before.lua := congrArg Core.lua entered
  exact ⟨inner,
    { runCtx := by rw [NoRunCtx, lua, idle.runCtx]
      functions := by rw [lua, functions]
      hook := by rw [lua, hookFunction_eq_none, idle.hook] }, ended⟩

/-- It dies of the assertion exactly when it calls such a function. -/
theorem Executed.aborted_iff {callee : FuncRef} {arguments : List Value}
    {outcome : Outcome CallHost (List Value)} (idle : Idle before.lua)
    (functions : before.lua.registry libraryFunctionsName = .hidden libraryFunctionsName)
    (executed : Executed rt .function .library load callee arguments before outcome) :
    (∃ final, outcome = .aborted runCtxAssertion final) ↔ CallsAsserting load := by
  obtain ⟨inner, loading, ended⟩ := executed.loading idle functions
  rcases loading.run rt .library load with
    ⟨asserts, final, aborted⟩ | ⟨calm, never⟩
  · rw [← ended, aborted]
    exact iff_of_true ⟨final, rfl⟩ asserts
  · refine iff_of_false ?_ calm
    rintro ⟨final, aborted⟩
    rw [aborted] at ended
    exact never _ _ ended

/-- Getting a library ready dies of it when there is something to run. -/
theorem Readied.aborted_iff {lib : LuajitLibrary} {libId : Nat} {result : Except String Bool}
    (idle : Idle before.lua)
    (functions : before.lua.registry libraryFunctionsName = .hidden libraryFunctionsName)
    (readied : Readied rt lib libId load before result after) :
    result = .error runCtxAssertion ↔
      (before.lua.loaded libId = false ∧ rt.syntaxError lib.code = none) ∧ CallsAsserting load := by
  cases readied with
  | already loaded => simp [loaded]
  | rejected _ rejected => simp [rejected]
  | failed fresh accepted executed =>
      have calm := executed.aborted_iff idle functions
      simp at calm
      simp [calm]
  | loaded fresh accepted executed =>
      have calm := executed.aborted_iff idle functions
      simp at calm
      simp [calm]
  | aborted fresh accepted executed =>
      have dies := executed.aborted_iff idle functions
      simpa [fresh, accepted] using dies

/-- So does finding the callback. -/
theorem Fetched.aborted_iff {result : Except String (Option FuncRef)}
    (prepared : Prepared type before.lua)
    (refs : ∀ name libId, function.data = .functionRef name libId → type ≠ .eval)
    (fetched : Fetched rt ctx function load before result after) :
    result = .error runCtxAssertion ↔
      startsLibrary rt ctx before.lua function ∧ CallsAsserting load := by
  have library {name : Bytes} {libId : Nat} {lib : LuajitLibrary} {answer : Except String Bool}
      {ready : Core CallHost} (uncached : (before.lua.cached function.funcId).isFunction = false)
      (data : function.data = .functionRef name libId)
      (found : ctx.libraries.lookup libId = some lib)
      (readied : Readied rt lib libId load before answer ready) :
      answer = .error runCtxAssertion ↔
        startsLibrary rt ctx before.lua function ∧ CallsAsserting load := by
    rw [readied.aborted_iff prepared.toIdle (prepared.functions (refs name libId data))]
    simp [startsLibrary, uncached, data, found]
  cases fetched with
  | hit found => simp [startsLibrary, found, Value.isFunction, Value.type]
  | rejected _ data => simp [startsLibrary, data]
  | compiled _ data => simp [startsLibrary, data]
  | missing _ data lookup => simp [startsLibrary, data, lookup]
  | unready uncached data lookup readied =>
      rw [← library uncached data lookup readied]
      simp
  | crashed uncached data lookup readied =>
      rw [← library uncached data lookup readied]
      simp
  | unbound uncached data lookup readied =>
      rw [← library uncached data lookup readied]
      simp
  | bound uncached data lookup readied =>
      rw [← library uncached data lookup readied]
      simp

variable (rt ctx load before frame base breached) in
/-- Finding a callback dies of the assertion exactly when it starts a library whose
top-level code calls a function that makes it. -/
theorem findCallback_aborted_iff (prepared : Prepared type before.lua)
    (refs : ∀ name libId, function.data = .functionRef name libId → type ≠ .eval) :
    (∃ final, findCallback rt ctx function load (before.on frame base breached) =
      .aborted runCtxAssertion final) ↔
        startsLibrary rt ctx before.lua function ∧ CallsAsserting load := by
  obtain ⟨result, after, fetched, found⟩ := findCallback_fetched rt frame base breached ctx load
    prepared refs
  rw [← fetched.aborted_iff prepared refs]
  match result with
  | .ok none => simp [show _ = _ from found]
  | .ok (some callback) => simp [show _ = _ from found]
  | .error reason =>
      obtain ⟨slots, ended⟩ := found
      simp [ended]

end Call

namespace System

/-- No assertion on the run context fails while the request runs the top-level code of
a library. -/
def RunCtxAvailable (rt : Runtime) (system : System) : Request → Prop
  | .compile type code fuel topLevel => type ≠ .eval →
      ¬ ∃ final, luajitFunctionLibraryCreate rt fuel code topLevel scratchState =
        .aborted runCtxAssertion final
  | .call username handle _ _ load _ =>
      ¬ ∃ final, findCallback rt system.ctx handle.compiled.function load
        ((userState system.ctx username).of handle.type).enter = .aborted runCtxAssertion final
  | _ => True

/-- The top-level code that the request runs calls no function that needs a run context. -/
def AssertsNothing (rt : Runtime) (system : System) : Request → Prop
  | .compile type code fuel topLevel => type ≠ .eval → rt.syntaxError code = none →
      ¬ (scratchSetting rt fuel).ReachesAssertion topLevel.actions scratchStart
  | .call username handle _ _ load _ =>
      startsLibrary rt system.ctx ((userState system.ctx username).of handle.type).lua
        handle.compiled.function → ¬ CallsAsserting load
  | _ => True

/-- In every run, no assertion on the run context fails in the top-level code of a library
exactly when that code never calls a function that makes one. -/
theorem runCtx_available_throughout_iff (rt : Runtime) (enableFfiApi : Bool)
    (requests : List Request) (run : (machine rt).Run (initial enableFfiApi) requests) :
    (machine rt).Along (RunCtxAvailable rt) (initial enableFfiApi) requests ↔
      (machine rt).Along (AssertsNothing rt) (initial enableFfiApi) requests := by
  refine InputMachine.Run.along_iff ?_ (sound_throughout run) run
  intro system request sound admitted
  cases request with
  | compile type code fuel topLevel =>
      simp only [RunCtxAvailable, AssertsNothing, luajitFunctionLibraryCreate_aborted_iff, not_and]
  | call username handle keys args load body =>
      have prepared := (sound admitted.1).of username handle
      have dies := findCallback_aborted_iff rt system.ctx load ⟨_, ⟨none, []⟩, []⟩ []
        ((userState system.ctx username).of handle.type).stack false prepared handle.refs
      exact (not_congr dies).trans not_and
  | _ => exact Iff.rfl

/-- A library whose top-level code calls `server.log`. -/
def logsWhileLoading : List Request :=
  [.compile .function [1] 1 ⟨[.call .log [.string (bytes "m")]], .ok .nil⟩]

/-- The server dies of it. -/
theorem log_while_loading_asserts : (machine .plain).Run (initial false) logsWhileLoading ∧
    ¬ (machine .plain).Along (RunCtxAvailable .plain) (initial false) logsWhileLoading := by
  refine ⟨⟨rfl, trivial⟩, ?_⟩
  rintro ⟨available, -⟩
  refine available (by decide) (luajitFunctionLibraryCreate_aborted_iff.mpr ⟨rfl, ?_⟩)
  exact ⟨[], .call .log [.string (bytes "m")], [], rfl, ⟨by decide, rfl⟩, trivial⟩

/-- A library that only registers its function is loaded and called. -/
def quietLibrary : List Request :=
  [.compile .function [1] 1 registersOne, .call [] firstHandle [] [] loadsOne idleBody]

/-- No assertion fails on the way. -/
theorem quiet_library_available :
    (machine .plain).Along (RunCtxAvailable .plain) (initial false) quietLibrary := by
  have run : (machine .plain).Run (initial false) quietLibrary :=
    ⟨rfl, ⟨rfl, by decide⟩, trivial⟩
  refine (runCtx_available_throughout_iff .plain false _ run).mpr ⟨?_, ?_, trivial⟩
  · rintro - - ⟨before, action, after, split, asserts, -⟩
    have listed : action ∈ registersOne.actions := by simp [split]
    cases List.mem_singleton.mp listed
    simp [Action.Asserts, ServerFunction.assertsRunCtx] at asserts
  · rintro - ⟨action, listed, asserts⟩
    cases List.mem_singleton.mp listed
    simp [Action.Asserts, ServerFunction.assertsRunCtx] at asserts

end System

end ValkeyLuajit
