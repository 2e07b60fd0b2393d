import ValkeyLuajit.Engine.Call
import ValkeyLuajit.Script.Effects

/-!
# How the callback of a call is found

`luajitEngineFunctionCall` finds the callback in the closure cache, compiles an
EVAL script, or looks a library's function up, loading the library first when the
user has not loaded it yet. The inductive types below list the ways this can go;
each ends with the callback on the stack, with an error replied, or in an abort.
-/

namespace ValkeyLuajit

open Lua

/-- Between two calls no run context, hook or FFI context is left in a user's state. -/
structure Idle (lua : State) : Prop where
  runCtx : lua.registry registryRunCtxName = .nil
  hook : lua.hook = none
  ffi : lua.registry ffiCtxName = .nil ∨ lua.registry ffiCtxName = .lightuserdata 0

/-- A user's state between two calls, as far as the engine relies on it. -/
structure Prepared (type : SubsystemType) (lua : State) : Prop extends Idle lua where
  cache : lua.registry registryFuncCacheName = .hidden registryFuncCacheName
  functions : type ≠ .eval → lua.registry libraryFunctionsName = .hidden libraryFunctionsName
  compiled : type ≠ .eval → lua.registry libraryCompiledName = .hidden libraryCompiledName

section

variable (rt : Runtime)

/-- How the library of a function gets ready: the answer tells whether it did, or why
the process aborted. -/
inductive Readied (lib : LuajitLibrary) (libId : Nat) (load : ScriptRun)
    (before : Core CallHost) : Except String Bool → Core CallHost → Prop
  /-- It was loaded before. -/
  | already : before.lua.loaded libId = true → Readied lib libId load before (.ok true) before
  /-- Its text is rejected. -/
  | rejected {text : Bytes} : before.lua.loaded libId = false → rt.syntaxError lib.code ≠ none →
      Readied lib libId load before (.ok false) (before.note (.sent (.error text true)))
  /-- Its top-level code raises. -/
  | failed {error : Value} {final : World CallHost} {text : Bytes} :
      before.lua.loaded libId = false → rt.syntaxError lib.code = none →
      Executed rt .function .library load (.chunk lib.code) [] before (.raised error final) →
      Readied lib libId load before (.ok false) (final.core.note (.sent (.error text true)))
  /-- Its top-level code runs to its end. -/
  | loaded {results : List Value} {final : World CallHost} :
      before.lua.loaded libId = false → rt.syntaxError lib.code = none →
      Executed rt .function .library load (.chunk lib.code) [] before (.done results final) →
      Readied lib libId load before (.ok true)
        ((final.core.note (.completed (.chunk lib.code))).map fun lua => lua.mark libId)
  /-- Its top-level code makes an assertion fail. -/
  | aborted {reason : String} {final : World CallHost} :
      before.lua.loaded libId = false → rt.syntaxError lib.code = none →
      Executed rt .function .library load (.chunk lib.code) [] before (.aborted reason final) →
      Readied lib libId load before (.error reason) final.core

/-- How the callback of a function is found. -/
inductive Fetched (ctx : EngineCtx) (function : LuajitFunction) (load : ScriptRun)
    (before : Core CallHost) : Except String (Option FuncRef) → Core CallHost → Prop
  /-- It is in the closure cache. -/
  | hit {callback : FuncRef} : before.lua.cached function.funcId = .function callback →
      Fetched ctx function load before (.ok (some callback)) before
  /-- The text of an EVAL script is rejected. -/
  | rejected {text message : Bytes} :
      (before.lua.cached function.funcId).isFunction = false → function.data = .source text →
      rt.syntaxError text ≠ none →
      Fetched ctx function load before (.ok none) (before.note (.sent (.error message true)))
  /-- The text of an EVAL script is compiled. -/
  | compiled {text : Bytes} :
      (before.lua.cached function.funcId).isFunction = false → function.data = .source text →
      rt.syntaxError text = none →
      Fetched ctx function load before (.ok (some (.chunk text)))
        (before.map fun lua => lua.remember function.funcId (.function (.chunk text)))
  /-- The library is not there. -/
  | missing {name text : Bytes} {libId : Nat} :
      (before.lua.cached function.funcId).isFunction = false →
      function.data = .functionRef name libId → ctx.libraries.lookup libId = none →
      Fetched ctx function load before (.ok none) (before.note (.sent (.error text true)))
  /-- The library does not get ready. -/
  | unready {name : Bytes} {libId : Nat} {lib : LuajitLibrary} {after : Core CallHost} :
      (before.lua.cached function.funcId).isFunction = false →
      function.data = .functionRef name libId → ctx.libraries.lookup libId = some lib →
      Readied rt lib libId load before (.ok false) after →
      Fetched ctx function load before (.ok none) after
  /-- Loading the library aborts the process. -/
  | crashed {name : Bytes} {libId : Nat} {lib : LuajitLibrary} {reason : String}
      {after : Core CallHost} :
      (before.lua.cached function.funcId).isFunction = false →
      function.data = .functionRef name libId → ctx.libraries.lookup libId = some lib →
      Readied rt lib libId load before (.error reason) after →
      Fetched ctx function load before (.error reason) after
  /-- The name is bound to no function. -/
  | unbound {name text : Bytes} {libId : Nat} {lib : LuajitLibrary} {ready : Core CallHost} :
      (before.lua.cached function.funcId).isFunction = false →
      function.data = .functionRef name libId → ctx.libraries.lookup libId = some lib →
      Readied rt lib libId load before (.ok true) ready →
      (ready.lua.functionNamed (cString name)).isFunction = false →
      Fetched ctx function load before (.ok none) (ready.note (.sent (.error text true)))
  /-- The name is bound, and the callback goes into the cache. -/
  | bound {name : Bytes} {libId : Nat} {lib : LuajitLibrary} {ready : Core CallHost}
      {callback : FuncRef} :
      (before.lua.cached function.funcId).isFunction = false →
      function.data = .functionRef name libId → ctx.libraries.lookup libId = some lib →
      Readied rt lib libId load before (.ok true) ready →
      ready.lua.functionNamed (cString name) = .function callback →
      Fetched ctx function load before (.ok (some callback))
        (ready.map fun lua => lua.remember function.funcId (.function callback))

end

/-- A value that is a function is one under its reference. -/
theorem Lua.Value.isFunction_iff {value : Value} :
    value.isFunction = true ↔ ∃ ref, value = .function ref := by
  cases value <;> simp [Value.isFunction, Value.type]

theorem Lua.Value.not_isFunction_of_isNil {value : Value} (blank : value.isNil = true) :
    value.isFunction = false := by
  cases value <;> simp_all [Value.isNil, Value.isFunction, Value.type]

section

variable {rt : Runtime} {frame base : List Value} {breached : Bool} {core : Core CallHost}

theorem isCompiled_on (libId : Nat)
    (compiled : core.lua.registry libraryCompiledName = .hidden libraryCompiledName) :
    isCompiled rt libId (core.on frame base breached) =
      .done (core.lua.loaded libId) (core.on frame base breached) := by
  simp [isCompiled, Core.on, compiled, luaGetTable, State.loaded]

theorem markCompiled_on (libId : Nat)
    (compiled : core.lua.registry libraryCompiledName = .hidden libraryCompiledName) :
    markCompiled rt libId (core.on frame base breached) =
      .done () ((core.map fun lua => lua.mark libId).on frame base breached) := by
  simp [markCompiled, Core.on, compiled, luaSetTable, State.mark, Core.map]

variable (rt frame base breached) in
/-- Loading a library in a user's state: its text is rejected, or its top-level code
runs. -/
theorem luajitCompileLibraryInUserState_on (code : Bytes) (load : ScriptRun)
    (functions : core.lua.registry libraryFunctionsName = .hidden libraryFunctionsName) :
    (∃ message, rt.syntaxError code = some message ∧
      luajitCompileLibraryInUserState rt code load (core.on frame base breached) =
        .done true (core.on (.string message :: frame) base breached)) ∨
    rt.syntaxError code = none ∧ ∃ outcome,
      Executed rt .function .library load (.chunk code) [] core outcome ∧
      luajitCompileLibraryInUserState rt code load (core.on frame base breached) =
        pcallOutcome (outcome.andThen fun _ => do
          emit (.completed (.chunk code))
          pure []) frame base breached := by
  cases accepted : rt.syntaxError code with
  | some message =>
      refine .inl ⟨message, rfl, ?_⟩
      simp [luajitCompileLibraryInUserState, luaLLoadbuffer, accepted, Core.on]
  | none =>
      obtain ⟨outcome, executed, pcall⟩ := luaPCall_executed_completing rt .library load
        (.chunk code) [] frame base breached fun _ => functions
      refine .inr ⟨rfl, outcome, executed, pcall ▸ ?_⟩
      simp [luajitCompileLibraryInUserState, luaLLoadbuffer, accepted, Core.on]

/-- What getting ready leaves on the stack. -/
def Ready (after : Core CallHost) (cache : Value) (frame base : List Value) (breached : Bool) :
    Except String Bool → Outcome CallHost Bool
  | .ok true => .done true (after.on (cache :: frame) base breached)
  | .ok false => .done false (after.on frame base breached)
  | .error reason => .aborted reason (after.on (cache :: frame) base breached)

variable (rt frame base breached) in
/-- A library that is not loaded is compiled. -/
theorem ensureCompiled_fresh (lib : LuajitLibrary) {libId : Nat} (load : ScriptRun) (cache : Value)
    (fresh : core.lua.loaded libId = false)
    (compiled : core.lua.registry libraryCompiledName = .hidden libraryCompiledName) :
    ensureCompiled rt lib libId load (core.on (cache :: frame) base breached) =
      (luajitCompileLibraryInUserState rt lib.code load
        (core.on (cache :: frame) base breached)).andThen fun failed =>
          if failed then (do
            let errmsg ← luaValue (-1)
            replyErrorFormat (bytes "ERR Error compiling library " ++ lib.name ++
              bytes ": " ++ errorText rt errmsg)
            luaPop 2
            pure false)
          else (do
            markCompiled rt libId
            pure true) := by
  simp [ensureCompiled, isCompiled_on libId compiled, fresh]

variable (rt frame base breached) in
/-- The library gets ready in one of the ways listed. -/
theorem ensureCompiled_readied (lib : LuajitLibrary) (libId : Nat) (load : ScriptRun) (cache : Value)
    (functions : core.lua.registry libraryFunctionsName = .hidden libraryFunctionsName)
    (compiled : core.lua.registry libraryCompiledName = .hidden libraryCompiledName) :
    ∃ result after, Readied rt lib libId load core result after ∧
      ensureCompiled rt lib libId load (core.on (cache :: frame) base breached) =
        Ready after cache frame base breached result := by
  cases loaded : core.lua.loaded libId with
  | true =>
      refine ⟨.ok true, core, .already loaded, ?_⟩
      simp [ensureCompiled, isCompiled_on libId compiled, loaded, Ready]
  | false =>
      have starts := ensureCompiled_fresh rt frame base breached lib load cache loaded compiled
      let report (error : Value) : Bytes :=
        bytes "ERR Error compiling library " ++ lib.name ++ bytes ": " ++ errorText rt error
      rcases luajitCompileLibraryInUserState_on rt (cache :: frame) base breached lib.code load
        functions with
        ⟨message, rejected, ended⟩ | ⟨accepted, outcome, executed, ended⟩
      · refine ⟨.ok false, core.note (.sent (.error (report (.string message)) true)),
          .rejected loaded (by simp [rejected]), ?_⟩
        rw [starts, ended]
        simp [Core.on, replyErrorFormat, Core.note, report, Ready]
      · cases outcome with
        | done results final =>
            refine ⟨.ok true, _, .loaded loaded accepted executed, ?_⟩
            let noted := final.core.note (.completed (.chunk lib.code))
            have still : noted.lua.registry libraryCompiledName = .hidden libraryCompiledName :=
              (congrFun executed.effect.registry _).trans compiled
            have done : luajitCompileLibraryInUserState rt lib.code load
                (core.on (cache :: frame) base breached) =
                  .done false (noted.on (cache :: frame) base breached) := ended
            rw [starts, done, Outcome.andThen_done]
            simp [markCompiled_on libId still, noted, Ready]
        | raised error final =>
            refine ⟨.ok false, final.core.note (.sent (.error (report error) true)),
              .failed loaded accepted executed, ?_⟩
            rw [starts, ended]
            simp [pcallOutcome, Core.on, replyErrorFormat, Core.note, report, Ready]
        | aborted reason final =>
            refine ⟨.error reason, _, .aborted loaded accepted executed, ?_⟩
            rw [starts, ended]
            rfl

/-- Getting ready leaves the registry alone, and the hook's function. -/
theorem Readied.guard {lib : LuajitLibrary} {libId : Nat} {load : ScriptRun}
    {result : Except String Bool} {after : Core CallHost}
    (readied : Readied rt lib libId load core result after) :
    after.lua.registry = core.lua.registry ∧ hookFunction after.lua = hookFunction core.lua := by
  cases readied with
  | already => exact ⟨rfl, rfl⟩
  | rejected => exact ⟨rfl, rfl⟩
  | failed _ _ executed => exact ⟨executed.effect.registry, executed.effect.hook⟩
  | loaded _ _ executed => exact ⟨executed.effect.registry, executed.effect.hook⟩
  | aborted _ _ executed => exact ⟨executed.effect.registry, executed.effect.hook⟩

variable (rt frame base breached) in
/-- The lookup by name. -/
theorem lookupCallback_on (name : Bytes) (cache : Value)
    (functions : core.lua.registry libraryFunctionsName = .hidden libraryFunctionsName) :
    lookupCallback rt name (core.on (cache :: frame) base breached) =
      if (core.lua.functionNamed (cString name)).isFunction then
        .done true (core.on (core.lua.functionNamed (cString name) :: cache :: frame) base breached)
      else .done false ((core.note (.sent (.error
        (bytes "ERR Function " ++ name ++ bytes " not found in library") true))).on frame base
          breached) := by
  cases callable : (core.lua.functionNamed (cString name)).isFunction with
  | true =>
      have present : (core.lua.functionNamed (cString name)).isNil = false := by
        by_contra blank
        simp [Value.not_isFunction_of_isNil (by simpa using blank)] at callable
      simp only [State.functionNamed] at callable present
      simp [lookupCallback, Core.on, functions, luaGetFieldC, State.functionNamed, callable, present]
  | false =>
      simp only [State.functionNamed] at callable
      simp [lookupCallback, Core.on, functions, luaGetFieldC, callable, replyErrorFormat, Core.note]

variable (rt frame base breached core) in
/-- Loading the text of an EVAL script. -/
theorem loadEvalScript_on (text : Bytes) (cache : Value) :
    (rt.syntaxError text = none ∧
      loadEvalScript rt text (core.on (cache :: frame) base breached) =
        .done true (core.on (.function (.chunk text) :: cache :: frame) base breached)) ∨
    (rt.syntaxError text ≠ none ∧ ∃ message,
      loadEvalScript rt text (core.on (cache :: frame) base breached) =
        .done false ((core.note (.sent (.error message true))).on frame base breached)) := by
  cases accepted : rt.syntaxError text with
  | none => exact .inl ⟨rfl, by simp [loadEvalScript, luaLLoadbuffer, accepted, Core.on]⟩
  | some message =>
      refine .inr ⟨by simp, bytes "ERR Error loading script: " ++ errorText rt (.string message), ?_⟩
      simp [loadEvalScript, luaLLoadbuffer, accepted, Core.on, replyErrorFormat, Core.note]

theorem rememberCallback_on (function : LuajitFunction) (callback : Value) :
    rememberCallback function
        (core.on (callback :: .hidden registryFuncCacheName :: frame) base breached) =
      .done () ((core.map fun lua => lua.remember function.funcId callback).on
        (callback :: frame) base breached) := by
  simp [rememberCallback, Core.on, Core.map, State.remember]

/-- The call is for a function of a library that is not there. -/
def missesLibrary (ctx : EngineCtx) (lua : State) (function : LuajitFunction) : Bool :=
  !(lua.cached function.funcId).isFunction && match function.data with
    | .source _ => false
    | .functionRef _ libId => (ctx.libraries.lookup libId).isNone

/-- The call loads the function's library: its top-level code starts. -/
def startsLibrary (rt : Runtime) (ctx : EngineCtx) (lua : State) (function : LuajitFunction) :
    Prop :=
  (lua.cached function.funcId).isFunction = false ∧
    ∃ name libId lib, function.data = .functionRef name libId ∧
      ctx.libraries.lookup libId = some lib ∧ lua.loaded libId = false ∧
      rt.syntaxError lib.code = none

/-- What finding the callback leaves on the stack. -/
def Found (ctx : EngineCtx) (function : LuajitFunction) (before after : Core CallHost)
    (frame base : List Value) (breached : Bool) (outcome : Outcome CallHost Bool) :
    Except String (Option FuncRef) → Prop
  | .ok (some callback) =>
      outcome = .done true (after.on (.function callback :: frame) base breached)
  | .ok none => outcome = .done false (if missesLibrary ctx before.lua function then
      (after.on frame base breached).pop 1 else after.on frame base breached)
  | .error reason => ∃ slots, outcome = .aborted reason (after.on slots base breached)

variable {ctx : EngineCtx} {function : LuajitFunction} {type : SubsystemType} {load : ScriptRun}

variable (rt frame base breached ctx load) in
/-- A callback in the closure cache is taken from there. -/
theorem findCallback_hit (prepared : Prepared type core.lua) {callback : FuncRef}
    (found : core.lua.cached function.funcId = .function callback) :
    findCallback rt ctx function load (core.on frame base breached) =
      .done true (core.on (.function callback :: frame) base breached) := by
  have hit : (Value.function callback).isFunction = true := rfl
  simp only [State.cached] at found
  simp [findCallback, Core.on, prepared.cache, hit, found]

variable (rt frame base breached ctx load) in
/-- Otherwise it is resolved, with the cache below it. -/
theorem findCallback_missed (prepared : Prepared type core.lua)
    (missed : (core.lua.cached function.funcId).isFunction = false) :
    findCallback rt ctx function load (core.on frame base breached) =
      resolveCallback rt ctx function load
        (core.on (.hidden registryFuncCacheName :: frame) base breached) := by
  simp only [State.cached] at missed
  simp [findCallback, Core.on, prepared.cache, missed]

variable (rt ctx load frame base breached) in
/-- The callback is found in one of the ways listed. -/
theorem findCallback_fetched (prepared : Prepared type core.lua)
    (refs : ∀ name libId, function.data = .functionRef name libId → type ≠ .eval) :
    ∃ result after, Fetched rt ctx function load core result after ∧
      Found ctx function core after frame base breached
        (findCallback rt ctx function load (core.on frame base breached)) result := by
  cases hit : (core.lua.cached function.funcId).isFunction with
  | true =>
      obtain ⟨callback, found⟩ := Value.isFunction_iff.mp hit
      exact ⟨_, _, .hit found, findCallback_hit rt frame base breached ctx load prepared found⟩
  | false =>
      have starts := findCallback_missed rt frame base breached ctx load prepared hit
      cases data : function.data with
      | source text =>
          rcases loadEvalScript_on rt frame base breached core text (.hidden registryFuncCacheName) with
            ⟨accepted, loads⟩ | ⟨rejected, message, loads⟩
          · refine ⟨_, _, .compiled hit data accepted, ?_⟩
            rw [Found, starts]
            simp [resolveCallback, data, loads, rememberCallback_on]
          · refine ⟨_, core.note (.sent (.error message true)), .rejected hit data rejected, ?_⟩
            rw [Found, starts]
            simp [resolveCallback, data, loads, missesLibrary]
      | functionRef name libId =>
          have type_ne := refs name libId data
          cases lookup : ctx.libraries.lookup libId with
          | none =>
              refine ⟨_, core.note (.sent (.error
                (bytes "ERR Library for function " ++ name ++ bytes " not found") true)),
                .missing hit data lookup, ?_⟩
              rw [Found, starts]
              cases frame <;> simp [resolveCallback, data, loadLibraryFunction, lookup,
                missesLibrary, hit, Core.on, Core.note, replyErrorFormat, World.pop]
          | some lib =>
              have present : missesLibrary ctx core.lua function = false := by
                simp [missesLibrary, data, lookup]
              obtain ⟨result, after, readied, ended⟩ := ensureCompiled_readied rt frame base breached lib libId
                load (.hidden registryFuncCacheName) (prepared.functions type_ne)
                (prepared.compiled type_ne)
              have functions : after.lua.registry libraryFunctionsName =
                  .hidden libraryFunctionsName :=
                (congrFun readied.guard.1 _).trans (prepared.functions type_ne)
              rcases result with reason | _ | _
              · refine ⟨_, _, .crashed hit data lookup readied,
                  .hidden registryFuncCacheName :: frame, ?_⟩
                rw [starts]
                simp [resolveCallback, data, loadLibraryFunction, lookup, ended, Ready]
              · refine ⟨_, _, .unready hit data lookup readied, ?_⟩
                rw [Found, starts]
                simp [resolveCallback, data, loadLibraryFunction, lookup, ended, Ready, present]
              · have looks := lookupCallback_on rt frame base breached name
                  (.hidden registryFuncCacheName) functions
                cases callable : (after.lua.functionNamed (cString name)).isFunction with
                | true =>
                    obtain ⟨callback, found⟩ := Value.isFunction_iff.mp callable
                    rw [callable, if_pos rfl, found] at looks
                    refine ⟨_, _, .bound hit data lookup readied found, ?_⟩
                    rw [Found, starts]
                    simp [resolveCallback, data, loadLibraryFunction, lookup, ended, Ready, looks,
                      rememberCallback_on]
                | false =>
                    rw [callable, if_neg Bool.false_ne_true] at looks
                    refine ⟨_, after.note (.sent (.error
                      (bytes "ERR Function " ++ name ++ bytes " not found in library") true)),
                      .unbound hit data lookup readied callable, ?_⟩
                    rw [Found, starts]
                    simp [resolveCallback, data, loadLibraryFunction, lookup, ended, Ready, looks,
                      present]

end

end ValkeyLuajit
