import ValkeyLuajit.Engine.Bindings
import ValkeyLuajit.Engine.Entry
import ValkeyLuajit.Engine.Lifetime

/-!
# Which callback a call executes

A name leads to a callback through four stores: the libraries by their ids, the marks
of the libraries a user has loaded, the user's table of names and the user's closure
cache. Names are bound when a library is loaded and cached at the first call, and
freeing any function of a name unbinds it for every user.
-/

namespace ValkeyLuajit

open Lua

/-- Two states that look functions up alike. -/
structure SameTables (before after : State) : Prop where
  named : ∀ name, after.functionNamed name = before.functionNamed name
  cached : ∀ funcId, after.cached funcId = before.cached funcId
  loaded : ∀ libId, after.loaded libId = before.loaded libId

/-- The script never calls `server.register_function`. -/
def ScriptRun.RegistersNothing (script : ScriptRun) : Prop :=
  ∀ arguments, .call .userRegisterFunction arguments ∉ script.actions

section Quiet

variable {rt : Runtime} {ctx : EngineCtx} {state : StateKind} {kind other : CodeKind}
  {type : SubsystemType} {before after : Core CallHost}

/-- What is not called is not bound. -/
theorem bindings_eq_nil {actions : List Action} {world : World CallHost}
    (quiet : ∀ arguments, .call .userRegisterFunction arguments ∉ actions) :
    bindings rt state kind actions world = [] := by
  induction actions generalizing world with
  | nil => rfl
  | cons action rest ih =>
      have nothing (observed : World CallHost) : action.binding rt state observed = [] := by
        cases action with
        | call function arguments =>
            cases function with
            | userRegisterFunction => exact absurd List.mem_cons_self (quiet arguments)
            | _ => rfl
        | _ => rfl
      rw [bindings, nothing, List.nil_append]
      split
      · exact ih fun arguments member => quiet arguments (List.mem_cons_of_mem _ member)
      · rfl

/-- Code of one kind notes no registration of another. -/
theorem ScriptEffect.registrations_other (effect : ScriptEffect kind before after)
    (apart : kind ≠ other) :
    registrations other after.host.trace = registrations other before.host.trace := by
  obtain ⟨events, trace, observed, -⟩ := effect.trace
  have none : registrations other events = [] := by
    refine List.filterMap_eq_nil_iff.mpr fun event member => ?_
    have here := observed event member
    cases event with
    | registered noted name callback =>
        obtain rfl : noted = kind := here
        exact if_neg apart
    | _ => rfl
  rw [trace, registrations_append, none, List.append_nil]

theorem HandlingEffect.registrations (effect : HandlingEffect before after) :
    registrations kind after.host.trace = registrations kind before.host.trace := by
  obtain ⟨tokens, trace⟩ := effect.trace
  have none : ValkeyLuajit.registrations kind (tokens.map .sent) = [] := by
    refine List.filterMap_eq_nil_iff.mpr fun event member => ?_
    obtain ⟨token, -, rfl⟩ := List.mem_map.mp member
    rfl
  rw [trace, registrations_append, none, List.append_nil]

theorem registrations_enter {callee : FuncRef} {arguments : List Value} :
    registrations other (before.enter kind callee arguments).host.trace =
      registrations other before.host.trace := by
  simp [Core.enter, Core.note, registrations]

/-- A body that registers nothing leaves every name bound as it was. -/
theorem Executed.functionNamed {script : ScriptRun} {callee : FuncRef} {arguments : List Value}
    {outcome : Outcome CallHost (List Value)} (quiet : script.RegistersNothing)
    (executed : Executed rt state kind script callee arguments before outcome)
    (functions : .userRegisterFunction ∈ state.exposed →
      before.lua.registry libraryFunctionsName = .hidden libraryFunctionsName) (name : Bytes) :
    outcome.world.lua.functionNamed name = before.lua.functionNamed name := by
  obtain ⟨inner, start, runs⟩ := executed.runs
  have lua : inner.lua = before.lua := congrArg Core.lua start
  rw [← runs, run_functionNamed rt kind script inner (by rwa [lua]) name, bindings_eq_nil quiet, lua]
  rfl

variable {callback : FuncRef} {body : ScriptRun} {returns : Bool}

/-- An invocation of such a body leaves the tables as they were. -/
theorem Invoked.sameTables (quiet : body.RegistersNothing) (library : type ≠ .eval)
    (invoked : Invoked rt ctx type body callback before returns after)
    (functions : before.lua.registry libraryFunctionsName = .hidden libraryFunctionsName) :
    SameTables before.lua after.lua where
  cached := fun funcId => by
    simp only [State.cached, invoked.hidden (show registryFuncCacheName ≠ _ by decide)]
  loaded := fun libId => by
    simp only [State.loaded, invoked.hidden (show libraryCompiledName ≠ _ by decide)]
  named := fun name => by
    have begun {core : Core CallHost} (handled : HandlingEffect (before.arm ctx type) core) :
        core.lua.functionNamed name = before.lua.functionNamed name := by
      rw [State.functionNamed, handled.hidden]
      exact congrArg (fun hidden : String → Table =>
        (hidden libraryFunctionsName).rawGet (.string name))
        (State.withFfi_hidden ctx moduleCtxPointer before.lua)
    have reports {first second : Core CallHost} (handled : HandlingEffect first second) :
        second.lua.functionNamed name = first.lua.functionNamed name := by
      rw [State.functionNamed, handled.hidden, State.functionNamed]
    have clears (core : Core CallHost) :
        (core.disarm ctx).lua.functionNamed name = core.lua.functionNamed name :=
      congrArg (fun hidden : String → Table =>
        (hidden libraryFunctionsName).rawGet (.string name))
        (State.withFfi_hidden ctx 0 core.lua.disarm)
    cases invoked with
    | unstarted eval => exact absurd eval library
    | aborted handled executed =>
        exact (executed.functionNamed quiet (fun _ => handled.functions functions) name).trans
          (begun handled)
    | unreported handled executed reported =>
        exact (reports reported).trans ((executed.functionNamed quiet
          (fun _ => handled.functions functions) name).trans (begun handled))
    | finished handled executed reported =>
        exact (clears _).trans ((reports reported).trans ((executed.functionNamed quiet
          (fun _ => handled.functions functions) name).trans (begun handled)))

/-- It notes no registration of a library. -/
theorem Invoked.registrations (invoked : Invoked rt ctx type body callback before returns after) :
    registrations .library after.host.trace = registrations .library before.host.trace := by
  have armed : (before.arm ctx type).host.trace = before.host.trace := rfl
  have ran {begun : Core CallHost} {arguments : List Value}
      {outcome : Outcome CallHost (List Value)}
      (handled : HandlingEffect (before.arm ctx type) begun)
      (executed : Executed rt type.state .body body callback arguments begun outcome) :
      ValkeyLuajit.registrations .library outcome.world.core.host.trace =
        ValkeyLuajit.registrations .library before.host.trace := by
    rw [executed.effect.registrations_other (by decide), registrations_enter, handled.registrations,
      armed]
  cases invoked with
  | unstarted _ handled => rw [handled.registrations, armed]
  | aborted handled executed => exact ran handled executed
  | unreported handled executed reported => exact reported.registrations.trans (ran handled executed)
  | finished handled executed reported => exact reported.registrations.trans (ran handled executed)

end Quiet

section Search

variable {rt : Runtime} {lib : LuajitLibrary} {libId : Nat} {load : ScriptRun}
  {before after : Core CallHost}

/-- What getting a library ready binds: what its top-level code registers, if it runs. -/
structure LoadBinds (rt : Runtime) (lib : LuajitLibrary) (libId : Nat) (load : ScriptRun)
    (before : Core CallHost) (ready : Bool) (bound : List (Bytes × Value)) : Prop where
  already : before.lua.loaded libId = true → ready = true ∧ bound = []
  rejected : before.lua.loaded libId = false → rt.syntaxError lib.code ≠ none →
    ready = false ∧ bound = []
  run : before.lua.loaded libId = false → rt.syntaxError lib.code = none →
    ∃ world, world.core = before.enter .library (.chunk lib.code) [] ∧
      bound = bindings rt .function .library load.actions world ∧
      (((userSetting rt .function .library).run load world).IsDone ↔ ready = true)

/-- These names were bound, and the library was marked if it got ready. -/
structure Bound (libId : Nat) (before after : Core CallHost) (ready : Bool)
    (bound : List (Bytes × Value)) : Prop where
  noted : registrations .library after.host.trace =
    registrations .library before.host.trace ++ bound
  named : ∀ name, after.lua.functionNamed name =
    (lastBinding bound name).getD (before.lua.functionNamed name)
  loaded : ∀ other, after.lua.loaded other =
    (before.lua.loaded other || (ready && decide (other = libId)))

/-- The top-level code of a library binds what it registers. -/
theorem Executed.bound {callee : FuncRef} {arguments : List Value}
    {outcome : Outcome CallHost (List Value)}
    (executed : Executed rt .function .library load callee arguments before outcome)
    (functions : before.lua.registry libraryFunctionsName = .hidden libraryFunctionsName) :
    ∃ world bound, world.core = before.enter .library callee arguments ∧
      bound = bindings rt .function .library load.actions world ∧
      (userSetting rt .function .library).run load world = outcome ∧
      registrations .library outcome.world.core.host.trace =
        registrations .library before.host.trace ++ bound ∧
      ∀ name, outcome.world.core.lua.functionNamed name =
        (lastBinding bound name).getD (before.lua.functionNamed name) := by
  obtain ⟨inner, start, runs⟩ := executed.runs
  have lua : inner.lua = before.lua := congrArg Core.lua start
  have trace : registrations .library inner.host.trace =
      registrations .library before.host.trace := by
    rw [show inner.host = _ from congrArg Core.host start, registrations_enter]
  refine ⟨inner, _, start, rfl, runs, ?_, fun name => ?_⟩
  · have noted : registrations .library
        ((userSetting rt .function .library).run load inner).world.host.trace = _ :=
      run_registrations rt .library load inner fun _ => by rw [lua, functions]
    rw [runs, trace] at noted
    exact noted
  · have named : ((userSetting rt .function .library).run load inner).world.lua.functionNamed
        name = _ :=
      run_functionNamed rt .library load inner (fun _ => by rw [lua, functions]) name
    rw [runs, lua] at named
    exact named

theorem Executed.keeps {callee : FuncRef} {arguments : List Value}
    {outcome : Outcome CallHost (List Value)}
    (executed : Executed rt .function .library load callee arguments before outcome) :
    (∀ funcId, outcome.world.core.lua.cached funcId = before.lua.cached funcId) ∧
      ∀ other, outcome.world.core.lua.loaded other = before.lua.loaded other := by
  constructor
  · intro funcId
    simp only [State.cached, executed.effect.hidden _ (show registryFuncCacheName ≠ _ by decide)]
    rfl
  · intro other
    simp only [State.loaded, executed.effect.hidden _ (show libraryCompiledName ≠ _ by decide)]
    rfl

/-- A library gets ready by being loaded, unless it is already. -/
theorem Readied.bound {ready : Bool}
    (readied : Readied rt lib libId load before (.ok ready) after)
    (functions : before.lua.registry libraryFunctionsName = .hidden libraryFunctionsName) :
    ∃ bound, LoadBinds rt lib libId load before ready bound ∧
      Bound libId before after ready bound ∧
      ∀ funcId, after.lua.cached funcId = before.lua.cached funcId := by
  cases readied with
  | already loaded =>
      refine ⟨[], ⟨fun _ => ⟨rfl, rfl⟩, fun fresh => ?_, fun fresh => ?_⟩,
        ⟨by simp, fun _ => rfl, fun other => ?_⟩, fun _ => rfl⟩
      · simp [loaded] at fresh
      · simp [loaded] at fresh
      · by_cases same : other = libId <;> simp [same, loaded]
  | rejected fresh rejected =>
      refine ⟨[], ⟨fun loaded => ?_, fun _ _ => ⟨rfl, rfl⟩,
          fun _ accepted => absurd accepted rejected⟩,
        ⟨by simp [Core.note, registrations], fun _ => rfl, fun other => by simp [Core.note]⟩,
        fun _ => rfl⟩
      simp [fresh] at loaded
  | failed fresh accepted executed =>
      obtain ⟨world, bound, start, rfl, runs, noted, named⟩ := executed.bound functions
      obtain ⟨cached, loaded⟩ := executed.keeps
      refine ⟨_, ⟨fun loaded => ?_, fun _ rejected => absurd accepted rejected,
        fun _ _ => ⟨world, start, rfl, by simp [runs, Outcome.IsDone]⟩⟩,
        ⟨?_, named, fun other => (loaded other).trans (by simp)⟩, cached⟩
      · simp [fresh] at loaded
      · rw [← noted]
        simp [Core.note, registrations]
  | loaded fresh accepted executed =>
      obtain ⟨world, bound, start, rfl, runs, noted, named⟩ := executed.bound functions
      obtain ⟨cached, loaded⟩ := executed.keeps
      refine ⟨_, ⟨fun loaded => ?_, fun _ rejected => absurd accepted rejected,
        fun _ _ => ⟨world, start, rfl, by simp [runs, Outcome.IsDone]⟩⟩,
        ⟨?_, fun name => ?_, fun other => ?_⟩, fun funcId => ?_⟩
      · simp [fresh] at loaded
      · rw [← noted]
        simp [Core.map, Core.note, registrations]
      · rw [← named]
        exact State.functionNamed_mark name
      · rw [← loaded]
        exact (State.loaded_mark other).trans (by simp [Bool.or_comm])
      · rw [← cached]
        exact State.cached_mark funcId

variable {ctx : EngineCtx} {function : LuajitFunction} {name : Bytes} {result : Option FuncRef}

/-- What looking a function of a library up does to the tables of a user's state, when
it is not in the closure cache. -/
structure Searched (rt : Runtime) (ctx : EngineCtx) (funcId : Nat) (name : Bytes) (libId : Nat)
    (load : ScriptRun) (before after : Core CallHost) (result : Option FuncRef) (ready : Bool)
    (bound : List (Bytes × Value)) : Prop extends Bound libId before after ready bound where
  cached : ∀ other, after.lua.cached other =
    if other = funcId then (result.map Value.function).getD (before.lua.cached other)
    else before.lua.cached other
  found : ∀ callback, result = some callback ↔
    ready = true ∧ after.lua.functionNamed (cString name) = .function callback
  missing : ctx.libraries.lookup libId = none → ready = false ∧ bound = []
  library : ∀ lib, ctx.libraries.lookup libId = some lib →
    LoadBinds rt lib libId load before ready bound

/-- States that look functions up alike were searched alike. -/
theorem Searched.congr {funcId : Nat} {found : Core CallHost} {ready : Bool}
    {bound : List (Bytes × Value)}
    (searched : Searched rt ctx funcId name libId load before found result ready bound)
    (same : SameTables found.lua after.lua)
    (noted : registrations .library after.host.trace = registrations .library found.host.trace) :
    Searched rt ctx funcId name libId load before after result ready bound where
  noted := noted.trans searched.noted
  named := fun other => (same.named other).trans (searched.named other)
  loaded := fun other => (same.loaded other).trans (searched.loaded other)
  cached := fun other => (same.cached other).trans (searched.cached other)
  found := by simpa only [same.named] using searched.found
  missing := searched.missing
  library := searched.library

/-- A search empties no slot of the cache. -/
theorem Searched.uncached_before {funcId searchedId : Nat} {ready : Bool}
    {bound : List (Bytes × Value)}
    (searched : Searched rt ctx searchedId name libId load before after result ready bound)
    (missed : (before.lua.cached searchedId).isFunction = false)
    (uncached : (after.lua.cached funcId).isFunction = false) :
    (before.lua.cached funcId).isFunction = false := by
  rw [searched.cached] at uncached
  split at uncached
  · rename_i same
    rw [same]
    exact missed
  · exact uncached

/-- A note of a reply makes no difference to what is bound. -/
theorem Bound.note {libId : Nat} {ready : Bool} {bound : List (Bytes × Value)} {token : Token}
    (binds : Bound libId before after ready bound) :
    Bound libId before (after.note (.sent token)) ready bound where
  noted := by
    rw [← binds.noted]
    simp [Core.note, registrations]
  named := binds.named
  loaded := binds.loaded

/-- A function of a library is in the closure cache or looked up. -/
theorem Fetched.searched (fetched : Fetched rt ctx function load before (.ok result) after)
    (data : function.data = .functionRef name libId)
    (functions : before.lua.registry libraryFunctionsName = .hidden libraryFunctionsName) :
    (∃ callback, result = some callback ∧
        before.lua.cached function.funcId = .function callback ∧ after = before) ∨
      (before.lua.cached function.funcId).isFunction = false ∧
        ∃ ready bound, Searched rt ctx function.funcId name libId load before after result ready
          bound := by
  have unique {lib other : LuajitLibrary} (first : ctx.libraries.lookup libId = some lib)
      (second : ctx.libraries.lookup libId = some other) : lib = other :=
    Option.some.inj (first.symm.trans second)
  cases fetched with
  | hit cached => exact .inl ⟨_, rfl, cached, rfl⟩
  | rejected _ source => simp [data] at source
  | compiled _ source => simp [data] at source
  | missing uncached reference lookup =>
      obtain ⟨rfl, rfl⟩ : name = _ ∧ libId = _ := by simpa [data] using reference
      refine .inr ⟨uncached, false, [], ?_⟩
      exact
        { noted := by simp [Core.note, registrations]
          named := fun _ => rfl
          loaded := fun other => by simp [Core.note]
          cached := fun other => by simp [Core.note]
          found := by simp
          missing := fun _ => ⟨rfl, rfl⟩
          library := by simp [lookup] }
  | unready uncached reference lookup readied =>
      obtain ⟨rfl, rfl⟩ : name = _ ∧ libId = _ := by simpa [data] using reference
      obtain ⟨bound, loads, binds, cached⟩ := readied.bound functions
      refine .inr ⟨uncached, false, bound, ?_⟩
      exact
        { toBound := binds
          cached := fun other => by simp [cached]
          found := by simp
          missing := by simp [lookup]
          library := fun lib found => unique lookup found ▸ loads }
  | unbound uncached reference lookup readied unbound =>
      obtain ⟨rfl, rfl⟩ : name = _ ∧ libId = _ := by simpa [data] using reference
      obtain ⟨bound, loads, binds, cached⟩ := readied.bound functions
      refine .inr ⟨uncached, true, bound, ?_⟩
      exact
        { toBound := binds.note
          cached := fun other => by simpa using cached other
          found := fun callback => by
            refine iff_of_false (by simp) fun both => ?_
            rw [Core.note_lua] at both
            rw [both.2] at unbound
            simp [Value.isFunction, Value.type] at unbound
          missing := by simp [lookup]
          library := fun lib found => unique lookup found ▸ loads }
  | bound uncached reference lookup readied named =>
      obtain ⟨rfl, rfl⟩ : name = _ ∧ libId = _ := by simpa [data] using reference
      obtain ⟨bound, loads, binds, cached⟩ := readied.bound functions
      refine .inr ⟨uncached, true, bound, ?_⟩
      exact
        { noted := binds.noted
          named := fun other => (State.functionNamed_remember other).trans (binds.named other)
          loaded := fun other => (State.loaded_remember other).trans (binds.loaded other)
          cached := fun other => (State.cached_remember other).trans (by simp [cached])
          found := fun callback => by simp [named]
          missing := by simp [lookup]
          library := fun lib found => unique lookup found ▸ loads }

end Search

section Calls

variable {rt : Runtime} {ctx : EngineCtx} {function : LuajitFunction} {type : SubsystemType}
  {load body : ScriptRun} {before after : Core CallHost} {returns : Bool}

theorem SameTables.refl (lua : State) : SameTables lua lua :=
  ⟨fun _ => rfl, fun _ => rfl, fun _ => rfl⟩

/-- A call of a library's function aborts while the library is loaded, or does to the
tables what looking the function up does, and executes the callback that is found. -/
theorem Called.fetched (quiet : body.RegistersNothing) (library : type ≠ .eval)
    (prepared : Prepared type before.lua) (start : before.host.trace = [])
    (called : Called rt ctx function type load body before returns after) :
    (returns = false ∧ ∃ reason, Fetched rt ctx function load before (.error reason) after) ∨
      ∃ result found, Fetched rt ctx function load before (.ok result) found ∧
        SameTables found.lua after.lua ∧
        registrations .library after.host.trace = registrations .library found.host.trace ∧
        ∀ callee, after.Entered .body callee ↔ result = some callee := by
  have nothing {result : Except String (Option FuncRef)} {found : Core CallHost}
      (fetched : Fetched rt ctx function load before result found) (callee : FuncRef) :
      ¬ found.Entered .body callee := by
    intro entered
    rcases fetched.entered entered with ⟨event, member, -⟩ | ⟨kind, -⟩
    · simp [start] at member
    · cases kind
  cases called with
  | crashed fetched => exact .inl ⟨rfl, _, fetched⟩
  | refused fetched =>
      exact .inr ⟨none, _, fetched, .refl _, rfl,
        fun callee => iff_of_false (nothing fetched callee) (by simp)⟩
  | @invoked callback found _ _ fetched invoked =>
      have functions : found.lua.registry libraryFunctionsName = .hidden libraryFunctionsName := by
        rw [fetched.guard.1]
        exact prepared.functions library
      refine .inr ⟨some callback, _, fetched, invoked.sameTables quiet library functions,
        invoked.registrations, fun callee => ⟨fun entered => ?_, ?_⟩⟩
      · rcases invoked.entered entered with old | ⟨-, same⟩
        · exact absurd old (nothing fetched callee)
        · exact congrArg some same
      · rintro ⟨⟩
        exact invoked.enters fun eval => absurd eval library

end Calls

/-- What is remembered of a load is what the trace notes. -/
theorem libraryRegistrations_eq (trace : List Event) :
    libraryRegistrations trace = registrations .library trace := by
  refine List.filterMap_congr fun event _ => ?_
  cases event with
  | registered kind name callback => cases kind <;> rfl
  | _ => rfl

/-- The function state of a user, which is made when there is none. -/
def functionState (ctx : EngineCtx) (user : Bytes) : State :=
  ((ctx.userStates.lookup user).getD (createPerUserState ctx)).functionLua.lua

/-- A state that was just made looks nothing up. -/
structure Blank (lua : State) : Prop where
  named : ∀ name, lua.functionNamed name = .nil
  cached : ∀ funcId, lua.cached funcId = .nil
  loaded : ∀ libId, lua.loaded libId = false

theorem createUserLuaState_blank (ctx : EngineCtx) (type : SubsystemType) :
    Blank (createUserLuaState ctx type).lua := by
  constructor <;> intro key <;> simp [State.functionNamed, State.cached, State.loaded,
    createUserLuaState, luaLNewstate, Value.isNil, Value.type]

/-- The callback that a function's library bound last to its name when it was loaded
for a user. -/
def ownCallback (loads : Bytes → Nat → Option (List (Bytes × Value))) (user : Bytes)
    (libId : Nat) (name : Bytes) : Option Value :=
  (loads user libId).bind fun bound => lastBinding bound (cString name)

/-- A user's state has a function's own callback where it will be looked for. -/
structure Serves (lua : State) (funcId : Nat) (name : Bytes) (own : Option Value) : Prop where
  cached : ∀ callback, lua.cached funcId = .function callback → own = some (.function callback)
  named : (lua.cached funcId).isFunction = false →
    ∀ callback, own = some (.function callback) → lua.functionNamed (cString name) = .function callback

/-- States that look functions up alike serve the same functions. -/
theorem Serves.congr {before after : State} {funcId : Nat} {name : Bytes} {own : Option Value}
    (serves : Serves before funcId name own) (same : SameTables before after) :
    Serves after funcId name own where
  cached := fun callback cached => serves.cached callback (by rw [← same.cached, cached])
  named := fun uncached callback registered => by
    rw [same.cached] at uncached
    rw [same.named]
    exact serves.named uncached callback registered

namespace System

/-- The server holds this function of a library that was compiled since the last reset of
the libraries. -/
structure Offers (system : System) (handle : Held) (name : Bytes) (libId : Nat) : Prop where
  held : handle ∈ system.held
  data : handle.compiled.function.data = .functionRef name libId
  current : handle.generation = system.generation

variable {rt : Runtime} {system : System} {handle : Held} {name : Bytes} {libId : Nat}

theorem Offers.currentIn (offers : system.Offers handle name libId) :
    system.CurrentIn libId handle :=
  ⟨offers.held, by simp [Held.libId, offers.data], offers.current⟩

/-- What the stores must agree on for functions to resolve. -/
structure Consistent (system : System) : Prop where
  counted : system.Counted
  remembered : ∀ user libId, (functionState system.ctx user).loaded libId =
    (system.loads user libId).isSome
  libraries : ∀ user libId, (functionState system.ctx user).loaded libId = true →
    libId ≤ system.ctx.nextLibId
  functions : ∀ user funcId, ((functionState system.ctx user).cached funcId).isFunction = true →
    funcId ≤ system.ctx.nextFuncId
  serves : ∀ user handle name libId, system.Offers handle name libId →
    Serves (functionState system.ctx user) handle.compiled.function.funcId name
      (ownCallback system.loads user libId name)

/-- A user has loaded the library of this function and not called it yet, and will look
its callback up under the name. -/
def Needs (system : System) (user : Bytes) (handle : Held) (name : Bytes) : Prop :=
  ∃ asked libId callback, system.Offers handle asked libId ∧ cString asked = name ∧
    ((functionState system.ctx user).cached handle.compiled.function.funcId).isFunction = false ∧
    ownCallback system.loads user libId asked = some (.function callback)

section States

variable {user : Bytes}

/-- Users without states of their own get the same states as before. -/
theorem functionState_congr {before after : EngineCtx}
    (users : after.userStates = before.userStates)
    (ffi : after.enableFfiApi = before.enableFfiApi) :
    functionState after user = functionState before user := by
  simp [functionState, users, createPerUserState, createUserLuaState, ffi]

theorem functionState_compile {type : SubsystemType} {code : Bytes} {fuel : Nat}
    {topLevel : ScriptRun} :
    functionState (system.step rt (.compile type code fuel topLevel)).ctx user =
      functionState system.ctx user := by
  obtain ⟨libraries, nextFuncId, nextLibId, ctx⟩ := step_compile_ctx
  rw [ctx]
  exact functionState_congr rfl rfl

/-- A call of a library's function changes the caller's state. -/
theorem functionState_call {username : Bytes} {keys args : List Bytes} {load body : ScriptRun}
    (library : handle.type ≠ .eval) :
    functionState (system.step rt (.call username handle keys args load body)).ctx user =
      if user = cString username then
        (callOutcome rt system.ctx username handle keys args load body).world.lua
      else functionState system.ctx user := by
  simp only [functionState, step_call_lookup]
  split
  · simp [PerUserState.put, library, leaveLua]
  · rfl

/-- A call of an EVAL script leaves the function states alone. -/
theorem functionState_call_eval {username : Bytes} {keys args : List Bytes}
    {load body : ScriptRun} (eval : handle.type = .eval) :
    functionState (system.step rt (.call username handle keys args load body)).ctx user =
      functionState system.ctx user := by
  simp only [functionState, step_call_lookup]
  split
  · subst user
    simp [PerUserState.put, eval, userState]
  · rfl

/-- Freeing a function unbinds its name for every user. -/
theorem functionState_free (prepared : system.UsersPrepared)
    (data : handle.compiled.function.data = .functionRef name libId) :
    SameTables ((functionState system.ctx user).bindFunction name .nil)
      (functionState (system.step rt (.free handle)).ctx user) := by
  have lookup : (system.step rt (.free handle)).ctx.userStates.lookup user =
      (system.ctx.userStates.lookup user).map (removeFunction rt name) := by
    rw [step_free_lookup, data]
  cases found : system.ctx.userStates.lookup user with
  | none =>
      have blank (ctx : EngineCtx) : Blank (createPerUserState ctx).functionLua.lua :=
        createUserLuaState_blank ctx .function
      simp only [functionState, lookup, found, Option.map_none, Option.getD_none]
      exact
        { named := fun other => by
            rw [functionNamed_bindFunction, (blank _).named, (blank _).named, ite_self]
          cached := fun other => by rw [State.cached_bindFunction, (blank _).cached, (blank _).cached]
          loaded := fun other => by
            rw [State.loaded_bindFunction, (blank _).loaded, (blank _).loaded] }
  | some present =>
      simp only [functionState, lookup, found, Option.map_some, Option.getD_some]
      rw [removeFunction_functionLua ((prepared user present found).2.functions (by decide))]
      exact .refl _

/-- Freeing an EVAL script leaves the function states alone. -/
theorem functionState_free_eval {text : Bytes}
    (data : handle.compiled.function.data = .source text) :
    functionState (system.step rt (.free handle)).ctx user = functionState system.ctx user := by
  refine functionState_congr ?_ ?_ <;> simp [step, luajitEngineFreeFunction, data]

theorem functionState_reset_eval {async insecure : Bool} :
    functionState (system.step rt (.reset .eval async insecure)).ctx user =
      functionState system.ctx user := by
  simp only [functionState, step_reset_lookup]
  cases system.ctx.userStates.lookup user <;> rfl

/-- A reset of the libraries leaves the users nothing. -/
theorem functionState_reset {type : SubsystemType} {async insecure : Bool}
    (drops : dropsLibraries type = true) :
    Blank (functionState (system.step rt (.reset type async insecure)).ctx user) := by
  have library : type ≠ .eval := by
    rintro rfl
    exact absurd drops (by decide)
  simp only [functionState, step_reset_lookup]
  split
  · exact createUserLuaState_blank _ _
  · cases system.ctx.userStates.lookup user with
    | none => exact createUserLuaState_blank _ _
    | some present =>
        simp only [Option.map_some, Option.getD_some, renewedState, if_neg library]
        exact createUserLuaState_blank _ _

end States

/-- The top-level code of a library is entered in a user's state. -/
def loadStart (lua : State) (code : Bytes) : Core CallHost :=
  (⟨lua, ⟨none, []⟩, []⟩ : Core CallHost).enter .library (.chunk code) []

/-- The source of a library is loaded in a user's state, or loads there without an error,
whatever is on the stack. -/
def LoadsIn (rt : Runtime) (lua : State) (libId : Nat) (code : Bytes) (load : ScriptRun) : Prop :=
  lua.loaded libId = true ∨ rt.syntaxError code = none ∧
    ∀ world : World CallHost, world.core = loadStart lua code →
      ((userSetting rt .function .library).run load world).IsDone

/-- If the request calls a function compiled since the last reset of the libraries whose
library's source loads, it executes the callback that the library registered under the
function's name, and no other. -/
def Resolves (rt : Runtime) (system : System) : Request → Prop
  | .call username handle keys args load body => ∀ name libId, system.Offers handle name libId →
      LoadsIn rt (functionState system.ctx (cString username)) libId handle.source load →
        ∃ callback, ownCallback (system.step rt (.call username handle keys args load body)).loads
            (cString username) libId name = some (.function callback) ∧
          ∀ callee, (callOutcome rt system.ctx username handle keys args load
            body).world.core.Entered .body callee ↔ callee = callback
  | _ => True

/-- Loading this code for the user binds nothing anew under a name that the user needs. -/
def SparesNames (rt : Runtime) (system : System) (user : Bytes) (code : Bytes)
    (load : ScriptRun) : Prop :=
  ∀ other name, system.Needs user other name → ∀ world : World CallHost,
    world.core = loadStart (functionState system.ctx user) code → ∀ callback,
      lastBinding (bindings rt .function .library load.actions world) name = some callback →
        (functionState system.ctx user).functionNamed name = callback

/-- The function's own library registers its name: it did so when it was loaded for the
user, or does when it is loaded now. -/
def RegistersOwn (rt : Runtime) (system : System) (user : Bytes) (handle : Held) (name : Bytes)
    (libId : Nat) (load : ScriptRun) : Prop :=
  if (functionState system.ctx user).loaded libId then
    ∃ callback, ownCallback system.loads user libId name = some (.function callback)
  else rt.syntaxError handle.source = none → ∀ world : World CallHost,
    world.core = loadStart (functionState system.ctx user) handle.source →
      ((userSetting rt .function .library).run load world).IsDone →
        ∃ callback, lastBinding (bindings rt .function .library load.actions world)
          (cString name) = some (.function callback)

/-- The request leaves what functions resolve through in line. A library that compiles has
fewer than 2^31 functions. A function of before the last reset of the libraries is freed
only when no library has its id by then, and no function is freed whose name a user needs
for another one. Loading a library spares the names the user needs, and it registers the
name of the function that is called. -/
def KeepsResolution (rt : Runtime) (system : System) : Request → Prop
  | .compile type code fuel topLevel =>
      type ≠ .eval → ∀ count, registeredCount rt fuel code topLevel = some count → count < 2 ^ 31
  | .free handle => ∀ name libId, handle.compiled.function.data = .functionRef name libId →
      (handle.generation = system.generation ∨ libId ∉ system.ctx.libraries) ∧
        ∀ user other, system.Needs user other (cString name) → other = handle
  | .call username handle _ _ load _ =>
      (∀ libId lib, handle.libId = some libId → system.ctx.libraries.lookup libId = some lib →
        startsLibrary rt system.ctx (functionState system.ctx (cString username))
            handle.compiled.function →
          SparesNames rt system (cString username) lib.code load) ∧
      ∀ name libId, system.Offers handle name libId →
        RegistersOwn rt system (cString username) handle name libId load
  | .reset _ _ _ => True

end System

/-- No body that the request runs calls `server.register_function`. -/
def Request.Quiet : Request → Prop
  | .call _ _ _ _ _ body => body.RegistersNothing
  | _ => True

namespace System

variable {rt : Runtime} {system : System} {handle : Held} {name : Bytes} {libId : Nat}

/-- The count of libraries survives every request that keeps them in line. -/
theorem counted_step (request : Request) (numbers : system.Numbering) (counted : system.Counted)
    (admitted : system.Admits request) (keeps : system.KeepsResolution rt request) :
    (system.step rt request).Counted := by
  cases request with
  | compile type code fuel topLevel =>
      obtain ⟨after, functions, run, made⟩ | ⟨-, same⟩ :=
        step_compile_cases rt system type code fuel topLevel
      · rw [made]
        obtain ⟨funcIds, ⟨eval, data, ctx⟩ | ⟨library, registered, refs, ctx⟩⟩ :=
          luajitEngineCompileCode_ok run
        · exact counted_compiled_eval numbers counted (fresh_eval funcIds data ctx) (by rw [ctx])
        · exact counted_compiled_library numbers counted (fresh_library funcIds refs ctx) ctx
            (keeps library _ registered)
      · exact same.counted_iff.mpr counted
  | call username handle keys args load body => exact step_call.counted_iff.mpr counted
  | free handle =>
      cases data : handle.compiled.function.data with
      | source text =>
          have none : handle.libId = none := by simp [Held.libId, data]
          refine counted_free_apart numbers admitted.2 ?_ ?_ counted
          · rw [step_free_libraries, none]
          · rintro libId ⟨-, named, -⟩
            simp [none] at named
      | functionRef name libId =>
          have library : handle.libId = some libId := by simp [Held.libId, data]
          by_cases current : handle.generation = system.generation
          · exact counted_free_current numbers ⟨admitted.2, library, current⟩ counted
          · have absent := (keeps name libId data).1.resolve_left current
            refine counted_free_apart numbers admitted.2 ?_ (fun _ still => current still.2.2) counted
            rw [step_free_libraries, library]
            exact releaseLibrary_absent absent
  | reset type async insecure =>
      cases type with
      | eval => exact step_reset_eval.counted_iff.mpr counted
      | function => exact (reset_drops rfl numbers).1.counted
      | all => exact (reset_drops rfl numbers).1.counted

theorem step_compile_loads {type : SubsystemType} {code : Bytes} {fuel : Nat}
    {topLevel : ScriptRun} :
    (system.step rt (.compile type code fuel topLevel)).loads = system.loads := by
  simp only [step]
  split <;> rfl

/-- A function that is neither cached nor of a loaded library needs nothing. -/
theorem serves_none {lua : State} {funcId : Nat} {name : Bytes}
    (uncached : (lua.cached funcId).isFunction = false) : Serves lua funcId name none where
  cached := fun callback cached => by simp [cached, Value.isFunction, Value.type] at uncached
  named := by simp

/-- Nothing of a library that is not loaded was bound. -/
theorem Consistent.ownCallback_eq_none (consistent : system.Consistent) {user : Bytes}
    (fresh : (functionState system.ctx user).loaded libId = false) :
    ownCallback system.loads user libId name = none := by
  rw [consistent.remembered, Option.isSome_eq_false_iff, Option.isNone_iff_eq_none] at fresh
  rw [ownCallback, fresh]
  rfl

/-- Nor is it cached. -/
theorem Consistent.uncached (consistent : system.Consistent) {user : Bytes}
    (offers : system.Offers handle name libId)
    (fresh : (functionState system.ctx user).loaded libId = false) :
    ((functionState system.ctx user).cached handle.compiled.function.funcId).isFunction = false := by
  by_contra hit
  obtain ⟨callback, cached⟩ := Value.isFunction_iff.mp (by simpa using hit)
  have own := (consistent.serves user handle name libId offers).cached callback cached
  simp [consistent.ownCallback_eq_none fresh] at own

/-- The functions of a compilation are new to every user. -/
theorem consistent_compiled {after : EngineCtx} {code : Bytes} {functions : List CompiledFunction}
    {library : Option Nat} (consistent : system.Consistent)
    (fresh : Fresh system after code functions library)
    (states : ∀ user, functionState after user = functionState system.ctx user)
    (counted : (system.compiled after code functions).Counted) :
    (system.compiled after code functions).Consistent where
  counted := counted
  remembered := fun user libId => by
    simp only [compiled, states]
    exact consistent.remembered user libId
  libraries := fun user libId loaded => by
    simp only [compiled, states] at loaded
    exact le_trans (consistent.libraries user libId loaded) fresh.nextLibId
  functions := fun user funcId cached => by
    simp only [compiled, states] at cached
    simp only [compiled, fresh.nextFuncId]
    exact le_trans (consistent.functions user funcId cached) (Nat.le_add_right _ _)
  serves := by
    intro user handle name libId offers
    simp only [compiled, states]
    rcases List.mem_append.mp offers.held with old | new
    · exact consistent.serves user handle name libId ⟨old, offers.data, offers.current⟩
    · have named : handle.libId = some libId := by simp [Held.libId, offers.data]
      rw [fresh.named handle new] at named
      have newer := (fresh.newer libId named).1
      have unloaded : (functionState system.ctx user).loaded libId = false := by
        by_contra loaded
        have := consistent.libraries user libId (by simpa using loaded)
        omega
      rw [consistent.ownCallback_eq_none unloaded]
      refine serves_none ?_
      by_contra hit
      have issued := consistent.functions user _ (by simpa using hit)
      obtain ⟨function, inFunctions, rfl⟩ := mem_newHandles.mp new
      have inIds := List.mem_map_of_mem
        (f := fun function : CompiledFunction => function.function.funcId) inFunctions
      rw [fresh.funcIds, List.mem_range'_1] at inIds
      simp only at issued
      omega

/-- A request that touches neither what functions are looked up in nor the libraries. -/
theorem Consistent.of_same {after : System} (consistent : system.Consistent)
    (same : SameLibraries system after)
    (states : ∀ user, SameTables (functionState system.ctx user) (functionState after.ctx user))
    (loads : after.loads = system.loads) : after.Consistent where
  counted := same.counted_iff.mpr consistent.counted
  remembered := fun user libId => by
    rw [(states user).loaded, loads]
    exact consistent.remembered user libId
  libraries := fun user libId loaded => by
    rw [(states user).loaded] at loaded
    rw [same.nextLibId]
    exact consistent.libraries user libId loaded
  functions := fun user funcId cached => by
    rw [(states user).cached] at cached
    rw [same.nextFuncId]
    exact consistent.functions user funcId cached
  serves := fun user handle name libId offers => by
    rw [loads]
    exact (consistent.serves user handle name libId ⟨same.held ▸ offers.held, offers.data,
      same.generation ▸ offers.current⟩).congr (states user)

theorem consistent_compile {type : SubsystemType} {code : Bytes} {fuel : Nat}
    {topLevel : ScriptRun} (consistent : system.Consistent)
    (counted : (system.step rt (.compile type code fuel topLevel)).Counted) :
    (system.step rt (.compile type code fuel topLevel)).Consistent := by
  have states (user : Bytes) :
      functionState (system.step rt (.compile type code fuel topLevel)).ctx user =
        functionState system.ctx user := functionState_compile
  obtain ⟨after, functions, run, made⟩ | ⟨-, same⟩ :=
    step_compile_cases rt system type code fuel topLevel
  · rw [made] at counted states ⊢
    obtain ⟨funcIds, ⟨-, data, ctx⟩ | ⟨-, -, refs, ctx⟩⟩ := luajitEngineCompileCode_ok run
    · exact consistent_compiled consistent (fresh_eval funcIds data ctx) states counted
    · exact consistent_compiled consistent (fresh_library funcIds refs ctx) states counted
  · exact consistent.of_same same (fun user => states user ▸ .refl _)
      step_compile_loads

/-- A function is freed whose name nobody needs for another one. -/
theorem consistent_free (numbers : system.Numbering) (prepared : system.UsersPrepared)
    (consistent : system.Consistent) (keeps : system.KeepsResolution rt (.free handle))
    (counted : (system.step rt (.free handle)).Counted) :
    (system.step rt (.free handle)).Consistent := by
  have offered {other : Held} {asked : Bytes} {libId : Nat}
      (offers : (system.step rt (.free handle)).Offers other asked libId) :
      other ≠ handle ∧ system.Offers other asked libId := by
    have still := (mem_step_free numbers).mp offers.held
    exact ⟨still.1, still.2, offers.data, offers.current⟩
  cases data : handle.compiled.function.data with
  | source text =>
      have states (user : Bytes) : functionState (system.step rt (.free handle)).ctx user =
          functionState system.ctx user := functionState_free_eval data
      exact
        { counted := counted
          remembered := by
            simp only [states]
            exact consistent.remembered
          libraries := by simpa only [states, step_free_nextIds.2] using consistent.libraries
          functions := by simpa only [states, step_free_nextIds.1] using consistent.functions
          serves := fun user other asked libId offers => by
            rw [states]
            exact consistent.serves user other asked libId (offered offers).2 }
  | functionRef name libId =>
      have states (user : Bytes) : SameTables
          ((functionState system.ctx user).bindFunction name .nil)
          (functionState (system.step rt (.free handle)).ctx user) :=
        functionState_free prepared data
      exact
        { counted := counted
          remembered := fun user other => by
            rw [(states user).loaded, State.loaded_bindFunction]
            exact consistent.remembered user other
          libraries := fun user other loaded => by
            rw [(states user).loaded, State.loaded_bindFunction] at loaded
            rw [step_free_nextIds.2]
            exact consistent.libraries user other loaded
          functions := fun user funcId cached => by
            rw [(states user).cached, State.cached_bindFunction] at cached
            rw [step_free_nextIds.1]
            exact consistent.functions user funcId cached
          serves := fun user other asked otherLib offers => by
            obtain ⟨apart, old⟩ := offered offers
            have serves := consistent.serves user other asked otherLib old
            constructor
            · intro callback cached
              rw [(states user).cached, State.cached_bindFunction] at cached
              exact serves.cached callback cached
            · intro uncached callback own
              rw [(states user).cached, State.cached_bindFunction] at uncached
              rw [(states user).named, functionNamed_bindFunction, if_neg]
              · exact serves.named uncached callback own
              · intro same
                exact apart ((keeps name libId data).2 user other
                  ⟨asked, otherLib, callback, old, same, uncached, own⟩) }

/-- After a reset of the libraries there is nothing to resolve. -/
theorem consistent_reset {type : SubsystemType} {async insecure : Bool}
    (drops : dropsLibraries type = true) (numbers : system.Numbering) :
    (system.step rt (.reset type async insecure)).Consistent := by
  have blank (user : Bytes) :
      Blank (functionState (system.step rt (.reset type async insecure)).ctx user) :=
    functionState_reset drops
  have loads : (system.step rt (.reset type async insecure)).loads = fun _ _ => none := by
    simp [step, drops]
  exact
    { counted := (reset_drops drops numbers).1.counted
      remembered := fun user libId => by rw [(blank user).loaded, loads]; rfl
      libraries := fun user libId loaded => by simp [(blank user).loaded] at loaded
      functions := fun user funcId cached => by
        simp [(blank user).cached, Value.isFunction, Value.type] at cached
      serves := fun user handle name libId offers => by
        have none : ownCallback (system.step rt (.reset type async insecure)).loads user libId
            name = none := by
          rw [ownCallback, loads]
          rfl
        rw [none]
        exact serves_none (by simp [(blank user).cached, Value.isFunction, Value.type]) }

/-- The handles the server holds differ in their function ids. -/
theorem Numbering.eq_of_funcId (numbers : system.Numbering) {first second : Held}
    (inHeld : first ∈ system.held) (alsoHeld : second ∈ system.held)
    (same : first.compiled.function.funcId = second.compiled.function.funcId) : first = second :=
  List.inj_on_of_nodup_map numbers.funcIds inHeld alsoHeld same

section Call

variable {username : Bytes} {keys args : List Bytes} {load body : ScriptRun}

/-- How a call of a library's function goes in the caller's function state. -/
theorem call_called (prepared : system.UsersPrepared)
    (data : handle.compiled.function.data = .functionRef name libId) :
    Called rt system.ctx handle.compiled.function .function load body
      ⟨functionState system.ctx (cString username), ⟨none, []⟩, []⟩
      (decide (callOutcome rt system.ctx username handle keys args load body).IsDone)
      (callOutcome rt system.ctx username handle keys args load body).world.core := by
  have called := callOutcome_called rt prepared username handle keys args load body
  rw [handle.type_library data] at called
  exact called

/-- What is remembered after a call of a library's function. -/
theorem step_call_loads (data : handle.compiled.function.data = .functionRef name libId)
    (user : Bytes) (other : Nat) :
    (system.step rt (.call username handle keys args load body)).loads user other =
      if user = cString username ∧ libId = other ∧
          (functionState system.ctx (cString username)).loaded other = false ∧
          (callOutcome rt system.ctx username handle keys args load body).world.lua.loaded other then
        some (registrations .library
          (callOutcome rt system.ctx username handle keys args load body).world.host.trace)
      else system.loads user other := by
  have library : handle.libId = some libId := by simp [Held.libId, data]
  simp only [step, callLoads, handle.type_library data, library, Option.some.injEq,
    libraryRegistrations_eq]
  rfl

/-- A call of an EVAL script touches nothing that functions resolve through. -/
theorem consistent_call_eval {text : Bytes} (consistent : system.Consistent)
    (data : handle.compiled.function.data = .source text) :
    (system.step rt (.call username handle keys args load body)).Consistent := by
  have eval : handle.type = .eval := by simp [Held.type, data]
  have library : handle.libId = none := by simp [Held.libId, data]
  refine consistent.of_same step_call (fun user => ?_) ?_
  · rw [functionState_call_eval eval]
    exact .refl _
  · funext user other
    simp [step, callLoads, library]

section Serving

variable {before final : Core CallHost} {result : Option FuncRef} {ready : Bool}
  {bound : List (Bytes × Value)} {other : Held} {asked : Bytes} {otherLib : Nat}

/-- What a search caches anew is the callback under the name that was called. -/
theorem Offers.cached_anew (numbers : system.Numbering) (admitted : handle ∈ system.held)
    (data : handle.compiled.function.data = .functionRef name libId)
    (searched : Searched rt system.ctx handle.compiled.function.funcId name libId load before final
      result ready bound)
    (offers : system.Offers other asked otherLib) {callback : FuncRef}
    (uncached : (before.lua.cached other.compiled.function.funcId).isFunction = false)
    (cached : final.lua.cached other.compiled.function.funcId = .function callback) :
    other = handle ∧ asked = name ∧ otherLib = libId ∧ ready = true ∧
      final.lua.functionNamed (cString name) = .function callback := by
  rw [searched.cached] at cached
  split at cached
  · rename_i same
    obtain rfl := numbers.eq_of_funcId offers.held admitted same
    obtain ⟨rfl, rfl⟩ : asked = name ∧ otherLib = libId := by
      simpa using offers.data.symm.trans data
    cases result with
    | none =>
        simp only [Option.map_none, Option.getD_none] at cached
        simp [cached, Value.isFunction, Value.type] at uncached
    | some found =>
        simp only [Option.map_some, Option.getD_some, Value.function.injEq] at cached
        subst cached
        exact ⟨rfl, rfl, rfl, (searched.found found).mp rfl⟩
  · simp [cached, Value.isFunction, Value.type] at uncached

/-- A search leaves the names alone that the user needs for other functions. -/
theorem named_search (data : handle.compiled.function.data = .functionRef name libId)
    (keeps : system.KeepsResolution rt (.call username handle keys args load body))
    (missed : ((functionState system.ctx (cString username)).cached
      handle.compiled.function.funcId).isFunction = false)
    (searched : Searched rt system.ctx handle.compiled.function.funcId name libId load
      ⟨functionState system.ctx (cString username), ⟨none, []⟩, []⟩ final result ready bound)
    (needs : system.Needs (cString username) other (cString asked)) :
    final.lua.functionNamed (cString asked) =
      (functionState system.ctx (cString username)).functionNamed (cString asked) := by
  have library : handle.libId = some libId := by simp [Held.libId, data]
  rw [searched.named]
  cases last : lastBinding bound (cString asked) with
  | none => rfl
  | some value =>
      have some_bound : bound ≠ [] := by
        rintro rfl
        simp [lastBinding] at last
      cases lookup : system.ctx.libraries.lookup libId with
      | none => exact absurd (searched.missing lookup).2 some_bound
      | some lib =>
          have binds := searched.library lib lookup
          have fresh : (functionState system.ctx (cString username)).loaded libId = false := by
            by_contra loaded
            exact some_bound (binds.already (by simpa using loaded)).2
          have accepted : rt.syntaxError lib.code = none := by
            by_contra rejected
            exact some_bound (binds.rejected fresh rejected).2
          obtain ⟨world, start, same, -⟩ := binds.run fresh accepted
          have spares := keeps.1 libId lib library lookup
            ⟨missed, name, libId, lib, data, lookup, fresh, accepted⟩
          exact (spares other (cString asked) needs world start value (same ▸ last)).symm

/-- A search that loads the library caches, under the name that is called, what the library
registered last. -/
theorem serves_search_loading (numbers : system.Numbering) (consistent : system.Consistent)
    (admitted : handle ∈ system.held)
    (data : handle.compiled.function.data = .functionRef name libId)
    (keeps : system.KeepsResolution rt (.call username handle keys args load body))
    (searched : Searched rt system.ctx handle.compiled.function.funcId name libId load
      ⟨functionState system.ctx (cString username), ⟨none, []⟩, []⟩ final result ready bound)
    (offers : system.Offers other asked libId)
    (fresh : (functionState system.ctx (cString username)).loaded libId = false) :
    Serves final.lua other.compiled.function.funcId asked
      (lastBinding bound (cString asked)) := by
  constructor
  · intro callback cached
    obtain ⟨rfl, rfl, -, isReady, named⟩ := offers.cached_anew numbers admitted data searched
      (consistent.uncached offers fresh) cached
    cases lookup : system.ctx.libraries.lookup libId with
    | none => simp [(searched.missing lookup).1] at isReady
    | some lib =>
        have binds := searched.library lib lookup
        obtain ⟨counted, found, source, -⟩ := consistent.counted libId other offers.currentIn
        obtain rfl : counted = lib := Option.some.inj (found.symm.trans lookup)
        have accepted : rt.syntaxError counted.code = none := by
          by_contra rejected
          simp [(binds.rejected fresh rejected).1] at isReady
        obtain ⟨world, start, same, done⟩ := binds.run fresh accepted
        have own := keeps.2 asked libId offers
        rw [RegistersOwn, if_neg (by simp [fresh]), ← source] at own
        obtain ⟨registered, last⟩ := own accepted world start (done.mpr isReady)
        rw [← same] at last
        rw [searched.named, last, Option.getD_some] at named
        rw [last, named]
  · intro uncached callback own
    rw [searched.named, own]
    rfl

/-- A search that loads nothing of a function's library serves the function as before. -/
theorem serves_search_loaded (numbers : system.Numbering) (consistent : system.Consistent)
    (admitted : handle ∈ system.held)
    (data : handle.compiled.function.data = .functionRef name libId)
    (keeps : system.KeepsResolution rt (.call username handle keys args load body))
    (missed : ((functionState system.ctx (cString username)).cached
      handle.compiled.function.funcId).isFunction = false)
    (searched : Searched rt system.ctx handle.compiled.function.funcId name libId load
      ⟨functionState system.ctx (cString username), ⟨none, []⟩, []⟩ final result ready bound)
    (offers : system.Offers other asked otherLib)
    (kept : ¬ (libId = otherLib ∧
      (functionState system.ctx (cString username)).loaded otherLib = false ∧
      final.lua.loaded otherLib = true)) :
    Serves final.lua other.compiled.function.funcId asked
      (ownCallback system.loads (cString username) otherLib asked) := by
  have serves := consistent.serves (cString username) other asked otherLib offers
  constructor
  · intro callback cached
    by_cases hit : ((functionState system.ctx (cString username)).cached
        other.compiled.function.funcId).isFunction = true
    · refine serves.cached callback ?_
      rw [searched.cached] at cached
      split at cached
      · rename_i same
        rw [same, missed] at hit
        simp at hit
      · exact cached
    · have uncached := Bool.eq_false_iff.mpr hit
      obtain ⟨rfl, rfl, rfl, isReady, named⟩ :=
        offers.cached_anew numbers admitted data searched uncached cached
      have loaded : (functionState system.ctx (cString username)).loaded otherLib = true := by
        by_contra fresh
        refine kept ⟨rfl, by simpa using fresh, ?_⟩
        simp [searched.loaded, isReady]
      have nothing : bound = [] := by
        cases lookup : system.ctx.libraries.lookup otherLib with
        | none => exact (searched.missing lookup).2
        | some lib => exact ((searched.library lib lookup).already loaded).2
      have own := keeps.2 asked otherLib offers
      rw [RegistersOwn, if_pos loaded] at own
      obtain ⟨registered, own⟩ := own
      rw [searched.named, nothing] at named
      have before : (functionState system.ctx (cString username)).functionNamed (cString asked) =
          .function callback := named
      rw [serves.named uncached registered own] at before
      rw [own, before]
  · intro uncached callback own
    have still := searched.uncached_before missed uncached
    rw [named_search data keeps missed searched
      ⟨asked, otherLib, callback, offers, rfl, still, own⟩]
    exact serves.named still callback own

/-- After a search a library is marked as loaded exactly if its registrations are
remembered. -/
theorem loaded_search (consistent : system.Consistent)
    (searched : Searched rt system.ctx handle.compiled.function.funcId name libId load
      ⟨functionState system.ctx (cString username), ⟨none, []⟩, []⟩ final result ready bound)
    (library : Nat) (noted : List (Bytes × Value)) :
    final.lua.loaded library =
      (if libId = library ∧ (functionState system.ctx (cString username)).loaded library = false ∧
          final.lua.loaded library = true then some noted
        else system.loads (cString username) library).isSome := by
  have marked := searched.loaded library
  have before := consistent.remembered (cString username) library
  split
  · rename_i newly
    exact newly.2.2.trans rfl
  · rename_i old
    rw [← before]
    cases loaded : (functionState system.ctx (cString username)).loaded library with
    | true => rw [marked, loaded, Bool.true_or]
    | false =>
        by_contra now
        have now := Bool.eq_true_of_not_eq_false now
        rw [marked, loaded, Bool.false_or, Bool.and_eq_true, decide_eq_true_eq] at now
        exact old ⟨now.2.symm, loaded, by rw [marked, loaded, now.1, now.2]; simp⟩

variable (rt) in
/-- A search for a function of the user's keeps what the user has of every function. -/
theorem serves_search (numbers : system.Numbering) (consistent : system.Consistent)
    (admitted : handle ∈ system.held)
    (data : handle.compiled.function.data = .functionRef name libId)
    (keeps : system.KeepsResolution rt (.call username handle keys args load body))
    (missed : ((functionState system.ctx (cString username)).cached
      handle.compiled.function.funcId).isFunction = false)
    (searched : Searched rt system.ctx handle.compiled.function.funcId name libId load
      ⟨functionState system.ctx (cString username), ⟨none, []⟩, []⟩ final result ready bound)
    (offers : system.Offers other asked otherLib) :
    Serves final.lua other.compiled.function.funcId asked
      (if libId = otherLib ∧ (functionState system.ctx (cString username)).loaded otherLib = false ∧
          final.lua.loaded otherLib = true then lastBinding bound (cString asked)
        else ownCallback system.loads (cString username) otherLib asked) := by
  split
  · rename_i loads
    obtain ⟨rfl, fresh, -⟩ := loads
    exact serves_search_loading numbers consistent admitted data keeps searched offers fresh
  · rename_i kept
    exact serves_search_loaded numbers consistent admitted data keeps missed searched offers kept

end Serving

variable (rt username keys args load body) in
/-- A call of a library's function aborts while the library is loaded, finds the callback
in the closure cache, or looks it up. -/
theorem call_searched (prepared : system.UsersPrepared)
    (data : handle.compiled.function.data = .functionRef name libId)
    (quiet : body.RegistersNothing) :
    let before : Core CallHost := ⟨functionState system.ctx (cString username), ⟨none, []⟩, []⟩
    let outcome := callOutcome rt system.ctx username handle keys args load body
    (¬ outcome.IsDone ∧ ∃ reason, Fetched rt system.ctx handle.compiled.function load before
        (.error reason) outcome.world.core) ∨
      (∃ callback, before.lua.cached handle.compiled.function.funcId = .function callback ∧
        SameTables before.lua outcome.world.lua ∧
        ∀ callee, outcome.world.core.Entered .body callee ↔ callee = callback) ∨
      (before.lua.cached handle.compiled.function.funcId).isFunction = false ∧
        ∃ result ready bound, Searched rt system.ctx handle.compiled.function.funcId name libId load
          before outcome.world.core result ready bound ∧
        ∀ callee, outcome.world.core.Entered .body callee ↔ result = some callee := by
  intro before outcome
  have ready : Prepared .function before.lua := (prepared.states username).2
  rcases (call_called prepared data).fetched quiet (by decide) ready rfl with
    ⟨stopped, crashed⟩ | ⟨result, found, fetched, same, noted, entered⟩
  · exact .inl ⟨by simpa using stopped, crashed⟩
  · rcases fetched.searched data (ready.functions (by decide)) with
      ⟨callback, rfl, cached, rfl⟩ | ⟨uncached, isReady, bound, searched⟩
    · refine .inr (.inl ⟨callback, cached, same, fun callee => ?_⟩)
      rw [entered, Option.some.injEq, eq_comm]
    · exact .inr (.inr ⟨uncached, result, isReady, bound, searched.congr same noted, entered⟩)

/-- A call of a library's function keeps what functions resolve through in line. -/
theorem consistent_call (numbers : system.Numbering) (prepared : system.UsersPrepared)
    (consistent : system.Consistent) (admitted : handle ∈ system.held)
    (data : handle.compiled.function.data = .functionRef name libId)
    (quiet : body.RegistersNothing)
    (keeps : system.KeepsResolution rt (.call username handle keys args load body))
    (returns : (callOutcome rt system.ctx username handle keys args load body).IsDone) :
    (system.step rt (.call username handle keys args load body)).Consistent := by
  have library : handle.type ≠ .eval := handle.refs name libId data
  have states (user : Bytes) :
      functionState (system.step rt (.call username handle keys args load body)).ctx user = _ :=
    functionState_call library
  have loads (user : Bytes) (other : Nat) :
      (system.step rt (.call username handle keys args load body)).loads user other = _ :=
    step_call_loads data user other
  rcases call_searched rt username keys args load body prepared data quiet with
    ⟨stopped, -⟩ | ⟨callback, cached, same, -⟩ | ⟨missed, result, ready, bound, searched, -⟩
  · exact absurd returns stopped
  · refine consistent.of_same step_call (fun user => ?_) ?_
    · rw [states]
      split
      · subst user
        exact same
      · exact .refl _
    · funext user other
      rw [loads, if_neg]
      rintro ⟨-, -, fresh, loaded⟩
      rw [same.loaded, fresh] at loaded
      simp at loaded
  · have known : ready = true → libId ∈ system.ctx.libraries := by
      intro isReady
      by_contra absent
      simp [(searched.missing (AList.lookup_eq_none.mpr absent)).1] at isReady
    refine ⟨step_call.counted_iff.mpr consistent.counted, ?_, ?_, ?_, ?_⟩
    · intro user other
      rw [states, loads]
      by_cases caller : user = cString username
      · subst caller
        simp only [if_true, true_and]
        exact loaded_search consistent searched other _
      · simp only [caller, false_and, if_false]
        exact consistent.remembered user other
    · intro user other loaded
      rw [states] at loaded
      split at loaded
      · have marked := searched.loaded other
        simp only [World.core] at marked
        rw [marked, Bool.or_eq_true, Bool.and_eq_true, decide_eq_true_eq] at loaded
        rcases loaded with old | ⟨isReady, rfl⟩
        · exact consistent.libraries _ other old
        · exact numbers.entries other (known isReady)
      · exact consistent.libraries user other loaded
    · intro user funcId cached
      rw [states] at cached
      split at cached
      · have now := searched.cached funcId
        simp only [World.core] at now
        rw [now] at cached
        split at cached
        · rename_i same
          rw [same]
          exact numbers.issued handle admitted
        · exact consistent.functions _ funcId cached
      · exact consistent.functions user funcId cached
    · intro user other asked otherLib offers
      rw [states]
      by_cases caller : user = cString username
      · subst caller
        have before : system.Offers other asked otherLib :=
          ⟨offers.held, offers.data, offers.current⟩
        let final := (callOutcome rt system.ctx username handle keys args load body).world.lua
        have serves : Serves final other.compiled.function.funcId asked
            (if libId = otherLib ∧
                (functionState system.ctx (cString username)).loaded otherLib = false ∧
                final.loaded otherLib = true then lastBinding bound (cString asked)
              else ownCallback system.loads (cString username) otherLib asked) :=
          serves_search rt numbers consistent admitted data keeps missed searched before
        rw [if_pos rfl, ownCallback, loads]
        simp only [true_and]
        split
        · rename_i newly
          rw [if_pos newly] at serves
          have noted : registrations .library
              (callOutcome rt system.ctx username handle keys args load body).world.host.trace =
                bound := searched.noted
          rw [noted]
          exact serves
        · rename_i old
          rw [if_neg old] at serves
          exact serves
      · rw [if_neg caller, ownCallback, loads, if_neg fun newly => caller newly.1]
        exact consistent.serves user other asked otherLib
          ⟨offers.held, offers.data, offers.current⟩

/-- A function of the user's resolves to its own callback. -/
theorem resolves_call (prepared : system.UsersPrepared) (consistent : system.Consistent)
    (quiet : body.RegistersNothing)
    (keeps : system.KeepsResolution rt (.call username handle keys args load body)) :
    system.Resolves rt (.call username handle keys args load body) := by
  intro name libId offers loads
  obtain ⟨lib, lookup, source, -⟩ := consistent.counted libId handle offers.currentIn
  have serves := consistent.serves (cString username) handle name libId offers
  have registers := keeps.2 name libId offers
  have remembered (other : Nat) :
      (system.step rt (.call username handle keys args load body)).loads (cString username) other = _ :=
    step_call_loads offers.data (cString username) other
  -- What was registered before is still what counts.
  have kept {callback : FuncRef} (loaded : (functionState system.ctx (cString username)).loaded
        libId = true)
      (own : ownCallback system.loads (cString username) libId name = some (.function callback)) :
      ownCallback (system.step rt (.call username handle keys args load body)).loads
        (cString username) libId name = some (.function callback) := by
    rw [ownCallback, remembered, if_neg]
    · exact own
    · rintro ⟨-, -, fresh, -⟩
      simp [loaded] at fresh
  rcases call_searched rt username keys args load body prepared offers.data quiet with
    ⟨-, reason, fetched⟩ | ⟨callback, cached, -, entered⟩ |
      ⟨missed, result, ready, bound, searched, entered⟩
  · generalize (callOutcome rt system.ctx username handle keys args load body).world.core = after
      at fetched
    cases fetched with
    | crashed _ data found readied =>
        obtain ⟨rfl, rfl⟩ : name = _ ∧ libId = _ := by simpa [offers.data] using data
        obtain rfl := Option.some.inj (lookup.symm.trans found)
        cases readied with
        | aborted fresh _ executed =>
            rcases loads with loaded | ⟨-, done⟩
            · exact absurd (fresh.symm.trans loaded) (by decide)
            · obtain ⟨inner, start, runs⟩ := executed.runs
              rw [source] at start
              have stops := done inner start
              rw [runs] at stops
              exact stops.elim
  · have own := serves.cached callback cached
    have loaded : (functionState system.ctx (cString username)).loaded libId = true := by
      by_contra fresh
      simp [consistent.ownCallback_eq_none (Bool.eq_false_of_not_eq_true fresh)] at own
    exact ⟨callback, kept loaded own, entered⟩
  · have binds := searched.library lib lookup
    cases loaded : (functionState system.ctx (cString username)).loaded libId with
    | true =>
        obtain ⟨isReady, nothing⟩ := binds.already loaded
        rw [RegistersOwn, if_pos loaded] at registers
        obtain ⟨callback, own⟩ := registers
        have named := searched.named (cString name)
        rw [nothing] at named
        have found := (searched.found callback).mpr
          ⟨isReady, named.trans (serves.named missed callback own)⟩
        refine ⟨callback, kept loaded own, fun callee => ?_⟩
        rw [entered, found, Option.some.injEq, eq_comm]
    | false =>
        have accepted : rt.syntaxError handle.source = none := by
          rcases loads with already | ⟨accepted, -⟩
          · exact absurd (loaded.symm.trans already) (by decide)
          · exact accepted
        obtain ⟨world, start, same, done⟩ := binds.run loaded (source ▸ accepted)
        rw [source] at start
        have ends : ((userSetting rt .function .library).run load world).IsDone := by
          rcases loads with already | ⟨-, done⟩
          · exact absurd (loaded.symm.trans already) (by decide)
          · exact done world start
        rw [RegistersOwn, if_neg (by simp [loaded])] at registers
        obtain ⟨callback, last⟩ := registers accepted world start ends
        rw [← same] at last
        have named := searched.named (cString name)
        rw [last] at named
        have found := (searched.found callback).mpr ⟨done.mp ends, named⟩
        have marked := searched.loaded libId
        rw [done.mp ends, decide_eq_true rfl, Bool.and_true, Bool.or_true] at marked
        have noted : registrations .library
            (callOutcome rt system.ctx username handle keys args load body).world.host.trace =
              bound := searched.noted
        refine ⟨callback, ?_, fun callee => ?_⟩
        · rw [ownCallback, remembered, if_pos ⟨rfl, rfl, loaded, marked⟩, noted]
          exact last
        · rw [entered, found, Option.some.injEq, eq_comm]

end Call

/-- What resolution rests on, as long as the process lives. -/
structure Resolving (system : System) : Prop where
  numbers : system.Numbering
  sound : system.Sound
  consistent : system.crashed = false → system.Consistent

theorem initial_resolving (enableFfiApi : Bool) : (initial enableFfiApi).Resolving where
  numbers := initial_numbering enableFfiApi
  sound := initial_sound enableFfiApi
  consistent := fun _ => by
    have blank (user : Bytes) : Blank (functionState (initial enableFfiApi).ctx user) :=
      createUserLuaState_blank _ _
    exact
      { counted := initial_counted enableFfiApi
        remembered := fun user libId => (blank user).loaded libId
        libraries := fun user libId loaded => by simp [(blank user).loaded] at loaded
        functions := fun user funcId cached => by
          simp [(blank user).cached, Value.isFunction, Value.type] at cached
        serves := fun user handle name libId offers => absurd offers.held List.not_mem_nil }

/-- Every request that keeps resolution in line keeps what it rests on. -/
theorem resolving_step (request : Request) (resolving : system.Resolving)
    (admitted : system.Admits request) (quiet : request.Quiet)
    (keeps : system.KeepsResolution rt request) : (system.step rt request).Resolving where
  numbers := numbering_step request resolving.numbers
  sound := sound_step request resolving.sound admitted
  consistent := by
    intro alive
    have counted (before : system.crashed = false) := counted_step request resolving.numbers
      (resolving.consistent before).counted admitted keeps
    cases request with
    | compile type code fuel topLevel =>
        exact consistent_compile (resolving.consistent admitted) (counted admitted)
    | call username handle keys args load body =>
        have returns : (callOutcome rt system.ctx username handle keys args load body).IsDone := by
          simpa [step] using alive
        have consistent := resolving.consistent admitted.1
        cases data : handle.compiled.function.data with
        | source text => exact consistent_call_eval consistent data
        | functionRef name libId =>
            exact consistent_call resolving.numbers (resolving.sound admitted.1) consistent
              admitted.2 data quiet keeps returns
    | free handle =>
        exact consistent_free resolving.numbers (resolving.sound admitted.1)
          (resolving.consistent admitted.1) keeps (counted admitted.1)
    | reset type async insecure =>
        cases type with
        | eval =>
            refine (resolving.consistent admitted).of_same step_reset_eval (fun user => ?_) rfl
            rw [functionState_reset_eval]
            exact .refl _
        | function => exact consistent_reset rfl resolving.numbers
        | all => exact consistent_reset rfl resolving.numbers

/-- In a run whose requests all keep resolution in line, and in which no body registers
functions, every call of a function compiled since the last reset of the libraries whose
library's source loads executes the callback that its own library registered. -/
theorem resolves_throughout (rt : Runtime) (enableFfiApi : Bool) (requests : List Request)
    (run : (machine rt).Run (initial enableFfiApi) requests)
    (quiet : ∀ request ∈ requests, request.Quiet)
    (keeps : (machine rt).Along (KeepsResolution rt) (initial enableFfiApi) requests) :
    (machine rt).Along (Resolves rt) (initial enableFfiApi) requests := by
  have guarded := (InputMachine.along_of_forall quiet).and keeps
  have visits : (machine rt).Visits Resolving (initial enableFfiApi) requests :=
    run.visits (fun _ request resolving admitted guard =>
      resolving_step request resolving admitted guard.1 guard.2)
      (initial_resolving enableFfiApi) guarded
  refine ((visits.along fun _ _ resolving => resolving).and (run.and guarded)).mono ?_
  rintro system request ⟨resolving, admitted, quiet, keeps⟩
  cases request with
  | call username handle keys args load body =>
      exact resolves_call (resolving.sound admitted.1) (resolving.consistent admitted.1) quiet keeps
  | _ => trivial

/-- Top-level code that registers two functions in the scratch state. -/
def registersTwo : ScriptRun :=
  ⟨[.call .registerFunction [.string (bytes "f"), .function (.closure 0)],
    .call .registerFunction [.string (bytes "g"), .function (.closure 1)]], .ok .nil⟩

/-- The same code in a user's function state. -/
def loadsTwo : ScriptRun :=
  ⟨[.call .userRegisterFunction [.string (bytes "f"), .function (.closure 0)],
    .call .userRegisterFunction [.string (bytes "g"), .function (.closure 1)]], .ok .nil⟩

/-- The second function of the first library. -/
def gHandle : Held :=
  ⟨⟨some ⟨3, bytes "g"⟩, none, ⟨.functionRef (bytes "g") 1, 2⟩, 0⟩, [1], 0, 0⟩

/-- The function of a library that the server rejects, since it has one of the name. -/
def rejectedHandle : Held :=
  ⟨⟨some ⟨1, bytes "f"⟩, none, ⟨.functionRef (bytes "f") 2, 3⟩, 0⟩, [2], 1, 0⟩

/-- A user calls one function of a library. Another library with a function of the other
name is compiled and, as the name is taken, freed again. -/
def rejectedReload : List Request :=
  [.compile .function [1] 1 registersTwo, .call [] gHandle [] [] loadsTwo idleBody,
    .compile .function [2] 1 registersOne, .free rejectedHandle]

/-- The engine after that. -/
def afterReload : System := (machine .plain).after (initial false) rejectedReload

/-- The user's call of the other function. -/
def callAfterReload : Request := .call [] firstHandle [] [] idleBody idleBody

/-- The function of the library that stays is not found any more. -/
theorem unresolved_after_rejected_reload :
    (machine .plain).Run (initial false) (rejectedReload ++ [callAfterReload]) ∧
      (∀ request ∈ rejectedReload ++ [callAfterReload], request.Quiet) ∧
      ¬ (machine .plain).Along (Resolves .plain) (initial false)
        (rejectedReload ++ [callAfterReload]) := by
  have offers : afterReload.Offers firstHandle (bytes "f") 1 :=
    ⟨by decide +kernel, by decide +kernel, by decide +kernel⟩
  have loaded : (functionState afterReload.ctx (cString [])).loaded 1 = true := by decide +kernel
  have replies : ∀ event ∈ (callOutcome .plain afterReload.ctx [] firstHandle [] [] idleBody
      idleBody).world.core.host.trace, ∃ token, event = .sent token := by
    have only : (callOutcome .plain afterReload.ctx [] firstHandle [] [] idleBody
        idleBody).world.core.host.trace =
      [.sent (.error (bytes "ERR Function f not found in library") true)] := by decide +kernel
    rw [only]
    simp
  refine ⟨by decide +kernel, ?_, ?_⟩
  · simp [rejectedReload, callAfterReload, Request.Quiet, ScriptRun.RegistersNothing, idleBody]
  · rintro ⟨-, -, -, -, resolves, -⟩
    have resolves : afterReload.Resolves .plain callAfterReload := resolves
    obtain ⟨callback, -, entered⟩ := resolves (bytes "f") 1 offers (.inl loaded)
    obtain ⟨event, member, enters⟩ := (entered callback).mpr rfl
    obtain ⟨token, rfl⟩ := replies event member
    exact enters

/-- A function resolves at the first call that loads its library. -/
theorem first_call_resolves :
    (machine .plain).Along (Resolves .plain) (initial false) (callOnce idleBody) := by
  have run : (machine .plain).Run (initial false) (callOnce idleBody) := by decide +kernel
  refine resolves_throughout .plain false _ run ?_ ⟨?_, ⟨?_, ?_⟩, trivial⟩
  · simp [callOnce, Request.Quiet, ScriptRun.RegistersNothing, idleBody]
  · rintro - count registered
    have one : registeredCount .plain 1 [1] registersOne = some 1 := rfl
    rw [one, Option.some.injEq] at registered
    omega
  · rintro libId lib - - - other name ⟨asked, otherLib, callback, -, -, -, own⟩
    have none : ownCallback ((machine .plain).after (initial false)
      ((callOnce idleBody).take 1)).loads (cString []) otherLib asked = none := rfl
    exact absurd (none.symm.trans own) (by simp)
  · rintro name libId offers
    obtain ⟨rfl, rfl⟩ : bytes "f" = name ∧ 1 = libId := by simpa [firstHandle] using offers.data
    rw [RegistersOwn, if_neg (by decide +kernel)]
    rintro - world - -
    have binds : bindings .plain .function .library loadsOne.actions world =
        [(cString (bytes "f"), .function (.closure 0))] := by
      have ends (next : World CallHost) :
          bindings .plain .function .library [] next = [] := rfl
      rw [loadsOne, bindings]
      simp only [ends]
      split <;> rfl
    exact ⟨.closure 0, by rw [binds]; decide⟩

end System

end ValkeyLuajit
