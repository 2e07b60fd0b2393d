import ValkeyLuajit.Engine.Fetch
import ValkeyLuajit.Script.Handling

/-!
# How a callback is invoked

The run context and the hook are installed, the arguments stored, the callback runs
under `lua_pcall`, its result is reported, and everything is cleared again. A call
that leaves this path early takes the process with it.
-/

namespace ValkeyLuajit

open Lua

/-- Store the pointer of the FFI context, if FFI is enabled. -/
def Lua.State.withFfi (ctx : EngineCtx) (pointer : Nat) (lua : State) : State :=
  if ctx.enableFfiApi then
    { lua with registry := Function.update lua.registry ffiCtxName (.lightuserdata pointer) }
  else lua

@[simp] theorem Lua.State.withFfi_heap (ctx : EngineCtx) (pointer : Nat) (lua : State) :
    (lua.withFfi ctx pointer).heap = lua.heap := by
  unfold State.withFfi
  split <;> rfl

@[simp] theorem Lua.State.withFfi_hidden (ctx : EngineCtx) (pointer : Nat) (lua : State) :
    (lua.withFfi ctx pointer).hidden = lua.hidden := by
  unfold State.withFfi
  split <;> rfl

@[simp] theorem Lua.State.withFfi_globals (ctx : EngineCtx) (pointer : Nat) (lua : State) :
    (lua.withFfi ctx pointer).globals = lua.globals := by
  unfold State.withFfi
  split <;> rfl

@[simp] theorem Lua.State.withFfi_hook (ctx : EngineCtx) (pointer : Nat) (lua : State) :
    (lua.withFfi ctx pointer).hook = lua.hook := by
  unfold State.withFfi
  split <;> rfl

/-- The FFI context has a registry slot of its own. -/
theorem Lua.State.withFfi_registry {ctx : EngineCtx} {pointer : Nat} {lua : State} {name : String}
    (apart : name ≠ ffiCtxName) : (lua.withFfi ctx pointer).registry name = lua.registry name := by
  unfold State.withFfi
  split
  · exact Function.update_of_ne apart _ _
  · rfl

/-- The run context is in its slot and the hook installed. -/
def Lua.State.arm (lua : State) : State :=
  { lua with
    registry := Function.update lua.registry registryRunCtxName (.lightuserdata callCtxPointer)
    hook := some ⟨"luajitMaskCountHook", .count luaHookCheckInterval⟩ }

/-- The slot is empty again and the hook removed. -/
def Lua.State.disarm (lua : State) : State :=
  { lua with
    registry := Function.update lua.registry registryRunCtxName .nil
    hook := none }

theorem Lua.State.arm_registry {lua : State} {name : String} (apart : name ≠ registryRunCtxName) :
    lua.arm.registry name = lua.registry name := Function.update_of_ne apart _ _

theorem Lua.State.disarm_registry {lua : State} {name : String}
    (apart : name ≠ registryRunCtxName) : lua.disarm.registry name = lua.registry name :=
  Function.update_of_ne apart _ _

@[simp] theorem Lua.State.disarm_runCtx (lua : State) :
    lua.disarm.registry registryRunCtxName = .nil := by
  simp [State.disarm]

/-- The run context of a call. -/
def newCallCtx (ctx : EngineCtx) (type : SubsystemType) : FuncCallCtx where
  moduleCtx := moduleCtxPointer
  runCtx := 4
  type := type
  replicationFlags := propagateAof + propagateRepl
  resp := 2
  luaEnableInsecureApi := ctx.luaEnableInsecureApi

/-- The C data of a call in progress. -/
def CallHost.begin (host : CallHost) (ctx : EngineCtx) (type : SubsystemType) : CallHost :=
  { host with callCtx := some (newCallCtx ctx type) }

/-- What the callback starts from. -/
def Lua.Core.arm (core : Core CallHost) (ctx : EngineCtx) (type : SubsystemType) : Core CallHost :=
  { lua := (core.lua.withFfi ctx moduleCtxPointer).arm
    host := core.host.begin ctx type
    metaCalls := core.metaCalls }

/-- What is cleared when everything was reported. -/
def Lua.Core.disarm (core : Core CallHost) (ctx : EngineCtx) : Core CallHost :=
  { lua := core.lua.disarm.withFfi ctx 0
    host := { core.host with callCtx := none }
    metaCalls := core.metaCalls }

/-- The kind of state a call of this subsystem runs in. -/
def SubsystemType.state (type : SubsystemType) : StateKind :=
  if type = .eval then .eval else .function

/-- How an invocation goes; the flag tells whether it returns. -/
inductive Invoked (rt : Runtime) (ctx : EngineCtx) (type : SubsystemType) (body : ScriptRun)
    (callback : FuncRef) (before : Core CallHost) : Bool → Core CallHost → Prop
  /-- Storing the arguments raises: those of an EVAL script go into globals. -/
  | unstarted {begun : Core CallHost} : type = .eval →
      HandlingEffect (before.arm ctx type) begun →
      Invoked rt ctx type body callback before false begun
  /-- The callback makes an assertion fail. -/
  | aborted {begun : Core CallHost} {arguments : List Value} {outcome : Outcome CallHost (List Value)} :
      HandlingEffect (before.arm ctx type) begun →
      Executed rt type.state .body body callback arguments begun outcome →
      Invoked rt ctx type body callback before false outcome.world.core
  /-- Reporting raises, or makes an assertion fail. -/
  | unreported {begun reported : Core CallHost} {arguments : List Value}
      {outcome : Outcome CallHost (List Value)} :
      HandlingEffect (before.arm ctx type) begun →
      Executed rt type.state .body body callback arguments begun outcome →
      HandlingEffect outcome.world.core reported →
      Invoked rt ctx type body callback before false reported
  /-- Everything is reported and cleared. -/
  | finished {begun reported : Core CallHost} {arguments : List Value}
      {outcome : Outcome CallHost (List Value)} :
      HandlingEffect (before.arm ctx type) begun →
      Executed rt type.state .body body callback arguments begun outcome →
      HandlingEffect outcome.world.core reported →
      Invoked rt ctx type body callback before true (reported.disarm ctx)

section

variable {rt : Runtime} {ctx : EngineCtx} {type : SubsystemType} {keys args : List Bytes}
  {body : ScriptRun} {frame base : List Value} {breached : Bool} {core : Core CallHost}

theorem setFfiContext_on (pointer : Nat) :
    setFfiContext ctx pointer (core.on frame base breached) =
      .done () ((core.map (State.withFfi ctx pointer)).on frame base breached) := by
  cases enabled : ctx.enableFfiApi <;>
    simp [setFfiContext, enabled, Core.on, Core.map, State.withFfi]

/-- The part of an invocation before `lua_pcall`. -/
def passArguments (rt : Runtime) (ctx : EngineCtx) (type : SubsystemType) (keys args : List Bytes) :
    LuaM CallHost Unit := do
  luaGetRegistry registryErrorHandlerName
  luaInsert (-2)
  setFfiContext ctx moduleCtxPointer
  beginCall rt (newCallCtx ctx type) keys args

/-- The callback under `lua_pcall`. -/
def runCallback (rt : Runtime) (type : SubsystemType) (body : ScriptRun) : LuaM CallHost Bool :=
  luaPCall (if type = .eval then 0 else 2) (enterUserCode rt type.state .body body)

/-- The part of an invocation after it. -/
def finishCallback (rt : Runtime) (ctx : EngineCtx) (err : Bool) : LuaM CallHost Unit := do
  finishCall rt err
  setFfiContext ctx 0
  luaPop 1

theorem invokeCallback_eq : invokeCallback rt ctx type keys args body =
    passArguments rt ctx type keys args >>= fun _ =>
      runCallback rt type body >>= finishCallback rt ctx := by
  simp only [invokeCallback, passArguments, luajitCallFunction, LuaM.bind_bind]
  rfl

/-- A call up to its `lua_pcall`: true when the callback and its arguments are on the
stack, false when there is nothing to run. -/
def enterCallback (rt : Runtime) (ctx : EngineCtx) (function : LuajitFunction)
    (type : SubsystemType) (keys args : List Bytes) (load : ScriptRun) : LuaM CallHost Bool := do
  let found ← findCallback rt ctx function load
  if found then do
    passArguments rt ctx type keys args
    pure true
  else pure false

variable (rt core frame base breached) in
/-- Passing one array: a fresh table stays on the stack, or goes into a global. -/
theorem passArray_cases (elements : List Bytes) (global : Bool) (name : String) :
    ∃ begun, HandlingEffect core begun ∧
      ((∃ arguments, arguments.length = (if global then 0 else 1) ∧
          ((luajitCreateArray elements >>= fun _ => if global then luaSetGlobal rt name else pure ())
            (core.on frame base breached)) = .done () (begun.on (arguments ++ frame) base breached)) ∨
        global = true ∧ ∃ error,
          ((luajitCreateArray elements >>= fun _ => if global then luaSetGlobal rt name else pure ())
            (core.on frame base breached)) = .raised error (begun.on frame base breached)) := by
  obtain ⟨heap, created⟩ : ∃ heap, luajitCreateArray elements
      ⟨frame, base, breached, core.lua, core.host, core.metaCalls⟩ =
        .done () ⟨.table core.lua.heap.next :: frame, base, breached,
          { core.lua with heap := heap }, core.host, core.metaCalls⟩ :=
    ⟨_, luajitCreateArray_withArray frame base breached core.lua core.host core.metaCalls elements⟩
  have fresh : HandlingEffect core ⟨{ core.lua with heap := heap }, core.host, core.metaCalls⟩ :=
    .of_heap heap
  cases global with
  | false =>
      refine ⟨_, fresh, .inl ⟨[.table core.lua.heap.next], rfl, ?_⟩⟩
      simp [Core.on, created]
  | true =>
      obtain ⟨lua', calls', stores, stored | ⟨error, raises⟩⟩ :=
        luaSetGlobal_cases rt frame base breached { core.lua with heap := heap } core.host
          core.metaCalls name (.table core.lua.heap.next)
      · refine ⟨_, fresh.trans stores, .inl ⟨[], rfl, ?_⟩⟩
        simp [Core.on, created, stored]
      · refine ⟨_, fresh.trans stores, .inr ⟨rfl, error, ?_⟩⟩
        simp [Core.on, created, raises]

variable (core frame) in
/-- The keys and the arguments are passed, unless a metamethod of the globals raises. -/
theorem beginCall_cases (callCtx : FuncCallCtx) :
    ∃ begun, HandlingEffect ⟨core.lua.arm, { core.host with callCtx := some callCtx },
        core.metaCalls⟩ begun ∧
      ((∃ arguments, arguments.length = (if callCtx.type = .eval then 0 else 2) ∧
          beginCall rt callCtx keys args (core.on frame base breached) =
            .done () (begun.on (arguments ++ frame) base breached)) ∨
        callCtx.type = .eval ∧ ∃ error slots,
          beginCall rt callCtx keys args (core.on frame base breached) =
            .raised error (begun.on slots base breached)) := by
  let armed : Core CallHost :=
    ⟨core.lua.arm, { core.host with callCtx := some callCtx }, core.metaCalls⟩
  have starts : beginCall rt callCtx keys args (core.on frame base breached) =
      ((luajitCreateArray keys >>= fun _ =>
        if decide (callCtx.type = .eval) then luaSetGlobal rt "KEYS" else pure ())
          (armed.on frame base breached)).andThen fun _ =>
        (luajitCreateArray args >>= fun _ =>
          if decide (callCtx.type = .eval) then luaSetGlobal rt "ARGV" else pure ()) := by
    by_cases eval : callCtx.type = .eval <;>
      simp [beginCall, Core.on, eval, armed, State.arm, Outcome.andThen_assoc] <;> rfl
  obtain ⟨mid, first, ⟨keySlots, keyLength, passed⟩ | ⟨eval, error, raises⟩⟩ :=
    passArray_cases rt frame base breached armed keys (decide (callCtx.type = .eval)) "KEYS"
  · obtain ⟨begun, second, ⟨argSlots, argLength, done⟩ | ⟨eval, error, raises⟩⟩ :=
      passArray_cases rt (keySlots ++ frame) base breached mid args (decide (callCtx.type = .eval)) "ARGV"
    · refine ⟨begun, first.trans second, .inl ⟨argSlots ++ keySlots, ?_, ?_⟩⟩
      · rw [List.length_append, keyLength, argLength]
        by_cases eval : callCtx.type = .eval <;> simp [eval]
      · rw [starts, passed, Outcome.andThen_done, done, List.append_assoc]
    · refine ⟨begun, first.trans second, .inr ⟨by simpa using eval, error, keySlots ++ frame, ?_⟩⟩
      rw [starts, passed, Outcome.andThen_done, raises]
  · refine ⟨mid, first, .inr ⟨by simpa using eval, error, frame, ?_⟩⟩
    rw [starts, raises]
    rfl

/-- A script returns one value. -/
theorem Executed.results {state : StateKind} {kind : CodeKind} {script : ScriptRun}
    {callee : FuncRef} {arguments results : List Value} {before : Core CallHost}
    {final : World CallHost}
    (executed : Executed rt state kind script callee arguments before (.done results final)) :
    ∃ value, results = [value] := by
  obtain ⟨inner, -, returned⟩ := executed.runs
  obtain ⟨-, value, -, one⟩ := Setting.run_eq_done.mp returned
  exact ⟨value, one⟩

/-- The callback moves above the error handler, and the call begins. -/
theorem passArguments_on (callback : FuncRef) :
    passArguments rt ctx type keys args (core.on (.function callback :: frame) base breached) =
      beginCall rt (newCallCtx ctx type) keys args
        ((core.map (State.withFfi ctx moduleCtxPointer)).on (.function callback ::
          core.lua.registry registryErrorHandlerName :: frame) base breached) := by
  let handler := core.lua.registry registryErrorHandlerName
  have pushed : luaGetRegistry registryErrorHandlerName
      (core.on (.function callback :: frame) base breached) =
      .done () (core.on (handler :: .function callback :: frame) base breached) := rfl
  have inserted : luaInsert (-2) (core.on (handler :: .function callback :: frame) base breached) =
      .done () (core.on (.function callback :: handler :: frame) base breached) := by
    simp [Core.on]
  simp only [passArguments, LuaM.bind_apply, pushed, inserted, setFfiContext_on,
    Outcome.andThen_done, handler]

variable (rt ctx type keys args frame base breached core) in
/-- The callback moves above the error handler and its arguments above the callback,
unless a metamethod of the globals raises. -/
theorem passArguments_cases (callback : FuncRef) :
    ∃ begun, HandlingEffect (core.arm ctx type) begun ∧
      ((∃ arguments, arguments.length = (if type = .eval then 0 else 2) ∧
          passArguments rt ctx type keys args
              (core.on (.function callback :: frame) base breached) =
            .done () (begun.on (arguments ++ .function callback ::
              core.lua.registry registryErrorHandlerName :: frame) base breached)) ∨
        type = .eval ∧ ∃ error slots, passArguments rt ctx type keys args
            (core.on (.function callback :: frame) base breached) =
          .raised error (begun.on slots base breached)) := by
  rw [passArguments_on]
  exact beginCall_cases (.function callback :: core.lua.registry registryErrorHandlerName :: frame)
    (core.map (State.withFfi ctx moduleCtxPointer)) (newCallCtx ctx type)

/-- A script that registers functions runs in a function state. -/
theorem SubsystemType.exposes_register (type : SubsystemType)
    (exposed : .userRegisterFunction ∈ type.state.exposed) : type ≠ .eval := by
  rintro rfl
  revert exposed
  decide

variable (rt body frame base breached) in
/-- The callback runs, from the state the arguments were passed in. -/
theorem runCallback_executed {arguments : List Value} (callback : FuncRef)
    (arity : arguments.length = if type = .eval then 0 else 2)
    (functions : type ≠ .eval →
      core.lua.registry libraryFunctionsName = .hidden libraryFunctionsName) :
    ∃ outcome,
      Executed rt type.state .body body callback arguments.reverse core outcome ∧
      runCallback rt type body
          (core.on (arguments ++ .function callback :: frame) base breached) =
        pcallOutcome outcome frame base breached := by
  have pcall := luaPCall_executed rt .body body callback arguments.reverse frame base breached
    fun exposed => functions (type.exposes_register exposed)
  rwa [List.reverse_reverse, List.length_reverse, arity] at pcall

/-- Arming leaves the table of functions where it is. -/
theorem HandlingEffect.functions {begun : Core CallHost}
    (handled : HandlingEffect (core.arm ctx type) begun)
    (functions : core.lua.registry libraryFunctionsName = .hidden libraryFunctionsName) :
    begun.lua.registry libraryFunctionsName = .hidden libraryFunctionsName := by
  rw [handled.guard.registry _ (by decide)]
  exact (State.arm_registry (by decide)).trans
    ((State.withFfi_registry (by decide)).trans functions)

variable (ctx) in
/-- Clearing up always succeeds. -/
theorem clear_done (world : World CallHost) :
    ∃ final, (clearCall >>= fun _ => setFfiContext ctx 0 >>= fun _ => luaPop 1) world =
      .done () final ∧ final.core = world.core.disarm ctx := by
  obtain ⟨frame, base, breached, lua, host, calls⟩ := world
  cases enabled : ctx.enableFfiApi <;>
    simp [clearCall, setFfiContext, enabled, Core.disarm, State.disarm, State.withFfi, World.core,
      World.pop]

variable (rt ctx) in
/-- What is left after `lua_pcall` is reported and cleared, or takes the process along. -/
theorem finishCallback_cases (err : Bool) (world : World CallHost) :
    ∃ reported, HandlingEffect world.core reported ∧
      ((∃ final, finishCallback rt ctx err world = .done () final ∧
          final.core = reported.disarm ctx) ∨
        ¬ (finishCallback rt ctx err world).IsDone ∧
          (finishCallback rt ctx err world).world.core = reported) := by
  have reports := handles_reportResult rt err world
  rw [finishCallback, finishCall_eq, LuaM.bind_bind, LuaM.bind_apply]
  cases reported : reportResult rt err world with
  | done _ next =>
      rw [reported] at reports
      obtain ⟨final, cleared, same⟩ := clear_done ctx next
      exact ⟨_, reports, .inl ⟨final, by rw [Outcome.andThen_done, cleared], same⟩⟩
  | raised error next =>
      rw [reported] at reports
      exact ⟨_, reports, .inr ⟨id, rfl⟩⟩
  | aborted reason next =>
      rw [reported] at reports
      exact ⟨_, reports, .inr ⟨id, rfl⟩⟩

/-- What an invocation does apart from the stack. -/
theorem invokeCallback_invoked (callback : FuncRef)
    (functions : type ≠ .eval →
      core.lua.registry libraryFunctionsName = .hidden libraryFunctionsName) :
    Invoked rt ctx type body callback core
      (decide (invokeCallback rt ctx type keys args body
        (core.on (.function callback :: frame) base breached)).IsDone)
      (invokeCallback rt ctx type keys args body
        (core.on (.function callback :: frame) base breached)).world.core := by
  rw [invokeCallback_eq, LuaM.bind_apply]
  obtain ⟨begun, handled, ⟨arguments, arity, passed⟩ | ⟨eval, error, slots, raised⟩⟩ :=
    passArguments_cases rt ctx type keys args frame base breached core callback
  · rw [passed, Outcome.andThen_done, LuaM.bind_apply]
    obtain ⟨outcome, executed, returned⟩ :=
      runCallback_executed rt body (core.lua.registry registryErrorHandlerName :: frame) base
        breached callback arity
        fun library => handled.functions (functions library)
    rw [returned]
    have finishes {err : Bool} {world : World CallHost}
        (same : world.core = outcome.world.core) :
        Invoked rt ctx type body callback core
          (decide (finishCallback rt ctx err world).IsDone)
          (finishCallback rt ctx err world).world.core := by
      obtain ⟨reported, reports, ⟨final, done, cleared⟩ | ⟨stopped, left⟩⟩ :=
        finishCallback_cases rt ctx err world
      · rw [same] at reports
        rw [done, Outcome.world_done, cleared]
        exact .finished handled executed reports
      · rw [same] at reports
        rw [decide_eq_false stopped, left]
        exact .unreported handled executed reports
    cases outcome with
    | done results final => exact finishes rfl
    | raised error final => exact finishes rfl
    | aborted reason final => exact .aborted handled executed
  · rw [raised]
    exact .unstarted eval handled

end

/-- How a call goes; the flag tells whether it returns. -/
inductive Called (rt : Runtime) (ctx : EngineCtx) (function : LuajitFunction)
    (type : SubsystemType) (load body : ScriptRun) (before : Core CallHost) :
    Bool → Core CallHost → Prop
  /-- Loading the library aborts the process. -/
  | crashed {reason : String} {after : Core CallHost} :
      Fetched rt ctx function load before (.error reason) after →
      Called rt ctx function type load body before false after
  /-- There is no callback, and an error is replied. -/
  | refused {after : Core CallHost} : Fetched rt ctx function load before (.ok none) after →
      Called rt ctx function type load body before true after
  /-- The callback is invoked. -/
  | invoked {callback : FuncRef} {found after : Core CallHost} {returns : Bool} :
      Fetched rt ctx function load before (.ok (some callback)) found →
      Invoked rt ctx type body callback found returns after →
      Called rt ctx function type load body before returns after

/-- Finding a callback leaves the registry alone, and the hook's function. -/
theorem Fetched.guard {rt : Runtime} {ctx : EngineCtx} {function : LuajitFunction}
    {load : ScriptRun} {before after : Core CallHost} {result : Except String (Option FuncRef)}
    (fetched : Fetched rt ctx function load before result after) :
    after.lua.registry = before.lua.registry ∧
      hookFunction after.lua = hookFunction before.lua := by
  cases fetched with
  | hit => exact ⟨rfl, rfl⟩
  | rejected => exact ⟨rfl, rfl⟩
  | compiled => exact ⟨rfl, rfl⟩
  | missing => exact ⟨rfl, rfl⟩
  | unready _ _ _ readied => exact readied.guard
  | crashed _ _ _ readied => exact readied.guard
  | unbound _ _ _ readied => exact ⟨readied.guard.1, readied.guard.2⟩
  | bound _ _ _ readied => exact ⟨readied.guard.1, readied.guard.2⟩

section

variable {rt : Runtime} {ctx : EngineCtx} {function : LuajitFunction} {type : SubsystemType}
  {keys args : List Bytes} {load body : ScriptRun} {frame base : List Value} {breached : Bool}
  {core : Core CallHost}

variable (frame base breached core) in
/-- A call goes one of the ways listed. -/
theorem luajitEngineFunctionCall_called (prepared : Prepared type core.lua)
    (refs : ∀ name libId, function.data = .functionRef name libId → type ≠ .eval) :
    Called rt ctx function type load body core
      (decide (luajitEngineFunctionCall rt ctx function type keys args load body
        (core.on frame base breached)).IsDone)
      (luajitEngineFunctionCall rt ctx function type keys args load body
        (core.on frame base breached)).world.core := by
  obtain ⟨result, after, fetched, found⟩ := findCallback_fetched rt frame base breached ctx load
    prepared refs
  rw [luajitEngineFunctionCall, LuaM.bind_apply]
  match result with
  | .error reason =>
      obtain ⟨slots, aborts⟩ := found
      rw [aborts]
      exact .crashed fetched
  | .ok none =>
      have same : (if missesLibrary ctx core.lua function then
          (after.on frame base breached).pop 1 else after.on frame base breached).core = after := by
        split <;> rfl
      rw [show findCallback rt ctx function load (core.on frame base breached) = _ from found]
      rw [← same] at fetched
      exact .refused fetched
  | .ok (some callback) =>
      rw [show findCallback rt ctx function load (core.on frame base breached) = _ from found]
      refine .invoked fetched (invokeCallback_invoked callback fun library => ?_)
      rw [fetched.guard.1]
      exact prepared.functions library

end

end ValkeyLuajit
