import ValkeyLuajit.Engine.Arguments
import ValkeyLuajit.Engine.Availability
import ValkeyLuajit.Script.Reporting

/-!
# One reply and a clean exit

Every exit of `luajitEngineFunctionCall` pops by hand what the path to it has pushed.
The exit of a function whose library is gone pops one slot too many. Two more paths have
no exit at all: top-level code that asserts a run context while its library is loaded, and
arguments of an EVAL script that its globals do not take.
-/

namespace ValkeyLuajit

open Lua

/-- The call returns after one complete reply. The stack is as it was, nothing below it was
ever popped, and no run context, hook or FFI context is left. -/
def ExitsCleanly (start : World CallHost) (outcome : Outcome CallHost Unit) : Prop :=
  ∃ final tokens, outcome = .done () final ∧ final.stack = start.stack ∧
    final.breached = start.breached ∧ CompleteReply tokens ∧
    sentTokens final.host.trace = sentTokens start.host.trace ++ tokens ∧ Idle final.lua

/-- Whatever the callback leaves is reported without running Lua code. -/
def LeavesQuietly (rt : Runtime) (ctx : EngineCtx) (function : LuajitFunction)
    (type : SubsystemType) (keys args : List Bytes) (load body : ScriptRun)
    (start : World CallHost) : Prop :=
  ∀ err entered returned,
    enterCallback rt ctx function type keys args load start = .done true entered →
      runCallback rt type body entered = .done err returned →
        ReportsQuietly err returned.lua returned.stack.length (returned.get (-1))

/-- Values made of tables without metatables are left quietly. -/
theorem leavesQuietly_of_bare {rt : Runtime} {ctx : EngineCtx} {function : LuajitFunction}
    {type : SubsystemType} {keys args : List Bytes} {load body : ScriptRun}
    {start : World CallHost}
    (bare : ∀ err entered returned,
      enterCallback rt ctx function type keys args load start = .done true entered →
        runCallback rt type body entered = .done err returned →
          ∀ addr, (if err then returned.get (-1) = .table addr
            else Meets returned.lua returned.stack.length (returned.get (-1)) (.table addr)) →
              (returned.lua.heap.cells addr).metatable = none) :
    LeavesQuietly rt ctx function type keys args load body start := by
  intro err entered returned begun ran
  have here := bare err entered returned begun ran
  cases err with
  | true => exact fun isTable => readsQuietly_of_bare isTable here
  | false =>
      intro table meets _
      exact readsQuietly_of_bare meets.isTable fun addr same => here addr (same ▸ meets)

/-- The callback of an EVAL script is there: cached, or compiled from its text. -/
def FindsScript (rt : Runtime) (lua : State) (function : LuajitFunction) : Prop :=
  (lua.cached function.funcId).isFunction = true ∨
    ∃ text, function.data = .source text ∧ rt.syntaxError text = none

/-- What a clean exit takes: the library is there, its top-level code asserts nothing, and
the globals of an EVAL script take the keys and the arguments. -/
structure Callable (rt : Runtime) (ctx : EngineCtx) (lua : State) (function : LuajitFunction)
    (type : SubsystemType) (keys args : List Bytes) (load : ScriptRun) : Prop where
  present : missesLibrary ctx lua function = false
  available : startsLibrary rt ctx lua function → ¬ CallsAsserting load
  accepts : type = .eval → FindsScript rt lua function →
    lua.acceptsArguments rt keys args = true

section Sent

variable {rt : Runtime} {ctx : EngineCtx} {function : LuajitFunction} {load : ScriptRun}
  {before after : Core CallHost} {kind : CodeKind}

/-- Scripts send nothing. -/
theorem ScriptEffect.sent (effect : ScriptEffect kind before after) :
    sentTokens after.host.trace = sentTokens before.host.trace := by
  obtain ⟨events, trace, observed, -⟩ := effect.trace
  have nothing : sentTokens events = [] := by
    refine List.filterMap_eq_nil_iff.mpr fun event member => ?_
    have here := observed event member
    cases event with
    | sent token => exact here.elim
    | _ => rfl
  rw [trace, sentTokens_append, nothing, List.append_nil]

theorem Executed.sent {state : StateKind} {script : ScriptRun} {callee : FuncRef}
    {arguments : List Value} {outcome : Outcome CallHost (List Value)}
    (executed : Executed rt state kind script callee arguments before outcome) :
    sentTokens outcome.world.core.host.trace = sentTokens before.host.trace := by
  rw [executed.effect.sent]
  simp [Core.enter, Core.note, sentTokens]

theorem sentTokens_note {token : Token} :
    sentTokens (before.note (.sent token)).host.trace = sentTokens before.host.trace ++ [token] := by
  simp [Core.note, sentTokens]

/-- Getting a library ready sends nothing, unless it fails: then it sends an error. -/
theorem Readied.sent {lib : LuajitLibrary} {libId : Nat} {result : Except String Bool}
    (readied : Readied rt lib libId load before result after) :
    if result = .ok false then ∃ text, sentTokens after.host.trace =
      sentTokens before.host.trace ++ [.error text true]
    else sentTokens after.host.trace = sentTokens before.host.trace := by
  cases readied with
  | already => simp
  | rejected => exact ⟨_, sentTokens_note⟩
  | failed _ _ executed => exact ⟨_, by rw [sentTokens_note, ← executed.sent]; rfl⟩
  | loaded _ _ executed =>
      rw [if_neg (by simp)]
      exact (sentTokens_append _ [.completed (.chunk lib.code)]).trans
        ((List.append_nil _).trans executed.sent)
  | aborted _ _ executed => simpa using executed.sent

/-- Finding a callback sends nothing when there is one, and an error when there is none. -/
theorem Fetched.sent {result : Except String (Option FuncRef)}
    (fetched : Fetched rt ctx function load before result after) :
    if result = .ok none then ∃ text, sentTokens after.host.trace =
      sentTokens before.host.trace ++ [.error text true]
    else sentTokens after.host.trace = sentTokens before.host.trace := by
  cases fetched with
  | hit => simp
  | rejected => exact ⟨_, sentTokens_note⟩
  | compiled => simp
  | missing => exact ⟨_, sentTokens_note⟩
  | unready _ _ _ readied => simpa using readied.sent
  | crashed _ _ _ readied => simpa using readied.sent
  | unbound _ _ _ readied =>
      refine ⟨_, sentTokens_note.trans (congrArg (· ++ _) ?_)⟩
      simpa using readied.sent
  | bound _ _ _ readied => simpa using readied.sent

/-- An operation that sends nothing. -/
def silence : Effect CallHost where
  allows before after := after.host.trace = before.host.trace
  refl _ := rfl
  trans first second := second.trans first

section Silent

open Effect

variable (rt)

theorem silent_setGlobal (name : String) : silence.Bounds (luaSetGlobal rt name) := by
  rintro ⟨frame, base, breached, lua, host, calls⟩
  simp only [luaSetGlobal, luaAssign, Value.storable_string, storeEntry_storable, callMetamethod]
  split
  · rfl
  · split <;> rfl
  · rfl

theorem silent_createArray (elements : List Bytes) :
    silence.Bounds (luajitCreateArray elements : LuaM CallHost Unit) := by
  rintro ⟨frame, base, breached, lua, host, calls⟩
  rw [luajitCreateArray_withArray]
  rfl

variable (ctx) in
/-- Passing the arguments sends nothing. -/
theorem silent_passArguments (type : SubsystemType) (keys args : List Bytes) :
    silence.Bounds (passArguments rt ctx type keys args) := by
  have context : silence.Bounds (setFfiContext ctx moduleCtxPointer) :=
    bounds_ite (fun _ => rfl) (bounds_pure _)
  have argsPassed : silence.Bounds (do
      luajitCreateArray args
      if (newCallCtx ctx type).type = .eval then luaSetGlobal rt "ARGV" else pure ()) :=
    bounds_bind (silent_createArray args) fun _ =>
      bounds_ite (silent_setGlobal rt _) (bounds_pure _)
  have inserts : silence.Bounds (luaInsert (-2) : LuaM CallHost Unit) := by
    intro world
    simp only [luaInsert, World.insertSlot]
    split
    · rfl
    · split <;> rfl
  refine bounds_bind (bounds_getRegistry _) fun _ => bounds_bind inserts fun _ => ?_
  refine bounds_bind context fun _ => bounds_bind (fun _ => rfl) fun _ => ?_
  refine bounds_bind (fun _ => rfl) fun _ => bounds_bind (fun _ => rfl) fun _ => ?_
  refine bounds_bind (silent_createArray keys) fun _ => bounds_ite ?_ argsPassed
  exact bounds_bind (silent_setGlobal rt _) fun _ => argsPassed

end Silent

end Sent

section Aborts

variable {rt : Runtime} {ctx : EngineCtx} {function : LuajitFunction} {type : SubsystemType}
  {load : ScriptRun} {before after : Core CallHost} {reason : String}

/-- Top-level code that starts in an idle state aborts for want of a run context only. -/
theorem Executed.abort_reason {callee : FuncRef} {arguments : List Value} {final : World CallHost}
    (idle : Idle before.lua)
    (functions : before.lua.registry libraryFunctionsName = .hidden libraryFunctionsName)
    (executed : Executed rt .function .library load callee arguments before
      (.aborted reason final)) : reason = runCtxAssertion := by
  obtain ⟨inner, loading, ended⟩ := executed.loading idle functions
  rcases loading.run rt .library load with ⟨-, other, aborted⟩ | ⟨-, never⟩
  · rw [aborted] at ended
    cases ended
    rfl
  · exact absurd ended (never reason final)

/-- So does finding a callback. -/
theorem Fetched.abort_reason (prepared : Prepared type before.lua)
    (refs : ∀ name libId, function.data = .functionRef name libId → type ≠ .eval)
    (fetched : Fetched rt ctx function load before (.error reason) after) :
    reason = runCtxAssertion := by
  cases fetched with
  | crashed _ data _ readied =>
      cases readied with
      | aborted _ _ executed =>
          exact executed.abort_reason prepared.toIdle (prepared.functions (refs _ _ data))

end Aborts

section Invocation

variable {rt : Runtime} {ctx : EngineCtx} {type : SubsystemType} {keys args : List Bytes}
  {body : ScriptRun} {frame base : List Value} {breached : Bool} {core : Core CallHost}

variable (rt body frame base breached) in
/-- A callback that has its run context returns or raises, and sends nothing. -/
theorem runCallback_returns {arguments : List Value} (callback : FuncRef)
    (arity : arguments.length = if type = .eval then 0 else 2)
    (runCtx : core.lua.registry registryRunCtxName = .lightuserdata callCtxPointer)
    (functions : type ≠ .eval →
      core.lua.registry libraryFunctionsName = .hidden libraryFunctionsName) :
    ∃ err value after, runCallback rt type body
        (core.on (arguments ++ .function callback :: frame) base breached) =
          .done err (Core.on after (value :: frame) base breached) ∧
      sentTokens after.host.trace = sentTokens core.host.trace := by
  obtain ⟨outcome, executed, returned⟩ := runCallback_executed rt body frame base breached
    callback arity functions
  have sent := executed.sent
  obtain ⟨inner, entered, ended⟩ := executed.runs
  have lua : inner.lua = core.lua := congrArg Core.lua entered
  have serving : Serving type.state inner :=
    { runCtx := by rw [lua, runCtx]
      functions := fun exposed => by rw [lua, functions (type.exposes_register exposed)] }
  cases outcome with
  | done results final =>
      obtain ⟨value, rfl⟩ := executed.results
      exact ⟨false, value, final.core, returned, sent⟩
  | raised error final => exact ⟨true, error, final.core, returned, sent⟩
  | aborted reason final => exact absurd ended (serving.run rt .body body reason final)

variable (rt ctx frame base breached core) in
/-- What is reported quietly is one reply, after which the call is cleared up. -/
theorem finishCallback_clean {err : Bool} {value handler : Value}
    (quiet : ReportsQuietly err core.lua ((handler :: frame).length + base.length + 1) value) :
    ∃ after tokens, finishCallback rt ctx err (core.on (value :: handler :: frame) base breached) =
        .done () (Core.on after frame base breached) ∧ CompleteReply tokens ∧
      sentTokens after.host.trace = sentTokens core.host.trace ++ tokens := by
  rcases finishCall_cases rt (handler :: frame) base breached core.lua core.host core.metaCalls
      value err with ⟨-, registry, tokens, complete, finished⟩ | ⟨loud, -⟩
  · let cleared : Core CallHost := ⟨{ core.lua with registry := registry, hook := none },
      { core.host.send tokens with callCtx := none }, core.metaCalls⟩
    have ended : finishCall rt err (core.on (value :: handler :: frame) base breached) =
        .done () (cleared.on (handler :: frame) base breached) := finished
    refine ⟨cleared.map (State.withFfi ctx 0), tokens, ?_, complete, ?_⟩
    · rw [finishCallback, LuaM.bind_apply, ended, Outcome.andThen_done, LuaM.bind_apply,
        setFfiContext_on, Outcome.andThen_done]
      simp [Core.on]
    · simp [cleared, CallHost.send, sentTokens]
  · exact absurd quiet loud

/-- A callback whose arguments are passed and whose result is reported quietly gives one
reply and leaves the stack as it was below it. -/
theorem invokeCallback_clean (callback : FuncRef)
    (functions : type ≠ .eval →
      core.lua.registry libraryFunctionsName = .hidden libraryFunctionsName)
    (passes : (passArguments rt ctx type keys args
      (core.on (.function callback :: frame) base breached)).IsDone)
    (quiet : ∀ err entered returned, passArguments rt ctx type keys args
        (core.on (.function callback :: frame) base breached) = .done () entered →
      runCallback rt type body entered = .done err returned →
        ReportsQuietly err returned.lua returned.stack.length (returned.get (-1))) :
    ∃ after tokens, invokeCallback rt ctx type keys args body
        (core.on (.function callback :: frame) base breached) =
          .done () (Core.on after frame base breached) ∧ CompleteReply tokens ∧
      sentTokens after.host.trace = sentTokens core.host.trace ++ tokens := by
  let handler := core.lua.registry registryErrorHandlerName
  have silent : silence.allows core (passArguments rt ctx type keys args
      (core.on (.function callback :: frame) base breached)).world.core :=
    silent_passArguments rt ctx type keys args (core.on (.function callback :: frame) base breached)
  obtain ⟨begun, handled, ⟨arguments, arity, passed⟩ | ⟨-, error, slots, raised⟩⟩ :=
    passArguments_cases rt ctx type keys args frame base breached core callback
  · have runCtx : begun.lua.registry registryRunCtxName = .lightuserdata callCtxPointer := by
      rw [handled.guard.registry _ (by decide)]
      simp [Core.arm, State.arm]
    obtain ⟨err, value, ran, returned, ranSent⟩ := runCallback_returns rt body (handler :: frame)
      base breached callback arity runCtx fun library => handled.functions (functions library)
    have reports : ReportsQuietly err ran.lua ((handler :: frame).length + base.length + 1)
        value := by
      have here := quiet err _ _ passed returned
      have height : (ran.on (value :: handler :: frame) base breached).stack.length =
          (handler :: frame).length + base.length + 1 := by
        simp [Core.on]
        omega
      have top : (ran.on (value :: handler :: frame) base breached).get (-1) = value := by
        simp [Core.on]
      rwa [height, top] at here
    obtain ⟨after, tokens, finished, complete, sent⟩ :=
      finishCallback_clean rt ctx frame base breached ran reports
    refine ⟨after, tokens, ?_, complete, ?_⟩
    · rw [invokeCallback_eq, LuaM.bind_apply, passed, Outcome.andThen_done, LuaM.bind_apply,
        returned, Outcome.andThen_done, finished]
    · rw [passed] at silent
      rw [sent, ranSent, show begun.host.trace = core.host.trace from silent]
  · rw [raised] at passes
    exact passes.elim

/-- Arguments that are not passed end the call. -/
theorem invokeCallback_stuck {world : World CallHost}
    (stuck : ¬ (passArguments rt ctx type keys args world).IsDone) :
    ¬ (invokeCallback rt ctx type keys args body world).IsDone := by
  rw [invokeCallback_eq, LuaM.bind_apply]
  cases passed : passArguments rt ctx type keys args world with
  | done _ final =>
      rw [passed] at stuck
      exact absurd trivial stuck
  | raised error final => exact id
  | aborted reason final => exact id

end Invocation

section Found

variable {rt : Runtime} {ctx : EngineCtx} {function : LuajitFunction} {type : SubsystemType}
  {keys args : List Bytes} {load : ScriptRun} {before after : Core CallHost}

/-- A callback is not found in a library that is not there. -/
theorem Fetched.present {callback : FuncRef}
    (fetched : Fetched rt ctx function load before (.ok (some callback)) after) :
    missesLibrary ctx before.lua function = false := by
  cases fetched with
  | hit cached => simp [missesLibrary, cached, Value.isFunction, Value.type]
  | compiled _ data => simp [missesLibrary, data]
  | bound _ data lookup => simp [missesLibrary, data, lookup]

/-- The callback of an EVAL script is found exactly when it is there. -/
theorem Fetched.findsScript_iff {result : Except String (Option FuncRef)}
    (refs : ∀ name libId, function.data = .functionRef name libId → type ≠ .eval)
    (eval : type = .eval) (fetched : Fetched rt ctx function load before result after) :
    FindsScript rt before.lua function ↔ ∃ callback, result = .ok (some callback) := by
  cases fetched with
  | hit cached => simp [FindsScript, cached, Value.isFunction, Value.type]
  | rejected uncached data rejected => simp [FindsScript, uncached, data, rejected]
  | compiled uncached data accepted => simp [FindsScript, data, accepted]
  | missing _ data => exact absurd eval (refs _ _ data)
  | unready _ data => exact absurd eval (refs _ _ data)
  | crashed _ data => exact absurd eval (refs _ _ data)
  | unbound _ data => exact absurd eval (refs _ _ data)
  | bound _ data => exact absurd eval (refs _ _ data)

/-- Then its globals are as they were. -/
theorem Fetched.acceptsArguments {callback : FuncRef}
    (refs : ∀ name libId, function.data = .functionRef name libId → type ≠ .eval)
    (eval : type = .eval)
    (fetched : Fetched rt ctx function load before (.ok (some callback)) after) :
    after.lua.acceptsArguments rt keys args = before.lua.acceptsArguments rt keys args ∧
      after.metaCalls = before.metaCalls := by
  cases fetched with
  | hit => exact ⟨rfl, rfl⟩
  | compiled => exact ⟨rfl, rfl⟩
  | bound _ data => exact absurd eval (refs _ _ data)

/-- The arguments are passed to a callback that was found exactly when the globals of an
EVAL script take them. -/
theorem Fetched.passes_iff {callback : FuncRef} {frame base : List Value} {breached : Bool}
    (refs : ∀ name libId, function.data = .functionRef name libId → type ≠ .eval)
    (fresh : before.metaCalls = [])
    (fetched : Fetched rt ctx function load before (.ok (some callback)) after) :
    (passArguments rt ctx type keys args
        (after.on (.function callback :: frame) base breached)).IsDone ↔
      (type = .eval → FindsScript rt before.lua function →
        before.lua.acceptsArguments rt keys args = true) := by
  by_cases eval : type = .eval
  · have same : after.lua.acceptsArguments rt keys args =
        before.lua.acceptsArguments rt keys args ∧ after.metaCalls = before.metaCalls :=
      fetched.acceptsArguments refs eval
    have finds : FindsScript rt before.lua function :=
      (fetched.findsScript_iff refs eval).mpr ⟨callback, rfl⟩
    rw [← same.1]
    subst eval
    rw [passArguments_isDone_iff callback (same.2.trans fresh)]
    exact ⟨fun accepts _ _ => accepts, fun accepts => accepts rfl finds⟩
  · obtain ⟨begun, -, ⟨arguments, -, passed⟩ | ⟨library, -⟩⟩ :=
      passArguments_cases rt ctx type keys args frame base breached after callback
    · rw [passed]
      exact iff_of_true trivial fun library => absurd library eval
    · exact absurd library eval

end Found

section Call

variable {rt : Runtime} {ctx : EngineCtx} {function : LuajitFunction} {type : SubsystemType}
  {keys args : List Bytes} {load body : ScriptRun} {core : Core CallHost}

/-- A call of a function whose library is gone pops a slot of its caller. -/
theorem pop_below_breaches (after : Core CallHost) (base : List Value) :
    ((after.on [] base false).pop 1).breached = true := by
  simp [Core.on, World.pop]

variable {base : List Value} {after : Core CallHost}

/-- A call returns to an idle state, if it returns. -/
theorem luajitEngineFunctionCall_idle {final : World CallHost} (prepared : Prepared type core.lua)
    (refs : ∀ name libId, function.data = .functionRef name libId → type ≠ .eval)
    (ended : luajitEngineFunctionCall rt ctx function type keys args load body
      (core.on [] base false) = .done () final) : Idle final.lua := by
  have called : Called rt ctx function type load body core
      (decide (luajitEngineFunctionCall rt ctx function type keys args load body
        (core.on [] base false)).IsDone)
      (luajitEngineFunctionCall rt ctx function type keys args load body
        (core.on [] base false)).world.core :=
    luajitEngineFunctionCall_called [] base false core prepared refs
  rw [ended] at called
  exact (called.prepared prepared).toIdle

/-- A call that finds no callback exits cleanly unless the library is gone. -/
theorem luajitEngineFunctionCall_refused (prepared : Prepared type core.lua)
    (refs : ∀ name libId, function.data = .functionRef name libId → type ≠ .eval)
    (fetched : Fetched rt ctx function load core (.ok none) after)
    (found : Found ctx function core after [] base false
      (findCallback rt ctx function load (core.on [] base false)) (.ok none)) :
    ExitsCleanly (core.on [] base false)
        (luajitEngineFunctionCall rt ctx function type keys args load body
          (core.on [] base false)) ↔
      missesLibrary ctx core.lua function = false := by
  have ended : luajitEngineFunctionCall rt ctx function type keys args load body
      (core.on [] base false) = .done () (if missesLibrary ctx core.lua function then
        (after.on [] base false).pop 1 else after.on [] base false) := by
    rw [luajitEngineFunctionCall, LuaM.bind_apply,
      show findCallback rt ctx function load (core.on [] base false) = _ from found]
    rfl
  cases missing : missesLibrary ctx core.lua function with
  | true =>
      refine iff_of_false ?_ (by simp)
      rintro ⟨final, tokens, returned, -, tidy, -⟩
      rw [ended, missing, if_pos rfl] at returned
      cases returned
      rw [pop_below_breaches] at tidy
      cases tidy
  | false =>
      rw [missing, if_neg Bool.false_ne_true] at ended
      obtain ⟨text, reply⟩ : ∃ text, sentTokens after.host.trace =
        sentTokens core.host.trace ++ [.error text true] := by simpa using fetched.sent
      have idle : Idle (after.on [] base false).lua :=
        luajitEngineFunctionCall_idle prepared refs ended
      exact iff_of_true ⟨_, _, ended, rfl, rfl, .whole rfl, reply, idle⟩ rfl

/-- A call that finds its callback exits cleanly exactly when the arguments are passed. -/
theorem luajitEngineFunctionCall_invoked {callback : FuncRef} (prepared : Prepared type core.lua)
    (refs : ∀ name libId, function.data = .functionRef name libId → type ≠ .eval)
    (fetched : Fetched rt ctx function load core (.ok (some callback)) after)
    (found : findCallback rt ctx function load (core.on [] base false) =
      .done true (after.on [.function callback] base false))
    (quiet : LeavesQuietly rt ctx function type keys args load body (core.on [] base false)) :
    ExitsCleanly (core.on [] base false)
        (luajitEngineFunctionCall rt ctx function type keys args load body
          (core.on [] base false)) ↔
      (passArguments rt ctx type keys args (after.on [.function callback] base false)).IsDone := by
  have continues : luajitEngineFunctionCall rt ctx function type keys args load body
      (core.on [] base false) = invokeCallback rt ctx type keys args body
        (after.on [.function callback] base false) := by
    rw [luajitEngineFunctionCall, LuaM.bind_apply, found]
    rfl
  by_cases passed : (passArguments rt ctx type keys args
      (after.on [.function callback] base false)).IsDone
  · refine iff_of_true ?_ passed
    obtain ⟨last, tokens, ended, complete, reply⟩ : ∃ last tokens,
        invokeCallback rt ctx type keys args body (after.on [.function callback] base false) =
            .done () (Core.on last [] base false) ∧ CompleteReply tokens ∧
          sentTokens last.host.trace = sentTokens after.host.trace ++ tokens := by
      refine invokeCallback_clean callback (fun library => ?_) passed ?_
      · rw [fetched.guard.1]
        exact prepared.functions library
      · intro err entered returned begun ran
        refine quiet err entered returned ?_ ran
        rw [enterCallback, LuaM.bind_apply, found, Outcome.andThen_done, if_pos rfl,
          LuaM.bind_apply, begun]
        rfl
    have unsent : sentTokens after.host.trace = sentTokens core.host.trace := by
      simpa using fetched.sent
    rw [unsent] at reply
    have returned := continues.trans ended
    exact ⟨_, tokens, returned, rfl, rfl, complete, reply,
      luajitEngineFunctionCall_idle prepared refs returned⟩
  · refine iff_of_false ?_ passed
    rintro ⟨final, tokens, ended, -⟩
    have stuck := @invokeCallback_stuck rt ctx type keys args body _ passed
    rw [← continues, ended] at stuck
    exact stuck trivial

/-- A call from a state between two calls exits cleanly exactly when it takes none of the
paths that have no exit or pop a slot too many. -/
theorem luajitEngineFunctionCall_clean_iff (base : List Value) (prepared : Prepared type core.lua)
    (refs : ∀ name libId, function.data = .functionRef name libId → type ≠ .eval)
    (fresh : core.metaCalls = [])
    (quiet : LeavesQuietly rt ctx function type keys args load body (core.on [] base false)) :
    ExitsCleanly (core.on [] base false)
        (luajitEngineFunctionCall rt ctx function type keys args load body
          (core.on [] base false)) ↔
      Callable rt ctx core.lua function type keys args load := by
  obtain ⟨result, after, fetched, found⟩ := findCallback_fetched rt [] base false ctx load prepared
    refs
  have aborts := fetched.aborted_iff prepared refs
  rcases result with reason | _ | callback
  · obtain ⟨slots, aborted⟩ := found
    obtain rfl := fetched.abort_reason prepared refs
    refine iff_of_false ?_ fun callable => ?_
    · rintro ⟨final, tokens, ended, -⟩
      rw [luajitEngineFunctionCall, LuaM.bind_apply, aborted] at ended
      cases ended
    · obtain ⟨starts, asserts⟩ := aborts.mp rfl
      exact callable.available starts asserts
  · rw [luajitEngineFunctionCall_refused prepared refs fetched found]
    refine ⟨fun present => ⟨present, ?_, ?_⟩, Callable.present⟩
    · intro starts asserts
      have crashed := aborts.mpr ⟨starts, asserts⟩
      cases crashed
    · intro eval finds
      obtain ⟨callback, same⟩ := (fetched.findsScript_iff refs eval).mp finds
      cases same
  · have passes : (passArguments rt ctx type keys args
        (after.on [.function callback] base false)).IsDone ↔ (type = .eval →
          FindsScript rt core.lua function → core.lua.acceptsArguments rt keys args = true) :=
      fetched.passes_iff refs fresh
    rw [luajitEngineFunctionCall_invoked prepared refs fetched found quiet, passes]
    refine ⟨fun accepts => ⟨fetched.present, ?_, accepts⟩, Callable.accepts⟩
    intro starts asserts
    have crashed := aborts.mpr ⟨starts, asserts⟩
    cases crashed

end Call

namespace System

/-- Where a call by a user starts, whatever lies on the stack below it. -/
def callStart (system : System) (username : Bytes) (handle : Held) (base : List Value) :
    World CallHost :=
  { ((userState system.ctx username).of handle.type).enter with base := base }

/-- After every run, at any height of the stack, a call whose result is reported without
running Lua code exits cleanly exactly when the library of its function is there or not
needed, top-level code that it runs asserts nothing, and the globals of an EVAL script take
the keys and the arguments. -/
theorem call_exits_cleanly_iff (rt : Runtime) (enableFfiApi : Bool) (requests : List Request)
    (run : (machine rt).Run (initial enableFfiApi) requests) {system : System}
    (reached : system = (machine rt).after (initial enableFfiApi) requests)
    (alive : system.crashed = false) (username : Bytes) (handle : Held) (keys args : List Bytes)
    (load body : ScriptRun) (base : List Value)
    (quiet : LeavesQuietly rt system.ctx handle.compiled.function handle.type keys args load body
      (system.callStart username handle base)) :
    ExitsCleanly (system.callStart username handle base)
        (luajitEngineFunctionCall rt system.ctx handle.compiled.function handle.type keys args
          load body (system.callStart username handle base)) ↔
      Callable rt system.ctx ((userState system.ctx username).of handle.type).lua
        handle.compiled.function handle.type keys args load := by
  have sound : system.Sound := reached ▸ (sound_throughout run).last
  let core : Core CallHost :=
    ⟨((userState system.ctx username).of handle.type).lua, ⟨none, []⟩, []⟩
  have prepared : Prepared handle.type core.lua := (sound alive).of username handle
  have start : system.callStart username handle base = core.on [] base false := rfl
  rw [start] at quiet ⊢
  exact luajitEngineFunctionCall_clean_iff base prepared handle.refs rfl quiet

/-- A callback that does nothing leaves nothing to be read. -/
theorem idleBody_leavesQuietly (rt : Runtime) (ctx : EngineCtx) (function : LuajitFunction)
    (type : SubsystemType) (keys args : List Bytes) (load : ScriptRun) (start : World CallHost) :
    LeavesQuietly rt ctx function type keys args load idleBody start := by
  intro err entered returned _ ran
  have nil : err = false ∧ returned.get (-1) = .nil := by
    cases ran
    exact ⟨rfl, rfl⟩
  obtain ⟨rfl, top⟩ := nil
  rw [top]
  exact convertsQuietly_of_whole fun _ => rfl

/-- A library is compiled and dropped, and the server still holds its function. -/
def dropsLibrary : List Request :=
  [.compile .function [1] 1 registersOne, .reset .function false false]

/-- The call of its function pops a slot of its caller. -/
theorem dropped_library_unclean : ¬ ∀ (rt : Runtime) (enableFfiApi : Bool)
    (requests : List Request) (system : System), (machine rt).Run (initial enableFfiApi) requests →
    system = (machine rt).after (initial enableFfiApi) requests → system.crashed = false →
    ∀ (username : Bytes), ∀ handle ∈ system.held, ∀ (keys args : List Bytes)
      (load body : ScriptRun) (base : List Value),
    LeavesQuietly rt system.ctx handle.compiled.function handle.type keys args load body
      (system.callStart username handle base) →
    ExitsCleanly (system.callStart username handle base)
      (luajitEngineFunctionCall rt system.ctx handle.compiled.function handle.type keys args
        load body (system.callStart username handle base)) := by
  intro clean
  have run : (machine .plain).Run (initial false) dropsLibrary := ⟨rfl, rfl, trivial⟩
  obtain ⟨final, tokens, ended, -, tidy, -⟩ := clean .plain false dropsLibrary _ run rfl (by decide)
    [] firstHandle (by decide) [] [] loadsOne idleBody [] (idleBody_leavesQuietly _ _ _ _ _ _ _ _)
  let system := (machine .plain).after (initial false) dropsLibrary
  have breached : (luajitEngineFunctionCall .plain system.ctx firstHandle.compiled.function
      firstHandle.type [] [] loadsOne idleBody (system.callStart [] firstHandle [])).world.breached =
        true := by
    decide +kernel
  rw [ended, Outcome.world_done, tidy] at breached
  exact Bool.false_ne_true breached

/-- A library is compiled. -/
def compilesLibrary : List Request := [.compile .function [1] 1 registersOne]

/-- The first call of its function exits cleanly. -/
theorem first_call_exits_cleanly :
    let system := (machine .plain).after (initial false) compilesLibrary
    ExitsCleanly (system.callStart [] firstHandle [])
      (luajitEngineFunctionCall .plain system.ctx firstHandle.compiled.function firstHandle.type
        [] [] loadsOne idleBody (system.callStart [] firstHandle [])) := by
  have run : (machine .plain).Run (initial false) compilesLibrary := ⟨rfl, trivial⟩
  refine (call_exits_cleanly_iff .plain false compilesLibrary run rfl (by decide) [] firstHandle []
    [] loadsOne idleBody [] (idleBody_leavesQuietly _ _ _ _ _ _ _ _)).mpr ⟨by decide, ?_, ?_⟩
  · rintro - ⟨action, listed, asserts⟩
    cases List.mem_singleton.mp listed
    simp [Action.Asserts, ServerFunction.assertsRunCtx] at asserts
  · exact fun eval => absurd eval (by decide)

end System

end ValkeyLuajit
