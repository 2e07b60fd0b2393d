import ValkeyLuajit.Engine.Entry

/-!
# Passing the keys and the arguments

The keys and the arguments of an EVAL script are stored in the globals `KEYS` and
`ARGV`, outside any protected call. A script may have given its globals a metatable
with a `__newindex` and cleared the two names, and then a later call comes to it.
-/

namespace ValkeyLuajit

open Lua

/-- A store that honours metatables, apart from any stack: the heap and the number of
metamethod calls it leaves, or the error it raises. -/
def Lua.Heap.assign (rt : Runtime) (heap : Heap) (calls : Nat) (object key value : Value) :
    Except Value (Heap × Nat) :=
  match heap.newIndex object key with
  | .raw addr => .ok (heap.write addr ((heap.cells addr).rawSet key value), calls)
  | .call handler holder =>
      match rt.callMeta calls handler [holder, key, value] heap with
      | .ok (_, heap) => .ok (heap, calls + 1)
      | .error error => .error error
  | .error message => .error (.string message)

/-- Store the elements of an array in a global. -/
def Lua.Heap.storeArray (rt : Runtime) (heap : Heap) (calls : Nat) (globals : Addr) (name : String)
    (elements : List Bytes) : Except Value (Heap × Nat) :=
  (heap.withArray elements).assign rt calls (.table globals) (.string (bytes name))
    (.table heap.next)

/-- The globals take `KEYS` and then `ARGV` without an error. -/
def Lua.State.acceptsArguments (rt : Runtime) (lua : State) (keys args : List Bytes) : Bool :=
  match lua.heap.storeArray rt 0 lua.globals "KEYS" keys with
  | .ok (heap, calls) => (heap.storeArray rt calls lua.globals "ARGV" args).isOk
  | .error _ => false

section Stores

variable {rt : Runtime} {frame base : List Value} {breached : Bool} {lua : State} {host : CallHost}
  {calls : List (FuncRef × State)}

variable (frame base breached lua host calls) in
/-- Storing a global gives what the store gives. -/
theorem luaSetGlobal_assign (name : String) (value : Value) :
    match lua.heap.assign rt calls.length (.table lua.globals) (.string (bytes name)) value with
    | .ok (heap, count) => ∃ after : List (FuncRef × State), after.length = count ∧
        luaSetGlobal rt name ⟨value :: frame, base, breached, lua, host, calls⟩ =
          .done () ⟨frame, base, breached, { lua with heap := heap }, host, after⟩
    | .error error => ∃ final, luaSetGlobal rt name
        ⟨value :: frame, base, breached, lua, host, calls⟩ = .raised error final := by
  simp only [Heap.assign, luaSetGlobal, luaAssign, Value.storable_string, storeEntry_storable,
    World.get_neg_one, World.stack_mk, World.pop_mk_succ, World.pop_mk_zero, List.cons_append, List.getD_cons_zero]
  cases lua.heap.newIndex (.table lua.globals) (.string (bytes name)) with
  | raw addr => exact ⟨calls, rfl, rfl⟩
  | error message => exact ⟨_, rfl⟩
  | call handler holder =>
      dsimp only [callMetamethod]
      cases rt.callMeta calls.length handler [holder, .string (bytes name), value] lua.heap with
      | ok answer => exact ⟨calls ++ [(handler, lua)], by simp, rfl⟩
      | error error => exact ⟨_, rfl⟩

variable (rt frame base breached lua host calls) in
/-- Passing one array of an EVAL script gives what the store gives. -/
theorem passArray_assign (name : String) (elements : List Bytes) :
    match lua.heap.storeArray rt calls.length lua.globals name elements with
    | .ok (heap, count) => ∃ after : List (FuncRef × State), after.length = count ∧
        (luajitCreateArray elements >>= fun _ => luaSetGlobal rt name)
            ⟨frame, base, breached, lua, host, calls⟩ =
          .done () ⟨frame, base, breached, { lua with heap := heap }, host, after⟩
    | .error error => ∃ final, (luajitCreateArray elements >>= fun _ => luaSetGlobal rt name)
        ⟨frame, base, breached, lua, host, calls⟩ = .raised error final := by
  simp only [LuaM.bind_apply, luajitCreateArray_withArray, Outcome.andThen_done]
  exact luaSetGlobal_assign frame base breached { lua with heap := lua.heap.withArray elements }
    host calls name (.table lua.heap.next)

end Stores

section Calls

variable {rt : Runtime} {ctx : EngineCtx} {keys args : List Bytes} {frame base : List Value}
  {breached : Bool} {core : Core CallHost}

/-- The part of an EVAL call before `lua_pcall` ends normally exactly when the globals
take the keys and the arguments. -/
theorem passArguments_isDone_iff (callback : FuncRef) (fresh : core.metaCalls = []) :
    (passArguments rt ctx .eval keys args (core.on (.function callback :: frame) base breached)).IsDone ↔
      core.lua.acceptsArguments rt keys args = true := by
  let armed := core.arm ctx .eval
  let slots := .function callback :: core.lua.registry registryErrorHandlerName :: frame
  have starts : passArguments rt ctx .eval keys args
      (core.on (.function callback :: frame) base breached) =
      ((luajitCreateArray keys >>= fun _ => luaSetGlobal rt "KEYS")
        (armed.on slots base breached)).andThen fun _ =>
          luajitCreateArray args >>= fun _ => luaSetGlobal rt "ARGV" := by
    rw [passArguments_on]
    simp [beginCall, Core.on, newCallCtx, armed, slots, Core.arm, CallHost.begin, State.arm,
      Outcome.andThen_assoc]
    rfl
  have keysFirst : armed.lua.heap.storeArray rt armed.metaCalls.length armed.lua.globals "KEYS"
      keys = core.lua.heap.storeArray rt 0 core.lua.globals "KEYS" keys := by
    simp [armed, Core.arm, State.arm, fresh]
  have keysStored := passArray_assign rt slots base breached armed.lua armed.host
    armed.metaCalls "KEYS" keys
  rw [keysFirst] at keysStored
  rw [starts, State.acceptsArguments]
  cases first : core.lua.heap.storeArray rt 0 core.lua.globals "KEYS" keys with
  | error error =>
      rw [first] at keysStored
      obtain ⟨final, raises⟩ := keysStored
      rw [Core.on, raises]
      simp [Outcome.IsDone]
  | ok answer =>
      obtain ⟨heap, count⟩ := answer
      rw [first] at keysStored
      obtain ⟨after, length, stored⟩ := keysStored
      have argsStored := passArray_assign rt slots base breached { armed.lua with heap := heap }
        armed.host after "ARGV" args
      have globals : armed.lua.globals = core.lua.globals := State.withFfi_globals _ _ _
      rw [Core.on, stored, Outcome.andThen_done]
      dsimp only at argsStored ⊢
      rw [length, globals] at argsStored
      cases second : heap.storeArray rt count core.lua.globals "ARGV" args with
      | error error =>
          rw [second] at argsStored
          obtain ⟨final, raises⟩ := argsStored
          rw [globals, raises]
          simp [Outcome.IsDone, Except.isOk, Except.toBool]
      | ok answer =>
          rw [second] at argsStored
          obtain ⟨last, -, done⟩ := argsStored
          rw [globals, done]
          simp [Outcome.IsDone, Except.isOk, Except.toBool]

variable {body : ScriptRun}

/-- An EVAL callback is entered exactly when the globals take the keys and the arguments. -/
theorem invokeCallback_entered_iff (callback : FuncRef) (fresh : core.metaCalls = [])
    (outside : ¬ core.Entered .body callback) :
    (invokeCallback rt ctx .eval keys args body
        (core.on (.function callback :: frame) base breached)).world.core.Entered .body callback ↔
      core.lua.acceptsArguments rt keys args = true := by
  have isDone : (passArguments rt ctx .eval keys args
      (core.on (.function callback :: frame) base breached)).IsDone ↔
        core.lua.acceptsArguments rt keys args = true := passArguments_isDone_iff callback fresh
  rw [← isDone, invokeCallback_eq, LuaM.bind_apply]
  obtain ⟨begun, handled, ⟨arguments, arity, passed⟩ | ⟨-, error, slots, raised⟩⟩ :=
    passArguments_cases rt ctx .eval keys args frame base breached core callback
  · rw [passed, Outcome.andThen_done, LuaM.bind_apply]
    refine iff_of_true ?_ trivial
    have bare : arguments.length = if SubsystemType.eval = .eval then 0 else 2 := arity
    let slots := core.lua.registry registryErrorHandlerName :: frame
    obtain ⟨outcome, executed, returned⟩ : ∃ outcome,
        Executed rt SubsystemType.eval.state .body body callback arguments.reverse begun outcome ∧
          runCallback rt .eval body
              (begun.on (arguments ++ .function callback :: slots) base breached) =
            pcallOutcome outcome slots base breached :=
      runCallback_executed rt body slots base breached callback bare
        fun library => absurd rfl library
    have entered : outcome.world.core.Entered .body callback :=
      (executed.entered_iff .body callback).mpr (.inr ⟨rfl, rfl⟩)
    rw [returned]
    have finishes {err : Bool} {world : World CallHost} (same : world.core = outcome.world.core) :
        (finishCallback rt ctx err world).world.core.Entered .body callback := by
      obtain ⟨reported, reports, ⟨final, done, cleared⟩ | ⟨-, left⟩⟩ :=
        finishCallback_cases rt ctx err world
      · rw [same] at reports
        rw [done, Outcome.world_done, cleared]
        exact reports.entered_iff.mpr entered
      · rw [same] at reports
        rw [left]
        exact reports.entered_iff.mpr entered
    cases outcome with
    | done results final => exact finishes rfl
    | raised error final => exact finishes rfl
    | aborted reason final => exact entered
  · rw [raised]
    exact iff_of_false (fun entered => outside (handled.entered_iff.mp entered)) id

variable {function : LuajitFunction} {load : ScriptRun} {text : Bytes}

/-- What an EVAL call enters: the chunk of its text, if the globals take the keys and
the arguments. What the cache has for the script must be that chunk. -/
theorem evalCall_entered_iff (prepared : Prepared .eval core.lua)
    (data : function.data = .source text) (accepted : rt.syntaxError text = none)
    (chunk : ∀ callback, core.lua.cached function.funcId = .function callback →
      callback = .chunk text)
    (fresh : core.metaCalls = []) (outside : core.host.trace = []) (callee : FuncRef) :
    (luajitEngineFunctionCall rt ctx function .eval keys args load body
        (core.on frame base breached)).world.core.Entered .body callee ↔
      callee = .chunk text ∧ core.lua.acceptsArguments rt keys args = true := by
  have unentered (other : FuncRef) : ¬ core.Entered .body other := by
    rintro ⟨event, member, -⟩
    rw [outside] at member
    cases member
  have invokes {found : Core CallHost} (heap : found.lua.heap = core.lua.heap)
      (globals : found.lua.globals = core.lua.globals) (host : found.host = core.host)
      (calls : found.metaCalls = core.metaCalls) :
      (invokeCallback rt ctx .eval keys args body
          (found.on (.function (.chunk text) :: frame) base breached)).world.core.Entered .body
            callee ↔
        callee = .chunk text ∧ core.lua.acceptsArguments rt keys args = true := by
    have outsideFound (other : FuncRef) : ¬ found.Entered .body other := by
      rw [Core.Entered, host]
      exact unentered other
    have same : found.lua.acceptsArguments rt keys args = core.lua.acceptsArguments rt keys args := by
      rw [State.acceptsArguments, State.acceptsArguments, heap, globals]
    by_cases own : callee = .chunk text
    · subst own
      rw [invokeCallback_entered_iff _ (calls.trans fresh) (outsideFound _), same]
      exact (and_iff_right rfl).symm
    · refine iff_of_false (fun entered => ?_) fun both => own both.1
      obtain ⟨returns, invoked⟩ : ∃ returns, Invoked rt ctx .eval body (.chunk text) found returns
          (invokeCallback rt ctx .eval keys args body
            (found.on (.function (.chunk text) :: frame) base breached)).world.core :=
        ⟨_, invokeCallback_invoked (.chunk text) fun library => absurd rfl library⟩
      rcases invoked.entered entered with old | ⟨-, same⟩
      · exact outsideFound callee old
      · exact own same.symm
  obtain ⟨result, after, fetched, found⟩ : ∃ result after,
      Fetched rt ctx function load core result after ∧
        Found ctx function core after frame base breached
          (findCallback rt ctx function load (core.on frame base breached)) result :=
    findCallback_fetched rt frame base breached ctx load prepared
      fun name libId reference => by simp [data] at reference
  rw [luajitEngineFunctionCall, LuaM.bind_apply]
  cases fetched with
  | hit hit =>
      obtain rfl := chunk _ hit
      rw [show findCallback rt ctx function load (core.on frame base breached) = _ from found]
      exact invokes rfl rfl rfl rfl
  | compiled uncached source =>
      obtain rfl : text = _ := by simpa using data.symm.trans source
      rw [show findCallback rt ctx function load (core.on frame base breached) = _ from found]
      exact invokes rfl rfl rfl rfl
  | rejected _ source rejected =>
      obtain rfl : text = _ := by simpa using data.symm.trans source
      exact absurd accepted rejected
  | missing _ reference => simp [data] at reference
  | unready _ reference => simp [data] at reference
  | crashed _ reference => simp [data] at reference
  | unbound _ reference => simp [data] at reference
  | bound _ reference => simp [data] at reference

end Calls

end ValkeyLuajit
