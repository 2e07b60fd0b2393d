import ValkeyLuajit.Engine.Bindings
import ValkeyLuajit.Engine.Loading

/-!
# One code in two states

The top-level code of a library runs in the scratch state of `FUNCTION LOAD`, and again in the
function state of every user who calls one of its functions. When it makes the same calls of
`server.register_function` in both, and each call means the same in both, the user's state has
every function of the library under its name.
-/

namespace ValkeyLuajit

open Lua

/-- What stands in the other state under the name of the function: each of the two has a
`server.register_function` of its own. -/
def ServerFunction.counterpart : ServerFunction → ServerFunction
  | .registerFunction => .userRegisterFunction
  | .userRegisterFunction => .registerFunction
  | function => function

/-- The same action in the other state. -/
def Action.counterpart : Action → Action
  | .call function arguments => .call function.counterpart arguments
  | action => action

/-- The same code in the other state. -/
def ScriptRun.counterpart (script : ScriptRun) : ScriptRun :=
  ⟨script.actions.map Action.counterpart, script.outcome⟩

section

variable (rt : Runtime) (fuel : Nat)

/-- A call of `server.register_function` with these arguments registers this name and callback at
the load, spells them exactly, and meets the same heap in the user's state. -/
structure MeansSame (load : World LoadHost) (heap : Heap) (arguments : List Value) (name : Bytes)
    (callback : Value) : Prop where
  heap : heap = load.lua.heap
  plain : PlainArguments load.lua.heap arguments
  accepted : ∃ met, AcceptedAtLoad rt fuel load arguments met name callback ∧
    SpelledExactly rt load.lua.heap arguments met

/-- The code runs to its end in both states, and registers these names and callbacks: every call
of `server.register_function` that it makes means the same in both. -/
inductive RegistersAlike :
    List Action → World LoadHost → World CallHost → List (Bytes × Value) → Prop
  | nil (load : World LoadHost) (user : World CallHost) : RegistersAlike [] load user []
  | register {load load' : World LoadHost} {user user' : World CallHost} {arguments : List Value}
      {name : Bytes} {callback : Value} {rest : List Action} {named : List (Bytes × Value)}
      (same : MeansSame rt fuel load user.lua.heap arguments name callback)
      (loads : (scratchSetting rt fuel).perform (.call .registerFunction arguments) load =
        .done () load')
      (runs : (userSetting rt .function .library).perform (.call .userRegisterFunction arguments)
        (observeUserCode .library user).world = .done () user')
      (others : RegistersAlike rest load' user' named) :
      RegistersAlike (.call .registerFunction arguments :: rest) load user
        ((name, callback) :: named)
  | other {load load' : World LoadHost} {user user' : World CallHost} {action : Action}
      {rest : List Action} {named : List (Bytes × Value)}
      (silent : ∀ arguments, action ≠ .call .registerFunction arguments)
      (loads : (scratchSetting rt fuel).perform action load = .done () load')
      (runs : (userSetting rt .function .library).perform action.counterpart
        (observeUserCode .library user).world = .done () user')
      (others : RegistersAlike rest load' user' named) :
      RegistersAlike (action :: rest) load user named

end

section Runs

variable {rt : Runtime} {fuel : Nat} {actions : List Action} {load : World LoadHost}
  {user : World CallHost} {named : List (Bytes × Value)}

/-- A registration that means the same binds, in the user's state, what the load records. -/
theorem MeansSame.binding {arguments : List Value} {name : Bytes} {callback : Value}
    (same : MeansSame rt fuel load user.lua.heap arguments name callback) :
    (Action.call .userRegisterFunction arguments).binding rt .function user =
      [(name, callback)] := by
  obtain ⟨met, accepted, spelled⟩ := same.accepted
  obtain ⟨exact, resolved, rfl⟩ :=
    spelled.resolves same.plain accepted same.heap user.metaCalls
  have exposed : .userRegisterFunction ∈ StateKind.function.exposed := by decide
  rw [Action.binding, if_pos exposed, resolved]

/-- No other action of the load binds anything there. -/
theorem binding_counterpart {action : Action}
    (silent : ∀ arguments, action ≠ .call .registerFunction arguments) :
    action.counterpart.binding rt .function user = [] := by
  cases action with
  | call function arguments =>
      cases function <;> first | rfl | exact absurd rfl (silent arguments)
  | _ => rfl

/-- The user's state binds what the load records, in the same order. -/
theorem RegistersAlike.bindings (alike : RegistersAlike rt fuel actions load user named) :
    bindings rt .function .library (actions.map Action.counterpart) user = named := by
  induction alike with
  | nil => rfl
  | @register load load' user user' arguments name callback rest named same loads runs others
      inductionHypothesis =>
      have binds : (Action.call .userRegisterFunction arguments).binding rt .function
          (observeUserCode .library user).world = [(name, callback)] := MeansSame.binding same
      rw [List.map_cons, ValkeyLuajit.bindings,
        show (Action.call .registerFunction arguments).counterpart =
          .call .userRegisterFunction arguments from rfl, binds, runs]
      exact congrArg _ inductionHypothesis
  | other silent loads runs others inductionHypothesis =>
      rw [List.map_cons, ValkeyLuajit.bindings, binding_counterpart silent, runs]
      exact inductionHypothesis

/-- The user's state comes to the end of the code. -/
theorem RegistersAlike.isDone (alike : RegistersAlike rt fuel actions load user named) :
    ∃ final, (userSetting rt .function .library).performAll (actions.map Action.counterpart) user =
      .done () final := by
  induction alike with
  | nil load user => exact ⟨user, rfl⟩
  | register same loads runs others inductionHypothesis =>
      obtain ⟨final, ends⟩ := inductionHypothesis
      exact ⟨final, (Setting.performAll_cons_of_done rfl runs).trans ends⟩
  | other silent loads runs others inductionHypothesis =>
      obtain ⟨final, ends⟩ := inductionHypothesis
      exact ⟨final, (Setting.performAll_cons_of_done rfl runs).trans ends⟩

/-- An action of the load that registers nothing records nothing. -/
theorem functions_of_silent {action : Action} {load load' : World LoadHost}
    (silent : ∀ arguments, action ≠ .call .registerFunction arguments)
    (loads : (scratchSetting rt fuel).perform action load = .done () load') :
    load'.host.functions = load.host.functions := by
  obtain ⟨⟨added, functions, makes⟩, -, -⟩ := perform_registered loads
  have none : action.registration rt fuel load = [] := by
    cases action with
    | call function arguments =>
        cases function <;> first | rfl | exact absurd rfl (silent arguments)
    | _ => rfl
  rw [none] at makes
  cases makes
  rw [functions, List.append_nil]

/-- The load comes to the end of the code as well, and records the names in this order. -/
theorem RegistersAlike.recorded (alike : RegistersAlike rt fuel actions load user named) :
    ∃ final added, (scratchSetting rt fuel).performAll actions load = .done () final ∧
      final.host.functions = load.host.functions ++ added ∧
      added.map (fun pf => pf.name.map ModuleString.text) = named.map fun entry => some entry.1 := by
  induction alike with
  | nil load user => exact ⟨load, [], rfl, (List.append_nil _).symm, rfl⟩
  | @register load load' user user' arguments name callback rest named same loads runs others
      inductionHypothesis =>
      obtain ⟨final, added, ends, functions, names⟩ := inductionHypothesis
      obtain ⟨met, accepted, -⟩ := same.accepted
      obtain ⟨after, pf, run, appended, recorded⟩ := accepted.recorded
      have exposed : .registerFunction ∈ (scratchSetting rt fuel).exposed := List.mem_cons_self
      have registers : (scratchSetting rt fuel).perform (.call .registerFunction arguments) =
          catching (inFrame arguments (luajitFunctionRegisterFunction rt fuel)) := by
        rw [Setting.perform, if_pos exposed]
        rfl
      obtain rfl : after = load' := by
        rw [registers, catching, run] at loads
        simpa using loads
      refine ⟨final, pf :: added, (Setting.performAll_cons_of_done rfl loads).trans ends, ?_, ?_⟩
      · rw [functions, appended, List.append_assoc, List.singleton_append]
      · rw [List.map_cons, List.map_cons, names, recorded]
  | other silent loads runs others inductionHypothesis =>
      obtain ⟨final, added, ends, functions, names⟩ := inductionHypothesis
      refine ⟨final, added, (Setting.performAll_cons_of_done rfl loads).trans ends, ?_, names⟩
      rw [functions, functions_of_silent silent loads]

/-- What is registered is a function, under a name without a NUL. -/
theorem RegistersAlike.callable (alike : RegistersAlike rt fuel actions load user named) :
    ∀ entry ∈ named, entry.2.isFunction ∧ cString entry.1 = entry.1 := by
  induction alike with
  | nil => exact List.forall_mem_nil _
  | register same loads runs others inductionHypothesis =>
      obtain ⟨met, accepted, spelled⟩ := same.accepted
      obtain ⟨exact, -, rfl⟩ := spelled.resolves same.plain accepted same.heap []
      obtain ⟨given, -, -, callable⟩ := accepted.given
      exact List.forall_mem_cons.mpr ⟨⟨callable, cString_cString exact⟩, inductionHypothesis⟩
  | other silent loads runs others inductionHypothesis => exact inductionHypothesis

/-- A name has a last binding exactly when it is bound, and that is one of its bindings. -/
theorem lastBinding_cases (named : List (Bytes × Value)) (name : Bytes) :
    (∃ callback, (name, callback) ∈ named ∧ lastBinding named name = some callback) ∨
      (∀ entry ∈ named, entry.1 ≠ name) ∧ lastBinding named name = none := by
  induction named with
  | nil => exact .inr ⟨List.forall_mem_nil _, rfl⟩
  | cons entry rest inductionHypothesis =>
      obtain ⟨bound, callback⟩ := entry
      rcases inductionHypothesis with ⟨last, member, found⟩ | ⟨unbound, none⟩
      · exact .inl ⟨last, List.mem_cons_of_mem _ member, by simp [lastBinding, found]⟩
      · by_cases same : name = bound
        · subst same
          exact .inl ⟨callback, List.mem_cons_self, by simp [lastBinding, none]⟩
        · refine .inr ⟨List.forall_mem_cons.mpr ⟨Ne.symm same, unbound⟩, ?_⟩
          simp [lastBinding, none, same]

variable {code : Bytes} {topLevel : ScriptRun} {compiled : List CompiledFunction}
  {after : World LoadHost}

/-- The functions of a library are those that its code registers. -/
theorem RegistersAlike.data_compiled
    (alike : RegistersAlike rt fuel topLevel.actions scratchStart user named)
    (created : luajitFunctionLibraryCreate rt fuel code topLevel scratchState =
      .done (.ok compiled) after) :
    compiled.map (fun function => function.function.data) =
      named.map fun entry => .functionRef entry.1 0 := by
  obtain ⟨-, results, last, run, rfl⟩ := luajitFunctionLibraryCreate_ok created
  obtain ⟨final, added, ends, functions, names⟩ := alike.recorded
  obtain rfl : final = last := by
    have both := ends.symm.trans ((Setting.run_eq_done.mp run).1)
    simpa using both
  have start : scratchStart.host.functions = [] := rfl
  have clean : named.map (fun entry => FunctionData.functionRef entry.1 0) =
      named.map fun entry => .functionRef (cString ((some entry.1).getD [])) 0 :=
    List.map_congr_left fun entry member => by
      rw [Option.getD_some, (alike.callable entry member).2]
  have step := congrArg (List.map fun name : Option Bytes =>
    FunctionData.functionRef (cString (name.getD [])) 0) names
  rw [List.map_map, List.map_map] at step
  rw [functions, start, List.nil_append, List.map_map, clean]
  exact step

/-- A library that makes the same registrations in both states is loaded by every user, and every
function of it resolves there to the callback it registered last under the name; no other name is
touched. -/
theorem library_resolved {core : Core CallHost}
    (functions : core.lua.registry libraryFunctionsName = .hidden libraryFunctionsName)
    (created : luajitFunctionLibraryCreate rt fuel code topLevel scratchState =
      .done (.ok compiled) after)
    (alike : ∀ user : World CallHost, user.core = core.enter .library (.chunk code) [] →
      RegistersAlike rt fuel topLevel.actions scratchStart user named)
    (frame base : List Value) (breached : Bool) :
    ∃ final : Core CallHost,
      luajitCompileLibraryInUserState rt code topLevel.counterpart (core.on frame base breached) =
        .done false (final.on frame base breached) ∧
      (∀ function ∈ compiled, ∃ name callback, function.function.data = .functionRef name 0 ∧
        lastBinding named name = some (.function callback) ∧
        final.lua.functionNamed name = .function callback) ∧
      ∀ name, (∀ function ∈ compiled, function.function.data ≠ .functionRef name 0) →
        final.lua.functionNamed name = core.lua.functionNamed name := by
  obtain ⟨accepted, results, last, loaded, -⟩ := luajitFunctionLibraryCreate_ok created
  rcases luajitCompileLibraryInUserState_on rt frame base breached code topLevel.counterpart
    functions with ⟨message, rejected, -⟩ | ⟨-, outcome, ⟨⟨user, entered, run⟩, -⟩, ends⟩
  · rw [accepted] at rejected
    cases rejected
  have alike := alike user entered
  have lua : user.lua = core.lua := congrArg Core.lua entered
  obtain ⟨-, value, returns, -⟩ := Setting.run_eq_done.mp loaded
  obtain ⟨userEnd, performed⟩ := alike.isDone
  have done : (userSetting rt .function .library).run topLevel.counterpart user =
      .done [value] userEnd := Setting.run_eq_done.mpr ⟨performed, value, returns, rfl⟩
  have bound (name : Bytes) : userEnd.lua.functionNamed name =
      (lastBinding named name).getD (core.lua.functionNamed name) := by
    have table : .userRegisterFunction ∈ StateKind.function.exposed →
        user.lua.registry libraryFunctionsName = .hidden libraryFunctionsName :=
      fun _ => by rw [lua, functions]
    have binds := run_functionNamed rt .library topLevel.counterpart user table name
    rwa [done, ScriptRun.counterpart, alike.bindings, lua] at binds
  obtain rfl := run.symm.trans done
  refine ⟨userEnd.core.note (.completed (.chunk code)), ends, fun function member => ?_,
    fun name other => ?_⟩
  · have data : function.function.data ∈ named.map fun entry => .functionRef entry.1 0 :=
      alike.data_compiled created ▸ List.mem_map_of_mem member
    obtain ⟨⟨name, first⟩, listed, same⟩ := List.mem_map.mp data
    rcases lastBinding_cases named name with ⟨callback, member, last⟩ | ⟨unbound, -⟩
    · obtain ⟨reference, rfl⟩ := Value.isFunction_iff.mp (alike.callable _ member).1
      exact ⟨name, reference, same.symm, last, (bound name).trans (by rw [last]; rfl)⟩
    · exact absurd rfl (unbound _ listed)
  · rcases lastBinding_cases named name with ⟨callback, member, -⟩ | ⟨-, none⟩
    · have listed : FunctionData.functionRef name 0 ∈
          compiled.map fun function => function.function.data := by
        rw [alike.data_compiled created]
        exact List.mem_map.mpr ⟨(name, callback), member, rfl⟩
      obtain ⟨function, isCompiled, same⟩ := List.mem_map.mp listed
      exact absurd same (other function isCompiled)
    · exact (bound name).trans (by rw [none]; rfl)

end Runs

/-- A heap with the named arguments of a function. -/
def namedHeap : Heap :=
  { (default : Heap) with
    next := 1
    cells := fun _ => .ofFields [(.string (bytes "function_name"), .string (bytes "g")),
      (.string (bytes "callback"), .function (.closure 1))] }

/-- Code that registers a function under a name, and another one with named arguments. -/
def registersBoth : ScriptRun :=
  ⟨[.step namedHeap, .call .registerFunction [.string (bytes "f"), .function (.closure 0)],
    .call .registerFunction [.table 0]], .ok .nil⟩

/-- What it registers. -/
def bothNamed : List (Bytes × Value) :=
  [(bytes "f", .function (.closure 0)), (bytes "g", .function (.closure 1))]

/-- What `FUNCTION LOAD` makes of it. -/
def bothCompiled : List CompiledFunction :=
  [⟨some ⟨1, bytes "f"⟩, none, ⟨.functionRef (bytes "f") 0, 0⟩, 0⟩,
    ⟨some ⟨3, bytes "g"⟩, none, ⟨.functionRef (bytes "g") 0, 0⟩, 0⟩]

/-- The function state of a new user. -/
def newUser : Core CallHost :=
  ⟨(createUserLuaState (createEngineContext false) .function).lua, ⟨none, []⟩, []⟩

theorem registersBoth_alike (user : World CallHost)
    (entered : user.core = newUser.enter .library (.chunk [1]) []) :
    RegistersAlike .plain 3 registersBoth.actions scratchStart user bothNamed := by
  obtain ⟨frame, base, breached, lua, host, calls⟩ := user
  obtain ⟨rfl, rfl, rfl⟩ := Core.mk.inj entered
  refine .other (by rintro _ ⟨⟩) rfl rfl (.register ?_ rfl rfl (.register ?_ rfl rfl (.nil _ _)))
  · exact ⟨rfl, by rintro _ ⟨⟩, _, ⟨⟨_, _, rfl, rfl, rfl⟩, .positional _ _, rfl⟩, rfl, rfl, rfl⟩
  · refine ⟨rfl, fun argument same => ⟨0, by simpa using same.symm, rfl⟩, _, ⟨⟨_, _, rfl, rfl, rfl⟩,
      .named (.plain rfl rfl (.plain rfl rfl (.last rfl))), rfl⟩, rfl, rfl, rfl⟩

theorem both_resolved : ∃ final : Core CallHost,
    luajitCompileLibraryInUserState .plain [1] registersBoth.counterpart (newUser.on [] [] false) =
        .done false (final.on [] [] false) ∧
      (∀ function ∈ bothCompiled, ∃ name callback, function.function.data = .functionRef name 0 ∧
        lastBinding bothNamed name = some (.function callback) ∧
        final.lua.functionNamed name = .function callback) ∧
      ∀ name, (∀ function ∈ bothCompiled, function.function.data ≠ .functionRef name 0) →
        final.lua.functionNamed name = newUser.lua.functionNamed name := by
  have created : luajitFunctionLibraryCreate .plain 3 [1] registersBoth scratchState =
      .done (.ok bothCompiled) _ := Outcome.eq_done (by decide +kernel)
  exact library_resolved rfl created registersBoth_alike [] [] false

end ValkeyLuajit
