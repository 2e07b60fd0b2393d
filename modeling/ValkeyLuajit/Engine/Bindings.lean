import ValkeyLuajit.Engine.Users

/-!
# What a running body binds

`luajitUserStateRegisterFunction` has no guard: a body that calls it binds names in
the table its user's later calls look functions up in. Nothing else a body does
changes that table.
-/

namespace ValkeyLuajit

open Lua

/-- Operations that note no registration. -/
def registersNothing : Effect CallHost where
  allows before after :=
    ∀ kind, registrations kind after.host.trace = registrations kind before.host.trace
  refl _ _ := rfl
  trans first second kind := (second kind).trans (first kind)

section Natives

open Effect

variable {rt : Runtime} {kind : CodeKind}

theorem requireRunCtx_registersNothing :
    registersNothing.Bounds (requireRunCtx : LuaM CallHost Unit) := by
  refine bounds_of_core fun world => ?_
  rcases requireRunCtx_cases world with ⟨-, passes⟩ | ⟨-, reason, final, aborts, -, same⟩
  · rw [passes]
    rfl
  · rw [aborts]
    exact same

theorem raise_registersNothing (error : String) : registersNothing.Bounds
    (luajitPushError rt error >>= fun _ => (luajitError : LuaM CallHost Unit)) := by
  rintro ⟨frame, base, breached, lua, host, calls⟩ kind
  simp only [luajitPushError, LuaM.bind_apply, luajitPushErrorBuff_apply, Outcome.andThen_done,
    luajitError_apply]
  rfl

theorem modifyCallCtx_registersNothing (change : FuncCallCtx → FuncCallCtx) :
    registersNothing.Bounds (modifyCallCtx change) := fun _ _ => rfl

theorem setHook_registersNothing (hook : Option Hook) :
    registersNothing.Bounds (luaSetHook hook) := fun _ _ => rfl

theorem lastArgumentInt_registersNothing : registersNothing.Bounds (lastArgumentInt rt) :=
  bounds_bind (bounds_value _) fun _ => bounds_pure _

/-- No other function of the module registers. -/
theorem userNative_registersNothing {function : ServerFunction}
    (other : function ≠ .userRegisterFunction) :
    registersNothing.Bounds (userNative rt kind function) := by
  cases function with
  | userRegisterFunction => exact absurd rfl other
  | setresp =>
      refine bounds_bind requireRunCtx_registersNothing fun _ =>
        bounds_bind (bounds_getTop _) fun _ => ?_
      refine bounds_ite (raise_registersNothing _)
        (bounds_bind lastArgumentInt_registersNothing fun _ => ?_)
      exact bounds_ite (raise_registersNothing _) (modifyCallCtx_registersNothing _)
  | setRepl =>
      refine bounds_bind (bounds_getTop _) fun _ =>
        bounds_bind requireRunCtx_registersNothing fun _ => ?_
      refine bounds_ite (raise_registersNothing _)
        (bounds_bind lastArgumentInt_registersNothing fun _ => ?_)
      exact bounds_ite (raise_registersNothing _) (modifyCallCtx_registersNothing _)
  | call => exact requireRunCtx_registersNothing
  | pcall => exact requireRunCtx_registersNothing
  | log => exact requireRunCtx_registersNothing
  | aclCheckCmd => exact requireRunCtx_registersNothing
  | _ => exact bounds_pure _

/-- Nor does the hook. -/
theorem luajitMaskCountHook_registersNothing (killed : Bool) :
    registersNothing.Bounds (luajitMaskCountHook rt killed) := by
  refine bounds_bind requireRunCtx_registersNothing fun _ => bounds_ite ?_ (bounds_pure _)
  refine bounds_bind (fun _ _ => by simp [registrations, World.core, World.setHost]) fun _ => ?_
  refine bounds_bind (setHook_registersNothing _) fun _ => ?_
  exact bounds_bind (bounds_of_core fun _ => rfl) fun _ => raise_registersNothing _

theorem catching_registersNothing {operation : LuaM CallHost Unit}
    (inner : registersNothing.Bounds operation) : registersNothing.Bounds (catching operation) := by
  intro world
  have here := inner world
  unfold catching
  split
  · rename_i raised
    rwa [raised] at here
  · exact here

end Natives

section Bindings

variable (rt : Runtime) (state : StateKind) (kind : CodeKind)

/-- What an action binds: a call of `server.register_function` that the state exposes and
whose arguments are accepted binds a name. -/
def Action.binding (world : World CallHost) : Action → List (Bytes × Value)
  | .call .userRegisterFunction arguments =>
      if .userRegisterFunction ∈ state.exposed then
        match (resolveRegistration rt world.lua world.metaCalls arguments).1 with
        | .ok (name, callback) => [(cString name, callback)]
        | .error _ => []
      else []
  | _ => []

/-- What the actions bind, each from the state the ones before it leave. -/
def bindings : List Action → World CallHost → List (Bytes × Value)
  | [], _ => []
  | action :: rest, world =>
      let observed := (observeUserCode kind world).world
      action.binding rt state observed ++
        match (userSetting rt state kind).perform action observed with
        | .done _ next => bindings rest next
        | _ => []

theorem bindings_singleton (action : Action) (world : World CallHost) :
    bindings rt state kind [action] world =
      action.binding rt state (observeUserCode kind world).world := by
  rw [bindings]
  split <;> exact List.append_nil _

end Bindings

section Runs

variable {rt : Runtime} {state : StateKind} {kind : CodeKind}

/-- A registration notes what its arguments ask for. -/
theorem registration_noted {arguments : List Value} {world : World CallHost}
    (functions : world.lua.registry libraryFunctionsName = .hidden libraryFunctionsName)
    (exposed : .userRegisterFunction ∈ state.exposed) :
    registrations kind (catching (inFrame arguments (userNative rt kind .userRegisterFunction))
        world).world.host.trace =
      registrations kind world.host.trace ++
        (Action.call .userRegisterFunction arguments).binding rt state world := by
  obtain ⟨frame, base, breached, lua, host, calls⟩ := world
  have outcome : inFrame arguments (userNative rt kind .userRegisterFunction)
      ⟨frame, base, breached, lua, host, calls⟩ = _ :=
    registration_outcome rt kind arguments functions
  simp only [catching, outcome, Action.binding, if_pos exposed]
  rcases resolveRegistration rt lua calls arguments with ⟨error | ⟨asked, callback⟩, lua', calls'⟩
  · simp
  · simp [registrations]

variable (rt kind) in
/-- An action notes what it binds. -/
theorem perform_registrations (action : Action) (world : World CallHost)
    (functions : .userRegisterFunction ∈ state.exposed →
      world.lua.registry libraryFunctionsName = .hidden libraryFunctionsName) :
    registrations kind ((userSetting rt state kind).perform action world).world.host.trace =
      registrations kind world.host.trace ++ action.binding rt state world := by
  cases action with
  | step heap => exact (List.append_nil _).symm
  | tick killed =>
      refine Eq.trans ?_ (List.append_nil _).symm
      simp only [Setting.perform]
      split
      · exact catching_registersNothing
          (Effect.bounds_inFrame _ (luajitMaskCountHook_registersNothing killed)) world kind
      · rfl
  | call function arguments =>
      by_cases exposed : function ∈ state.exposed
      · have performs : (userSetting rt state kind).perform (.call function arguments) =
            catching (inFrame arguments (userNative rt kind function)) := if_pos exposed
        rw [performs]
        by_cases registers : function = .userRegisterFunction
        · subst registers
          exact registration_noted (functions exposed) exposed
        · have nothing : (Action.call function arguments).binding rt state world = [] := by
            cases function <;> first | rfl | exact absurd rfl registers
          rw [nothing, List.append_nil]
          exact catching_registersNothing
            (Effect.bounds_inFrame _ (userNative_registersNothing registers)) world kind
      · have performs : (userSetting rt state kind).perform (.call function arguments) = pure () :=
          if_neg exposed
        have nothing : (Action.call function arguments).binding rt state world = [] := by
          cases function <;> first | rfl | exact if_neg exposed
        rw [performs, nothing, List.append_nil]
        rfl

/-- So do all the actions of a script. -/
theorem performAll_registrations {actions : List Action} (world : World CallHost)
    (functions : .userRegisterFunction ∈ state.exposed →
      world.lua.registry libraryFunctionsName = .hidden libraryFunctionsName) :
    registrations kind ((userSetting rt state kind).performAll actions world).world.host.trace =
      registrations kind world.host.trace ++ bindings rt state kind actions world := by
  induction actions generalizing world with
  | nil => exact (List.append_nil _).symm
  | cons action rest ih =>
      let observed := (observeUserCode kind world).world
      have performs : (userSetting rt state kind).performAll (action :: rest) world =
          ((userSetting rt state kind).perform action observed).andThen
            fun _ => (userSetting rt state kind).performAll rest := rfl
      have seen : registrations kind observed.host.trace = registrations kind world.host.trace := by
        simp [observed, observeUserCode, registrations, World.setHost]
      have first := perform_registrations rt kind action observed functions
      have kept : RunEffect kind observed ((userSetting rt state kind).perform action observed) :=
        perform_effect rt kind action functions
      rw [seen] at first
      rw [performs, bindings, ← List.append_assoc, ← first]
      cases performed : (userSetting rt state kind).perform action observed with
      | done value next =>
          rw [performed] at kept
          exact ih next fun exposed =>
            (congrFun kept.effect.registry _).trans (functions exposed)
      | raised error next => simp
      | aborted reason next => simp

variable (rt kind) in
/-- A script notes what its actions bind. -/
theorem run_registrations (script : ScriptRun) (world : World CallHost)
    (functions : .userRegisterFunction ∈ state.exposed →
      world.lua.registry libraryFunctionsName = .hidden libraryFunctionsName) :
    registrations kind ((userSetting rt state kind).run script world).world.host.trace =
      registrations kind world.host.trace ++ bindings rt state kind script.actions world := by
  rw [← performAll_registrations world functions, Setting.run, LuaM.bind_apply]
  cases (userSetting rt state kind).performAll script.actions world with
  | done value final => cases script.outcome <;> rfl
  | raised error final => rfl
  | aborted reason final => rfl

variable (rt kind) in
/-- A script changes the table by what its actions bind. -/
theorem run_functionNamed (script : ScriptRun) (world : World CallHost)
    (functions : .userRegisterFunction ∈ state.exposed →
      world.lua.registry libraryFunctionsName = .hidden libraryFunctionsName) (name : Bytes) :
    ((userSetting rt state kind).run script world).world.lua.functionNamed name =
      (lastBinding (bindings rt state kind script.actions world) name).getD
        (world.lua.functionNamed name) := by
  obtain ⟨events, trace, -, named⟩ := (run_effect rt kind script functions).effect.trace
  have noted := run_registrations rt kind script world functions
  rw [show ((userSetting rt state kind).run script world).world.host.trace = _ from trace,
    registrations_append] at noted
  rw [← List.append_cancel_left noted]
  exact named name

/-- Where the callback begins, when it and its arguments are on the stack. -/
def bodyStart (type : SubsystemType) (world : World CallHost) : World CallHost :=
  let count := if type = .eval then 0 else 2
  let arguments := (world.stack.take count).reverse
  let inner : World CallHost :=
    ⟨arguments.reverse, (world.pop (count + 1)).stack, false, world.lua, world.host, world.metaCalls⟩
  (observeUserCode .body (emit (.entered .body (world.callee count) arguments) inner).world).world

/-- What a body binds, in the order it does. -/
def bodyBindings (rt : Runtime) (type : SubsystemType) (body : ScriptRun)
    (world : World CallHost) : List (Bytes × Value) :=
  bindings rt type.state .body body.actions (bodyStart type world)

/-- A frame of its own makes no difference to the Lua state. -/
theorem inFrame_lua {σ α : Type} {arguments : List Value} {operation : LuaM σ α}
    {world : World σ} :
    (inFrame arguments operation world).world.lua =
      (operation ⟨arguments.reverse, world.stack, false, world.lua, world.host,
        world.metaCalls⟩).world.lua := by
  simp only [inFrame]
  cases operation ⟨arguments.reverse, world.stack, false, world.lua, world.host,
    world.metaCalls⟩ <;> rfl

/-- `lua_pcall` leaves the Lua state of the code it called. -/
theorem luaPCall_lua {σ : Type} {count : Nat} {body : FuncRef → List Value → LuaM σ (List Value)}
    {world : World σ} :
    (luaPCall count body world).world.lua =
      (inFrame (world.stack.take count).reverse
        (body (world.callee count) (world.stack.take count).reverse)
        (world.pop (count + 1))).world.lua := by
  simp only [luaPCall]
  cases inFrame (world.stack.take count).reverse
    (body (world.callee count) (world.stack.take count).reverse) (world.pop (count + 1)) <;> rfl

/-- A callback changes the table by what its body binds. -/
theorem runCallback_functionNamed {type : SubsystemType} {body : ScriptRun}
    {world : World CallHost} (functions : type ≠ .eval →
      world.lua.registry libraryFunctionsName = .hidden libraryFunctionsName) (name : Bytes) :
    (runCallback rt type body world).world.lua.functionNamed name =
      (lastBinding (bodyBindings rt type body world) name).getD
        (world.lua.functionNamed name) := by
  have ends : (runCallback rt type body world).world.lua =
      ((userSetting rt type.state .body).run body (bodyStart type world)).world.lua :=
    luaPCall_lua.trans inFrame_lua
  have bound := run_functionNamed rt .body body (bodyStart type world)
    (fun exposed => functions (type.exposes_register exposed)) name
  rw [ends, bound]
  rfl

end Runs

/-- A call that enters its callback has the table of functions where it was. -/
theorem enterCallback_functions {rt : Runtime} {ctx : EngineCtx} {function : LuajitFunction}
    {type : SubsystemType} {keys args : List Bytes} {load : ScriptRun} (core : Core CallHost)
    (frame : List Value) {base : List Value} {breached : Bool} {world : World CallHost}
    (prepared : Prepared type core.lua)
    (refs : ∀ name libId, function.data = .functionRef name libId → type ≠ .eval)
    (entered : enterCallback rt ctx function type keys args load (core.on frame base breached) =
      .done true world) (library : type ≠ .eval) :
    world.lua.registry libraryFunctionsName = .hidden libraryFunctionsName := by
  obtain ⟨result, after, fetched, found⟩ := findCallback_fetched rt frame base breached ctx load
    prepared refs
  rw [enterCallback, LuaM.bind_apply] at entered
  rcases result with reason | _ | callback
  · obtain ⟨slots, aborts⟩ := found
    simp [aborts] at entered
  · rw [show findCallback rt ctx function load (core.on frame base breached) = _ from found]
      at entered
    simp at entered
  · rw [show findCallback rt ctx function load (core.on frame base breached) = _ from found]
      at entered
    obtain ⟨begun, handled, ⟨arguments, -, passed⟩ | ⟨-, error, slots, raised⟩⟩ :=
      passArguments_cases rt ctx type keys args frame base breached after callback
    · simp only [Outcome.andThen_done, if_true, LuaM.bind_apply, passed, LuaM.pure_apply,
        Outcome.done.injEq, true_and] at entered
      rw [← entered]
      refine handled.functions ?_
      rw [fetched.guard.1]
      exact prepared.functions library
    · simp [LuaM.bind_apply, raised] at entered

namespace System

/-- The body that the request runs leaves every name bound as it was. -/
def KeepsFunctions (rt : Runtime) (system : System) : Request → Prop
  | .call username handle keys args load body => ∀ world,
      enterCallback rt system.ctx handle.compiled.function handle.type keys args load
          ((userState system.ctx username).of handle.type).enter = .done true world →
        ∀ name, (runCallback rt handle.type body world).world.lua.functionNamed name =
          world.lua.functionNamed name
  | _ => True

/-- Under every name that the body registers, it registers last what was bound before. -/
def RebindsNothing (rt : Runtime) (system : System) : Request → Prop
  | .call username handle keys args load body => ∀ world,
      enterCallback rt system.ctx handle.compiled.function handle.type keys args load
          ((userState system.ctx username).of handle.type).enter = .done true world →
        ∀ name callback, lastBinding (bodyBindings rt handle.type body world) name =
          some callback → world.lua.functionNamed name = callback
  | _ => True

/-- In every run, bodies leave the names bound as they were exactly when each registers
last, under every name it registers, what was bound before. -/
theorem functions_kept_throughout_iff (rt : Runtime) (enableFfiApi : Bool)
    (requests : List Request) (run : (machine rt).Run (initial enableFfiApi) requests) :
    (machine rt).Along (KeepsFunctions rt) (initial enableFfiApi) requests ↔
      (machine rt).Along (RebindsNothing rt) (initial enableFfiApi) requests := by
  refine InputMachine.Run.along_iff ?_ (sound_throughout run) run
  intro system request sound admitted
  cases request with
  | call username handle keys args load body =>
      have prepared := (sound admitted.1).of username handle
      refine forall_congr' fun world => imp_congr_right fun entered => forall_congr' fun name => ?_
      have functions := enterCallback_functions ⟨_, ⟨none, []⟩, []⟩ [] prepared handle.refs entered
      rw [runCallback_functionNamed functions]
      cases lastBinding (bodyBindings rt handle.type body world) name with
      | none => simp
      | some callback => simpa using eq_comm
  | _ => exact Iff.rfl

/-- A library with one function is loaded and its function called. -/
def callOnce (body : ScriptRun) : List Request :=
  [.compile .function [1] 1 registersOne, .call [] firstHandle [] [] loadsOne body]

/-- The callback registers another one under its own name. -/
def rebindingBody : ScriptRun :=
  ⟨[.call .userRegisterFunction [.string (bytes "f"), .function (.closure 1)]], .ok .nil⟩

/-- The name is bound to the other callback afterwards. -/
theorem body_rebinds : (machine .plain).Run (initial false) (callOnce rebindingBody) ∧
    ¬ (machine .plain).Along (KeepsFunctions .plain) (initial false) (callOnce rebindingBody) := by
  refine ⟨⟨rfl, ⟨rfl, by decide⟩, trivial⟩, ?_⟩
  rintro ⟨-, keeps, -⟩
  have same := keeps _ (Outcome.eq_done (by decide +kernel)) (bytes "f")
  revert same
  decide +kernel

/-- A callback that registers itself leaves the names bound as they were. -/
theorem rebound_same_keeps :
    (machine .plain).Along (KeepsFunctions .plain) (initial false) (callOnce loadsOne) := by
  have run : (machine .plain).Run (initial false) (callOnce loadsOne) :=
    ⟨rfl, ⟨rfl, by decide⟩, trivial⟩
  refine (functions_kept_throughout_iff .plain false _ run).mpr ⟨trivial, ?_, trivial⟩
  intro world entered name callback bound
  have binds : bodyBindings .plain firstHandle.type loadsOne world =
      [(bytes "f", .function (.closure 0))] := bindings_singleton _ _ _ _ _
  rw [binds] at bound
  obtain ⟨rfl, rfl⟩ : name = bytes "f" ∧ callback = .function (.closure 0) := by
    simpa [lastBinding, eq_comm] using bound
  obtain rfl : _ = world := congrArg Outcome.world entered
  decide +kernel

end System

end ValkeyLuajit
