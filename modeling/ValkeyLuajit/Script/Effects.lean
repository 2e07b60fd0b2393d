import ValkeyLuajit.Lua.Effect
import ValkeyLuajit.Script.Execution

/-!
# What a script can do to the C side

Whatever a script does, it cannot touch the registry, the hook's function, the
tables of the registry other than the function table, or the stack of its caller;
and it changes the function table only by registering.
-/

namespace ValkeyLuajit

open Lua

section Scripts

variable {σ : Type} {effect : Effect σ}

/-- An error that a script catches changes nothing else. -/
theorem bounds_catching {operation : LuaM σ Unit} (inner : effect.Bounds operation) :
    effect.Bounds (catching operation) := by
  intro world
  have here := inner world
  unfold catching
  split
  · rename_i raised
    rw [raised] at here
    exact here
  · exact here

/-- An action has the effects of steps, of the functions it can call and of the hook. -/
theorem Setting.bounds_perform {setting : Setting σ}
    (steps : ∀ (core : Core σ) (heap : Heap),
      effect.allows core (core.map fun lua => { lua with heap := heap }))
    (natives : ∀ function ∈ setting.exposed, effect.Bounds (setting.native function))
    (hooks : ∀ signal, effect.Bounds (setting.hook signal)) (action : Action) :
    effect.Bounds (setting.perform action) := by
  cases action with
  | step heap => exact fun world => steps world.core heap
  | call function arguments =>
      simp only [Setting.perform]
      split
      · rename_i exposed
        exact bounds_catching (Effect.bounds_inFrame arguments (natives function exposed))
      · exact Effect.bounds_pure ()
  | tick signal =>
      intro world
      simp only [Setting.perform]
      split
      · exact bounds_catching (Effect.bounds_inFrame [] (hooks signal)) world
      · exact effect.refl _

/-- A script has the effects of its actions. -/
theorem Setting.bounds_run {setting : Setting σ}
    (performs : ∀ action, effect.Bounds (setting.perform action))
    (observes : effect.Bounds setting.observe) (script : ScriptRun) :
    effect.Bounds (setting.run script) := by
  have all (actions : List Action) : effect.Bounds (setting.performAll actions) := by
    induction actions with
    | nil => exact Effect.bounds_pure ()
    | cons action rest ih =>
        exact Effect.bounds_bind observes fun _ => Effect.bounds_bind (performs action) fun _ => ih
  refine Effect.bounds_bind (all script.actions) fun _ => ?_
  cases script.outcome with
  | ok value => exact Effect.bounds_pure [value]
  | error error => exact Effect.bounds_error effect

end Scripts

/-- The callback the last registration of a name binds. -/
def lastBinding : List (Bytes × Value) → Bytes → Option Value
  | [], _ => none
  | (name, callback) :: rest, other =>
      (lastBinding rest other).or (if other = name then some callback else none)

theorem lastBinding_append (first rest : List (Bytes × Value)) (name : Bytes) :
    lastBinding (first ++ rest) name = (lastBinding rest name).or (lastBinding first name) := by
  induction first with
  | nil => simp [lastBinding]
  | cons entry first ih => simp [lastBinding, ih, Option.or_assoc]

/-- The registrations among the events. -/
def registrations (kind : CodeKind) (trace : List Event) : List (Bytes × Value) :=
  trace.filterMap fun
    | .registered other name callback => if other = kind then some (name, callback) else none
    | _ => none

@[simp] theorem registrations_append (kind : CodeKind) (first second : List Event) :
    registrations kind (first ++ second) = registrations kind first ++ registrations kind second :=
  List.filterMap_append

/-- The function the hook calls. -/
def hookFunction (lua : State) : Option String := lua.hook.map Hook.function

/-- An event that user code of this kind, run in this state of the C side, gives rise to. -/
def ObservedIn (kind : CodeKind) (core : Core CallHost) : Event → Prop
  | .userCode other hook slot call =>
      other = kind ∧ hook.map Hook.function = hookFunction core.lua ∧
        slot = core.lua.registry registryRunCtxName ∧ call.isSome = core.host.callCtx.isSome
  | .registered other _ _ => other = kind
  | .killObserved => True
  | _ => False

/-- What user code can do to the C side. -/
structure ScriptEffect (kind : CodeKind) (before after : Core CallHost) : Prop where
  registry : after.lua.registry = before.lua.registry
  globals : after.lua.globals = before.lua.globals
  hidden : ∀ name, name ≠ libraryFunctionsName → after.lua.hidden name = before.lua.hidden name
  hook : hookFunction after.lua = hookFunction before.lua
  call : after.host.callCtx.isSome = before.host.callCtx.isSome
  trace : ∃ events, after.host.trace = before.host.trace ++ events ∧
    (∀ event ∈ events, ObservedIn kind before event) ∧
    ∀ name, after.lua.functionNamed name =
      (lastBinding (registrations kind events) name).getD (before.lua.functionNamed name)
  metaCalls : ∃ more, after.metaCalls = before.metaCalls ++ more ∧
    ∀ call ∈ more, call.2.registry = before.lua.registry ∧
      hookFunction call.2 = hookFunction before.lua

namespace ScriptEffect

variable {kind : CodeKind} {first second third : Core CallHost}

theorem refl (core : Core CallHost) : ScriptEffect kind core core where
  registry := rfl
  globals := rfl
  hidden := fun _ _ => rfl
  hook := rfl
  call := rfl
  trace := ⟨[], by simp, by simp, by simp [registrations, lastBinding]⟩
  metaCalls := ⟨[], by simp, by simp⟩

theorem trans (before : ScriptEffect kind first second) (after : ScriptEffect kind second third) :
    ScriptEffect kind first third where
  registry := after.registry.trans before.registry
  globals := after.globals.trans before.globals
  hidden := fun name ne => (after.hidden name ne).trans (before.hidden name ne)
  hook := after.hook.trans before.hook
  call := after.call.trans before.call
  trace := by
    obtain ⟨early, earlyTrace, earlyObserved, earlyNamed⟩ := before.trace
    obtain ⟨late, lateTrace, lateObserved, lateNamed⟩ := after.trace
    refine ⟨early ++ late, by rw [lateTrace, earlyTrace, List.append_assoc], ?_, ?_⟩
    · intro event member
      rcases List.mem_append.mp member with inEarly | inLate
      · exact earlyObserved event inEarly
      · have same : ObservedIn kind second event = ObservedIn kind first event := by
          cases event <;> simp only [ObservedIn, before.hook, before.registry, before.call]
        exact same ▸ lateObserved event inLate
    · intro name
      rw [lateNamed, earlyNamed, registrations_append, lastBinding_append]
      cases lastBinding (registrations kind late) name <;> rfl
  metaCalls := by
    obtain ⟨early, earlyCalls, earlySame⟩ := before.metaCalls
    obtain ⟨late, lateCalls, lateSame⟩ := after.metaCalls
    refine ⟨early ++ late, by rw [lateCalls, earlyCalls, List.append_assoc], ?_⟩
    intro call member
    rcases List.mem_append.mp member with inEarly | inLate
    · exact earlySame call inEarly
    · have same := lateSame call inLate
      exact ⟨same.1.trans before.registry, same.2.trans before.hook⟩

/-- A change of the heap, and of the run context behind the pointer, goes unseen. -/
theorem of_heap {core : Core CallHost} (heap : Heap) {callCtx : Option FuncCallCtx}
    (call : callCtx.isSome = core.host.callCtx.isSome) :
    ScriptEffect kind core ⟨{ core.lua with heap := heap }, { core.host with callCtx := callCtx },
      core.metaCalls⟩ where
  registry := rfl
  globals := rfl
  hidden := fun _ _ => rfl
  hook := rfl
  call := call
  trace := ⟨[], by simp, by simp, by simp [registrations, lastBinding, State.functionNamed]⟩
  metaCalls := ⟨[], by simp, by simp⟩

/-- Noting an event that is observed here and registers nothing. -/
theorem of_event {core : Core CallHost} {event : Event} (observed : ObservedIn kind core event)
    (nothing : registrations kind [event] = []) :
    ScriptEffect kind core ⟨core.lua, { core.host with trace := core.host.trace ++ [event] },
      core.metaCalls⟩ where
  registry := rfl
  globals := rfl
  hidden := fun _ _ => rfl
  hook := rfl
  call := rfl
  trace := ⟨[event], rfl, by simpa using observed, by simp [nothing, lastBinding]⟩
  metaCalls := ⟨[], by simp, by simp⟩

end ScriptEffect

/-- What an operation in a frame of its own leaves behind, and that it left its
caller's slots alone. -/
structure NativeEffect (kind : CodeKind) (before : World CallHost) {α : Type}
    (outcome : Outcome CallHost α) : Prop where
  tidy : outcome.world.breached = before.breached
  effect : ScriptEffect kind before.core outcome.world.core

/-- What user code leaves its caller: the stack as it was, and its effects. -/
structure RunEffect (kind : CodeKind) (before : World CallHost) {α : Type}
    (outcome : Outcome CallHost α) : Prop where
  frame : outcome.world.frame = before.frame
  base : outcome.world.base = before.base
  breached : outcome.world.breached = before.breached
  effect : ScriptEffect kind before.core outcome.world.core

/-- A frame of its own keeps an operation away from the caller's stack. -/
theorem RunEffect.ofFrame {kind : CodeKind} {args : List Value} {world : World CallHost}
    {α : Type} {body : LuaM CallHost α}
    (inner : NativeEffect kind { world with
      frame := args.reverse, base := world.stack, breached := false }
      (body { world with frame := args.reverse, base := world.stack, breached := false })) :
    RunEffect kind world (inFrame args body world) := by
  obtain ⟨tidy, effect⟩ := inner
  unfold inFrame
  dsimp only
  split <;> rename_i ended <;> rw [ended] at tidy effect <;>
    exact ⟨rfl, rfl, by simp_all, effect⟩

section Natives

variable {rt : Runtime} {kind : CodeKind}

/-- What follows the assertion decides, unless it aborts. -/
theorem requireRunCtx_then {next : LuaM CallHost Unit} {world : World CallHost}
    (after : NativeEffect kind world (next world)) :
    NativeEffect kind world ((requireRunCtx >>= fun _ => next) world) := by
  rcases requireRunCtx_cases world with ⟨-, passes⟩ | ⟨-, reason, final, aborts, tidy, same⟩
  · rw [LuaM.bind_apply, passes]
    exact after
  · rw [LuaM.bind_apply, aborts]
    exact ⟨tidy, by simpa [same] using ScriptEffect.refl world.core⟩

/-- Raising an error table. -/
theorem pushError_effect (error : String) (world : World CallHost) :
    NativeEffect kind world
      ((luajitPushError rt error >>= fun _ => (luajitError : LuaM CallHost Unit)) world) := by
  obtain ⟨frame, base, breached, lua, host, calls⟩ := world
  simp only [luajitPushError, LuaM.bind_apply, luajitPushErrorBuff_apply, Outcome.andThen_done,
    luajitError_apply]
  exact ⟨rfl, .of_heap _ rfl⟩

theorem luajitSetResp_effect (world : World CallHost) :
    NativeEffect kind world (luajitSetResp rt world) := by
  refine requireRunCtx_then ?_
  simp only [LuaM.bind_apply, luaGetTop_apply, Outcome.andThen_done, LuaM.ite_apply]
  split
  · exact pushError_effect _ world
  · simp only [lastArgumentInt, luaValue_apply, LuaM.bind_apply, Outcome.andThen_done,
      LuaM.pure_apply, LuaM.ite_apply]
    split
    · exact pushError_effect _ world
    · exact ⟨rfl, .of_heap world.lua.heap (by simp [World.core])⟩

theorem luajitRedisSetReplCommand_effect (world : World CallHost) :
    NativeEffect kind world (luajitRedisSetReplCommand rt world) := by
  simp only [luajitRedisSetReplCommand, LuaM.bind_apply, luaGetTop_apply, Outcome.andThen_done]
  refine requireRunCtx_then ?_
  simp only [LuaM.ite_apply]
  split
  · exact pushError_effect _ world
  · simp only [lastArgumentInt, luaValue_apply, LuaM.bind_apply, Outcome.andThen_done,
      LuaM.pure_apply, LuaM.ite_apply]
    split
    · exact pushError_effect _ world
    · exact ⟨rfl, .of_heap world.lua.heap (by simp [World.core])⟩

/-- The count hook, when it is the hook that is installed. -/
theorem luajitMaskCountHook_effect {killed : Bool} {world : World CallHost}
    (armed : hookFunction world.lua = some "luajitMaskCountHook") :
    NativeEffect kind world (luajitMaskCountHook rt killed world) := by
  refine requireRunCtx_then ?_
  cases killed with
  | false => exact ⟨rfl, .refl _⟩
  | true =>
      obtain ⟨frame, base, breached, lua, host, calls⟩ := world
      simp only [if_true, LuaM.bind_apply, emit_apply, Outcome.andThen_done, luaSetHook_apply,
        World.setHost_mk, World.setHook_mk, getHost_apply, luajitPushError,
        luajitPushErrorBuff_apply, luajitError_apply]
      refine ⟨rfl, ?_⟩
      exact
        { registry := rfl
          globals := rfl
          hidden := fun _ _ => rfl
          hook := armed.symm
          call := rfl
          trace := ⟨[.killObserved], rfl, by simp [ObservedIn], by simp [registrations, lastBinding,
            State.functionNamed, World.core]⟩
          metaCalls := ⟨[], by simp [World.core], by simp⟩ }

variable (rt) in
/-- A metamethod is called in the state the field is read in. -/
theorem Lua.State.fetch_calls (lua : State) (calls : List (FuncRef × State))
    (object key : Value) : ∃ more, (lua.fetch rt calls object key).2.2 = calls ++ more ∧
      ∀ call ∈ more, call.2 = lua := by
  unfold State.fetch
  split
  · exact ⟨[], by simp⟩
  · rename_i handler holder _
    refine ⟨[(handler, lua)], ?_, by simp⟩
    split <;> rfl
  · exact ⟨[], by simp⟩

variable (rt kind) in
/-- Reading a field runs a metamethod at most. -/
theorem fetch_effect (lua : State) (host : CallHost) (calls : List (FuncRef × State))
    (object key : Value) :
    ScriptEffect kind ⟨lua, host, calls⟩
      ⟨(lua.fetch rt calls object key).2.1, host, (lua.fetch rt calls object key).2.2⟩ := by
  obtain ⟨more, extended, same⟩ := State.fetch_calls rt lua calls object key
  rcases fetched : lua.fetch rt calls object key with ⟨result, lua', calls'⟩
  obtain ⟨heap, rfl⟩ : ∃ heap, lua' = { lua with heap := heap } := ⟨_, State.fetch_frame lua calls fetched⟩
  rw [fetched] at extended
  exact
    { registry := rfl
      globals := rfl
      hidden := fun _ _ => rfl
      hook := rfl
      call := rfl
      trace := ⟨[], by simp, by simp, by simp [registrations, lastBinding, State.functionNamed]⟩
      metaCalls := by
        refine ⟨more, extended, fun call member => ?_⟩
        rw [same call member]
        exact ⟨rfl, rfl⟩ }

variable (rt kind) in
/-- Reading the arguments of a registration runs metamethods at most. -/
theorem resolveRegistration_effect (lua : State) (host : CallHost) (calls : List (FuncRef × State))
    (args : List Value) :
    ScriptEffect kind ⟨lua, host, calls⟩
      ⟨(resolveRegistration rt lua calls args).2.1, host,
        (resolveRegistration rt lua calls args).2.2⟩ := by
  match args with
  | [] => exact .refl _
  | [argument] =>
      by_cases table : argument.isTable
      · have first := fetch_effect rt kind lua host calls argument
          (.string (bytes "function_name"))
        rcases fetched : lua.fetch rt calls argument (.string (bytes "function_name")) with
          ⟨error | name, lua', calls'⟩
        · simpa [resolveRegistration, table, fetched] using first
        · by_cases named : name.isString
          · have second := fetch_effect rt kind lua' host calls' argument
              (.string (bytes "callback"))
            rw [fetched] at first
            rcases fetched' : lua'.fetch rt calls' argument (.string (bytes "callback")) with
              ⟨error | callback, lua'', calls''⟩
            · rw [fetched'] at second
              simpa [resolveRegistration, table, fetched, named, fetched'] using first.trans second
            · rw [fetched'] at second
              by_cases callable : callback.isFunction <;>
                simpa [resolveRegistration, table, fetched, named, fetched', callable] using
                  first.trans second
          · simpa [resolveRegistration, table, fetched, named] using first
      · simpa [resolveRegistration, table] using ScriptEffect.refl _
  | [name, callback] =>
      by_cases named : name.isString <;> by_cases callable : callback.isFunction <;>
        simpa [resolveRegistration, named, callable] using ScriptEffect.refl _
  | first :: second :: third :: rest => exact .refl _

variable (rt kind) in
/-- A registration that resolves is noted and bound; one that does not raises. -/
theorem registration_outcome (args : List Value) {frame base : List Value} {breached : Bool}
    {lua : State} {host : CallHost} {calls : List (FuncRef × State)}
    (functions : lua.registry libraryFunctionsName = .hidden libraryFunctionsName) :
    inFrame args (do noteRegistration rt kind; luajitUserStateRegisterFunction rt)
        ⟨frame, base, breached, lua, host, calls⟩ =
      match resolveRegistration rt lua calls args with
      | (.ok (name, callback), lua, calls) =>
          .done () ⟨frame, base, breached, lua.bindFunction name callback,
            { host with trace := host.trace ++ [.registered kind (cString name) callback] }, calls⟩
      | (.error error, lua, calls) => .raised error ⟨frame, base, breached, lua, host, calls⟩ := by
  rcases resolved : resolveRegistration rt lua calls args with
    ⟨error | ⟨name, callback⟩, lua', calls'⟩
  · have same : inFrame args (do noteRegistration rt kind; luajitUserStateRegisterFunction rt)
        ⟨frame, base, breached, lua, host, calls⟩ =
        inFrame args (luajitUserStateRegisterFunction rt)
          ⟨frame, base, breached, lua, host, calls⟩ := by
      simp [inFrame, noteRegistration, resolved]
    rw [same, luajitUserStateRegisterFunction_spec args functions, registrationOutcome, resolved]
  · have same : inFrame args (do noteRegistration rt kind; luajitUserStateRegisterFunction rt)
        ⟨frame, base, breached, lua, host, calls⟩ =
        inFrame args (luajitUserStateRegisterFunction rt) ⟨frame, base, breached, lua,
          { host with trace := host.trace ++ [.registered kind (cString name) callback] },
          calls⟩ := by
      simp [inFrame, noteRegistration, resolved]
    rw [same, luajitUserStateRegisterFunction_spec args functions, registrationOutcome, resolved]

/-- The effects of a registration. -/
theorem registration_effect {args : List Value} {world : World CallHost}
    (functions : world.lua.registry libraryFunctionsName = .hidden libraryFunctionsName) :
    RunEffect kind world
      (inFrame args (do noteRegistration rt kind; luajitUserStateRegisterFunction rt) world) := by
  obtain ⟨frame, base, breached, lua, host, calls⟩ := world
  have read := resolveRegistration_effect rt kind lua host calls args
  rw [registration_outcome rt kind args functions]
  rcases resolved : resolveRegistration rt lua calls args with
    ⟨error | ⟨name, callback⟩, lua', calls'⟩ <;> rw [resolved] at read
  · exact ⟨rfl, rfl, rfl, read⟩
  · refine ⟨rfl, rfl, rfl, read.trans ?_⟩
    exact
      { registry := rfl
        globals := rfl
        hidden := fun other ne => Function.update_of_ne ne _ _
        hook := rfl
        call := rfl
        trace := by
          refine ⟨[.registered kind (cString name) callback], rfl, by simp [ObservedIn], ?_⟩
          intro other
          have only : registrations kind [.registered kind (cString name) callback] =
              [(cString name, callback)] := by simp [registrations]
          rw [only]
          have named := functionNamed_bindFunction lua' name other callback
          by_cases same : other = cString name
          · rw [if_pos same] at named
            simpa [lastBinding, same, World.core] using named
          · rw [if_neg same] at named
            simpa [lastBinding, same, World.core] using named
        metaCalls := ⟨[], by simp [World.core], by simp⟩ }

theorem requireRunCtx_effect (world : World CallHost) :
    NativeEffect kind world ((requireRunCtx : LuaM CallHost Unit) world) := by
  rcases requireRunCtx_cases world with ⟨-, passes⟩ | ⟨-, reason, final, aborts, tidy, same⟩
  · rw [passes]
    exact ⟨rfl, .refl _⟩
  · rw [aborts]
    exact ⟨tidy, by simpa [same] using ScriptEffect.refl world.core⟩

/-- A function of the module keeps to the effects of a script. -/
theorem native_effect {function : ServerFunction} {args : List Value} {world : World CallHost}
    (functions : function = .userRegisterFunction →
      world.lua.registry libraryFunctionsName = .hidden libraryFunctionsName) :
    RunEffect kind world (inFrame args (userNative rt kind function) world) := by
  cases function with
  | setresp => exact .ofFrame (luajitSetResp_effect _)
  | setRepl => exact .ofFrame (luajitRedisSetReplCommand_effect _)
  | userRegisterFunction => exact registration_effect (functions rfl)
  | call => exact .ofFrame (requireRunCtx_effect _)
  | pcall => exact .ofFrame (requireRunCtx_effect _)
  | log => exact .ofFrame (requireRunCtx_effect _)
  | aclCheckCmd => exact .ofFrame (requireRunCtx_effect _)
  | _ => exact .ofFrame ⟨rfl, .refl _⟩

/-- Catching an error changes nothing else. -/
theorem RunEffect.ofCatching {world : World CallHost} {operation : LuaM CallHost Unit}
    (inner : RunEffect kind world (operation world)) :
    RunEffect kind world (catching operation world) := by
  unfold catching
  split
  · rename_i raised
    rw [raised] at inner
    exact ⟨inner.frame, inner.base, inner.breached, inner.effect⟩
  · exact inner

variable (rt kind) in
/-- An action keeps to the effects of a script, and to the stack of its caller. -/
theorem perform_effect {state : StateKind} (action : Action) {world : World CallHost}
    (functions : .userRegisterFunction ∈ state.exposed →
      world.lua.registry libraryFunctionsName = .hidden libraryFunctionsName) :
    RunEffect kind world ((userSetting rt state kind).perform action world) := by
  cases action with
  | step heap => exact ⟨rfl, rfl, rfl, .of_heap heap rfl⟩
  | call function args =>
      simp only [Setting.perform, LuaM.ite_apply]
      split
      · rename_i exposed
        refine .ofCatching (native_effect ?_)
        rintro rfl
        exact functions exposed
      · exact ⟨rfl, rfl, rfl, .refl _⟩
  | tick killed =>
      simp only [Setting.perform]
      split
      · rename_i armed
        exact .ofCatching (.ofFrame (luajitMaskCountHook_effect armed))
      · exact ⟨rfl, rfl, rfl, .refl _⟩

/-- Effects compose along a sequence. -/
theorem RunEffect.bind {α β : Type} {world : World CallHost} {first : LuaM CallHost α}
    {next : α → LuaM CallHost β} (before : RunEffect kind world (first world))
    (after : ∀ value mid, first world = .done value mid → RunEffect kind mid (next value mid)) :
    RunEffect kind world ((first >>= next) world) := by
  rw [LuaM.bind_apply]
  cases ended : first world with
  | done value mid =>
      rw [ended] at before
      have rest := after value mid ended
      exact ⟨rest.frame.trans before.frame, rest.base.trans before.base,
        rest.breached.trans before.breached, before.effect.trans rest.effect⟩
  | raised error mid =>
      rw [ended] at before
      exact ⟨before.frame, before.base, before.breached, before.effect⟩
  | aborted reason mid =>
      rw [ended] at before
      exact ⟨before.frame, before.base, before.breached, before.effect⟩

variable (kind) in
/-- Noting the hook and the run context. -/
theorem observeUserCode_effect (world : World CallHost) :
    RunEffect kind world (observeUserCode kind world) :=
  ⟨rfl, rfl, rfl, .of_event ⟨rfl, rfl, rfl, rfl⟩ (by simp [registrations])⟩

/-- All actions of a script do. -/
theorem performAll_effect {state : StateKind} {actions : List Action} {world : World CallHost}
    (functions : .userRegisterFunction ∈ state.exposed →
      world.lua.registry libraryFunctionsName = .hidden libraryFunctionsName) :
    RunEffect kind world ((userSetting rt state kind).performAll actions world) := by
  induction actions generalizing world with
  | nil => exact ⟨rfl, rfl, rfl, .refl _⟩
  | cons action rest ih =>
      refine .bind (observeUserCode_effect kind world) fun _ noted observed => ?_
      have keeps := (observeUserCode_effect kind world).effect.registry
      rw [show observeUserCode kind world = _ from observed] at keeps
      refine .bind (perform_effect rt kind action fun exposed => ?_) fun _ done performed => ?_
      · exact (congrFun keeps _).trans (functions exposed)
      · have kept : RunEffect kind noted ((userSetting rt state kind).perform action noted) :=
          perform_effect rt kind action fun exposed => (congrFun keeps _).trans (functions exposed)
        rw [performed] at kept
        exact ih fun exposed => (congrFun kept.effect.registry _).trans
          ((congrFun keeps _).trans (functions exposed))

variable (rt kind) in
/-- A whole script does. -/
theorem run_effect {state : StateKind} (script : ScriptRun) {world : World CallHost}
    (functions : .userRegisterFunction ∈ state.exposed →
      world.lua.registry libraryFunctionsName = .hidden libraryFunctionsName) :
    RunEffect kind world ((userSetting rt state kind).run script world) := by
  refine .bind (performAll_effect functions) fun _ final _ => ?_
  cases script.outcome <;> exact ⟨rfl, rfl, rfl, .refl _⟩

/-- Note an event. -/
def Lua.Core.note (core : Core CallHost) (event : Event) : Core CallHost :=
  { core with host := { core.host with trace := core.host.trace ++ [event] } }

@[simp] theorem Lua.Core.note_lua (core : Core CallHost) (event : Event) :
    (core.note event).lua = core.lua := rfl

/-- User-supplied code is entered and begins to execute. -/
def Lua.Core.enter (core : Core CallHost) (kind : CodeKind) (callee : FuncRef)
    (arguments : List Value) : Core CallHost :=
  (core.note (.entered kind callee arguments)).note
    (.userCode kind core.lua.hook (core.lua.registry registryRunCtxName) core.host.callCtx)

/-- User-supplied code was entered from here, and this is how it ended. -/
structure Executed (rt : Runtime) (state : StateKind) (kind : CodeKind) (script : ScriptRun)
    (callee : FuncRef) (arguments : List Value) (before : Core CallHost)
    (outcome : Outcome CallHost (List Value)) : Prop where
  runs : ∃ inner : World CallHost, inner.core = before.enter kind callee arguments ∧
    (userSetting rt state kind).run script inner = outcome
  effect : ScriptEffect kind (before.enter kind callee arguments) outcome.world.core

/-- What `lua_pcall` makes of the end of the code it called. -/
def pcallOutcome (outcome : Outcome CallHost (List Value)) (frame base : List Value)
    (breached : Bool) : Outcome CallHost Bool :=
  match outcome with
  | .done results final => .done false (final.core.on (results.reverse ++ frame) base breached)
  | .raised error final => .done true (final.core.on (error :: frame) base breached)
  | .aborted reason final => .aborted reason (final.core.on frame base breached)

/-- `lua_pcall` takes the function and its arguments off the stack and runs it. -/
theorem luaPCall_on {callee : FuncRef} {args frame base : List Value} {breached : Bool}
    {core : Core CallHost} {body : FuncRef → List Value → LuaM CallHost (List Value)}
    (tidy : (body callee args (core.on args.reverse (frame ++ base) false)).world.breached = false) :
    luaPCall args.length body (core.on (args.reverse ++ .function callee :: frame) base breached) =
      pcallOutcome (body callee args (core.on args.reverse (frame ++ base) false)) frame base
        breached := by
  have arguments : ((args.reverse ++ Value.function callee :: frame ++ base).take
      args.length).reverse = args := by simp
  have popped : (core.on (args.reverse ++ .function callee :: frame) base breached).pop
      (args.length + 1) = core.on frame base breached := by
    have drops : (args.reverse ++ Value.function callee :: frame).drop (args.length + 1) =
        frame := by
      rw [← List.drop_drop, List.drop_left' (by simp)]
      rfl
    simp [Core.on, World.pop, drops]
  have function : (core.on (args.reverse ++ .function callee :: frame) base breached).callee
      args.length = callee := by
    simp [World.callee, Core.on]
  unfold luaPCall
  dsimp only
  rw [popped, function, show (core.on (args.reverse ++ .function callee :: frame) base
    breached).stack = args.reverse ++ .function callee :: frame ++ base from rfl, arguments,
    inFrame_on tidy]
  cases body callee args (core.on args.reverse (frame ++ base) false) <;> rfl

section Pcall

variable {state : StateKind} {script : ScriptRun} {callee : FuncRef}
  {args frame base : List Value} {breached : Bool} {core : Core CallHost}

variable (rt kind script callee args frame base) in
/-- User-supplied code in a frame of its own. -/
theorem enterUserCode_executed (functions : .userRegisterFunction ∈ state.exposed →
      core.lua.registry libraryFunctionsName = .hidden libraryFunctionsName) :
    Executed rt state kind script callee args core
        (enterUserCode rt state kind script callee args
          (core.on args.reverse (frame ++ base) false)) ∧
      (enterUserCode rt state kind script callee args
        (core.on args.reverse (frame ++ base) false)).world.breached = false := by
  let inner := (core.enter kind callee args).on args.reverse (frame ++ base) false
  have runs : RunEffect kind inner ((userSetting rt state kind).run script inner) :=
    run_effect rt kind script functions
  exact ⟨⟨⟨_, rfl, rfl⟩, runs.effect⟩, runs.breached⟩

variable (rt kind script callee args frame base breached) in
/-- User-supplied code under `lua_pcall`. -/
theorem luaPCall_executed (functions : .userRegisterFunction ∈ state.exposed →
      core.lua.registry libraryFunctionsName = .hidden libraryFunctionsName) :
    ∃ outcome, Executed rt state kind script callee args core outcome ∧
      luaPCall args.length (enterUserCode rt state kind script)
          (core.on (args.reverse ++ .function callee :: frame) base breached) =
        pcallOutcome outcome frame base breached :=
  have executed := enterUserCode_executed rt kind script callee args frame base functions
  ⟨_, executed.1, luaPCall_on executed.2⟩

variable (rt kind script callee args frame base breached) in
/-- The same when its end is noted and its results are dropped. -/
theorem luaPCall_executed_completing (functions : .userRegisterFunction ∈ state.exposed →
      core.lua.registry libraryFunctionsName = .hidden libraryFunctionsName) :
    ∃ outcome, Executed rt state kind script callee args core outcome ∧
      luaPCall args.length (fun callee arguments => do
            let _ ← enterUserCode rt state kind script callee arguments
            emit (.completed callee)
            pure [])
          (core.on (args.reverse ++ .function callee :: frame) base breached) =
        pcallOutcome (outcome.andThen fun _ => do
          emit (.completed callee)
          pure []) frame base breached := by
  obtain ⟨executed, tidy⟩ := enterUserCode_executed rt kind script callee args frame base functions
  refine ⟨_, executed, luaPCall_on ?_⟩
  rw [LuaM.bind_apply]
  cases ended : enterUserCode rt state kind script callee args
      (core.on args.reverse (frame ++ base) false) <;> rw [ended] at tidy <;> exact tidy

end Pcall

end Natives

end ValkeyLuajit
