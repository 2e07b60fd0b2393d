import ValkeyLuajit.Engine.Users

/-!
# Killing a call

A call is killed by the count hook, which looks at the run context in the registry.
Both must be in place whenever code of a script executes in a user's state. They
are while a callback runs, but not while a library is loaded for it.
-/

namespace ValkeyLuajit

open Lua

/-- The hook that a kill takes effect through. -/
def killHook : String := "luajitMaskCountHook"

/-- The hook is installed and the run context in its slot. -/
def Watched (lua : State) : Prop :=
  hookFunction lua = some killHook ∧
    lua.registry registryRunCtxName = .lightuserdata callCtxPointer

/-- If it notes executing code, the event notes that it is watched, with the run
context of the call behind the slot. -/
def WatchedEvent : Event → Prop
  | .userCode _ hook slot call =>
      hook.map Hook.function = some killHook ∧ slot = .lightuserdata callCtxPointer ∧
        call.isSome = true
  | _ => True

/-- All code of scripts that has executed was watched, that of metamethods included. -/
structure Killable (core : Core CallHost) : Prop where
  code : ∀ event ∈ core.host.trace, WatchedEvent event
  metamethods : ∀ call ∈ core.metaCalls, Watched call.2

/-- With this hook, and with this in the slot of the run context, a tick that comes upon a kill
sees it. -/
def SeesKill (rt : Runtime) (hook : Option Hook) (slot : Value) : Prop :=
  ∀ (state : StateKind) (kind : CodeKind) (world : World CallHost), world.lua.hook = hook →
    world.lua.registry registryRunCtxName = slot →
      .killObserved ∈ ((userSetting rt state kind).perform (.tick true) world).world.host.trace

/-- Wherever code of scripts has executed, a kill would have been seen. -/
structure SeesKills (rt : Runtime) (core : Core CallHost) : Prop where
  code : ∀ kind hook slot call, .userCode kind hook slot call ∈ core.host.trace →
    SeesKill rt hook slot
  metamethods : ∀ call ∈ core.metaCalls,
    SeesKill rt call.2.hook (call.2.registry registryRunCtxName)

/-- A callback is running. -/
structure Running (core : Core CallHost) : Prop where
  watched : Watched core.lua
  call : core.host.callCtx.isSome = true

section

variable {kind : CodeKind} {before after : Core CallHost}

/-- Only the trace and the metamethod calls count. -/
theorem Killable.congr (trace : after.host.trace = before.host.trace)
    (calls : after.metaCalls = before.metaCalls) : Killable after ↔ Killable before := by
  constructor
  · rintro ⟨code, metamethods⟩
    exact ⟨trace ▸ code, calls ▸ metamethods⟩
  · rintro ⟨code, metamethods⟩
    exact ⟨trace.symm ▸ code, calls.symm ▸ metamethods⟩

theorem Killable.map_iff {core : Core CallHost} (change : State → State) :
    Killable (core.map change) ↔ Killable core := Killable.congr rfl rfl

theorem Killable.arm_iff {core : Core CallHost} (ctx : EngineCtx) (type : SubsystemType) :
    Killable (core.arm ctx type) ↔ Killable core := Killable.congr rfl rfl

theorem Killable.disarm_iff {core : Core CallHost} (ctx : EngineCtx) :
    Killable (core.disarm ctx) ↔ Killable core := Killable.congr rfl rfl

/-- What handling values does is watched while a callback is running. -/
theorem Running.handling (running : Running before) (effect : HandlingEffect before after) :
    Running after where
  watched := ⟨by rw [hookFunction, effect.guard.hook]; exact running.watched.1, by
    rw [effect.guard.registry _ (by decide)]; exact running.watched.2⟩
  call := by rw [effect.call]; exact running.call

theorem Killable.handling (killable : Killable before) (running : Running before)
    (effect : HandlingEffect before after) : Killable after := by
  obtain ⟨tokens, trace⟩ := effect.trace
  obtain ⟨more, calls, same⟩ := effect.metaCalls
  constructor
  · intro event member
    rw [trace, List.mem_append, List.mem_map] at member
    rcases member with old | ⟨token, -, rfl⟩
    · exact killable.code event old
    · trivial
  · intro call member
    rw [calls, List.mem_append] at member
    rcases member with old | new
    · exact killable.metamethods call old
    · have guard := same call new
      exact ⟨by rw [hookFunction, guard.hook]; exact running.watched.1, by
        rw [guard.registry _ (by decide)]; exact running.watched.2⟩

/-- What a script does is watched while a callback is running. -/
theorem Running.script (running : Running before) (effect : ScriptEffect kind before after) :
    Running after where
  watched := ⟨effect.hook.trans running.watched.1,
    (congrFun effect.registry _).trans running.watched.2⟩
  call := effect.call.trans running.call

theorem Killable.script (killable : Killable before) (running : Running before)
    (effect : ScriptEffect kind before after) : Killable after := by
  obtain ⟨events, trace, observed, -⟩ := effect.trace
  obtain ⟨more, calls, same⟩ := effect.metaCalls
  constructor
  · intro event member
    rw [trace, List.mem_append] at member
    rcases member with old | new
    · exact killable.code event old
    · have here := observed event new
      cases event with
      | userCode other hook slot call =>
          obtain ⟨-, armed, context, live⟩ := here
          exact ⟨armed.trans running.watched.1, context.trans running.watched.2,
            live.trans running.call⟩
      | _ => trivial
  · intro call member
    rw [calls, List.mem_append] at member
    rcases member with old | new
    · exact killable.metamethods call old
    · obtain ⟨registry, hook⟩ := same call new
      exact ⟨hook.trans running.watched.1, (congrFun registry _).trans running.watched.2⟩

/-- Entering code executes it once. -/
theorem Killable.enter_iff {callee : FuncRef} {arguments : List Value} :
    Killable (before.enter kind callee arguments) ↔
      Killable before ∧ Watched before.lua ∧ before.host.callCtx.isSome = true := by
  constructor
  · rintro ⟨code, metamethods⟩
    have first : WatchedEvent (.userCode kind before.lua.hook
        (before.lua.registry registryRunCtxName) before.host.callCtx) :=
      code _ (by simp [Core.enter, Core.note])
    exact ⟨⟨fun event member => code event (by simp [Core.enter, Core.note, member]),
      metamethods⟩, ⟨first.1, first.2.1⟩, first.2.2⟩
  · rintro ⟨⟨code, metamethods⟩, watched, call⟩
    refine ⟨?_, metamethods⟩
    intro event member
    simp only [Core.enter, Core.note, List.mem_append, List.mem_singleton, or_assoc] at member
    rcases member with old | rfl | rfl
    · exact code event old
    · trivial
    · exact ⟨watched.1, watched.2, call⟩

/-- What was not watched stays on record. -/
theorem Killable.of_script (killable : Killable after)
    (effect : ScriptEffect kind before after) : Killable before := by
  obtain ⟨events, trace, -⟩ := effect.trace
  obtain ⟨more, calls, -⟩ := effect.metaCalls
  exact ⟨fun event member => killable.code event (by rw [trace]; exact List.mem_append_left _ member),
    fun call member => killable.metamethods call (by rw [calls]; exact List.mem_append_left _ member)⟩

theorem Killable.of_handling (killable : Killable after)
    (effect : HandlingEffect before after) : Killable before := by
  obtain ⟨tokens, trace⟩ := effect.trace
  obtain ⟨more, calls, -⟩ := effect.metaCalls
  exact ⟨fun event member => killable.code event (by rw [trace]; exact List.mem_append_left _ member),
    fun call member => killable.metamethods call (by rw [calls]; exact List.mem_append_left _ member)⟩

/-- An event that notes no code makes no difference. -/
theorem Killable.note_iff {event : Event} (watched : WatchedEvent event) :
    Killable (before.note event) ↔ Killable before := by
  constructor
  · rintro ⟨code, metamethods⟩
    exact ⟨fun event member => code event (by simp [Core.note, member]), metamethods⟩
  · rintro ⟨code, metamethods⟩
    refine ⟨?_, metamethods⟩
    intro event member
    simp only [Core.note, List.mem_append, List.mem_singleton] at member
    rcases member with old | rfl
    · exact code event old
    · exact watched

theorem Killable.note_sent_iff {token : Token} :
    Killable (before.note (.sent token)) ↔ Killable before := note_iff trivial

end

section Calls

variable {rt : Runtime} {ctx : EngineCtx} {function : LuajitFunction} {type : SubsystemType}
  {load body : ScriptRun} {before after : Core CallHost}

/-- An invocation is watched from its start to its end. -/
theorem Invoked.killable_iff {callback : FuncRef} {returns : Bool}
    (invoked : Invoked rt ctx type body callback before returns after) :
    Killable after ↔ Killable before := by
  have armed : Running (before.arm ctx type) := ⟨⟨rfl, by simp [Core.arm, State.arm]⟩, rfl⟩
  have same : Killable (before.arm ctx type) ↔ Killable before := Killable.arm_iff ctx type
  have starts {begun : Core CallHost} {arguments : List Value}
      (handled : HandlingEffect (before.arm ctx type) begun) :
      Killable (begun.enter .body callback arguments) ↔ Killable before := by
    have running := armed.handling handled
    rw [Killable.enter_iff, ← same]
    exact ⟨fun killable => killable.1.of_handling handled,
      fun killable => ⟨killable.handling armed handled, running.watched, running.call⟩⟩
  have entered {begun : Core CallHost} {arguments : List Value}
      (handled : HandlingEffect (before.arm ctx type) begun) :
      Running (begun.enter .body callback arguments) :=
    ⟨(armed.handling handled).watched, (armed.handling handled).call⟩
  cases invoked with
  | unstarted _ handled =>
      rw [← same]
      exact ⟨fun killable => killable.of_handling handled,
        fun killable => killable.handling armed handled⟩
  | aborted handled executed =>
      rw [← starts handled]
      exact ⟨fun killable => killable.of_script executed.effect,
        fun killable => killable.script (entered handled) executed.effect⟩
  | unreported handled executed reported =>
      rw [← starts handled]
      exact ⟨fun killable => (killable.of_handling reported).of_script executed.effect,
        fun killable => (killable.script (entered handled) executed.effect).handling
          ((entered handled).script executed.effect) reported⟩
  | finished handled executed reported =>
      rw [← starts handled, Killable.disarm_iff]
      exact ⟨fun killable => (killable.of_handling reported).of_script executed.effect,
        fun killable => (killable.script (entered handled) executed.effect).handling
          ((entered handled).script executed.effect) reported⟩

/-- Getting a library ready is watched when there is nothing to run. -/
theorem Readied.killable_iff {lib : LuajitLibrary} {libId : Nat} {result : Except String Bool}
    (idle : Idle before.lua) (nothing : Killable before)
    (readied : Readied rt lib libId load before result after) :
    Killable after ↔ ¬ (before.lua.loaded libId = false ∧ rt.syntaxError lib.code = none) := by
  have unwatched : ¬ Killable (before.enter .library (.chunk lib.code) []) := by
    intro killable
    have watched := (Killable.enter_iff.mp killable).2.1.1
    rw [hookFunction_eq_none.mpr idle.hook] at watched
    simp at watched
  cases readied with
  | already loaded => exact iff_of_true nothing (by simp [loaded])
  | rejected _ rejected =>
      exact iff_of_true (Killable.note_sent_iff.mpr nothing) fun both => rejected both.2
  | failed fresh accepted executed =>
      refine iff_of_false (fun killable => ?_) (by simp [fresh, accepted])
      exact unwatched ((Killable.note_sent_iff.mp killable).of_script executed.effect)
  | loaded fresh accepted executed =>
      have noted : WatchedEvent (.completed (.chunk lib.code)) := trivial
      rw [Killable.map_iff, Killable.note_iff noted]
      exact iff_of_false (fun killable => unwatched (killable.of_script executed.effect))
        (by simp [fresh, accepted])
  | aborted fresh accepted executed =>
      exact iff_of_false (fun killable => unwatched (killable.of_script executed.effect))
        (by simp [fresh, accepted])

/-- So is finding a callback. -/
theorem Fetched.killable_iff {result : Except String (Option FuncRef)} (idle : Idle before.lua)
    (nothing : Killable before) (fetched : Fetched rt ctx function load before result after) :
    Killable after ↔ ¬ startsLibrary rt ctx before.lua function := by
  have library {name : Bytes} {libId : Nat} {lib : LuajitLibrary}
      (uncached : (before.lua.cached function.funcId).isFunction = false)
      (data : function.data = .functionRef name libId)
      (found : ctx.libraries.lookup libId = some lib) :
      startsLibrary rt ctx before.lua function ↔
        before.lua.loaded libId = false ∧ rt.syntaxError lib.code = none := by
    simp [startsLibrary, uncached, data, found]
  cases fetched with
  | hit found =>
      exact iff_of_true nothing (by simp [startsLibrary, found, Value.isFunction, Value.type])
  | rejected _ data =>
      exact iff_of_true (Killable.note_sent_iff.mpr nothing) (by simp [startsLibrary, data])
  | compiled _ data =>
      rw [Killable.map_iff]
      exact iff_of_true nothing (by simp [startsLibrary, data])
  | missing _ data lookup =>
      exact iff_of_true (Killable.note_sent_iff.mpr nothing) (by simp [startsLibrary, data, lookup])
  | unready uncached data lookup readied =>
      rw [library uncached data lookup, readied.killable_iff idle nothing]
  | crashed uncached data lookup readied =>
      rw [library uncached data lookup, readied.killable_iff idle nothing]
  | unbound uncached data lookup readied =>
      rw [library uncached data lookup, Killable.note_sent_iff, readied.killable_iff idle nothing]
  | bound uncached data lookup readied =>
      rw [library uncached data lookup, Killable.map_iff,
        readied.killable_iff idle nothing]

/-- All code of a call is watched exactly when the call does not load a library. -/
theorem Called.killable_iff {returns : Bool} (idle : Idle before.lua) (nothing : Killable before)
    (called : Called rt ctx function type load body before returns after) :
    Killable after ↔ ¬ startsLibrary rt ctx before.lua function := by
  cases called with
  | crashed fetched => exact fetched.killable_iff idle nothing
  | refused fetched => exact fetched.killable_iff idle nothing
  | invoked fetched invoked => rw [invoked.killable_iff, fetched.killable_iff idle nothing]

end Calls

/-- Where code is watched, a kill that the hook comes upon is seen. -/
theorem seesKill_of_watched {rt : Runtime} {hook : Option Hook} {slot : Value}
    (armed : hook.map Hook.function = some killHook) (filled : slot = .lightuserdata callCtxPointer) :
    SeesKill rt hook slot := by
  rintro state kind ⟨frame, base, breached, lua, host, calls⟩ rfl rfl
  have named : lua.hook.map Hook.function = some (userSetting rt state kind).hookName := armed
  have live : requireRunCtx ⟨[], frame ++ base, false, lua, host, calls⟩ = _ :=
    requireRunCtx_live filled
  simp [Setting.perform, named, catching, inFrame, userSetting, luajitMaskCountHook, live,
    luajitPushError, luajitPushErrorBuff_apply]

theorem Killable.seesKills {rt : Runtime} {core : Core CallHost} (killable : Killable core) :
    SeesKills rt core where
  code kind hook slot call executed := by
    obtain ⟨armed, filled, -⟩ := killable.code _ executed
    exact seesKill_of_watched armed filled
  metamethods call called := by
    obtain ⟨armed, filled⟩ := killable.metamethods call called
    exact seesKill_of_watched armed filled

namespace System

/-- All code of scripts that executes in the request is watched, and a kill is seen wherever it
executes. -/
def CallsKillable (rt : Runtime) (system : System) : Request → Prop
  | .call username handle keys args load body =>
      let final := (callOutcome rt system.ctx username handle keys args load body).world.core
      Killable final ∧ SeesKills rt final
  | _ => True

/-- The request loads no library into a user's state. -/
def LoadsNothing (rt : Runtime) (system : System) : Request → Prop
  | .call username handle _ _ _ _ =>
      ¬ startsLibrary rt system.ctx ((userState system.ctx username).of handle.type).lua
        handle.compiled.function
  | _ => True

/-- In every run, all code of scripts is watched whenever it executes in a user's state, and a
kill seen, exactly when no call loads a library. -/
theorem killable_throughout_iff (rt : Runtime) (enableFfiApi : Bool) (requests : List Request)
    (run : (machine rt).Run (initial enableFfiApi) requests) :
    (machine rt).Along (CallsKillable rt) (initial enableFfiApi) requests ↔
      (machine rt).Along (LoadsNothing rt) (initial enableFfiApi) requests := by
  refine InputMachine.Run.along_iff ?_ (sound_throughout run) run
  intro system request sound admitted
  cases request with
  | call username handle keys args load body =>
      have prepared := sound admitted.1
      have called := callOutcome_called rt prepared username handle keys args load body
      have watched := called.killable_iff (prepared.of username handle).toIdle ⟨by simp, by simp⟩
      exact (and_iff_left_of_imp Killable.seesKills).trans watched
  | _ => exact Iff.rfl

/-- A library is compiled and its function called. -/
def firstCall : List Request :=
  [.compile .function [1] 1 registersOne, .call [] firstHandle [] [] loadsOne idleBody]

/-- While the first call loads the library, neither the hook nor a run context is there. -/
theorem first_call_unwatched : (machine .plain).Run (initial false) firstCall ∧
    ¬ (machine .plain).Along (CallsKillable .plain) (initial false) firstCall := by
  refine ⟨⟨rfl, ⟨rfl, by decide⟩, trivial⟩, ?_⟩
  rintro ⟨-, ⟨killable, -⟩, -⟩
  have unwatched := killable.code (.userCode .library none .nil none) (by decide +kernel)
  simp [WatchedEvent] at unwatched

/-- An EVAL script is watched throughout. -/
theorem eval_watched : (machine .plain).Along (CallsKillable .plain) (initial false)
    [.compile .eval [1] 0 idleBody,
      .call [] ⟨⟨none, none, ⟨.source [1], 1⟩, 0⟩, [1], 0, 0⟩ [] [] idleBody idleBody] := by
  have run : (machine .plain).Run (initial false)
      [.compile .eval [1] 0 idleBody,
        .call [] ⟨⟨none, none, ⟨.source [1], 1⟩, 0⟩, [1], 0, 0⟩ [] [] idleBody idleBody] :=
    ⟨rfl, ⟨rfl, by decide⟩, trivial⟩
  refine (killable_throughout_iff .plain false _ run).mpr ⟨trivial, ?_, trivial⟩
  rintro ⟨-, name, libId, lib, data, -⟩
  simp at data

end System

end ValkeyLuajit
