import ValkeyLuajit.Engine.Users
import ValkeyLuajit.Library.Noninterference
import ValkeyLuajit.Script.Dialogue

/-!
# Users do not see each other

Every user has Lua states of his own, and what his calls do depends on these, on the
libraries and on what the server answers. There is one thing besides that all calls
share, the static flag of `luajitServerGenericCommand`. As long as other users' calls
leave it as it was, a user sees the same in every run with the same calls of his own
and the same compilations, releases and resets. User names reach the engine as C
strings.
-/

namespace ValkeyLuajit

open Lua

/-- What the code of a call does, by the user's Lua state when the call begins: the
top-level code of the library, if it has to be loaded, and the callback. -/
structure Conduct where
  load : State → Dialogue
  body : State → Dialogue

/-- What the server asks of the engine. -/
inductive Operation where
  | compile (type : SubsystemType) (code : Bytes) (fuel : Nat) (topLevel : ScriptRun)
  | call (username : Bytes) (handle : Held) (keys args : List Bytes) (conduct : Conduct)
  | free (handle : Held)
  | reset (type : SubsystemType) (async insecure : Bool)

namespace System

/-- Two engines that a user cannot tell apart. -/
structure Alike (user : Bytes) (left right : System) : Prop where
  states : left.ctx.userStates.lookup (cString user) = right.ctx.userStates.lookup (cString user)
  ctx : { left.ctx with userStates := ∅ } = { right.ctx with userStates := ∅ }
  held : left.held = right.held
  compilations : left.compilations = right.compilations
  generation : left.generation = right.generation

/-- The users' states make no difference to a compilation. -/
theorem luajitEngineCompileCode_userStates {rt : Runtime} (ctx : EngineCtx)
    (users : AList fun _ : Bytes => PerUserState) (type : SubsystemType) (code : Bytes)
    (fuel : Nat) (topLevel : ScriptRun) :
    luajitEngineCompileCode rt { ctx with userStates := users } type code fuel topLevel =
      (luajitEngineCompileCode rt ctx type code fuel topLevel).map fun result =>
        ({ result.1 with userStates := users }, result.2) := by
  unfold luajitEngineCompileCode
  split
  · cases compileEval rt code <;> rfl
  · split <;> rfl

namespace Alike

variable {rt : Runtime} {user username : Bytes} {left right : System}

theorem refl (user : Bytes) (system : System) : Alike user system system :=
  ⟨rfl, rfl, rfl, rfl, rfl⟩

theorem symm (alike : Alike user left right) : Alike user right left where
  states := alike.states.symm
  ctx := alike.ctx.symm
  held := alike.held.symm
  compilations := alike.compilations.symm
  generation := alike.generation.symm

/-- The engines differ in the users at most. -/
theorem ctx_eq (alike : Alike user left right) :
    right.ctx = { left.ctx with userStates := right.ctx.userStates } := by
  calc right.ctx
      = { { right.ctx with userStates := ∅ } with userStates := right.ctx.userStates } := rfl
    _ = { { left.ctx with userStates := ∅ } with userStates := right.ctx.userStates } := by
        rw [alike.ctx]
    _ = { left.ctx with userStates := right.ctx.userStates } := rfl

/-- The user's states are the same, also when they are yet to be made. -/
theorem userState_eq (alike : Alike user left right) (own : cString username = cString user) :
    userState right.ctx username = userState left.ctx username := by
  have made : createPerUserState right.ctx = createPerUserState left.ctx := by
    rw [alike.ctx_eq]
    rfl
  rw [userState, userState, own, alike.states, made]

/-- It makes no difference whether the process is gone. -/
theorem crashed (alike : Alike user left right) (gone lost : Bool) :
    Alike user { left with crashed := gone } { right with crashed := lost } :=
  ⟨alike.states, alike.ctx, alike.held, alike.compilations, alike.generation⟩

variable (rt) in
theorem compile (alike : Alike user left right) (type : SubsystemType) (code : Bytes)
    (fuel : Nat) (topLevel : ScriptRun) :
    Alike user (left.step rt (.compile type code fuel topLevel))
      (right.step rt (.compile type code fuel topLevel)) := by
  have states : (left.step rt (.compile type code fuel topLevel)).ctx.userStates.lookup
        (cString user) =
      (right.step rt (.compile type code fuel topLevel)).ctx.userStates.lookup (cString user) := by
    rw [step_compile_userStates, step_compile_userStates, alike.states]
  have same := @luajitEngineCompileCode_userStates rt left.ctx right.ctx.userStates type code fuel
    topLevel
  rw [← alike.ctx_eq] at same
  simp only [step, same] at states ⊢
  cases run : luajitEngineCompileCode rt left.ctx type code fuel topLevel with
  | none => exact ⟨alike.states, alike.ctx, alike.held, alike.compilations, alike.generation⟩
  | some result =>
      obtain ⟨after, message | functions⟩ := result
      · refine ⟨?_, rfl, alike.held, congrArg (· + 1) alike.compilations, alike.generation⟩
        simpa [run] using states
      · refine ⟨?_, rfl, ?_, congrArg (· + 1) alike.compilations, alike.generation⟩
        · simpa [run] using states
        · simp only [Option.map_some, alike.held, alike.compilations, alike.generation]

variable (rt) in
theorem free (alike : Alike user left right) (handle : Held) :
    Alike user (left.step rt (.free handle)) (right.step rt (.free handle)) where
  states := by
    rw [step_free_lookup, step_free_lookup, alike.states]
  ctx := by
    simp only [step, luajitEngineFreeFunction]
    rw [alike.ctx_eq]
    cases handle.compiled.function.data <;> rfl
  held := congrArg (List.erase · handle) alike.held
  compilations := alike.compilations
  generation := alike.generation

variable (rt) in
theorem reset (alike : Alike user left right) (type : SubsystemType) (async insecure : Bool) :
    Alike user (left.step rt (.reset type async insecure))
      (right.step rt (.reset type async insecure)) where
  states := by
    have renewed : renewedState (resetLibraries right.ctx type) type =
        renewedState (resetLibraries left.ctx type) type := by
      rw [alike.ctx_eq]
      cases type <;> rfl
    rw [step_reset_lookup, step_reset_lookup, alike.states, renewed]
  ctx := by
    simp only [step, luajitEngineResetEnv]
    rw [alike.ctx_eq]
    cases type <;> rfl
  held := alike.held
  compilations := alike.compilations
  generation := by
    simp only [step, alike.generation]

/-- The rest of the engine's data decides how a call goes, together with the user's states. -/
theorem callOutcome_eq (alike : Alike user left right) (own : cString username = cString user)
    (handle : Held) (keys args : List Bytes) (load body : ScriptRun) :
    callOutcome rt right.ctx username handle keys args load body =
      callOutcome rt left.ctx username handle keys args load body := by
  unfold callOutcome
  rw [alike.userState_eq own, alike.ctx_eq]
  rfl

variable (rt) in
theorem call (alike : Alike user left right) (own : cString username = cString user)
    (handle : Held) (keys args : List Bytes) (load body : ScriptRun) :
    Alike user (left.step rt (.call username handle keys args load body))
      (right.step rt (.call username handle keys args load body)) where
  states := by
    rw [step_call_lookup, step_call_lookup, alike.states, alike.userState_eq own,
      alike.callOutcome_eq own]
  ctx := by
    simp only [step, ValkeyLuajit.callCtx]
    rw [alike.ctx_eq]
  held := alike.held
  compilations := alike.compilations
  generation := alike.generation

variable (rt) in
/-- A call by another user changes nothing for this one. -/
theorem otherCall (alike : Alike user left right) (other : cString username ≠ cString user)
    (handle : Held) (keys args : List Bytes) (load body : ScriptRun) :
    Alike user (left.step rt (.call username handle keys args load body)) right where
  states := by
    rw [step_call_lookup, if_neg (Ne.symm other), alike.states]
  ctx := alike.ctx
  held := alike.held
  compilations := alike.compilations
  generation := alike.generation

end Alike

end System

/-- The event says that a callback was entered. -/
def Event.entersBody : Event → Bool
  | .entered .body _ _ => true
  | _ => false

/-- The engine with the flag. -/
structure Process where
  system : System
  inuse : Nat

namespace Process

/-- The engine after it was loaded. -/
def initial (enableFfiApi : Bool) : Process := ⟨.initial enableFfiApi, 0⟩

section

variable (rt : Runtime) (fpconv : Number → Bytes) (process : Process)

/-- The Lua state a function is called in. -/
def userLua (username : Bytes) (handle : Held) : State :=
  ((userState process.system.ctx username).of handle.type).lua

/-- The top-level code of a library runs without a run context. -/
def playLoad (username : Bytes) (handle : Held) (conduct : Conduct) : Played :=
  (conduct.load (process.userLua username handle)).play rt fpconv
    (process.userLua username handle) (newCallCtx process.system.ctx handle.type) process.inuse

/-- A callback runs under the run context of its call. -/
def playBody (username : Bytes) (handle : Held) (conduct : Conduct) : Played :=
  (conduct.body (process.userLua username handle)).play rt fpconv
    (process.userLua username handle).arm (newCallCtx process.system.ctx handle.type) process.inuse

/-- How a call goes. -/
def outcome (username : Bytes) (handle : Held) (keys args : List Bytes) (conduct : Conduct) :
    Outcome CallHost Unit :=
  callOutcome rt process.system.ctx username handle keys args
    (process.playLoad rt fpconv username handle conduct).run
    (process.playBody rt fpconv username handle conduct).run

/-- The callback is entered. -/
def bodyRuns (username : Bytes) (handle : Held) (keys args : List Bytes) (conduct : Conduct) :
    Bool :=
  (process.outcome rt fpconv username handle keys args conduct).world.host.trace.any
    Event.entersBody

/-- The request an operation comes to. -/
def request : Operation → Request
  | .compile type code fuel topLevel => .compile type code fuel topLevel
  | .call username handle keys args conduct =>
      .call username handle keys args (process.playLoad rt fpconv username handle conduct).run
        (process.playBody rt fpconv username handle conduct).run
  | .free handle => .free handle
  | .reset type async insecure => .reset type async insecure

/-- One operation. A callback that was entered leaves the flag, unless the process is gone
with it. -/
def step (operation : Operation) : Process :=
  let system := process.system.step rt (process.request rt fpconv operation)
  match operation with
  | .call username handle keys args conduct =>
      if process.bodyRuns rt fpconv username handle keys args conduct then
        let played := process.playBody rt fpconv username handle conduct
        ⟨{ system with crashed := system.crashed || played.aborted }, played.inuse⟩
      else ⟨system, process.inuse⟩
  | _ => ⟨system, process.inuse⟩

/-- The engine, its server and the scripts as a machine. -/
def machine : InputMachine Process Operation where
  Admits := fun process operation => process.system.Admits (process.request rt fpconv operation)
  step := step rt fpconv

instance (enableFfiApi : Bool) (operations : List Operation) :
    Decidable ((machine rt fpconv).Run (initial enableFfiApi) operations) :=
  @InputMachine.decidableAlong _ _ (machine rt fpconv) (machine rt fpconv).Admits
    (fun process operation => inferInstanceAs (Decidable (process.system.Admits
      (process.request rt fpconv operation)))) (initial enableFfiApi) operations

/-- What a user sees of an operation: his states after it, and of his own calls the
function that is entered, the reply and everything else that is noted. -/
structure View where
  states : Option PerUserState
  events : List Event

def view (user : Bytes) (operation : Operation) : View where
  states := (process.step rt fpconv operation).system.ctx.userStates.lookup (cString user)
  events :=
    match operation with
    | .call username handle keys args conduct =>
        (process.outcome rt fpconv username handle keys args conduct).world.host.trace
    | _ => []

end

/-- Calls of other users do not count. -/
def countsFor (user : Bytes) : Operation → Bool
  | .call username _ _ _ _ => cString username = cString user
  | _ => true

/-- What a user sees in a run. -/
def viewsOf (rt : Runtime) (fpconv : Number → Bytes) (enableFfiApi : Bool) (user : Bytes)
    (operations : List Operation) : List View :=
  (machine rt fpconv).seen (countsFor user) (fun process operation =>
    process.view rt fpconv user operation) (initial enableFfiApi) operations

/-- Should the callback run, the server does not answer one of its commands with a null that
becomes a key. -/
def LeavesFlag (rt : Runtime) (fpconv : Number → Bytes) (process : Process) (username : Bytes)
    (handle : Held) (keys args : List Bytes) (conduct : Conduct) : Prop :=
  process.bodyRuns rt fpconv username handle keys args conduct →
    ¬ (conduct.body (process.userLua username handle)).MeetsNullKey rt fpconv
      (process.userLua username handle).arm (newCallCtx process.system.ctx handle.type)
      process.inuse

/-- The calls of other users leave the flag. -/
def OthersLeaveFlag (rt : Runtime) (fpconv : Number → Bytes) (user : Bytes) (process : Process) :
    Operation → Prop
  | .call username handle keys args conduct => cString username ≠ cString user →
      process.LeavesFlag rt fpconv username handle keys args conduct
  | _ => True

/-- Two processes that a user cannot tell apart. -/
structure Alike (user : Bytes) (left right : Process) : Prop where
  system : System.Alike user left.system right.system
  inuse : left.inuse = right.inuse

section Calls

variable {rt : Runtime} {fpconv : Number → Bytes} {process left right : Process}
  {user username : Bytes} {handle : Held} {keys args : List Bytes} {conduct : Conduct}

/-- A call leaves the flag exactly as the condition says. -/
theorem step_call_inuse_iff :
    (process.step rt fpconv (.call username handle keys args conduct)).inuse = process.inuse ↔
      process.LeavesFlag rt fpconv username handle keys args conduct := by
  unfold step LeavesFlag
  dsimp only
  split
  · rename_i runs
    apply Dialogue.play_inuse_iff.trans
    exact ⟨fun unmet _ => unmet, fun unmet => unmet runs⟩
  · rename_i idle
    exact iff_of_true rfl fun runs => absurd runs idle

namespace Alike

theorem symm (alike : Alike user left right) : Alike user right left :=
  ⟨alike.system.symm, alike.inuse.symm⟩

variable (rt fpconv handle conduct) in
/-- The user's calls go the same way. -/
theorem plays_eq (alike : Alike user left right) (own : cString username = cString user) :
    right.userLua username handle = left.userLua username handle ∧
      right.playLoad rt fpconv username handle conduct =
        left.playLoad rt fpconv username handle conduct ∧
      right.playBody rt fpconv username handle conduct =
        left.playBody rt fpconv username handle conduct := by
  have lua : right.userLua username handle = left.userLua username handle := by
    rw [userLua, userLua, alike.system.userState_eq own]
  have callCtx : newCallCtx right.system.ctx handle.type = newCallCtx left.system.ctx handle.type := by
    rw [alike.system.ctx_eq]
    rfl
  refine ⟨lua, ?_, ?_⟩
  · rw [playLoad, playLoad, lua, callCtx, alike.inuse]
  · rw [playBody, playBody, lua, callCtx, alike.inuse]

theorem outcome_eq (alike : Alike user left right) (own : cString username = cString user) :
    right.outcome rt fpconv username handle keys args conduct =
      left.outcome rt fpconv username handle keys args conduct := by
  obtain ⟨-, load, body⟩ := alike.plays_eq rt fpconv handle conduct own
  rw [outcome, outcome, load, body, alike.system.callOutcome_eq own]

variable (rt fpconv handle keys args conduct) in
/-- A call by the user leads to processes he cannot tell apart. -/
theorem call (alike : Alike user left right) (own : cString username = cString user) :
    Alike user (left.step rt fpconv (.call username handle keys args conduct))
      (right.step rt fpconv (.call username handle keys args conduct)) := by
  obtain ⟨-, load, body⟩ := alike.plays_eq rt fpconv handle conduct own
  have runs : right.bodyRuns rt fpconv username handle keys args conduct =
      left.bodyRuns rt fpconv username handle keys args conduct := by
    rw [bodyRuns, bodyRuns, alike.outcome_eq own]
  have system := alike.system.call rt own handle keys args
    (left.playLoad rt fpconv username handle conduct).run
    (left.playBody rt fpconv username handle conduct).run
  simp only [step, request, runs, load, body]
  split
  · exact ⟨system.crashed _ _, rfl⟩
  · exact ⟨system, alike.inuse⟩

/-- So does a call by another user that leaves the flag. -/
theorem otherCall (alike : Alike user left right) (other : cString username ≠ cString user)
    (leaves : left.LeavesFlag rt fpconv username handle keys args conduct) :
    Alike user (left.step rt fpconv (.call username handle keys args conduct)) right where
  system := by
    have system := alike.system.otherCall rt other handle keys args
      (left.playLoad rt fpconv username handle conduct).run
      (left.playBody rt fpconv username handle conduct).run
    simp only [step, request]
    split
    · exact system.crashed _ right.system.crashed
    · exact system
  inuse := (step_call_inuse_iff.mpr leaves).trans alike.inuse

variable (rt fpconv) in
/-- The operations that count keep two processes indistinguishable. -/
theorem counted (alike : Alike user left right) (operation : Operation)
    (counts : countsFor user operation) :
    Alike user (left.step rt fpconv operation) (right.step rt fpconv operation) := by
  cases operation with
  | call username handle keys args conduct =>
      have own : cString username = cString user := by simpa [countsFor] using counts
      exact alike.call rt fpconv handle keys args conduct own
  | compile type code fuel topLevel =>
      exact ⟨alike.system.compile rt type code fuel topLevel, alike.inuse⟩
  | free handle => exact ⟨alike.system.free rt handle, alike.inuse⟩
  | reset type async insecure => exact ⟨alike.system.reset rt type async insecure, alike.inuse⟩

end Alike

variable (rt fpconv user) in
/-- The operations that count keep two processes indistinguishable, and the calls of others
make no difference. -/
theorem isolation_unwinding : (machine rt fpconv).Unwinding (countsFor user)
    (fun process operation => process.view rt fpconv user operation)
    (OthersLeaveFlag rt fpconv user) (Alike user) where
  symm := Alike.symm
  counted := by
    intro left right operation alike counts _ _
    have next := alike.counted rt fpconv operation counts
    refine ⟨?_, next⟩
    unfold view
    rw [next.system.states]
    cases operation with
    | call username handle keys args conduct =>
        have own : cString username = cString user := by simpa [countsFor] using counts
        simp only [alike.outcome_eq own]
    | compile | free | reset => rfl
  uncounted := by
    intro left right operation alike counts leaves
    cases operation with
    | call username handle keys args conduct =>
        have other : cString username ≠ cString user := by simpa [countsFor] using counts
        exact alike.otherCall other (leaves other)
    | compile | free | reset => cases counts

end Calls

/-- What a user sees depends on the compilations, releases and resets and on his own calls,
in runs in which no call of another user leaves the flag changed. -/
theorem users_isolated (rt : Runtime) (fpconv : Number → Bytes) (enableFfiApi : Bool)
    (user : Bytes) {first second : List Operation}
    (firstLeaves : (machine rt fpconv).Along (OthersLeaveFlag rt fpconv user)
      (initial enableFfiApi) first)
    (secondLeaves : (machine rt fpconv).Along (OthersLeaveFlag rt fpconv user)
      (initial enableFfiApi) second)
    (same : first.filter (countsFor user) = second.filter (countsFor user)) :
    viewsOf rt fpconv enableFfiApi user first = viewsOf rt fpconv enableFfiApi user second :=
  ((isolation_unwinding rt fpconv user).seen_eq ⟨.refl user _, rfl⟩ firstLeaves secondLeaves
    same).1

/-- A script that asks for a set in RESP3, into which the server puts a null. -/
def asksForSet : Conduct where
  load := fun _ => .finish (.ok .nil)
  body := fun lua =>
    .call .setresp lua.heap [] [.number (.finite 3)] ⟨.null, 0, false⟩ fun _ heap =>
      .call .call heap [] [.string (bytes "SMEMBERS"), .string (bytes "k")]
        ⟨.set [.null], 0, false⟩ fun result _ => .finish result

/-- A script that returns what a command gives. -/
def pings : Conduct where
  load := fun _ => .finish (.ok .nil)
  body := fun lua =>
    .call .call lua.heap [] [.string (bytes "PING")] ⟨.simpleString (bytes "PONG"), 0, false⟩
      fun result _ => .finish result

/-- A script that asks for a set with an element in it, and for a null that becomes a value. -/
def asksTwice : Conduct where
  load := fun _ => .finish (.ok .nil)
  body := fun lua =>
    .call .setresp lua.heap [] [.number (.finite 3)] ⟨.null, 0, false⟩ fun _ heap =>
      .call .call heap [] [.string (bytes "SMEMBERS"), .string (bytes "k")]
        ⟨.set [.simpleString (bytes "a")], 0, false⟩ fun _ heap =>
          .call .pcall heap [] [.string (bytes "GET"), .string (bytes "k")] ⟨.null, 0, false⟩
            fun result _ => .finish result

def evalHandle : Held := ⟨⟨none, none, ⟨.source (bytes "return"), 1⟩, 0⟩, bytes "return", 0, 0⟩

/-- One user calls after another has called with this conduct. -/
def afterCallOf (conduct : Conduct) : List Operation :=
  [.compile .eval (bytes "return") 0 System.idleBody,
    .call (bytes "alice") evalHandle [] [] conduct, .call (bytes "bob") evalHandle [] [] pings]

/-- The same without the other user's call. -/
def withoutCall : List Operation :=
  [.compile .eval (bytes "return") 0 System.idleBody,
    .call (bytes "bob") evalHandle [] [] pings]

/-- After a null in a set, commands of every user are refused. -/
theorem flag_carries_over : ¬ ∀ (rt : Runtime) (fpconv : Number → Bytes) (enableFfiApi : Bool)
    (user : Bytes) (first second : List Operation),
    (machine rt fpconv).Run (initial enableFfiApi) first →
    (machine rt fpconv).Run (initial enableFfiApi) second →
    first.filter (countsFor user) = second.filter (countsFor user) →
      viewsOf rt fpconv enableFfiApi user first = viewsOf rt fpconv enableFfiApi user second := by
  intro isolated
  have same := isolated .plain (fun _ => []) false (bytes "bob") (afterCallOf asksForSet)
    withoutCall (by decide +kernel) (by decide +kernel) rfl
  have events := congrArg (List.map View.events) same
  revert events
  decide +kernel

/-- A call whose commands meet no null as a key is not seen. -/
theorem commands_unseen :
    viewsOf .plain (fun _ => []) false (bytes "bob") (afterCallOf asksTwice) =
      viewsOf .plain (fun _ => []) false (bytes "bob") withoutCall :=
  users_isolated .plain (fun _ => []) false (bytes "bob")
    ⟨trivial, fun _ _ => Dialogue.play_inuse_iff.mp (by decide +kernel),
      fun other => absurd rfl other, trivial⟩
    ⟨trivial, fun other => absurd rfl other, trivial⟩ rfl

end Process

end ValkeyLuajit
