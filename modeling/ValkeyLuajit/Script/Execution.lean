import ValkeyLuajit.Function.Register
import ValkeyLuajit.Function.UserRegister

/-!
# Running user-supplied code

What a script computes is its own business: a run of it is any list of actions
with any outcome. It changes the heap, calls functions of the module that its
state exposes, and lets the count hook go off. Errors a script catches end no
run, so an action that raises is followed by the next one; the outcome says what
reached `lua_pcall`. A function that a metamethod calls is an action of its own.
-/

namespace ValkeyLuajit

open Lua

/-- The functions of the module that a state may expose under `server`. -/
inductive ServerFunction where
  | call | pcall | log | setresp | sha1hex | errorReply | statusReply | setRepl | aclCheckCmd
  | breakpoint | debug | replicateCommands
  /-- `server.register_function` of the scratch state. -/
  | registerFunction
  /-- `server.register_function` of a user's function state. -/
  | userRegisterFunction
deriving DecidableEq

/-- The kinds of Lua state user code runs in. -/
inductive StateKind where
  | scratch | eval | function
deriving DecidableEq

/-- The functions `luajitRegisterServerAPI` puts into the `server` table. -/
def serverApi : List ServerFunction :=
  [.call, .pcall, .log, .setresp, .sha1hex, .errorReply, .statusReply, .setRepl, .aclCheckCmd]

/-- The functions of the `server` table of each kind of state. -/
def StateKind.exposed : StateKind → List ServerFunction
  | .scratch => [.registerFunction, .log]
  | .eval => serverApi ++ [.breakpoint, .debug, .replicateCommands]
  | .function => serverApi ++ [.userRegisterFunction]

/-- The functions that assert a run context. -/
def ServerFunction.assertsRunCtx : ServerFunction → Bool
  | .call | .pcall | .log | .setresp | .setRepl | .aclCheckCmd => true
  | _ => false

/-- One thing a script does. -/
inductive Action where
  /-- Lua code runs and leaves this heap. -/
  | step (heap : Heap)
  /-- A function of the module is called. -/
  | call (function : ServerFunction) (arguments : List Value)
  /-- The hook's interval passes; the signal is what the hook is about to see, a
  killed execution state or an expired load. -/
  | tick (signal : Bool)

/-- A run of user-supplied code: what it does, and what it returns or raises. -/
structure ScriptRun where
  actions : List Action
  outcome : Except Value Value

/-- What a state has in store for the code that runs in it. -/
structure Setting (σ : Type) where
  exposed : List ServerFunction
  native : ServerFunction → LuaM σ Unit
  /-- The function `lua_sethook` installed, and what it does. -/
  hookName : String
  hook : Bool → LuaM σ Unit
  /-- What an observer notes before every action. -/
  observe : LuaM σ Unit

section

variable {σ : Type}

/-- Run an operation whose error the script may catch. -/
def catching (operation : LuaM σ Unit) : LuaM σ Unit := fun world =>
  match operation world with
  | .raised _ final => .done () final
  | other => other

/-- Perform one action. -/
def Setting.perform (setting : Setting σ) : Action → LuaM σ Unit
  | .step heap => fun world => .done () (world.setHeap heap)
  | .call function arguments =>
      if function ∈ setting.exposed then
        catching (inFrame arguments (setting.native function))
      else pure ()
  | .tick signal => fun world =>
      if world.lua.hook.map Hook.function = some setting.hookName then
        catching (inFrame [] (setting.hook signal)) world
      else .done () world

/-- Perform the actions in order. -/
def Setting.performAll (setting : Setting σ) : List Action → LuaM σ Unit
  | [] => pure ()
  | action :: rest => do
      setting.observe
      setting.perform action
      setting.performAll rest

/-- After an action that ends normally the others follow. -/
theorem Setting.performAll_cons_of_done {setting : Setting σ} {action : Action}
    {rest : List Action} {world observed next : World σ}
    (observes : setting.observe world = .done () observed)
    (performs : setting.perform action observed = .done () next) :
    setting.performAll (action :: rest) world = setting.performAll rest next := by
  rw [performAll, LuaM.bind_apply, observes, Outcome.andThen_done, LuaM.bind_apply, performs,
    Outcome.andThen_done]

/-- Run a script under `lua_pcall`. -/
def Setting.run (setting : Setting σ) (script : ScriptRun) : LuaM σ (List Value) := do
  setting.performAll script.actions
  match script.outcome with
  | .ok value => pure [value]
  | .error error => luaError error

/-- A script that returns has performed its actions, and returns one value. -/
theorem Setting.run_eq_done {setting : Setting σ} {script : ScriptRun} {world final : World σ}
    {results : List Value} : setting.run script world = .done results final ↔
      setting.performAll script.actions world = .done () final ∧
        ∃ value, script.outcome = .ok value ∧ results = [value] := by
  rw [Setting.run, LuaM.bind_apply, Outcome.andThen_eq_done]
  constructor
  · rintro ⟨_, mid, performed, ended⟩
    cases outcome : script.outcome with
    | ok value =>
        rw [outcome] at ended
        cases ended
        exact ⟨performed, value, rfl, rfl⟩
    | error error =>
        rw [outcome] at ended
        cases ended
  · rintro ⟨performed, value, returns, rfl⟩
    exact ⟨(), final, performed, by rw [returns]; rfl⟩

end

section

variable (rt : Runtime)

/-- `lua_tonumber`. -/
def Lua.Value.toNumber : Value → Option Number
  | .number value => some value
  | .string text => rt.stringNumber text
  | _ => none

/-- `(int)` of a Lua number. C leaves a value out of range undefined; what x86-64
computes is the least 32-bit integer. -/
def Lua.Number.toInt : Number → Int
  | .finite value =>
      let whole := value.num.tdiv value.den
      if -(2 : Int) ^ 31 ≤ whole ∧ whole < 2 ^ 31 then whole else -(2 : Int) ^ 31
  | _ => -(2 : Int) ^ 31

/-- The `int` a function of the module reads from its last argument, 0 when it is
not a number. -/
def lastArgumentInt : LuaM CallHost Int := do
  let last ← luaValue (-1)
  pure (((last.toNumber rt).map Number.toInt).getD 0)

/-- Change the run context of the call. -/
def modifyCallCtx (change : FuncCallCtx → FuncCallCtx) : LuaM CallHost Unit := fun world =>
  .done () (world.setHost { world.host with callCtx := world.host.callCtx.map change })

/-- `server.setresp`. -/
def luajitSetResp : LuaM CallHost Unit := do
  requireRunCtx
  let argc ← luaGetTop
  if argc ≠ 1 then do
    luajitPushError rt "server.setresp() requires one argument."
    luajitError
  else do
    let resp ← lastArgumentInt rt
    if resp ≠ 2 ∧ resp ≠ 3 then do
      luajitPushError rt "RESP version must be 2 or 3."
      luajitError
    else modifyCallCtx fun callCtx => { callCtx with resp := resp.toNat }

/-- `server.set_repl`: no bits besides the two propagation flags. -/
def luajitRedisSetReplCommand : LuaM CallHost Unit := do
  let argc ← luaGetTop
  requireRunCtx
  if argc ≠ 1 then do
    luajitPushError rt "server.set_repl() requires one argument."
    luajitError
  else do
    let flags ← lastArgumentInt rt
    if flags < 0 ∨ flags > propagateAof + propagateRepl then do
      luajitPushError rt
        "Invalid replication flags. Use REPL_AOF, REPL_REPLICA, REPL_ALL or REPL_NONE."
      luajitError
    else modifyCallCtx fun callCtx => { callCtx with replicationFlags := flags.toNat }

/-- Note what the registration whose arguments are in the frame is about to bind. -/
def noteRegistration (kind : CodeKind) : LuaM CallHost Unit := fun world =>
  match (resolveRegistration rt world.lua world.metaCalls world.frame.reverse).1 with
  | .ok (name, callback) => emit (.registered kind (cString name) callback) world
  | .error _ => .done () world

/-- The functions a user's state exposes. Those that only hand a value to the
script do to the C side what is said here; the value is an action of the script. -/
def userNative (kind : CodeKind) : ServerFunction → LuaM CallHost Unit
  | .setresp => luajitSetResp rt
  | .setRepl => luajitRedisSetReplCommand rt
  | .userRegisterFunction => do
      noteRegistration rt kind
      luajitUserStateRegisterFunction rt
  | .call | .pcall | .log | .aclCheckCmd => requireRunCtx
  | _ => pure ()

/-- Note under which hook and run context user code executes. -/
def observeUserCode (kind : CodeKind) : LuaM CallHost Unit := fun world =>
  emit (.userCode kind world.lua.hook (world.lua.registry registryRunCtxName)
    world.host.callCtx) world

/-- A user's state. -/
def userSetting (state : StateKind) (kind : CodeKind) : Setting CallHost where
  exposed := state.exposed
  native := userNative rt kind
  hookName := "luajitMaskCountHook"
  hook := luajitMaskCountHook rt
  observe := observeUserCode kind

/-- `lua_pcall` enters user-supplied code. -/
def enterUserCode (state : StateKind) (kind : CodeKind) (script : ScriptRun) (callee : FuncRef)
    (arguments : List Value) : LuaM CallHost (List Value) := do
  emit (.entered kind callee arguments)
  observeUserCode kind
  (userSetting rt state kind).run script

/-- The hook of `FUNCTION LOAD`: an expired load raises, and the hook then fires
on every line. -/
def luajitEngineLoadHook (expired : Bool) : LuaM LoadHost Unit := do
  let loadCtx ← luajitGetFromRegistry registryLoadCtxName
  moduleAssert loadCtx.isSome "load_ctx"
  if expired then do
    luaSetHook (some ⟨"luajitEngineLoadHook", .line⟩)
    luajitPushError rt "FUNCTION LOAD timeout"
    luajitError
  else pure ()

/-- The functions the scratch state exposes. -/
def scratchNative (fuel : Nat) : ServerFunction → LuaM LoadHost Unit
  | .registerFunction => luajitFunctionRegisterFunction rt fuel
  | .log => requireRunCtx
  | _ => pure ()

/-- The scratch state of `FUNCTION LOAD`. -/
def scratchSetting (fuel : Nat) : Setting LoadHost where
  exposed := StateKind.scratch.exposed
  native := scratchNative rt fuel
  hookName := "luajitEngineLoadHook"
  hook := luajitEngineLoadHook rt
  observe := pure ()

end

end ValkeyLuajit
