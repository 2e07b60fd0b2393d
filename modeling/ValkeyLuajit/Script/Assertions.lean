import ValkeyLuajit.Function.Load
import ValkeyLuajit.Script.Effects

/-!
# The assertion on the run context

`ValkeyModule_Assert(rctx)` kills the server when a function that needs a run
context is called without one. In a state whose slot is empty, code comes to grief
exactly when it calls such a function that its state exposes.
-/

namespace ValkeyLuajit

open Lua

/-- The text of the assertion on the run context. -/
def runCtxAssertion : String := "rctx"

/-- The operation leaves the registry alone, and the assertion on the run context is
none of its doing. -/
structure Calm {σ α : Type} (operation : LuaM σ α) : Prop where
  registry : ∀ world, (operation world).world.lua.registry = world.lua.registry
  passes : ∀ world final, operation world ≠ .aborted runCtxAssertion final

namespace Calm

variable {σ α β : Type} {rt : Runtime}

/-- Calm operations are closed under sequencing. -/
theorem bind {first : LuaM σ α} {next : α → LuaM σ β} (before : Calm first)
    (after : ∀ value, Calm (next value)) : Calm (first >>= next) where
  registry := by
    intro world
    have here := before.registry world
    rw [LuaM.bind_apply]
    cases ended : first world with
    | done value mid =>
        rw [ended] at here
        exact ((after value).registry mid).trans here
    | raised error mid => rwa [ended] at here
    | aborted reason mid => rwa [ended] at here
  passes := by
    intro world final
    have here := before.passes world
    rw [LuaM.bind_apply]
    cases ended : first world with
    | done value mid => exact (after value).passes mid final
    | raised error mid => simp
    | aborted reason mid =>
        rw [ended] at here
        simpa using here final

/-- An operation that always ends and leaves the state alone. -/
theorem of_done {operation : LuaM σ α} (ends : ∀ world, ∃ value final,
    operation world = .done value final ∧ final.lua.registry = world.lua.registry) :
    Calm operation where
  registry := by
    intro world
    obtain ⟨value, final, ended, same⟩ := ends world
    rw [ended]
    exact same
  passes := by
    intro world final
    obtain ⟨value, other, ended, -⟩ := ends world
    simp [ended]

/-- An operation that always raises. -/
theorem of_raised {operation : LuaM σ α} (ends : ∀ world, ∃ error final,
    operation world = .raised error final ∧ final.lua.registry = world.lua.registry) :
    Calm operation where
  registry := by
    intro world
    obtain ⟨error, final, ended, same⟩ := ends world
    rw [ended]
    exact same
  passes := by
    intro world final
    obtain ⟨error, other, ended, -⟩ := ends world
    simp [ended]

/-- An operation that aborts for another reason. -/
theorem of_aborted {operation : LuaM σ α} {reason : String} (other : reason ≠ runCtxAssertion)
    (ends : ∀ world, operation world = .aborted reason world) : Calm operation where
  registry := fun world => by rw [ends]; rfl
  passes := fun world final => by simp [ends, other]

/-- A value that is given is calm. -/
theorem pure (value : α) : Calm (Pure.pure value : LuaM σ α) :=
  of_done fun world => ⟨value, world, rfl, rfl⟩

/-- So is a choice between calm operations. -/
theorem ite {condition : Prop} [Decidable condition] {yes no : LuaM σ α} (left : Calm yes)
    (right : Calm no) : Calm (if condition then yes else no) := by
  split
  · exact left
  · exact right

/-- Looking at a value is calm. -/
theorem value (index : Int) : Calm (luaValue index : LuaM σ Value) :=
  of_done fun world => ⟨_, world, rfl, rfl⟩

/-- Counting the slots is calm. -/
theorem getTop : Calm (luaGetTop : LuaM σ Nat) := of_done fun world => ⟨_, world, rfl, rfl⟩

/-- A push is calm. -/
theorem push (value : Value) : Calm (luaPush value : LuaM σ Unit) :=
  of_done fun _ => ⟨(), _, rfl, rfl⟩

/-- A pop is calm. -/
theorem pop (count : Nat) : Calm (luaPop count : LuaM σ Unit) := of_done fun _ => ⟨(), _, rfl, rfl⟩

/-- Reading the registry is calm. -/
theorem getRegistry (name : String) : Calm (luaGetRegistry name : LuaM σ Unit) :=
  of_done fun _ => ⟨(), _, rfl, rfl⟩

/-- Changing the hook is calm. -/
theorem setHook (hook : Option Hook) : Calm (luaSetHook hook : LuaM σ Unit) :=
  of_done fun _ => ⟨(), _, rfl, rfl⟩

/-- An error is raised, not aborted. -/
theorem error : Calm (luajitError : LuaM σ α) := of_raised fun world => ⟨_, world, rfl, rfl⟩

/-- An assertion is calm when it is not the one on the run context. -/
theorem assert {condition : Bool} {text : String} (other : text ≠ runCtxAssertion) :
    Calm (moduleAssert condition text : LuaM σ Unit) := by
  cases condition with
  | true => exact of_done fun world => ⟨(), world, rfl, rfl⟩
  | false => exact of_aborted other fun world => rfl

/-- Advancing a traversal is calm. -/
theorem next (index : Int) : Calm (luaNext index : LuaM σ Bool) := by
  constructor
  · intro world
    unfold luaNext
    split <;> rfl
  · intro world final
    unfold luaNext
    split <;> simp

/-- A read is calm, whatever a metamethod does. -/
theorem index (object key : Value) : Calm (luaIndex rt object key : LuaM σ Value) := by
  constructor
  · rintro ⟨frame, base, breached, lua, host, calls⟩
    have same := congrArg State.registry
      (State.fetch_frame lua calls (rfl : lua.fetch rt calls object key = _))
    rw [luaIndex_fetch]
    split <;> rename_i fetched <;> rw [fetched] at same <;> exact same
  · rintro ⟨frame, base, breached, lua, host, calls⟩ final
    rw [luaIndex_fetch]
    split <;> simp

/-- So is a read of a field. -/
theorem getTable (at' : Int) : Calm (luaGetTable rt at' : LuaM σ Unit) :=
  (value _).bind fun _ => (value _).bind fun _ => (pop _).bind fun _ =>
    (index _ _).bind fun _ => push _

/-- Pushing an error is calm. -/
theorem pushError (text : String) : Calm (luajitPushError rt text : LuaM σ Unit) :=
  of_done fun _ => ⟨(), _, luajitPushErrorBuff_apply _ _ _ _ _ _ _ _, rfl⟩

/-- The assertion behind a registry read is another one. -/
theorem getFromRegistry (name : String) : Calm (luajitGetFromRegistry name : LuaM σ (Option Nat)) := by
  refine (getRegistry _).bind fun _ => (value _).bind fun saved => ite ?_ ?_
  · exact (pop _).bind fun _ => pure _
  · refine (assert (by decide)).bind fun _ => (assert (by decide)).bind fun _ => ?_
    exact (pop _).bind fun _ => pure _

end Calm

section Scratch

open Calm

variable {rt : Runtime}

/-- Allocating is calm. -/
theorem calm_allocate : Calm allocate := of_done fun _ => ⟨_, _, rfl, rfl⟩

/-- Freeing is calm. -/
theorem calm_free (object : Option Nat) : Calm (free object) := of_done fun _ => ⟨(), _, rfl, rfl⟩

/-- Adding a function is calm. -/
theorem calm_addPending (pf : PendingFunc) : Calm (addPending pf) :=
  of_done fun _ => ⟨(), _, rfl, rfl⟩

/-- Reading the flags is calm. -/
theorem calm_readFlags (rounds j flags : Nat) : Calm (readFlagsLoop rt rounds j flags) := by
  induction rounds generalizing j flags with
  | zero => exact of_aborted (by decide) fun _ => rfl
  | succ rounds ih =>
      refine (push _).bind fun _ => (getTable _).bind fun _ => (value _).bind fun element => ?_
      refine ite ((pop _).bind fun _ => pure _) (ite ((pop _).bind fun _ => pure _) ?_)
      refine (pop _).bind fun _ => ?_
      split
      · exact pure _
      · exact ih _ _

/-- Copying a text is calm. -/
theorem calm_getStringObject (index : Int) : Calm (luajitGetStringObject rt index) := by
  refine (value _).bind fun value => ite ?_ (pure _)
  exact calm_allocate.bind fun _ => pure _

/-- Reading an entry of the arguments is calm. -/
theorem calm_readNamedArg (fuel : Nat) (pf : PendingFunc) : Calm (readNamedArg rt fuel pf) := by
  refine (value _).bind fun argument => (value _).bind fun value => ite (pure _) ?_
  refine ite ?_ (ite ?_ (ite ?_ (ite ?_ (pure _))))
  · exact (calm_getStringObject _).bind fun name => ite (pure _) ((pop _).bind fun _ => pure _)
  · exact (calm_getStringObject _).bind fun desc => ite (pure _) ((pop _).bind fun _ => pure _)
  · exact ite (pure _) ((pop _).bind fun _ => pure _)
  · refine ite (pure _) ((calm_readFlags _ _ _).bind fun flags => ?_)
    split
    · exact pure _
    · exact (pop _).bind fun _ => pure _

/-- So is reading all of them. -/
theorem calm_readNamedArgsLoop (fuel rounds : Nat) (pf : PendingFunc) :
    Calm (readNamedArgsLoop rt fuel rounds pf) := by
  induction rounds generalizing pf with
  | zero => exact of_aborted (by decide) fun _ => rfl
  | succ rounds ih =>
      refine (next _).bind fun more => ite (pure _) ((calm_readNamedArg _ _).bind fun read => ?_)
      split
      split
      · exact pure _
      · exact ih _

/-- Rejecting arguments is calm. -/
theorem calm_readArgsError (err : String) (pf : PendingFunc) : Calm (readArgsError rt err pf) :=
  (calm_free _).bind fun _ => (calm_free _).bind fun _ => (pushError _).bind fun _ => pure _

/-- Reading a table of arguments is calm. -/
theorem calm_readNamedArgs (fuel : Nat) (pf : PendingFunc) :
    Calm (luajitRegisterFunctionReadNamedArgs rt fuel pf) := by
  refine (value _).bind fun argument => ite (calm_readArgsError _ _) ?_
  refine (push _).bind fun _ => (calm_readNamedArgsLoop _ _ _).bind fun read => ?_
  split
  split
  · exact calm_readArgsError _ _
  · exact ite (calm_readArgsError _ _) (ite (calm_readArgsError _ _) (pure _))

/-- Reading two arguments is calm. -/
theorem calm_readPositionalArgs (pf : PendingFunc) :
    Calm (luajitRegisterFunctionReadPositionalArgs rt pf) := by
  refine (calm_getStringObject _).bind fun name => ite (calm_readArgsError _ _) ?_
  refine (value _).bind fun callback => ite (calm_readArgsError _ _) ?_
  exact (pop _).bind fun _ => pure _

/-- Registering in the scratch state asks for the load context, not for a run context. -/
theorem calm_functionRegisterFunction (fuel : Nat) :
    Calm (luajitFunctionRegisterFunction rt fuel) := by
  refine (getFromRegistry _).bind fun loadCtx => ite ((pushError _).bind fun _ => error) ?_
  refine calm_allocate.bind fun id => Calm.bind ?_ fun read => ?_
  · refine getTop.bind fun argc => ite ((pushError _).bind fun _ => pure _) ?_
    exact ite (calm_readNamedArgs _ _) (calm_readPositionalArgs _)
  · split
    exact ite ((calm_free _).bind fun _ => error) (calm_addPending _)

/-- So does the hook of the scratch state. -/
theorem calm_engineLoadHook (expired : Bool) : Calm (luajitEngineLoadHook rt expired) := by
  refine (getFromRegistry _).bind fun loadCtx => (assert (by decide)).bind fun _ => ite ?_ (pure _)
  exact (setHook _).bind fun _ => (pushError _).bind fun _ => error

/-- Reading an error is calm. -/
theorem calm_readErrorField {σ : Type} (field : String) :
    Calm (readErrorField rt field : LuaM σ (Option Bytes)) := by
  refine Calm.bind ?_ fun _ => (value _).bind fun found => (pop _).bind fun _ => pure _
  exact (value _).bind fun _ => (index _ _).bind fun _ => push _

/-- Reading an error value may raise, but asserts nothing. -/
theorem calm_extractErrorInformation {σ : Type} :
    Calm (luajitExtractErrorInformation rt : LuaM σ ErrorInfo) := by
  refine (value _).bind fun top => ite (pure _) ?_
  refine (calm_readErrorField _).bind fun _ => (calm_readErrorField _).bind fun _ => ?_
  refine (calm_readErrorField _).bind fun _ => Calm.bind ?_ fun _ => ?_
  · exact (value _).bind fun _ => (index _ _).bind fun _ => push _
  · exact (value _).bind fun _ => (pop _).bind fun _ => pure _

/-- Freeing the functions of a failed load is calm. -/
theorem calm_freePending (pending : List PendingFunc) : Calm (freePending pending) := by
  induction pending with
  | nil => exact pure _
  | cons pf rest ih =>
      exact (calm_free _).bind fun _ => (calm_free _).bind fun _ => (calm_free _).bind fun _ => ih

/-- So is the end of a load. -/
theorem calm_collectFunctions (raised : Bool) : Calm (collectFunctions rt raised) := by
  refine Calm.bind (of_done fun _ => ⟨_, _, rfl, rfl⟩) fun functions => ite ?_ (pure _)
  refine calm_extractErrorInformation.bind fun _ => (pop _).bind fun _ => ?_
  exact (calm_freePending _).bind fun _ => pure _

end Scratch

/-- The action calls a function that the state exposes and that asserts a run context. -/
def Action.Asserts (exposed : List ServerFunction) : Action → Prop
  | .call function _ => function ∈ exposed ∧ function.assertsRunCtx = true
  | _ => False

section Runs

variable {σ : Type} {setting : Setting σ}

/-- The code comes to such a call: what precedes it returns. -/
def Setting.ReachesAssertion (setting : Setting σ) (actions : List Action) (world : World σ) :
    Prop :=
  ∃ before action after, actions = before ++ action :: after ∧ action.Asserts setting.exposed ∧
    (setting.performAll before world).IsDone

/-- How actions go in a state without a run context. -/
structure Unguarded (setting : Setting σ) (holds : World σ → Prop) : Prop where
  observes : ∀ world, holds world → ∃ mid, setting.observe world = .done () mid ∧ holds mid
  fails : ∀ world action, holds world → action.Asserts setting.exposed →
    ∃ final, setting.perform action world = .aborted runCtxAssertion final
  passes : ∀ world action, holds world → ¬ action.Asserts setting.exposed →
    (∃ next, setting.perform action world = .done () next ∧ holds next) ∨
      ∃ reason final, reason ≠ runCtxAssertion ∧
        setting.perform action world = .aborted reason final

/-- The code dies of the assertion exactly when it comes to such a call. -/
theorem Unguarded.performAll_aborted_iff {holds : World σ → Prop}
    (unguarded : Unguarded setting holds) (actions : List Action) {world : World σ}
    (held : holds world) :
    (∃ final, setting.performAll actions world = .aborted runCtxAssertion final) ↔
      setting.ReachesAssertion actions world := by
  induction actions generalizing world with
  | nil => simp [Setting.performAll, Setting.ReachesAssertion]
  | cons action rest ih =>
      obtain ⟨mid, observed, heldMid⟩ := unguarded.observes world held
      have performs (others : List Action) : setting.performAll (action :: others) world =
          (setting.perform action mid).andThen fun _ => setting.performAll others := by
        simp [Setting.performAll, observed]
      by_cases asserts : action.Asserts setting.exposed
      · obtain ⟨final, aborted⟩ := unguarded.fails mid action heldMid asserts
        refine iff_of_true ⟨final, by rw [performs, aborted]; rfl⟩
          ⟨[], action, rest, rfl, asserts, trivial⟩
      · -- The first action is no such call, so the call comes after it.
        have later : setting.ReachesAssertion (action :: rest) world ↔
            ∃ before call after, rest = before ++ call :: after ∧ call.Asserts setting.exposed ∧
              (setting.performAll (action :: before) world).IsDone := by
          constructor
          · rintro ⟨before, call, after, split, calls, returns⟩
            cases before with
            | nil =>
                cases split
                exact absurd calls asserts
            | cons first before =>
                cases split
                exact ⟨before, call, after, rfl, calls, returns⟩
          · rintro ⟨before, call, after, rfl, calls, returns⟩
            exact ⟨action :: before, call, after, rfl, calls, returns⟩
        rw [later, performs]
        rcases unguarded.passes mid action heldMid asserts with
          ⟨next, performed, heldNext⟩ | ⟨reason, final, other, performed⟩
        · simp only [performs, performed, Outcome.andThen_done]
          exact ih heldNext
        · simp only [performs, performed, Outcome.andThen_aborted]
          refine iff_of_false ?_ ?_
          · rintro ⟨_, same⟩
            cases same
            exact other rfl
          · rintro ⟨_, _, _, -, -, returns⟩
            exact returns

/-- So does the whole script. -/
theorem Unguarded.run_aborted_iff {holds : World σ → Prop} (unguarded : Unguarded setting holds)
    (script : ScriptRun) {world : World σ} (held : holds world) :
    (∃ final, setting.run script world = .aborted runCtxAssertion final) ↔
      setting.ReachesAssertion script.actions world := by
  rw [← unguarded.performAll_aborted_iff script.actions held, Setting.run]
  cases ended : setting.performAll script.actions world with
  | done value final => cases script.outcome <;> simp [ended]
  | raised error final => simp [ended]
  | aborted reason final => simp [ended]

/-- A calm function of the module returns to the script, or aborts otherwise. -/
theorem Calm.catching {operation : LuaM σ Unit} (calm : Calm operation) (arguments : List Value)
    (world : World σ) :
    (∃ next, ValkeyLuajit.catching (inFrame arguments operation) world = .done () next ∧
        next.lua.registry = world.lua.registry) ∨
      ∃ reason final, reason ≠ runCtxAssertion ∧
        ValkeyLuajit.catching (inFrame arguments operation) world = .aborted reason final := by
  have same := calm.registry ⟨arguments.reverse, world.stack, false, world.lua, world.host,
    world.metaCalls⟩
  have passes := calm.passes ⟨arguments.reverse, world.stack, false, world.lua, world.host,
    world.metaCalls⟩
  -- The frame of the caller is back, whatever the function did.
  let back (final : World σ) : World σ :=
    ⟨world.frame, world.base, world.breached || final.breached, final.lua, final.host,
      final.metaCalls⟩
  cases ended : operation ⟨arguments.reverse, world.stack, false, world.lua, world.host,
      world.metaCalls⟩ with
  | done value final =>
      rw [ended] at same
      exact .inl ⟨back final, by simp only [ValkeyLuajit.catching, inFrame, ended]; rfl, same⟩
  | raised error final =>
      rw [ended] at same
      exact .inl ⟨back final, by simp only [ValkeyLuajit.catching, inFrame, ended]; rfl, same⟩
  | aborted reason final =>
      refine .inr ⟨reason, back final, ?_, by simp only [ValkeyLuajit.catching, inFrame, ended]; rfl⟩
      rintro rfl
      exact passes final ended

/-- Without a run context the assertion fails, whatever frame it is made in. -/
theorem catching_requireRunCtx {operation : LuaM σ Unit} (arguments : List Value) {world : World σ}
    (fails : ∀ inner : World σ, inner.lua = world.lua →
      ∃ final, operation inner = .aborted runCtxAssertion final) :
    ∃ final, ValkeyLuajit.catching (inFrame arguments operation) world =
      .aborted runCtxAssertion final := by
  obtain ⟨final, aborted⟩ := fails ⟨arguments.reverse, world.stack, false, world.lua, world.host,
    world.metaCalls⟩ rfl
  exact ⟨_, by simp only [ValkeyLuajit.catching, inFrame, aborted]; rfl⟩

end Runs

section Settings

variable {rt : Runtime} {kind : CodeKind}

/-- There is no run context. -/
def NoRunCtx {σ : Type} (world : World σ) : Prop := world.lua.registry registryRunCtxName = .nil

/-- The scratch state never has a run context. -/
theorem scratch_unguarded (fuel : Nat) : Unguarded (scratchSetting rt fuel) NoRunCtx where
  observes := fun world none => ⟨world, rfl, none⟩
  fails := by
    rintro world (heap | ⟨function, arguments⟩ | signal) none asserts
    · exact asserts.elim
    · obtain ⟨exposed, asserts⟩ := asserts
      have log : function = .log := by
        have listed : function = .registerFunction ∨ function = .log := by
          simpa [scratchSetting, StateKind.exposed] using exposed
        rcases listed with rfl | rfl
        · simp [ServerFunction.assertsRunCtx] at asserts
        · rfl
      subst log
      simp only [Setting.perform, if_pos exposed]
      refine catching_requireRunCtx arguments fun inner same => ⟨inner, requireRunCtx_nil ?_⟩
      rw [same]
      exact none
    · exact asserts.elim
  passes := by
    rintro world (heap | ⟨function, arguments⟩ | signal) none passes
    · exact .inl ⟨_, rfl, none⟩
    · simp only [Setting.perform, LuaM.ite_apply]
      split
      · rename_i exposed
        have calm : Calm ((scratchSetting rt fuel).native function) := by
          have register : function = .registerFunction := by
            have listed : function = .registerFunction ∨ function = .log := by
              simpa [scratchSetting, StateKind.exposed] using exposed
            rcases listed with rfl | rfl
            · rfl
            · exact absurd ⟨exposed, rfl⟩ passes
          subst register
          exact calm_functionRegisterFunction fuel
        refine (calm.catching arguments world).imp ?_ id
        rintro ⟨next, done, same⟩
        exact ⟨next, done, (congrFun same _).trans none⟩
      · exact .inl ⟨world, rfl, none⟩
    · simp only [Setting.perform]
      split
      · refine ((calm_engineLoadHook signal).catching [] world).imp ?_ id
        rintro ⟨next, done, same⟩
        exact ⟨next, done, (congrFun same _).trans none⟩
      · exact .inl ⟨world, rfl, none⟩

/-- A user's function state is loading a library: no run context, no hook. -/
structure Loading (world : World CallHost) : Prop where
  runCtx : NoRunCtx world
  functions : world.lua.registry libraryFunctionsName = .hidden libraryFunctionsName
  hook : hookFunction world.lua = none

/-- Scripts leave a load as it is. -/
theorem Loading.of_effect {kind : CodeKind} {before after : World CallHost}
    (loading : Loading before) (effect : ScriptEffect kind before.core after.core) :
    Loading after where
  runCtx := (congrFun effect.registry _).trans loading.runCtx
  functions := (congrFun effect.registry _).trans loading.functions
  hook := effect.hook.trans loading.hook

/-- The functions of a user's state that assert a run context die at once without one. -/
theorem userNative_fails {kind : CodeKind} {function : ServerFunction}
    (asserts : function.assertsRunCtx = true) {inner : World CallHost} (none : NoRunCtx inner) :
    ∃ final, userNative rt kind function inner = .aborted runCtxAssertion final := by
  have fails := requireRunCtx_nil none
  cases function with
  | call => exact ⟨inner, fails⟩
  | pcall => exact ⟨inner, fails⟩
  | log => exact ⟨inner, fails⟩
  | aclCheckCmd => exact ⟨inner, fails⟩
  | setresp =>
      refine ⟨inner, ?_⟩
      simp only [userNative, luajitSetResp, LuaM.bind_apply, fails]
      rfl
  | setRepl =>
      refine ⟨inner, ?_⟩
      simp only [userNative, luajitRedisSetReplCommand, LuaM.bind_apply, luaGetTop_apply,
        Outcome.andThen_done, fails]
      rfl
  | _ => simp [ServerFunction.assertsRunCtx] at asserts

/-- The others return to the script. -/
theorem userNative_returns {kind : CodeKind} {function : ServerFunction} {arguments : List Value}
    (calm : function.assertsRunCtx = false) {world : World CallHost} (loading : Loading world) :
    ∃ next, catching (inFrame arguments (userNative rt kind function)) world = .done () next := by
  cases function with
  | userRegisterFunction =>
      obtain ⟨frame, base, breached, lua, host, calls⟩ := world
      have registers : inFrame arguments (userNative rt kind .userRegisterFunction)
          ⟨frame, base, breached, lua, host, calls⟩ = _ :=
        registration_outcome rt kind arguments loading.functions
      simp only [catching, registers]
      rcases resolveRegistration rt lua calls arguments with
        ⟨error | ⟨name, callback⟩, lua', calls'⟩
      · exact ⟨_, rfl⟩
      · exact ⟨_, rfl⟩
  | call => simp [ServerFunction.assertsRunCtx] at calm
  | pcall => simp [ServerFunction.assertsRunCtx] at calm
  | log => simp [ServerFunction.assertsRunCtx] at calm
  | setresp => simp [ServerFunction.assertsRunCtx] at calm
  | setRepl => simp [ServerFunction.assertsRunCtx] at calm
  | aclCheckCmd => simp [ServerFunction.assertsRunCtx] at calm
  | _ => exact ⟨_, rfl⟩

variable (rt kind) in
/-- A state that is loading a library makes no difference between functions it does
not expose and functions that need no run context. -/
theorem Loading.returns {state : StateKind} {action : Action}
    {world : World CallHost} (loading : Loading world) (passes : ¬ action.Asserts state.exposed) :
    ∃ next, (userSetting rt state kind).perform action world = .done () next ∧ Loading next := by
  have effect : RunEffect kind world ((userSetting rt state kind).perform action world) :=
    perform_effect rt kind action fun _ => loading.functions
  obtain ⟨next, performed⟩ : ∃ next,
      (userSetting rt state kind).perform action world = .done () next := by
    rcases action with heap | ⟨function, arguments⟩ | signal
    · exact ⟨_, rfl⟩
    · simp only [Setting.perform, LuaM.ite_apply]
      split
      · rename_i exposed
        refine userNative_returns ?_ loading
        simpa using fun asserts => passes ⟨exposed, asserts⟩
      · exact ⟨world, rfl⟩
    · have off : world.lua.hook.map Hook.function ≠ some (userSetting rt state kind).hookName := by
        rw [show world.lua.hook.map Hook.function = none from loading.hook]
        simp
      exact ⟨world, by simp only [Setting.perform, if_neg off]⟩
  rw [performed] at effect
  exact ⟨next, performed, loading.of_effect effect.effect⟩

variable (rt kind) in
/-- A call that needs a run context kills the process. -/
theorem Loading.fails {state : StateKind} {action : Action}
    {world : World CallHost} (loading : Loading world) (asserts : action.Asserts state.exposed) :
    ∃ final, (userSetting rt state kind).perform action world =
      .aborted runCtxAssertion final := by
  rcases action with heap | ⟨function, arguments⟩ | signal
  · exact asserts.elim
  · have exposed : function ∈ (userSetting rt state kind).exposed := asserts.1
    simp only [Setting.perform, if_pos exposed]
    refine catching_requireRunCtx arguments fun inner same => userNative_fails asserts.2 ?_
    rw [NoRunCtx, same]
    exact loading.runCtx
  · exact asserts.elim

variable (rt kind) in
/-- The top-level code of a library dies of the assertion when it makes such a call, and
otherwise comes to its end. -/
theorem Loading.performAll {state : StateKind} (actions : List Action)
    {world : World CallHost} (loading : Loading world) :
    (∃ action ∈ actions, action.Asserts state.exposed) ∧ (∃ final,
        (userSetting rt state kind).performAll actions world = .aborted runCtxAssertion final) ∨
      (¬ ∃ action ∈ actions, action.Asserts state.exposed) ∧ ∃ final,
        (userSetting rt state kind).performAll actions world = .done () final := by
  induction actions generalizing world with
  | nil => exact .inr ⟨by simp, world, rfl⟩
  | cons action rest ih =>
      have noted := loading.of_effect (observeUserCode_effect kind world).effect
      have performs : (userSetting rt state kind).performAll (action :: rest) world =
          ((userSetting rt state kind).perform action (observeUserCode kind world).world).andThen
            fun _ => (userSetting rt state kind).performAll rest := rfl
      by_cases asserts : action.Asserts state.exposed
      · obtain ⟨final, aborted⟩ := noted.fails rt kind asserts
        refine .inl ⟨⟨action, List.mem_cons_self, asserts⟩, final, ?_⟩
        rw [performs, aborted]
        rfl
      · obtain ⟨next, performed, loadingNext⟩ := noted.returns rt kind asserts
        have first : (∃ other ∈ action :: rest, other.Asserts state.exposed) ↔
            ∃ other ∈ rest, other.Asserts state.exposed := by simp [asserts]
        rw [first, performs, performed]
        exact ih loadingNext

variable (rt kind) in
/-- So does the whole run of it. -/
theorem Loading.run {state : StateKind} (script : ScriptRun)
    {world : World CallHost} (loading : Loading world) :
    (∃ action ∈ script.actions, action.Asserts state.exposed) ∧ (∃ final,
        (userSetting rt state kind).run script world = .aborted runCtxAssertion final) ∨
      (¬ ∃ action ∈ script.actions, action.Asserts state.exposed) ∧ ∀ reason final,
        (userSetting rt state kind).run script world ≠ .aborted reason final := by
  rcases loading.performAll rt kind script.actions with ⟨asserts, final, aborted⟩ | ⟨calm, final, performed⟩
  · exact .inl ⟨asserts, final, by simp [Setting.run, aborted]⟩
  · refine .inr ⟨calm, fun reason other => ?_⟩
    cases outcome : script.outcome <;> simp [Setting.run, performed, outcome]

/-- A call is in progress: its run context is in place, and a function state has its
table of functions. -/
structure Serving (state : StateKind) (world : World CallHost) : Prop where
  runCtx : world.lua.registry registryRunCtxName = .lightuserdata callCtxPointer
  functions : .userRegisterFunction ∈ state.exposed →
    world.lua.registry libraryFunctionsName = .hidden libraryFunctionsName

/-- Scripts leave a call as it is. -/
theorem Serving.of_effect {state : StateKind} {before after : World CallHost}
    (serving : Serving state before) (effect : ScriptEffect kind before.core after.core) :
    Serving state after where
  runCtx := (congrFun effect.registry _).trans serving.runCtx
  functions := fun exposed => (congrFun effect.registry _).trans (serving.functions exposed)

/-- A function of the module that aborts nothing returns to the script. -/
theorem catching_survives {operation : LuaM CallHost Unit} (arguments : List Value)
    {world : World CallHost}
    (survives : ∀ inner : World CallHost, inner.lua = world.lua →
      ∀ reason final, operation inner ≠ .aborted reason final) :
    ∃ next, catching (inFrame arguments operation) world = .done () next := by
  have passes := survives ⟨arguments.reverse, world.stack, false, world.lua, world.host,
    world.metaCalls⟩ rfl
  cases ended : operation ⟨arguments.reverse, world.stack, false, world.lua, world.host,
      world.metaCalls⟩ with
  | done value final => exact ⟨_, by simp only [catching, inFrame, ended]; rfl⟩
  | raised error final => exact ⟨_, by simp only [catching, inFrame, ended]; rfl⟩
  | aborted reason final => exact absurd ended (passes reason final)

/-- Raising an error table is no abort. -/
theorem pushError_survives {α : Type} (error : String) (world : World CallHost) (reason : String)
    (final : World CallHost) :
    (luajitPushError rt error world).andThen (fun _ => (luajitError : LuaM CallHost α)) ≠
      .aborted reason final := by
  obtain ⟨frame, base, breached, lua, host, calls⟩ := world
  simp [luajitPushError, luajitPushErrorBuff_apply]

/-- With a run context in place no function of a user's state dies. -/
theorem userNative_survives {state : StateKind} {function : ServerFunction}
    (arguments : List Value) {world : World CallHost} (serving : Serving state world)
    (exposed : function ∈ state.exposed) :
    ∃ next, catching (inFrame arguments (userNative rt kind function)) world = .done () next := by
  have live (inner : World CallHost) (same : inner.lua = world.lua) :
      requireRunCtx inner = .done () inner := requireRunCtx_live (by rw [same, serving.runCtx])
  cases function with
  | userRegisterFunction =>
      obtain ⟨frame, base, breached, lua, host, calls⟩ := world
      have registers : inFrame arguments (userNative rt kind .userRegisterFunction)
          ⟨frame, base, breached, lua, host, calls⟩ = _ :=
        registration_outcome rt kind arguments (serving.functions exposed)
      simp only [catching, registers]
      rcases resolveRegistration rt lua calls arguments with
        ⟨error | ⟨name, callback⟩, lua', calls'⟩
      · exact ⟨_, rfl⟩
      · exact ⟨_, rfl⟩
  | call | pcall | log | aclCheckCmd =>
      refine catching_survives arguments fun inner same reason final aborted => ?_
      rw [show userNative rt kind _ inner = requireRunCtx inner from rfl, live inner same] at aborted
      cases aborted
  | setresp =>
      refine catching_survives arguments fun inner same reason final => ?_
      simp only [userNative, luajitSetResp, LuaM.bind_apply, live inner same, luaGetTop_apply,
        Outcome.andThen_done, LuaM.ite_apply, lastArgumentInt, luaValue_apply, LuaM.pure_apply]
      split
      · exact pushError_survives _ inner reason final
      · split
        · exact pushError_survives _ inner reason final
        · simp [modifyCallCtx]
  | setRepl =>
      refine catching_survives arguments fun inner same reason final => ?_
      simp only [userNative, luajitRedisSetReplCommand, LuaM.bind_apply, live inner same,
        luaGetTop_apply, Outcome.andThen_done, LuaM.ite_apply, lastArgumentInt, luaValue_apply,
        LuaM.pure_apply]
      split
      · exact pushError_survives _ inner reason final
      · split
        · exact pushError_survives _ inner reason final
        · simp [modifyCallCtx]
  | _ => exact ⟨_, rfl⟩

/-- Neither does the hook. -/
theorem luajitMaskCountHook_survives {state : StateKind} (killed : Bool) {world : World CallHost}
    (serving : Serving state world) :
    ∃ next, catching (inFrame [] (luajitMaskCountHook rt killed)) world = .done () next := by
  refine catching_survives [] fun inner same reason final => ?_
  have live : requireRunCtx inner = .done () inner :=
    requireRunCtx_live (by rw [same, serving.runCtx])
  cases killed with
  | false => simp [luajitMaskCountHook, live]
  | true =>
      simp only [luajitMaskCountHook, LuaM.bind_apply, live, Outcome.andThen_done, if_true,
        emit_apply, luaSetHook_apply, getHost_apply]
      exact pushError_survives _ _ reason final

variable (rt kind) in
/-- Every action of a script in a call comes back to the script. -/
theorem Serving.returns {state : StateKind} (action : Action) {world : World CallHost}
    (serving : Serving state world) :
    ∃ next, (userSetting rt state kind).perform action world = .done () next ∧
      Serving state next := by
  have effect : RunEffect kind world ((userSetting rt state kind).perform action world) :=
    perform_effect rt kind action serving.functions
  obtain ⟨next, performed⟩ : ∃ next,
      (userSetting rt state kind).perform action world = .done () next := by
    rcases action with heap | ⟨function, arguments⟩ | signal
    · exact ⟨_, rfl⟩
    · simp only [Setting.perform, LuaM.ite_apply]
      split
      · exact userNative_survives arguments serving ‹_›
      · exact ⟨world, rfl⟩
    · simp only [Setting.perform]
      split
      · exact luajitMaskCountHook_survives signal serving
      · exact ⟨world, rfl⟩
  rw [performed] at effect
  exact ⟨next, performed, serving.of_effect effect.effect⟩

variable (rt kind) in
/-- So a script in a call comes to its end. -/
theorem Serving.performAll {state : StateKind} (actions : List Action) {world : World CallHost}
    (serving : Serving state world) :
    ∃ final, (userSetting rt state kind).performAll actions world = .done () final := by
  induction actions generalizing world with
  | nil => exact ⟨world, rfl⟩
  | cons action rest inductionHypothesis =>
      have noted := serving.of_effect (observeUserCode_effect kind world).effect
      obtain ⟨next, performed, servingNext⟩ := noted.returns rt kind action
      have performs : (userSetting rt state kind).performAll (action :: rest) world =
          ((userSetting rt state kind).perform action (observeUserCode kind world).world).andThen
            fun _ => (userSetting rt state kind).performAll rest := rfl
      rw [performs, performed]
      exact inductionHypothesis servingNext

variable (rt kind) in
/-- It returns or raises. -/
theorem Serving.run {state : StateKind} (script : ScriptRun) {world : World CallHost}
    (serving : Serving state world) (reason : String) (final : World CallHost) :
    (userSetting rt state kind).run script world ≠ .aborted reason final := by
  obtain ⟨last, performed⟩ := serving.performAll rt kind script.actions
  cases outcome : script.outcome <;> simp [Setting.run, performed, outcome]

end Settings

end ValkeyLuajit
