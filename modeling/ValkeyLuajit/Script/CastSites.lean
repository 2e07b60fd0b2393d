import ValkeyLuajit.Script.Log
import ValkeyLuajit.Script.NotedReply
import ValkeyLuajit.Script.Residue

/-!
# Where numbers are cast

A command argument is looked at before it is cast, an integer reply and the arguments of
`server.set_repl`, `server.setresp` and `server.log` are not: the checks of these come after
the cast.
-/

namespace ValkeyLuajit.Noted

open Lua Recorded

section Commands

variable (rt : Runtime)

/-- `(int)lua_tonumber`, which takes 0 for what is not a number. -/
def castInt {σ : Type} (value : Value) : Recorded Cast σ Int := do
  let number := (value.toNumber rt).getD (.finite 0)
  note [⟨number, .int⟩]
  pure number.toInt

/-- The only argument, cast. -/
def lastArgumentInt : Recorded Cast CallHost Int := do
  let last ← run (luaValue (-1))
  castInt rt last

/-- `luajitSetResp`: the version is checked after the cast. -/
def luajitSetResp : Recorded Cast CallHost Unit := do
  run requireRunCtx
  let argc ← run luaGetTop
  if argc ≠ 1 then do
    run (luajitPushError rt "server.setresp() requires one argument.")
    run luajitError
  else do
    let resp ← lastArgumentInt rt
    if resp ≠ 2 ∧ resp ≠ 3 then do
      run (luajitPushError rt "RESP version must be 2 or 3.")
      run luajitError
    else run (modifyCallCtx fun callCtx => { callCtx with resp := resp.toNat })

/-- `luajitRedisSetReplCommand`: the flags are checked after the cast. -/
def luajitRedisSetReplCommand : Recorded Cast CallHost Unit := do
  let argc ← run luaGetTop
  run requireRunCtx
  if argc ≠ 1 then do
    run (luajitPushError rt "server.set_repl() requires one argument.")
    run luajitError
  else do
    let flags ← lastArgumentInt rt
    if flags < 0 ∨ flags > propagateAof + propagateRepl then do
      run (luajitPushError rt
        "Invalid replication flags. Use REPL_AOF, REPL_REPLICA, REPL_ALL or REPL_NONE.")
      run luajitError
    else run (modifyCallCtx fun callCtx => { callCtx with replicationFlags := flags.toNat })

/-- `luajitLogCommand`: the level is checked after the cast, that it is a number before it. -/
def luajitLogCommand : Recorded Cast LogHost Unit := do
  run requireRunCtx
  let argc ← run luaGetTop
  if argc < 2 then do
    run (luajitPushError rt "server.log() requires two arguments or more.")
    run luajitError
  else do
    let first ← run (luaValue (-(argc : Int)))
    if (first.toNumber rt).isNone then do
      run (luajitPushError rt "First argument must be a number (log level).")
      run luajitError
    else do
      let level ← castInt rt first
      if level < llDebug ∨ level > llWarning then do
        run (luajitPushError rt "Invalid log level.")
        run luajitError
      else do
        let log ← run (logLoop rt argc (argc - 1) 1 none)
        run (moduleAssert (levelStr level).isSome "0")
        run (moduleLog ((levelStr level).getD "") log)

/-- What is not a number counts as 0. -/
theorem erases_castInt {σ : Type} (value : Value) : Erases (castInt rt value : Recorded Cast σ Int)
    (pure (((value.toNumber rt).map Number.toInt).getD 0)) := by
  intro world
  rw [castInt]
  cases value.toNumber rt <;> rfl

/-- Without its note the argument is read as before. -/
theorem erases_lastArgumentInt :
    Erases (lastArgumentInt rt) (ValkeyLuajit.lastArgumentInt rt) :=
  erases_step fun last => erases_castInt rt last

/-- Without its note `server.setresp` does the same. -/
theorem erases_luajitSetResp : Erases (luajitSetResp rt) (ValkeyLuajit.luajitSetResp rt) := by
  iterate 2 (apply erases_step; intro _)
  apply erases_ite
  · exact erases_step fun _ => erases_run _
  · apply erases_bind (erases_lastArgumentInt rt)
    intro resp
    apply erases_ite
    · exact erases_step fun _ => erases_run _
    · exact erases_run _

/-- Without its note `server.set_repl` does the same. -/
theorem erases_luajitRedisSetReplCommand : Erases (luajitRedisSetReplCommand rt)
    (ValkeyLuajit.luajitRedisSetReplCommand rt) := by
  iterate 2 (apply erases_step; intro _)
  apply erases_ite
  · exact erases_step fun _ => erases_run _
  · apply erases_bind (erases_lastArgumentInt rt)
    intro flags
    apply erases_ite
    · exact erases_step fun _ => erases_run _
    · exact erases_run _

/-- Without its note `server.log` does the same: the cast is only reached by a number. -/
theorem erases_luajitLogCommand : Erases (luajitLogCommand rt)
    (ValkeyLuajit.luajitLogCommand rt) := by
  apply erases_step
  intro _
  apply erases_step
  intro argc
  apply erases_ite
  · exact erases_step fun _ => erases_run _
  · apply erases_step
    intro first
    have cast := @erases_castInt rt LogHost first
    cases number : first.toNumber rt with
    | none => exact erases_step fun _ => erases_run _
    | some number =>
        rw [number] at cast
        exact erases_bind cast fun level => erases_ite (erases_step fun _ => erases_run _)
          (erases_step fun _ => erases_step fun _ => erases_run _)

end Commands

section Targets

variable (rt : Runtime)

/-- The cast is one to an `int`. -/
def ToInt (cast : Cast) : Prop := cast.type = .int

/-- What is noted is such a cast. -/
theorem every_castInt {σ : Type} (value : Value) :
    (Account.every ToInt).Covers (castInt rt value : Recorded Cast σ Int) := by
  refine Account.every_note ?_ (Account.covers_pure _)
  intro cast member
  obtain rfl := List.mem_singleton.mp member
  rfl

/-- The argument is cast to an `int`. -/
theorem every_lastArgumentInt : (Account.every ToInt).Covers (lastArgumentInt rt) :=
  Account.every_step fun _ => every_castInt rt _

/-- `server.setresp` casts to an `int` only. -/
theorem every_luajitSetResp : (Account.every ToInt).Covers (luajitSetResp rt) := by
  refine Account.every_step fun _ => Account.every_step fun argc => Account.covers_ite ?_ ?_
  · exact Account.every_step fun _ => Account.every_run _
  · refine Account.covers_bind (every_lastArgumentInt rt) fun resp => Account.covers_ite ?_ ?_
    · exact Account.every_step fun _ => Account.every_run _
    · exact Account.every_run _

/-- `server.set_repl` casts to an `int` only. -/
theorem every_luajitRedisSetReplCommand :
    (Account.every ToInt).Covers (luajitRedisSetReplCommand rt) := by
  refine Account.every_step fun argc => Account.every_step fun _ => Account.covers_ite ?_ ?_
  · exact Account.every_step fun _ => Account.every_run _
  · refine Account.covers_bind (every_lastArgumentInt rt) fun flags => Account.covers_ite ?_ ?_
    · exact Account.every_step fun _ => Account.every_run _
    · exact Account.every_run _

/-- `server.log` casts to an `int` only. -/
theorem every_luajitLogCommand : (Account.every ToInt).Covers (luajitLogCommand rt) := by
  refine Account.every_step fun _ => Account.every_step fun argc => Account.covers_ite ?_ ?_
  · exact Account.every_step fun _ => Account.every_run _
  · refine Account.every_step fun first => Account.covers_ite ?_ ?_
    · exact Account.every_step fun _ => Account.every_run _
    · refine Account.covers_bind (every_castInt rt first) fun level => Account.covers_ite ?_ ?_
      · exact Account.every_step fun _ => Account.every_run _
      · exact Account.every_step fun _ => Account.every_step fun _ => Account.every_run _

end Targets

/-- Where the module casts a number that a script supplied. -/
inductive CastSite where
  | commandArgument
  | integerReply
  | setRepl
  | setResp
  | logLevel
deriving DecidableEq

/-- Some run of the code at this place performs the cast. -/
def CastSite.Performs : CastSite → Cast → Prop
  | .commandArgument, cast => ∃ convert, Casts convert ∧ ∃ rt fpconv world,
      cast ∈ (luajitArgsToServerArgv convert rt fpconv world).notes
  | .integerReply, cast => ∃ rt fresh resp fuel world,
      .cast cast ∈ (luajitReplyToServerReply rt fresh resp fuel world).notes
  | .setRepl, cast => ∃ rt world, cast ∈ (luajitRedisSetReplCommand rt world).notes
  | .setResp, cast => ∃ rt world, cast ∈ (luajitSetResp rt world).notes
  | .logLevel, cast => ∃ rt world, cast ∈ (luajitLogCommand rt world).notes

/-- The numbers that may be supplied there. -/
def CastSite.Safe : CastSite → Number → Prop
  | .commandArgument, number => number ≠ .nan
  | .integerReply, number => CInteger.longLong.Admits number
  | _, number => CInteger.int.Admits number

/-- A cast that is performed is defined when the number may be supplied. -/
theorem CastSite.Performs.defined {site : CastSite} {cast : Cast} (performs : site.Performs cast)
    (safe : site.Safe cast.number) : cast.Defined := by
  have ofType {type : CInteger} (same : cast.type = type) (admits : type.Admits cast.number) :
      cast.Defined := cast.defined_iff.mpr (same ▸ admits)
  cases site with
  | commandArgument =>
      obtain ⟨convert, -, rt, fpconv, world, member⟩ := performs
      obtain ⟨d, member⟩ := every_luajitArgsToServerArgv rt fpconv world cast member
      obtain ⟨rfl, isNan | ⟨value, rfl, lower, upper⟩⟩ := mem_double2ll.mp member
      · exact absurd isNan safe
      · exact defined_of_bounded lower upper
  | integerReply =>
      obtain ⟨rt, fresh, resp, fuel, world, member⟩ := performs
      exact ofType ((covers_luajitReplyToServerReply resp fuel world).casts cast member) safe
  | setRepl =>
      obtain ⟨rt, world, member⟩ := performs
      exact ofType (every_luajitRedisSetReplCommand rt world cast member) safe
  | setResp =>
      obtain ⟨rt, world, member⟩ := performs
      exact ofType (every_luajitSetResp rt world cast member) safe
  | logLevel =>
      obtain ⟨rt, world, member⟩ := performs
      exact ofType (every_luajitLogCommand rt world cast member) safe

section Supplied

variable {σ : Type} (host : σ) (arguments : List Value)

/-- A function that a running script calls with these arguments. -/
def calledWith : World σ := ⟨arguments.reverse, [], false, runningState, host, []⟩

/-- The run context is there. -/
theorem calledWith_context : requireRunCtx (calledWith host arguments) =
    .done () (calledWith host arguments) := requireRunCtx_of_live runningState_context

/-- The function finds as many arguments as it is given. -/
theorem calledWith_getTop : luaGetTop (calledWith host arguments) =
    .done arguments.length (calledWith host arguments) := by
  rw [luaGetTop_apply, calledWith, List.length_reverse]

/-- The cast comes behind the first check and before the second. -/
theorem performs_setResp (number : Number) : CastSite.setResp.Performs ⟨number, .int⟩ := by
  let host : CallHost := ⟨none, []⟩
  refine ⟨.plain, calledWith host [.number number], ?_⟩
  rw [luajitSetResp, notes_step (calledWith_context host _), notes_step (calledWith_getTop host _)]
  exact List.mem_append_left _ (List.mem_singleton_self _)

/-- `server.set_repl` casts whatever number it is given. -/
theorem performs_setRepl (number : Number) : CastSite.setRepl.Performs ⟨number, .int⟩ := by
  let host : CallHost := ⟨none, []⟩
  refine ⟨.plain, calledWith host [.number number], ?_⟩
  rw [luajitRedisSetReplCommand, notes_step (calledWith_getTop host _),
    notes_step (calledWith_context host _)]
  exact List.mem_append_left _ (List.mem_singleton_self _)

/-- `server.log` casts whatever level it is given. -/
theorem performs_logLevel (number : Number) : CastSite.logLevel.Performs ⟨number, .int⟩ := by
  refine ⟨.plain, calledWith [] [.number number, .nil], ?_⟩
  rw [luajitLogCommand, notes_step (calledWith_context [] _), notes_step (calledWith_getTop [] _)]
  exact List.mem_append_right _ (List.mem_append_left _ (List.mem_singleton_self _))

/-- A script that returns a number has it cast. -/
theorem performs_integerReply (number : Number) :
    CastSite.integerReply.Performs ⟨number, .longLong⟩ := by
  refine ⟨.plain, fun _ _ => 0, 2, 1, calledWith ⟨none, []⟩ [.number number], ?_⟩
  exact List.mem_singleton_self _

/-- A NaN passes both comparisons. -/
theorem performs_nan : CastSite.commandArgument.Performs ⟨.nan, .longLong⟩ := by
  refine ⟨fun cast => cast.number.truncated.getD 0, ?_, .plain, fun _ => [],
    calledWith commandStart.host [.number .nan], ?_⟩
  · intro cast whole truncated _
    dsimp only
    rw [truncated, Option.getD_some]
  · exact List.mem_singleton_self _

end Supplied

/-- At each place the casts of a number are defined exactly when the number may be supplied
there: a command argument that is not a NaN, an integer reply whose truncation fits a
`long long`, and an argument of the other functions whose truncation fits an `int`.
`double2ll` finds the whole numbers within its bounds in any case. -/
theorem casts_defined_iff (site : CastSite) (number : Number) :
    ((∀ cast, site.Performs cast → cast.number = number → cast.Defined) ↔ site.Safe number) ∧
      ∀ convert, Casts convert → ∀ n, (double2ll convert number).1 = some n ↔
        number = .finite n ∧ -2 ^ 62 ≤ n ∧ n ≤ 2 ^ 62 := by
  refine ⟨⟨fun defined => ?_, ?_⟩, fun convert casts n => double2ll_eq_some_iff casts⟩
  · cases site with
    | commandArgument =>
        rintro rfl
        exact absurd (defined _ performs_nan rfl) (by decide)
    | integerReply => exact (Cast.defined_iff _).mp (defined _ (performs_integerReply number) rfl)
    | setRepl => exact (Cast.defined_iff _).mp (defined _ (performs_setRepl number) rfl)
    | setResp => exact (Cast.defined_iff _).mp (defined _ (performs_setResp number) rfl)
    | logLevel => exact (Cast.defined_iff _).mp (defined _ (performs_logLevel number) rfl)
  · rintro safe cast performs rfl
    exact performs.defined safe

/-- `return 2^63`. -/
theorem undefined_cast_performed : ¬ ∀ (site : CastSite) (number : Number),
    (∀ cast, site.Performs cast → cast.number = number → cast.Defined) ∧
      ∀ convert, Casts convert → ∀ n, (double2ll convert number).1 = some n ↔
        number = .finite n ∧ -2 ^ 62 ≤ n ∧ n ≤ 2 ^ 62 := by
  intro holds
  have defined := (holds .integerReply (.finite (2 ^ 63))).1 _ (performs_integerReply _) rfl
  exact lt_irrefl _ ((Cast.defined_iff _).mp defined).2

end ValkeyLuajit.Noted
