import ValkeyLuajit.Script.Execution

/-!
# Messages of scripts to the log

`server.log` puts its arguments together with `ljm_asprintf`, which takes C strings and
prints a NULL pointer as the C library does. Whether a space comes first is decided by the
position of the argument.
-/

namespace ValkeyLuajit

open Lua

/-- A line of the log: the level and the text. -/
structure LogLine where
  level : String
  text : Bytes
deriving DecidableEq

/-- The lines sent to the log. -/
abbrev LogHost := List LogLine

def llDebug : Int := 0
def llVerbose : Int := 1
def llNotice : Int := 2
def llWarning : Int := 3

/-- The name of a level. -/
def levelStr (level : Int) : Option String :=
  if level = llDebug then some "debug"
  else if level = llVerbose then some "verbose"
  else if level = llNotice then some "notice"
  else if level = llWarning then some "warning"
  else none

/-- What `%s` prints: a C string, or what the C library writes for NULL. -/
def percentS (string : Option Bytes) : Bytes :=
  match string with
  | some text => cString text
  | none => bytes "(null)"

/-- `ValkeyModule_Log` with the format `%s`. -/
def moduleLog (level : String) (log : Option Bytes) : LuaM LogHost Unit := fun world =>
  .done () (world.setHost (world.host ++ [⟨level, percentS log⟩]))

section

variable (rt : Runtime)

/-- `lua_tolstring`: numbers are converted, other values have no text. -/
def Lua.Value.toLString (value : Value) : Option Bytes :=
  if value.isString then some (value.text rt) else none

/-- The body of the loop of `luajitLogCommand`: the text after argument `j`. -/
def appendArgument (j : Nat) (log : Option Bytes) (argument : Value) : Option Bytes :=
  match argument.toLString rt with
  | some s =>
      if j ≠ 1 then some (percentS log ++ bytes " " ++ percentS (some s))
      else some (percentS (some s))
  | none => log

/-- The loop of `luajitLogCommand` from argument `j` on. -/
def logLoop (argc : Nat) : Nat → Nat → Option Bytes → LuaM LogHost (Option Bytes)
  | 0, _, log => pure log
  | rounds + 1, j, log => do
      let argument ← luaValue (-(argc : Int) + j)
      logLoop argc rounds (j + 1) (appendArgument rt j log argument)

/-- `server.log`. -/
def luajitLogCommand : LuaM LogHost Unit := do
  requireRunCtx
  let argc ← luaGetTop
  if argc < 2 then do
    luajitPushError rt "server.log() requires two arguments or more."
    luajitError
  else do
    let first ← luaValue (-(argc : Int))
    match first.toNumber rt with
    | none => do
        luajitPushError rt "First argument must be a number (log level)."
        luajitError
    | some number =>
        let level := number.toInt
        if level < llDebug ∨ level > llWarning then do
          luajitPushError rt "Invalid log level."
          luajitError
        else do
          let log ← logLoop rt argc (argc - 1) 1 none
          moduleAssert (levelStr level).isSome "0"
          moduleLog ((levelStr level).getD "") log

end

section Texts

/-- What comes after the first of several texts. -/
theorem intercalate_cons_eq (separator first : Bytes) (rest : List Bytes) :
    List.intercalate separator (first :: rest) = first ++ rest.flatMap (separator ++ ·) := by
  induction rest generalizing first with
  | nil => simp
  | cons second rest inductionHypothesis =>
      rw [List.intercalate_cons_cons, inductionHypothesis, List.flatMap_cons, List.append_assoc,
        List.append_assoc]

/-- Texts that are put together are all there. -/
theorem mem_intercalate_of_mem {separator text : Bytes} {texts : List Bytes} {byte : UInt8}
    (member : text ∈ texts) (inside : byte ∈ text) : byte ∈ List.intercalate separator texts := by
  cases texts with
  | nil => cases member
  | cons first rest =>
      rw [intercalate_cons_eq, List.mem_append, List.mem_flatMap]
      rcases List.mem_cons.mp member with rfl | member
      · exact .inl inside
      · exact .inr ⟨text, member, List.mem_append_right _ inside⟩

/-- C strings have no NUL in them, nor has a line of them. -/
theorem zero_notMem_percentS (string : Option Bytes) : (0 : UInt8) ∉ percentS string := by
  cases string with
  | none => decide
  | some text => exact cString_eq_self_iff.mp (cString_cString text)

theorem zero_notMem_intercalate (texts : List Bytes) :
    (0 : UInt8) ∉ List.intercalate (bytes " ") (texts.map cString) := by
  have unbroken (text : Bytes) : (0 : UInt8) ∉ cString text := zero_notMem_percentS (some text)
  cases texts with
  | nil => decide
  | cons first rest =>
      rw [List.map_cons, intercalate_cons_eq, List.mem_append, List.mem_flatMap]
      rintro (null | ⟨text, member, null⟩)
      · exact unbroken first null
      · obtain ⟨other, -, rfl⟩ := List.mem_map.mp member
        rcases List.mem_append.mp null with null | null
        · exact absurd null (by decide)
        · exact unbroken other null

end Texts

section Loop

variable {rt : Runtime}

/-- The texts of the values that have one. -/
def convertibleTexts (rt : Runtime) (arguments : List Value) : List Bytes :=
  arguments.filterMap (Value.toLString rt)

/-- The text after the arguments from the `j`-th on. -/
def appendAll (rt : Runtime) : Nat → Option Bytes → List Value → Option Bytes
  | _, log, [] => log
  | j, log, argument :: rest => appendAll rt (j + 1) (appendArgument rt j log argument) rest

/-- An argument is found by its distance from the top. -/
theorem get_argument {σ : Type} (arguments base : List Value) (breached : Bool) (lua : State)
    (host : σ) (calls : List (FuncRef × State)) {j : Nat} (inside : j < arguments.length) :
    (World.mk arguments.reverse base breached lua host calls).get
      (-(arguments.length : Int) + j) = arguments[j] := by
  have negative : -(arguments.length : Int) + j < 0 := by omega
  have place : (-(arguments.length : Int) + j).natAbs - 1 = arguments.length - 1 - j := by omega
  have within : arguments.length - 1 - j < arguments.reverse.length := by
    rw [List.length_reverse]
    omega
  rw [World.get, World.slot, if_pos negative, place, World.stack_mk, List.getD_eq_getElem?_getD,
    List.getElem?_append_left within, List.getElem?_eq_getElem within, Option.getD_some,
    List.getElem_reverse]
  congr 1
  omega

/-- The loop goes through the arguments behind the first `j`. -/
theorem logLoop_eq (arguments base : List Value) (breached : Bool) (lua : State)
    (host : LogHost) (calls : List (FuncRef × State)) (log : Option Bytes) {rounds j : Nat}
    (behind : j + rounds = arguments.length) :
    logLoop rt arguments.length rounds j log
        ⟨arguments.reverse, base, breached, lua, host, calls⟩ =
      .done (appendAll rt j log (arguments.drop j))
        ⟨arguments.reverse, base, breached, lua, host, calls⟩ := by
  induction rounds generalizing j log with
  | zero =>
      rw [List.drop_eq_nil_of_le (by omega)]
      rfl
  | succ rounds inductionHypothesis =>
      have inside : j < arguments.length := by omega
      rw [logLoop, LuaM.bind_apply, luaValue_apply, Outcome.andThen_done,
        get_argument _ _ _ _ _ _ inside, inductionHypothesis _ (by omega),
        List.drop_eq_getElem_cons inside, appendAll]

/-- Behind the first, every argument with a text is put behind a space. -/
theorem percentS_appendAll {j : Nat} (later : 2 ≤ j) (log : Option Bytes)
    (arguments : List Value) :
    percentS (appendAll rt j log arguments) = percentS log ++
      (convertibleTexts rt arguments).flatMap fun text => bytes " " ++ cString text := by
  induction arguments generalizing j log with
  | nil => simp [appendAll, convertibleTexts]
  | cons argument rest inductionHypothesis =>
      rw [appendAll, inductionHypothesis (by omega), appendArgument]
      cases text : argument.toLString rt with
      | none => simp [convertibleTexts, text]
      | some s =>
          have unbroken : (0 : UInt8) ∉ percentS log ++ bytes " " ++ cString s := by
            rw [List.append_assoc, List.mem_append, List.mem_append]
            rintro (null | null | null)
            · exact zero_notMem_percentS _ null
            · exact absurd null (by decide)
            · exact zero_notMem_percentS (some s) null
          have whole := cString_eq_self_iff.mpr unbroken
          have next : j ≠ 1 := by omega
          simp only [next, ne_eq, not_false_eq_true, if_true, percentS, convertibleTexts,
            List.filterMap_cons, text, List.flatMap_cons, ← List.append_assoc] at whole ⊢
          rw [whole]

/-- The first argument with a text is put as it is, the others behind spaces; when the first
argument has none, the NULL pointer is printed in its place. -/
theorem percentS_logged (first : Value) (rest : List Value) :
    percentS (appendAll rt 1 none (first :: rest)) =
      ((first.toLString rt).elim (bytes "(null)") cString) ++
        (convertibleTexts rt rest).flatMap fun text => bytes " " ++ cString text := by
  rw [appendAll, percentS_appendAll (Nat.le_refl 2), appendArgument]
  cases first.toLString rt with
  | none => rfl
  | some s => simp [percentS]

end Loop

section Command

variable {rt : Runtime}

/-- The name of the level that the first argument gives. -/
def levelOf (rt : Runtime) (level : Value) : Option String :=
  (level.toNumber rt).bind fun number => levelStr number.toInt

/-- A level with a name passes the check. -/
theorem levelStr_valid {level : Int} {name : String} (named : levelStr level = some name) :
    ¬ (level < llDebug ∨ level > llWarning) := by
  intro outside
  have unnamed : level ≠ llDebug ∧ level ≠ llVerbose ∧ level ≠ llNotice ∧ level ≠ llWarning := by
    simp only [llDebug, llVerbose, llNotice, llWarning] at outside ⊢
    omega
  simp [levelStr, unnamed] at named

/-- With a run context and a valid level, one line is sent. -/
theorem luajitLogCommand_sends {lua : State} (context : HasRunCtx lua) (base : List Value)
    (breached : Bool) (host : LogHost) (calls : List (FuncRef × State)) {level : Value}
    {name : String} {arguments : List Value} (valid : levelOf rt level = some name)
    (nonempty : arguments ≠ []) :
    luajitLogCommand rt ⟨(level :: arguments).reverse, base, breached, lua, host, calls⟩ =
      .done () ⟨(level :: arguments).reverse, base, breached, lua,
        host ++ [⟨name, percentS (appendAll rt 1 none arguments)⟩], calls⟩ := by
  obtain ⟨number, isNumber, named⟩ := Option.bind_eq_some_iff.mp valid
  have asserted : requireRunCtx (World.mk (level :: arguments).reverse base breached lua host calls) =
      .done () ⟨(level :: arguments).reverse, base, breached, lua, host, calls⟩ :=
    requireRunCtx_of_live context
  have count : (level :: arguments).reverse.length = (level :: arguments).length :=
    List.length_reverse
  have several : ¬ (level :: arguments).length < 2 := by
    have := List.length_pos_iff.mpr nonempty
    rw [List.length_cons]
    omega
  have first : (World.mk (level :: arguments).reverse base breached lua host calls).get
      (-((level :: arguments).length : Int)) = level := by
    have here := get_argument (level :: arguments) base breached lua host calls
      (Nat.zero_lt_succ _ : 0 < (level :: arguments).length)
    rwa [Int.natCast_zero, Int.add_zero] at here
  have loop := @logLoop_eq rt (level :: arguments) base breached lua host calls none
    ((level :: arguments).length - 1) 1 (by rw [List.length_cons]; omega)
  rw [List.drop_one, List.tail_cons] at loop
  rw [luajitLogCommand, LuaM.bind_apply, asserted, Outcome.andThen_done, LuaM.bind_apply,
    luaGetTop_apply, Outcome.andThen_done, count, LuaM.ite_apply, if_neg several, LuaM.bind_apply,
    luaValue_apply, Outcome.andThen_done, first, isNumber]
  simp only [if_neg (levelStr_valid named), LuaM.bind_apply, loop,
    Outcome.andThen_done, named, Option.isSome_some, moduleAssert_true]
  rfl

/-- The text that is sent holds the convertible arguments in full, and they are joined by
spaces and nothing else. -/
def TellsArguments (rt : Runtime) (arguments : List Value) : Prop :=
  (∃ first ∈ arguments.head?, first.isString) ∧
    ∀ text ∈ convertibleTexts rt arguments, (0 : UInt8) ∉ text

/-- Putting C strings together in place of the texts loses nothing exactly when no text has a
NUL in it. -/
theorem intercalate_cString_iff {texts : List Bytes} :
    List.intercalate (bytes " ") (texts.map cString) = List.intercalate (bytes " ") texts ↔
      ∀ text ∈ texts, (0 : UInt8) ∉ text := by
  constructor
  · intro same text member null
    have inside : (0 : UInt8) ∈ List.intercalate (bytes " ") texts :=
      mem_intercalate_of_mem member null
    rw [← same] at inside
    exact zero_notMem_intercalate texts inside
  · intro unbroken
    congr 1
    refine (List.map_congr_left fun text member => ?_).trans (List.map_id _)
    exact cString_eq_self_iff.mpr (unbroken text member)

/-- With NULL printed in front, a line is longer than the texts. -/
theorem null_joined_ne (texts : List Bytes) :
    bytes "(null)" ++ texts.flatMap (fun text => bytes " " ++ cString text) ≠
      List.intercalate (bytes " ") texts := by
  intro same
  have unbroken : ∀ text ∈ texts, cString text = text := by
    intro text member
    refine cString_eq_self_iff.mpr fun null => ?_
    have inside : (0 : UInt8) ∈ List.intercalate (bytes " ") texts :=
      mem_intercalate_of_mem member null
    rw [← same, List.mem_append, List.mem_flatMap] at inside
    rcases inside with null | ⟨other, -, null⟩
    · exact absurd null (by decide)
    · rcases List.mem_append.mp null with null | null
      · exact absurd null (by decide)
      · exact zero_notMem_percentS (some other) null
  have plain : texts.flatMap (fun text => bytes " " ++ cString text) =
      texts.flatMap (bytes " " ++ ·) := by
    rw [List.flatMap_def, List.flatMap_def]
    congr 1
    exact List.map_congr_left fun text member => by rw [unbroken text member]
  rw [plain] at same
  have lengths := congrArg List.length same
  cases texts with
  | nil => exact absurd lengths (by decide)
  | cons first rest =>
      rw [intercalate_cons_eq, List.flatMap_cons] at lengths
      simp only [List.length_append] at lengths
      have null : (bytes "(null)").length = 6 := by decide
      omega

/-- What is printed is the convertible arguments just when they are told in full. -/
theorem percentS_logged_iff {arguments : List Value} (nonempty : arguments ≠ []) :
    percentS (appendAll rt 1 none arguments) =
        List.intercalate (bytes " ") (convertibleTexts rt arguments) ↔
      TellsArguments rt arguments := by
  obtain ⟨first, rest, rfl⟩ := List.exists_cons_of_ne_nil nonempty
  rw [percentS_logged]
  cases text : first.toLString rt with
  | some s =>
      have convertible : first.isString := by
        by_contra other
        simp [Value.toLString, other] at text
      have joined : Option.elim (some s) (bytes "(null)") cString ++
          (convertibleTexts rt rest).flatMap (fun text => bytes " " ++ cString text) =
          List.intercalate (bytes " ") ((convertibleTexts rt (first :: rest)).map cString) := by
        simp [convertibleTexts, text, intercalate_cons_eq, List.flatMap_map]
      rw [joined, intercalate_cString_iff]
      simp [TellsArguments, convertible]
  | none =>
      have other : ¬ first.isString := by
        intro convertible
        simp [Value.toLString, convertible] at text
      have texts : convertibleTexts rt (first :: rest) = convertibleTexts rt rest := by
        simp [convertibleTexts, text]
      refine iff_of_false ?_ (by simp [TellsArguments, other])
      rw [texts]
      exact null_joined_ne (convertibleTexts rt rest)

/-- The line is the convertible arguments joined by single spaces exactly when the function
is called in a script, the first argument behind the level is convertible, and no
convertible argument has a NUL in it. -/
theorem server_log_text_iff (lua : State) (base : List Value) (breached : Bool) (host : LogHost)
    (calls : List (FuncRef × State)) {level : Value} {name : String} {arguments : List Value}
    (valid : levelOf rt level = some name) (nonempty : arguments ≠ []) :
    (∃ final, luajitLogCommand rt
          ⟨(level :: arguments).reverse, base, breached, lua, host, calls⟩ = .done () final ∧
        final.host = host ++
          [⟨name, List.intercalate (bytes " ") (convertibleTexts rt arguments)⟩]) ↔
      HasRunCtx lua ∧ TellsArguments rt arguments := by
  by_cases context : HasRunCtx lua
  · rw [luajitLogCommand_sends context base breached host calls valid nonempty,
      ← percentS_logged_iff nonempty]
    simp [context, eq_comm]
  · rcases requireRunCtx_cases (World.mk (level :: arguments).reverse base breached lua host calls)
      with ⟨live, -⟩ | ⟨-, reason, final, stops, -⟩
    · exact absurd live context
    · refine iff_of_false ?_ fun both => context both.1
      rintro ⟨final, run, -⟩
      rw [luajitLogCommand, LuaM.bind_apply, stops] at run
      cases run

/-- A Lua state in a call. -/
def runningState : State where
  heap := default
  globals := 0
  registry := fun _ => .lightuserdata callCtxPointer
  hidden := fun _ => .empty
  hook := none

theorem runningState_context : HasRunCtx runningState := ⟨callCtxPointer, rfl, by decide⟩

/-- `server.log(server.LOG_WARNING, nil, "x")`. -/
theorem null_logged :
    ¬ ∀ (rt : Runtime) (lua : State) (base : List Value) (breached : Bool) (host : LogHost)
        (calls : List (FuncRef × State)) (level : Value) (name : String) (arguments : List Value),
      HasRunCtx lua → levelOf rt level = some name → arguments ≠ [] →
        ∃ final, luajitLogCommand rt
            ⟨(level :: arguments).reverse, base, breached, lua, host, calls⟩ = .done () final ∧
          final.host = host ++
            [⟨name, List.intercalate (bytes " ") (convertibleTexts rt arguments)⟩] := by
  intro holds
  have valid : levelOf .plain (.number (.finite 3)) = some "warning" := by decide
  obtain ⟨final, run, line⟩ := holds .plain runningState [] false [] [] (.number (.finite 3)) "warning"
    [.nil, .string (bytes "x")] runningState_context valid (by decide)
  have sent : final.host = [⟨"warning", bytes "(null) x"⟩] := by
    rw [luajitLogCommand_sends runningState_context _ _ _ _ valid (by decide)] at run
    cases run
    decide
  rw [sent] at line
  exact absurd line (by decide)

/-- `server.log(server.LOG_WARNING, "x", nil, "y")`. -/
theorem skipped_argument_logged : ∃ final, luajitLogCommand .plain
      ⟨[.number (.finite 3), .string (bytes "x"), .nil, .string (bytes "y")].reverse, [], false,
        runningState, [], []⟩ = .done () final ∧
    final.host = [] ++ [⟨"warning", bytes "x y"⟩] :=
  (@server_log_text_iff .plain runningState [] false [] [] (.number (.finite 3)) "warning"
    [.string (bytes "x"), .nil, .string (bytes "y")] (by decide) (by decide)).mpr
    ⟨runningState_context, ⟨.string (bytes "x"), rfl, rfl⟩, by decide⟩

end Command

end ValkeyLuajit
