import ValkeyLuajit.Function.Register
import ValkeyLuajit.Function.UserRegister

/-!
# Load-time and run-time registration

The load reads named arguments in whatever order `lua_next` meets them, and
takes a key for `function_name` in any letter case; the last such key decides.
The user's state looks the exact keys up. The two agree on an argument list
exactly when the exact keys say what the load met last.
-/

namespace ValkeyLuajit

open Lua

variable {rt : Runtime} {fuel : Nat}

/-- The key of a named argument is taken for `name`. -/
def IsAlias (rt : Runtime) (name : String) (key : Value) : Bool :=
  strcasecmp (key.text rt) (bytes name)

/-- The value of the last entry whose key is taken for `name`. -/
def lastAlias (rt : Runtime) (name : String) : List (Value × Value) → Option Value
  | [] => none
  | (key, value) :: rest =>
      (lastAlias rt name rest).or (if IsAlias rt name key then some value else none)

/-- The entries that `lua_next` yields after `key`, in order. Between two of them
code of the script runs only while a flags table is read, and what it does to the
heap is what the rest of the traversal meets. -/
inductive Met (rt : Runtime) (fuel : Nat) (table : Value) :
    State → List (FuncRef × State) → Value → List (Value × Value) → Prop
  | last {lua : State} {calls : List (FuncRef × State)} {key : Value}
      (fetched : (lua.tableOf table).next key = some none) : Met rt fuel table lua calls key []
  | plain {lua : State} {calls : List (FuncRef × State)} {key name value : Value}
      {rest : List (Value × Value)}
      (fetched : (lua.tableOf table).next key = some (some ⟨name, value⟩))
      (other : IsAlias rt "flags" name = false)
      (others : Met rt fuel table lua calls name rest) :
      Met rt fuel table lua calls key ((name, value) :: rest)
  | flags {lua lua' : State} {calls calls' : List (FuncRef × State)} {key name value : Value}
      {rest : List (Value × Value)} {found : Nat}
      (fetched : (lua.tableOf table).next key = some (some ⟨name, value⟩))
      (named : IsAlias rt "flags" name = true)
      (read : luajitRegisterFunctionReadFlags rt fuel ⟨[value], [], false, lua, {}, calls⟩ =
        .done (some found) ⟨[value], [], false, lua', {}, calls'⟩)
      (others : Met rt fuel table lua' calls' name rest) :
      Met rt fuel table lua calls key ((name, value) :: rest)

/-- A text is taken for one name at most. -/
theorem strcasecmp_exclusive {text first second : Bytes}
    (differ : (cString first).map toLower ≠ (cString second).map toLower)
    (same : strcasecmp text first = true) : strcasecmp text second = false := by
  have lower : (cString text).map toLower = (cString first).map toLower := by
    simpa [strcasecmp] using same
  simpa [strcasecmp, lower] using differ

/-- Reading flags depends on the heap alone, and ends with the stack as it was. -/
theorem readFlagsLoop_frame {rounds j flags : Nat} {value : Value} {frame base : List Value}
    {breached : Bool} {lua : State} {host : LoadHost} {calls : List (FuncRef × State)}
    {answer : Option Nat} {final : World LoadHost}
    (run : readFlagsLoop rt rounds j flags ⟨value :: frame, base, breached, lua, host, calls⟩ =
      .done answer final) :
    ∃ lua' calls', final = ⟨value :: frame, base, breached, lua', host, calls'⟩ ∧
      readFlagsLoop rt rounds j flags ⟨[value], [], false, lua, {}, calls⟩ =
        .done answer ⟨[value], [], false, lua', {}, calls'⟩ := by
  induction rounds generalizing j flags lua calls with
  | zero => simp [readFlagsLoop] at run
  | succ rounds ih =>
      rcases fetched : lua.fetch rt calls value (.number (.finite j)) with
        ⟨error | element, lua', calls'⟩
      · simp [readFlagsLoop, luaGetTable, luaIndex_fetch, fetched] at run
      · by_cases nil : element.isNil
        · simp [readFlagsLoop, luaGetTable, luaIndex_fetch, fetched, nil] at run ⊢
          exact ⟨run.2.symm, run.1⟩
        · by_cases text : element.isString
          · cases named : findFlag (element.text rt) with
            | none =>
                simp [readFlagsLoop, luaGetTable, luaIndex_fetch, fetched, nil, text, named]
                  at run ⊢
                exact ⟨run.2.symm, run.1⟩
            | some flag =>
                simp [readFlagsLoop, luaGetTable, luaIndex_fetch, fetched, nil, text, named]
                  at run ⊢
                exact ih run
          · simp [readFlagsLoop, luaGetTable, luaIndex_fetch, fetched, nil, text] at run ⊢
            exact ⟨run.2.symm, run.1⟩

/-- One list of arguments is met in one way. -/
theorem Met.unique {table key : Value} {lua : State} {calls : List (FuncRef × State)}
    {first second : List (Value × Value)} (left : Met rt fuel table lua calls key first)
    (right : Met rt fuel table lua calls key second) : first = second := by
  induction left generalizing second with
  | last fetched =>
      cases right with
      | last _ => rfl
      | plain fetched' _ _ => simp [fetched] at fetched'
      | flags fetched' _ _ _ => simp [fetched] at fetched'
  | plain fetched other _ ih =>
      cases right with
      | last fetched' => simp [fetched] at fetched'
      | plain fetched' _ others =>
          simp [fetched] at fetched'
          obtain ⟨rfl, rfl⟩ := fetched'
          rw [ih others]
      | flags fetched' named _ _ =>
          simp [fetched] at fetched'
          obtain ⟨rfl, rfl⟩ := fetched'
          simp [other] at named
  | flags fetched named read _ ih =>
      cases right with
      | last fetched' => simp [fetched] at fetched'
      | plain fetched' other _ =>
          simp [fetched] at fetched'
          obtain ⟨rfl, rfl⟩ := fetched'
          simp [other] at named
      | flags fetched' _ read' others =>
          simp [fetched] at fetched'
          obtain ⟨rfl, rfl⟩ := fetched'
          rw [read] at read'
          simp at read'
          obtain ⟨-, rfl, rfl⟩ := read'
          rw [ih others]

theorem lastAlias_append (name : String) (first rest : List (Value × Value)) :
    lastAlias rt name (first ++ rest) = (lastAlias rt name rest).or (lastAlias rt name first) := by
  induction first with
  | nil => simp [lastAlias]
  | cons entry first ih => simp [lastAlias, ih, Option.or_assoc]

/-- What the loop made of the entries it met: the name is the last one, and every
callback it met is a function. -/
structure ReadFrom (rt : Runtime) (met : List (Value × Value)) (pf result : PendingFunc) : Prop where
  name : result.name.map ModuleString.text =
    ((lastAlias rt "function_name" met).map (Value.text rt)).or (pf.name.map ModuleString.text)
  hasCallback : result.hasCallback = (pf.hasCallback || (lastAlias rt "callback" met).isSome)
  callback : ∀ value, lastAlias rt "callback" met = some value → value.isFunction = true

/-- The entry gives a string that the load keeps. -/
def GivesString (rt : Runtime) (entry : Value × Value) : Bool :=
  IsAlias rt "function_name" entry.1 || IsAlias rt "description" entry.1

/-- The flags after these entries: those the last flags table gave, or else `flags`. -/
def flagsMet (rt : Runtime) (fuel : Nat) :
    List (Value × Value) → State → List (FuncRef × State) → Nat → Nat
  | [], _, _, flags => flags
  | (name, value) :: rest, lua, calls, flags =>
      if IsAlias rt "flags" name then
        match luajitRegisterFunctionReadFlags rt fuel ⟨[value], [], false, lua, {}, calls⟩ with
        | .done (some found) final => flagsMet rt fuel rest final.lua final.metaCalls found
        | _ => flags
      else flagsMet rt fuel rest lua calls flags

/-- What else the loop made of them: the description and the flags are the last ones, and
there is a new string for every entry that gives one. -/
structure Gathered (rt : Runtime) (fuel : Nat) (met : List (Value × Value)) (lua : State)
    (calls : List (FuncRef × State)) (pf result : PendingFunc) (before after : LoadHost) :
    Prop where
  desc : result.desc.map ModuleString.text =
    ((lastAlias rt "description" met).map (Value.text rt)).or (pf.desc.map ModuleString.text)
  flags : result.flags = flagsMet rt fuel met lua calls pf.flags
  allocated : after.allocated = before.allocated + met.countP (GivesString rt)

/-- Reading on from what was read composes. -/
theorem ReadFrom.append {first rest : List (Value × Value)} {pf mid result : PendingFunc}
    (before : ReadFrom rt first pf mid) (after : ReadFrom rt rest mid result) :
    ReadFrom rt (first ++ rest) pf result where
  name := by
    rw [after.name, before.name, lastAlias_append]
    cases lastAlias rt "function_name" rest <;> simp
  hasCallback := by
    rw [after.hasCallback, before.hasCallback, lastAlias_append]
    cases lastAlias rt "callback" rest <;> simp
  callback := by
    intro value found
    rw [lastAlias_append] at found
    cases later : lastAlias rt "callback" rest with
    | none => exact before.callback value (by simpa [later] using found)
    | some last => exact after.callback value (by simpa [later] using found)

/-- Reading one entry and then the others, from the state the first one left. -/
theorem Gathered.cons {name value : Value} {rest : List (Value × Value)} {lua lua' : State}
    {calls calls' : List (FuncRef × State)} {pf mid result : PendingFunc}
    {before between after : LoadHost}
    (first : Gathered rt fuel [(name, value)] lua calls pf mid before between)
    (later : Gathered rt fuel rest lua' calls' mid result between after)
    (read : flagsMet rt fuel ((name, value) :: rest) lua calls pf.flags =
      flagsMet rt fuel rest lua' calls' (flagsMet rt fuel [(name, value)] lua calls pf.flags)) :
    Gathered rt fuel ((name, value) :: rest) lua calls pf result before after where
  desc := by
    rw [later.desc, first.desc, show (name, value) :: rest = [(name, value)] ++ rest from rfl,
      lastAlias_append]
    cases lastAlias rt "description" rest <;> simp
  flags := by rw [later.flags, first.flags, read]
  allocated := by
    rw [later.allocated, first.allocated, show (name, value) :: rest = [(name, value)] ++ rest from rfl,
      List.countP_append, Nat.add_assoc]

/-- Reading one named argument without an error. Only flags run code of the script. -/
theorem readNamedArg_ok {pf result : PendingFunc} {name value : Value} {frame base : List Value}
    {breached : Bool} {lua : State} {host : LoadHost} {calls : List (FuncRef × State)}
    {final : World LoadHost}
    (run : readNamedArg rt fuel pf ⟨value :: name :: frame, base, breached, lua, host, calls⟩ =
      .done (none, result) final) :
    ∃ lua' host' calls', final = ⟨name :: frame, base, breached, lua', host', calls'⟩ ∧
      host'.functions = host.functions ∧ ReadFrom rt [(name, value)] pf result ∧
      Gathered rt fuel [(name, value)] lua calls pf result host host' ∧
      (IsAlias rt "flags" name = false ∧ lua' = lua ∧ calls' = calls ∨
        IsAlias rt "flags" name = true ∧
          ∃ found, luajitRegisterFunctionReadFlags rt fuel ⟨[value], [], false, lua, {}, calls⟩ =
            .done (some found) ⟨[value], [], false, lua', {}, calls'⟩) := by
  have apart {first : String} (second : String)
      (differ : (cString (bytes first)).map toLower ≠ (cString (bytes second)).map toLower)
      (same : strcasecmp (name.text rt) (bytes first) = true) :
      strcasecmp (name.text rt) (bytes second) = false := strcasecmp_exclusive differ same
  by_cases text : name.isString
  · by_cases isName : strcasecmp (name.text rt) (bytes "function_name")
    · have notCallback := apart "callback" (by decide) isName
      have notFlags := apart "flags" (by decide) isName
      have notDesc := apart "description" (by decide) isName
      by_cases named : value.isString
      · simp [readNamedArg, text, isName, luajitGetStringObject, named] at run
        obtain ⟨rfl, rfl⟩ := run
        refine ⟨lua, _, calls, rfl, rfl, ⟨by simp [lastAlias, IsAlias, isName],
          by simp [lastAlias, IsAlias, notCallback], by simp [lastAlias, IsAlias, notCallback]⟩,
          ⟨?_, ?_, ?_⟩, .inl ⟨notFlags, rfl, rfl⟩⟩
        · simp [lastAlias, IsAlias, notDesc]
        · simp [flagsMet, IsAlias, notFlags]
        · simp [GivesString, IsAlias, isName]
      · simp [readNamedArg, text, isName, luajitGetStringObject, named] at run
    · by_cases isDesc : strcasecmp (name.text rt) (bytes "description")
      · have notCallback := apart "callback" (by decide) isDesc
        have notFlags := apart "flags" (by decide) isDesc
        by_cases described : value.isString
        · simp [readNamedArg, text, isName, isDesc, luajitGetStringObject, described] at run
          obtain ⟨rfl, rfl⟩ := run
          refine ⟨lua, _, calls, rfl, rfl, ⟨by simp [lastAlias, IsAlias, isName],
            by simp [lastAlias, IsAlias, notCallback], by simp [lastAlias, IsAlias, notCallback]⟩,
            ⟨?_, ?_, ?_⟩, .inl ⟨notFlags, rfl, rfl⟩⟩
          · simp [lastAlias, IsAlias, isDesc]
          · simp [flagsMet, IsAlias, notFlags]
          · simp [GivesString, IsAlias, isDesc]
        · simp [readNamedArg, text, isName, isDesc, luajitGetStringObject, described] at run
      · by_cases isCallback : strcasecmp (name.text rt) (bytes "callback")
        · have notFlags := apart "flags" (by decide) isCallback
          by_cases callable : value.isFunction
          · simp [readNamedArg, text, isName, isDesc, isCallback, callable] at run
            obtain ⟨rfl, rfl⟩ := run
            refine ⟨lua, _, calls, rfl, rfl, ⟨by simp [lastAlias, IsAlias, isName],
              by simp [lastAlias, IsAlias, isCallback],
              by simp [lastAlias, IsAlias, isCallback, callable]⟩, ⟨?_, ?_, ?_⟩,
              .inl ⟨notFlags, rfl, rfl⟩⟩
            · simp [lastAlias, IsAlias, isDesc]
            · simp [flagsMet, IsAlias, notFlags]
            · simp [GivesString, IsAlias, isName, isDesc]
          · simp [readNamedArg, text, isName, isDesc, isCallback, callable] at run
        · by_cases isFlags : strcasecmp (name.text rt) (bytes "flags")
          · by_cases table : value.isTable
            · cases read : luajitRegisterFunctionReadFlags rt fuel
                ⟨value :: name :: frame, base, breached, lua, host, calls⟩ with
              | done answer found =>
                  obtain ⟨lua', calls', rfl, alone⟩ := readFlagsLoop_frame read
                  cases answer with
                  | none =>
                      simp [readNamedArg, text, isName, isDesc, isCallback, isFlags, table, read]
                        at run
                  | some flags =>
                      simp [readNamedArg, text, isName, isDesc, isCallback, isFlags, table, read]
                        at run
                      obtain ⟨rfl, rfl⟩ := run
                      refine ⟨lua', host, calls', rfl, rfl, ⟨by simp [lastAlias, IsAlias, isName],
                        by simp [lastAlias, IsAlias, isCallback],
                        by simp [lastAlias, IsAlias, isCallback]⟩, ⟨?_, ?_, ?_⟩,
                        .inr ⟨isFlags, flags, alone⟩⟩
                      · simp [lastAlias, IsAlias, isDesc]
                      · simp [flagsMet, IsAlias, isFlags, luajitRegisterFunctionReadFlags, alone]
                      · simp [GivesString, IsAlias, isName, isDesc]
              | raised error found =>
                  simp [readNamedArg, text, isName, isDesc, isCallback, isFlags, table, read] at run
              | aborted reason found =>
                  simp [readNamedArg, text, isName, isDesc, isCallback, isFlags, table, read] at run
            · simp [readNamedArg, text, isName, isDesc, isCallback, isFlags, table] at run
          · simp [readNamedArg, text, isName, isDesc, isCallback, isFlags] at run
  · simp [readNamedArg, text] at run

theorem readNamedArgsLoop_met {rounds : Nat} {pf result : PendingFunc} {key table : Value}
    {frame base : List Value} {breached : Bool} {lua : State} {host : LoadHost}
    {calls : List (FuncRef × State)} {final : World LoadHost}
    (run : readNamedArgsLoop rt fuel rounds pf
        ⟨key :: table :: frame, base, breached, lua, host, calls⟩ = .done (none, result) final) :
    ∃ met, Met rt fuel table lua calls key met ∧ ReadFrom rt met pf result ∧
      Gathered rt fuel met lua calls pf result host final.host ∧
        final.host.functions = host.functions := by
  induction rounds generalizing pf key lua host calls with
  | zero => simp [readNamedArgsLoop] at run
  | succ rounds ih =>
      rcases fetched : (lua.tableOf table).next key with _ | _ | ⟨name, value⟩
      · simp [readNamedArgsLoop, luaNext, fetched] at run
      · simp [readNamedArgsLoop, luaNext, fetched] at run
        obtain ⟨rfl, rfl⟩ := run
        refine ⟨[], .last fetched, ⟨?_, ?_, ?_⟩, ⟨?_, rfl, rfl⟩, rfl⟩ <;> simp [lastAlias]
      · cases read : readNamedArg rt fuel pf
          ⟨value :: name :: table :: frame, base, breached, lua, host, calls⟩ with
        | raised error found => simp [readNamedArgsLoop, luaNext, fetched, read] at run
        | aborted reason found => simp [readNamedArgsLoop, luaNext, fetched, read] at run
        | done answer found =>
            obtain ⟨_ | err, mid⟩ := answer
            · obtain ⟨lua', host', calls', rfl, kept, one, first, effect⟩ := readNamedArg_ok read
              simp [readNamedArgsLoop, luaNext, fetched, read] at run
              obtain ⟨met, others, rest, later, unchanged⟩ := ih run
              rcases effect with ⟨other, rfl, rfl⟩ | ⟨named, flags, flagsRead⟩
              · refine ⟨(name, value) :: met, .plain fetched other others, one.append rest,
                  first.cons later ?_, unchanged.trans kept⟩
                simp [flagsMet, other]
              · refine ⟨(name, value) :: met, .flags fetched named flagsRead others,
                  one.append rest, first.cons later ?_, unchanged.trans kept⟩
                simp [flagsMet, named, flagsRead]
            · simp [readNamedArgsLoop, luaNext, fetched, read] at run

/-- A name and a function, as the load meets them. -/
def positionalArguments (name callback : Value) : List (Value × Value) :=
  [(.string (bytes "function_name"), name), (.string (bytes "callback"), callback)]

theorem lastAlias_positional (name callback : Value) :
    lastAlias rt "function_name" (positionalArguments name callback) = some name ∧
      lastAlias rt "callback" (positionalArguments name callback) = some callback := by
  have exact : strcasecmp (bytes "function_name") (bytes "function_name") = true := by decide
  have apart : strcasecmp (bytes "callback") (bytes "function_name") = false := by decide
  have own : strcasecmp (bytes "callback") (bytes "callback") = true := by decide
  constructor <;> simp [positionalArguments, lastAlias, IsAlias, Value.text, exact, apart, own]

/-- They give one string, no description and no flags. -/
theorem gathered_positional {name callback : Value} {lua : State} {calls : List (FuncRef × State)}
    {pf result : PendingFunc} {before after : LoadHost} (desc : result.desc = pf.desc)
    (flags : result.flags = pf.flags) (allocated : after.allocated = before.allocated + 1) :
    Gathered rt fuel (positionalArguments name callback) lua calls pf result before after := by
  have noDesc (key : String) (listed : key = "function_name" ∨ key = "callback") :
      strcasecmp (bytes key) (bytes "description") = false ∧
        strcasecmp (bytes key) (bytes "flags") = false := by
    rcases listed with rfl | rfl <;> decide
  have own : strcasecmp (bytes "function_name") (bytes "function_name") = true := by decide
  have apart : strcasecmp (bytes "callback") (bytes "function_name") = false := by decide
  obtain ⟨nameDesc, nameFlags⟩ := noDesc "function_name" (.inl rfl)
  obtain ⟨callbackDesc, callbackFlags⟩ := noDesc "callback" (.inr rfl)
  constructor
  · simp [positionalArguments, lastAlias, IsAlias, Value.text, nameDesc, callbackDesc, desc]
  · simp [positionalArguments, flagsMet, IsAlias, Value.text, nameFlags, callbackFlags, flags]
  · simp [positionalArguments, GivesString, IsAlias, Value.text, own, apart, callbackDesc, allocated]

/-- The arguments of a registration as named values, in the order the load meets
them. A name and a function count as given under the exact names. -/
inductive ArgumentsMet (rt : Runtime) (fuel : Nat) (load : World LoadHost) :
    List Value → List (Value × Value) → Prop
  | positional (name callback : Value) :
      ArgumentsMet rt fuel load [name, callback] (positionalArguments name callback)
  | named {argument : Value} {met : List (Value × Value)}
      (traversal : Met rt fuel argument load.lua load.metaCalls .nil met) :
      ArgumentsMet rt fuel load [argument] met

theorem ArgumentsMet.unique {load : World LoadHost} {args : List Value}
    {first second : List (Value × Value)} (left : ArgumentsMet rt fuel load args first)
    (right : ArgumentsMet rt fuel load args second) : first = second := by
  cases left with
  | positional => cases right; rfl
  | named traversal =>
      cases right with
      | named other => exact traversal.unique other

/-- The load accepts the arguments, which it meets as `met`, and records `name`
for them; `callback` is the function it accepted. -/
structure AcceptedAtLoad (rt : Runtime) (fuel : Nat) (load : World LoadHost) (args : List Value)
    (met : List (Value × Value)) (name : Bytes) (callback : Value) : Prop where
  recorded : ∃ final pf, inFrame args (luajitFunctionRegisterFunction rt fuel) load =
      .done () final ∧ final.host.functions = load.host.functions ++ [pf] ∧
    pf.name.map ModuleString.text = some name
  arguments : ArgumentsMet rt fuel load args met
  callback : lastAlias rt "callback" met = some callback

/-- Arguments that are rejected are never accepted in the end. -/
theorem readArgsError_rejects {err : String} {pf answer : PendingFunc}
    {world final : World LoadHost} :
    readArgsError rt err pf world ≠ .done (true, answer) final := by
  intro run
  simp [readArgsError, Outcome.andThen_eq_done] at run

theorem readNamedArgs_accepted {pf answer : PendingFunc} {argument : Value} {base : List Value}
    {breached : Bool} {lua : State} {host : LoadHost} {calls : List (FuncRef × State)}
    {final : World LoadHost}
    (run : luajitRegisterFunctionReadNamedArgs rt fuel pf
      ⟨[argument], base, breached, lua, host, calls⟩ = .done (true, answer) final) :
    ∃ met, Met rt fuel argument lua calls .nil met ∧ ReadFrom rt met pf answer ∧
      Gathered rt fuel met lua calls pf answer host final.host ∧
      answer.name.isSome ∧ answer.hasCallback ∧ final.host.functions = host.functions := by
  by_cases table : argument.isTable
  · simp [luajitRegisterFunctionReadNamedArgs, table, Outcome.andThen_eq_done] at run
    obtain ⟨err, read, mid, looped, checked⟩ := run
    cases err with
    | some err => exact absurd checked readArgsError_rejects
    | none =>
        obtain ⟨met, traversal, reads, gathered, kept⟩ := readNamedArgsLoop_met looped
        by_cases named : read.name = none
        · simp only [named, if_true] at checked
          exact absurd checked readArgsError_rejects
        · by_cases called : read.hasCallback
          · simp [named, called] at checked
            obtain ⟨rfl, rfl⟩ := checked
            exact ⟨met, traversal, reads, gathered, Option.isSome_iff_ne_none.mpr named, called,
              kept⟩
          · simp [named, called] at checked
            exact absurd checked readArgsError_rejects
  · simp [luajitRegisterFunctionReadNamedArgs, table] at run
    exact absurd run readArgsError_rejects

theorem readPositionalArgs_accepted {pf answer : PendingFunc} {name callback : Value}
    {base : List Value} {breached : Bool} {lua : State} {host : LoadHost}
    {calls : List (FuncRef × State)} {final : World LoadHost}
    (run : luajitRegisterFunctionReadPositionalArgs rt pf
      ⟨[callback, name], base, breached, lua, host, calls⟩ = .done (true, answer) final) :
    answer.name.map ModuleString.text = some (name.text rt) ∧ callback.isFunction ∧
      answer.desc = pf.desc ∧ answer.flags = pf.flags ∧
      final.host = { host with allocated := host.allocated + 1 } := by
  by_cases text : name.isString
  · by_cases callable : callback.isFunction
    · simp [luajitRegisterFunctionReadPositionalArgs, luajitGetStringObject, text, callable] at run
      obtain ⟨rfl, rfl⟩ := run
      exact ⟨rfl, callable, rfl, rfl, rfl⟩
    · simp [luajitRegisterFunctionReadPositionalArgs, luajitGetStringObject, text, callable] at run
      exact absurd run readArgsError_rejects
  · simp [luajitRegisterFunctionReadPositionalArgs, luajitGetStringObject, text] at run
    exact absurd run readArgsError_rejects

/-- What the load records comes from the last names it met. -/
theorem register_accepted {load final : World LoadHost} {args : List Value}
    (accepted : inFrame args (luajitFunctionRegisterFunction rt fuel) load = .done () final) :
    ∃ met pf name callback, ArgumentsMet rt fuel load args met ∧
      final.host.functions = load.host.functions ++ [pf] ∧
      lastAlias rt "function_name" met = some name ∧
      pf.name.map ModuleString.text = some (name.text rt) ∧
      lastAlias rt "callback" met = some callback ∧ callback.isFunction ∧
      Gathered rt fuel met load.lua load.metaCalls ⟨load.host.allocated, none, none, false, 0⟩ pf
        { load.host with allocated := load.host.allocated + 1 } final.host := by
  obtain ⟨inner, run, rfl⟩ := inFrame_eq_done.mp accepted
  simp only [luajitFunctionRegisterFunction, LuaM.bind_apply, Outcome.andThen_eq_done] at run
  obtain ⟨loadCtx, found, got, run⟩ := run
  obtain rfl := luajitGetFromRegistry_done got
  cases loadCtx with
  | none => simp [Outcome.andThen_eq_done] at run
  | some pointer =>
      simp [Outcome.andThen_eq_done] at run
      obtain ⟨pf, mid, read, rfl⟩ := run
      match args with
      | [] => simp [luajitRegisterFunctionReadArgs, Outcome.andThen_eq_done] at read
      | [argument] =>
          simp [luajitRegisterFunctionReadArgs] at read
          obtain ⟨met, traversal, reads, gathered, named, called, kept⟩ := readNamedArgs_accepted read
          have recorded := reads.name
          have accepts := reads.hasCallback
          simp only [Option.map_none, Option.or_none] at recorded
          obtain ⟨name, found⟩ : ∃ name, lastAlias rt "function_name" met = some name := by
            rw [← Option.isSome_iff_exists, ← Option.isSome_map, ← recorded, Option.isSome_map]
            exact named
          obtain ⟨callback, bound⟩ : ∃ callback, lastAlias rt "callback" met = some callback := by
            rw [← Option.isSome_iff_exists]
            simpa [called] using accepts.symm
          exact ⟨met, pf, name, callback, .named traversal, by simp [World.setHost, kept], found,
            by simp [recorded, found], bound, reads.callback callback bound,
            ⟨gathered.desc, gathered.flags, gathered.allocated⟩⟩
      | [name, callback] =>
          simp [luajitRegisterFunctionReadArgs] at read
          obtain ⟨recorded, callable, desc, flags, kept⟩ := readPositionalArgs_accepted read
          refine ⟨_, pf, name, callback, .positional name callback, by simp [World.setHost, kept],
            (lastAlias_positional name callback).1, recorded,
            (lastAlias_positional name callback).2, callable, ?_⟩
          exact gathered_positional desc flags (by simp [World.setHost, kept])
      | first :: second :: third :: rest =>
          simp [luajitRegisterFunctionReadArgs, Outcome.andThen_eq_done] at read

/-- A table without a metatable is read raw. -/
theorem Lua.State.fetch_bare {lua : State} {calls : List (FuncRef × State)} {addr : Addr}
    (key : Value) (bare : (lua.heap.cells addr).metatable = none) :
    lua.fetch rt calls (.table addr) key =
      (.ok ((lua.heap.cells addr).rawGet key), lua, calls) := by
  simp [State.fetch, State.lookup, Heap.index_of_no_metatable key bare]

/-- What a user's state takes for the name and the callback: the values under the
exact names. -/
def exactArguments (heap : Heap) : List Value → Value × Value
  | [name, callback] => (name, callback)
  | [.table addr] =>
      ((heap.cells addr).rawGet (.string (bytes "function_name")),
        (heap.cells addr).rawGet (.string (bytes "callback")))
  | _ => (.nil, .nil)

/-- The argument is a name and a function, or one table without a metatable. -/
def PlainArguments (heap : Heap) (args : List Value) : Prop :=
  ∀ argument, args = [argument] →
    ∃ addr, argument = .table addr ∧ (heap.cells addr).metatable = none

/-- A registration in a user's state resolves to the exact arguments. -/
theorem resolveRegistration_plain {lua : State} {calls : List (FuncRef × State)}
    {args : List Value} {name : Bytes} {callback : Value}
    {after : State} {calls' : List (FuncRef × State)} (plain : PlainArguments lua.heap args) :
    resolveRegistration rt lua calls args = (.ok (name, callback), after, calls') ↔
      (exactArguments lua.heap args).1.isString ∧ (exactArguments lua.heap args).2.isFunction ∧
        name = (exactArguments lua.heap args).1.text rt ∧
        callback = (exactArguments lua.heap args).2 ∧ after = lua ∧ calls' = calls := by
  match args with
  | [] => simp [resolveRegistration, exactArguments, Value.isString, Value.type]
  | [argument] =>
      obtain ⟨addr, rfl, bare⟩ := plain _ rfl
      have table : (Value.table addr).isTable = true := rfl
      simp only [resolveRegistration, exactArguments, State.fetch_bare _ bare, table]
      by_cases named : ((lua.heap.cells addr).rawGet (.string (bytes "function_name"))).isString <;>
        by_cases callable : ((lua.heap.cells addr).rawGet (.string (bytes "callback"))).isFunction <;>
          simp [named, callable, eq_comm, and_assoc]
  | [first, second] =>
      by_cases named : first.isString <;> by_cases callable : second.isFunction <;>
        simp [resolveRegistration, exactArguments, named, callable, eq_comm, and_assoc]
  | first :: second :: third :: rest =>
      simp [resolveRegistration, exactArguments, Value.isString, Value.type]

/-- The registration succeeds in the user's state, binds exactly this name to this
callback, and changes no other name. -/
def BindsExactly (rt : Runtime) (args : List Value) (user : World CallHost) (name : Bytes)
    (callback : Value) : Prop :=
  ∃ final, inFrame args (luajitUserStateRegisterFunction rt) user = .done () final ∧
    ∀ other, final.lua.functionNamed other =
      if other = name then callback else user.lua.functionNamed other

/-- The exact names say what the load met last, and the name has no NUL in it. -/
def SpelledExactly (rt : Runtime) (heap : Heap) (args : List Value)
    (met : List (Value × Value)) : Prop :=
  (exactArguments heap args).1.isString ∧
    (lastAlias rt "function_name" met).map (Value.text rt) =
      some (cString ((exactArguments heap args).1.text rt)) ∧
    lastAlias rt "callback" met = some (exactArguments heap args).2

/-- What the load recorded for a call is what it met last under the names. -/
theorem AcceptedAtLoad.given {load : World LoadHost} {args : List Value}
    {met : List (Value × Value)} {name : Bytes} {callback : Value}
    (accepted : AcceptedAtLoad rt fuel load args met name callback) :
    ∃ given, lastAlias rt "function_name" met = some given ∧ name = given.text rt ∧
      callback.isFunction := by
  obtain ⟨final, pf, run, appended, recorded⟩ := accepted.recorded
  obtain ⟨met', pf', given, loadCallback, arguments, appended', found, text, bound, callable, -⟩ :=
    register_accepted run
  obtain rfl := arguments.unique accepted.arguments
  obtain rfl : pf = pf' := by simpa [appended] using appended'
  obtain rfl : callback = loadCallback := by simpa [accepted.callback] using bound
  exact ⟨given, found, by simpa [recorded] using text, callable⟩

/-- Exact names resolve, in a user's state with the same heap, to the callback that the load
met, under a name that is the recorded one as a C string. -/
theorem SpelledExactly.resolves {load : World LoadHost} {args : List Value}
    {met : List (Value × Value)} {name : Bytes} {callback : Value} {lua : State}
    (spelled : SpelledExactly rt load.lua.heap args met) (plain : PlainArguments load.lua.heap args)
    (accepted : AcceptedAtLoad rt fuel load args met name callback)
    (heap : lua.heap = load.lua.heap) (calls : List (FuncRef × State)) :
    ∃ exact, resolveRegistration rt lua calls args = (.ok (exact, callback), lua, calls) ∧
      cString exact = name := by
  obtain ⟨isString, sameName, sameCallback⟩ := spelled
  obtain ⟨given, found, rfl, callable⟩ := accepted.given
  rw [found, Option.map_some, Option.some.injEq] at sameName
  rw [accepted.callback, Option.some.injEq] at sameCallback
  refine ⟨(exactArguments load.lua.heap args).1.text rt, ?_, sameName.symm⟩
  refine (resolveRegistration_plain (heap ▸ plain)).mpr ?_
  rw [heap]
  exact ⟨isString, sameCallback ▸ callable, rfl, sameCallback, rfl, rfl⟩

/-- A user's state with nothing in it but this heap. -/
def blankUser (heap : Heap) : World CallHost :=
  ⟨[], [], false, ⟨heap, 0, fun name => .hidden name, fun _ => .empty, none⟩, ⟨none, []⟩, []⟩

@[simp] theorem blankUser_heap (heap : Heap) : (blankUser heap).lua.heap = heap := rfl

/-- Load-time and run-time registration agree on an argument list exactly when its
exact names say what the load met last. -/
theorem registration_agrees_iff {load : World LoadHost} {args : List Value}
    {met : List (Value × Value)} {name : Bytes} {callback : Value}
    (plain : PlainArguments load.lua.heap args)
    (accepted : AcceptedAtLoad rt fuel load args met name callback) :
    (∀ user : World CallHost, user.lua.heap = load.lua.heap →
      user.lua.registry libraryFunctionsName = .hidden libraryFunctionsName →
      BindsExactly rt args user name callback) ↔
    SpelledExactly rt load.lua.heap args met := by
  constructor
  · intro agrees
    obtain ⟨loadName, found, rfl, callable⟩ := accepted.given
    obtain ⟨after, bind, table⟩ := agrees (blankUser load.lua.heap) rfl rfl
    rw [luajitUserStateRegisterFunction_spec args rfl, registrationOutcome] at bind
    rcases resolved : resolveRegistration rt (blankUser load.lua.heap).lua
      (blankUser load.lua.heap).metaCalls args with ⟨error | ⟨boundName, boundCallback⟩, lua, calls⟩
    · simp [resolved] at bind
    · simp only [resolved, Outcome.done.injEq, true_and] at bind
      subst bind
      have plainUser : PlainArguments (blankUser load.lua.heap).lua.heap args := plain
      obtain ⟨isString, isFunction, rfl, rfl, rfl, rfl⟩ :=
        (resolveRegistration_plain plainUser).mp resolved
      have here := table (loadName.text rt)
      simp only [functionNamed_bindFunction, blankUser_heap, if_true] at here isString
      have sameName : loadName.text rt =
          cString ((exactArguments load.lua.heap args).1.text rt) := by
        by_contra differ
        rw [if_neg differ] at here
        have blank : callback = .nil := by
          rw [← here]
          simp [State.functionNamed, blankUser]
        simp [blank, Value.isFunction, Value.type] at callable
      rw [if_pos sameName] at here
      refine ⟨isString, ?_, ?_⟩
      · rw [found, Option.map_some, sameName]
      · rw [accepted.callback, here]
  · intro spelled user sameHeap functions
    obtain ⟨exact, resolved, rfl⟩ := spelled.resolves plain accepted sameHeap user.metaCalls
    have bind : inFrame args (luajitUserStateRegisterFunction rt) user =
        .done () { user with lua := user.lua.bindFunction exact callback } := by
      rw [luajitUserStateRegisterFunction_spec args functions, registrationOutcome, resolved]
    exact ⟨_, bind, fun other => functionNamed_bindFunction user.lua exact other callback⟩

/-- The named arguments of a library that shouts one of its keys. -/
def shoutedHeap : Heap :=
  { (default : Heap) with
    next := 1
    cells := fun _ => .ofFields [(.string (bytes "FUNCTION_NAME"), .string (bytes "f")),
      (.string (bytes "callback"), .function (.closure 0))] }

/-- The scratch state in which that library is being loaded. -/
def shoutedLoad : World LoadHost :=
  ⟨[], [], false, ⟨shoutedHeap, 0, fun _ => .lightuserdata loadCtxPointer, fun _ => .empty, none⟩,
    {}, []⟩

/-- The load accepts `FUNCTION_NAME`, and the user's state does not. -/
theorem shouted_name_disagrees :
    PlainArguments shoutedHeap [.table 0] ∧
      (∃ met, AcceptedAtLoad .plain 3 shoutedLoad [.table 0] met (bytes "f")
        (.function (.closure 0))) ∧
      ¬ BindsExactly .plain [.table 0] (blankUser shoutedHeap) (bytes "f")
        (.function (.closure 0)) := by
  refine ⟨fun argument same => ⟨0, by simpa using same.symm, rfl⟩, ⟨_, ⟨_, _, rfl, rfl, rfl⟩,
    .named (.plain rfl rfl (.plain rfl rfl (.last rfl))), rfl⟩, ?_⟩
  rintro ⟨final, run, -⟩
  cases run

/-- A name and a function are bound alike in a user's state. -/
theorem positional_arguments_agree :
    BindsExactly .plain [.string (bytes "f"), .function (.closure 0)] (blankUser shoutedHeap)
      (bytes "f") (.function (.closure 0)) := by
  have accepted : AcceptedAtLoad .plain 3 shoutedLoad
      [.string (bytes "f"), .function (.closure 0)] _ (bytes "f") (.function (.closure 0)) :=
    ⟨⟨_, _, rfl, rfl, rfl⟩, .positional _ _, rfl⟩
  exact (registration_agrees_iff (by rintro _ ⟨⟩) accepted).mpr ⟨rfl, rfl, rfl⟩ _ rfl rfl

end ValkeyLuajit
