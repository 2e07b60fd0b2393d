import ValkeyLuajit.Script.Error

/-!
# Registering functions in a user's function state

When a user first calls a function of a library, the library is loaded again in
the user's state, where `server.register_function` binds names to callbacks in
the `__library_functions` table. It looks the named arguments up by their exact
names.
-/

namespace ValkeyLuajit

open Lua

/-- The texts of the errors, with the name of the API that scripts see. -/
def userWrongArgc : String := "wrong number of arguments to server.register_function"

def userNotNamedArguments : String :=
  "calling server.register_function with a single argument is only " ++
    "applicable to Lua table (representing named arguments)"

def userNameNotString : String :=
  "function_name argument given to server.register_function must be a string"

def userCallbackNotFunction : String :=
  "callback argument given to server.register_function must be a function"

def userFirstNotString : String := "function name must be a string"

def userSecondNotFunction : String := "function argument must be a function"

section

variable (rt : Runtime)

/-- The single table of named arguments: leaves the callback on the top. -/
def readNamedCallback : LuaM CallHost Bytes := do
  let argument ← luaValue 1
  if !argument.isTable then do
    luaPushString userNotNamedArguments
    luajitError
  else do
    luaGetField rt 1 "function_name"
    let name ← luaValue (-1)
    if !name.isString then do
      luaPop 2
      luaPushString userNameNotString
      luajitError
    else do
      luaPop 1
      luaGetField rt 1 "callback"
      let callback ← luaValue (-1)
      if !callback.isFunction then do
        luaPop 2
        luaPushString userCallbackNotFunction
        luajitError
      else do
        luaRemove 1
        pure (name.text rt)

/-- A name and a function: the stack is shuffled until the callback is on the top. -/
def readPositionalCallback : LuaM CallHost Bytes := do
  let name ← luaValue 1
  if !name.isString then do
    luaPop 3
    luaPushString userFirstNotString
    luajitError
  else do
    let callback ← luaValue 2
    if !callback.isFunction then do
      luaPop 3
      luaPushString userSecondNotFunction
      luajitError
    else do
      luaRemove 1
      luaPushValue 1
      luaRemove 1
      pure (name.text rt)

/-- Push the table of functions, which is made when there is none. -/
def getLibraryFunctions : LuaM CallHost Unit := do
  luaGetRegistry libraryFunctionsName
  let functions ← luaValue (-1)
  if functions.isNil then do
    luaPop 1
    luaNewTable
    luaSetRegistry libraryFunctionsName
    luaGetRegistry libraryFunctionsName
  else pure ()

/-- `server.register_function` in a user's function state. -/
def luajitUserStateRegisterFunction : LuaM CallHost Unit := do
  let argc ← luaGetTop
  if argc < 1 ∨ argc > 2 then do
    luaPushString userWrongArgc
    luajitError
  else do
    getLibraryFunctions
    let name ← if argc = 1 then readNamedCallback rt else readPositionalCallback rt
    luaSetFieldC rt 1 name
    luaPop 1

end

/-- The callback a name is bound to in a function state, nil when there is none. -/
def Lua.State.functionNamed (lua : State) (name : Bytes) : Value :=
  (lua.hidden libraryFunctionsName).rawGet (.string name)

/-- Bind a name to a callback. The name is read as a C string. -/
def Lua.State.bindFunction (lua : State) (name : Bytes) (callback : Value) : State :=
  { lua with
    hidden := Function.update lua.hidden libraryFunctionsName
      ((lua.hidden libraryFunctionsName).rawSet (.string (cString name)) callback) }

/-- A binding changes the callback of its own name only. -/
theorem functionNamed_bindFunction (lua : State) (name other : Bytes) (callback : Value) :
    (lua.bindFunction name callback).functionNamed other =
      if other = cString name then callback else lua.functionNamed other := by
  simp [State.bindFunction, State.functionNamed, Table.rawGet_rawSet]

section

variable (rt : Runtime)

/-- What the arguments of a registration ask for, apart from any stack: the name
and the callback or the error, the state left behind and the metamethod calls. -/
def resolveRegistration (lua : State) (calls : List (FuncRef × State)) :
    List Value → Except Value (Bytes × Value) × State × List (FuncRef × State)
  | [argument] =>
      if !argument.isTable then (.error (.string (bytes userNotNamedArguments)), lua, calls)
      else match lua.fetch rt calls argument (.string (bytes "function_name")) with
        | (.error error, lua, calls) => (.error error, lua, calls)
        | (.ok name, lua, calls) =>
            if !name.isString then (.error (.string (bytes userNameNotString)), lua, calls)
            else match lua.fetch rt calls argument (.string (bytes "callback")) with
              | (.error error, lua, calls) => (.error error, lua, calls)
              | (.ok callback, lua, calls) =>
                  if !callback.isFunction then
                    (.error (.string (bytes userCallbackNotFunction)), lua, calls)
                  else (.ok (name.text rt, callback), lua, calls)
  | [name, callback] =>
      if !name.isString then (.error (.string (bytes userFirstNotString)), lua, calls)
      else if !callback.isFunction then
        (.error (.string (bytes userSecondNotFunction)), lua, calls)
      else (.ok (name.text rt, callback), lua, calls)
  | _ => (.error (.string (bytes userWrongArgc)), lua, calls)

/-- What a registration does: bind the name its arguments resolve to, or raise. -/
def registrationOutcome (args : List Value) (world : World CallHost) : Outcome CallHost Unit :=
  match resolveRegistration rt world.lua world.metaCalls args with
  | (.ok (name, callback), lua, calls) =>
      .done () { world with lua := lua.bindFunction name callback, metaCalls := calls }
  | (.error error, lua, calls) => .raised error { world with lua := lua, metaCalls := calls }

end

section

variable {rt : Runtime} {base : List Value} {breached : Bool} {lua : State} {host : CallHost}
  {calls : List (FuncRef × State)} {frame : List Value}

/-- The table is there, so it is only pushed. -/
theorem getLibraryFunctions_apply
    (functions : lua.registry libraryFunctionsName = .hidden libraryFunctionsName) :
    getLibraryFunctions ⟨frame, base, breached, lua, host, calls⟩ =
      .done () ⟨.hidden libraryFunctionsName :: frame, base, breached, lua, host, calls⟩ := by
  simp [getLibraryFunctions, functions, Value.isNil, Value.type]

variable (rt base breached lua host calls) in
/-- The stack after a name and a function were read. -/
theorem readPositionalCallback_apply (name callback : Value) :
    ∃ junk, readPositionalCallback rt
        ⟨[.hidden libraryFunctionsName, callback, name], base, breached, lua, host, calls⟩ =
      match resolveRegistration rt lua calls [name, callback] with
      | (.ok (name, callback), lua, calls) =>
          .done name ⟨[callback, .hidden libraryFunctionsName], base, breached, lua, host, calls⟩
      | (.error error, lua, calls) => .raised error ⟨junk, base, breached, lua, host, calls⟩ := by
  unfold readPositionalCallback
  by_cases named : name.isString
  · by_cases callable : callback.isFunction
    · simp [resolveRegistration, named, callable]
    · simp [resolveRegistration, named, callable]
  · simp [resolveRegistration, named]

variable (rt base breached lua host calls) in
/-- The stack after a table of named arguments was read. -/
theorem readNamedCallback_apply (argument : Value) :
    ∃ junk, readNamedCallback rt
        ⟨[.hidden libraryFunctionsName, argument], base, breached, lua, host, calls⟩ =
      match resolveRegistration rt lua calls [argument] with
      | (.ok (name, callback), lua, calls) =>
          .done name ⟨[callback, .hidden libraryFunctionsName], base, breached, lua, host, calls⟩
      | (.error error, lua, calls) => .raised error ⟨junk, base, breached, lua, host, calls⟩ := by
  by_cases table : argument.isTable
  · rcases first : lua.fetch rt calls argument (.string (bytes "function_name")) with
      ⟨error | name, lua', calls'⟩
    · simp [readNamedCallback, resolveRegistration, table, luaGetField, luaIndex_fetch, first]
    · by_cases named : name.isString
      · rcases second : lua'.fetch rt calls' argument (.string (bytes "callback")) with
          ⟨error | callback, lua'', calls''⟩
        · simp [readNamedCallback, resolveRegistration, table, luaGetField, luaIndex_fetch, first,
            named, second]
        · by_cases callable : callback.isFunction <;>
            simp [readNamedCallback, resolveRegistration, table, luaGetField, luaIndex_fetch, first,
              named, second, callable]
      · simp [readNamedCallback, resolveRegistration, table, luaGetField, luaIndex_fetch, first,
          named]
  · simp [readNamedCallback, resolveRegistration, table]

end

/-- The stack of `luajitUserStateRegisterFunction` always comes out right: in a
frame of its own it does what its arguments resolve to. -/
theorem luajitUserStateRegisterFunction_spec {rt : Runtime} {world : World CallHost}
    (args : List Value)
    (functions : world.lua.registry libraryFunctionsName = .hidden libraryFunctionsName) :
    inFrame args (luajitUserStateRegisterFunction rt) world = registrationOutcome rt args world := by
  obtain ⟨frame, base, breached, lua, host, calls⟩ := world
  simp only at functions
  match args with
  | [] => simp [inFrame, luajitUserStateRegisterFunction, registrationOutcome, resolveRegistration]
  | [argument] =>
      obtain ⟨junk, read⟩ := readNamedCallback_apply rt (frame ++ base) false lua host calls argument
      simp [inFrame, luajitUserStateRegisterFunction, registrationOutcome,
        getLibraryFunctions_apply functions, read]
      rcases resolveRegistration rt lua calls [argument] with
        ⟨error | ⟨name, callback⟩, lua, calls⟩
      · simp
      · simp [luaSetFieldC, State.bindFunction]
  | [name, callback] =>
      obtain ⟨junk, read⟩ := readPositionalCallback_apply rt (frame ++ base) false lua host calls name
        callback
      simp [inFrame, luajitUserStateRegisterFunction, registrationOutcome,
        getLibraryFunctions_apply functions, read]
      rcases resolveRegistration rt lua calls [name, callback] with
        ⟨error | ⟨name, callback⟩, lua, calls⟩
      · simp
      · simp [luaSetFieldC, State.bindFunction]
  | first :: second :: third :: rest =>
      simp [inFrame, luajitUserStateRegisterFunction, registrationOutcome, resolveRegistration]

end ValkeyLuajit
