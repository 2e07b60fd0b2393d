import ValkeyLuajit.Script.Error

/-!
# Registering functions while a library is loaded

In the scratch state of `FUNCTION LOAD`, `server.register_function` parses its
arguments into a pending function and appends it to the load context. What the
parser allocates is numbered, so that the owner of every string can be named.
-/

namespace ValkeyLuajit

open Lua

/-- A `ValkeyModuleString`, with the number of its allocation. -/
structure ModuleString where
  id : Nat
  text : Bytes
deriving DecidableEq

/-- `pendingFunc`: a function a library registered, before the load is over. -/
structure PendingFunc where
  id : Nat
  name : Option ModuleString
  desc : Option ModuleString
  hasCallback : Bool
  flags : Nat
deriving DecidableEq

/-- The C data of one `FUNCTION LOAD`: the functions of the load context, how
many objects were allocated and which of them were freed. -/
structure LoadHost where
  functions : List PendingFunc := []
  allocated : Nat := 0
  freed : List Nat := []
deriving DecidableEq

/-- The address of the `load_ctx` record on the C stack. -/
def loadCtxPointer : Nat := 2

/-- A letter in lower case, as the C locale has it. -/
def toLower (char : UInt8) : UInt8 := if 65 ≤ char ∧ char ≤ 90 then char + 32 else char

/-- `strcasecmp` of two C strings answers 0. -/
def strcasecmp (first second : Bytes) : Bool :=
  (cString first).map toLower == (cString second).map toLower

/-- `scripts_flags_def`. -/
def scriptsFlagsDef : List (Nat × String) :=
  [(1, "no-writes"), (2, "allow-oom"), (4, "allow-stale"), (8, "no-cluster"),
    (32, "allow-cross-slot-keys")]

/-- The bit of the flag a text names. -/
def findFlag (text : Bytes) : Option Nat :=
  (scriptsFlagsDef.find? fun flag => strcasecmp (bytes flag.2) text).map Prod.fst

/-- The message for a `flags` argument that is no table. -/
def flagsNotTable : String :=
  "flags argument to server.register_function must be a table representing function flags"

/-- The message for a single argument that is no table. -/
def notNamedArguments : String :=
  "calling server.register_function with a single argument is only applicable to Lua table " ++
    "(representing named arguments)."

section Memory

/-- Take a number for a new object. -/
def allocate : LuaM LoadHost Nat := fun world =>
  .done world.host.allocated
    (world.setHost { world.host with allocated := world.host.allocated + 1 })

/-- Free an object, unless the pointer is NULL. -/
def free (object : Option Nat) : LuaM LoadHost Unit := fun world =>
  .done () (world.setHost { world.host with freed := world.host.freed ++ object.toList })

/-- `ptrArrayAdd` on the functions of the load context. -/
def addPending (pf : PendingFunc) : LuaM LoadHost Unit := fun world =>
  .done () (world.setHost { world.host with functions := world.host.functions ++ [pf] })

@[simp] theorem allocate_apply (world : World LoadHost) :
    allocate world = .done world.host.allocated
      (world.setHost { world.host with allocated := world.host.allocated + 1 }) := rfl

@[simp] theorem free_apply (object : Option Nat) (world : World LoadHost) :
    free object world = .done ()
      (world.setHost { world.host with freed := world.host.freed ++ object.toList }) := rfl

@[simp] theorem addPending_apply (pf : PendingFunc) (world : World LoadHost) :
    addPending pf world = .done ()
      (world.setHost { world.host with functions := world.host.functions ++ [pf] }) := rfl

end Memory

section

variable (rt : Runtime) (fuel : Nat)

/-- The loop of `luajitRegisterFunctionReadFlags`: the flags from index `j` on,
none when one is unknown. The elements are read with `lua_gettable`, and an
`__index` that always answers keeps the loop going for ever. -/
def readFlagsLoop : Nat → Nat → Nat → LuaM LoadHost (Option Nat)
  | 0, _, _ => fun world => .aborted "flags loop" world
  | rounds + 1, j, flags => do
      luaPush (.number (.finite j))
      luaGetTable rt (-2)
      let element ← luaValue (-1)
      if element.isNil then do
        luaPop 1
        pure (some flags)
      else if !element.isString then do
        luaPop 1
        pure none
      else do
        luaPop 1
        match findFlag (element.text rt) with
        | none => pure none
        | some flag => readFlagsLoop rounds (j + 1) (flags ||| flag)

/-- Read the flags in the table on the top of the stack. -/
def luajitRegisterFunctionReadFlags : LuaM LoadHost (Option Nat) := readFlagsLoop rt fuel 1 0

/-- A module string of the string at the index, NULL when it is not one. -/
def luajitGetStringObject (index : Int) : LuaM LoadHost (Option ModuleString) := do
  let value ← luaValue index
  if value.isString then do
    let id ← allocate
    pure (some ⟨id, value.text rt⟩)
  else pure none

/-- Read the named argument whose key and value are on the top, and pop the value.
The answer holds the message the source jumps to `error` with, if it does, and the
pending function as it is then. -/
def readNamedArg (pf : PendingFunc) : LuaM LoadHost (Option String × PendingFunc) := do
  let argument ← luaValue (-2)
  let value ← luaValue (-1)
  let key := argument.text rt
  if !argument.isString then
    pure (some "named argument key given to server.register_function is not a string", pf)
  else if strcasecmp key (bytes "function_name") then do
    let name ← luajitGetStringObject rt (-1)
    if name.isNone then
      pure (some "function_name argument given to server.register_function must be a string",
        { pf with name := none })
    else do
      luaPop 1
      pure (none, { pf with name := name })
  else if strcasecmp key (bytes "description") then do
    let desc ← luajitGetStringObject rt (-1)
    if desc.isNone then
      pure (some "description argument given to server.register_function must be a string",
        { pf with desc := none })
    else do
      luaPop 1
      pure (none, { pf with desc := desc })
  else if strcasecmp key (bytes "callback") then
    if !value.isFunction then
      pure (some "callback argument given to server.register_function must be a function", pf)
    else do
      luaPop 1
      pure (none, { pf with hasCallback := true })
  else if strcasecmp key (bytes "flags") then
    if !value.isTable then
      pure (some flagsNotTable, pf)
    else do
      let flags ← luajitRegisterFunctionReadFlags rt fuel
      match flags with
      | none => pure (some "unknown flag given", pf)
      | some flags => do
          luaPop 1
          pure (none, { pf with flags := flags })
  else pure (some "unknown argument given to server.register_function", pf)

/-- The loop over the named arguments: `lua_next` with the key on the top. -/
def readNamedArgsLoop : Nat → PendingFunc → LuaM LoadHost (Option String × PendingFunc)
  | 0, _ => fun world => .aborted "named arguments loop" world
  | rounds + 1, pf => do
      let more ← luaNext (-2)
      if !more then pure (none, pf)
      else do
        let (err, pf) ← readNamedArg rt fuel pf
        match err with
        | some err => pure (some err, pf)
        | none => readNamedArgsLoop rounds pf

/-- The label `error`: free what was read, and push the message. -/
def readArgsError (err : String) (pf : PendingFunc) : LuaM LoadHost (Bool × PendingFunc) := do
  free (pf.name.map ModuleString.id)
  free (pf.desc.map ModuleString.id)
  luajitPushError rt err
  pure (false, { pf with name := none, desc := none })

/-- Read a single table of named arguments. The answer tells whether it was
accepted. -/
def luajitRegisterFunctionReadNamedArgs (pf : PendingFunc) :
    LuaM LoadHost (Bool × PendingFunc) := do
  let argument ← luaValue 1
  if !argument.isTable then
    readArgsError rt notNamedArguments pf
  else do
    luaPush .nil
    let (err, pf) ← readNamedArgsLoop rt fuel fuel pf
    match err with
    | some err => readArgsError rt err pf
    | none =>
        if pf.name.isNone then
          readArgsError rt "server.register_function must get a function name argument" pf
        else if !pf.hasCallback then
          readArgsError rt "server.register_function must get a callback argument" pf
        else pure (true, pf)

/-- Read a name and a function. -/
def luajitRegisterFunctionReadPositionalArgs (pf : PendingFunc) :
    LuaM LoadHost (Bool × PendingFunc) := do
  let name ← luajitGetStringObject rt 1
  if name.isNone then
    readArgsError rt "first argument to server.register_function must be a string" pf
  else do
    let callback ← luaValue 2
    if !callback.isFunction then
      readArgsError rt "second argument to server.register_function must be a function"
        { pf with name := name }
    else do
      luaPop 1
      pure (true, { pf with name := name, hasCallback := true })

def luajitRegisterFunctionReadArgs (pf : PendingFunc) : LuaM LoadHost (Bool × PendingFunc) := do
  let argc ← luaGetTop
  if argc < 1 ∨ argc > 2 then do
    luajitPushError rt "wrong number of arguments to server.register_function"
    pure (false, pf)
  else if argc = 1 then luajitRegisterFunctionReadNamedArgs rt fuel pf
  else luajitRegisterFunctionReadPositionalArgs rt pf

/-- `server.register_function` in the scratch state. -/
def luajitFunctionRegisterFunction : LuaM LoadHost Unit := do
  let loadCtx ← luajitGetFromRegistry registryLoadCtxName
  if loadCtx.isNone then do
    luajitPushError rt "server.register_function can only be called on FUNCTION LOAD command"
    luajitError
  else do
    let id ← allocate
    let (accepted, pf) ← luajitRegisterFunctionReadArgs rt fuel ⟨id, none, none, false, 0⟩
    if !accepted then do
      free (some id)
      luajitError
    else addPending pf

end

end ValkeyLuajit
