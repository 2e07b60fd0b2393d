import ValkeyLuajit.Library.Reach
import ValkeyLuajit.Script.Execution

/-!
# What a Lua state holds when user code first runs in it

The three kinds of state are prepared by different functions. What matters here is
which functions and tables each leaves within reach, so that tables hold items:
functions of LuaJIT's libraries, tables of these libraries, functions of the module,
and whatever else needs no telling apart.
-/

namespace ValkeyLuajit.Sandbox

/-- A value a script may hold, by what it gives access to. -/
inductive Item where
  /-- A number, a string, a boolean, a thread or a piece of C data. -/
  | plain
  /-- A table or a closure that a script made. -/
  | made (id : Nat)
  /-- A function of one of LuaJIT's libraries; "" is the base library. -/
  | builtin (library name : String)
  /-- The table of a library; that of the base library holds the globals. -/
  | library (name : String)
  /-- The metatable of all strings. -/
  | stringMeta
  /-- The table that stands for `os`. -/
  | clockTable
  /-- The table `server`. -/
  | server
  /-- A C function of the module. -/
  | native (name : String)
  /-- The closure that stands for `load`. -/
  | wrappedLoad
  /-- The closure that `luajitStateInstallErrorHandler` makes. -/
  | errorHandler
deriving DecidableEq

/-- What tables hold. -/
abbrev Tables := Fields Item String

/-- LuaJIT's libraries: the names each registers, and the items that a call of one can give
or raise, given what the tables hold and the items its caller has. -/
structure LuaLibraries where
  members : String → List String
  gives : String → String → Tables → List Item → Item → Prop

/-- The table of globals. -/
def globals : Item := .library ""

/-- `lua_setglobal`. -/
def luaSetGlobal (tables : Tables) (name : String) (value : Option Item) : Tables :=
  tables.set globals name value

/-- Values of no interest under these names. -/
def setPlain (holder : Item) (names : List String) (tables : Tables) : Tables :=
  names.foldl (fun tables name => tables.set holder name (some .plain)) tables

/-- C functions of the module under these names. -/
def setNatives (holder : Item) (functions : List (String × String)) (tables : Tables) : Tables :=
  functions.foldl (fun tables (name, function) =>
    tables.set holder name (some (.native function))) tables

section

variable (libs : LuaLibraries)

/-- The table of a library gets its functions. -/
def registerLibrary (name : String) (tables : Tables) : Tables := fun holder key =>
  if holder = .library name ∧ key ∈ libs.members name then some (.builtin name key)
  else tables holder key

/-- `luaopen_base`, which opens `coroutine` as well. -/
def luaopenBase (tables : Tables) : Tables :=
  let tables := registerLibrary libs "" tables
  let tables := luaSetGlobal tables "_G" (some globals)
  let tables := luaSetGlobal tables "_VERSION" (some .plain)
  luaSetGlobal (registerLibrary libs "coroutine" tables) "coroutine" (some (.library "coroutine"))

/-- Open another library under its global name. -/
def luaopen (name : String) (tables : Tables) : Tables :=
  luaSetGlobal (registerLibrary libs name tables) name (some (.library name))

/-- `luaopen_string`, which gives strings their metatable. -/
def luaopenString (tables : Tables) : Tables :=
  ((luaopen libs "string" tables).set .stringMeta "__index" (some (.library "string"))).set
    .plain "metatable" (some .stringMeta)

end

/-- `luajitWrapLoadFunction`: the original is left to the closure alone. -/
def luajitWrapLoadFunction (tables : Tables) : Tables :=
  luaSetGlobal (luaSetGlobal tables "load" (some .wrappedLoad)) "loadstring" (some .wrappedLoad)

/-- The libraries of Lua that `luajitLoadLibraries` opens. -/
def loadStandardLibraries (libs : LuaLibraries) (tables : Tables) : Tables :=
  let tables := luaopenBase libs tables
  let tables := luaopen libs "table" tables
  let tables := luaopenString libs tables
  let tables := luaopen libs "math" tables
  let tables := luaopen libs "debug" tables
  luaopen libs "os" tables

/-- A table with `clock` alone takes the place of `os`. -/
def replaceOs (tables : Tables) : Tables :=
  luaSetGlobal (tables.set .clockTable "clock" (tables (.library "os") "clock")) "os"
    (some .clockTable)

/-- The other libraries that `luajitLoadLibraries` opens. -/
def loadBundledLibraries (libs : LuaLibraries) (tables : Tables) : Tables :=
  let tables := luaopen libs "bit" tables
  let tables := luaopen libs "cjson" tables
  let tables := luaopen libs "cjson.safe" tables
  let tables := luaopen libs "struct" tables
  let tables := luaopen libs "cmsgpack" tables
  luaopen libs "cmsgpack_safe" tables

/-- `luajitLoadLibraries`. -/
def luajitLoadLibraries (libs : LuaLibraries) (tables : Tables) : Tables :=
  luajitWrapLoadFunction (loadBundledLibraries libs (replaceOs (loadStandardLibraries libs tables)))

/-- The deny list of `luajitRemoveUnsafeGlobals`. -/
def denyList : List String := ["dofile", "loadfile", "print", "setfenv", "getfenv", "newproxy"]

/-- `luajitRemoveUnsafeGlobals`. -/
def luajitRemoveUnsafeGlobals (tables : Tables) : Tables :=
  denyList.foldl (fun tables name => luaSetGlobal tables name none) tables

/-- `luajitRegisterLogFunction`. -/
def luajitRegisterLogFunction (tables : Tables) : Tables :=
  setPlain .server ["LOG_DEBUG", "LOG_VERBOSE", "LOG_NOTICE", "LOG_WARNING"]
    (setNatives .server [("log", "luajitLogCommand")] tables)

/-- `luajitRegisterVersion`. -/
def luajitRegisterVersion (tables : Tables) : Tables :=
  setPlain .server ["REDIS_VERSION_NUM", "REDIS_VERSION", "VALKEY_VERSION_NUM", "VALKEY_VERSION",
    "SERVER_NAME"] tables

/-- `luajitRegisterServerAPI`. -/
def luajitRegisterServerAPI (libs : LuaLibraries) (tables : Tables) : Tables :=
  let tables := luajitLoadLibraries libs tables
  let tables := luajitRemoveUnsafeGlobals tables
  let tables := setNatives globals [("pcall", "luajitRedisPcall")] tables
  let tables := setNatives .server
    [("call", "luajitRedisCallCommand"), ("pcall", "luajitRedisPCallCommand")] tables
  let tables := luajitRegisterVersion (luajitRegisterLogFunction tables)
  let tables := setNatives .server
    [("setresp", "luajitSetResp"), ("sha1hex", "luajitRedisSha1hexCommand"),
      ("error_reply", "luajitRedisErrorReplyCommand"),
      ("status_reply", "luajitRedisStatusReplyCommand"),
      ("set_repl", "luajitRedisSetReplCommand"),
      ("acl_check_cmd", "luajitRedisAclCheckCmdPermissionsCommand")] tables
  let tables := setPlain .server
    ["REPL_NONE", "REPL_AOF", "REPL_SLAVE", "REPL_REPLICA", "REPL_ALL"] tables
  let tables := luaSetGlobal tables "server" (some .server)
  let tables := luaSetGlobal tables "redis" (some .server)
  setNatives (.library "math")
    [("random", "server_math_random"), ("randomseed", "server_math_randomseed")] tables

/-- `luajitStateInstallErrorHandler`: `debug` is left to the closure alone. -/
def luajitStateInstallErrorHandler (tables : Tables) : Tables := luaSetGlobal tables "debug" none

/-- `initializeEvalExtras`. The second name of the handler gets what lies below an
empty stack, nil or the thread itself. -/
def initializeEvalExtras (tables : Tables) : Tables :=
  let tables := setNatives .server
    [("breakpoint", "luajitServerBreakpointCommand"), ("debug", "luajitServerDebugCommand"),
      ("replicate_commands", "luajitServerReplicateCommandsCommand")] tables
  let tables := luaSetGlobal tables "__server__err__handler" (some .errorHandler)
  luaSetGlobal tables "__redis__err__handler" (some .plain)

/-- `luajitLoadFFI`. -/
def luajitLoadFFI (libs : LuaLibraries) (tables : Tables) : Tables :=
  let tables := luaopen libs "jit" (luaopen libs "ffi" tables)
  let tables := setNatives globals [("__vkm_get_ctx", "luajitFFIGetCurrentContext")] tables
  luaopen libs "VKM" tables

/-- `luajitInitFunctionScratchState`. -/
def luajitInitFunctionScratchState (libs : LuaLibraries) (tables : Tables) : Tables :=
  let tables := luaopen libs "table" (luaopenString libs (luaopenBase libs tables))
  let tables := setNatives .server [("register_function", "luajitFunctionRegisterFunction")] tables
  let tables := luajitRegisterVersion (luajitRegisterLogFunction tables)
  luaSetGlobal (luaSetGlobal tables "server" (some .server)) "redis" (some .server)

/-- What the tables of a fresh state of each kind hold: `luajitInitFunctionScratchState`
or `createUserLuaState`. -/
def initialTables (libs : LuaLibraries) (enableFfiApi : Bool) : StateKind → Tables
  | .scratch => luajitInitFunctionScratchState libs fun _ _ => none
  | .eval =>
      let tables := luajitStateInstallErrorHandler (luajitRegisterServerAPI libs fun _ _ => none)
      let tables := initializeEvalExtras tables
      if enableFfiApi then luajitLoadFFI libs tables else tables
  | .function =>
      let tables := luajitStateInstallErrorHandler (luajitRegisterServerAPI libs fun _ _ => none)
      let tables := if enableFfiApi then luajitLoadFFI libs tables else tables
      setNatives .server [("register_function", "luajitUserStateRegisterFunction")] tables

end ValkeyLuajit.Sandbox
