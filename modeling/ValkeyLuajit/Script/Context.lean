import ValkeyLuajit.Lua.Effect

/-!
# What the C side of a call works with

`CallHost` is the C data of one invocation of `luajitCallFunction`: its
`call_ctx` record and the record of what happened. Replies are sent to the
client as tokens, since an array is opened before its length is known.
-/

namespace ValkeyLuajit

open Lua

/-- `ValkeyModuleScriptingEngineSubsystemType`. -/
inductive SubsystemType where
  | eval | function | all
deriving DecidableEq

/-- The flags of `server.set_repl`. -/
def propagateNone : Nat := 0
def propagateAof : Nat := 1
def propagateRepl : Nat := 2

/-- `luajitFuncCallCtx`: the run context of one call. -/
structure FuncCallCtx where
  moduleCtx : Nat
  runCtx : Nat
  type : SubsystemType
  replicationFlags : Nat
  resp : Nat
  luaEnableInsecureApi : Bool
deriving DecidableEq

/-- What the module sends to the client. -/
inductive Token where
  | bulk (text : Bytes)
  | simple (text : Bytes)
  | error (text : Bytes) (updateStats : Bool)
  | integer (value : Int)
  | null
  | bool (value : Bool)
  | double (value : Number)
  | bigNumber (text : Bytes)
  | verbatim (text format : Bytes)
  | openArray | openMap | openSet
  | closeArray (length : Nat)
  | closeMap (length : Nat)
  | closeSet (length : Nat)
deriving DecidableEq

/-- The user-supplied code an instruction belongs to. -/
inductive CodeKind where
  /-- An EVAL chunk or a function body. -/
  | body
  /-- The top-level code of a library being loaded into a user's state. -/
  | library
deriving DecidableEq

/-- What an observer of a call sees. -/
inductive Event where
  | sent (token : Token)
  /-- `lua_pcall` enters a function of the script. -/
  | entered (kind : CodeKind) (callee : FuncRef) (arguments : List Value)
  /-- User-supplied code executes, under this hook, this value of the run-context
  registry slot and this record behind it. -/
  | userCode (kind : CodeKind) (hook : Option Hook) (slot : Value) (call : Option FuncCallCtx)
  /-- `server.register_function` is about to bind a name in a user's state. -/
  | registered (kind : CodeKind) (name : Bytes) (callback : Value)
  /-- The top-level code of a library ran to its end in a user's state. -/
  | completed (callee : FuncRef)
  /-- The hook saw the killed state. -/
  | killObserved
deriving DecidableEq

/-- The C data of a call. -/
structure CallHost where
  callCtx : Option FuncCallCtx
  trace : List Event
deriving DecidableEq

/-- The tokens among the events. -/
def sentTokens (trace : List Event) : List Token :=
  trace.filterMap fun
    | .sent token => some token
    | _ => none

@[simp] theorem sentTokens_append (first second : List Event) :
    sentTokens (first ++ second) = sentTokens first ++ sentTokens second :=
  List.filterMap_append

/-- The names in the registry. -/
def registryRunCtxName : String := "__RUN_CTX__"
def registryErrorHandlerName : String := "__ERROR_HANDLER__"
def registryFuncCacheName : String := "__func_cache"
def registryLoadCtxName : String := "__LIBRARY_CTX__"
def libraryFunctionsName : String := "__library_functions"
def libraryCompiledName : String := "__library_compiled"
def ffiCtxName : String := "__ffi_ctx"
/-- `LUA_HOOK_CHECK_INTERVAL`: so many instructions between two calls of the hook. -/
def luaHookCheckInterval : Nat := 100000

/-- The address of the `call_ctx` record on the C stack. -/
def callCtxPointer : Nat := 1

/-- Note an event. -/
def emit (event : Event) : LuaM CallHost Unit := fun world =>
  .done () (world.setHost { world.host with trace := world.host.trace ++ [event] })

/-- Send one token to the client. -/
def reply (token : Token) : LuaM CallHost Unit := emit (.sent token)

@[simp] theorem emit_apply (event : Event) (world : World CallHost) :
    emit event world =
      .done () (world.setHost { world.host with trace := world.host.trace ++ [event] }) := rfl

@[simp] theorem reply_apply (token : Token) (world : World CallHost) :
    reply token world =
      .done () (world.setHost
        { world.host with trace := world.host.trace ++ [.sent token] }) := rfl

/-- The C data as they are. -/
def getHost : LuaM CallHost CallHost := fun world => .done world.host world

@[simp] theorem getHost_apply (world : World CallHost) :
    getHost world = .done world.host world := rfl

/-- Put `call_ctx` on the C stack, or take it off. -/
def setCallCtx (callCtx : Option FuncCallCtx) : LuaM CallHost Unit := fun world =>
  .done () (world.setHost { world.host with callCtx := callCtx })

@[simp] theorem setCallCtx_apply (callCtx : Option FuncCallCtx) (world : World CallHost) :
    setCallCtx callCtx world =
      .done () (world.setHost { world.host with callCtx := callCtx }) := rfl

section Registry

variable {σ : Type}

/-- Save a pointer in the registry; a NULL pointer is stored as nil. -/
def luajitSaveOnRegistry (name : String) (ptr : Option Nat) : LuaM σ Unit := do
  luaPush (match ptr with
    | some address => .lightuserdata address
    | none => .nil)
  luaSetRegistry name

/-- Get a saved pointer from the registry. -/
def luajitGetFromRegistry (name : String) : LuaM σ (Option Nat) := do
  luaGetRegistry name
  let saved ← luaValue (-1)
  if saved.isNil then
    luaPop 1
    pure none
  else
    moduleAssert (saved.type == .lightuserdata) "lua_islightuserdata(lua, -1)"
    let ptr := match saved with
      | .lightuserdata address => address
      | _ => 0
    moduleAssert (decide (ptr ≠ 0)) "ptr"
    luaPop 1
    pure (some ptr)

@[simp] theorem luajitSaveOnRegistry_none (name : String) (frame base : List Value)
    (breached : Bool) (lua : State) (host : σ) (calls : List (FuncRef × State)) :
    luajitSaveOnRegistry name none ⟨frame, base, breached, lua, host, calls⟩ =
      .done () ⟨frame, base, breached,
        { lua with registry := Function.update lua.registry name .nil }, host, calls⟩ := by
  simp [luajitSaveOnRegistry]

@[simp] theorem luajitSaveOnRegistry_some (name : String) (address : Nat)
    (frame base : List Value) (breached : Bool) (lua : State) (host : σ)
    (calls : List (FuncRef × State)) :
    luajitSaveOnRegistry name (some address) ⟨frame, base, breached, lua, host, calls⟩ =
      .done () ⟨frame, base, breached,
        { lua with registry := Function.update lua.registry name (.lightuserdata address) },
        host, calls⟩ := by
  simp [luajitSaveOnRegistry]

/-- An empty slot reads as NULL. -/
theorem luajitGetFromRegistry_nil {name : String} {world : World σ}
    (empty : world.lua.registry name = .nil) :
    luajitGetFromRegistry name world = .done none world := by
  obtain ⟨frame, base, breached, lua, host, calls⟩ := world
  have slot : lua.registry name = .nil := empty
  simp [luajitGetFromRegistry, slot, Value.isNil, Value.type]

/-- A saved pointer is read back. -/
theorem luajitGetFromRegistry_pointer {name : String} {world : World σ} {address : Nat}
    (saved : world.lua.registry name = .lightuserdata address) (valid : address ≠ 0) :
    luajitGetFromRegistry name world = .done (some address) world := by
  obtain ⟨frame, base, breached, lua, host, calls⟩ := world
  have slot : lua.registry name = .lightuserdata address := saved
  simp [luajitGetFromRegistry, slot, Value.isNil, Value.type, valid]

/-- Reading a saved pointer changes nothing. -/
theorem luajitGetFromRegistry_done {name : String} {ptr : Option Nat} {world final : World σ}
    (run : luajitGetFromRegistry name world = .done ptr final) : final = world := by
  obtain ⟨frame, base, breached, lua, host, calls⟩ := world
  cases slot : lua.registry name with
  | nil =>
      simp [luajitGetFromRegistry, slot, Value.isNil, Value.type] at run
      exact run.2.symm
  | lightuserdata address =>
      by_cases null : address = 0
      · simp [luajitGetFromRegistry, slot, Value.isNil, Value.type, moduleAssert, null] at run
      · simp [luajitGetFromRegistry, slot, Value.isNil, Value.type, moduleAssert, null] at run
        exact run.2.symm
  | _ => simp [luajitGetFromRegistry, slot, Value.isNil, Value.type, moduleAssert] at run

end Registry

/-- `ValkeyModule_Assert(rctx)`: the function aborts the process unless the
registry holds a run context. -/
def requireRunCtx {σ : Type} : LuaM σ Unit := do
  let rctx ← luajitGetFromRegistry registryRunCtxName
  moduleAssert rctx.isSome "rctx"

/-- Without a run context the assertion fails. -/
theorem requireRunCtx_nil {σ : Type} {world : World σ}
    (empty : world.lua.registry registryRunCtxName = .nil) :
    requireRunCtx world = .aborted "rctx" world := by
  simp [requireRunCtx, luajitGetFromRegistry_nil empty]

/-- With the pointer of a call in place the assertion passes. -/
theorem requireRunCtx_live {σ : Type} {world : World σ}
    (live : world.lua.registry registryRunCtxName = .lightuserdata callCtxPointer) :
    requireRunCtx world = .done () world := by
  simp [requireRunCtx, luajitGetFromRegistry_pointer live (by decide)]

/-- The registry holds the pointer to a run context. -/
def HasRunCtx (lua : State) : Prop :=
  ∃ address, lua.registry registryRunCtxName = .lightuserdata address ∧ address ≠ 0

/-- The assertion passes with a run context and aborts the process without one. -/
theorem requireRunCtx_cases {σ : Type} (world : World σ) :
    HasRunCtx world.lua ∧ requireRunCtx world = .done () world ∨
      ¬ HasRunCtx world.lua ∧ ∃ reason final, requireRunCtx world = .aborted reason final ∧
        final.breached = world.breached ∧ final.core = world.core := by
  obtain ⟨frame, base, breached, lua, host, calls⟩ := world
  have none' {value : Value} (slot : lua.registry registryRunCtxName = value)
      (other : ∀ address, value = .lightuserdata address → address = 0) : ¬ HasRunCtx lua := by
    rintro ⟨address, saved, valid⟩
    exact valid (other address (slot.symm.trans saved))
  cases slot : lua.registry registryRunCtxName with
  | nil => exact .inr ⟨none' slot (by simp), _, _, requireRunCtx_nil slot, rfl, rfl⟩
  | lightuserdata address =>
      by_cases null : address = 0
      · refine .inr ⟨none' slot (by simp [null]), "ptr",
          ⟨.lightuserdata address :: frame, base, breached, lua, host, calls⟩, ?_, rfl, rfl⟩
        simp [requireRunCtx, luajitGetFromRegistry, slot, Value.isNil, Value.type, null]
      · refine .inl ⟨⟨address, slot, null⟩, ?_⟩
        simp [requireRunCtx, luajitGetFromRegistry, slot, Value.isNil, Value.type, null]
  | _ =>
      refine .inr ⟨none' slot (by simp), "lua_islightuserdata(lua, -1)",
        ⟨lua.registry registryRunCtxName :: frame, base, breached, lua, host, calls⟩, ?_, rfl, rfl⟩
      simp [requireRunCtx, luajitGetFromRegistry, slot, Value.isNil, Value.type, moduleAssert]

/-- The assertion passes while a call is in progress. -/
theorem requireRunCtx_of_live {σ : Type} {world : World σ} (live : HasRunCtx world.lua) :
    requireRunCtx world = .done () world := by
  rcases requireRunCtx_cases world with ⟨-, passes⟩ | ⟨dead, -⟩
  · exact passes
  · exact absurd live dead

end ValkeyLuajit
