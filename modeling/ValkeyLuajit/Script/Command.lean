import ValkeyLuajit.Function.Register
import ValkeyLuajit.Script.Encoding
import ValkeyLuajit.Script.Numeral

/-!
# Calling a command

`server.call` and `server.pcall` turn their arguments into strings, ask the server and
convert its reply. What the function allocates is numbered, and `inuse` is the static
flag of the source, which all states of the process share. The server's answer is a
parameter: the reply and the error number it comes with.
-/

namespace ValkeyLuajit

open Lua

/-- What the server is asked. -/
structure ServerRequest where
  cmdname : Bytes
  fmt : Bytes
  args : List Bytes
deriving DecidableEq

/-- The server's part in one call: the answer of `ValkeyModule_Call` and whether the
client has a user name. A NULL reply has the type unknown. -/
structure ServerAnswer where
  reply : CallReply
  errno : Nat
  hasUsername : Bool

/-- The C data of one call of a command. -/
structure CommandHost where
  /-- The record the run-context pointer refers to. -/
  rctx : FuncCallCtx
  inuse : Nat
  strings : Nat := 0
  freedStrings : List Nat := []
  replies : Nat := 0
  freedReplies : List Nat := []
  requests : List ServerRequest := []
deriving DecidableEq

/-- `errno` values of Linux. -/
def eNoEnt : Nat := 2
def eAcces : Nat := 13
def eInval : Nat := 22
def eSPipe : Nat := 29

/-- `double2ll`: a whole number that a `long long` holds without loss. -/
def double2ll : Number → Option Int
  | .finite value =>
      if -(2 : Rat) ^ 62 ≤ value ∧ value ≤ 2 ^ 62 ∧ value.den = 1 then some value.num else none
  | _ => none

section Memory

/-- `ValkeyModule_CreateString`. -/
def createString (text : Bytes) : LuaM CommandHost ModuleString := fun world =>
  .done ⟨world.host.strings, text⟩
    (world.setHost { world.host with strings := world.host.strings + 1 })

/-- `ValkeyModule_FreeString`. -/
def freeString (string : ModuleString) : LuaM CommandHost Unit := fun world =>
  .done () (world.setHost
    { world.host with freedStrings := world.host.freedStrings ++ [string.id] })

/-- `freeLuajitServerArgv`. -/
def freeLuajitServerArgv : List ModuleString → LuaM CommandHost Unit
  | [] => pure ()
  | string :: rest => do
      freeString string
      freeLuajitServerArgv rest

/-- `ValkeyModule_Call`: the request is made and a reply obtained. -/
def moduleCall (request : ServerRequest) : LuaM CommandHost Nat := fun world =>
  .done world.host.replies (world.setHost { world.host with
    replies := world.host.replies + 1
    requests := world.host.requests ++ [request] })

/-- `ValkeyModule_FreeCallReply`. -/
def freeCallReply (reply : Nat) : LuaM CommandHost Unit := fun world =>
  .done () (world.setHost
    { world.host with freedReplies := world.host.freedReplies ++ [reply] })

/-- Change the static `inuse`. -/
def setInuse (change : Nat → Nat) : LuaM CommandHost Unit := fun world =>
  .done () (world.setHost { world.host with inuse := change world.host.inuse })

/-- What the host of the command is. -/
def getCommandHost : LuaM CommandHost CommandHost := fun world => .done world.host world

variable (world : World CommandHost)

@[simp] theorem createString_apply (text : Bytes) : createString text world =
    .done ⟨world.host.strings, text⟩
      (world.setHost { world.host with strings := world.host.strings + 1 }) := rfl

@[simp] theorem freeString_apply (string : ModuleString) : freeString string world =
    .done () (world.setHost
      { world.host with freedStrings := world.host.freedStrings ++ [string.id] }) := rfl

/-- Every string of the array is freed. -/
@[simp] theorem freeLuajitServerArgv_apply (argv : List ModuleString) :
    freeLuajitServerArgv argv world =
      .done () (world.setHost { world.host with
        freedStrings := world.host.freedStrings ++ argv.map ModuleString.id }) := by
  induction argv generalizing world with
  | nil => simp [freeLuajitServerArgv, World.setHost]
  | cons string rest inductionHypothesis =>
      simp [freeLuajitServerArgv, inductionHypothesis, World.setHost]

@[simp] theorem moduleCall_apply (request : ServerRequest) : moduleCall request world =
    .done world.host.replies (world.setHost { world.host with
      replies := world.host.replies + 1
      requests := world.host.requests ++ [request] }) := rfl

@[simp] theorem freeCallReply_apply (reply : Nat) : freeCallReply reply world =
    .done () (world.setHost
      { world.host with freedReplies := world.host.freedReplies ++ [reply] }) := rfl

@[simp] theorem setInuse_apply (change : Nat → Nat) : setInuse change world =
    .done () (world.setHost { world.host with inuse := change world.host.inuse }) := rfl

@[simp] theorem getCommandHost_apply : getCommandHost world = .done world.host world := rfl

end Memory

section

variable (rt : Runtime) (fpconv : Number → Bytes)

/-- The text of an argument; only strings and numbers have one. -/
def argumentText : Value → Option Bytes
  | .number number => some (match double2ll number with
      | some lvalue => ll2stringText (Int64.ofInt lvalue)
      | none => fpconv number)
  | .string text => some text
  | _ => none

/-- The texts of the arguments before the first that has none. -/
def argumentTexts : List Value → List Bytes
  | [] => []
  | argument :: rest => match argumentText fpconv argument with
    | none => []
    | some text => text :: argumentTexts rest

/-- Strings with these texts, made one after the other. -/
def numberStrings : Nat → List Bytes → List ModuleString
  | _, [] => []
  | first, text :: rest => ⟨first, text⟩ :: numberStrings (first + 1) rest

/-- The loop of `luajitArgsToServerArgv` from index `j` on. -/
def argvLoop : Nat → Nat → LuaM CommandHost (List ModuleString)
  | 0, _ => pure []
  | rounds + 1, j => do
      let argument ← luaValue (j + 1)
      match argumentText fpconv argument with
      | none => pure []
      | some text => do
          let string ← createString text
          let rest ← argvLoop rounds (j + 1)
          pure (string :: rest)

/-- The arguments as strings; none with an error table pushed when that fails. -/
def luajitArgsToServerArgv : LuaM CommandHost (Option (List ModuleString)) := do
  let argc ← luaGetTop
  if argc = 0 then do
    luajitPushError rt "Please specify at least one argument for this call"
    pure none
  else do
    let argv ← argvLoop fpconv argc 0
    luaPop argc
    if argv.length ≠ argc then do
      freeLuajitServerArgv argv
      luajitPushError rt "ERR Command arguments must be strings or integers"
      pure none
    else pure (some argv)

/-- The error text that takes the place of the server's, if one does. -/
def rewrittenError (errno : Nat) (err : Bytes) : Option Bytes :=
  if errno = eSPipe ∧ (bytes "ERR command ").isPrefixOf (cString err) then
    some (bytes "ERR This Valkey command is not allowed from script")
  else if errno = eInval ∧ (bytes "ERR wrong number of arguments for ").isPrefixOf (cString err) then
    some (bytes "ERR Wrong number of args calling command from script")
  else if errno = eNoEnt ∧ (bytes "ERR unknown command '").isPrefixOf (cString err) then
    some (bytes "ERR Unknown command called from script")
  else if errno = eAcces ∧ (bytes "NOPERM ").isPrefixOf (cString err) then
    some (bytes "ERR ACL failure in script: " ++ (cString err).drop (bytes "NOPERM ").length)
  else none

/-- Push the error table of a command that the server refused. -/
def luajitProcessReplyError (errno : Nat) (err : Bytes) : LuaM CommandHost Unit := do
  luajitPushErrorBuff rt ((rewrittenError errno err).getD err)
  luaPushString "ignore_error_stats_update"
  luaPush (.boolean true)
  luaSetTable rt (-3)

/-- The format of the request. -/
def callFormat (hasUsername : Bool) (rctx : FuncCallCtx) : Bytes :=
  bytes "v!EMSX" ++ bytes (if hasUsername then "C" else "") ++
    bytes (if rctx.replicationFlags &&& propagateAof = 0 then "A" else "") ++
    bytes (if rctx.replicationFlags &&& propagateRepl = 0 then "R" else "") ++
    bytes (if rctx.replicationFlags = 0 then "AR" else "") ++
    bytes (if rctx.resp = 3 then "3" else "")

/-- The name of the client's user is looked at and freed. -/
def lookAtUsername (hasUsername : Bool) : LuaM CommandHost Unit :=
  if hasUsername then do
    let username ← createString []
    freeString username
  else pure ()

/-- The text that is logged when `inuse` is set on entry. -/
def recursionWarning : String :=
  "luaRedisGenericCommand() recursive call detected. " ++
    "Are you doing funny stuff with Lua debug hooks?"

/-- The text of an error reply. -/
def CallReply.errorText : CallReply → Option Bytes
  | .error text => some text
  | _ => none

/-- From the server's answer to the end of the function. -/
def finishCommand (answer : ServerAnswer) (resp : Nat) (reply : Nat) (raiseError : Bool) :
    LuaM CommandHost Unit := do
  if answer.errno ≠ 0 then do
    moduleAssert answer.reply.errorText.isSome "reply_type == VALKEYMODULE_REPLY_ERROR"
    luajitProcessReplyError rt answer.errno (answer.reply.errorText.getD [])
    freeCallReply reply
    setInuse (· - 1)
    if raiseError then luajitError else pure ()
  else do
    callReplyToLuaType rt resp answer.reply
    freeCallReply reply
    setInuse (· - 1)
    if raiseError && answer.reply.errorText.isSome then luajitError else pure ()

/-- `luajitServerGenericCommand`: one value is left on the stack, or an error raised. -/
def luajitServerGenericCommand (answer : ServerAnswer) (raiseError : Bool) :
    LuaM CommandHost Unit := do
  requireRunCtx
  match ← luajitArgsToServerArgv rt fpconv with
  | none => if raiseError then luajitError else pure ()
  | some argv => do
      let host ← getCommandHost
      if host.inuse ≠ 0 then
        -- Also for `server.call` the table is returned, and the strings stay.
        luajitPushError rt recursionWarning
      else do
        setInuse (· + 1)
        lookAtUsername answer.hasUsername
        let texts := argv.map ModuleString.text
        let reply ← moduleCall
          ⟨cString (texts.headD []), callFormat answer.hasUsername host.rctx, texts.tail⟩
        freeLuajitServerArgv argv
        finishCommand rt answer host.rctx.resp reply raiseError

/-- `server.call`. -/
def luajitRedisCallCommand (answer : ServerAnswer) : LuaM CommandHost Unit :=
  luajitServerGenericCommand rt fpconv answer true

/-- `server.pcall`. -/
def luajitRedisPCallCommand (answer : ServerAnswer) : LuaM CommandHost Unit :=
  luajitServerGenericCommand rt fpconv answer false

end

end ValkeyLuajit
