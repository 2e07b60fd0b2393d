import ValkeyLuajit.Function.Register
import ValkeyLuajit.Library.Ledger

/-!
# The wrappers that take strings

Scripts reach the module API through the wrappers in the table `VKM`. Where the API takes
a module string, a wrapper takes a Lua string as well: it makes a module string of it, and
frees that string after the call.
-/

namespace ValkeyLuajit

open Lua

/-- A C pointer that may be `NULL`. -/
abbrev Pointer := Option Nat

/-- An argument that stands for a string: a Lua string, or a module string the script has. -/
inductive Argument where
  | string (text : Bytes)
  | handle (str : ModuleString)
deriving DecidableEq

/-- `type(argument) == "string"`. -/
def Argument.isString : Argument → Bool
  | .string _ => true
  | .handle _ => false

/-- Where an entry of a stream goes: at an id the server chooses, or at this one. -/
inductive StreamPlace where
  | auto (flags : Option Nat)
  | at (id : Value) (flags : Nat)
deriving DecidableEq

/-- What the wrappers rely on: the answers of the module API, with what it writes through
pointers, and the structures the FFI makes for Lua values, or the error it raises. -/
structure Foreign where
  ctx : Pointer
  randomKey : Nat → Option Bytes
  stringPtrLen : Bytes → Option Bytes
  publishMessage : Pointer → ModuleString → ModuleString → Int
  publishMessageShard : Pointer → ModuleString → ModuleString → Int
  setClientNameById : Nat → ModuleString → Int
  openKey : Pointer → ModuleString → Int → Pointer
  keyExists : Pointer → ModuleString → Int
  signalModifiedKey : Pointer → ModuleString → Int
  stringSet : Pointer → ModuleString → Int
  zsetFirstInLexRange : Pointer → ModuleString → ModuleString → Int
  zsetLastInLexRange : Pointer → ModuleString → ModuleString → Int
  zsetScore : Pointer → ModuleString → Int × Number
  zsetRem : Pointer → ModuleString → Int × Int
  zsetIncrby : Pointer → Number → ModuleString → Int × Int × Number
  newStreamId : Value → Except Bytes Nat
  streamAdd : Pointer → Nat → Pointer → List ModuleString → Nat → Int
  streamIdParts : Nat → Except Bytes (Number × Number)
  getModuleUserFromUserName : ModuleString → Pointer
  notifyKeyspaceEvent : Pointer → Int → Bytes → ModuleString → Int
  setModuleUserAclString : Pointer → Pointer → Bytes → Int × Option Bytes

/-- A server whose every call succeeds, and which has no keys. -/
def Foreign.quiet : Foreign where
  ctx := some 1
  randomKey := fun _ => none
  stringPtrLen := some
  publishMessage := fun _ _ _ => 0
  publishMessageShard := fun _ _ _ => 0
  setClientNameById := fun _ _ => 0
  openKey := fun _ _ _ => none
  keyExists := fun _ _ => 0
  signalModifiedKey := fun _ _ => 0
  stringSet := fun _ _ => 0
  zsetFirstInLexRange := fun _ _ _ => 0
  zsetLastInLexRange := fun _ _ _ => 0
  zsetScore := fun _ _ => (0, .finite 0)
  zsetRem := fun _ _ => (0, 0)
  zsetIncrby := fun _ score _ => (0, 0, score)
  newStreamId := fun _ => .error (bytes "invalid C type")
  streamAdd := fun _ _ _ _ _ => 0
  streamIdParts := fun _ => .ok (.finite 0, .finite 0)
  getModuleUserFromUserName := fun _ => none
  notifyKeyspaceEvent := fun _ _ _ _ => 0
  setModuleUserAclString := fun _ _ _ => (0, none)

/-- A wrapper returns or raises, and changes which module strings there are. -/
abbrev Vkm := ExceptT Bytes (StateM Ledger)

namespace Vkm

/-- `VKM.OK`. -/
def ok : Int := 0

/-- `VKM.ERR`. -/
def err : Int := 1

/-- `VKM.STREAM_ADD_AUTOID`. -/
def streamAddAutoid : Nat := 0x0001

/-- A string that the caller has to free. -/
def createString (text : Bytes) : Vkm ModuleString :=
  ExceptT.mk fun strings => (.ok ⟨strings.made, text⟩, strings.make)

/-- `VKM.free_string`. -/
def freeString (str : ModuleString) : Vkm Unit :=
  ExceptT.mk fun strings => (.ok (), strings.release [str.id])

/-- The branch on the type of an argument, which frees the string it made. -/
def withString {α : Type} (argument : Argument) (call : ModuleString → α) : Vkm α :=
  match argument with
  | .string text => do
      let rms ← createString text
      let rc := call rms
      freeString rms
      pure rc
  | .handle str => pure (call str)

/-- `type(s) == "string" and VKM.create_string(ctx, s) or s`. -/
def stringOr : Argument → Vkm ModuleString
  | .string text => createString text
  | .handle str => pure str

/-- A string for an argument, and whether it has to be freed. -/
def stringAndFlag : Argument → Vkm (ModuleString × Bool)
  | .string text => do
      let str ← createString text
      pure (str, true)
  | .handle str => pure (str, false)

variable (foreign : Foreign)

/-- `VKM.random_key`: the name is freed only when its text could be read. -/
def randomKey : Vkm Value :=
  match foreign.ctx with
  | none => pure (.number (.finite err))
  | some ctx =>
      match foreign.randomKey ctx with
      | none => pure .nil
      | some text => do
          let rms ← createString text
          match foreign.stringPtrLen text with
          | none => pure .nil
          | some result => do
              freeString rms
              pure (.string result)

/-- The body of both wrappers that publish. -/
def publishWith (publish : ModuleString → ModuleString → Int) (channel message : Argument) :
    Vkm Int := do
  let (channelStr, freeChannel) ← stringAndFlag channel
  let (messageStr, freeMessage) ← stringAndFlag message
  let result := publish channelStr messageStr
  if freeChannel then freeString channelStr
  if freeMessage then freeString messageStr
  pure result

/-- `VKM.publish_message`. -/
def publishMessage (ctx : Pointer) (channel message : Argument) : Vkm Int :=
  publishWith (foreign.publishMessage ctx) channel message

/-- `VKM.publish_message_shard`. -/
def publishMessageShard (ctx : Pointer) (channel message : Argument) : Vkm Int :=
  publishWith (foreign.publishMessageShard ctx) channel message

/-- `VKM.set_client_name_by_id`: without a context no string is made. -/
def setClientNameById (id : Nat) (name : Argument) : Vkm Int :=
  match foreign.ctx with
  | none => pure err
  | some _ => withString name (foreign.setClientNameById id)

/-- `VKM.open_key`. -/
def openKey (ctx : Pointer) (name : Argument) (mode : Int) : Vkm Pointer :=
  withString name fun name => foreign.openKey ctx name mode

/-- `VKM.key_exists`. -/
def keyExists (ctx : Pointer) (name : Argument) : Vkm Int :=
  withString name (foreign.keyExists ctx)

/-- `VKM.signal_modified_key`. -/
def signalModifiedKey (ctx : Pointer) (keyname : Argument) : Vkm Int :=
  withString keyname (foreign.signalModifiedKey ctx)

/-- `VKM.string_set`. -/
def stringSet (key : Pointer) (str : Argument) : Vkm Int :=
  withString str (foreign.stringSet key)

/-- The body of both wrappers about lexicographic ranges. -/
def inLexRangeWith (call : ModuleString → ModuleString → Int) (min max : Argument) :
    Vkm Int := do
  let minStr ← stringOr min
  let maxStr ← stringOr max
  let rc := call minStr maxStr
  if min.isString then freeString minStr
  if max.isString ∧ max ≠ min then freeString maxStr
  pure rc

/-- `VKM.zset_first_in_lex_range`. -/
def zsetFirstInLexRange (key : Pointer) (min max : Argument) : Vkm Int :=
  inLexRangeWith (foreign.zsetFirstInLexRange key) min max

/-- `VKM.zset_last_in_lex_range`. -/
def zsetLastInLexRange (key : Pointer) (min max : Argument) : Vkm Int :=
  inLexRangeWith (foreign.zsetLastInLexRange key) min max

/-- What the wrappers about one element have in common: the call, and the test of the
argument's type after it. -/
def withElement {α : Type} (ele : Argument) (call : ModuleString → α) : Vkm α := do
  let eleStr ← stringOr ele
  let result := call eleStr
  if ele.isString then freeString eleStr
  pure result

/-- `VKM.zset_score`. -/
def zsetScore (key : Pointer) (ele : Argument) : Vkm (Option Number × Int) := do
  let (rc, out) ← withElement ele (foreign.zsetScore key)
  if rc = ok then pure (some out, ok) else pure (none, err)

/-- `VKM.zset_remove`. -/
def zsetRemove (key : Pointer) (ele : Argument) : Vkm (Int × Int) :=
  withElement ele (foreign.zsetRem key)

/-- `VKM.zset_incrby`. -/
def zsetIncrby (key : Pointer) (score : Number) (ele : Argument) :
    Vkm (Option Number × Int × Option Int) := do
  let (rc, flags, newscore) ← withElement ele (foreign.zsetIncrby key score)
  if rc = ok then pure (some newscore, ok, some flags) else pure (none, err, none)

/-- The loop that fills `argv_ptr`. -/
def createFields : List Argument → Vkm (List ModuleString)
  | [] => pure []
  | field :: fields => do
      let str ← stringOr field
      let strs ← createFields fields
      pure (str :: strs)

/-- The loop over `argv_ptr` after the call. -/
def freeFields : List Argument → List ModuleString → Vkm Unit
  | field :: fields, str :: strs => do
      if field.isString then freeString str
      freeFields fields strs
  | _, _ => pure ()

/-- The entry has `field_count` pairs: a last field without a value is not used. -/
def usedFields (fields : List Argument) : List Argument := fields.take (fields.length / 2 * 2)

/-- The strings of an entry, from the loop that makes them to the one that frees them. -/
def withFields (fields : List Argument) (call : List ModuleString → Nat → Int) : Vkm Int := do
  let argv ← createFields (usedFields fields)
  let rc := call argv (fields.length / 2)
  freeFields (usedFields fields) argv
  pure rc

/-- `VKM.stream_add`: making an id can raise, and reading the new one too. -/
def streamAdd (key : Pointer) (place : StreamPlace) (fields : List Argument) :
    Vkm (Option (Number × Number) × Int) := do
  let (flags, sid) ← match place with
    | .auto flags => pure (flags.getD 0 ||| streamAddAutoid, none)
    -- The declaration `ValkeyModuleStreamID[id]` names `id` as the length of an array.
    | .at id flags => do
        let sid ← (foreign.newStreamId id : ExceptT Bytes (StateM Ledger) Nat)
        pure (flags, some sid)
  let rc ← withFields fields (foreign.streamAdd key flags sid)
  match sid with
  | some sid =>
      if rc = ok then do
        let parts ← (foreign.streamIdParts sid : ExceptT Bytes (StateM Ledger) (Number × Number))
        pure (some parts, rc)
      else pure (none, rc)
  | none => pure (none, rc)

/-- `VKM.get_module_user_from_username`. -/
def getModuleUserFromUsername (name : Argument) : Vkm Pointer :=
  withString name foreign.getModuleUserFromUserName

/-- The wrapper returns nothing. -/
def notifyKeyspaceEvent (ctx : Pointer) (type : Int) (event : Bytes) (key : Argument) :
    Vkm Unit := do
  let _ ← withString key (foreign.notifyKeyspaceEvent ctx type event)
  pure ()

/-- The API hands over the string it describes an error with. -/
def setModuleUserAclString (ctx user : Pointer) (acl : Bytes) : Vkm Int := do
  let (rc, error) := foreign.setModuleUserAclString ctx user acl
  match error with
  | none => pure rc
  | some text => do
      let error ← createString text
      if rc ≠ ok then freeString error
      pure rc

end Vkm

end ValkeyLuajit
