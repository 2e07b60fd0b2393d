import ValkeyLuajit.Lua.Value

/-!
# The Lua C API

A C function works on a `World`: the `lua_State`, the slots it has pushed
(`frame`), the slots that were there before (`base`) and the host's own data.
`breached` records a pop that took a slot out of `base`, which the API itself
never reports. An operation finishes, raises a Lua error (a `longjmp` to the
nearest `lua_pcall`) or aborts the process. Metamethods are code of the script:
`Runtime.callMeta` answers for them and `World.metaCalls` remembers each call.
-/

namespace ValkeyLuajit.Lua

/-- When `lua_sethook` calls the hook. -/
inductive HookMask where
  | count (interval : Nat)
  | line
deriving DecidableEq

/-- An installed hook function. -/
structure Hook where
  function : String
  mask : HookMask
deriving DecidableEq

/-- The parts of a `lua_State` besides its stack. Registry slots and the tables
only the registry refers to go by their names. -/
structure State where
  heap : Heap
  globals : Addr
  registry : String → Value
  hidden : String → Table
  hook : Option Hook

/-- The table a value refers to. -/
def State.tableOf (lua : State) : Value → Table
  | .hidden name => lua.hidden name
  | .table addr => lua.heap.cells addr
  | _ => .empty

/-- How reading a field resolves. The tables of the registry have no metatables. -/
def State.lookup (lua : State) (object key : Value) : Lookup :=
  match object with
  | .hidden name => .value ((lua.hidden name).rawGet key)
  | _ => lua.heap.index object key

/-- What LuaJIT decides: the outcome of the n-th metamethod call, the text of a
number, the number of a text, and the message with which a chunk is rejected. -/
structure Runtime where
  callMeta : Nat → FuncRef → List Value → Heap → Except Value (Value × Heap)
  numberText : Number → Bytes
  stringNumber : Bytes → Option Number
  syntaxError : Bytes → Option Bytes

/-- The runtime in which every metamethod raises nil and every text compiles. -/
def Runtime.plain : Runtime :=
  ⟨fun _ _ _ _ => .error .nil, fun _ => [], fun _ => none, fun _ => none⟩

/-- `LUAI_MAXCSTACK`: the most stack slots a C function may use. -/
def maxCStack : Nat := 8000

/-- What a C function of the module works on. -/
structure World (σ : Type) where
  frame : List Value
  base : List Value
  breached : Bool
  lua : State
  host : σ
  metaCalls : List (FuncRef × State)

/-- How a C function ends. -/
inductive Outcome (σ α : Type) where
  | done (value : α) (world : World σ)
  | raised (error : Value) (world : World σ)
  | aborted (reason : String) (world : World σ)

/-- A C function that uses the Lua API. -/
def LuaM (σ α : Type) : Type := World σ → Outcome σ α

namespace Outcome

variable {σ α β : Type}

/-- Continue after a normal end; an error or an abort stays what it is. -/
def andThen (outcome : Outcome σ α) (next : α → LuaM σ β) : Outcome σ β :=
  match outcome with
  | .done value world => next value world
  | .raised error world => .raised error world
  | .aborted reason world => .aborted reason world

@[simp] theorem andThen_done (value : α) (world : World σ) (next : α → LuaM σ β) :
    (Outcome.done value world).andThen next = next value world := rfl

@[simp] theorem andThen_raised (error : Value) (world : World σ) (next : α → LuaM σ β) :
    (Outcome.raised error world).andThen next = .raised error world := rfl

@[simp] theorem andThen_aborted (reason : String) (world : World σ) (next : α → LuaM σ β) :
    (Outcome.aborted reason world).andThen next = .aborted reason world := rfl

/-- A sequence ends normally when both its parts do. -/
theorem andThen_eq_done {outcome : Outcome σ α} {next : α → LuaM σ β} {value : β}
    {final : World σ} : outcome.andThen next = .done value final ↔
      ∃ mid world, outcome = .done mid world ∧ next mid world = .done value final := by
  cases outcome <;> simp

/-- Continuing twice is continuing with both. -/
theorem andThen_assoc {γ : Type} (outcome : Outcome σ α) (first : α → LuaM σ β)
    (second : β → LuaM σ γ) : (outcome.andThen first).andThen second =
      outcome.andThen fun value world => (first value world).andThen second := by
  cases outcome <;> rfl

/-- The world a C function leaves behind, however it ends. -/
def world : Outcome σ α → World σ
  | .done _ world => world
  | .raised _ world => world
  | .aborted _ world => world

@[simp] theorem world_done (value : α) (final : World σ) :
    (Outcome.done value final).world = final := rfl

@[simp] theorem world_raised (error : Value) (final : World σ) :
    (Outcome.raised error final : Outcome σ α).world = final := rfl

@[simp] theorem world_aborted (reason : String) (final : World σ) :
    (Outcome.aborted reason final : Outcome σ α).world = final := rfl

/-- The function returned to its caller. -/
def IsDone : Outcome σ α → Prop
  | .done _ _ => True
  | _ => False

instance (outcome : Outcome σ α) : Decidable outcome.IsDone :=
  match outcome with
  | .done _ _ => .isTrue trivial
  | .raised _ _ => .isFalse id
  | .aborted _ _ => .isFalse id

/-- The value of a normal end. -/
def value : Outcome σ α → Option α
  | .done value _ => some value
  | _ => none

/-- An outcome with a value is a normal end. -/
theorem eq_done {outcome : Outcome σ α} {result : α} (ends : outcome.value = some result) :
    outcome = .done result outcome.world := by
  cases outcome with
  | done value final =>
      cases ends
      rfl
  | raised error final => cases ends
  | aborted reason final => cases ends

end Outcome

namespace LuaM

variable {σ α β : Type}

instance : Monad (LuaM σ) where
  pure value := fun world => .done value world
  bind first next := fun world => (first world).andThen next

@[simp] theorem pure_apply (value : α) (world : World σ) :
    (pure value : LuaM σ α) world = .done value world := rfl

@[simp] theorem bind_apply (first : LuaM σ α) (next : α → LuaM σ β) (world : World σ) :
    (first >>= next) world = (first world).andThen next := rfl

/-- Sequencing is associative. -/
theorem bind_bind {γ : Type} (first : LuaM σ α) (second : α → LuaM σ β) (third : β → LuaM σ γ) :
    (first >>= second) >>= third = first >>= fun value => second value >>= third := by
  funext world
  exact Outcome.andThen_assoc _ _ _

@[simp] theorem ite_apply (condition : Prop) [Decidable condition] (yes no : LuaM σ α)
    (world : World σ) :
    (if condition then yes else no) world = if condition then yes world else no world := by
  split <;> rfl

end LuaM

namespace World

variable {σ : Type}

/-- The stack, top first. -/
def stack (world : World σ) : List Value := world.frame ++ world.base

/-- The position from the top that an API index means: negative indices count
from the top, positive ones from the first slot of the frame. -/
def slot (world : World σ) (index : Int) : Nat :=
  if index < 0 then index.natAbs - 1 else world.frame.length - index.toNat

/-- The value at an API index, nil outside the stack. -/
def get (world : World σ) (index : Int) : Value := world.stack.getD (world.slot index) .nil

/-- Push one value. -/
def push (world : World σ) (value : Value) : World σ :=
  { world with frame := value :: world.frame }

/-- `lua_pop`: slots are taken out of `base` once the frame is empty. -/
def pop (world : World σ) (count : Nat) : World σ :=
  { world with
    frame := world.frame.drop count
    base := world.base.drop (count - world.frame.length)
    breached := world.breached || decide (world.frame.length < count) }

/-- Remove the slot at a position from the top. -/
def removeSlot (world : World σ) (position : Nat) : World σ :=
  { world with
    frame := world.frame.eraseIdx position
    base := if world.frame.length ≤ position
      then world.base.eraseIdx (position - world.frame.length) else world.base
    breached := world.breached || decide (world.frame.length ≤ position) }

/-- Move the top slot down to a position from the top. -/
def insertSlot (world : World σ) (position : Nat) : World σ :=
  match world.frame with
  | [] => { world with breached := true }
  | top :: rest =>
      if position ≤ rest.length then { world with frame := rest.insertIdx position top }
      else { world with breached := true }

/-- Move the top slot onto the one at a position from the top. -/
def replaceSlot (world : World σ) (position : Nat) : World σ :=
  { world with
    frame := (world.frame.set position (world.stack.getD 0 .nil)).drop 1
    base := if world.frame.length ≤ position
      then world.base.set (position - world.frame.length) (world.stack.getD 0 .nil) else world.base
    breached := world.breached || decide (world.frame.length ≤ position) }

/-- Put another heap in place. -/
def setHeap (world : World σ) (heap : Heap) : World σ :=
  { world with lua := { world.lua with heap := heap } }

/-- Store a value in a registry slot. -/
def setRegistry (world : World σ) (name : String) (value : Value) : World σ :=
  { world with lua := { world.lua with
      registry := Function.update world.lua.registry name value } }

/-- Replace a table of the registry. -/
def setHidden (world : World σ) (name : String) (table : Table) : World σ :=
  { world with lua := { world.lua with
      hidden := Function.update world.lua.hidden name table } }

/-- Install or remove the hook. -/
def setHook (world : World σ) (hook : Option Hook) : World σ :=
  { world with lua := { world.lua with hook := hook } }

/-- Replace the host's data. -/
def setHost (world : World σ) (host : σ) : World σ := { world with host := host }

end World

section Operations

variable {σ : Type} (rt : Runtime)

/-- Raise a Lua error. -/
def luaError {α : Type} (error : Value) : LuaM σ α := fun world => .raised error world

/-- A failed assertion ends the process. -/
def moduleAssert (condition : Bool) (text : String) : LuaM σ Unit := fun world =>
  if condition then .done () world else .aborted text world

/-- `lua_gettop`. -/
def luaGetTop : LuaM σ Nat := fun world => .done world.frame.length world

/-- The value at an index, as the type tests and `lua_to…` find it. -/
def luaValue (index : Int) : LuaM σ Value := fun world => .done (world.get index) world

/-- `lua_push…`. -/
def luaPush (value : Value) : LuaM σ Unit := fun world => .done () (world.push value)

/-- `lua_pushstring`. -/
def luaPushString (text : String) : LuaM σ Unit := luaPush (.string (bytes text))

/-- `lua_pop`. -/
def luaPop (count : Nat) : LuaM σ Unit := fun world => .done () (world.pop count)

/-- `lua_pushvalue`. -/
def luaPushValue (index : Int) : LuaM σ Unit := fun world =>
  .done () (world.push (world.get index))

/-- `lua_remove`. -/
def luaRemove (index : Int) : LuaM σ Unit := fun world =>
  .done () (world.removeSlot (world.slot index))

/-- `lua_insert`. -/
def luaInsert (index : Int) : LuaM σ Unit := fun world =>
  .done () (world.insertSlot (world.slot index))

/-- `lua_replace`. -/
def luaReplace (index : Int) : LuaM σ Unit := fun world =>
  .done () (world.replaceSlot (world.slot index))

/-- `lua_checkstack` in a C function that Lua called: the limit is on the slots of its
own frame. -/
def luaCheckStack (extra : Nat) : LuaM σ Bool := fun world =>
  .done (decide (world.frame.length + extra ≤ maxCStack)) world

/-- `lua_checkstack` in code of the engine, which Lua did not call: the frame it runs in
begins at the bottom of the stack. -/
def luaCheckStackFromBottom (extra : Nat) : LuaM σ Bool := fun world =>
  .done (decide (world.stack.length + extra ≤ maxCStack)) world

/-- `lua_newtable`. -/
def luaNewTable : LuaM σ Unit := fun world =>
  .done () ((world.setHeap (world.lua.heap.alloc .empty)).push (.table world.lua.heap.next))

/-- Run a metamethod and hand on what it returns. -/
def callMetamethod (handler : FuncRef) (arguments : List Value) : LuaM σ Value := fun world =>
  let noted := { world with metaCalls := world.metaCalls ++ [(handler, world.lua)] }
  match rt.callMeta world.metaCalls.length handler arguments world.lua.heap with
  | .ok (result, heap) => .done result (noted.setHeap heap)
  | .error error => .raised error noted

/-- Read a field, honouring metatables. -/
def luaIndex (object key : Value) : LuaM σ Value := fun world =>
  match world.lua.lookup object key with
  | .value value => .done value world
  | .call handler holder => callMetamethod rt handler [holder, key] world
  | .error message => .raised (.string message) world

/-- What reading a field gives, apart from any stack: the value or the error, the
state left behind and the metamethod calls so far. -/
def State.fetch (lua : State) (calls : List (FuncRef × State)) (object key : Value) :
    Except Value Value × State × List (FuncRef × State) :=
  match lua.lookup object key with
  | .value value => (.ok value, lua, calls)
  | .call handler holder =>
      match rt.callMeta calls.length handler [holder, key] lua.heap with
      | .ok (result, heap) => (.ok result, { lua with heap := heap }, calls ++ [(handler, lua)])
      | .error error => (.error error, lua, calls ++ [(handler, lua)])
  | .error message => (.error (.string message), lua, calls)

/-- Make an entry, unless nil or NaN would be its key. -/
def storeEntry (key : Value) (stored world : World σ) : Outcome σ Unit :=
  if key.storable then .done () stored
  else .raised (.string (bytes (if key.isNil then "table index is nil" else "table index is NaN"))) world

/-- Write a field, honouring metatables. -/
def luaAssign (object key value : Value) : LuaM σ Unit := fun world =>
  match object with
  | .hidden name =>
      storeEntry key (world.setHidden name ((world.lua.hidden name).rawSet key value)) world
  | _ => match world.lua.heap.newIndex object key with
    | .raw addr =>
        storeEntry key (world.setHeap (world.lua.heap.write addr
          ((world.lua.heap.cells addr).rawSet key value))) world
    | .call handler holder =>
        (callMetamethod rt handler [holder, key, value] world).andThen fun _ => pure ()
    | .error message => .raised (.string message) world

/-- `lua_gettable`: the key on the top gives way to the value. -/
def luaGetTable (index : Int) : LuaM σ Unit := do
  let object ← luaValue index
  let key ← luaValue (-1)
  luaPop 1
  luaPush (← luaIndex rt object key)

/-- `lua_getfield`. -/
def luaGetField (index : Int) (field : String) : LuaM σ Unit := do
  let object ← luaValue index
  luaPush (← luaIndex rt object (.string (bytes field)))

/-- `lua_getfield` with a key computed at run time, read as a C string. -/
def luaGetFieldC (index : Int) (field : Bytes) : LuaM σ Unit := do
  let object ← luaValue index
  luaPush (← luaIndex rt object (.string (cString field)))

/-- `lua_settable`: pops the key and the value. -/
def luaSetTable (index : Int) : LuaM σ Unit := do
  let object ← luaValue index
  let key ← luaValue (-2)
  let value ← luaValue (-1)
  luaPop 2
  luaAssign rt object key value

/-- `lua_setfield` with a key computed at run time, read as a C string. -/
def luaSetFieldC (index : Int) (field : Bytes) : LuaM σ Unit := do
  let object ← luaValue index
  let value ← luaValue (-1)
  luaPop 1
  luaAssign rt object (.string (cString field)) value

/-- `lua_setglobal`. -/
def luaSetGlobal (name : String) : LuaM σ Unit := fun world =>
  let value := world.get (-1)
  luaAssign rt (.table world.lua.globals) (.string (bytes name)) value (world.pop 1)

/-- `lua_rawget`: the key on the top gives way to the raw entry. -/
def luaRawGet (index : Int) : LuaM σ Unit := fun world =>
  .done () ((world.pop 1).push
    ((world.lua.tableOf (world.get index)).rawGet (world.get (-1))))

/-- The world after a raw store into a table value. -/
def World.rawAssign (world : World σ) (object key value : Value) : World σ :=
  match object with
  | .hidden name => world.setHidden name ((world.lua.hidden name).rawSet key value)
  | .table addr => world.setHeap (world.lua.heap.write addr
      ((world.lua.heap.cells addr).rawSet key value))
  | _ => world

/-- `lua_rawset`: pops the key and the value. -/
def luaRawSet (index : Int) : LuaM σ Unit := fun world =>
  .done () ((world.pop 2).rawAssign (world.get index) (world.get (-2)) (world.get (-1)))

/-- `lua_getfield` on the registry. -/
def luaGetRegistry (name : String) : LuaM σ Unit := fun world =>
  .done () (world.push (world.lua.registry name))

/-- `lua_setfield` on the registry: pops the value. -/
def luaSetRegistry (name : String) : LuaM σ Unit := fun world =>
  .done () ((world.pop 1).setRegistry name (world.get (-1)))

/-- `lua_sethook`. -/
def luaSetHook (hook : Option Hook) : LuaM σ Unit := fun world => .done () (world.setHook hook)

/-- The entry after `key` in visiting order: none when `key` has no entry. -/
def nextAfter (key : Value) :
    List (Sigma fun _ : Value => Value) → Option (Option (Sigma fun _ : Value => Value))
  | [] => none
  | entry :: rest => if entry.1 = key then some rest.head? else nextAfter key rest

/-- What `lua_next` finds: the first entry for the key nil, otherwise the one
after the key. -/
def Table.next (table : Table) (key : Value) : Option (Option (Sigma fun _ : Value => Value)) :=
  if key = .nil then some table.entries.entries.head? else nextAfter key table.entries.entries

/-- `lua_next`: pops the key; pushes the next key and value, or nothing at the end. -/
def luaNext (index : Int) : LuaM σ Bool := fun world =>
  match (world.lua.tableOf (world.get index)).next (world.get (-1)) with
  | none => .raised (.string (bytes "invalid key to 'next'")) (world.pop 1)
  | some none => .done false (world.pop 1)
  | some (some entry) => .done true (((world.pop 1).push entry.1).push entry.2)

/-- `luaL_loadbuffer`: pushes the main function or the message, and tells whether
the chunk was rejected. -/
def luaLLoadbuffer (code : Bytes) : LuaM σ Bool := fun world =>
  match rt.syntaxError code with
  | none => .done false (world.push (.function (.chunk code)))
  | some message => .done true (world.push (.string message))

/-- Run a C function in a stack frame of its own that holds its arguments; the
caller's frame is back when it ends. -/
def inFrame {α : Type} (arguments : List Value) (body : LuaM σ α) : LuaM σ α := fun world =>
  let restore (final : World σ) : World σ :=
    { final with
      frame := world.frame
      base := world.base
      breached := world.breached || final.breached }
  match body { world with frame := arguments.reverse, base := world.stack, breached := false } with
  | .done value final => .done value (restore final)
  | .raised error final => .raised error (restore final)
  | .aborted reason final => .aborted reason (restore final)

/-- A C function in a frame of its own ends normally when its body does. -/
theorem inFrame_eq_done {α : Type} {arguments : List Value} {body : LuaM σ α} {value : α}
    {world final : World σ} : inFrame arguments body world = .done value final ↔
      ∃ inner, body { world with frame := arguments.reverse, base := world.stack, breached := false } =
          .done value inner ∧
        final = { inner with
          frame := world.frame
          base := world.base
          breached := world.breached || inner.breached } := by
  unfold inFrame
  cases body { world with frame := arguments.reverse, base := world.stack, breached := false } with
  | done other inner => simp [eq_comm]
  | raised error inner => simp
  | aborted reason inner => simp

/-- It raises or aborts when its body does. -/
theorem inFrame_eq_raised {α : Type} {arguments : List Value} {body : LuaM σ α} {error : Value}
    {world final : World σ} : inFrame arguments body world = .raised error final ↔
      ∃ inner, body { world with frame := arguments.reverse, base := world.stack, breached := false } =
          .raised error inner ∧
        final = { inner with
          frame := world.frame
          base := world.base
          breached := world.breached || inner.breached } := by
  unfold inFrame
  cases body { world with frame := arguments.reverse, base := world.stack, breached := false } with
  | done other inner => simp
  | raised error inner => simp [eq_comm]
  | aborted reason inner => simp

/-- A function that aborts on slots of its own aborts for its caller. -/
theorem inFrame_eq_aborted {α : Type} {arguments : List Value} {body : LuaM σ α} {reason : String}
    {world final : World σ} : inFrame arguments body world = .aborted reason final ↔
      ∃ inner, body { world with frame := arguments.reverse, base := world.stack, breached := false } =
          .aborted reason inner ∧
        final = { inner with
          frame := world.frame
          base := world.base
          breached := world.breached || inner.breached } := by
  unfold inFrame
  cases body { world with frame := arguments.reverse, base := world.stack, breached := false } with
  | done other inner => simp
  | raised error inner => simp
  | aborted reason inner => simp [eq_comm]

/-- The function below `count` arguments. -/
def World.callee (world : World σ) (count : Nat) : FuncRef :=
  match world.stack.getD count .nil with
  | .function ref => ref
  | _ => .native "attempt to call a non-function value"

/-- `lua_pcall` of `count` arguments: the function and its arguments leave the
stack, `body` runs, and its results or its error are pushed. The answer tells
whether it raised. -/
def luaPCall (count : Nat) (body : FuncRef → List Value → LuaM σ (List Value)) :
    LuaM σ Bool := fun world =>
  let arguments := (world.stack.take count).reverse
  match inFrame arguments (body (world.callee count) arguments) (world.pop (count + 1)) with
  | .done results final => .done false { final with frame := results.reverse ++ final.frame }
  | .raised error final => .done true (final.push error)
  | .aborted reason final => .aborted reason final

end Operations

/-!
### Symbolic execution

The lemmas below run the operations on a world whose frame is known, so that
`simp` takes a straight-line C function apart without unfolding the API.
-/

section Simp

variable {σ : Type} {rt : Runtime} (frame base : List Value) (breached : Bool) (lua : State)
  (host : σ) (calls : List (FuncRef × State)) (world : World σ)

@[simp] theorem World.push_mk (value : Value) :
    (World.mk frame base breached lua host calls).push value =
      ⟨value :: frame, base, breached, lua, host, calls⟩ := rfl

@[simp] theorem World.pop_mk_zero :
    (World.mk frame base breached lua host calls).pop 0 =
      ⟨frame, base, breached, lua, host, calls⟩ := by simp [World.pop]

@[simp] theorem World.pop_mk_succ (value : Value) (count : Nat) :
    (World.mk (value :: frame) base breached lua host calls).pop (count + 1) =
      (World.mk frame base breached lua host calls).pop count := by simp [World.pop]

@[simp] theorem World.setHeap_mk (heap : Heap) :
    (World.mk frame base breached lua host calls).setHeap heap =
      ⟨frame, base, breached, { lua with heap := heap }, host, calls⟩ := rfl

@[simp] theorem World.setRegistry_mk (name : String) (value : Value) :
    (World.mk frame base breached lua host calls).setRegistry name value =
      ⟨frame, base, breached,
        { lua with registry := Function.update lua.registry name value }, host, calls⟩ := rfl

@[simp] theorem World.setHidden_mk (name : String) (table : Table) :
    (World.mk frame base breached lua host calls).setHidden name table =
      ⟨frame, base, breached,
        { lua with hidden := Function.update lua.hidden name table }, host, calls⟩ := rfl

@[simp] theorem World.setHook_mk (hook : Option Hook) :
    (World.mk frame base breached lua host calls).setHook hook =
      ⟨frame, base, breached, { lua with hook := hook }, host, calls⟩ := rfl

@[simp] theorem World.setHost_mk (other : σ) :
    (World.mk frame base breached lua host calls).setHost other =
      ⟨frame, base, breached, lua, other, calls⟩ := rfl

@[simp] theorem World.stack_mk :
    (World.mk frame base breached lua host calls).stack = frame ++ base := rfl

@[simp] theorem World.get_neg_one : world.get (-1) = world.stack.getD 0 .nil := rfl
@[simp] theorem World.get_neg_two : world.get (-2) = world.stack.getD 1 .nil := rfl
@[simp] theorem World.get_neg_three : world.get (-3) = world.stack.getD 2 .nil := rfl
@[simp] theorem World.get_neg_four : world.get (-4) = world.stack.getD 3 .nil := rfl
@[simp] theorem World.slot_neg_two : world.slot (-2) = 1 := rfl
@[simp] theorem World.slot_one : world.slot 1 = world.frame.length - 1 := rfl
@[simp] theorem World.slot_two : world.slot 2 = world.frame.length - 2 := rfl

@[simp] theorem World.get_one :
    world.get 1 = world.stack.getD (world.frame.length - 1) .nil := rfl

@[simp] theorem World.get_two :
    world.get 2 = world.stack.getD (world.frame.length - 2) .nil := rfl

@[simp] theorem World.removeSlot_one (top next : Value) :
    (World.mk (top :: next :: frame) base breached lua host calls).removeSlot 1 =
      ⟨top :: frame, base, breached, lua, host, calls⟩ := by simp [World.removeSlot]

@[simp] theorem World.removeSlot_two (top next third : Value) :
    (World.mk (top :: next :: third :: frame) base breached lua host calls).removeSlot 2 =
      ⟨top :: next :: frame, base, breached, lua, host, calls⟩ := by simp [World.removeSlot]

@[simp] theorem World.insertSlot_one (top next : Value) :
    (World.mk (top :: next :: frame) base breached lua host calls).insertSlot 1 =
      ⟨next :: top :: frame, base, breached, lua, host, calls⟩ := by simp [World.insertSlot]

@[simp] theorem World.replaceSlot_one (top next : Value) :
    (World.mk (top :: next :: frame) base breached lua host calls).replaceSlot 1 =
      ⟨top :: frame, base, breached, lua, host, calls⟩ := by simp [World.replaceSlot]

@[simp] theorem moduleAssert_true (text : String) :
    moduleAssert (σ := σ) true text world = .done () world := rfl

@[simp] theorem moduleAssert_false (text : String) :
    moduleAssert (σ := σ) false text world = .aborted text world := rfl

@[simp] theorem luaGetTop_apply : luaGetTop world = .done world.frame.length world := rfl

@[simp] theorem luaValue_apply (index : Int) :
    luaValue index world = .done (world.get index) world := rfl

@[simp] theorem luaPush_apply (value : Value) :
    luaPush value world = .done () (world.push value) := rfl

@[simp] theorem luaPushString_apply (text : String) :
    luaPushString text world = .done () (world.push (.string (bytes text))) := rfl

@[simp] theorem luaPop_apply (count : Nat) : luaPop count world = .done () (world.pop count) := rfl

@[simp] theorem luaPushValue_apply (index : Int) :
    luaPushValue index world = .done () (world.push (world.get index)) := rfl

@[simp] theorem luaRemove_apply (index : Int) :
    luaRemove index world = .done () (world.removeSlot (world.slot index)) := rfl

@[simp] theorem luaInsert_apply (index : Int) :
    luaInsert index world = .done () (world.insertSlot (world.slot index)) := rfl

@[simp] theorem luaReplace_apply (index : Int) :
    luaReplace index world = .done () (world.replaceSlot (world.slot index)) := rfl

@[simp] theorem luaError_apply {α : Type} (error : Value) :
    luaError (α := α) error world = .raised error world := rfl

@[simp] theorem luaRawGet_apply (index : Int) :
    luaRawGet index world =
      .done () ((world.pop 1).push
        ((world.lua.tableOf (world.get index)).rawGet (world.get (-1)))) := rfl

@[simp] theorem luaRawSet_apply (index : Int) :
    luaRawSet index world = .done ()
      ((world.pop 2).rawAssign (world.get index) (world.get (-2)) (world.get (-1))) := rfl

@[simp] theorem luaGetRegistry_apply (name : String) :
    luaGetRegistry name world = .done () (world.push (world.lua.registry name)) := rfl

@[simp] theorem luaSetRegistry_apply (name : String) :
    luaSetRegistry name world =
      .done () ((world.pop 1).setRegistry name (world.get (-1))) := rfl

@[simp] theorem luaSetHook_apply (hook : Option Hook) :
    luaSetHook hook world = .done () (world.setHook hook) := rfl

@[simp] theorem State.tableOf_hidden (name : String) :
    lua.tableOf (.hidden name) = lua.hidden name := rfl

@[simp] theorem World.rawAssign_hidden (name : String) (key value : Value) :
    world.rawAssign (.hidden name) key value =
      world.setHidden name ((world.lua.hidden name).rawSet key value) := rfl

@[simp] theorem luaIndex_hidden (name : String) (key : Value) :
    luaIndex rt (.hidden name) key world =
      .done ((world.lua.hidden name).rawGet key) world := rfl

/-- Reading a field touches neither the stack nor the host. -/
theorem luaIndex_fetch (object key : Value) :
    luaIndex rt object key ⟨frame, base, breached, lua, host, calls⟩ =
      match lua.fetch rt calls object key with
      | (.ok value, lua, calls) => .done value ⟨frame, base, breached, lua, host, calls⟩
      | (.error error, lua, calls) => .raised error ⟨frame, base, breached, lua, host, calls⟩ := by
  unfold luaIndex State.fetch
  cases lua.lookup object key with
  | value value => rfl
  | error message => rfl
  | call handler holder =>
      dsimp only [callMetamethod]
      cases rt.callMeta calls.length handler [holder, key] lua.heap <;> rfl

/-- Reading a field changes nothing but the heap. -/
theorem State.fetch_frame {object key : Value}
    {result : Except Value Value × State × List (FuncRef × State)}
    (fetched : lua.fetch rt calls object key = result) :
    result.2.1 = { lua with heap := result.2.1.heap } := by
  subst fetched
  unfold State.fetch
  split
  · rfl
  · split <;> rfl
  · rfl

@[simp] theorem storeEntry_storable {key : Value} (storable : key.storable = true)
    (stored : World σ) : storeEntry key stored world = .done () stored := if_pos storable

/-- Making an entry stores it or leaves everything as it was. -/
theorem storeEntry_world (key : Value) (stored : World σ) :
    (storeEntry key stored world).world = if key.storable then stored else world := by
  unfold storeEntry
  split <;> rfl

@[simp] theorem luaAssign_hidden (name : String) (key value : Value) :
    luaAssign rt (.hidden name) key value world =
      storeEntry key (world.setHidden name ((world.lua.hidden name).rawSet key value)) world := rfl

end Simp

/-- No key comes twice, so `lua_next` goes on behind the key it is given. -/
theorem nextAfter_append {entries before rest : List (Sigma fun _ : Value => Value)}
    {entry : Sigma fun _ : Value => Value} (distinct : entries.NodupKeys)
    (parts : entries = before ++ entry :: rest) : nextAfter entry.1 entries = some rest.head? := by
  subst parts
  induction before with
  | nil => simp [nextAfter]
  | cons first before inductionHypothesis =>
      rw [List.cons_append, List.nodupKeys_cons] at distinct
      have apart : first.1 ≠ entry.1 := by
        intro same
        exact distinct.1 (same ▸ List.mem_keys_of_mem (by simp))
      rw [List.cons_append, nextAfter, if_neg apart]
      exact inductionHypothesis distinct.2

/-- A traversal starts with the first entry. -/
theorem Table.next_nil (table : Table) : table.next .nil = some table.entries.entries.head? := rfl

/-- After an entry comes the one behind it. -/
theorem Table.next_append {table : Table} {before rest : List (Sigma fun _ : Value => Value)}
    {entry : Sigma fun _ : Value => Value} (parts : table.entries.entries = before ++ entry :: rest) :
    table.next entry.1 = some rest.head? := by
  have member : entry ∈ table.entries.entries := by
    rw [parts]
    simp
  have found : table.entries.lookup entry.1 = some entry.2 :=
    AList.mem_lookup_iff.mpr member
  rw [next, if_neg (table.wellFormed _ _ found).1]
  exact nextAfter_append table.entries.nodupKeys parts

end ValkeyLuajit.Lua
