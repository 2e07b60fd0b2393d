import ValkeyLuajit.Lua.Effect
import ValkeyLuajit.Script.Call

/-!
# What the module does to a script's values

Before and after a script runs, the module stores its arguments, reads the error
or converts the result. All of this may call metamethods and change the heap, but
it leaves the registry alone but for its counters, and sends nothing but replies.
-/

namespace ValkeyLuajit

open Lua

/-- The registry slots the module counts in. -/
def counterNames : List String := ["__gc_count", "__full_gc_count"]

/-- Two states that agree on the hook and on the registry but for the counters. -/
structure SameGuard (before after : State) : Prop where
  hook : after.hook = before.hook
  registry : ∀ name, name ∉ counterNames → after.registry name = before.registry name

/-- What handling values may do. -/
structure HandlingEffect (before after : Core CallHost) : Prop where
  globals : after.lua.globals = before.lua.globals
  hidden : after.lua.hidden = before.lua.hidden
  guard : SameGuard before.lua after.lua
  call : after.host.callCtx = before.host.callCtx
  trace : ∃ tokens : List Token,
    after.host.trace = before.host.trace ++ tokens.map .sent
  metaCalls : ∃ more, after.metaCalls = before.metaCalls ++ more ∧
    ∀ call ∈ more, SameGuard before.lua call.2

namespace SameGuard

/-- Nothing changed. -/
theorem refl (lua : State) : SameGuard lua lua := ⟨rfl, fun _ _ => rfl⟩

/-- One change after the other. -/
theorem trans {first second third : State} (before : SameGuard first second)
    (after : SameGuard second third) : SameGuard first third where
  hook := after.hook.trans before.hook
  registry := fun name other => (after.registry name other).trans (before.registry name other)

end SameGuard

namespace HandlingEffect

/-- Nothing was handled. -/
theorem refl (core : Core CallHost) : HandlingEffect core core where
  globals := rfl
  hidden := rfl
  guard := .refl _
  call := rfl
  trace := ⟨[], by simp⟩
  metaCalls := ⟨[], by simp, by simp⟩

/-- One value after the other: the replies and the calls of metamethods add up. -/
theorem trans {first second third : Core CallHost} (before : HandlingEffect first second)
    (after : HandlingEffect second third) : HandlingEffect first third where
  globals := after.globals.trans before.globals
  hidden := after.hidden.trans before.hidden
  guard := before.guard.trans after.guard
  call := after.call.trans before.call
  trace := by
    obtain ⟨early, earlyTrace⟩ := before.trace
    obtain ⟨late, lateTrace⟩ := after.trace
    exact ⟨early ++ late, by rw [lateTrace, earlyTrace, List.map_append, List.append_assoc]⟩
  metaCalls := by
    obtain ⟨early, earlyCalls, earlySame⟩ := before.metaCalls
    obtain ⟨late, lateCalls, lateSame⟩ := after.metaCalls
    refine ⟨early ++ late, by rw [lateCalls, earlyCalls, List.append_assoc], ?_⟩
    intro call member
    rcases List.mem_append.mp member with inEarly | inLate
    · exact earlySame call inEarly
    · exact before.guard.trans (lateSame call inLate)

/-- A change of the heap alone. -/
theorem of_heap {core : Core CallHost} (heap : Heap) :
    HandlingEffect core ⟨{ core.lua with heap := heap }, core.host, core.metaCalls⟩ where
  globals := rfl
  hidden := rfl
  guard := ⟨rfl, fun _ _ => rfl⟩
  call := rfl
  trace := ⟨[], by simp⟩
  metaCalls := ⟨[], by simp, by simp⟩

/-- Handling values, as an effect. -/
def effect : Effect CallHost := ⟨HandlingEffect, refl, trans⟩

end HandlingEffect

section Bounds

open Effect

variable {α : Type} (rt : Runtime)

/-- The operation handles values at most. -/
abbrev Handles (operation : LuaM CallHost α) : Prop := HandlingEffect.effect.Bounds operation

/-- A reply only lengthens the trace. -/
theorem handles_reply (token : Token) : Handles (reply token) := fun _ =>
  { globals := rfl
    hidden := rfl
    guard := ⟨rfl, fun _ _ => rfl⟩
    call := rfl
    trace := ⟨[token], rfl⟩
    metaCalls := ⟨[], by simp [World.core, World.setHost], by simp⟩ }

/-- A metamethod may change the heap. -/
theorem handles_callMetamethod (handler : FuncRef) (arguments : List Value) :
    Handles (callMetamethod rt handler arguments) := by
  intro world
  unfold callMetamethod
  dsimp only
  cases rt.callMeta world.metaCalls.length handler arguments world.lua.heap <;>
    exact
      { globals := rfl
        hidden := rfl
        guard := ⟨rfl, fun _ _ => rfl⟩
        call := rfl
        trace := ⟨[], by simp [World.core, World.setHeap]⟩
        metaCalls := ⟨[(handler, world.lua)], rfl, by simp [World.core, SameGuard.refl]⟩ }

/-- A read may call a metamethod. -/
theorem handles_index (object key : Value) : Handles (luaIndex rt object key) := by
  intro world
  unfold luaIndex
  split
  · exact .refl _
  · exact handles_callMetamethod rt _ _ world
  · exact .refl _

/-- So may the read of a field. -/
theorem handles_getField (index : Int) (field : String) : Handles (luaGetField rt index field) :=
  bounds_getField (handles_index rt) index field

/-- Storing in a table scripts can reach. -/
theorem handles_assign (addr : Addr) (key value : Value) :
    Handles (luaAssign rt (.table addr) key value) := by
  intro world
  unfold luaAssign
  dsimp only
  split
  · rw [storeEntry_world]
    split
    · exact .of_heap _
    · exact .refl _
  · exact bounds_bind (handles_callMetamethod rt _ _) (fun _ => bounds_pure _) world
  · exact .refl _

/-- So may the assignment of a global. -/
theorem handles_setGlobal (name : String) : Handles (luaSetGlobal rt name) := fun world =>
  handles_assign rt world.lua.globals (.string (bytes name)) (world.get (-1)) (world.pop 1)

section Extraction

variable {rt} {effect : Effect CallHost}
  (reads : ∀ object key, effect.Bounds (luaIndex rt object key : LuaM CallHost Value))
include reads

/-- Reading an error table does what its metamethods do, and no more. -/
theorem bounds_readErrorField (field : String) : effect.Bounds (readErrorField rt field) :=
  bounds_bind (bounds_getField reads _ _) fun _ =>
    bounds_bind (bounds_value _) fun _ => bounds_bind (bounds_pop _) fun _ => bounds_pure _

/-- Extracting error information has the effect of reading fields. -/
theorem bounds_extractErrorInformation : effect.Bounds (luajitExtractErrorInformation rt) := by
  refine bounds_bind (bounds_value _) fun top => bounds_ite (bounds_pure _) ?_
  refine bounds_bind (bounds_readErrorField reads _) fun _ => ?_
  refine bounds_bind (bounds_readErrorField reads _) fun _ => ?_
  refine bounds_bind (bounds_readErrorField reads _) fun _ => ?_
  refine bounds_bind (bounds_getField reads _ _) fun _ => ?_
  exact bounds_bind (bounds_value _) fun _ => bounds_bind (bounds_pop _) fun _ => bounds_pure _

end Extraction

/-- Reading a field of an error handles values at most. -/
theorem handles_readErrorField (field : String) : Handles (readErrorField rt field) :=
  bounds_readErrorField (handles_index rt) field

/-- So does reading all of them. -/
theorem handles_extractErrorInformation : Handles (luajitExtractErrorInformation rt) :=
  bounds_extractErrorInformation (handles_index rt)

/-- A test handles values at most when both its outcomes do. -/
theorem handles_onField (field : String) (type : LuaType) {handle : Value → LuaM CallHost Unit}
    {otherwise : LuaM CallHost Unit} (found : ∀ value, Handles (handle value))
    (rest : Handles otherwise) : Handles (onField field type handle otherwise) := by
  refine bounds_bind (bounds_push _) fun _ => bounds_bind (bounds_rawGet _) fun _ => ?_
  refine bounds_bind (bounds_value _) fun value => bounds_ite (found value) ?_
  exact bounds_bind (bounds_pop _) fun _ => rest

/-- Sending a token and dropping what it was made of. -/
theorem handles_replyAndPop (token : Token) (count : Nat) :
    Handles (do reply token; luaPop count) :=
  bounds_bind (handles_reply _) fun _ => bounds_pop _

/-- An error table is read and replied. -/
theorem handles_replyErrorTable (value : Value) : Handles (replyErrorTable rt value) :=
  bounds_bind (bounds_pop _) fun _ =>
    bounds_bind (handles_extractErrorInformation rt) fun _ => handles_replyAndPop _ _

/-- The tests on a verbatim text handle values at most when the further tests do. -/
theorem handles_replyVerbatim {otherwise : LuaM CallHost Unit} (rest : Handles otherwise) :
    Handles (replyVerbatim otherwise) := by
  refine bounds_bind (bounds_push _) fun _ => bounds_bind (bounds_rawGet _) fun _ => ?_
  refine bounds_bind (bounds_value _) fun _ => bounds_ite ?_ ?_
  · refine bounds_bind (bounds_push _) fun _ => bounds_bind (bounds_rawGet _) fun _ => ?_
    refine bounds_bind (bounds_value _) fun _ => bounds_ite ?_ ?_
    · refine bounds_bind (bounds_push _) fun _ => bounds_bind (bounds_rawGet _) fun _ => ?_
      refine bounds_bind (bounds_value _) fun _ => bounds_ite (handles_replyAndPop _ _) ?_
      exact bounds_bind (bounds_pop _) fun _ => bounds_bind (bounds_pop _) fun _ =>
        bounds_bind (bounds_pop _) fun _ => rest
    · exact bounds_bind (bounds_pop _) fun _ => bounds_bind (bounds_pop _) fun _ => rest
  · exact bounds_bind (bounds_pop _) fun _ => rest

section Loops

variable {convert : LuaM CallHost Unit} (converts : Handles convert)
include converts

/-- The loop over a map handles values at most when the conversion does. -/
theorem handles_mapLoop (fuel : Nat) : Handles (replyMapLoop convert fuel) := by
  induction fuel with
  | zero => exact bounds_of_core fun _ => rfl
  | succ fuel ih =>
      refine bounds_bind (bounds_next _) fun more => bounds_ite ?_ (bounds_pure _)
      refine bounds_bind (bounds_pushValue _) fun _ => bounds_bind converts fun _ => ?_
      exact bounds_bind converts fun _ => bounds_bind ih fun _ => bounds_pure _

/-- So does the loop over a set. -/
theorem handles_setLoop (fuel : Nat) : Handles (replySetLoop convert fuel) := by
  induction fuel with
  | zero => exact bounds_of_core fun _ => rfl
  | succ fuel ih =>
      refine bounds_bind (bounds_next _) fun more => bounds_ite ?_ (bounds_pure _)
      refine bounds_bind (bounds_pop _) fun _ => bounds_bind (bounds_pushValue _) fun _ => ?_
      exact bounds_bind converts fun _ => bounds_bind ih fun _ => bounds_pure _

/-- So does the loop over an array. -/
theorem handles_arrayLoop (fuel j : Nat) : Handles (replyArrayLoop convert fuel j) := by
  induction fuel generalizing j with
  | zero => exact bounds_of_core fun _ => rfl
  | succ fuel ih =>
      refine bounds_bind (bounds_push _) fun _ => bounds_bind (bounds_rawGet _) fun _ => ?_
      refine bounds_bind (bounds_value _) fun _ => bounds_ite ?_ ?_
      · exact bounds_bind (bounds_pop _) fun _ => bounds_pure _
      · exact bounds_bind converts fun _ => bounds_bind (ih _) fun _ => bounds_pure _

/-- A map is replied with the conversions of what it holds. -/
theorem handles_replyMap (value : Value) : Handles (replyMap convert value) := by
  refine bounds_bind (handles_reply _) fun _ => bounds_bind (bounds_of_core fun _ => rfl) fun _ => ?_
  refine bounds_bind (bounds_push _) fun _ => bounds_bind (handles_mapLoop converts _) fun _ => ?_
  exact handles_replyAndPop _ _

/-- A set is replied with the conversions of what it holds. -/
theorem handles_replySet (value : Value) : Handles (replySet convert value) := by
  refine bounds_bind (handles_reply _) fun _ => bounds_bind (bounds_of_core fun _ => rfl) fun _ => ?_
  refine bounds_bind (bounds_push _) fun _ => bounds_bind (handles_setLoop converts _) fun _ => ?_
  exact handles_replyAndPop _ _

/-- An array is replied with the conversions of what it holds. -/
theorem handles_replyArray : Handles (replyArray convert) := by
  refine bounds_bind (handles_reply _) fun _ => bounds_bind (bounds_of_core fun _ => rfl) fun _ => ?_
  exact bounds_bind (handles_arrayLoop converts _ _) fun _ => handles_replyAndPop _ _

/-- Whichever test on a table succeeds, values are handled at most. -/
theorem handles_replyTable : Handles (replyTable rt convert) := by
  refine handles_onField _ _ (handles_replyErrorTable rt) ?_
  refine handles_onField _ _ (fun _ => handles_replyAndPop _ _) ?_
  refine handles_onField _ _ (fun _ => handles_replyAndPop _ _) ?_
  refine handles_onField _ _ (fun _ => handles_replyAndPop _ _) ?_
  refine handles_replyVerbatim ?_
  refine handles_onField _ _ (handles_replyMap converts) ?_
  exact handles_onField _ _ (handles_replySet converts) (handles_replyArray converts)

end Loops

/-- Converting a value, however deep it is nested. -/
theorem handles_replyToServerReply (resp fuel : Nat) :
    Handles (luajitReplyToServerReply rt resp fuel) := by
  induction fuel with
  | zero => exact bounds_of_core fun _ => rfl
  | succ fuel ih =>
      refine bounds_bind (bounds_value _) fun value => ?_
      refine bounds_bind (bounds_checkStack _) fun _ => bounds_ite ?_ (handles_replyAndPop _ _)
      split
      · exact handles_replyAndPop _ _
      · exact handles_replyAndPop _ _
      · exact handles_replyAndPop _ _
      · exact handles_replyTable rt ih
      · exact handles_replyTable rt ih
      · exact handles_replyAndPop _ _

/-- Reporting an error. -/
theorem handles_reportError : Handles (reportError rt) := by
  refine bounds_bind (bounds_value _) fun error => bounds_ite ?_ ?_
  · exact bounds_bind (handles_extractErrorInformation rt) fun _ => handles_replyAndPop _ _
  · exact handles_replyAndPop _ _

/-- Counting collections touches the counters. -/
theorem handles_countGcCycle : Handles countGcCycle := by
  have reads (name : String) : Handles (readCounter name) :=
    bounds_bind (bounds_getRegistry _) fun _ =>
      bounds_bind (bounds_value _) fun _ => bounds_bind (bounds_pop _) fun _ => bounds_pure _
  have writes {name : String} (counter : name ∈ counterNames) (value : Int) :
      Handles (writeCounter name value) := by
    refine bounds_bind (bounds_push _) fun _ => fun world => ?_
    exact
      { globals := rfl
        hidden := rfl
        guard := ⟨rfl, fun other apart => Function.update_of_ne (by grind) _ _⟩
        call := rfl
        trace := ⟨[], by simp [World.core, World.setRegistry, World.pop]⟩
        metaCalls := ⟨[], by simp [World.core, World.setRegistry, World.pop], by simp⟩ }
  refine bounds_bind (reads _) fun _ => bounds_bind (reads _) fun _ => ?_
  exact bounds_bind (writes (by decide) _) fun _ => writes (by decide) _

/-- Report what `lua_pcall` left on the stack. -/
def reportResult (err : Bool) : LuaM CallHost Unit := do
  countGcCycle
  if err then reportError rt
  else do
    let resp ← currentResp
    luajitReplyToServerReply rt resp (maxCStack + 1)

/-- Reporting handles values at most, whether the call failed or not. -/
theorem handles_reportResult (err : Bool) : Handles (reportResult rt err) := by
  refine bounds_bind handles_countGcCycle fun _ => bounds_ite (handles_reportError rt) ?_
  exact bounds_bind (bounds_of_core fun _ => rfl) fun _ => handles_replyToServerReply rt _ _

/-- Clear up after a call. -/
def clearCall : LuaM CallHost Unit := do
  luaSetHook none
  luajitSaveOnRegistry registryRunCtxName none
  setCallCtx none

/-- The end of a call is its report and the clearing. -/
theorem finishCall_eq (err : Bool) :
    finishCall rt err = reportResult rt err >>= fun _ => clearCall := by
  unfold finishCall reportResult
  rw [LuaM.bind_bind]
  cases err <;> simp [LuaM.bind_bind] <;> rfl

end Bounds

/-- The table with strings from one index on. -/
def storeStrings : Nat → List Bytes → Table → Table
  | _, [], table => table
  | j, element :: rest, table =>
      storeStrings (j + 1) rest (table.rawSet (.number (.finite j)) (.string element))

/-- A fresh table of strings. -/
def Lua.Heap.withArray (heap : Heap) (elements : List Bytes) : Heap :=
  heap.alloc (storeStrings 1 elements .empty)

section Begin

variable {rt : Runtime} {frame base : List Value} {breached : Bool} {lua : State} {host : CallHost}
  {calls : List (FuncRef × State)}

/-- Writing twice to one address is writing the second time. -/
theorem Lua.Heap.write_write (heap : Heap) (addr : Addr) (first second : Table) :
    (heap.write addr first).write addr second = heap.write addr second := by
  simp [Heap.write]

variable (frame base breached lua host calls) in
/-- The stores of the elements are one write. -/
theorem storeElements_write (j : Nat) (addr : Addr) (table : Table) (elements : List Bytes)
    (heap : Heap) :
    storeElements j elements ⟨.table addr :: frame, base, breached,
        { lua with heap := heap.write addr table }, host, calls⟩ =
      .done () ⟨.table addr :: frame, base, breached,
        { lua with heap := heap.write addr (storeStrings j elements table) }, host, calls⟩ := by
  induction elements generalizing j table with
  | nil => rfl
  | cons element rest ih =>
      have next := ih (j + 1) (table.rawSet (.number (.finite j)) (.string element))
      simpa [storeElements, storeStrings, World.rawAssign, Heap.write_write] using next

variable (frame base breached lua host calls) in
/-- `luajitCreateArray` allocates the table of the elements. -/
theorem luajitCreateArray_withArray (elements : List Bytes) :
    luajitCreateArray elements ⟨frame, base, breached, lua, host, calls⟩ =
      .done () ⟨.table lua.heap.next :: frame, base, breached,
        { lua with heap := lua.heap.withArray elements }, host, calls⟩ := by
  have allocated (table : Table) : lua.heap.alloc table =
      { lua.heap with next := lua.heap.next + 1 }.write lua.heap.next table := rfl
  have stored := storeElements_write frame base breached lua host calls 1 lua.heap.next .empty
    elements { lua.heap with next := lua.heap.next + 1 }
  simpa [luajitCreateArray, luaNewTable, Heap.withArray, allocated] using stored

variable (rt frame base breached lua host calls) in
/-- Storing a global takes one slot, or raises. -/
theorem luaSetGlobal_cases (name : String) (value : Value) :
    ∃ lua' calls', HandlingEffect ⟨lua, host, calls⟩ ⟨lua', host, calls'⟩ ∧
      (luaSetGlobal rt name ⟨value :: frame, base, breached, lua, host, calls⟩ =
          .done () ⟨frame, base, breached, lua', host, calls'⟩ ∨
        ∃ error, luaSetGlobal rt name ⟨value :: frame, base, breached, lua, host, calls⟩ =
          .raised error ⟨frame, base, breached, lua', host, calls'⟩) := by
  have handled := handles_setGlobal rt name ⟨value :: frame, base, breached, lua, host, calls⟩
  simp only [luaSetGlobal, luaAssign, Value.storable_string, storeEntry_storable,
    World.get_neg_one, World.stack_mk, World.pop_mk_succ, World.pop_mk_zero,
    callMetamethod] at handled ⊢
  split at handled
  · exact ⟨_, _, handled, .inl rfl⟩
  · split at handled
    · exact ⟨_, _, handled, .inl rfl⟩
    · exact ⟨_, _, handled, .inr ⟨_, rfl⟩⟩
  · exact ⟨_, _, handled, .inr ⟨_, rfl⟩⟩

end Begin

end ValkeyLuajit
