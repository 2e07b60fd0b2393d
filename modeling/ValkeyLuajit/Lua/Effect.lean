import ValkeyLuajit.Lua.Api

/-!
# What an operation may change

An effect says how the Lua state, the host's data and the metamethod calls after
an operation relate to those before it, however the operation ends. Effects are
closed under sequencing, so that one is shown of a C function by going through its
text. The stack is not part of it: `inFrame` restores that in any case.
-/

namespace ValkeyLuajit.Lua

/-- A world without its stack. -/
structure Core (σ : Type) where
  lua : State
  host : σ
  metaCalls : List (FuncRef × State)

/-- A world without its stack. -/
def World.core {σ : Type} (world : World σ) : Core σ :=
  ⟨world.lua, world.host, world.metaCalls⟩

@[simp] theorem World.core_lua {σ : Type} (world : World σ) : world.core.lua = world.lua := rfl

@[simp] theorem World.core_host {σ : Type} (world : World σ) : world.core.host = world.host := rfl

/-- Change the Lua state. -/
def Core.map {σ : Type} (core : Core σ) (change : State → State) : Core σ :=
  { core with lua := change core.lua }

@[simp] theorem Core.map_lua {σ : Type} (core : Core σ) (change : State → State) :
    (core.map change).lua = change core.lua := rfl

@[simp] theorem Core.map_host {σ : Type} (core : Core σ) (change : State → State) :
    (core.map change).host = core.host := rfl

/-- The world of this core with these slots. -/
def Core.on {σ : Type} (core : Core σ) (frame base : List Value) (breached : Bool) : World σ :=
  ⟨frame, base, breached, core.lua, core.host, core.metaCalls⟩

@[simp] theorem Core.on_core {σ : Type} (core : Core σ) (frame base : List Value)
    (breached : Bool) : (core.on frame base breached).core = core := rfl

@[simp] theorem Core.on_lua {σ : Type} (core : Core σ) (frame base : List Value)
    (breached : Bool) : (core.on frame base breached).lua = core.lua := rfl

/-- The same end on other slots. -/
def Outcome.on {σ α : Type} (outcome : Outcome σ α) (frame base : List Value) (breached : Bool) :
    Outcome σ α :=
  match outcome with
  | .done value final => .done value (final.core.on frame base breached)
  | .raised error final => .raised error (final.core.on frame base breached)
  | .aborted reason final => .aborted reason (final.core.on frame base breached)

/-- A frame of its own leaves the caller's slots alone, if nothing was popped below it. -/
theorem inFrame_on {σ α : Type} {arguments frame base : List Value} {breached : Bool}
    {core : Core σ} {operation : LuaM σ α}
    (tidy : (operation (core.on arguments.reverse (frame ++ base) false)).world.breached = false) :
    inFrame arguments operation (core.on frame base breached) =
      (operation (core.on arguments.reverse (frame ++ base) false)).on frame base breached := by
  have back (final : World σ) (clean : final.breached = false) :
      (⟨frame, base, breached || final.breached, final.lua, final.host, final.metaCalls⟩ :
        World σ) = final.core.on frame base breached := by
    simp [clean, Core.on, World.core]
  cases ended : operation (core.on arguments.reverse (frame ++ base) false) with
  | done value final =>
      rw [ended] at tidy
      exact inFrame_eq_done.mpr ⟨final, ended, (back final tidy).symm⟩
  | raised error final =>
      rw [ended] at tidy
      exact inFrame_eq_raised.mpr ⟨final, ended, (back final tidy).symm⟩
  | aborted reason final =>
      rw [ended] at tidy
      exact inFrame_eq_aborted.mpr ⟨final, ended, (back final tidy).symm⟩

/-- A preorder on what is not on the stack. -/
structure Effect (σ : Type) where
  allows : Core σ → Core σ → Prop
  refl : ∀ core, allows core core
  trans : ∀ {first second third}, allows first second → allows second third → allows first third

namespace Effect

variable {σ α β : Type} {effect : Effect σ}

/-- The operation has no more than this effect. -/
def Bounds (effect : Effect σ) (operation : LuaM σ α) : Prop :=
  ∀ world, effect.allows world.core (operation world).world.core

/-- An operation that touches nothing but the stack has every effect. -/
theorem bounds_of_core {operation : LuaM σ α}
    (same : ∀ world, (operation world).world.core = world.core) : effect.Bounds operation := by
  intro world
  rw [same]
  exact effect.refl _

/-- The effect of a sequence is that of its parts, one after the other. -/
theorem bounds_bind {first : LuaM σ α} {next : α → LuaM σ β} (before : effect.Bounds first)
    (after : ∀ value, effect.Bounds (next value)) : effect.Bounds (first >>= next) := by
  intro world
  have here := before world
  rw [LuaM.bind_apply]
  cases outcome : first world with
  | done value mid =>
      rw [outcome] at here
      exact effect.trans here (after value mid)
  | raised error mid => rwa [outcome] at here
  | aborted reason mid => rwa [outcome] at here

/-- A value that is given has no effect. -/
theorem bounds_pure (value : α) : effect.Bounds (pure value : LuaM σ α) :=
  fun _ => effect.refl _

/-- A choice is bounded when both branches are. -/
theorem bounds_ite {condition : Prop} [Decidable condition] {yes no : LuaM σ α}
    (left : effect.Bounds yes) (right : effect.Bounds no) :
    effect.Bounds (if condition then yes else no) := by
  split
  · exact left
  · exact right

/-- A frame of its own makes no difference to what an operation changes. -/
theorem bounds_inFrame (arguments : List Value) {body : LuaM σ α} (inner : effect.Bounds body) :
    effect.Bounds (inFrame arguments body) := by
  intro world
  have here := inner { world with
    frame := arguments.reverse, base := world.stack, breached := false }
  unfold inFrame
  cases outcome : body { world with
      frame := arguments.reverse, base := world.stack, breached := false } <;>
    (rw [outcome] at here; exact here)

section Stack

variable (effect)

/-- Raising an error has no effect. -/
theorem bounds_error {value : Value} : effect.Bounds (luaError (α := α) value : LuaM σ α) :=
  bounds_of_core fun _ => rfl

/-- Looking at a value has no effect. -/
theorem bounds_value {index : Int} : effect.Bounds (luaValue index : LuaM σ Value) :=
  bounds_of_core fun _ => rfl

/-- Counting the slots has no effect. -/
theorem bounds_getTop : effect.Bounds (luaGetTop : LuaM σ Nat) := bounds_of_core fun _ => rfl

/-- A push changes the stack alone. -/
theorem bounds_push {value : Value} : effect.Bounds (luaPush value : LuaM σ Unit) :=
  bounds_of_core fun _ => rfl

/-- A pop changes the stack alone. -/
theorem bounds_pop {count : Nat} : effect.Bounds (luaPop count : LuaM σ Unit) :=
  bounds_of_core fun _ => rfl

/-- A copy changes the stack alone. -/
theorem bounds_pushValue {index : Int} : effect.Bounds (luaPushValue index : LuaM σ Unit) :=
  bounds_of_core fun _ => rfl

/-- The check of the slots has no effect. -/
theorem bounds_checkStack {extra : Nat} :
    effect.Bounds (luaCheckStackFromBottom extra : LuaM σ Bool) :=
  bounds_of_core fun _ => rfl

/-- Reading the registry changes the stack alone. -/
theorem bounds_getRegistry {name : String} : effect.Bounds (luaGetRegistry name : LuaM σ Unit) :=
  bounds_of_core fun _ => rfl

/-- A raw read changes the stack alone. -/
theorem bounds_rawGet {index : Int} : effect.Bounds (luaRawGet index : LuaM σ Unit) :=
  bounds_of_core fun _ => rfl

/-- An assertion has no effect, whether it holds or not. -/
theorem bounds_assert {condition : Bool} {text : String} :
    effect.Bounds (moduleAssert condition text : LuaM σ Unit) := by
  refine bounds_of_core fun world => ?_
  unfold moduleAssert
  split <;> rfl

/-- Advancing a traversal changes the stack alone. -/
theorem bounds_next {index : Int} : effect.Bounds (luaNext index : LuaM σ Bool) := by
  refine bounds_of_core fun world => ?_
  unfold luaNext
  split <;> rfl

end Stack

/-- Reading a field has the effect of the metamethod it may call. -/
theorem bounds_index {rt : Runtime} {object key : Value}
    (fetches : ∀ (lua : State) (host : σ) (calls : List (FuncRef × State)),
      effect.allows ⟨lua, host, calls⟩
        ⟨(lua.fetch rt calls object key).2.1, host, (lua.fetch rt calls object key).2.2⟩) :
    effect.Bounds (luaIndex rt object key : LuaM σ Value) := by
  rintro ⟨frame, base, breached, lua, host, calls⟩
  have here := fetches lua host calls
  rw [luaIndex_fetch]
  split <;> rename_i fetched <;> (rw [fetched] at here; exact here)

/-- Fetching a field of a slot has the effect of reading it. -/
theorem bounds_getField {rt : Runtime}
    (reads : ∀ object key, effect.Bounds (luaIndex rt object key : LuaM σ Value)) (index : Int)
    (field : String) : effect.Bounds (luaGetField rt index field : LuaM σ Unit) :=
  bounds_bind (bounds_value effect) fun _ => bounds_bind (reads _ _) fun _ => bounds_push effect

end Effect

end ValkeyLuajit.Lua
