import ValkeyLuajit.Lua.Recorded

/-!
# C functions and the bottom of their stack

The API does not say when an operation reads or pops a slot below the bottom. Here each
operation is recorded with the number of slots it needs, and notes when there are fewer.
`Balanced` says that a function started at a given height never gets below the bottom, and
at what height it ends; its rules follow the text of the function.
-/

namespace ValkeyLuajit.Lua

/-- The slots, and what was popped below them, are the same. -/
structure World.SameSlots {σ : Type} (before after : World σ) : Prop where
  frame : after.frame = before.frame
  base : after.base = before.base
  breached : after.breached = before.breached

section Slots

variable {σ : Type} (rt : Runtime) (world : World σ)

/-- A metamethod runs on slots of its own. -/
theorem callMetamethod_sameSlots (handler : FuncRef) (arguments : List Value) :
    world.SameSlots (callMetamethod rt handler arguments world).world := by
  unfold callMetamethod
  dsimp only
  split <;> exact ⟨rfl, rfl, rfl⟩

/-- A read leaves the slots as they are. -/
theorem luaIndex_sameSlots (object key : Value) :
    world.SameSlots (luaIndex rt object key world).world := by
  unfold luaIndex
  split
  · exact ⟨rfl, rfl, rfl⟩
  · exact callMetamethod_sameSlots rt world _ _
  · exact ⟨rfl, rfl, rfl⟩

/-- Storing an entry leaves the slots as they are. -/
theorem storeEntry_sameSlots {key : Value} {stored : World σ} (same : world.SameSlots stored) :
    world.SameSlots (storeEntry key stored world).world := by
  rw [storeEntry_world]
  split
  · exact same
  · exact ⟨rfl, rfl, rfl⟩

/-- An assignment leaves the slots as they are. -/
theorem luaAssign_sameSlots (object key value : Value) :
    world.SameSlots (luaAssign rt object key value world).world := by
  unfold luaAssign
  split
  · exact storeEntry_sameSlots world ⟨rfl, rfl, rfl⟩
  · split
    · exact storeEntry_sameSlots world ⟨rfl, rfl, rfl⟩
    · rename_i handler holder _
      have here := callMetamethod_sameSlots rt world handler [holder, key, value]
      cases ended : callMetamethod rt handler [holder, key, value] world <;>
        (rw [ended] at here; exact here)
    · exact ⟨rfl, rfl, rfl⟩

end Slots

/-- The operation takes this many slots from the top of the frame and puts others there. -/
def Shifts {σ α : Type} (operation : LuaM σ α) (down : Nat) (up : α → Nat) : Prop :=
  ∀ (world : World σ) value final, operation world = .done value final →
    down ≤ world.frame.length →
      final.frame.length = world.frame.length - down + up value ∧ final.base = world.base ∧
        final.breached = world.breached

section Shifts

variable {σ α : Type} (rt : Runtime)

/-- Popping slots of the frame leaves those below it alone. -/
theorem World.pop_within {world : World σ} {count : Nat} (inside : count ≤ world.frame.length) :
    (world.pop count).frame.length = world.frame.length - count ∧
      (world.pop count).base = world.base ∧ (world.pop count).breached = world.breached := by
  refine ⟨List.length_drop, ?_, ?_⟩
  · rw [World.pop, Nat.sub_eq_zero_of_le inside]
    rfl
  · have whole : ¬ world.frame.length < count := Nat.not_lt.mpr inside
    simp [World.pop, whole]

/-- Looking at a value moves nothing. -/
theorem shifts_value (index : Int) : Shifts (σ := σ) (luaValue index) 0 fun _ => 0 := by
  rintro world value final ended -
  cases ended
  exact ⟨rfl, rfl, rfl⟩

/-- A value is pushed. -/
theorem shifts_push (value : Value) : Shifts (σ := σ) (luaPush value) 0 fun _ => 1 := by
  rintro world value final ended -
  cases ended
  exact ⟨rfl, rfl, rfl⟩

/-- A text is pushed. -/
theorem shifts_pushString (text : String) : Shifts (σ := σ) (luaPushString text) 0 fun _ => 1 :=
  shifts_push _

/-- A copy is pushed. -/
theorem shifts_pushValue (index : Int) : Shifts (σ := σ) (luaPushValue index) 0 fun _ => 1 := by
  rintro world value final ended -
  cases ended
  exact ⟨rfl, rfl, rfl⟩

/-- A table is pushed. -/
theorem shifts_newTable : Shifts (σ := σ) luaNewTable 0 fun _ => 1 := by
  rintro world value final ended -
  cases ended
  exact ⟨rfl, rfl, rfl⟩

/-- A registry field is pushed. -/
theorem shifts_getRegistry (name : String) :
    Shifts (σ := σ) (luaGetRegistry name) 0 fun _ => 1 := by
  rintro world value final ended -
  cases ended
  exact ⟨rfl, rfl, rfl⟩

/-- So many slots are taken. -/
theorem shifts_pop (count : Nat) : Shifts (σ := σ) (luaPop count) count fun _ => 0 := by
  rintro world value final ended inside
  cases ended
  exact World.pop_within inside

/-- The value is taken. -/
theorem shifts_setRegistry (name : String) :
    Shifts (σ := σ) (luaSetRegistry name) 1 fun _ => 0 := by
  rintro world value final ended inside
  cases ended
  exact World.pop_within inside

/-- An operation that pops slots and then works on what is not on the stack. -/
theorem shifts_of_sameSlots {operation : LuaM σ α} {count : Nat}
    (rest : ∀ world : World σ, (world.pop count).SameSlots (operation world).world) :
    Shifts operation count fun _ => 0 := by
  intro world value final ended inside
  have same := rest world
  rw [ended] at same
  obtain ⟨height, base, breached⟩ := World.pop_within inside
  refine ⟨?_, same.base.trans base, same.breached.trans breached⟩
  exact (congrArg List.length same.frame).trans height

/-- The key and the value are taken. -/
theorem shifts_setTable (index : Int) : Shifts (σ := σ) (luaSetTable rt index) 2 fun _ => 0 :=
  shifts_of_sameSlots fun world => luaAssign_sameSlots rt (world.pop 2) _ _ _

/-- The value is taken, also with the key given as bytes. -/
theorem shifts_setFieldC (index : Int) (field : Bytes) :
    Shifts (σ := σ) (luaSetFieldC rt index field) 1 fun _ => 0 :=
  shifts_of_sameSlots fun world => luaAssign_sameSlots rt (world.pop 1) _ _ _

/-- The value of a global is taken. -/
theorem shifts_setGlobal (name : String) : Shifts (σ := σ) (luaSetGlobal rt name) 1 fun _ => 0 :=
  shifts_of_sameSlots fun world => luaAssign_sameSlots rt (world.pop 1) (.table world.lua.globals)
    (.string (bytes name)) (world.get (-1))

/-- Reading a field pushes it. -/
theorem shifts_index {operation : LuaM σ Unit} (object : World σ → Value) (key : Value)
    (reads : ∀ world, operation world =
      (luaIndex rt (object world) key world).andThen fun value => luaPush value) :
    Shifts operation 0 fun _ => 1 := by
  rintro world value final ended -
  have same := luaIndex_sameSlots rt world (object world) key
  rw [reads, Outcome.andThen_eq_done] at ended
  obtain ⟨found, mid, here, pushed⟩ := ended
  rw [here] at same
  cases pushed
  exact ⟨congrArg (· + 1) (congrArg List.length same.frame), same.base, same.breached⟩

/-- The field is pushed, whatever a metamethod does. -/
theorem shifts_getField (index : Int) (field : String) :
    Shifts (σ := σ) (luaGetField rt index field) 0 fun _ => 1 :=
  shifts_index rt (fun world => world.get index) _ fun _ => rfl

end Shifts

namespace Recorded

/-- There are fewer slots above the bottom than an operation reads or pops. From the first of
these on the height counts from what is left below. -/
structure Underflow where
  height : Nat
  depth : Nat
deriving DecidableEq

/-- An operation that reads or pops this many slots from the top. -/
def api {σ α : Type} (depth : Nat) (operation : LuaM σ α) : Recorded Underflow σ α := fun world =>
  ⟨operation world, if world.frame.length < depth then [⟨world.frame.length, depth⟩] else []⟩

/-- Started at the height `before`, the function never gets below the bottom, leaves what is
below it alone, and ends at the height `after` gives, if it ends normally. -/
def Balanced {σ α : Type} (before : Nat) (recorded : Recorded Underflow σ α) (after : α → Nat) :
    Prop :=
  ∀ world : World σ, world.frame.length = before → (recorded world).notes = [] ∧
    ∀ value final, (recorded world).outcome = .done value final →
      final.frame.length = after value ∧ final.base = world.base ∧
        final.breached = world.breached

section Balance

variable {σ α β : Type} {before : Nat}

/-- A sequence ends normally when both its parts do. -/
theorem bind_eq_done {ρ : Type} {first : Recorded ρ σ α} {next : α → Recorded ρ σ β}
    {world final : World σ} {value : β} :
    ((first >>= next) world).outcome = .done value final ↔
      ∃ mid inner, (first world).outcome = .done mid inner ∧
        (next mid inner).outcome = .done value final := by
  change ((first world).andThen next).outcome = _ ↔ _
  unfold Report.andThen
  cases (first world).outcome <;> simp

/-- What does nothing ends as high as it starts. -/
theorem balanced_pure {value : α} {after : α → Nat} (same : after value = before) :
    Balanced before (pure value : Recorded Underflow σ α) after := by
  rintro world rfl
  refine ⟨rfl, ?_⟩
  intro result final ended
  cases ended
  exact ⟨same.symm, rfl, rfl⟩

/-- The second part starts as high as the first one ends. -/
theorem balanced_bind {first : Recorded Underflow σ α} {next : α → Recorded Underflow σ β}
    {mid : α → Nat} {after : β → Nat} (here : Balanced before first mid)
    (rest : ∀ value, Balanced (mid value) (next value) after) :
    Balanced before (first >>= next) after := by
  intro world height
  obtain ⟨quiet, ends⟩ := here world height
  constructor
  · by_cases normal : (first world).outcome.IsDone
    · cases ended : (first world).outcome with
      | done value inner =>
          rw [notes_bind_of_done ended, quiet, List.nil_append]
          exact (rest value inner (ends value inner ended).1).1
      | raised error inner => simp [ended, Outcome.IsDone] at normal
      | aborted reason inner => simp [ended, Outcome.IsDone] at normal
    · rw [notes_bind_of_not_done normal, quiet]
  · intro result final ended
    obtain ⟨value, inner, begins, finishes⟩ := bind_eq_done.mp ended
    obtain ⟨innerHeight, base, breached⟩ := ends value inner begins
    obtain ⟨finalHeight, finalBase, finalBreached⟩ :=
      (rest value inner innerHeight).2 result final finishes
    exact ⟨finalHeight, finalBase.trans base, finalBreached.trans breached⟩

/-- Both branches have to be balanced, each under its condition. -/
theorem balanced_ite {condition : Prop} [Decidable condition] {yes no : Recorded Underflow σ α}
    {after : α → Nat} (first : condition → Balanced before yes after)
    (second : ¬ condition → Balanced before no after) :
    Balanced before (if condition then yes else no) after := by
  split
  · exact first ‹_›
  · exact second ‹_›

/-- An operation that finds the slots it needs. -/
theorem balanced_api {operation : LuaM σ α} {depth down : Nat} {up : α → Nat}
    (shifts : Shifts operation down up) (deep : depth ≤ before) (less : down ≤ before) :
    Balanced before (api depth operation) fun value => before - down + up value := by
  rintro world rfl
  refine ⟨if_neg (Nat.not_lt.mpr deep), ?_⟩
  intro value final ended
  exact shifts world value final ended less

/-- The same heights, written otherwise. -/
theorem Balanced.congr {recorded : Recorded Underflow σ α} {after other : α → Nat}
    (balanced : Balanced before recorded after) (same : ∀ value, after value = other value) :
    Balanced before recorded other := by
  intro world height
  obtain ⟨quiet, ends⟩ := balanced world height
  refine ⟨quiet, fun value final ended => ?_⟩
  rw [← same]
  exact ends value final ended

/-- The last operation, with the height written otherwise. -/
theorem balanced_last {operation : LuaM σ α} {depth down : Nat} {up after : α → Nat}
    (shifts : Shifts operation down up) (deep : depth ≤ before) (less : down ≤ before)
    (same : ∀ value, before - down + up value = after value) :
    Balanced before (api depth operation) after :=
  (balanced_api shifts deep less).congr same

/-- One operation, and what follows. -/
theorem balanced_step {operation : LuaM σ α} {next : α → Recorded Underflow σ β} {depth down : Nat}
    {up : α → Nat} {after : β → Nat} (shifts : Shifts operation down up) (deep : depth ≤ before)
    (less : down ≤ before)
    (rest : ∀ value, Balanced (before - down + up value) (next value) after) :
    Balanced before (api depth operation >>= next) after :=
  balanced_bind (balanced_api shifts deep less) rest

end Balance

end Recorded

end ValkeyLuajit.Lua
