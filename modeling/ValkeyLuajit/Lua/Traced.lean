import ValkeyLuajit.Library.Reservation
import ValkeyLuajit.Lua.Api

/-!
# What a C function asks of the stack

A traced C function is a C function together with its moments: each operation that
leaves the stack higher is a push, each `lua_checkstack` that succeeds a reservation.
`Traces` connects it to the function without the record. `Within` says that a promise
suffices wherever the function starts at a given height, and gives the height it ends
at; its rules follow the text of the function.
-/

namespace ValkeyLuajit.Lua

section Height

variable {σ α : Type} (rt : Runtime) (world : World σ)

/-- The slots in use, from the bottom of the running function's frame. -/
def World.height : Nat := world.frame.length

@[simp] theorem World.height_push (value : Value) : (world.push value).height = world.height + 1 :=
  rfl

@[simp] theorem World.height_setHeap (heap : Heap) : (world.setHeap heap).height = world.height :=
  rfl

@[simp] theorem World.height_pop (count : Nat) : (world.pop count).height = world.height - count := by
  simp only [height, pop, List.length_drop]

/-- A new table is allocated and its address pushed. -/
theorem luaNewTable_apply : luaNewTable world =
    .done () ((world.setHeap (world.lua.heap.alloc .empty)).push (.table world.lua.heap.next)) := rfl

/-- A metamethod runs on slots of its own. -/
theorem callMetamethod_height (handler : FuncRef) (arguments : List Value) :
    (callMetamethod rt handler arguments world).world.height = world.height := by
  unfold callMetamethod
  dsimp only
  split <;> rfl

/-- A read leaves the slots in use to its caller. -/
theorem luaIndex_height (object key : Value) :
    (luaIndex rt object key world).world.height = world.height := by
  unfold luaIndex
  split
  · rfl
  · exact callMetamethod_height rt world _ _
  · rfl

/-- Storing an entry does not change the slots in use. -/
theorem storeEntry_height {key : Value} {stored : World σ} (same : stored.height = world.height) :
    (storeEntry key stored world).world.height = world.height := by
  rw [storeEntry_world]
  split
  · exact same
  · rfl

/-- An assignment leaves the slots in use to its caller. -/
theorem luaAssign_height (object key value : Value) :
    (luaAssign rt object key value world).world.height = world.height := by
  unfold luaAssign
  split
  · exact storeEntry_height world rfl
  · split
    · exact storeEntry_height world rfl
    · rename_i handler holder _
      have here := callMetamethod_height rt world handler [holder, key, value]
      cases ended : callMetamethod rt handler [holder, key, value] world <;>
        (rw [ended] at here; exact here)
    · rfl

end Height

/-- How a traced function ends, and what it did to the stack. -/
structure Trail (σ α : Type) where
  outcome : Outcome σ α
  moments : List Moment

/-- Continue after a normal end; the moments come one after the other. -/
def Trail.andThen {σ α β : Type} (trail : Trail σ α) (next : α → World σ → Trail σ β) :
    Trail σ β :=
  match trail.outcome with
  | .done value world =>
      ⟨(next value world).outcome, trail.moments ++ (next value world).moments⟩
  | .raised error world => ⟨.raised error world, trail.moments⟩
  | .aborted reason world => ⟨.aborted reason world, trail.moments⟩

/-- A C function that records its moments. -/
def Traced (σ α : Type) : Type := World σ → Trail σ α

namespace Traced

section Recording

variable {σ α β : Type}

instance : Monad (Traced σ) where
  pure value := fun world => ⟨.done value world, []⟩
  bind first next := fun world => (first world).andThen next

/-- One operation: a push when it leaves the stack higher. -/
def call (operation : LuaM σ α) : Traced σ α := fun world =>
  let outcome := operation world
  ⟨outcome, if world.height < outcome.world.height then [.push outcome.world.height] else []⟩

/-- `lua_checkstack`: a reservation when it succeeds. -/
def luaCheckStack (extra : Nat) : Traced σ Bool := fun world =>
  let outcome := Lua.luaCheckStack extra world
  ⟨outcome, if outcome.value = some true then [.reserve (world.height + extra)] else []⟩

/-- The same in code of the engine. -/
def luaCheckStackFromBottom (extra : Nat) : Traced σ Bool := fun world =>
  let outcome := Lua.luaCheckStackFromBottom extra world
  ⟨outcome, if outcome.value = some true then [.reserve (world.height + extra)] else []⟩

/-- It succeeds while the slots in use and those asked for are within the limit. -/
theorem luaCheckStack_fits {extra : Nat} {world : World σ}
    (room : world.height + extra ≤ maxCStack) :
    luaCheckStack extra world = ⟨.done true world, [.reserve (world.height + extra)]⟩ := by
  rw [World.height] at room
  simp [luaCheckStack, Lua.luaCheckStack, Outcome.value, room]

/-- There is no room above the limit. -/
theorem luaCheckStack_full {extra : Nat} {world : World σ}
    (full : ¬ world.height + extra ≤ maxCStack) :
    luaCheckStack extra world = ⟨.done false world, []⟩ := by
  rw [World.height] at full
  simp [luaCheckStack, Lua.luaCheckStack, Outcome.value, full]

end Recording

/-!
The operations that the conversions use, each recorded as one.
-/

section Operations

variable {σ α : Type} (rt : Runtime)

/-- Looking at a value is no moment. -/
def luaValue (index : Int) : Traced σ Value := call (Lua.luaValue index)

/-- `lua_push…`. -/
def luaPush (value : Value) : Traced σ Unit := call (Lua.luaPush value)

/-- `lua_pushstring`. -/
def luaPushString (text : String) : Traced σ Unit := call (Lua.luaPushString text)

/-- `lua_pop`. -/
def luaPop (count : Nat) : Traced σ Unit := call (Lua.luaPop count)

/-- `lua_pushvalue`. -/
def luaPushValue (index : Int) : Traced σ Unit := call (Lua.luaPushValue index)

/-- `lua_newtable`. -/
def luaNewTable : Traced σ Unit := call Lua.luaNewTable

/-- `lua_getfield`. -/
def luaGetField (index : Int) (field : String) : Traced σ Unit :=
  call (Lua.luaGetField rt index field)

/-- `lua_settable`. -/
def luaSetTable (index : Int) : Traced σ Unit := call (Lua.luaSetTable rt index)

/-- `lua_rawget`. -/
def luaRawGet (index : Int) : Traced σ Unit := call (Lua.luaRawGet index)

/-- `lua_next`. -/
def luaNext (index : Int) : Traced σ Bool := call (Lua.luaNext index)

end Operations

/-- Without its record the function is this one. -/
def Traces {σ α : Type} (traced : Traced σ α) (operation : LuaM σ α) : Prop :=
  ∀ world, (traced world).outcome = operation world

section Erasure

variable {σ α β : Type}

/-- An operation traces itself. -/
theorem traces_call (operation : LuaM σ α) : Traces (call operation) operation := fun _ => rfl

/-- The check answers as without the record. -/
theorem traces_checkStack (extra : Nat) :
    Traces (σ := σ) (luaCheckStack extra) (Lua.luaCheckStack extra) := fun _ => rfl

/-- So does the check that counts from the bottom of the stack. -/
theorem traces_checkStackFromBottom (extra : Nat) :
    Traces (σ := σ) (luaCheckStackFromBottom extra) (Lua.luaCheckStackFromBottom extra) :=
  fun _ => rfl

/-- A value is given as without the record. -/
theorem traces_pure (value : α) : Traces (σ := σ) (pure value) (pure value) := fun _ => rfl

/-- A sequence of traced functions traces the sequence. -/
theorem traces_bind {first : Traced σ α} {next : α → Traced σ β} {operation : LuaM σ α}
    {rest : α → LuaM σ β} (before : Traces first operation)
    (after : ∀ value, Traces (next value) (rest value)) :
    Traces (first >>= next) (operation >>= rest) := by
  intro world
  have here := before world
  change ((first world).andThen next).outcome = (operation world).andThen rest
  rw [← here]
  unfold Trail.andThen
  cases (first world).outcome with
  | done value mid => exact after value mid
  | raised error final => rfl
  | aborted reason final => rfl

/-- One operation, and what follows. -/
theorem traces_step {operation : LuaM σ α} {next : α → Traced σ β} {rest : α → LuaM σ β}
    (after : ∀ value, Traces (next value) (rest value)) :
    Traces (call operation >>= next) (operation >>= rest) :=
  traces_bind (traces_call operation) after

/-- A choice is traced when both branches are. -/
theorem traces_ite {condition : Prop} [Decidable condition] {yes no : Traced σ α}
    {left right : LuaM σ α} (first : Traces yes left) (second : Traces no right) :
    Traces (if condition then yes else no) (if condition then left else right) := by
  split
  · exact first
  · exact second

end Erasure

section Sequences

variable {σ α β : Type} {first : Traced σ α} {next : α → Traced σ β} {world : World σ}

/-- What follows a normal end. -/
theorem bind_of_done {value : α} {mid : World σ} (ends : (first world).outcome = .done value mid) :
    (first >>= next) world =
      ⟨(next value mid).outcome, (first world).moments ++ (next value mid).moments⟩ := by
  change (first world).andThen next = _
  unfold Trail.andThen
  rw [ends]

/-- Nothing follows an end that is not normal. -/
theorem bind_of_not_done (ends : ¬ (first world).outcome.IsDone) :
    ((first >>= next) world).moments = (first world).moments ∧
      ¬ ((first >>= next) world).outcome.IsDone := by
  change ((first world).andThen next).moments = _ ∧ ¬ ((first world).andThen next).outcome.IsDone
  unfold Trail.andThen
  cases ended : (first world).outcome with
  | done value mid => exact absurd (by rw [ended]; trivial) ends
  | raised error final => exact ⟨rfl, id⟩
  | aborted reason final => exact ⟨rfl, id⟩

/-- A promise suffices for a sequence when it suffices for the first part and what is
promised then suffices for the second. -/
theorem suffices_bind {slots : Nat} : Suffices slots ((first >>= next) world).moments ↔
    Suffices slots (first world).moments ∧
      ∀ value mid, (first world).outcome = .done value mid →
        Suffices (promised slots (first world).moments) (next value mid).moments := by
  by_cases normal : (first world).outcome.IsDone
  · cases ended : (first world).outcome with
    | done value mid =>
        rw [bind_of_done ended, suffices_append]
        simp
    | raised error final => simp [ended, Outcome.IsDone] at normal
    | aborted reason final => simp [ended, Outcome.IsDone] at normal
  · rw [(bind_of_not_done normal).1]
    refine ⟨fun enough => ⟨enough, ?_⟩, And.left⟩
    intro value mid ended
    exact absurd (by rw [ended]; trivial) normal

end Sequences

/-- Started at the height `before` with these slots promised, the function takes only
promised slots and ends at the height `after` gives, if it ends normally. -/
def Within {σ α : Type} (slots before : Nat) (traced : Traced σ α) (after : α → Nat) : Prop :=
  ∀ world : World σ, world.height = before → Suffices slots (traced world).moments ∧
    ∀ value final, (traced world).outcome = .done value final → final.height = after value

section Bounds

variable {σ α β : Type} {slots before : Nat}

/-- What does nothing ends where it starts. -/
theorem within_pure {value : α} {after : α → Nat} (same : after value = before) :
    Within slots before (pure value : Traced σ α) after := by
  rintro world rfl
  refine ⟨trivial, ?_⟩
  intro result final ended
  cases ended
  exact same.symm

/-- The second part starts where the first one ends. -/
theorem within_bind {first : Traced σ α} {next : α → Traced σ β} {mid : α → Nat} {after : β → Nat}
    (here : Within slots before first mid)
    (rest : ∀ value, Within slots (mid value) (next value) after) :
    Within slots before (first >>= next) after := by
  intro world height
  obtain ⟨enough, top⟩ := here world height
  refine ⟨suffices_bind.mpr ⟨enough, ?_⟩, ?_⟩
  · intro value mid ended
    exact (rest value mid (top value mid ended)).1.mono (le_promised _)
  · intro result final ended
    by_cases normal : (first world).outcome.IsDone
    · cases start : (first world).outcome with
      | done value mid =>
          rw [bind_of_done start] at ended
          exact (rest value mid (top value mid start)).2 result final ended
      | raised error final => simp [start, Outcome.IsDone] at normal
      | aborted reason final => simp [start, Outcome.IsDone] at normal
    · exact absurd (by rw [ended]; trivial) (@bind_of_not_done _ _ _ _ next _ normal).2

/-- Both branches have to keep within the promise, each under its condition. -/
theorem within_ite {condition : Prop} [Decidable condition] {yes no : Traced σ α}
    {after : α → Nat} (first : condition → Within slots before yes after)
    (second : ¬ condition → Within slots before no after) :
    Within slots before (if condition then yes else no) after := by
  split
  · exact first ‹_›
  · exact second ‹_›

/-- After a successful `lua_checkstack` the slots it asked for are promised too. -/
theorem within_checkStack {extra : Nat} {next : Bool → Traced σ α} {after : α → Nat}
    (fits : Within (max slots (before + extra)) before (next true) after)
    (full : Within slots before (next false) after) :
    Within slots before (luaCheckStackFromBottom extra >>= next) after := by
  rintro world rfl
  by_cases room : world.stack.length + extra ≤ maxCStack
  · have asked : luaCheckStackFromBottom extra world =
        ⟨.done true world, [.reserve (world.height + extra)]⟩ := by
      simp [luaCheckStackFromBottom, Lua.luaCheckStackFromBottom, Outcome.value, room]
    have start : (luaCheckStackFromBottom extra world).outcome = .done true world := by rw [asked]
    rw [Within] at fits
    rw [bind_of_done start, asked]
    exact fits world rfl
  · have asked : luaCheckStackFromBottom extra world = ⟨.done false world, []⟩ := by
      simp [luaCheckStackFromBottom, Lua.luaCheckStackFromBottom, Outcome.value, room]
    have start : (luaCheckStackFromBottom extra world).outcome = .done false world := by rw [asked]
    rw [bind_of_done start, asked]
    exact full world rfl

/-- One operation stays within the promise when its end does. -/
theorem within_call {operation : LuaM σ α} {after : α → Nat}
    (room : ∀ world : World σ, world.height = before →
      (operation world).world.height ≤ max slots before)
    (top : ∀ world value final, world.height = before → operation world = .done value final →
      final.height = after value) : Within slots before (call operation) after := by
  intro world height
  refine ⟨?_, fun value final => top world value final height⟩
  have bound := room world height
  unfold call
  dsimp only
  split
  · refine ⟨?_, trivial⟩
    omega
  · trivial

/-- An operation that always ends normally, at the height `top`. -/
theorem within_step {operation : LuaM σ α} {value : World σ → α} {change : World σ → World σ}
    {top : Nat} (ends : ∀ world, operation world = .done (value world) (change world))
    (height : ∀ world : World σ, world.height = before → (change world).height = top)
    (room : top ≤ max slots before) : Within slots before (call operation) fun _ => top := by
  apply within_call
  · intro world start
    rw [ends]
    exact (height world start).trans_le room
  · intro world result final start ended
    rw [ends] at ended
    cases ended
    exact height world start

variable (rt : Runtime)

/-- Looking at a value needs no slot. -/
theorem within_value (index : Int) :
    Within (σ := σ) slots before (luaValue index) fun _ => before :=
  within_step (fun _ => rfl) (fun _ => id) (Nat.le_max_right ..)

/-- A push needs one slot. -/
theorem within_push (value : Value) (room : before + 1 ≤ slots) :
    Within (σ := σ) slots before (luaPush value) fun _ => before + 1 :=
  within_step (fun _ => rfl) (fun _ start => congrArg (· + 1) start)
    (room.trans (Nat.le_max_left ..))

/-- So does a text. -/
theorem within_pushString (text : String) (room : before + 1 ≤ slots) :
    Within (σ := σ) slots before (luaPushString text) fun _ => before + 1 :=
  within_push _ room

/-- So does a copy. -/
theorem within_pushValue (index : Int) (room : before + 1 ≤ slots) :
    Within (σ := σ) slots before (luaPushValue index) fun _ => before + 1 :=
  within_step (fun _ => rfl) (fun _ start => congrArg (· + 1) start)
    (room.trans (Nat.le_max_left ..))

/-- So does a new table. -/
theorem within_newTable (room : before + 1 ≤ slots) :
    Within (σ := σ) slots before luaNewTable fun _ => before + 1 :=
  within_step (fun _ => rfl) (fun _ start => congrArg (· + 1) start)
    (room.trans (Nat.le_max_left ..))

/-- A pop needs none. -/
theorem within_pop (count : Nat) :
    Within (σ := σ) slots (before + count) (luaPop count) fun _ => before := by
  refine within_step (fun _ => rfl) ?_ ?_
  · intro world start
    rw [World.height_pop, start, Nat.add_sub_cancel]
  · omega

/-- The key gives way to the entry. -/
theorem within_rawGet (index : Int) :
    Within (σ := σ) slots (before + 1) (luaRawGet index) fun _ => before + 1 := by
  refine within_step (fun _ => rfl) ?_ (Nat.le_max_right ..)
  intro world start
  rw [World.height_push, World.height_pop, start]
  rfl

/-- The value fetched needs one slot. -/
theorem within_getField (index : Int) (field : String) (room : before + 1 ≤ slots) :
    Within (σ := σ) slots before (luaGetField rt index field) fun _ => before + 1 := by
  have pushed (world : World σ) : Lua.luaGetField rt index field world =
      (luaIndex rt (world.get index) (.string (bytes field)) world).andThen Lua.luaPush := rfl
  apply within_call
  · intro world start
    have height := luaIndex_height rt world (world.get index) (.string (bytes field))
    rw [pushed]
    cases ended : luaIndex rt (world.get index) (.string (bytes field)) world <;>
      (rw [ended] at height
       simp at height ⊢
       omega)
  · intro world value final start ended
    have height := luaIndex_height rt world (world.get index) (.string (bytes field))
    rw [pushed, Outcome.andThen_eq_done] at ended
    obtain ⟨found, mid, read, ended⟩ := ended
    rw [read] at height
    cases ended
    exact congrArg (· + 1) (height.trans start)

/-- A store takes its key and its value from the stack. -/
theorem luaSetTable_height (index : Int) (world : World σ) :
    (Lua.luaSetTable rt index world).world.height = world.height - 2 := by
  have stored : (Lua.luaSetTable rt index world).world.height = (world.pop 2).height :=
    luaAssign_height rt (world.pop 2) (world.get index) (world.get (-2)) (world.get (-1))
  rw [stored, World.height_pop]

/-- The key and the value are taken. -/
theorem within_setTable (index : Int) :
    Within (σ := σ) slots (before + 2) (luaSetTable rt index) fun _ => before := by
  apply within_call
  · intro world start
    rw [luaSetTable_height, start]
    omega
  · intro world value final start ended
    have height := luaSetTable_height rt index world
    rw [ended, start] at height
    exact height

/-- The key gives way to the next key and value, or to nothing. -/
theorem within_next (index : Int) (room : before + 2 ≤ slots) :
    Within (σ := σ) slots (before + 1) (luaNext index) fun more =>
      if more then before + 2 else before := by
  apply within_call
  · intro world start
    unfold Lua.luaNext
    split
    · simp
      omega
    · simp
      omega
    · simp
      omega
  · intro world value final start ended
    unfold Lua.luaNext at ended
    split at ended
    · cases ended
    · cases ended
      simp [start]
    · cases ended
      simp [start]

end Bounds

/-- The function reserves nothing. -/
def Plain {σ α : Type} (traced : Traced σ α) : Prop := ∀ world, OnlyPushes (traced world).moments

section Plain

variable {σ α β : Type}

/-- An operation reserves nothing. -/
theorem plain_call (operation : LuaM σ α) : Plain (call operation) := by
  intro world height member
  unfold call at member
  dsimp only at member
  split at member
  · simp at member
  · simp at member

/-- Two parts that reserve nothing reserve nothing together. -/
theorem plain_bind {first : Traced σ α} {next : α → Traced σ β} (here : Plain first)
    (rest : ∀ value, Plain (next value)) : Plain (first >>= next) := by
  intro world
  by_cases normal : (first world).outcome.IsDone
  · cases ended : (first world).outcome with
    | done value mid =>
        rw [bind_of_done ended]
        exact (here world).append (rest value mid)
    | raised error final => simp [ended, Outcome.IsDone] at normal
    | aborted reason final => simp [ended, Outcome.IsDone] at normal
  · rw [(bind_of_not_done normal).1]
    exact here world

end Plain

end Traced

end ValkeyLuajit.Lua
