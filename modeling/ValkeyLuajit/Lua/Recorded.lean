import ValkeyLuajit.Lua.Effect

/-!
# C functions that note what they do

A recorded C function notes what its outcome does not show: the conversions it performed,
where a text came from. `Erases` connects it to the function without the notes. An account
relates the notes to the worlds before and after; its rules follow the text of the function.
-/

namespace ValkeyLuajit.Lua

/-- How a recorded function ends, and what it noted. -/
structure Report (ρ σ α : Type) where
  outcome : Outcome σ α
  notes : List ρ

/-- Continue after a normal end; the notes come one after the other. -/
def Report.andThen {ρ σ α β : Type} (report : Report ρ σ α) (next : α → World σ → Report ρ σ β) :
    Report ρ σ β :=
  match report.outcome with
  | .done value world =>
      ⟨(next value world).outcome, report.notes ++ (next value world).notes⟩
  | .raised error world => ⟨.raised error world, report.notes⟩
  | .aborted reason world => ⟨.aborted reason world, report.notes⟩

/-- A C function that takes notes. -/
def Recorded (ρ σ α : Type) : Type := World σ → Report ρ σ α

namespace Recorded

variable {ρ σ α β : Type}

instance : Monad (Recorded ρ σ) where
  pure value := fun world => ⟨.done value world, []⟩
  bind first next := fun world => (first world).andThen next

/-- An operation with nothing to note. -/
def run (operation : LuaM σ α) : Recorded ρ σ α := fun world => ⟨operation world, []⟩

/-- Take these notes. -/
def note (entries : List ρ) : Recorded ρ σ Unit := fun world => ⟨.done () world, entries⟩

/-- Without its notes the function is this one. -/
def Erases (recorded : Recorded ρ σ α) (operation : LuaM σ α) : Prop :=
  ∀ world, (recorded world).outcome = operation world

section Erasure

/-- An operation that notes nothing is itself. -/
theorem erases_run (operation : LuaM σ α) : Erases (run operation : Recorded ρ σ α) operation :=
  fun _ => rfl

/-- A value is given without a note. -/
theorem erases_pure (value : α) : Erases (pure value : Recorded ρ σ α) (pure value) := fun _ => rfl

/-- A sequence without its notes is the sequence of its parts without theirs. -/
theorem erases_bind {first : Recorded ρ σ α} {next : α → Recorded ρ σ β} {operation : LuaM σ α}
    {rest : α → LuaM σ β} (before : Erases first operation)
    (after : ∀ value, Erases (next value) (rest value)) :
    Erases (first >>= next) (operation >>= rest) := by
  intro world
  have here := before world
  change ((first world).andThen next).outcome = (operation world).andThen rest
  rw [← here]
  unfold Report.andThen
  cases (first world).outcome with
  | done value mid => exact after value mid
  | raised error final => rfl
  | aborted reason final => rfl

/-- An operation with nothing to note, and what follows. -/
theorem erases_step {operation : LuaM σ α} {next : α → Recorded ρ σ β} {rest : α → LuaM σ β}
    (after : ∀ value, Erases (next value) (rest value)) :
    Erases (run operation >>= next) (operation >>= rest) :=
  erases_bind (erases_run operation) after

/-- A note is nothing to the function. -/
theorem erases_note {entries : List ρ} {next : Unit → Recorded ρ σ α} {operation : LuaM σ α}
    (after : Erases (next ()) operation) : Erases (note entries >>= next) operation := by
  intro world
  exact after world

/-- A choice without its notes is the choice between its branches without theirs. -/
theorem erases_ite {condition : Prop} [Decidable condition] {yes no : Recorded ρ σ α}
    {left right : LuaM σ α} (first : Erases yes left) (second : Erases no right) :
    Erases (if condition then yes else no) (if condition then left else right) := by
  split
  · exact first
  · exact second

end Erasure

/-- After a normal end the notes of what follows come behind. -/
theorem notes_bind_of_done {first : Recorded ρ σ α} {next : α → Recorded ρ σ β} {world mid : World σ}
    {value : α} (ends : (first world).outcome = .done value mid) :
    ((first >>= next) world).notes = (first world).notes ++ (next value mid).notes := by
  change ((first world).andThen next).notes = _
  unfold Report.andThen
  rw [ends]

/-- An operation with nothing to note that ends normally. -/
theorem step_of_done {operation : LuaM σ α} {next : α → Recorded ρ σ β} {world mid : World σ}
    {value : α} (ends : operation world = .done value mid) :
    (run operation >>= next) world = next value mid := by
  change (run operation world).andThen next = _
  simp [run, ends, Report.andThen]

/-- An operation in front adds no note. -/
theorem notes_step {operation : LuaM σ α} {next : α → Recorded ρ σ β} {world mid : World σ}
    {value : α} (ends : operation world = .done value mid) :
    ((run operation >>= next) world).notes = (next value mid).notes :=
  notes_bind_of_done ends

/-- Nothing follows another end. -/
theorem notes_bind_of_not_done {first : Recorded ρ σ α} {next : α → Recorded ρ σ β}
    {world : World σ} (ends : ¬ (first world).outcome.IsDone) :
    ((first >>= next) world).notes = (first world).notes := by
  change ((first world).andThen next).notes = _
  unfold Report.andThen
  cases ended : (first world).outcome with
  | done value mid => exact absurd (by rw [ended]; trivial) ends
  | raised error final => rfl
  | aborted reason final => rfl

/-- A relation between the world before, the notes and the world after that holds along a
sequence when it holds of its parts. -/
structure Account (ρ σ : Type) where
  allows : World σ → List ρ → World σ → Prop
  refl : ∀ world, allows world [] world
  trans : ∀ {first mid last early late}, allows first early mid → allows mid late last →
    allows first (early ++ late) last

namespace Account

/-- Every note is of this kind. -/
def every (kind : ρ → Prop) : Account ρ σ where
  allows _ notes _ := ∀ entry ∈ notes, kind entry
  refl _ := List.forall_mem_nil _
  trans early late entry member := (List.mem_append.mp member).elim (early entry) (late entry)

variable (account : Account ρ σ)

/-- However the function ends, its notes are as the account says. -/
def Covers (recorded : Recorded ρ σ α) : Prop :=
  ∀ world, account.allows world (recorded world).notes (recorded world).outcome.world

variable {account}

/-- A value that is given settles with no note. -/
theorem covers_pure (value : α) : account.Covers (pure value : Recorded ρ σ α) :=
  fun world => account.refl world

/-- So does an operation that the account does not ask about. -/
theorem covers_run {operation : LuaM σ α}
    (quiet : ∀ world, account.allows world [] (operation world).world) :
    account.Covers (run operation) := quiet

/-- The accounts of two parts add up. -/
theorem covers_bind {first : Recorded ρ σ α} {next : α → Recorded ρ σ β}
    (before : account.Covers first) (after : ∀ value, account.Covers (next value)) :
    account.Covers (first >>= next) := by
  intro world
  have here := before world
  change account.allows world ((first world).andThen next).notes
    ((first world).andThen next).outcome.world
  unfold Report.andThen
  cases ended : (first world).outcome with
  | done value mid =>
      rw [ended] at here
      exact account.trans here (after value mid)
  | raised error final => rwa [ended] at here
  | aborted reason final => rwa [ended] at here

/-- A choice is covered when both branches are. -/
theorem covers_ite {condition : Prop} [Decidable condition] {yes no : Recorded ρ σ α}
    (first : account.Covers yes) (second : account.Covers no) :
    account.Covers (if condition then yes else no) := by
  split
  · exact first
  · exact second

section Every

variable {kind : ρ → Prop}

/-- An operation that notes nothing notes nothing wrong. -/
theorem every_run (operation : LuaM σ α) :
    (every kind).Covers (run operation : Recorded ρ σ α) :=
  covers_run fun _ => List.forall_mem_nil _

/-- Nor does it in front of anything. -/
theorem every_step {operation : LuaM σ α} {next : α → Recorded ρ σ β}
    (after : ∀ value, (every kind).Covers (next value)) :
    (every kind).Covers (run operation >>= next) :=
  covers_bind (every_run operation) after

/-- A note has to be as asked, and what follows too. -/
theorem every_note {entries : List ρ} {next : Unit → Recorded ρ σ α}
    (here : ∀ entry ∈ entries, kind entry) (after : (every kind).Covers (next ())) :
    (every kind).Covers (note entries >>= next) :=
  covers_bind (fun _ => here) fun _ => after

end Every

end Account

end Recorded

end ValkeyLuajit.Lua
