import Mathlib.Logic.Basic

/-!
# Machines driven by inputs

A machine takes one input at a time. Some inputs are not admitted in a state,
so a run is a list of inputs each of which was admitted where it was taken.
`Along` speaks of the steps of a run and `Visits` of its states; the rules below
turn what one step preserves into what a whole run preserves.
-/

namespace ValkeyLuajit

universe u v

/-- A deterministic machine with the inputs its states admit. -/
structure InputMachine (State : Type u) (Input : Type v) where
  Admits : State → Input → Prop
  step : State → Input → State

namespace InputMachine

variable {State : Type u} {Input : Type v} (machine : InputMachine State Input)

/-- The state after a list of inputs. -/
def after (start : State) : List Input → State
  | [] => start
  | input :: rest => after (machine.step start input) rest

/-- Every step of the run satisfies `holds` at the state it starts from. -/
def Along (holds : State → Input → Prop) (start : State) : List Input → Prop
  | [] => True
  | input :: rest => holds start input ∧ Along holds (machine.step start input) rest

/-- Every state the run visits satisfies `law`, the first and the last included. -/
def Visits (law : State → Prop) (start : State) : List Input → Prop
  | [] => law start
  | input :: rest => law start ∧ Visits law (machine.step start input) rest

instance decidableAlong {State : Type u} {Input : Type v} (machine : InputMachine State Input)
    (holds : State → Input → Prop) [decide : ∀ state input, Decidable (holds state input)]
    (start : State) (inputs : List Input) : Decidable (machine.Along holds start inputs) :=
  match inputs with
  | [] => .isTrue trivial
  | input :: rest =>
      have := decidableAlong machine holds (machine.step start input) rest
      inferInstanceAs (Decidable (holds start input ∧
        machine.Along holds (machine.step start input) rest))

/-- A run: every input was admitted where it was taken. -/
abbrev Run (start : State) (inputs : List Input) : Prop :=
  machine.Along machine.Admits start inputs

/-- The machine with a record beside it that no step reads. -/
def recorded {Record : Type v} (note : State → Input → Record → Record) :
    InputMachine (State × Record) Input where
  Admits := fun both => machine.Admits both.1
  step := fun both input => (machine.step both.1 input, note both.1 input both.2)

variable {machine} {start : State} {inputs : List Input}

/-- The record makes no difference to the steps. -/
theorem along_recorded {Record : Type v} {note : State → Input → Record → Record}
    {holds : State → Input → Prop} {record : Record} :
    (machine.recorded note).Along (fun both input => holds both.1 input) (start, record) inputs ↔
      machine.Along holds start inputs := by
  induction inputs generalizing start record with
  | nil => exact Iff.rfl
  | cons input rest ih => exact and_congr_right fun _ => ih

/-- Steps are weakened pointwise. -/
theorem Along.mono {weak strong : State → Input → Prop}
    (weaken : ∀ state input, strong state input → weak state input)
    (along : machine.Along strong start inputs) : machine.Along weak start inputs := by
  induction inputs generalizing start with
  | nil => trivial
  | cons input rest ih => exact ⟨weaken _ _ along.1, ih along.2⟩

/-- What is said of inputs alone holds along a run when it holds of every input. -/
theorem along_iff_forall {holds : Input → Prop} :
    machine.Along (fun _ input => holds input) start inputs ↔ ∀ input ∈ inputs, holds input := by
  induction inputs generalizing start with
  | nil => simp [Along]
  | cons input rest ih => rw [List.forall_mem_cons, Along, ih]

/-- What holds of every input of a run wherever it is taken holds along the run. -/
theorem along_of_forall {holds : Input → Prop} (all : ∀ input ∈ inputs, holds input) :
    machine.Along (fun _ input => holds input) start inputs := along_iff_forall.mpr all

/-- Two step conditions hold together when each holds. -/
theorem Along.and {first second : State → Input → Prop}
    (left : machine.Along first start inputs) (right : machine.Along second start inputs) :
    machine.Along (fun state input => first state input ∧ second state input) start inputs := by
  induction inputs generalizing start with
  | nil => trivial
  | cons input rest ih => exact ⟨⟨left.1, right.1⟩, ih left.2 right.2⟩

/-- Laws are weakened pointwise. -/
theorem Visits.mono {weak strong : State → Prop} (weaken : ∀ state, strong state → weak state)
    (visits : machine.Visits strong start inputs) : machine.Visits weak start inputs := by
  induction inputs generalizing start with
  | nil => exact weaken _ visits
  | cons input rest ih => exact ⟨weaken _ visits.1, ih visits.2⟩

/-- The first state of a run is one it visits. -/
theorem Visits.first {law : State → Prop} (visits : machine.Visits law start inputs) :
    law start := by
  cases inputs with
  | nil => exact visits
  | cons input rest => exact visits.1

/-- The last state of a run is one it visits. -/
theorem Visits.last {law : State → Prop} (visits : machine.Visits law start inputs) :
    law (machine.after start inputs) := by
  induction inputs generalizing start with
  | nil => exact visits
  | cons input rest ih => exact ih visits.2

/-- What holds of every state holds at every step that starts from one. -/
theorem Visits.along {law : State → Prop} {holds : State → Input → Prop}
    (visits : machine.Visits law start inputs)
    (atStep : ∀ state input, law state → holds state input) :
    machine.Along holds start inputs := by
  induction inputs generalizing start with
  | nil => trivial
  | cons input rest ih => exact ⟨atStep _ _ visits.1, ih visits.2⟩

/-- The guarded invariant rule: an invariant kept by every admitted step that
meets the guard holds along every run whose steps all meet it. -/
theorem Run.visits {invariant : State → Prop} {guard : State → Input → Prop}
    (kept : ∀ state input, invariant state → machine.Admits state input → guard state input →
      invariant (machine.step state input))
    (initial : invariant start) (run : machine.Run start inputs)
    (guarded : machine.Along guard start inputs) : machine.Visits invariant start inputs := by
  induction inputs generalizing start with
  | nil => exact initial
  | cons input rest ih =>
      exact ⟨initial, ih (kept _ _ initial run.1 guarded.1) run.2 guarded.2⟩

/-- Step conditions that agree wherever an invariant holds agree along a run. -/
theorem Run.along_iff {invariant : State → Prop} {first second : State → Input → Prop}
    (agree : ∀ state input, invariant state → machine.Admits state input →
      (first state input ↔ second state input))
    (visits : machine.Visits invariant start inputs) (run : machine.Run start inputs) :
    machine.Along first start inputs ↔ machine.Along second start inputs := by
  induction inputs generalizing start with
  | nil => exact Iff.rfl
  | cons input rest ih =>
      exact and_congr (agree _ _ visits.1 run.1) (ih visits.2 run.2)

/-- A step condition and a guard that agree wherever an invariant holds which the
guard keeps agree along a run. -/
theorem Run.along_iff_guard {invariant : State → Prop} {holds guard : State → Input → Prop}
    (agree : ∀ state input, invariant state → machine.Admits state input →
      (holds state input ↔ guard state input))
    (kept : ∀ state input, invariant state → machine.Admits state input → guard state input →
      invariant (machine.step state input))
    (initial : invariant start) (run : machine.Run start inputs) :
    machine.Along holds start inputs ↔ machine.Along guard start inputs := by
  induction inputs generalizing start with
  | nil => exact Iff.rfl
  | cons input rest ih =>
      have here := agree _ _ initial run.1
      constructor
      · rintro ⟨first, later⟩
        have guarded := here.mp first
        exact ⟨guarded, (ih (kept _ _ initial run.1 guarded) run.2).mp later⟩
      · rintro ⟨guarded, later⟩
        exact ⟨here.mpr guarded, (ih (kept _ _ initial run.1 guarded) run.2).mpr later⟩

/-- Exactness of a guard. When, from every state the law and the auxiliary
invariant hold of, an admitted step keeps the law exactly if it meets the guard,
a run keeps the law throughout exactly if all its steps meet the guard. -/
theorem Run.visits_iff_along {law auxiliary : State → Prop} {guard : State → Input → Prop}
    (exact : ∀ state input, auxiliary state → law state → machine.Admits state input →
      (law (machine.step state input) ↔ guard state input))
    (kept : ∀ state input, auxiliary state → law state → machine.Admits state input →
      guard state input → auxiliary (machine.step state input))
    (initialLaw : law start) (initial : auxiliary start) (run : machine.Run start inputs) :
    machine.Visits law start inputs ↔ machine.Along guard start inputs := by
  induction inputs generalizing start with
  | nil => exact ⟨fun _ => trivial, fun _ => initialLaw⟩
  | cons input rest ih =>
      have here := exact _ _ initial initialLaw run.1
      constructor
      · rintro ⟨_, tail⟩
        have guardHere : guard start input := here.mp tail.first
        have auxiliaryNext := kept _ _ initial initialLaw run.1 guardHere
        exact ⟨guardHere, (ih tail.first auxiliaryNext run.2).mp tail⟩
      · rintro ⟨guardHere, guards⟩
        have lawNext := here.mpr guardHere
        have auxiliaryNext := kept _ _ initial initialLaw run.1 guardHere
        exact ⟨initialLaw, (ih lawNext auxiliaryNext run.2).mpr guards⟩

end InputMachine

end ValkeyLuajit
