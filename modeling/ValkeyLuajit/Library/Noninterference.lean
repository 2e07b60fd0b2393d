import ValkeyLuajit.Library.InputMachine

/-!
# Runs that differ in what does not count

Some inputs of a machine count for an observer and the others should not matter to
him. An unwinding relation says when two states are alike to the observer: inputs
that count are answered alike and lead to states that are alike, the others lead
from a state to one that is alike. Two runs with the same inputs that count then
show him the same.
-/

namespace ValkeyLuajit

universe u v w

namespace InputMachine

variable {State : Type u} {Input : Type v} {Seen : Type w}

/-- What is seen at the inputs that count, in order. -/
def seen (machine : InputMachine State Input) (counts : Input → Bool)
    (observe : State → Input → Seen) (start : State) : List Input → List Seen
  | [] => []
  | input :: rest =>
      if counts input then
        observe start input :: seen machine counts observe (machine.step start input) rest
      else seen machine counts observe (machine.step start input) rest

/-- A record beside the machine shows nothing. -/
theorem seen_recorded {Record : Type v} {machine : InputMachine State Input}
    {note : State → Input → Record → Record} {counts : Input → Bool}
    {observe : State → Input → Seen} {start : State} {record : Record} {inputs : List Input} :
    (machine.recorded note).seen counts (fun both input => observe both.1 input) (start, record)
        inputs =
      machine.seen counts observe start inputs := by
  induction inputs generalizing start record with
  | nil => rfl
  | cons input rest inductionHypothesis =>
      unfold seen
      split
      · exact congrArg _ inductionHypothesis
      · exact inductionHypothesis

/-- Where the guard holds, states that are alike stay so and look the same. -/
structure Unwinding (machine : InputMachine State Input) (counts : Input → Bool)
    (observe : State → Input → Seen) (guard : State → Input → Prop)
    (alike : State → State → Prop) : Prop where
  symm : ∀ {left right}, alike left right → alike right left
  counted : ∀ {left right input}, alike left right → counts input →
    guard left input → guard right input →
      observe left input = observe right input ∧
        alike (machine.step left input) (machine.step right input)
  uncounted : ∀ {left right input}, alike left right → counts input = false →
    guard left input → alike (machine.step left input) right

namespace Unwinding

variable {machine : InputMachine State Input} {counts : Input → Bool}
  {observe : State → Input → Seen} {guard : State → Input → Prop} {alike : State → State → Prop}

/-- A run without inputs that count leads to a state that is alike, and shows nothing. -/
theorem idle (unwinding : machine.Unwinding counts observe guard alike) {left right : State}
    {inputs : List Input} (start : alike left right) (guarded : machine.Along guard right inputs)
    (none : inputs.filter counts = []) :
    machine.seen counts observe right inputs = [] ∧ alike left (machine.after right inputs) := by
  induction inputs generalizing right with
  | nil => exact ⟨rfl, start⟩
  | cons input rest inductionHypothesis =>
      have skipped : counts input = false := by
        cases counted : counts input with
        | false => rfl
        | true => simp [counted] at none
      rw [List.filter_cons_of_neg (by simp [skipped])] at none
      have next : alike left (machine.step right input) :=
        unwinding.symm (unwinding.uncounted (unwinding.symm start) skipped guarded.1)
      have later := inductionHypothesis next guarded.2 none
      exact ⟨by rw [seen, if_neg (by simp [skipped]), later.1], later.2⟩

/-- Two runs from states that are alike, with the same inputs that count, show the same
and end in states that are alike. -/
theorem seen_eq (unwinding : machine.Unwinding counts observe guard alike) {left right : State}
    {first second : List Input} (start : alike left right)
    (leftGuarded : machine.Along guard left first) (rightGuarded : machine.Along guard right second)
    (same : first.filter counts = second.filter counts) :
    machine.seen counts observe left first = machine.seen counts observe right second ∧
      alike (machine.after left first) (machine.after right second) := by
  induction first generalizing left right second with
  | nil =>
      have idle := unwinding.idle start rightGuarded same.symm
      exact ⟨idle.1.symm, idle.2⟩
  | cons input rest inductionHypothesis =>
      cases counted : counts input with
      | false =>
          rw [List.filter_cons_of_neg (by simp [counted])] at same
          have next := unwinding.uncounted start counted leftGuarded.1
          have later := inductionHypothesis next leftGuarded.2 rightGuarded same
          exact ⟨by rw [seen, if_neg (by simp [counted]), later.1], later.2⟩
      | true =>
          -- The other run first takes some inputs that do not count.
          rw [List.filter_cons_of_pos counted] at same
          induction second generalizing right with
          | nil => cases same
          | cons other others skip =>
              cases here : counts other with
              | false =>
                  rw [List.filter_cons_of_neg (by simp [here])] at same
                  have next := unwinding.uncounted (unwinding.symm start) here rightGuarded.1
                  have later := skip (unwinding.symm next) rightGuarded.2 same
                  refine ⟨later.1.trans ?_, later.2⟩
                  rw [seen, if_neg (by simp [here])]
              | true =>
                  rw [List.filter_cons_of_pos here] at same
                  obtain ⟨rfl, tails⟩ := List.cons.inj same
                  have step := unwinding.counted start counted leftGuarded.1 rightGuarded.1
                  have later := inductionHypothesis step.2 leftGuarded.2 rightGuarded.2 tails
                  refine ⟨?_, later.2⟩
                  rw [seen, if_pos counted, seen, if_pos counted, step.1, later.1]

end Unwinding

end InputMachine

end ValkeyLuajit
