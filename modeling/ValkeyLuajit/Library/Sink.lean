import Mathlib.Data.List.Basic

/-!
# Writing a text

A sink holds the bytes that were written to it. A writer appends a text to whatever the sink
holds, or the beginning of one, and then ends with an error. Writers are put one after the
other; all of it goes well as long as the sink is not overfull.
-/

namespace ValkeyLuajit

/-- A program that works on a sink, and may end with an error. -/
abbrev Writer (σ ε α : Type) : Type := ExceptT ε (StateM σ) α

namespace Writer

variable {σ ε α β : Type}

/-- A step on the state. A step that fails leaves the state as it was. -/
def step (next : σ → Except ε σ) : Writer σ ε Unit := fun state =>
  match next state with
  | .ok state => (.ok (), state)
  | .error error => (.error error, state)

/-- A step that succeeds gives the state after it. -/
theorem step_ok {next : σ → Except ε σ} {state after : σ} (run : next state = .ok after) :
    step next state = (.ok (), after) := by
  rw [step, run]

/-- The program keeps an invariant of the state, also when it ends with an error. -/
def Keeps (invariant : σ → Prop) (program : Writer σ ε α) : Prop :=
  ∀ state, invariant state → invariant (program state).2

variable {invariant : σ → Prop}

/-- A value that is given keeps the invariant. -/
theorem keeps_pure (value : α) : Keeps invariant (pure value : Writer σ ε α) :=
  fun _ holds => holds

/-- So does what was decided elsewhere. -/
theorem keeps_decided (decided : Except ε α) : Keeps invariant (liftM decided : Writer σ ε α) :=
  fun _ holds => holds

/-- A step keeps the invariant when it does so where it succeeds. -/
theorem keeps_step {next : σ → Except ε σ}
    (kept : ∀ state after, invariant state → next state = .ok after → invariant after) :
    Keeps invariant (step next) := by
  intro state holds
  cases run : next state with
  | ok after =>
      rw [step_ok run]
      exact kept state after holds run
  | error error =>
      rw [step, run]
      exact holds

/-- Looking at the state keeps it. -/
theorem keeps_get : Keeps invariant (get : Writer σ ε σ) := fun _ holds => holds

/-- A change keeps the invariant when the function does. -/
theorem keeps_modify {f : σ → σ} (kept : ∀ state, invariant state → invariant (f state)) :
    Keeps invariant (modify f : Writer σ ε PUnit) := kept

/-- One program after the other. -/
theorem Keeps.bind {first : Writer σ ε α} {next : α → Writer σ ε β} (before : Keeps invariant first)
    (after : ∀ value, Keeps invariant (next value)) : Keeps invariant (first >>= next) := by
  intro state holds
  have middle := before state holds
  change invariant (ExceptT.bindCont next (first state).1 (first state).2).2
  cases ended : (first state).1 with
  | ok value => exact after value _ middle
  | error error => exact middle

end Writer

/-- What is written, and the error that writing ends with. -/
structure Written (ε : Type) where
  text : List UInt8
  stop : Option ε

namespace Written

variable {ε : Type}

/-- A text that is written to its end. -/
def whole (text : List UInt8) : Written ε := ⟨text, none⟩

/-- Nothing is written. -/
def stopped (error : ε) : Written ε := ⟨[], some error⟩

/-- What is written first, and if that comes to its end, what is written then. -/
def followedBy (first second : Written ε) : Written ε :=
  match first.stop with
  | none => ⟨first.text ++ second.text, second.stop⟩
  | some _ => first

/-- What is written once something is decided. -/
def given {α : Type} (decided : Except ε α) (next : α → Written ε) : Written ε :=
  match decided with
  | .ok value => next value
  | .error error => .stopped error

/-- How it ends. -/
def ending (written : Written ε) : Except ε Unit :=
  match written.stop with
  | none => .ok ()
  | some error => .error error

/-- The text, if it came to its end. -/
def result (written : Written ε) : Except ε (List UInt8) :=
  match written.stop with
  | none => .ok written.text
  | some error => .error error

@[simp] theorem whole_followedBy (text : List UInt8) (second : Written ε) :
    (whole text).followedBy second = ⟨text ++ second.text, second.stop⟩ := rfl

@[simp] theorem stopped_followedBy (error : ε) (second : Written ε) :
    (stopped error).followedBy second = stopped error := rfl

@[simp] theorem text_whole (text : List UInt8) : (whole text : Written ε).text = text := rfl

@[simp] theorem stop_whole (text : List UInt8) : (whole text : Written ε).stop = none := rfl

@[simp] theorem stop_stopped (error : ε) : (stopped error).stop = some error := rfl

@[simp] theorem given_ok {α : Type} (value : α) (next : α → Written ε) :
    given (.ok value) next = next value := rfl

@[simp] theorem given_error {α : Type} (error : ε) (next : α → Written ε) :
    given (.error error) next = stopped error := rfl

theorem result_whole (text : List UInt8) : (whole text : Written ε).result = .ok text := rfl

/-- The text of both parts, or the error of the first that has one. -/
theorem result_followedBy (first second : Written ε) : (first.followedBy second).result =
    first.result >>= fun front => second.result.map (front ++ ·) := by
  obtain ⟨front, none | error⟩ := first
  · obtain ⟨back, none | error⟩ := second <;> rfl
  · rfl

/-- A decision's error is the result, or what is written then. -/
theorem result_given {α : Type} (decided : Except ε α) (next : α → Written ε) :
    (given decided next).result = decided >>= fun value => (next value).result := by
  cases decided <;> rfl

/-- What comes first is longer with what follows. -/
theorem length_le_followedBy (first second : Written ε) :
    first.text.length ≤ (first.followedBy second).text.length := by
  obtain ⟨text, stop⟩ := first
  cases stop <;> simp [followedBy]

end Written

/-- What it means for a state to hold a text, and the length no text reaches. -/
structure Sink (σ : Type) where
  Holds : σ → List UInt8 → Prop
  limit : Nat

namespace Sink

variable {σ ε α : Type} (sink : Sink σ)

/-- The program writes this. -/
def Writes (program : Writer σ ε Unit) (written : Written ε) : Prop :=
  ∀ state text, sink.Holds state text → text.length + written.text.length < sink.limit →
    ∃ after, program state = (written.ending, after) ∧ sink.Holds after (text ++ written.text)

variable {sink} {first second : Writer σ ε Unit} {left right : Written ε}

/-- Writing nothing. -/
theorem writes_pure : sink.Writes (pure () : Writer σ ε Unit) (.whole []) := by
  intro state text holds _
  exact ⟨state, rfl, by simpa using holds⟩

/-- An error stops the writing, with nothing written. -/
theorem writes_throw (error : ε) :
    sink.Writes (throw error : Writer σ ε Unit) (.stopped error) := by
  intro state text holds _
  exact ⟨state, rfl, by simpa [Written.stopped] using holds⟩

/-- A decision in front of a program. -/
theorem Writes.given {decided : Except ε α} {next : α → Writer σ ε Unit} {written : α → Written ε}
    (writes : ∀ value, decided = .ok value → sink.Writes (next value) (written value)) :
    sink.Writes ((liftM decided : Writer σ ε α) >>= next) (.given decided written) := by
  cases decided with
  | ok value => exact writes value rfl
  | error error => exact writes_throw error

/-- One program after the other. -/
theorem Writes.followedBy (before : sink.Writes first left) (after : sink.Writes second right) :
    sink.Writes (do first; second) (left.followedBy right) := by
  intro state text holds short
  have less := left.length_le_followedBy right
  obtain ⟨middle, run, here⟩ := before state text holds (by omega)
  obtain ⟨front, stop⟩ := left
  cases stop with
  | none =>
      have lengths : (text ++ front).length + right.text.length < sink.limit := by
        simpa [Written.followedBy, Nat.add_assoc] using short
      obtain ⟨final, rest, there⟩ := after middle (text ++ front) here lengths
      refine ⟨final, ?_, by simpa [Written.followedBy] using there⟩
      change ExceptT.bindCont (fun _ => second) (first state).1 (first state).2 = _
      rw [run]
      exact rest
  | some error =>
      refine ⟨middle, ?_, here⟩
      change ExceptT.bindCont (fun _ => second) (first state).1 (first state).2 = _
      rw [run]
      rfl

/-- A first part that relies on how long the whole is. -/
theorem Writes.startedBy {front : List UInt8} (after : sink.Writes second right)
    (starts : ∀ state text, sink.Holds state text →
      text.length + (front.length + right.text.length) < sink.limit →
        ∃ middle, first state = (.ok (), middle) ∧ sink.Holds middle (text ++ front)) :
    sink.Writes (do first; second) ((Written.whole front).followedBy right) := by
  intro state text holds short
  have lengths : text.length + (front.length + right.text.length) < sink.limit := by
    simpa using short
  obtain ⟨middle, run, here⟩ := starts state text holds lengths
  obtain ⟨final, rest, there⟩ := after middle (text ++ front) here (by
    rw [List.length_append]
    omega)
  refine ⟨final, ?_, by simpa using there⟩
  change ExceptT.bindCont (fun _ => second) (first state).1 (first state).2 = _
  rw [run]
  exact rest

/-- Writing to a sink that holds nothing. -/
theorem Writes.run (writes : sink.Writes first left) {state : σ} (empty : sink.Holds state [])
    (short : left.text.length < sink.limit) :
    ∃ after, first state = (left.ending, after) ∧ sink.Holds after left.text :=
  writes state [] empty (by simpa using short)

end Sink

end ValkeyLuajit
