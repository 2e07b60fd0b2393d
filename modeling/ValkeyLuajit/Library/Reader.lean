import Mathlib.Data.List.Basic

/-!
# Reading a stream of bytes

A reader takes bytes from the front of its input, or says that the input is too short, or that
no input that starts like this can be read. A reader is stable when it decides on the bytes it
takes alone. Stable readers are closed under sequencing, and a cut in what one of them takes
is always noticed: the input is too short.
-/

namespace ValkeyLuajit

/-- What reading comes to. -/
inductive Reading (ε α : Type) where
  | done (value : α) (rest : List UInt8)
  | short
  | failed (error : ε)

/-- A way to read a value. -/
def Reader (ε α : Type) : Type := List UInt8 → Reading ε α

namespace Reader

variable {ε α β : Type}

/-- What is read after a value. -/
def andThen (reading : Reading ε α) (next : α → Reader ε β) : Reading ε β :=
  match reading with
  | .done value rest => next value rest
  | .short => .short
  | .failed error => .failed error

/-- After a value comes the next reader, on the rest. -/
@[simp] theorem andThen_done (value : α) (rest : List UInt8) (next : α → Reader ε β) :
    andThen (.done value rest) next = next value rest := rfl

/-- A short input stays short. -/
@[simp] theorem andThen_short (next : α → Reader ε β) :
    andThen (.short : Reading ε α) next = .short := rfl

/-- The first error is the last. -/
@[simp] theorem andThen_failed (error : ε) (next : α → Reader ε β) :
    andThen (.failed error : Reading ε α) next = .failed error := rfl

instance : Monad (Reader ε) where
  pure value := fun input => .done value input
  bind first next := fun input => andThen (first input) next

/-- A value that is given takes nothing. -/
@[simp] theorem pure_apply (value : α) (input : List UInt8) :
    (pure value : Reader ε α) input = .done value input := rfl

/-- Sequencing goes on with the outcome of the first reader. -/
@[simp] theorem bind_apply (first : Reader ε α) (next : α → Reader ε β) (input : List UInt8) :
    (first >>= next) input = andThen (first input) next := rfl

/-- One after the other, whichever two come first. -/
theorem andThen_andThen {γ : Type} (reading : Reading ε α) (next : α → Reader ε β)
    (further : β → Reader ε γ) : andThen (andThen reading next) further =
      andThen reading fun value => next value >>= further := by
  cases reading <;> rfl

/-- Read nothing, ever. -/
def fail (error : ε) : Reader ε α := fun _ => .failed error

/-- Read a byte. -/
def byte : Reader ε UInt8 := fun
  | [] => .short
  | byte :: rest => .done byte rest

/-- Read so many bytes. -/
def take (count : Nat) : Reader ε (List UInt8) := fun input =>
  if input.length < count then .short else .done (input.take count) (input.drop count)

/-- Read so many values, one after the other. -/
def repeated (reader : Reader ε α) : Nat → Reader ε (List α)
  | 0 => pure []
  | count + 1 => do
      let value ← reader
      let values ← repeated reader count
      pure (value :: values)

/-- Failing ignores the input. -/
@[simp] theorem fail_apply (error : ε) (input : List UInt8) :
    (fail error : Reader ε α) input = .failed error := rfl

/-- There is no byte in nothing. -/
@[simp] theorem byte_nil : (byte : Reader ε UInt8) [] = .short := rfl

/-- The byte read is the first. -/
@[simp] theorem byte_cons (first : UInt8) (rest : List UInt8) :
    (byte : Reader ε UInt8) (first :: rest) = .done first rest := rfl

/-- Bytes that stand in front are taken as they are. -/
@[simp] theorem take_append (bytes rest : List UInt8) :
    (take bytes.length : Reader ε (List UInt8)) (bytes ++ rest) = .done bytes rest := by
  simp [take]

/-- Texts that are read back one after the other. -/
theorem repeated_flatMap {reader : Reader ε α} (write : α → List UInt8) {values : List α}
    (each : ∀ value ∈ values, ∀ rest, reader (write value ++ rest) = .done value rest)
    (rest : List UInt8) :
    reader.repeated values.length (values.flatMap write ++ rest) = .done values rest := by
  induction values with
  | nil => rfl
  | cons value values inductionHypothesis =>
      have first := each value List.mem_cons_self (values.flatMap write ++ rest)
      have others := inductionHypothesis fun value member => each value (List.mem_cons_of_mem _ member)
      rw [List.length_cons, repeated, List.flatMap_cons, List.append_assoc, bind_apply, first,
        andThen_done, bind_apply, others]
      rfl

/-- The reader decides on the bytes that it takes. -/
structure Stable (reader : Reader ε α) : Prop where
  done : ∀ {input value rest}, reader input = .done value rest →
    ∃ used, input = used ++ rest ∧ ∀ more, reader (used ++ more) = .done value more
  failed : ∀ {input error}, reader input = .failed error →
    ∀ more, reader (input ++ more) = .failed error

/-- What takes nothing decides on nothing. -/
theorem stable_pure (value : α) : Stable (pure value : Reader ε α) where
  done := by
    intro input result rest read
    rw [pure_apply] at read
    cases read
    exact ⟨[], rfl, fun _ => rfl⟩
  failed := by
    intro input error read
    cases read

/-- An error that always comes, comes with more input too. -/
theorem stable_fail (error : ε) : Stable (fail error : Reader ε α) where
  done := by
    intro input value rest read
    cases read
  failed := by
    intro input other read more
    cases read
    rfl

/-- A byte is there or not, whatever follows. -/
theorem stable_byte : Stable (byte : Reader ε UInt8) where
  done := by
    intro input value rest read
    cases input with
    | nil => cases read
    | cons first others =>
        cases read
        exact ⟨[value], rfl, fun more => rfl⟩
  failed := by
    intro input error read
    cases input <;> cases read

/-- So are bytes, once there are enough of them. -/
theorem stable_take (count : Nat) : Stable (take count : Reader ε (List UInt8)) where
  done := by
    intro input value rest read
    unfold take at read
    split at read
    · cases read
    · cases read
      refine ⟨input.take count, (List.take_append_drop ..).symm, fun more => ?_⟩
      have length : (input.take count).length = count := by
        rw [List.length_take]
        omega
      have taken := take_append (ε := ε) (input.take count) more
      rwa [length] at taken
  failed := by
    intro input error read
    unfold take at read
    split at read <;> cases read

/-- Sequencing keeps a reader stable. -/
theorem Stable.bind {first : Reader ε α} {next : α → Reader ε β} (stable : Stable first)
    (each : ∀ value, Stable (next value)) : Stable (first >>= next) where
  done := by
    intro input value rest read
    rw [bind_apply] at read
    cases started : first input with
    | done middle between =>
        rw [started, andThen_done] at read
        obtain ⟨left, rfl, before⟩ := stable.done started
        obtain ⟨right, rfl, after⟩ := (each middle).done read
        refine ⟨left ++ right, (List.append_assoc ..).symm, fun more => ?_⟩
        rw [bind_apply, List.append_assoc, before, andThen_done, after]
    | short =>
        rw [started] at read
        cases read
    | failed error =>
        rw [started] at read
        cases read
  failed := by
    intro input error read more
    rw [bind_apply] at read ⊢
    cases started : first input with
    | done middle between =>
        rw [started, andThen_done] at read
        obtain ⟨left, rfl, before⟩ := stable.done started
        rw [List.append_assoc, before, andThen_done]
        exact (each middle).failed read more
    | short =>
        rw [started] at read
        cases read
    | failed other =>
        rw [started, andThen_failed] at read
        cases read
        rw [stable.failed started more]
        rfl

/-- A property that every reader has that is made of bytes, texts and good errors. -/
structure Closed (good : ε → Prop) (property : ∀ {α : Type}, Reader ε α → Prop) : Prop where
  pure : ∀ {α : Type} (value : α), property (pure value)
  fail : ∀ {α : Type} (error : ε), good error → property (fail error : Reader ε α)
  byte : property byte
  take : ∀ count, property (take count)
  bind : ∀ {α β : Type} {first : Reader ε α} {next : α → Reader ε β}, property first →
    (∀ value, property (next value)) → property (first >>= next)

/-- Repetition is sequencing, so that the property holds of it. -/
theorem Closed.repeated {good : ε → Prop} {property : ∀ {α : Type}, Reader ε α → Prop}
    (closed : Closed good property) {reader : Reader ε α} (has : property reader) (count : Nat) :
    property (reader.repeated count) := by
  induction count with
  | zero => exact closed.pure []
  | succ count inductionHypothesis =>
      exact closed.bind has fun value => closed.bind inductionHypothesis fun values => closed.pure _

/-- Readers are stable when they are made of stable parts. -/
theorem closed_stable : Closed (fun _ : ε => True) Stable where
  pure := stable_pure
  fail error _ := stable_fail error
  byte := stable_byte
  take := stable_take
  bind := Stable.bind

/-- Whatever is cut off the end of what a stable reader takes, it misses it. -/
theorem Stable.short_of_cut {reader : Reader ε α} (stable : Stable reader)
    {front back : List UInt8} {value : α} (whole : reader (front ++ back) = .done value [])
    (cut : back ≠ []) : reader front = .short := by
  cases read : reader front with
  | short => rfl
  | failed error =>
      rw [stable.failed read back] at whole
      cases whole
  | done other rest =>
      obtain ⟨used, rfl, further⟩ := stable.done read
      rw [List.append_assoc, further] at whole
      injection whole with _ nothing
      exact absurd (List.append_eq_nil_iff.mp nothing).2 cut

end Reader

end ValkeyLuajit
