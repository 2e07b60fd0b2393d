import ValkeyLuajit.Function.Load
import ValkeyLuajit.Library.Noninterference
import ValkeyLuajit.Script.Random

/-!
# Random numbers of several users

Every user's states have the same two functions under `math`, and these share one
generator. What a user draws is his own affair only as long as nobody else touches
the generator between his seeding it and his drawing from it.
-/

namespace ValkeyLuajit

open Lua

/-- The functions that reach the generator. -/
inductive MathFunction where
  | random | randomseed
deriving DecidableEq

/-- The function of the module behind it. -/
def MathFunction.native (rt : Runtime) : MathFunction → LuaM Generator Unit
  | .random => serverMathRandom rt
  | .randomseed => serverMathRandomseed rt

/-- A script of a user calls one of them. -/
structure MathCall where
  username : Bytes
  function : MathFunction
  arguments : List Value
deriving DecidableEq

section

variable (rt : Runtime) (states : Bytes → State)

/-- The call runs in a Lua state of its user, on the generator of the process. -/
def MathCall.outcome (generator : Generator) (call : MathCall) : Outcome Generator Unit :=
  call.function.native rt ⟨call.arguments.reverse, [], false, states call.username, generator, []⟩

/-- What the script gets: a value, nil from `math.randomseed`, or an error. -/
def MathCall.result (generator : Generator) (call : MathCall) : Except Value Value :=
  match call.outcome rt states generator with
  | .done _ final => .ok (final.get (-1))
  | .raised error _ => .error error
  | .aborted _ _ => .error .nil

/-- The generator under the calls of all users. -/
def generatorMachine : InputMachine Generator MathCall where
  Admits := fun _ _ => True
  step := fun generator call => (call.outcome rt states generator).world.host

/-- What the calls of one user yield from the start of the process on. -/
def drawnBy (user : Bytes) (calls : List MathCall) : List (Except Value Value) :=
  (generatorMachine rt states).seen (·.username = user) (fun generator call =>
    call.result rt states generator) Rand.initial calls

/-- The first argument of `math.randomseed` is a number. -/
def MathCall.seeds (call : MathCall) : Bool :=
  call.function = .randomseed && (call.arguments.head?.bind (Value.toNumber rt)).isSome

/-- The call draws from the generator or seeds it. -/
def MathCall.touches (call : MathCall) : Bool := call.function = .random || call.seeds rt

/-- Whether somebody else has touched the generator since the user last seeded it. -/
def MathCall.disturbs (user : Bytes) (call : MathCall) (disturbed : Bool) : Bool :=
  if call.username = user then disturbed && !call.seeds rt else disturbed || call.touches rt

/-- The user never draws from a generator that somebody else has touched since the user
last seeded it. -/
def Undisturbed (user : Bytes) : Bool → List MathCall → Prop
  | _, [] => True
  | disturbed, call :: rest =>
      (call.username = user → call.function = .random → disturbed = false) ∧
        Undisturbed user (call.disturbs rt user disturbed) rest

instance decidableUndisturbed (user : Bytes) (disturbed : Bool) :
    (calls : List MathCall) → Decidable (Undisturbed rt user disturbed calls)
  | [] => .isTrue trivial
  | call :: rest =>
      have := decidableUndisturbed user (call.disturbs rt user disturbed) rest
      inferInstanceAs (Decidable ((call.username = user → call.function = .random →
        disturbed = false) ∧ Undisturbed rt user (call.disturbs rt user disturbed) rest))

end

section

variable {rt : Runtime} {states : Bytes → State} {user : Bytes}

variable (rt states) in
/-- A seed that is a number replaces the generator whatever it was; any other argument
raises and leaves it. -/
theorem MathCall.randomseed_cases (call : MathCall) (seeding : call.function = .randomseed) :
    (∃ seedval result, call.seeds rt ∧ ∀ generator, call.result rt states generator = result ∧
        (call.outcome rt states generator).world.host = Rand.serverSrand48 seedval) ∨
      ∃ result, call.seeds rt = false ∧ ∀ generator, call.result rt states generator = result ∧
        (call.outcome rt states generator).world.host = generator := by
  rcases @luaLCheckInt_one_cases rt Generator "randomseed" call.arguments [] false with
    ⟨number, text, reads⟩ | ⟨error, text, raises⟩
  · have ends (generator : Generator) : call.outcome rt states generator =
        .done () ⟨call.arguments.reverse, [], false, states call.username,
          Rand.serverSrand48 (toInt32 number.toLongLong), []⟩ := by
      simp [outcome, seeding, MathFunction.native, serverMathRandomseed, reads, setGenerator]
    refine .inl ⟨toInt32 number.toLongLong, .ok ((call.arguments.reverse ++ []).getD 0 .nil),
      by simp [seeds, seeding, text], fun generator => ?_⟩
    rw [result, ends]
    exact ⟨rfl, rfl⟩
  · have ends (generator : Generator) : call.outcome rt states generator =
        .raised error ⟨call.arguments.reverse, [], false, states call.username, generator, []⟩ := by
      simp [outcome, seeding, MathFunction.native, serverMathRandomseed, raises]
    refine .inr ⟨.error error, by simp [seeds, seeding, text], fun generator => ?_⟩
    rw [result, ends]
    exact ⟨rfl, rfl⟩

/-- A call that does not touch the generator leaves it as it is. -/
theorem MathCall.outcome_untouched {call : MathCall} (untouched : call.touches rt = false)
    (generator : Generator) : (call.outcome rt states generator).world.host = generator := by
  have parts := Bool.or_eq_false_iff.mp untouched
  have seeding : call.function = .randomseed := by
    cases function : call.function with
    | random => simp [function] at parts
    | randomseed => rfl
  rcases call.randomseed_cases rt states seeding with
    ⟨_, _, seeds, -⟩ | ⟨_, -, same⟩
  · rw [seeds] at parts
    cases parts.2
  · exact (same generator).2

variable (rt states user) in
/-- Two generators are alike to a user when they are equal, or one of them was touched by
somebody else since he last seeded it. -/
theorem streams_unwinding :
    ((generatorMachine rt states).recorded fun _ call => call.disturbs rt user).Unwinding
      (·.username = user) (fun both call => call.result rt states both.1)
      (fun both call => call.username = user → call.function = .random → both.2 = false)
      (fun left right => left.2 = false → right.2 = false → left.1 = right.1) where
  symm := fun same right left => (same left right).symm
  counted := by
    rintro ⟨left, leftDisturbed⟩ ⟨right, rightDisturbed⟩ call same counts leftGuard rightGuard
    have own : call.username = user := by simpa using counts
    simp only [InputMachine.recorded, generatorMachine, MathCall.disturbs, if_pos own]
    cases drawing : call.function with
    | random =>
        have equal : left = right := same (leftGuard own drawing) (rightGuard own drawing)
        rw [equal]
        exact ⟨rfl, fun _ _ => rfl⟩
    | randomseed =>
        rcases call.randomseed_cases rt states drawing with
          ⟨seedval, result, -, seeded⟩ | ⟨result, unseeded, kept⟩
        · refine ⟨(seeded left).1.trans (seeded right).1.symm, fun _ _ => ?_⟩
          exact (seeded left).2.trans (seeded right).2.symm
        · refine ⟨(kept left).1.trans (kept right).1.symm, fun leftClean rightClean => ?_⟩
          simp only [unseeded, Bool.not_false, Bool.and_true] at leftClean rightClean
          exact (kept left).2.trans ((same leftClean rightClean).trans (kept right).2.symm)
  uncounted := by
    rintro ⟨left, leftDisturbed⟩ ⟨right, rightDisturbed⟩ call same skipped -
    have other : call.username ≠ user := by simpa using skipped
    simp only [InputMachine.recorded, generatorMachine, MathCall.disturbs, if_neg other]
    intro clean rightClean
    obtain ⟨leftClean, untouched⟩ := Bool.or_eq_false_iff.mp clean
    rw [MathCall.outcome_untouched untouched]
    exact same leftClean rightClean

/-- Being undisturbed is a matter of each call where it is made. -/
theorem Undisturbed.along {disturbed : Bool} {calls : List MathCall} {generator : Generator}
    (undisturbed : Undisturbed rt user disturbed calls) :
    ((generatorMachine rt states).recorded fun _ call => call.disturbs rt user).Along
      (fun both call => call.username = user → call.function = .random → both.2 = false)
      (generator, disturbed) calls := by
  induction calls generalizing disturbed generator with
  | nil => trivial
  | cons call rest inductionHypothesis => exact ⟨undisturbed.1, inductionHypothesis undisturbed.2⟩

end

/-- What a user draws depends on his own calls alone, in runs in which he never draws from
a generator that somebody else has touched since he last seeded it. -/
theorem random_streams_isolated (rt : Runtime) (states : Bytes → State) (user : Bytes)
    {first second : List MathCall}
    (firstUndisturbed : Undisturbed rt user false first)
    (secondUndisturbed : Undisturbed rt user false second)
    (same : first.filter (·.username = user) = second.filter (·.username = user)) :
    drawnBy rt states user first = drawnBy rt states user second := by
  have unwound := (streams_unwinding rt states user).seen_eq
    (fun _ _ => rfl : (fun left right : Generator × Bool =>
      left.2 = false → right.2 = false → left.1 = right.1) (Rand.initial, false) (Rand.initial, false))
    firstUndisturbed.along secondUndisturbed.along same
  rw [InputMachine.seen_recorded, InputMachine.seen_recorded] at unwound
  exact unwound.1

/-- One user seeds the generator that another then draws from. -/
def seedThenDraw : List MathCall :=
  [⟨bytes "alice", .randomseed, [.number (.finite 1)]⟩, ⟨bytes "bob", .random, []⟩]

/-- What a user draws changes when another user seeds. -/
theorem draws_depend_on_other_users :
    ¬ ∀ (rt : Runtime) (states : Bytes → State) (user : Bytes) (first second : List MathCall),
      first.filter (·.username = user) = second.filter (·.username = user) →
        drawnBy rt states user first = drawnBy rt states user second := by
  intro isolated
  have same := isolated .plain (fun _ => luaLNewstate) (bytes "bob") seedThenDraw
    [⟨bytes "bob", .random, []⟩] (by decide)
  revert same
  decide +kernel

/-- Seeding first makes the draws of other users harmless. -/
theorem seeded_streams_isolated :
    let own : List MathCall :=
      [⟨bytes "bob", .randomseed, [.number (.finite 7)]⟩, ⟨bytes "bob", .random, []⟩]
    drawnBy .plain (fun _ => luaLNewstate) (bytes "bob") (seedThenDraw.take 1 ++ own) =
      drawnBy .plain (fun _ => luaLNewstate) (bytes "bob") own := by
  intro own
  exact random_streams_isolated .plain (fun _ => luaLNewstate) (bytes "bob") (by decide)
    (by decide) (by decide)

end ValkeyLuajit
