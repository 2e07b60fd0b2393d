import ValkeyLuajit.Script.Execution
import ValkeyLuajit.Script.Residue

/-!
# Scripts that react

What a script does next depends on what its last call of a command gave, and that
depends on the static flag all states share. A dialogue is a script with this choice
left open: everything else it depends on, its state and what the server answers, is
settled when it starts. Playing a dialogue settles the rest and leaves the flag to
whoever comes next.
-/

namespace ValkeyLuajit

open Lua

/-- A script that ends, whatever its commands give. -/
inductive Dialogue where
  | finish (outcome : Except Value Value)
  /-- Lua code runs and leaves this heap. -/
  | step (heap : Heap) (rest : Dialogue)
  /-- The hook's interval passes. -/
  | tick (signal : Bool) (rest : Dialogue)
  /-- A function of the module is called with this heap and these slots below its frame.
  The answer is the server's, should it be asked; what the function gives and the heap it
  leaves decide how the script goes on. -/
  | call (function : ServerFunction) (heap : Heap) (below arguments : List Value)
      (answer : ServerAnswer) (rest : Except Value Value → Heap → Dialogue)

/-- The functions that call a command, and whether they raise its errors. -/
def ServerFunction.raisesErrors : ServerFunction → Option Bool
  | .call => some true
  | .pcall => some false
  | _ => none

/-- What playing a dialogue comes to: what the script does, the flag it leaves, and whether
the process is gone. -/
structure Played where
  run : ScriptRun
  inuse : Nat
  aborted : Bool

/-- The same after some actions. -/
def Played.after (actions : List Action) (played : Played) : Played :=
  { played with run := { played.run with actions := actions ++ played.run.actions } }

section

variable (rt : Runtime) (fpconv : Number → Bytes) (lua : State)

/-- A command is called from a script that runs in this state. -/
def commandOutcome (raiseError : Bool) (heap : Heap) (below arguments : List Value)
    (answer : ServerAnswer) (rctx : FuncCallCtx) (inuse : Nat) : Outcome CommandHost Unit :=
  luajitServerGenericCommand rt fpconv answer raiseError
    ⟨arguments.reverse, below, false, { lua with heap := heap }, { rctx := rctx, inuse := inuse }, []⟩

/-- The record behind the run context after another function was called. -/
def runCtxAfter (function : ServerFunction) (heap : Heap) (below arguments : List Value)
    (rctx : FuncCallCtx) : FuncCallCtx :=
  (userNative rt .body function
    ⟨arguments.reverse, below, false, { lua with heap := heap }, ⟨some rctx, []⟩, []⟩
      ).world.host.callCtx.getD rctx

/-- What a function that returned or raised hands to its caller. -/
def handedBack : Outcome CommandHost Unit → Option (Except Value Value)
  | .done _ final => some (.ok (final.get (-1)))
  | .raised error _ => some (.error error)
  | .aborted _ _ => none

namespace Dialogue

/-- Play a dialogue: what other functions than those that call a command give is settled,
and nil stands for it. -/
def play : Dialogue → FuncCallCtx → Nat → Played
  | .finish outcome, _, inuse => ⟨⟨[], outcome⟩, inuse, false⟩
  | .step heap rest, rctx, inuse => (play rest rctx inuse).after [.step heap]
  | .tick signal rest, rctx, inuse => (play rest rctx inuse).after [.tick signal]
  | .call function heap below arguments answer rest, rctx, inuse =>
      match function.raisesErrors with
      | none =>
          (play (rest (.ok .nil) heap) (runCtxAfter rt lua function heap below arguments rctx)
            inuse).after [.step heap, .call function arguments]
      | some raiseError =>
          let outcome := commandOutcome rt fpconv lua raiseError heap below arguments answer rctx
            inuse
          match handedBack outcome with
          | none => ⟨⟨[.step heap, .call function arguments], .ok .nil⟩, inuse, true⟩
          | some result =>
              (play (rest result outcome.world.lua.heap) rctx outcome.world.host.inuse).after
                [.step heap, .call function arguments, .step outcome.world.lua.heap]

/-- One of the commands the script calls meets a null that becomes a key, with the flag
clear until then. -/
def MeetsNullKey : Dialogue → FuncCallCtx → Nat → Prop
  | .finish _, _, _ => False
  | .step _ rest, rctx, inuse => MeetsNullKey rest rctx inuse
  | .tick _ rest, rctx, inuse => MeetsNullKey rest rctx inuse
  | .call function heap below arguments answer rest, rctx, inuse =>
      match function.raisesErrors with
      | none =>
          MeetsNullKey (rest (.ok .nil) heap) (runCtxAfter rt lua function heap below arguments rctx)
            inuse
      | some raiseError =>
          let outcome := commandOutcome rt fpconv lua raiseError heap below arguments answer rctx
            inuse
          match handedBack outcome with
          | none => False
          | some result =>
              (HasRunCtx lua ∧ ArgumentsConvert arguments ∧ inuse = 0 ∧
                answer.MeetsNullKey rctx.resp) ∨
              MeetsNullKey (rest result outcome.world.lua.heap) rctx inuse

end Dialogue

end

section Flag

variable {rt : Runtime} {fpconv : Number → Bytes} {lua : State}

/-- A command that comes back has left the flag as it was, unless it met a null that became
a key. -/
theorem commandOutcome_inuse {raiseError : Bool} {heap : Heap} {below arguments : List Value}
    {answer : ServerAnswer} {rctx : FuncCallCtx} {inuse : Nat} {result : Except Value Value}
    (comesBack : handedBack (commandOutcome rt fpconv lua raiseError heap below arguments answer
      rctx inuse) = some result) :
    (HasRunCtx lua ∧ ArgumentsConvert arguments ∧ inuse = 0 ∧
        answer.MeetsNullKey rctx.resp ∧
        (commandOutcome rt fpconv lua raiseError heap below arguments answer rctx
          inuse).world.host.inuse = 1) ∨
      ¬ (HasRunCtx lua ∧ ArgumentsConvert arguments ∧ inuse = 0 ∧
        answer.MeetsNullKey rctx.resp) ∧
        (commandOutcome rt fpconv lua raiseError heap below arguments answer rctx
          inuse).world.host.inuse = inuse := by
  have fits : ArgumentsConvert arguments.reverse ↔ ArgumentsConvert arguments := by
    simp [ArgumentsConvert]
  unfold commandOutcome at comesBack ⊢
  by_cases live : HasRunCtx lua
  · by_cases converts : ArgumentsConvert arguments
    · by_cases clear : inuse = 0
      · obtain ⟨asked, set, -, -, -, ends⟩ := @luajitServerGenericCommand_asks rt fpconv answer
          arguments.reverse below false { lua with heap := heap } { rctx := rctx, inuse := inuse } []
          live (fits.mpr converts) clear
        rw [ends] at comesBack ⊢
        rcases finishCommand_cases rt below false { lua with heap := heap } asked [] answer rctx.resp 0
          with ⟨met, raised⟩ | ⟨unmet, aborted | ⟨value, final, settled, -, -, ended⟩⟩
        · obtain ⟨error, final, run, same⟩ := raised raiseError
          refine .inl ⟨live, converts, clear, met, ?_⟩
          rw [run]
          exact (congrArg CommandHost.inuse same).trans set
        · obtain ⟨reason, final, run⟩ := aborted raiseError
          rw [run] at comesBack
          cases comesBack
        · refine .inr ⟨fun meets => unmet meets.2.2.2, ?_⟩
          have left : final.host.inuse = inuse := by
            rw [settled, CommandHost.settle, set, clear]
          rw [ended]
          split <;> exact left
      · obtain ⟨final, same, -, run⟩ := @luajitServerGenericCommand_recursive rt fpconv answer
          arguments.reverse below false { lua with heap := heap } { rctx := rctx, inuse := inuse } []
          live (fits.mpr converts) clear
        refine .inr ⟨fun meets => clear meets.2.2.1, ?_⟩
        rw [run]
        exact congrArg CommandHost.inuse same
    · obtain ⟨final, tidy, -, run⟩ := @luajitServerGenericCommand_unfit rt fpconv answer
        arguments.reverse below false { lua with heap := heap } { rctx := rctx, inuse := inuse } []
        live (mt fits.mp converts)
      refine .inr ⟨fun meets => converts meets.2.1, ?_⟩
      rw [run]
      split <;> exact tidy.inuse
  · obtain ⟨reason, final, run⟩ := @luajitServerGenericCommand_dead rt fpconv answer
      ⟨arguments.reverse, below, false, { lua with heap := heap }, { rctx := rctx, inuse := inuse }, []⟩
      live raiseError
    rw [run] at comesBack
    cases comesBack

namespace Dialogue

variable {rctx : FuncCallCtx} {inuse : Nat}

/-- Once the flag is set it stays set. -/
theorem play_inuse_of_busy {dialogue : Dialogue} (busy : inuse ≠ 0) :
    (dialogue.play rt fpconv lua rctx inuse).inuse = inuse := by
  induction dialogue generalizing rctx with
  | finish outcome => rfl
  | step heap rest inductionHypothesis => exact inductionHypothesis
  | tick signal rest inductionHypothesis => exact inductionHypothesis
  | call function heap below arguments answer rest inductionHypothesis =>
      unfold play
      split
      · exact inductionHypothesis _ _
      · rename_i raiseError _
        dsimp only
        split
        · rfl
        · rename_i result comesBack
          rcases commandOutcome_inuse comesBack with ⟨-, -, clear, -⟩ | ⟨-, kept⟩
          · exact absurd clear busy
          · rw [kept]
            exact inductionHypothesis _ _

/-- A dialogue leaves the flag as it was exactly when none of its commands meets a null that
becomes a key. -/
theorem play_inuse_iff {dialogue : Dialogue} :
    (dialogue.play rt fpconv lua rctx inuse).inuse = inuse ↔
      ¬ dialogue.MeetsNullKey rt fpconv lua rctx inuse := by
  induction dialogue generalizing rctx with
  | finish outcome => exact iff_of_true rfl id
  | step heap rest inductionHypothesis => exact inductionHypothesis
  | tick signal rest inductionHypothesis => exact inductionHypothesis
  | call function heap below arguments answer rest inductionHypothesis =>
      unfold play MeetsNullKey
      split
      · exact inductionHypothesis _ _
      · rename_i raiseError _
        dsimp only
        split
        · exact iff_of_true rfl id
        · rename_i result comesBack
          rcases commandOutcome_inuse comesBack with
            ⟨live, converts, clear, meets, set⟩ | ⟨unmet, kept⟩
          · refine iff_of_false ?_ (not_not_intro (.inl ⟨live, converts, clear, meets⟩))
            have stays : (play rt fpconv lua (rest result (commandOutcome rt fpconv lua raiseError
                heap below arguments answer rctx inuse).world.lua.heap) rctx 1).inuse = 1 :=
              play_inuse_of_busy Nat.one_ne_zero
            rw [set]
            simp only [Played.after]
            omega
          · rw [kept]
            apply (inductionHypothesis _ _).trans
            rw [not_or]
            exact ⟨fun rest => ⟨unmet, rest⟩, fun both => both.2⟩

end Dialogue

end Flag

end ValkeyLuajit
