import ValkeyLuajit.Engine.Isolation
import ValkeyLuajit.Script.Username

/-!
# Callers without a user

The engine asks for the caller's name before anything else and keeps the user's states under
it; the commands of a script ask again. The server may have no name each time. A script is
followed as it is played, so that only what it comes to counts.
-/

namespace ValkeyLuajit

open Lua

section Scripts

variable (rt : Runtime) (fpconv : Number → Bytes) (lua : State)

/-- A command is called from a script that runs in this state. -/
def commandReport (raiseError : Bool) (heap : Heap) (below arguments : List Value)
    (answer : ServerAnswer) (rctx : FuncCallCtx) (inuse : Nat) : Report NameUse CommandHost Unit :=
  Named.luajitServerGenericCommand rt fpconv answer raiseError
    ⟨arguments.reverse, below, false, { lua with heap := heap }, { rctx := rctx, inuse := inuse }, []⟩

/-- A permission is checked from a script that runs in this state. -/
def checkReport (heap : Heap) (below arguments : List Value) (answer : ServerAnswer)
    (rctx : FuncCallCtx) (inuse : Nat) : Report NameUse CommandHost Unit :=
  Named.luajitRedisAclCheckCmdPermissionsCommand rt fpconv answer
    ⟨arguments.reverse, below, false, { lua with heap := heap }, { rctx := rctx, inuse := inuse }, []⟩

namespace Dialogue

/-- The uses of user names by the functions that the script comes to. -/
def nameUses : Dialogue → FuncCallCtx → Nat → List NameUse
  | .finish _, _, _ => []
  | .step _ rest, rctx, inuse => nameUses rest rctx inuse
  | .tick _ rest, rctx, inuse => nameUses rest rctx inuse
  | .call function heap below arguments answer rest, rctx, inuse =>
      match function.raisesErrors with
      | some raiseError =>
          let report := commandReport rt fpconv lua raiseError heap below arguments answer rctx inuse
          report.notes ++ match handedBack report.outcome with
            | none => []
            | some result => nameUses (rest result report.outcome.world.lua.heap) rctx
                report.outcome.world.host.inuse
      | none =>
          if function = .aclCheckCmd then
            let report := checkReport rt fpconv lua heap below arguments answer rctx inuse
            report.notes ++ match handedBack report.outcome with
              | none => []
              | some _ => nameUses (rest (.ok .nil) heap) rctx inuse
          else
            nameUses (rest (.ok .nil) heap)
              (runCtxAfter rt lua function heap below arguments rctx) inuse

/-- The script comes to a permission check whose arguments convert, and the server has no
user name for it. -/
def ChecksWithoutUser : Dialogue → FuncCallCtx → Nat → Prop
  | .finish _, _, _ => False
  | .step _ rest, rctx, inuse => ChecksWithoutUser rest rctx inuse
  | .tick _ rest, rctx, inuse => ChecksWithoutUser rest rctx inuse
  | .call function heap below arguments answer rest, rctx, inuse =>
      match function.raisesErrors with
      | some raiseError =>
          let outcome := commandOutcome rt fpconv lua raiseError heap below arguments answer rctx
            inuse
          match handedBack outcome with
          | none => False
          | some result => ChecksWithoutUser (rest result outcome.world.lua.heap) rctx
              outcome.world.host.inuse
      | none =>
          if function = .aclCheckCmd then
            (HasRunCtx lua ∧ ArgumentsConvert arguments ∧ answer.hasUsername = false) ∨
              match handedBack
                (checkReport rt fpconv lua heap below arguments answer rctx inuse).outcome with
              | none => False
              | some _ => ChecksWithoutUser (rest (.ok .nil) heap) rctx inuse
          else
            ChecksWithoutUser (rest (.ok .nil) heap)
              (runCtxAfter rt lua function heap below arguments rctx) inuse

end Dialogue

section Uses

variable {rt fpconv lua} {heap : Heap} {below arguments : List Value} {answer : ServerAnswer}
  {rctx : FuncCallCtx} {inuse : Nat}

theorem commandReport_outcome (raiseError : Bool) :
    (commandReport rt fpconv lua raiseError heap below arguments answer rctx inuse).outcome =
      commandOutcome rt fpconv lua raiseError heap below arguments answer rctx inuse :=
  Named.erases_luajitServerGenericCommand raiseError _

theorem commandReport_valid (raiseError : Bool) : ∀ use ∈
    (commandReport rt fpconv lua raiseError heap below arguments answer rctx inuse).notes,
      use.Valid :=
  Named.every_luajitServerGenericCommand raiseError _

theorem checkReport_valid_iff :
    (∀ use ∈ (checkReport rt fpconv lua heap below arguments answer rctx inuse).notes, use.Valid) ↔
      ¬ (HasRunCtx lua ∧ ArgumentsConvert arguments ∧ answer.hasUsername = false) := by
  have fits : ArgumentsConvert arguments.reverse ↔ ArgumentsConvert arguments := by
    simp [ArgumentsConvert]
  refine Named.luajitRedisAclCheckCmdPermissionsCommand_valid_iff.trans ?_
  have same : HasRunCtx { lua with heap := heap } ↔ HasRunCtx lua := Iff.rfl
  rw [same, fits]
  cases answer.hasUsername <;> simp

/-- The names that a script uses are there unless it comes to a check without one. -/
theorem Dialogue.nameUses_valid_iff {dialogue : Dialogue} :
    (∀ use ∈ dialogue.nameUses rt fpconv lua rctx inuse, use.Valid) ↔
      ¬ dialogue.ChecksWithoutUser rt fpconv lua rctx inuse := by
  induction dialogue generalizing rctx inuse with
  | finish outcome => exact iff_of_true (List.forall_mem_nil _) id
  | step heap rest inductionHypothesis => exact inductionHypothesis
  | tick signal rest inductionHypothesis => exact inductionHypothesis
  | call function heap below arguments answer rest inductionHypothesis =>
      unfold nameUses ChecksWithoutUser
      split
      · rename_i raiseError _
        dsimp only
        rw [List.forall_mem_append, commandReport_outcome]
        cases handedBack (commandOutcome rt fpconv lua raiseError heap below arguments answer rctx
            inuse) with
        | none => exact iff_of_true ⟨commandReport_valid raiseError, List.forall_mem_nil _⟩ id
        | some result =>
            exact (and_iff_right (commandReport_valid raiseError)).trans (inductionHypothesis _ _)
      · by_cases check : function = .aclCheckCmd
        · rw [if_pos check, if_pos check, List.forall_mem_append, checkReport_valid_iff, not_or]
          cases handedBack
              (checkReport rt fpconv lua heap below arguments answer rctx inuse).outcome with
          | none => exact and_congr_right' (iff_of_true (List.forall_mem_nil _) id)
          | some result => exact and_congr_right' (inductionHypothesis _ _)
        · rw [if_neg check, if_neg check]
          exact inductionHypothesis _ _

end Uses

end Scripts

/-- The event says that the top-level code of a library was entered. -/
def Event.entersLoad : Event → Bool
  | .entered .library _ _ => true
  | _ => false

/-- What `ValkeyModule_StringPtrLen` gives of a name. Of NULL it gives what the server
chooses. -/
def stringPtrLen (nullText : Bytes) (name : Option Bytes) : Bytes := name.getD nullText

namespace Process

section

variable (rt : Runtime) (fpconv : Number → Bytes) (process : Process) (nullText : Bytes)
  (name : Option Bytes) (handle : Held) (keys args : List Bytes) (conduct : Conduct)

/-- The top-level code of the library runs. -/
def loadRuns (username : Bytes) : Bool :=
  (process.outcome rt fpconv username handle keys args conduct).world.host.trace.any
    Event.entersLoad

/-- The uses of user names in a call: those of `luajitEngineFunctionCall`, which reads the
name for the key of the user's states and frees it, and those of the code it runs. -/
def nameUses : List NameUse :=
  let username := stringPtrLen nullText name
  let lua := process.userLua username handle
  let rctx := newCallCtx process.system.ctx handle.type
  [.read name.isSome, .free name.isSome] ++
    ((if process.loadRuns rt fpconv handle keys args conduct username then
        (conduct.load lua).nameUses rt fpconv lua rctx process.inuse
      else []) ++
      if process.bodyRuns rt fpconv username handle keys args conduct then
        (conduct.body lua).nameUses rt fpconv lua.arm rctx process.inuse
      else [])

/-- No use of a name is one of NULL, and without a name the states that the call works on are
those of none of these users. -/
def KeepsNullApart (users : Bytes → Prop) : Prop :=
  (∀ use ∈ process.nameUses rt fpconv nullText name handle keys args conduct, use.Valid) ∧
    (name = none → ∀ other, users other → cString (stringPtrLen nullText name) ≠ cString other)

/-- The server has a name for the caller, and for every permission check that the code of the
call comes to with arguments that convert. -/
def AlwaysNamed : Prop :=
  let username := stringPtrLen nullText name
  let lua := process.userLua username handle
  let rctx := newCallCtx process.system.ctx handle.type
  name.isSome ∧
    (process.loadRuns rt fpconv handle keys args conduct username →
      ¬ (conduct.load lua).ChecksWithoutUser rt fpconv lua rctx process.inuse) ∧
    (process.bodyRuns rt fpconv username handle keys args conduct →
      ¬ (conduct.body lua).ChecksWithoutUser rt fpconv lua.arm rctx process.inuse)

end

/-- What counts only under a condition. -/
theorem forall_mem_ite {α : Type} {condition : Bool} {members : List α} {kind : α → Prop} :
    (∀ member ∈ (if condition then members else []), kind member) ↔
      (condition = true → ∀ member ∈ members, kind member) := by
  cases condition <;> simp

/-- A call keeps clear of NULL exactly when there is a name each time. -/
theorem keepsNullApart_iff (rt : Runtime) (fpconv : Number → Bytes) (process : Process)
    (nullText : Bytes) (users : Bytes → Prop) (name : Option Bytes) (handle : Held)
    (keys args : List Bytes) (conduct : Conduct) :
    process.KeepsNullApart rt fpconv nullText name handle keys args conduct users ↔
      process.AlwaysNamed rt fpconv nullText name handle keys args conduct := by
  unfold KeepsNullApart AlwaysNamed nameUses
  dsimp only
  rw [List.forall_mem_append, List.forall_mem_append, forall_mem_ite, forall_mem_ite,
    Dialogue.nameUses_valid_iff, Dialogue.nameUses_valid_iff]
  cases name with
  | none => simp [NameUse.Valid]
  | some name => simp [NameUse.Valid]

/-- A call without a name by the client of a context that has no user. -/
theorem null_name_used : ¬ ∀ (rt : Runtime) (fpconv : Number → Bytes) (process : Process)
    (nullText : Bytes) (users : Bytes → Prop) (name : Option Bytes) (handle : Held)
    (keys args : List Bytes) (conduct : Conduct),
      process.KeepsNullApart rt fpconv nullText name handle keys args conduct users := by
  intro holds
  have kept := holds .plain (fun _ => []) (.initial false) [] (fun _ => True) none evalHandle [] []
    pings
  have named := (kept.1 (.read false) List.mem_cons_self)
  cases named

end Process

end ValkeyLuajit
