import ValkeyLuajit.Engine.Construction
import ValkeyLuajit.Engine.Environment
import ValkeyLuajit.Library.InputMachine

/-!
# Installing new states

`getOrCreateUserState` and a reset make the users' states one after the other. An error that
a construction raises is caught by nothing and ends the process. Every state that is
installed is noted, with what its construction did below the bottom of its stack.
-/

namespace ValkeyLuajit

open Lua Recorded Construction

/-- A state that was installed, as it was then. -/
structure Installation where
  username : Bytes
  type : SubsystemType
  made : World SetupHost
  underflows : List Underflow

/-- The stack is empty, and nothing below its bottom was read or popped. -/
def Installation.Clean (installation : Installation) : Prop :=
  stackHeight installation.made = 0 ∧ installation.underflows = []

/-- The engine and the states it has installed. -/
structure Installer where
  ctx : EngineCtx
  installed : List Installation
  crashed : Bool

/-- The calls that make states, with what each construction meets. -/
inductive StateCall where
  | getOrCreateUserState (username : Bytes) (eval function : Surroundings)
  | resetEnv (type : SubsystemType) (async insecure : Bool) (each : Bytes → Surroundings)

namespace Installer

/-- Nothing is installed yet. -/
def begin (ctx : EngineCtx) : Installer := ⟨ctx, [], false⟩

def AllClean (installer : Installer) : Prop :=
  ∀ installation ∈ installer.installed, installation.Clean

/-- Each state that was installed is clean unless it is one for EVAL. -/
def CleanBesidesEval (installer : Installer) : Prop :=
  ∀ installation ∈ installer.installed, installation.Clean ↔ installation.type ≠ .eval

section Steps

variable (rt : Runtime) (ctx : EngineCtx)

/-- A state of a user, unless an error ends the process. -/
def makeState (type : SubsystemType) (username : Bytes) (surroundings : Surroundings) :
    Option Installation :=
  let report := Construction.createUserLuaState rt surroundings ctx type (newState surroundings)
  match report.outcome with
  | .done _ final => some ⟨username, type, final, report.notes⟩
  | .raised _ _ => none
  | .aborted _ _ => none

/-- The loop of a reset: the states it installs, and whether it comes to its end. -/
def renewStates (type : SubsystemType) (each : Bytes → Surroundings) :
    List Bytes → List Installation × Bool
  | [] => ([], true)
  | username :: rest =>
      match makeState rt ctx type username (each username) with
      | none => ([], false)
      | some installation =>
          let later := renewStates type each rest
          (installation :: later.1, later.2)

/-- The states that a call installs, and whether the process survives it. A user gets none
before both are made. -/
def installs : StateCall → List Installation × Bool
  | .getOrCreateUserState username eval function =>
      if cString username ∈ ctx.userStates then ([], true)
      else
        match makeState rt ctx .eval (cString username) eval,
            makeState rt ctx .function (cString username) function with
        | some evalLua, some functionLua => ([evalLua, functionLua], true)
        | _, _ => ([], false)
  | .resetEnv type _ _ each =>
      if type = .all then ([], true) else renewStates rt ctx type each ctx.userStates.keys

/-- The engine after a call. -/
def contextAfter : StateCall → EngineCtx
  | .getOrCreateUserState username _ _ => ValkeyLuajit.getOrCreateUserState ctx username
  | .resetEnv type async insecure _ => (luajitEngineResetEnv ctx type async insecure).ctx

/-- The calls one after the other, as long as the process is there. -/
def machine : InputMachine Installer StateCall where
  Admits := fun installer _ => installer.crashed = false
  step := fun installer call =>
    let made := installs rt installer.ctx call
    ⟨contextAfter installer.ctx call, installer.installed ++ made.1, !made.2⟩

end Steps

/-- The call makes no state for EVAL: the user has states, or there is no state for EVAL to
renew. -/
def MakesNoEval (installer : Installer) : StateCall → Prop
  | .getOrCreateUserState username _ _ => cString username ∈ installer.ctx.userStates
  | .resetEnv type _ _ _ => type = .eval → installer.ctx.userStates.keys = []

section Clean

variable {rt : Runtime} {ctx : EngineCtx} {type : SubsystemType} {username : Bytes}
  {surroundings : Surroundings} {installation : Installation}

theorem makeState_type (made : makeState rt ctx type username surroundings = some installation) :
    installation.type = type := by
  unfold makeState at made
  dsimp only at made
  split at made
  · cases made
    rfl
  · cases made
  · cases made

/-- The states for EVAL are the unclean ones. -/
theorem makeState_clean_iff
    (made : makeState rt ctx type username surroundings = some installation) :
    installation.Clean ↔ installation.type ≠ .eval := by
  rw [makeState_type made]
  unfold makeState at made
  dsimp only at made
  split at made
  · rename_i final ended
    cases made
    by_cases isEval : type = .eval
    · subst isEval
      obtain ⟨noted, -, -⟩ := createUserLuaState_sinks rfl ended
      refine iff_of_false (fun clean => ?_) (fun other => other rfl)
      exact List.ne_nil_of_mem noted clean.2
    · obtain ⟨quiet, ends⟩ :=
        balanced_createUserLuaState rt surroundings ctx isEval (newState surroundings) rfl
      obtain ⟨height, base, -⟩ := ends _ final ended
      refine iff_of_true ⟨?_, quiet⟩ isEval
      rw [stackHeight, World.stack, List.length_append, height, base]
      rfl
  · cases made
  · cases made

/-- A construction that ends normally gives a state. -/
theorem makeState_eq_some (username : Bytes)
    (ends : ∃ final, (Construction.createUserLuaState rt surroundings ctx type
      (newState surroundings)).outcome = .done () final) :
    ∃ installation, makeState rt ctx type username surroundings = some installation := by
  obtain ⟨final, ended⟩ := ends
  unfold makeState
  simp only [ended]
  exact ⟨_, rfl⟩

/-- Everything that a reset installs is of its type. -/
theorem renewStates_clean_iff {each : Bytes → Surroundings} {users : List Bytes}
    (installed : installation ∈ (renewStates rt ctx type each users).1) :
    installation.type = type ∧ (installation.Clean ↔ installation.type ≠ .eval) := by
  induction users with
  | nil => cases installed
  | cons username rest inductionHypothesis =>
      rw [renewStates] at installed
      split at installed
      · cases installed
      · rename_i first made
        rcases List.mem_cons.mp installed with rfl | later
        · exact ⟨makeState_type made, makeState_clean_iff made⟩
        · exact inductionHypothesis later

theorem renewStates_ne_nil {each : Bytes → Surroundings} {rest : List Bytes}
    (ends : ∃ final, (Construction.createUserLuaState rt (each username) ctx type
      (newState (each username))).outcome = .done () final) :
    (renewStates rt ctx type each (username :: rest)).1 ≠ [] := by
  obtain ⟨installation, made⟩ := makeState_eq_some username ends
  rw [renewStates, made]
  exact List.cons_ne_nil _ _

/-- A reset that comes to its end installs a state for the first user. -/
theorem renewStates_cons {each : Bytes → Surroundings} {rest : List Bytes}
    (whole : (renewStates rt ctx type each (username :: rest)).2 = true) :
    ∃ installation ∈ (renewStates rt ctx type each (username :: rest)).1,
      installation.type = type := by
  rw [renewStates] at whole ⊢
  split at whole
  · cases whole
  · rename_i first made
    exact ⟨first, List.mem_cons_self, makeState_type made⟩

variable {call : StateCall}

theorem installs_clean_iff (installed : installation ∈ (installs rt ctx call).1) :
    installation.Clean ↔ installation.type ≠ .eval := by
  cases call with
  | getOrCreateUserState username eval function =>
      rw [installs] at installed
      split at installed
      · cases installed
      · split at installed
        · rename_i evalLua functionLua madeEval madeFunction
          rcases List.mem_pair.mp installed with rfl | rfl
          · exact makeState_clean_iff madeEval
          · exact makeState_clean_iff madeFunction
        · cases installed
  | resetEnv type async insecure each =>
      rw [installs] at installed
      split at installed
      · cases installed
      · exact (renewStates_clean_iff installed).2

variable {installer : Installer}

/-- The condition on a call says that it installs no state for EVAL. -/
theorem MakesNoEval.other (guarded : installer.MakesNoEval call)
    (installed : installation ∈ (installs rt installer.ctx call).1) : installation.type ≠ .eval := by
  cases call with
  | getOrCreateUserState username eval function =>
      have found : cString username ∈ installer.ctx.userStates := guarded
      rw [installs, if_pos found] at installed
      cases installed
  | resetEnv type async insecure each =>
      rw [installs] at installed
      split at installed
      · cases installed
      · rw [(renewStates_clean_iff installed).1]
        intro isEval
        rw [guarded isEval] at installed
        cases installed

/-- Otherwise it installs one, if the process survives it. -/
theorem installs_eval (unguarded : ¬ installer.MakesNoEval call)
    (survives : (installs rt installer.ctx call).2 = true) :
    ∃ installation ∈ (installs rt installer.ctx call).1, installation.type = .eval := by
  cases call with
  | getOrCreateUserState username eval function =>
      have absent : cString username ∉ installer.ctx.userStates := unguarded
      rw [installs, if_neg absent] at survives ⊢
      split at survives
      · rename_i evalLua functionLua madeEval madeFunction
        exact ⟨evalLua, List.mem_cons_self, makeState_type madeEval⟩
      · cases survives
  | resetEnv type async insecure each =>
      obtain ⟨rfl, users⟩ := Classical.not_imp.mp unguarded
      obtain ⟨username, rest, shape⟩ := List.exists_cons_of_ne_nil users
      have apart : SubsystemType.eval ≠ .all := SubsystemType.noConfusion
      rw [installs, if_neg apart, shape] at survives ⊢
      exact renewStates_cons survives

end Clean

section Runs

variable {rt : Runtime} {ctx : EngineCtx} {installer : Installer} {call : StateCall}
  {calls : List StateCall}

/-- A call that makes no state for EVAL installs clean states only. -/
theorem AllClean.step (clean : installer.AllClean) (guarded : installer.MakesNoEval call) :
    ((machine rt).step installer call).AllClean := by
  intro installation installed
  rcases List.mem_append.mp installed with before | now
  · exact clean installation before
  · exact (installs_clean_iff now).mpr (guarded.other now)

/-- A call that leaves the states clean and the process alive makes no state for EVAL. -/
theorem AllClean.guarded (clean : ((machine rt).step installer call).AllClean)
    (survives : ((machine rt).step installer call).crashed = false) :
    installer.MakesNoEval call := by
  by_contra unguarded
  have alive : (installs rt installer.ctx call).2 = true := by simpa [machine] using survives
  obtain ⟨installation, installed, isEval⟩ := installs_eval unguarded alive
  exact (installs_clean_iff installed).mp (clean installation (List.mem_append_right _ installed))
    isEval

/-- A run that the process survives begins with a call that it survives. -/
theorem survives_first (run : (machine rt).Run installer (call :: calls))
    (survives : ((machine rt).after installer (call :: calls)).crashed = false) :
    ((machine rt).step installer call).crashed = false := by
  cases calls with
  | nil => exact survives
  | cons next rest => exact run.2.1

/-- Where the process survives, a run that leaves all states clean makes none for EVAL. -/
theorem along_of_visits (run : (machine rt).Run installer calls)
    (survives : ((machine rt).after installer calls).crashed = false)
    (visits : (machine rt).Visits AllClean installer calls) :
    (machine rt).Along MakesNoEval installer calls := by
  induction calls generalizing installer with
  | nil => trivial
  | cons call rest inductionHypothesis =>
      exact ⟨AllClean.guarded visits.2.first (survives_first run survives),
        inductionHypothesis run.2 survives visits.2⟩

/-- Whatever the calls are, the states that are unclean are those for EVAL. -/
theorem cleanBesidesEval_throughout (run : (machine rt).Run (begin ctx) calls) :
    (machine rt).Visits CleanBesidesEval (begin ctx) calls := by
  have nothing : (begin ctx).CleanBesidesEval := List.forall_mem_nil _
  refine InputMachine.Run.visits (fun installer call clean _ _ => ?_) nothing run run
  intro installation installed
  rcases List.mem_append.mp installed with before | now
  · exact clean installation before
  · exact installs_clean_iff now

/-- A run installs clean states throughout if none of its calls makes a state for EVAL, and
only then if the process survives it. In every run the states of the function subsystem are
clean. -/
theorem new_states_clean_iff (rt : Runtime) (ctx : EngineCtx) (calls : List StateCall)
    (run : (machine rt).Run (begin ctx) calls) :
    ((machine rt).Along MakesNoEval (begin ctx) calls →
        (machine rt).Visits AllClean (begin ctx) calls) ∧
      (((machine rt).after (begin ctx) calls).crashed = false →
        (machine rt).Visits AllClean (begin ctx) calls →
          (machine rt).Along MakesNoEval (begin ctx) calls) ∧
      (machine rt).Visits CleanBesidesEval (begin ctx) calls := by
  refine ⟨fun guarded => ?_, along_of_visits run, cleanBesidesEval_throughout run⟩
  have nothing : (begin ctx).AllClean := List.forall_mem_nil _
  exact InputMachine.Run.visits (fun _ _ clean _ guard => AllClean.step clean guard) nothing run
    guarded

/-- An opener that leaves an empty table in a global. -/
def openTable (name : String) (lua : State) : Except Value (List Value) × State :=
  let library := .table lua.heap.next
  let heap := lua.heap.alloc .empty
  let globals := (heap.cells lua.globals).rawSet (.string (bytes name)) library
  (.ok [library], { lua with heap := heap.write lua.globals globals })

/-- Nothing fails here. -/
def quietSurroundings : Surroundings where
  bottom := .nil
  opens := fun luafunc lua =>
    if luafunc = "luaopen_os" then openTable "os" lua
    else if luafunc = "luaopen_math" then openTable "math" lua
    else (.ok [.nil], lua)
  rejects := fun _ => none
  runs := fun
    | .wrapLoad, lua => (.ok ⟨[], rfl⟩, lua)
    | .errorHandler, lua => (.ok ⟨[errorHandler], rfl⟩, lua)
    | .ffiCdef, lua => (.ok ⟨[.string []], rfl⟩, lua)
    | .ffiApi, lua => (.ok ⟨[.nil], rfl⟩, lua)
  dliFname := none
  version := ⟨[], 0, [], [], 0⟩

/-- One call can always be taken. -/
theorem run_one (rt : Runtime) (ctx : EngineCtx) (call : StateCall) :
    (machine rt).Run (begin ctx) [call] := ⟨rfl, trivial⟩

/-- The construction reads one field of the engine. -/
theorem createUserLuaState_congr (rt : Runtime) {left right : EngineCtx}
    (same : left.enableFfiApi = right.enableFfiApi) (surroundings : Surroundings)
    (type : SubsystemType) :
    Construction.createUserLuaState rt surroundings left type =
      Construction.createUserLuaState rt surroundings right type := by
  unfold Construction.createUserLuaState finishUserLuaState
  rw [same]

set_option maxRecDepth 10000 in
/-- There the construction without the FFI ends normally. -/
theorem quiet_value (type : SubsystemType) : (Construction.createUserLuaState .plain
    quietSurroundings (createEngineContext false) type (newState quietSurroundings)).outcome.value =
      some () := by
  cases type <;> decide +kernel

theorem quiet_ends (ctx : EngineCtx) (off : ctx.enableFfiApi = false) (type : SubsystemType) :
    ∃ final, (Construction.createUserLuaState .plain quietSurroundings ctx type
      (newState quietSurroundings)).outcome = .done () final := by
  have blank : ctx.enableFfiApi = (createEngineContext false).enableFfiApi := off
  have same := createUserLuaState_congr .plain blank quietSurroundings type
  exact ⟨_, (congrArg Report.outcome (congrFun same _)).trans (Outcome.eq_done (quiet_value type))⟩

/-- The function state of a user is renewed. -/
theorem new_states_clean_renewed :
    let ctx := ValkeyLuajit.getOrCreateUserState (createEngineContext false) []
    let call := StateCall.resetEnv .function false false fun _ => quietSurroundings
    (installs .plain ctx call).1 ≠ [] ∧ (machine .plain).Visits AllClean (begin ctx) [call] := by
  intro ctx call
  constructor
  · have users : ctx.userStates.keys = [cString []] := rfl
    have apart : SubsystemType.function ≠ .all := SubsystemType.noConfusion
    rw [installs, if_neg apart, users]
    exact renewStates_ne_nil (quiet_ends ctx rfl .function)
  · apply (new_states_clean_iff .plain ctx [call] (run_one .plain ctx call)).1
    exact ⟨fun isEval => SubsystemType.noConfusion isEval, trivial⟩

/-- The first call by a user installs a state for EVAL. -/
theorem new_eval_state_unclean : ¬ ∀ (rt : Runtime) (ctx : EngineCtx) (calls : List StateCall),
    (machine rt).Run (begin ctx) calls → (machine rt).Visits AllClean (begin ctx) calls := by
  intro holds
  have clean := (holds .plain (createEngineContext false)
    [.getOrCreateUserState [] quietSurroundings quietSurroundings] (run_one _ _ _)).last
  have absent : cString [] ∉ (createEngineContext false).userStates := AList.notMem_empty _
  have ends := quiet_ends (createEngineContext false) rfl
  obtain ⟨evalLua, madeEval⟩ := makeState_eq_some (cString []) (ends .eval)
  obtain ⟨functionLua, madeFunction⟩ := makeState_eq_some (cString []) (ends .function)
  have installed : evalLua ∈ (installs .plain (createEngineContext false)
      (.getOrCreateUserState [] quietSurroundings quietSurroundings)).1 := by
    rw [installs, if_neg absent, madeEval, madeFunction]
    exact List.mem_cons_self
  have unclean := (makeState_clean_iff madeEval).not.mpr (not_not.mpr (makeState_type madeEval))
  exact unclean (clean evalLua (List.mem_append_right _ installed))

end Runs

end Installer

end ValkeyLuajit
