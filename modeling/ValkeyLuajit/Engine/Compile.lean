import Mathlib.Algebra.Order.Ring.Int
import ValkeyLuajit.Engine.State

/-!
# Compiling code

An EVAL script is compiled to check its syntax and kept as text. A function
library is run once in a scratch state, entered into the dictionary under a new
id, and answered by its functions.
-/

namespace ValkeyLuajit

open Lua

/-- The `int` a `size_t` is stored as. -/
def sizeToInt (size : Nat) : Int := Int.bmod size (2 ^ 32)

/-- Give out the next function ids in order. -/
def assignFuncIds : Nat → List CompiledFunction → List CompiledFunction
  | _, [] => []
  | nextFuncId, compiled :: rest =>
      { compiled with function := { compiled.function with funcId := nextFuncId + 1 } } ::
        assignFuncIds (nextFuncId + 1) rest

/-- Store the library's id in a function. -/
def assignLibId (libId : Nat) (compiled : CompiledFunction) : CompiledFunction :=
  match compiled.function.data with
  | .source _ => compiled
  | .functionRef name _ =>
      { compiled with function := { compiled.function with data := .functionRef name libId } }

/-- The decimal digits of a library's id, as `%lu` prints it. -/
def decimal (number : Nat) : Bytes := bytes (toString number)

/-- What compiling EVAL code gives. -/
def compileEval (rt : Runtime) (code : Bytes) : Except Bytes (List CompiledFunction) :=
  match rt.syntaxError code with
  | some message => .error (bytes "Error compiling script (new function): " ++ cString message)
  | none => .ok [⟨none, none, ⟨.source code, 0⟩, 0⟩]

/-- Enter a library into the dictionary. An id that is taken keeps its entry. -/
def addLibrary (ctx : EngineCtx) (code : Bytes) (numFunctions : Nat) : EngineCtx :=
  let libId := ctx.nextLibId + 1
  { ctx with
    nextLibId := libId
    libraries := ctx.libraries.insertNew libId
      ⟨code, libId, bytes "lib_" ++ decimal libId, sizeToInt numFunctions⟩ }

/-- Give the functions their ids. -/
def nameFunctions (ctx : EngineCtx) (functions : List CompiledFunction) :
    EngineCtx × Except Bytes (List CompiledFunction) :=
  ({ ctx with nextFuncId := ctx.nextFuncId + functions.length },
    .ok (assignFuncIds ctx.nextFuncId functions))

/-- `luajitEngineCompileCode`. There is no answer when the process aborts. -/
def luajitEngineCompileCode (rt : Runtime) (ctx : EngineCtx) (type : SubsystemType) (code : Bytes)
    (fuel : Nat) (topLevel : ScriptRun) :
    Option (EngineCtx × Except Bytes (List CompiledFunction)) :=
  if type = .eval then
    match compileEval rt code with
    | .error message => some (ctx, .error message)
    | .ok functions => some (nameFunctions ctx functions)
  else
    match luajitFunctionLibraryCreate rt fuel code topLevel scratchState with
    | .done (.error message) _ => some (ctx, .error message)
    | .done (.ok functions) _ =>
        some (nameFunctions (addLibrary ctx code functions.length)
          (functions.map (assignLibId (ctx.nextLibId + 1))))
    | _ => none

@[simp] theorem assignFuncIds_length (nextFuncId : Nat) (functions : List CompiledFunction) :
    (assignFuncIds nextFuncId functions).length = functions.length := by
  induction functions generalizing nextFuncId with
  | nil => rfl
  | cons compiled rest ih => simp [assignFuncIds, ih]

/-- Function ids are given out consecutively. -/
theorem assignFuncIds_ids (nextFuncId : Nat) (functions : List CompiledFunction) :
    (assignFuncIds nextFuncId functions).map (fun compiled => compiled.function.funcId) =
      List.range' (nextFuncId + 1) functions.length := by
  induction functions generalizing nextFuncId with
  | nil => rfl
  | cons compiled rest ih => simp [assignFuncIds, ih, List.range'_succ]

/-- Numbering the functions leaves everything else about them alone. -/
theorem assignFuncIds_map {α : Type} {part : CompiledFunction → α}
    (unnumbered : ∀ (compiled : CompiledFunction) (funcId : Nat),
      part { compiled with function := { compiled.function with funcId := funcId } } =
        part compiled) (nextFuncId : Nat) (functions : List CompiledFunction) :
    (assignFuncIds nextFuncId functions).map part = functions.map part := by
  induction functions generalizing nextFuncId with
  | nil => rfl
  | cons compiled rest ih => rw [assignFuncIds, List.map_cons, List.map_cons, unnumbered, ih]

/-- What they refer to, for one. -/
theorem assignFuncIds_data (nextFuncId : Nat) (functions : List CompiledFunction) :
    (assignFuncIds nextFuncId functions).map (fun compiled => compiled.function.data) =
      functions.map fun compiled => compiled.function.data :=
  assignFuncIds_map (fun _ _ => rfl) nextFuncId functions

/-- The ids of a numbered list are its own length long. -/
theorem assignFuncIds_range (nextFuncId : Nat) (functions : List CompiledFunction) :
    (assignFuncIds nextFuncId functions).map (fun compiled => compiled.function.funcId) =
      List.range' (nextFuncId + 1) (assignFuncIds nextFuncId functions).length := by
  rw [assignFuncIds_length, assignFuncIds_ids]

/-- The functions of a library refer to a library. -/
theorem luajitFunctionLibraryCreate_refs {rt : Runtime} {fuel : Nat} {code : Bytes}
    {topLevel : ScriptRun} {functions : List CompiledFunction} {world final : World LoadHost}
    (created : luajitFunctionLibraryCreate rt fuel code topLevel world =
      .done (.ok functions) final) :
    ∀ compiled ∈ functions, ∃ name, compiled.function.data = .functionRef name 0 := by
  have refs (pending : List PendingFunc) : ∀ compiled ∈ pending.map compilePending,
      ∃ name, compiled.function.data = .functionRef name 0 := by
    intro compiled member
    obtain ⟨pf, -, rfl⟩ := List.mem_map.mp member
    exact ⟨_, rfl⟩
  simp only [luajitFunctionLibraryCreate, LuaM.bind_apply, Outcome.andThen_eq_done] at created
  obtain ⟨rejected, mid, -, created⟩ := created
  cases rejected with
  | true => simp at created
  | false =>
      simp only [Bool.false_eq_true, if_false, LuaM.bind_apply, Outcome.andThen_eq_done] at created
      obtain ⟨_, _, -, _, _, -, raised, _, -, result, _, collected, created⟩ := created
      obtain ⟨_, _, -, _, _, -, created⟩ := created
      cases created
      cases raised with
      | true => simp [collectFunctions, loadedFunctions, Outcome.andThen_eq_done] at collected
      | false =>
          simp [collectFunctions, loadedFunctions] at collected
          obtain ⟨rfl, -⟩ := collected
          exact refs _

/-- How many functions a library registers when it is loaded, if the load succeeds. -/
def registeredCount (rt : Runtime) (fuel : Nat) (code : Bytes) (topLevel : ScriptRun) :
    Option Nat :=
  match luajitFunctionLibraryCreate rt fuel code topLevel scratchState with
  | .done (.ok functions) _ => some functions.length
  | _ => none

/-- A library that registers its functions is compiled. -/
theorem luajitEngineCompileCode_registered {rt : Runtime} (ctx : EngineCtx) {type : SubsystemType}
    {code : Bytes} {fuel : Nat} {topLevel : ScriptRun} {count : Nat} (library : type ≠ .eval)
    (registered : registeredCount rt fuel code topLevel = some count) :
    ∃ after functions, luajitEngineCompileCode rt ctx type code fuel topLevel =
      some (after, .ok functions) := by
  unfold registeredCount at registered
  split at registered
  · rename_i functions final created
    exact ⟨_, _, by simp only [luajitEngineCompileCode, if_neg library, created]; rfl⟩
  · simp at registered

/-- A compilation that fails changes nothing. -/
theorem luajitEngineCompileCode_error {rt : Runtime} {ctx after : EngineCtx}
    {type : SubsystemType} {code : Bytes} {fuel : Nat} {topLevel : ScriptRun} {message : Bytes}
    (run : luajitEngineCompileCode rt ctx type code fuel topLevel = some (after, .error message)) :
    after = ctx := by
  unfold luajitEngineCompileCode nameFunctions at run
  split at run
  · split at run
    · simp at run
      exact run.1.symm
    · simp at run
  · split at run
    · simp at run
      exact run.1.symm
    · simp at run
    · simp at run

/-- What a compilation that succeeds has done. -/
theorem luajitEngineCompileCode_ok {rt : Runtime} {ctx after : EngineCtx} {type : SubsystemType}
    {code : Bytes} {fuel : Nat} {topLevel : ScriptRun} {functions : List CompiledFunction}
    (run : luajitEngineCompileCode rt ctx type code fuel topLevel = some (after, .ok functions)) :
    functions.map (fun compiled => compiled.function.funcId) =
        List.range' (ctx.nextFuncId + 1) functions.length ∧
      (type = .eval ∧ functions.map (fun compiled => compiled.function.data) = [.source code] ∧
          after = { ctx with nextFuncId := ctx.nextFuncId + functions.length } ∨
        type ≠ .eval ∧ registeredCount rt fuel code topLevel = some functions.length ∧
          (∀ compiled ∈ functions, ∃ name,
            compiled.function.data = .functionRef name (ctx.nextLibId + 1)) ∧
          after = { addLibrary ctx code functions.length with
            nextFuncId := ctx.nextFuncId + functions.length }) := by
  unfold luajitEngineCompileCode at run
  by_cases eval : type = .eval
  · cases compiled : compileEval rt code with
    | error message => simp [eval, compiled] at run
    | ok texts =>
        simp [eval, compiled, nameFunctions] at run
        obtain ⟨rfl, rfl⟩ := run
        unfold compileEval at compiled
        split at compiled
        · simp at compiled
        · cases compiled
          exact ⟨assignFuncIds_range _ _, .inl ⟨eval, assignFuncIds_data _ _, rfl⟩⟩
  · simp only [if_neg eval] at run
    split at run
    · simp at run
    · rename_i library final created
      simp [nameFunctions] at run
      obtain ⟨rfl, rfl⟩ := run
      refine ⟨assignFuncIds_range _ _, .inr ⟨eval, by simp [registeredCount, created], ?_,
        by simp [addLibrary]⟩⟩
      intro compiled member
      have data := List.mem_map_of_mem
        (f := fun compiled : CompiledFunction => compiled.function.data) member
      rw [assignFuncIds_data] at data
      simp only [List.map_map, List.mem_map, Function.comp_apply] at data
      obtain ⟨origin, inLibrary, same⟩ := data
      obtain ⟨name, reference⟩ := luajitFunctionLibraryCreate_refs created origin inLibrary
      exact ⟨name, by rw [← same]; simp [assignLibId, reference]⟩
    · simp at run

end ValkeyLuajit
