import ValkeyLuajit.Engine.EvalLaw
import ValkeyLuajit.Function.Registrations

/-!
# What a load gives the server

A library that loads comes back as one compiled function for each registration it
made, under ids that were never given out. A record beside the engine remembers
the ids that were.
-/

namespace ValkeyLuajit

open Lua

/-- The ids given out: those of functions, and those of libraries since the last reset
of the libraries. -/
structure IdRecord where
  funcIds : List Nat
  libIds : List Nat

/-- The strings a compiled function owns. -/
def CompiledFunction.strings (compiled : CompiledFunction) : List Nat :=
  (compiled.name.map ModuleString.id).toList ++ (compiled.desc.map ModuleString.id).toList

/-- What a load that succeeds should give: a function for each registration, in order and
with what the registration asked for; one new library with the source as its code that
they all refer to; new consecutive ids; and every string of a registration owned by one of
the functions, and by one only. -/
structure Faithful (rt : Runtime) (fuel : Nat) (code : Bytes) (topLevel : ScriptRun)
    (record : IdRecord) (after : EngineCtx) (functions : List CompiledFunction) : Prop where
  carried : List.Forall₂ (fun call compiled =>
      call.Asks (compiled.name.map ModuleString.text) (compiled.desc.map ModuleString.text)
        compiled.flags)
    (acceptedCalls rt fuel topLevel.actions scratchStart) functions
  library : ∃ libId, (∀ given ∈ record.libIds, given < libId) ∧
    (∀ compiled ∈ functions, compiled.function.data =
      .functionRef (cString ((compiled.name.map ModuleString.text).getD [])) libId) ∧
    (after.libraries.lookup libId).map LuajitLibrary.code = some code
  funcIds : ∃ first, (∀ given ∈ record.funcIds, given < first) ∧
    functions.map (fun compiled => compiled.function.funcId) = List.range' first functions.length
  owned : ∀ call ∈ acceptedCalls rt fuel topLevel.actions scratchStart,
    ∀ object ∈ call.strings, (functions.flatMap CompiledFunction.strings).count object = 1 ∧
      object ∉ ((scratchSetting rt fuel).run topLevel scratchStart).world.host.freed

/-- A load succeeds when its source compiles and its top-level code returns. -/
theorem luajitFunctionLibraryCreate_ok {rt : Runtime} {fuel : Nat} {code : Bytes}
    {topLevel : ScriptRun} {functions : List CompiledFunction} {final : World LoadHost}
    (created : luajitFunctionLibraryCreate rt fuel code topLevel scratchState =
      .done (.ok functions) final) :
    rt.syntaxError code = none ∧ ∃ results last,
      (scratchSetting rt fuel).run topLevel scratchStart = .done results last ∧
        functions = last.host.functions.map compilePending := by
  cases syntaxError : rt.syntaxError code with
  | some message =>
      simp [luajitFunctionLibraryCreate, luaLLoadbuffer, syntaxError, scratchState] at created
  | none =>
      rw [luajitFunctionLibraryCreate_accepted syntaxError] at created
      refine ⟨rfl, ?_⟩
      cases ended : (scratchSetting rt fuel).run topLevel scratchStart with
      | done results last =>
          rw [ended] at created
          simp [collectFunctions, loadedFunctions, luajitSaveOnRegistry, scratchEnd] at created
          exact ⟨results, last, rfl, created.1.symm⟩
      | raised error last =>
          rw [ended, Outcome.andThen_eq_done] at created
          obtain ⟨result, mid, collected, created⟩ := created
          simp [collectFunctions, loadedFunctions, Outcome.andThen_eq_done] at collected
          obtain ⟨info, world, -, message, -, -, -, rfl, -⟩ := collected
          simp [luajitSaveOnRegistry] at created
      | aborted reason last => simp [ended] at created

/-- What the compiled functions of a load are: the pending ones, referring to the new
library. -/
def loadedFunction (libId : Nat) (pf : PendingFunc) : CompiledFunction :=
  assignLibId libId (compilePending pf)

/-- What a load that succeeds comes to. -/
theorem luajitEngineCompileCode_loaded {rt : Runtime} {ctx after : EngineCtx} {type : SubsystemType}
    {code : Bytes} {fuel : Nat} {topLevel : ScriptRun} {functions : List CompiledFunction}
    (library : type ≠ .eval)
    (run : luajitEngineCompileCode rt ctx type code fuel topLevel = some (after, .ok functions)) :
    rt.syntaxError code = none ∧ ∃ results last,
      (scratchSetting rt fuel).run topLevel scratchStart = .done results last ∧
      functions = assignFuncIds ctx.nextFuncId
        (last.host.functions.map (loadedFunction (ctx.nextLibId + 1))) ∧
      after.libraries = (addLibrary ctx code functions.length).libraries := by
  rw [luajitEngineCompileCode, if_neg library] at run
  split at run
  · simp at run
  · rename_i created
    obtain ⟨accepted, results, last, ended, rfl⟩ := luajitFunctionLibraryCreate_ok created
    simp only [nameFunctions, Option.some.injEq, Prod.mk.injEq, Except.ok.injEq] at run
    obtain ⟨rfl, rfl⟩ := run
    refine ⟨accepted, results, last, ended, ?_, ?_⟩
    · rw [List.map_map]
      rfl
    · simp
  · simp at run

/-- A source that compiles and whose top-level code returns is loaded. -/
theorem luajitEngineCompileCode_returned {rt : Runtime} {ctx : EngineCtx} {type : SubsystemType}
    {code : Bytes} {fuel : Nat} {topLevel : ScriptRun} (library : type ≠ .eval)
    (accepted : rt.syntaxError code = none)
    (returned : ((scratchSetting rt fuel).run topLevel scratchStart).IsDone) :
    ∃ after functions, luajitEngineCompileCode rt ctx type code fuel topLevel =
      some (after, .ok functions) := by
  cases ended : (scratchSetting rt fuel).run topLevel scratchStart with
  | done results last =>
      have created : luajitFunctionLibraryCreate rt fuel code topLevel scratchState = _ :=
        luajitFunctionLibraryCreate_accepted accepted
      simp [ended, collectFunctions, loadedFunctions, luajitSaveOnRegistry, scratchEnd] at created
      exact ⟨_, _, by simp only [luajitEngineCompileCode, if_neg library, created]; rfl⟩
  | raised error last =>
      rw [ended] at returned
      exact returned.elim
  | aborted reason last =>
      rw [ended] at returned
      exact returned.elim

/-- Every string that belongs to a function of the load belongs to one, and once. -/
theorem count_strings {host : LoadHost} (sound : host.Sound) {object : Nat} :
    (host.functions.flatMap PendingFunc.strings).count object = 1 ∧ object ∉ host.freed ↔
      object ∈ host.functions.flatMap PendingFunc.strings := by
  have kept : (host.functions.flatMap PendingFunc.strings).Sublist
      (host.functions.flatMap PendingFunc.objects) := by
    induction host.functions with
    | nil => exact .slnil
    | cons pf rest ih =>
        rw [List.flatMap_cons, List.flatMap_cons]
        exact (List.sublist_append_left _ _).append ih
  obtain ⟨-, distinct, apart⟩ := List.nodup_append'.mp sound.distinct
  constructor
  · rintro ⟨once, -⟩
    exact List.count_pos_iff.mp (by omega)
  · intro member
    refine ⟨List.count_eq_one_of_mem (distinct.sublist kept) member, fun freed => ?_⟩
    exact apart freed (kept.subset member)

/-- What a compiled function carries besides its ids. -/
def CompiledFunction.label (compiled : CompiledFunction) :
    Option ModuleString × Option ModuleString × Nat := (compiled.name, compiled.desc, compiled.flags)

/-- The compiled functions carry what the pending ones did. -/
theorem label_loaded (nextFuncId libId : Nat) (pending : List PendingFunc) :
    (assignFuncIds nextFuncId (pending.map (loadedFunction libId))).map CompiledFunction.label =
      pending.map fun pf => (pf.name, pf.desc, pf.flags) := by
  rw [assignFuncIds_map fun _ _ => rfl, List.map_map]
  rfl

/-- They own the strings the pending ones did. -/
theorem strings_loaded (nextFuncId libId : Nat) (pending : List PendingFunc) :
    (assignFuncIds nextFuncId (pending.map (loadedFunction libId))).flatMap
      CompiledFunction.strings = pending.flatMap PendingFunc.strings := by
  rw [List.flatMap_def, assignFuncIds_map fun _ _ => rfl, List.map_map, List.flatMap_def]
  rfl

/-- They refer to the new library by the names they carry. -/
theorem data_loaded (nextFuncId libId : Nat) (pending : List PendingFunc) :
    ∀ compiled ∈ assignFuncIds nextFuncId (pending.map (loadedFunction libId)),
      compiled.function.data =
        .functionRef (cString ((compiled.name.map ModuleString.text).getD [])) libId := by
  intro compiled member
  have here := List.mem_map_of_mem
    (f := fun compiled : CompiledFunction => (compiled.name, compiled.function.data)) member
  rw [assignFuncIds_map fun _ _ => rfl, List.map_map] at here
  obtain ⟨pf, -, same⟩ := List.mem_map.mp here
  simp only [Function.comp_apply, Prod.mk.injEq] at same
  rw [← same.1, ← same.2]
  rfl

namespace System

/-- The library ids a compilation gives out. -/
def newLibIds (rt : Runtime) (system : System) (type : SubsystemType) (code : Bytes) (fuel : Nat)
    (topLevel : ScriptRun) : List Nat :=
  match luajitEngineCompileCode rt system.ctx type code fuel topLevel with
  | some (after, .ok _) => if type = .eval then [] else [after.nextLibId]
  | _ => []

/-- What is remembered of a request. -/
def noteIds (rt : Runtime) (system : System) : Request → IdRecord → IdRecord
  | .compile type code fuel topLevel, record =>
      { funcIds := record.funcIds ++ system.newIds rt type code fuel topLevel
        libIds := record.libIds ++ system.newLibIds rt type code fuel topLevel }
  | .reset type _ _, record => if dropsLibraries type then { record with libIds := [] } else record
  | _, record => record

/-- A load that succeeds loses and reorders nothing. -/
def LoadsFaithfully (rt : Runtime) (system : System) (record : IdRecord) : Request → Prop
  | .compile type code fuel topLevel => type ≠ .eval → ∀ after functions,
      luajitEngineCompileCode rt system.ctx type code fuel topLevel =
          some (after, .ok functions) →
        Faithful rt fuel code topLevel record after functions
  | _ => True

/-- A library that loads spells every key of its registrations in one way: none that is
accepted gives two names or two descriptions. -/
def SpellsKeysOnce (rt : Runtime) : Request → Prop
  | .compile type code fuel topLevel => type ≠ .eval → rt.syntaxError code = none →
      ((scratchSetting rt fuel).run topLevel scratchStart).IsDone →
        ∀ call ∈ acceptedCalls rt fuel topLevel.actions scratchStart, call.GivenOnce
  | _ => True

/-- What the record has is not above the engine's counters. -/
structure IdsKnown (system : System) (record : IdRecord) : Prop where
  steady : system.Steady
  funcIds : ∀ given ∈ record.funcIds, given ≤ system.ctx.nextFuncId
  libIds : ∀ given ∈ record.libIds, given ≤ system.ctx.nextLibId

section Steps

variable {rt : Runtime} {system : System} {record : IdRecord}

/-- A load that succeeds gives the server everything exactly when every registration gives
its strings once. -/
theorem faithful_iff {type : SubsystemType} {code : Bytes} {fuel : Nat} {topLevel : ScriptRun}
    {after : EngineCtx} {functions : List CompiledFunction} (known : system.IdsKnown record)
    (library : type ≠ .eval)
    (run : luajitEngineCompileCode rt system.ctx type code fuel topLevel =
      some (after, .ok functions)) :
    Faithful rt fuel code topLevel record after functions ↔
      ∀ call ∈ acceptedCalls rt fuel topLevel.actions scratchStart, call.GivenOnce := by
  obtain ⟨-, results, last, ended, same, libraries⟩ := luajitEngineCompileCode_loaded library run
  have registered := (performAll_registered (Setting.run_eq_done.mp ended).1).1
  obtain ⟨added, functions', makes⟩ := registered.functions
  obtain rfl : added = last.host.functions := functions'.symm
  have sound : last.host.Sound := by
    have here := sound_topLevel rt fuel topLevel
    rwa [ended] at here
  have strings : functions.flatMap CompiledFunction.strings =
      last.host.functions.flatMap PendingFunc.strings := by
    rw [same]
    exact strings_loaded _ _ _
  have owned : (∀ call ∈ acceptedCalls rt fuel topLevel.actions scratchStart,
      ∀ object ∈ call.strings, (functions.flatMap CompiledFunction.strings).count object = 1 ∧
        object ∉ ((scratchSetting rt fuel).run topLevel scratchStart).world.host.freed) ↔
      ∀ call ∈ acceptedCalls rt fuel topLevel.actions scratchStart, call.GivenOnce := by
    rw [strings, ended]
    simp only [Outcome.world_done, count_strings sound]
    exact owned_iff makes registered.order
  constructor
  · exact fun faithful => owned.mp faithful.owned
  · intro once
    have fresh : system.ctx.nextLibId + 1 ∉ system.ctx.libraries := by
      intro taken
      have below := known.steady.numbers.entries _ taken
      omega
    exact
      { carried := by
          have labels : List.Forall₂ (fun call (label : Option ModuleString ×
              Option ModuleString × Nat) => Registration.Asks call
                (label.1.map ModuleString.text) (label.2.1.map ModuleString.text) label.2.2)
              (acceptedCalls rt fuel topLevel.actions scratchStart)
              (functions.map CompiledFunction.label) := by
            rw [same, label_loaded, List.forall₂_map_right_iff]
            exact makes.imp fun call pf made => made.asks
          exact List.forall₂_map_right_iff.mp labels
        library := by
          refine ⟨system.ctx.nextLibId + 1, fun given member => ?_, ?_, ?_⟩
          · have below := known.libIds given member
            omega
          · rw [same]
            exact data_loaded _ _ _
          · simp only [libraries, addLibrary, AList.lookup_insertNew_self _ fresh, Option.map_some]
        funcIds := by
          refine ⟨system.ctx.nextFuncId + 1, fun given member => ?_,
            (luajitEngineCompileCode_ok run).1⟩
          have below := known.funcIds given member
          omega
        owned := owned.mpr once }

/-- Compiling never takes a library id back. -/
theorem nextLibId_compile {type : SubsystemType} {code : Bytes} {fuel : Nat}
    {topLevel : ScriptRun} : system.ctx.nextLibId ≤
      (system.step rt (.compile type code fuel topLevel)).ctx.nextLibId := by
  obtain ⟨after, functions, run, made⟩ | ⟨-, same⟩ :=
    step_compile_cases rt system type code fuel topLevel
  · rw [made]
    rcases (luajitEngineCompileCode_ok run).2 with ⟨-, -, rfl⟩ | ⟨-, -, -, rfl⟩
    · exact le_rfl
    · exact Nat.le_succ _
  · exact same.nextLibId.ge

theorem loadsFaithfully_iff (request : Request) (known : system.IdsKnown record) :
    system.LoadsFaithfully rt record request ↔ SpellsKeysOnce rt request := by
  cases request with
  | compile type code fuel topLevel =>
      constructor
      · intro faithful library accepted returned
        obtain ⟨after, functions, run⟩ : ∃ after functions, luajitEngineCompileCode rt system.ctx
            type code fuel topLevel = some (after, .ok functions) :=
          luajitEngineCompileCode_returned library accepted returned
        exact (faithful_iff known library run).mp (faithful library after functions run)
      · intro once library after functions run
        obtain ⟨accepted, results, last, ended, -⟩ := luajitEngineCompileCode_loaded library run
        exact (faithful_iff known library run).mpr
          (once library accepted (by rw [ended]; trivial))
  | _ => exact Iff.rfl

theorem initial_idsKnown (enableFfiApi : Bool) : (initial enableFfiApi).IdsKnown ⟨[], []⟩ :=
  ⟨initial_steady enableFfiApi, by simp, by simp⟩

/-- Every request keeps the record below the counters. -/
theorem idsKnown_step (request : Request) (known : system.IdsKnown record)
    (admitted : system.Admits request) :
    (system.step rt request).IdsKnown (system.noteIds rt request record) := by
  have steady : (system.step rt request).Steady := steady_step request known.steady admitted
  cases request with
  | compile type code fuel topLevel =>
      refine ⟨steady, fun given member => ?_, fun given member => ?_⟩
      · rcases List.mem_append.mp member with old | new
        · exact (known.funcIds given old).trans nextFuncId_compile
        · exact ((newIds_fresh rt system type code fuel topLevel).2 given new).2
      · rcases List.mem_append.mp member with old | new
        · exact (known.libIds given old).trans nextLibId_compile
        · unfold newLibIds at new
          split at new
          · rename_i after functions run
            split at new
            · cases new
            · obtain rfl := List.mem_singleton.mp new
              rw [step_compile_ok run]
              exact le_rfl
          · cases new
  | call username handle keys args load body => exact ⟨steady, known.funcIds, known.libIds⟩
  | free handle =>
      obtain ⟨nextFuncId, nextLibId⟩ : (system.step rt (.free handle)).ctx.nextFuncId =
          system.ctx.nextFuncId ∧ (system.step rt (.free handle)).ctx.nextLibId =
            system.ctx.nextLibId := step_free_nextIds
      exact ⟨steady, by rw [nextFuncId]; exact known.funcIds, by rw [nextLibId]; exact known.libIds⟩
  | reset type async insecure =>
      have funcIds : (system.step rt (.reset type async insecure)).ctx.nextFuncId =
          system.ctx.nextFuncId := by
        cases type <;> rfl
      cases drops : dropsLibraries type with
      | true =>
          refine ⟨steady, ?_, by simp [noteIds, drops]⟩
          rw [funcIds]
          simpa [noteIds, drops] using known.funcIds
      | false =>
          have libIds : (system.step rt (.reset type async insecure)).ctx.nextLibId =
              system.ctx.nextLibId := by
            cases type <;> first | rfl | cases drops
          refine ⟨steady, ?_, ?_⟩
          · rw [funcIds]
            simpa [noteIds, drops] using known.funcIds
          · rw [libIds]
            simpa [noteIds, drops] using known.libIds

end Steps

/-- In every run, every load that succeeds gives the server a function for each
registration, in order, under new ids and with all its strings, exactly when no
registration that is accepted gives two names or two descriptions. -/
theorem loads_faithful_throughout_iff (rt : Runtime) (enableFfiApi : Bool)
    (requests : List Request) (run : (machine rt).Run (initial enableFfiApi) requests) :
    ((machine rt).recorded (noteIds rt)).Along
        (fun both request => both.1.LoadsFaithfully rt both.2 request)
        (initial enableFfiApi, ⟨[], []⟩) requests ↔
      ∀ request ∈ requests, SpellsKeysOnce rt request := by
  have recordedRun : ((machine rt).recorded (noteIds rt)).Run
      (initial enableFfiApi, ⟨[], []⟩) requests := InputMachine.along_recorded.mpr run
  have kept (both : System × IdRecord) (request : Request) (known : both.1.IdsKnown both.2)
      (admitted : ((machine rt).recorded (noteIds rt)).Admits both request) (_ : True) :
      (((machine rt).recorded (noteIds rt)).step both request).1.IdsKnown
        (((machine rt).recorded (noteIds rt)).step both request).2 :=
    idsKnown_step request known admitted
  have known := recordedRun.visits kept (initial_idsKnown enableFfiApi)
    (recordedRun.mono fun _ _ _ => trivial)
  have agree (both : System × IdRecord) (request : Request) (known : both.1.IdsKnown both.2)
      (_ : ((machine rt).recorded (noteIds rt)).Admits both request) :
      both.1.LoadsFaithfully rt both.2 request ↔ SpellsKeysOnce rt request :=
    loadsFaithfully_iff request known
  exact (recordedRun.along_iff agree known).trans InputMachine.along_iff_forall

/-- Named arguments that give the name twice. -/
def twiceNamedHeap : Heap :=
  { (default : Heap) with
    next := 2
    cells := fun addr => if addr = 1 then
      .ofFields [(.string (bytes "function_name"), .string (bytes "f")),
        (.string (bytes "FUNCTION_NAME"), .string (bytes "g")),
        (.string (bytes "callback"), .function (.closure 0))]
      else .empty }

/-- A library that registers a function with them. -/
def namesTwice : ScriptRun :=
  ⟨[.step twiceNamedHeap, .call .registerFunction [.table 1]], .ok .nil⟩

/-- One of the two names is owned by no function. -/
theorem twice_named_loses_string :
    (machine .plain).Run (initial false) [.compile .function [1] 5 namesTwice] ∧
      ¬ ((machine .plain).recorded (noteIds .plain)).Along
        (fun both request => both.1.LoadsFaithfully .plain both.2 request)
        (initial false, ⟨[], []⟩) [.compile .function [1] 5 namesTwice] := by
  refine ⟨⟨rfl, trivial⟩, ?_⟩
  rintro ⟨faithful, -⟩
  have loaded : ∃ after functions, luajitEngineCompileCode .plain (initial false).ctx .function [1] 5
      namesTwice = some (after, .ok functions) ∧
        functions.flatMap CompiledFunction.strings = [2] := ⟨_, _, rfl, rfl⟩
  obtain ⟨after, functions, run, strings⟩ := loaded
  have made : (acceptedCalls .plain 5 namesTwice.actions scratchStart).map Registration.strings =
      [[1, 2]] := by decide +kernel
  obtain ⟨call, listed, same⟩ : ∃ call ∈ acceptedCalls .plain 5 namesTwice.actions scratchStart,
      call.strings = [1, 2] := List.mem_map.mp (made ▸ List.mem_singleton_self _)
  have owned := ((faithful (by decide) after functions run).owned call listed 1 (by simp [same])).1
  simp [strings] at owned

/-- A library that registers a name and a function loses nothing. -/
theorem positional_load_is_faithful :
    ((machine .plain).recorded (noteIds .plain)).Along
      (fun both request => both.1.LoadsFaithfully .plain both.2 request)
      (initial false, ⟨[], []⟩) [.compile .function [1] 1 registersOne] := by
  have run : (machine .plain).Run (initial false) [.compile .function [1] 1 registersOne] :=
    ⟨rfl, trivial⟩
  refine (loads_faithful_throughout_iff .plain false _ run).mpr ?_
  rintro request member
  obtain rfl := List.mem_singleton.mp member
  intro _ _ _ call listed met arguments
  have made : (acceptedCalls .plain 1 registersOne.actions scratchStart).map
      Registration.arguments = [[.string (bytes "f"), .function (.closure 0)]] := by decide +kernel
  have same : call.arguments = [.string (bytes "f"), .function (.closure 0)] := by
    have here := List.mem_map_of_mem (f := Registration.arguments) listed
    rw [made] at here
    exact List.mem_singleton.mp here
  rw [same] at arguments
  cases arguments
  decide

end System

end ValkeyLuajit
