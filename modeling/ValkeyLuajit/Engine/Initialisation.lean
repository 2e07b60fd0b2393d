import ValkeyLuajit.Engine.Cache
import ValkeyLuajit.Engine.Completion
import ValkeyLuajit.Engine.Resolution

/-!
# Initialising libraries

A library is initialised in a user's function state by running its top-level code
there, on the first call that needs it. A record beside the engine remembers which
compilation made the library with an id, whose top-level code has completed in a
user's function state by the events of its calls, and from which library a function was
resolved there.
-/

namespace ValkeyLuajit

open Lua

section Calls

variable {rt : Runtime} {ctx : EngineCtx} {function : LuajitFunction} {type : SubsystemType}
  {load body : ScriptRun} {before after : Core CallHost} {lib : LuajitLibrary} {libId : Nat}

/-- A library that is ready is marked. -/
theorem Readied.marked (readied : Readied rt lib libId load before (.ok true) after) :
    after.lua.loaded libId = true := by
  cases readied with
  | already loaded => exact loaded
  | loaded => simp [State.loaded_mark]

/-- A function that is newly in the cache is of a library that is loaded then. -/
theorem Called.loaded_of_cached {returns : Bool} {name : Bytes}
    (called : Called rt ctx function type load body before returns after)
    (data : function.data = .functionRef name libId)
    (uncached : (before.lua.cached function.funcId).isFunction = false)
    (cached : (after.lua.cached function.funcId).isFunction = true) :
    after.lua.loaded libId = true := by
  have finding {result : Except String (Option FuncRef)} {core : Core CallHost}
      (fetched : Fetched rt ctx function load before result core)
      (here : (core.lua.cached function.funcId).isFunction = true) :
      core.lua.loaded libId = true := by
    have kept : ∀ {answer : Except String Bool} {ready : Core CallHost} {lib : LuajitLibrary}
        {other : Nat}, Readied rt lib other load before answer ready →
          (ready.lua.cached function.funcId).isFunction = false := by
      intro answer ready lib other readied
      rwa [State.cached, show ready.lua.hidden registryFuncCacheName = _ from readied.closures]
    cases fetched with
    | hit found => simp [found, Value.isFunction, Value.type] at uncached
    | rejected => simp [uncached] at here
    | compiled _ source => simp [data] at source
    | missing => simp [uncached] at here
    | unready _ _ _ readied => simp [kept readied] at here
    | crashed _ _ _ readied => simp [kept readied] at here
    | unbound _ _ _ readied => simp [kept readied] at here
    | bound _ reference _ readied =>
        obtain ⟨-, rfl⟩ : _ ∧ libId = _ := by simpa using data.symm.trans reference
        rw [Core.map_lua, State.loaded_remember, readied.marked]
  cases called with
  | crashed fetched => exact finding fetched cached
  | refused fetched => exact finding fetched cached
  | invoked fetched invoked =>
      have cache := invoked.hidden (show registryFuncCacheName ≠ _ by decide)
      have marks := invoked.hidden (show libraryCompiledName ≠ _ by decide)
      rw [State.cached, cache] at cached
      rw [State.loaded, marks]
      exact finding fetched cached

end Calls

/-- What is remembered of a run. -/
structure LoadRecord where
  /-- The compilation that made the library with an id, since the ids last started over. -/
  library : Nat → Option Nat
  /-- The text that was compiled. -/
  source : Nat → Bytes
  /-- The libraries, by their compilations, whose top-level code has completed in a user's
  function state since this was last replaced, in order. -/
  completed : Bytes → List Nat
  /-- The library whose entry a function was resolved from in a user's function state. -/
  resolved : Bytes → Nat → Option Nat

/-- Nothing is remembered, as after the libraries and the function states are replaced. -/
def LoadRecord.start : LoadRecord := ⟨fun _ => none, fun _ => [], fun _ => [], fun _ _ => none⟩

/-- A library is entered into the dictionary. -/
def LoadRecord.add (record : LoadRecord) (libId compilation : Nat) (code : Bytes) : LoadRecord :=
  { record with
    library := Function.update record.library libId (some compilation)
    source := Function.update record.source compilation code }

/-- The library with an id, if this is its code. -/
def LoadRecord.named (record : LoadRecord) (libId : Nat) (callee : FuncRef) : Option Nat :=
  (record.library libId).filter fun compilation => callee = .chunk (record.source compilation)

/-- This top-level code has completed in a user's state, in calls of the library with an id. -/
def LoadRecord.complete (record : LoadRecord) (user : Bytes) (libId : Nat)
    (completed : List FuncRef) : LoadRecord :=
  { record with
    completed := Function.update record.completed user
      (record.completed user ++ completed.filterMap (record.named libId)) }

/-- A function is resolved from the library with an id in a user's state. -/
def LoadRecord.resolve (record : LoadRecord) (user : Bytes) (funcId libId : Nat) : LoadRecord :=
  { record with
    resolved := Function.update record.resolved user
      (Function.update (record.resolved user) funcId (record.library libId)) }

namespace System

/-- A call resolves a function: it is in the closure cache afterwards and was not before. -/
def resolvesNew (rt : Runtime) (system : System) (username : Bytes) (handle : Held)
    (keys args : List Bytes) (load body : ScriptRun) : Bool :=
  !((functionState system.ctx (cString username)).cached
      handle.compiled.function.funcId).isFunction &&
    ((callOutcome rt system.ctx username handle keys args load body).world.lua.cached
      handle.compiled.function.funcId).isFunction

/-- What is remembered of a request. -/
def noteLoads (rt : Runtime) (system : System) : Request → LoadRecord → LoadRecord
  | .compile type code fuel topLevel, record =>
      match luajitEngineCompileCode rt system.ctx type code fuel topLevel with
      | some (_, .ok _) =>
          if type = .eval then record
          else record.add (system.ctx.nextLibId + 1) system.compilations code
      | _ => record
  | .call username handle keys args load body, record =>
      match handle.compiled.function.data with
      | .source _ => record
      | .functionRef _ libId =>
          let completed := record.complete (cString username) libId (libraryCompletions
            (callOutcome rt system.ctx username handle keys args load body).world.host.trace)
          if system.resolvesNew rt username handle keys args load body then
            completed.resolve (cString username) handle.compiled.function.funcId libId
          else completed
  | .free _, record => record
  | .reset type _ _, record => if renews type .function then LoadRecord.start else record

/-- In every user's function state, since it was last replaced: no library's top-level code
has completed twice; a library is marked as loaded exactly if its own code has completed;
and every function that was resolved there was resolved from a library whose code has
completed, its own one unless the libraries were dropped since it was compiled. -/
structure InitialisationLaw (system : System) (record : LoadRecord) : Prop where
  once : ∀ user, (record.completed user).Nodup
  marks : ∀ user libId, (functionState system.ctx user).loaded libId = true ↔
    ∃ compilation, record.library libId = some compilation ∧ compilation ∈ record.completed user
  resolved : ∀ user funcId compilation, record.resolved user funcId = some compilation →
    (record.completed user).count compilation = 1
  own : ∀ user, ∀ handle ∈ system.held, ∀ name libId,
    handle.compiled.function.data = .functionRef name libId →
      ((functionState system.ctx user).cached handle.compiled.function.funcId).isFunction = true →
        ∃ compilation, record.resolved user handle.compiled.function.funcId = some compilation ∧
          (handle.generation = system.generation → compilation = handle.compilation)

/-- What the law rests on. -/
structure InitialisationSound (system : System) (record : LoadRecord) : Prop where
  steady : system.Steady
  law : system.InitialisationLaw record
  issued : ∀ libId compilation, record.library libId = some compilation →
    libId ≤ system.ctx.nextLibId ∧ compilation < system.compilations
  apart : ∀ first second compilation, record.library first = some compilation →
    record.library second = some compilation → first = second
  finished : ∀ user, ∀ compilation ∈ record.completed user,
    ∃ libId, record.library libId = some compilation
  entries : ∀ libId lib, system.ctx.libraries.lookup libId = some lib →
    ∃ compilation, record.library libId = some compilation ∧ record.source compilation = lib.code
  current : ∀ libId handle, system.CurrentIn libId handle →
    record.library libId = some handle.compilation
  old : ∀ user funcId, ((functionState system.ctx user).cached funcId).isFunction = true →
    funcId ≤ system.ctx.nextFuncId

section Steps

variable {rt : Runtime} {system : System} {record : LoadRecord}

theorem initial_initialisationSound (enableFfiApi : Bool) :
    (initial enableFfiApi).InitialisationSound LoadRecord.start := by
  have blank (user : Bytes) : Blank (functionState (initial enableFfiApi).ctx user) :=
    createUserLuaState_blank _ _
  exact
    { steady := initial_steady enableFfiApi
      law :=
        { once := fun _ => List.nodup_nil
          marks := fun user libId => by simp [(blank user).loaded, LoadRecord.start]
          resolved := by simp [LoadRecord.start]
          own := by simp [initial] }
      issued := by simp [LoadRecord.start]
      apart := by simp [LoadRecord.start]
      finished := by simp [LoadRecord.start]
      entries := by simp [initial, createEngineContext]
      current := by simp [CurrentIn, initial]
      old := fun user funcId cached => by
        simp [(blank user).cached, Value.isFunction, Value.type] at cached }

/-- Requests that add no function of a library and leave the caches and marks alone. -/
theorem InitialisationSound.of_same {after : System} (sound : system.InitialisationSound record)
    (steady : after.Steady)
    (held : ∀ handle ∈ after.held, handle.libId ≠ none → handle ∈ system.held)
    (generation : after.generation = system.generation)
    (nextLibId : after.ctx.nextLibId = system.ctx.nextLibId)
    (nextFuncId : system.ctx.nextFuncId ≤ after.ctx.nextFuncId)
    (compilations : system.compilations ≤ after.compilations)
    (libraries : ∀ libId lib, after.ctx.libraries.lookup libId = some lib →
      ∃ former, system.ctx.libraries.lookup libId = some former ∧ former.code = lib.code)
    (cached : ∀ user funcId, (functionState after.ctx user).cached funcId =
      (functionState system.ctx user).cached funcId)
    (loaded : ∀ user libId, (functionState after.ctx user).loaded libId =
      (functionState system.ctx user).loaded libId) : after.InitialisationSound record where
  steady := steady
  law :=
    { once := sound.law.once
      marks := fun user libId => by rw [loaded]; exact sound.law.marks user libId
      resolved := sound.law.resolved
      own := fun user handle member name libId data found => by
        have library : handle.libId ≠ none := by simp [Held.libId, data]
        rw [cached] at found
        rw [generation]
        exact sound.law.own user handle (held handle member library) name libId data found }
  issued := fun libId compilation made => by
    have before := sound.issued libId compilation made
    rw [nextLibId]
    exact ⟨before.1, before.2.trans_le compilations⟩
  apart := sound.apart
  finished := sound.finished
  entries := fun libId lib found => by
    obtain ⟨former, there, same⟩ := libraries libId lib found
    rw [← same]
    exact sound.entries libId former there
  current := fun libId handle current => by
    have library : handle.libId ≠ none := by simp [current.2.1]
    exact sound.current libId handle ⟨held handle current.1 library, current.2.1, by
      rw [← generation]
      exact current.2.2⟩
  old := fun user funcId found => by
    rw [cached] at found
    exact (sound.old user funcId found).trans nextFuncId

/-- A compilation that adds no library. -/
theorem initialisationSound_compile_other {type : SubsystemType} {code : Bytes} {fuel : Nat}
    {topLevel : ScriptRun} (sound : system.InitialisationSound record)
    (admitted : system.crashed = false)
    (other : ∀ after functions, luajitEngineCompileCode rt system.ctx type code fuel topLevel =
      some (after, .ok functions) → type = .eval) :
    (system.step rt (.compile type code fuel topLevel)).InitialisationSound record := by
  have steady : (system.step rt (.compile type code fuel topLevel)).Steady :=
    steady_step _ sound.steady admitted
  obtain ⟨after, functions, run, made⟩ | ⟨-, same⟩ :=
    step_compile_cases rt system type code fuel topLevel
  · obtain ⟨-, ⟨-, data, rfl⟩ | ⟨library, -⟩⟩ := luajitEngineCompileCode_ok run
    · refine sound.of_same steady ?_ (by rw [made]; rfl) (by rw [made]; rfl)
        (by rw [made]; exact Nat.le_add_right _ _) (by rw [made]; exact Nat.le_succ _)
        (by rw [made]; exact fun _ lib found => ⟨lib, found, rfl⟩)
        (fun user funcId => by rw [functionState_compile])
        (fun user libId => by rw [functionState_compile])
      intro handle member library
      rw [made] at member
      rcases List.mem_append.mp member with old | new
      · exact old
      · obtain ⟨function, listed, rfl⟩ := mem_newHandles.mp new
        have here := List.mem_map_of_mem
          (f := fun compiled : CompiledFunction => compiled.function.data) listed
        rw [data, List.mem_singleton] at here
        exact absurd (by simp [Held.libId, here]) library
    · exact absurd (other _ _ run) library
  · exact sound.of_same steady (fun handle member _ => same.held ▸ member) same.generation
      same.nextLibId same.nextFuncId.ge same.compilations (fun libId lib found => ⟨lib, same.libraries ▸ found, rfl⟩)
      (fun user funcId => by rw [functionState_compile])
      (fun user libId => by rw [functionState_compile])

/-- A library that is compiled is new to every user. -/
theorem initialisationSound_compile_library {type : SubsystemType} {code : Bytes} {fuel : Nat}
    {topLevel : ScriptRun} {after : EngineCtx} {functions : List CompiledFunction}
    (sound : system.InitialisationSound record) (admitted : system.crashed = false)
    (run : luajitEngineCompileCode rt system.ctx type code fuel topLevel =
      some (after, .ok functions)) (library : type ≠ .eval) :
    (system.step rt (.compile type code fuel topLevel)).InitialisationSound
      (record.add (system.ctx.nextLibId + 1) system.compilations code) := by
  have steady : (system.step rt (.compile type code fuel topLevel)).Steady :=
    steady_step _ sound.steady admitted
  have made := step_compile_ok run
  have unmade : record.library (system.ctx.nextLibId + 1) = none := by
    by_contra present
    obtain ⟨compilation, made⟩ := Option.ne_none_iff_exists'.mp present
    have below := (sound.issued _ _ made).1
    omega
  have absent : system.ctx.nextLibId + 1 ∉ system.ctx.libraries := by
    intro present
    obtain ⟨lib, found⟩ := Option.isSome_iff_exists.mp (AList.lookup_isSome.mpr present)
    obtain ⟨compilation, made, -⟩ := sound.entries _ lib found
    simp [unmade] at made
  have unfinished (user : Bytes) : system.compilations ∉ record.completed user := by
    intro member
    obtain ⟨libId, made⟩ := sound.finished user _ member
    exact absurd (sound.issued libId _ made).2 (lt_irrefl _)
  have added (libId : Nat) :
      (record.add (system.ctx.nextLibId + 1) system.compilations code).library libId =
        if libId = system.ctx.nextLibId + 1 then some system.compilations
        else record.library libId := Function.update_apply _ _ _ _
  have states (user : Bytes) :
      functionState (system.step rt (.compile type code fuel topLevel)).ctx user =
        functionState system.ctx user := functionState_compile
  obtain ⟨ids, ⟨eval, -⟩ | ⟨-, -, refs, ctx⟩⟩ := luajitEngineCompileCode_ok run
  · exact absurd eval library
  have newHandle {handle : Held} (new : handle ∈ system.newHandles code functions) :
      system.ctx.nextFuncId < handle.compiled.function.funcId ∧
        handle.libId = some (system.ctx.nextLibId + 1) ∧
        handle.compilation = system.compilations := by
    obtain ⟨function, listed, rfl⟩ := mem_newHandles.mp new
    have inIds : function.function.funcId ∈
        functions.map fun function => function.function.funcId := List.mem_map_of_mem listed
    rw [ids, List.mem_range'_1] at inIds
    obtain ⟨name, reference⟩ := refs function listed
    refine ⟨?_, by simp [Held.libId, reference], rfl⟩
    simp only
    omega
  have nextLibId : (system.step rt (.compile type code fuel topLevel)).ctx.nextLibId =
      system.ctx.nextLibId + 1 := by rw [made, compiled, ctx]; rfl
  exact
    { steady := steady
      law :=
        { once := sound.law.once
          marks := fun user libId => by
            rw [states, sound.law.marks user libId, added]
            by_cases new : libId = system.ctx.nextLibId + 1
            · subst new
              simp [unmade, unfinished, LoadRecord.add]
            · rw [if_neg new]
              rfl
          resolved := sound.law.resolved
          own := fun user handle member name libId data cached => by
            rw [states] at cached
            rw [made] at member ⊢
            rcases List.mem_append.mp member with old | new
            · exact sound.law.own user handle old name libId data cached
            · have below := sound.old user _ cached
              have above := (newHandle new).1
              omega }
      issued := fun libId compilation made' => by
        rw [added] at made'
        rw [nextLibId, made, compiled]
        split at made'
        · rename_i new
          cases made'
          exact ⟨new.le, Nat.lt_succ_self _⟩
        · have before := sound.issued libId compilation made'
          exact ⟨before.1.trans (Nat.le_succ _), before.2.trans (Nat.lt_succ_self _)⟩
      apart := fun first second compilation one two => by
        rw [added] at one two
        split at one <;> split at two
        · rename_i left right
          rw [left, right]
        · cases one
          exact absurd (sound.issued _ _ two).2 (lt_irrefl _)
        · cases two
          exact absurd (sound.issued _ _ one).2 (lt_irrefl _)
        · exact sound.apart first second compilation one two
      finished := fun user compilation member => by
        obtain ⟨libId, made'⟩ := sound.finished user compilation member
        refine ⟨libId, ?_⟩
        rw [added, if_neg]
        · exact made'
        · rintro rfl
          simp [unmade] at made'
      entries := fun libId lib found => by
        rw [made, compiled, ctx] at found
        rw [added]
        by_cases new : libId = system.ctx.nextLibId + 1
        · subst new
          rw [addLibrary, AList.lookup_insertNew_self _ absent] at found
          cases found
          exact ⟨_, if_pos rfl, Function.update_self ..⟩
        · rw [addLibrary, AList.lookup_insertNew_of_ne _ new] at found
          obtain ⟨compilation, made', source⟩ := sound.entries libId lib found
          have early : compilation ≠ system.compilations := (sound.issued libId _ made').2.ne
          exact ⟨compilation, by rw [if_neg new, made'], (Function.update_of_ne early ..).trans source⟩
      current := fun libId handle current => by
        rw [made] at current
        rcases currentIn_compiled.mp current with old | ⟨new, named⟩
        · have below := sound.steady.numbers.libIds libId handle old
          rw [added, if_neg (by omega)]
          exact sound.current libId handle old
        · obtain ⟨-, library, compilation⟩ := newHandle new
          obtain rfl : libId = system.ctx.nextLibId + 1 := by simpa using named.symm.trans library
          rw [added, if_pos rfl, compilation]
      old := fun user funcId cached => by
        rw [states] at cached
        rw [made, compiled, ctx]
        exact (sound.old user funcId cached).trans (Nat.le_add_right _ _) }

/-- Compiling keeps what the law rests on. -/
theorem initialisationSound_compile {type : SubsystemType} {code : Bytes} {fuel : Nat}
    {topLevel : ScriptRun} (sound : system.InitialisationSound record)
    (admitted : system.crashed = false) :
    (system.step rt (.compile type code fuel topLevel)).InitialisationSound
      (system.noteLoads rt (.compile type code fuel topLevel) record) := by
  simp only [noteLoads]
  split
  · rename_i after functions run
    split
    · rename_i eval
      exact initialisationSound_compile_other sound admitted fun _ _ _ => eval
    · rename_i library
      exact initialisationSound_compile_library sound admitted run library
  · rename_i failed
    exact initialisationSound_compile_other sound admitted fun after functions run =>
      absurd run (failed after functions)

/-- Freeing keeps what the law rests on. -/
theorem initialisationSound_free {handle : Held} (sound : system.InitialisationSound record)
    (admitted : system.Admits (.free handle)) :
    (system.step rt (.free handle)).InitialisationSound record := by
  have prepared := sound.steady.sound admitted.1
  have tables (user : Bytes) :
      (∀ funcId, (functionState (system.step rt (.free handle)).ctx user).cached funcId =
        (functionState system.ctx user).cached funcId) ∧
      ∀ libId, (functionState (system.step rt (.free handle)).ctx user).loaded libId =
        (functionState system.ctx user).loaded libId := by
    cases data : handle.compiled.function.data with
    | source text =>
        rw [functionState_free_eval data]
        exact ⟨fun _ => rfl, fun _ => rfl⟩
    | functionRef name libId =>
        have same : SameTables ((functionState system.ctx user).bindFunction name .nil)
            (functionState (system.step rt (.free handle)).ctx user) :=
          functionState_free prepared data
        exact ⟨fun funcId => (same.cached funcId).trans (State.cached_bindFunction funcId),
          fun other => (same.loaded other).trans (State.loaded_bindFunction other)⟩
  refine sound.of_same (steady_step _ sound.steady admitted)
    (fun other member _ => List.mem_of_mem_erase member) rfl step_free_nextIds.2
    step_free_nextIds.1.ge le_rfl ?_ (fun user => (tables user).1) fun user => (tables user).2
  intro libId lib found
  rw [step_free_libraries] at found
  split at found
  · exact ⟨lib, found, rfl⟩
  · exact lookup_of_lookup_releaseLibrary found

/-- So does a reset: it drops the libraries together with the states. -/
theorem initialisationSound_reset {type : SubsystemType} {async insecure : Bool}
    (sound : system.InitialisationSound record)
    (admitted : system.Admits (.reset type async insecure)) :
    (system.step rt (.reset type async insecure)).InitialisationSound
      (system.noteLoads rt (.reset type async insecure) record) := by
  have steady : (system.step rt (.reset type async insecure)).Steady :=
    steady_step _ sound.steady admitted
  by_cases eval : type = .eval
  · subst eval
    have same : SameLibraries system (system.step rt (.reset .eval async insecure)) :=
      step_reset_eval
    exact sound.of_same steady (fun handle member _ => member) same.generation same.nextLibId
      same.nextFuncId.ge same.compilations (fun libId lib found => ⟨lib, same.libraries ▸ found, rfl⟩)
      (fun user funcId => by rw [functionState_reset_eval])
      (fun user libId => by rw [functionState_reset_eval])
  · have drops : dropsLibraries type = true := by
      cases type <;> first | rfl | exact absurd rfl eval
    have renewed : renews type .function = true := by
      cases type <;> first | rfl | exact absurd rfl eval
    have blank (user : Bytes) :
        Blank (functionState (system.step rt (.reset type async insecure)).ctx user) :=
      functionState_reset drops
    have generation : (system.step rt (.reset type async insecure)).generation =
        system.generation + 1 := by simp [step, drops]
    simp only [noteLoads, renewed, if_true]
    exact
      { steady := steady
        law :=
          { once := fun _ => List.nodup_nil
            marks := fun user libId => by simp [(blank user).loaded, LoadRecord.start]
            resolved := by simp [LoadRecord.start]
            own := fun user handle _ name libId _ cached => by
              simp [(blank user).cached, Value.isFunction, Value.type] at cached }
        issued := by simp [LoadRecord.start]
        apart := by simp [LoadRecord.start]
        finished := by simp [LoadRecord.start]
        entries := fun libId lib found => by
          have empty : (system.step rt (.reset type async insecure)).ctx.libraries = ∅ := by
            cases type <;>
              first | exact absurd rfl eval | simp [step, luajitEngineResetEnv, resetLibraries]
          simp [empty] at found
        current := fun libId handle current => by
          have before := sound.steady.numbers.generations handle current.1
          have now := current.2.2
          rw [generation] at now
          omega
        old := fun user funcId cached => by
          simp [(blank user).cached, Value.isFunction, Value.type] at cached }

section Call

variable {username : Bytes} {handle : Held} {keys args : List Bytes} {load body : ScriptRun}
  {name : Bytes} {libId : Nat}

variable (rt username keys args load body) in
/-- A call of a library's function completes the code of that library, which gets its mark, or
completes none and marks none. -/
theorem callOutcome_completions (sound : system.InitialisationSound record)
    (alive : system.crashed = false)
    (data : handle.compiled.function.data = .functionRef name libId) :
    (libraryCompletions
          (callOutcome rt system.ctx username handle keys args load body).world.host.trace = [] ∧
      ∀ other, (callOutcome rt system.ctx username handle keys args load body).world.lua.loaded
        other = (functionState system.ctx (cString username)).loaded other) ∨
    ∃ compilation, record.library libId = some compilation ∧
      (functionState system.ctx (cString username)).loaded libId = false ∧
      (libraryCompletions
          (callOutcome rt system.ctx username handle keys args load body).world.host.trace).filterMap
        (record.named libId) = [compilation] ∧
      ∀ other, (callOutcome rt system.ctx username handle keys args load body).world.lua.loaded
        other = ((functionState system.ctx (cString username)).loaded other ||
          decide (other = libId)) := by
  have called : Called rt system.ctx handle.compiled.function .function load body
      ⟨functionState system.ctx (cString username), ⟨none, []⟩, []⟩ _
      (callOutcome rt system.ctx username handle keys args load body).world.core :=
    call_called (sound.steady.sound alive) data
  rcases called.completions rfl with none | ⟨_, other, lib, own, found, fresh, completes, marked⟩
  · exact .inl none
  · obtain ⟨-, rfl⟩ : _ ∧ libId = other := by simpa using data.symm.trans own
    obtain ⟨compilation, made, source⟩ := sound.entries libId lib found
    have named : record.named libId (.chunk lib.code) = some compilation := by
      simp [LoadRecord.named, made, source]
    refine .inr ⟨compilation, made, fresh, ?_, marked⟩
    rw [World.core_host] at completes
    rw [completes, List.filterMap_cons, named, List.filterMap_nil]

variable (rt system record username keys args load body) in
/-- What is remembered after a call of a library's function, part by part. -/
theorem noteLoads_call (data : handle.compiled.function.data = .functionRef name libId) :
    (system.noteLoads rt (.call username handle keys args load body) record).library =
        record.library ∧
      (system.noteLoads rt (.call username handle keys args load body) record).source =
        record.source ∧
      (∀ user, (system.noteLoads rt (.call username handle keys args load body) record).completed
          user =
        record.completed user ++
          if user = cString username then
            (libraryCompletions (callOutcome rt system.ctx username handle keys args load
              body).world.host.trace).filterMap (record.named libId)
          else []) ∧
      ∀ user funcId,
        (system.noteLoads rt (.call username handle keys args load body) record).resolved user
            funcId =
          if (user = cString username ∧ funcId = handle.compiled.function.funcId) ∧
              system.resolvesNew rt username handle keys args load body then
            record.library libId
          else record.resolved user funcId := by
  simp only [noteLoads, data]
  cases system.resolvesNew rt username handle keys args load body <;>
    refine ⟨rfl, rfl, fun user => ?_, fun user funcId => ?_⟩ <;>
    by_cases own : user = cString username <;>
    simp [LoadRecord.complete, LoadRecord.resolve, Function.update_apply, own]

variable (rt username keys args load body) in
/-- A call of a library's function completes no code twice: the library that completes had
not completed in this state. -/
theorem nodup_completed_call (sound : system.InitialisationSound record)
    (alive : system.crashed = false)
    (data : handle.compiled.function.data = .functionRef name libId) (user : Bytes) :
    ((system.noteLoads rt (.call username handle keys args load body) record).completed user).Nodup := by
  obtain ⟨-, -, completed, -⟩ := noteLoads_call rt system record username keys args load body data
  rw [completed]
  split
  · rename_i own
    subst own
    rcases callOutcome_completions rt username keys args load body sound alive data with
      ⟨none, -⟩ | ⟨compilation, made, fresh, added, -⟩
    · rw [none, List.filterMap_nil, List.append_nil]
      exact sound.law.once _
    · rw [added, ← List.concat_eq_append]
      refine (sound.law.once _).concat fun member => ?_
      have marked := (sound.law.marks (cString username) libId).mpr ⟨compilation, made, member⟩
      rw [fresh] at marked
      exact Bool.false_ne_true marked
  · rw [List.append_nil]
    exact sound.law.once user

variable (rt username keys args load body) in
/-- It marks the library whose code it completes. -/
theorem marks_call (sound : system.InitialisationSound record) (alive : system.crashed = false)
    (data : handle.compiled.function.data = .functionRef name libId) (user : Bytes) (other : Nat) :
    (functionState (system.step rt (.call username handle keys args load body)).ctx user).loaded
        other = true ↔
      ∃ compilation,
        (system.noteLoads rt (.call username handle keys args load body) record).library other =
            some compilation ∧
          compilation ∈
            (system.noteLoads rt (.call username handle keys args load body) record).completed
              user := by
  obtain ⟨library, -, completed, -⟩ := noteLoads_call rt system record username keys args load
    body data
  rw [library, completed, functionState_call (handle.refs name libId data)]
  by_cases own : user = cString username
  · subst own
    rw [if_pos rfl, if_pos rfl]
    rcases callOutcome_completions rt username keys args load body sound alive data with
      ⟨none, same⟩ | ⟨compilation, made, -, added, marked⟩
    · rw [same, none, List.filterMap_nil, List.append_nil]
      exact sound.law.marks _ other
    · rw [marked, added, Bool.or_eq_true, sound.law.marks, decide_eq_true_iff]
      constructor
      · rintro (⟨earlier, there, member⟩ | rfl)
        · exact ⟨earlier, there, List.mem_append_left _ member⟩
        · exact ⟨compilation, made, by simp⟩
      · rintro ⟨earlier, there, member⟩
        rcases List.mem_append.mp member with old | new
        · exact .inl ⟨earlier, there, old⟩
        · obtain rfl := List.mem_singleton.mp new
          exact .inr (sound.apart other libId earlier there made)
  · rw [if_neg own, if_neg own, List.append_nil]
    exact sound.law.marks user other

/-- A function that it resolves anew is of a library that is loaded by then. -/
theorem completed_of_resolvesNew (sound : system.InitialisationSound record)
    (alive : system.crashed = false)
    (data : handle.compiled.function.data = .functionRef name libId)
    (resolves : system.resolvesNew rt username handle keys args load body = true) :
    ∃ compilation, record.library libId = some compilation ∧
      compilation ∈
        (system.noteLoads rt (.call username handle keys args load body) record).completed
          (cString username) := by
  have called : Called rt system.ctx handle.compiled.function .function load body
      ⟨functionState system.ctx (cString username), ⟨none, []⟩, []⟩ _
      (callOutcome rt system.ctx username handle keys args load body).world.core :=
    call_called (sound.steady.sound alive) data
  simp only [resolvesNew, Bool.and_eq_true, Bool.not_eq_true'] at resolves
  have loaded : (callOutcome rt system.ctx username handle keys args load
      body).world.lua.loaded libId = true :=
    called.loaded_of_cached data resolves.1 resolves.2
  have marked := (marks_call rt username keys args load body sound alive data (cString username)
    libId).mp (by rw [functionState_call (handle.refs name libId data), if_pos rfl, loaded])
  rwa [(noteLoads_call rt system record username keys args load body data).1] at marked

/-- A call of a library's function keeps what the law rests on. -/
theorem initialisationSound_call (sound : system.InitialisationSound record)
    (admitted : system.Admits (.call username handle keys args load body))
    (data : handle.compiled.function.data = .functionRef name libId) :
    (system.step rt (.call username handle keys args load body)).InitialisationSound
      (system.noteLoads rt (.call username handle keys args load body) record) := by
  have steady : (system.step rt (.call username handle keys args load body)).Steady :=
    steady_step _ sound.steady admitted
  have prepared := sound.steady.sound admitted.1
  have called : Called rt system.ctx handle.compiled.function .function load body
      ⟨functionState system.ctx (cString username), ⟨none, []⟩, []⟩ _
      (callOutcome rt system.ctx username handle keys args load body).world.core :=
    call_called prepared data
  have kept {funcId : Nat} (apart : funcId ≠ handle.compiled.function.funcId) :
      (callOutcome rt system.ctx username handle keys args load body).world.lua.cached funcId =
        (functionState system.ctx (cString username)).cached funcId := called.cached_other apart
  have states (user : Bytes) :
      functionState (system.step rt (.call username handle keys args load body)).ctx user =
        if user = cString username then
          (callOutcome rt system.ctx username handle keys args load body).world.lua
        else functionState system.ctx user := functionState_call (handle.refs name libId data)
  have once := nodup_completed_call rt username keys args load body sound admitted.1 data
  have marks := marks_call rt username keys args load body sound admitted.1 data
  have resolvedNew (resolves : system.resolvesNew rt username handle keys args load body = true) :=
    completed_of_resolvesNew sound admitted.1 data resolves
  have added := callOutcome_completions rt username keys args load body sound admitted.1 data
  obtain ⟨library, source, completed, resolved⟩ := noteLoads_call rt system record username keys
    args load body data
  generalize system.noteLoads rt (.call username handle keys args load body) record = noted at *
  have grows (user : Bytes) (compilation : Nat) (member : compilation ∈ record.completed user) :
      compilation ∈ noted.completed user := by
    rw [completed]
    exact List.mem_append_left _ member
  exact
    { steady := steady
      law :=
        { once := once
          marks := marks
          resolved := fun user funcId compilation isResolved => by
            apply List.count_eq_one_of_mem (once user)
            rw [resolved] at isResolved
            split at isResolved
            · rename_i own
              obtain ⟨other, made, member⟩ := resolvedNew own.2
              rw [own.1.1]
              rw [made] at isResolved
              cases isResolved
              exact member
            · apply grows
              apply List.count_pos_iff.mp
              rw [sound.law.resolved user funcId compilation isResolved]
              exact Nat.one_pos
          own := fun user other member otherName otherLib otherData cached => by
            rw [states] at cached
            rw [resolved]
            by_cases own : user = cString username ∧
                other.compiled.function.funcId = handle.compiled.function.funcId
            · obtain ⟨rfl, same⟩ := own
              obtain rfl : other = handle :=
                sound.steady.numbers.eq_of_funcId member admitted.2 same
              rw [if_pos rfl] at cached
              cases before : ((functionState system.ctx (cString username)).cached
                  other.compiled.function.funcId).isFunction with
              | true =>
                  rw [if_neg (by simp [resolvesNew, before])]
                  exact sound.law.own _ other member otherName otherLib otherData before
              | false =>
                  have resolves : system.resolvesNew rt username other keys args load body = true := by
                    simp [resolvesNew, before, cached]
                  obtain ⟨compilation, made, -⟩ := resolvedNew resolves
                  refine ⟨compilation, by rw [if_pos ⟨⟨rfl, rfl⟩, resolves⟩, made], fun now => ?_⟩
                  have current := sound.current libId other
                    ⟨member, by simp [Held.libId, data], now⟩
                  exact Option.some.inj (made.symm.trans current)
            · rw [if_neg fun both => own both.1]
              refine sound.law.own user other member otherName otherLib otherData ?_
              split at cached
              · rename_i caller
                subst caller
                rwa [kept fun same => own ⟨rfl, same⟩] at cached
              · exact cached }
      issued := by rw [library]; exact sound.issued
      apart := by rw [library]; exact sound.apart
      finished := fun user compilation member => by
        rw [completed] at member
        rw [library]
        rcases List.mem_append.mp member with old | new
        · exact sound.finished user compilation old
        · split at new
          · rcases added with ⟨none, -⟩ | ⟨other, made, -, added, -⟩
            · simp [none] at new
            · rw [added, List.mem_singleton] at new
              exact ⟨libId, new ▸ made⟩
          · cases new
      entries := by rw [library, source]; exact sound.entries
      current := by rw [library]; exact sound.current
      old := fun user funcId cached => by
        rw [states] at cached
        split at cached
        · rename_i caller
          subst caller
          by_cases same : funcId = handle.compiled.function.funcId
          · rw [same]
            exact sound.steady.numbers.issued handle admitted.2
          · rw [kept same] at cached
            exact sound.old _ funcId cached
        · exact sound.old user funcId cached }

end Call

/-- Every request keeps what the law rests on. -/
theorem initialisationSound_step (request : Request) (sound : system.InitialisationSound record)
    (admitted : system.Admits request) :
    (system.step rt request).InitialisationSound (system.noteLoads rt request record) := by
  cases request with
  | compile type code fuel topLevel => exact initialisationSound_compile sound admitted
  | call username handle keys args load body =>
      cases data : handle.compiled.function.data with
      | functionRef name libId => exact initialisationSound_call sound admitted data
      | source text =>
          have eval : handle.type = .eval := by simp [Held.type, data]
          simp only [noteLoads, data]
          exact sound.of_same (steady_step _ sound.steady admitted) (fun _ member _ => member) rfl
            rfl le_rfl le_rfl (fun _ lib found => ⟨lib, found, rfl⟩)
            (fun user funcId => by rw [functionState_call_eval eval])
            (fun user libId => by rw [functionState_call_eval eval])
  | free handle => exact initialisationSound_free sound admitted
  | reset type async insecure => exact initialisationSound_reset sound admitted

end Steps

/-- In every run, whatever the server compiles, calls, frees and resets, libraries are
initialised at most once in every user's function state, exactly once when a function was
resolved from them there, and never count as loaded in place of another. -/
theorem initialised_once_throughout (rt : Runtime) (enableFfiApi : Bool) (requests : List Request)
    (run : (machine rt).Run (initial enableFfiApi) requests) :
    ((machine rt).recorded (noteLoads rt)).Visits
      (fun both => both.1.InitialisationLaw both.2)
      (initial enableFfiApi, LoadRecord.start) requests := by
  have recordedRun : ((machine rt).recorded (noteLoads rt)).Run
      (initial enableFfiApi, LoadRecord.start) requests := InputMachine.along_recorded.mpr run
  have kept (both : System × LoadRecord) (request : Request)
      (sound : both.1.InitialisationSound both.2)
      (admitted : ((machine rt).recorded (noteLoads rt)).Admits both request) (_ : True) :
      (((machine rt).recorded (noteLoads rt)).step both request).1.InitialisationSound
        (((machine rt).recorded (noteLoads rt)).step both request).2 :=
    initialisationSound_step request sound admitted
  have sound := recordedRun.visits kept (initial_initialisationSound enableFfiApi)
    (recordedRun.mono fun _ _ _ => trivial)
  exact sound.mono fun _ here => here.law

/-- A library is loaded by a call, the libraries are reset, another library with the same
id is compiled, and the user calls its function. -/
def reloadAfterReset : List Request :=
  callOnce idleBody ++ [.reset .function false false, .compile .function [2] 1 registersOne,
    .call [] secondHandle [] [] loadsOne idleBody]

/-- The second library is initialised although one with its id had been. -/
theorem reload_after_reset_initialises :
    ((machine .plain).recorded (noteLoads .plain)).Visits
      (fun both => both.1.InitialisationLaw both.2) (initial false, LoadRecord.start)
      reloadAfterReset := by
  have run : (machine .plain).Run (initial false) reloadAfterReset := by decide +kernel
  exact initialised_once_throughout .plain false reloadAfterReset run

example : (((machine .plain).recorded (noteLoads .plain)).after (initial false, LoadRecord.start)
    reloadAfterReset).2.completed [] = [1] := by decide +kernel

end System

end ValkeyLuajit
