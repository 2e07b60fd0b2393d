import ValkeyLuajit.Engine.System

/-!
# The lifetime of libraries

The dictionary should have an entry for a library as long as the server holds a
function of it, with the number of these functions as its count. The three
operations that keep the count know a library by its id alone, and a reset starts
the ids over while the server may still hold functions of before.
-/

namespace ValkeyLuajit

open Lua

namespace System

/-- How many functions the server holds of the compilation that made this one. -/
def siblings (system : System) (handle : Held) : Nat :=
  system.held.countP fun other => other.compilation = handle.compilation

/-- The handle is of a library loaded since the last reset of the libraries. -/
def CurrentIn (system : System) (libId : Nat) (handle : Held) : Prop :=
  handle ∈ system.held ∧ handle.libId = some libId ∧ handle.generation = system.generation

/-- The dictionary has the library of every such function, with the number of its
siblings as the count. -/
def Counted (system : System) : Prop :=
  ∀ libId handle, system.CurrentIn libId handle →
    ∃ lib, system.ctx.libraries.lookup libId = some lib ∧ lib.code = handle.source ∧
      lib.refCount = system.siblings handle

/-- The dictionary has an entry for a library exactly as long as the server holds a
function of that very compilation, no reset having come since, and the entry's
count is the number of these functions. -/
structure LibraryLaw (system : System) : Prop where
  counted : system.Counted
  owned : ∀ libId ∈ system.ctx.libraries, ∃ handle, system.CurrentIn libId handle

/-- The numbers the engine and the server give out. -/
structure Numbering (system : System) : Prop where
  funcIds : (system.held.map fun handle => handle.compiled.function.funcId).Nodup
  issued : ∀ handle ∈ system.held, handle.compiled.function.funcId ≤ system.ctx.nextFuncId
  compilations : ∀ handle ∈ system.held, handle.compilation < system.compilations
  generations : ∀ handle ∈ system.held, handle.generation ≤ system.generation
  libIds : ∀ libId handle, system.CurrentIn libId handle → libId ≤ system.ctx.nextLibId
  entries : ∀ libId ∈ system.ctx.libraries, libId ≤ system.ctx.nextLibId
  sameCompilation : ∀ first ∈ system.held, ∀ second ∈ system.held,
    first.compilation = second.compilation →
      first.libId = second.libId ∧ first.generation = second.generation ∧
        first.source = second.source
  sameLibrary : ∀ first ∈ system.held, ∀ second ∈ system.held, ∀ libId,
    first.libId = some libId → second.libId = some libId →
      first.generation = second.generation → first.compilation = second.compilation

/-- The request keeps the dictionary in line: a library that loads registers at least
one function and fewer than 2^31, and a function of before the last reset of the
libraries is freed only when no library has its id by then. -/
def KeepsLibraries (rt : Runtime) (system : System) : Request → Prop
  | .compile type code fuel topLevel =>
      type ≠ .eval → ∀ count, registeredCount rt fuel code topLevel = some count →
        0 < count ∧ count < 2 ^ 31
  | .free handle =>
      ∀ libId, handle.libId = some libId →
        handle.generation = system.generation ∨ libId ∉ system.ctx.libraries
  | _ => True

/-- Nothing has been numbered at the start. -/
theorem initial_numbering (enableFfiApi : Bool) : (initial enableFfiApi).Numbering := by
  constructor <;> simp [initial, createEngineContext, CurrentIn]

/-- Nor is there anything to count. -/
theorem initial_counted (enableFfiApi : Bool) : (initial enableFfiApi).Counted := by
  simp [Counted, initial, CurrentIn]

/-- The law holds at the start. -/
theorem initial_libraryLaw (enableFfiApi : Bool) : (initial enableFfiApi).LibraryLaw :=
  ⟨initial_counted enableFfiApi, by simp [initial, createEngineContext]⟩

/-- The handles of a compilation. -/
def newHandles (system : System) (code : Bytes) (functions : List CompiledFunction) : List Held :=
  functions.map fun compiled => ⟨compiled, code, system.compilations, system.generation⟩

/-- Two states that differ in nothing the count of libraries depends on. -/
structure SameLibraries (before after : System) : Prop where
  libraries : after.ctx.libraries = before.ctx.libraries
  nextLibId : after.ctx.nextLibId = before.ctx.nextLibId
  nextFuncId : after.ctx.nextFuncId = before.ctx.nextFuncId
  held : after.held = before.held
  generation : after.generation = before.generation
  compilations : before.compilations ≤ after.compilations

/-- The handles of current libraries are the same. -/
theorem SameLibraries.currentIn {before after : System} (same : SameLibraries before after)
    (libId : Nat) (handle : Held) : after.CurrentIn libId handle ↔ before.CurrentIn libId handle := by
  simp [CurrentIn, same.held, same.generation]

/-- The counts are right in both states or in neither. -/
theorem SameLibraries.counted_iff {before after : System} (same : SameLibraries before after) :
    after.Counted ↔ before.Counted := by
  have siblings (handle : Held) : after.siblings handle = before.siblings handle := by
    simp [System.siblings, same.held]
  simp only [Counted, same.currentIn, same.libraries, siblings]

/-- The law holds in both states or in neither. -/
theorem SameLibraries.law_iff {before after : System} (same : SameLibraries before after) :
    after.LibraryLaw ↔ before.LibraryLaw := by
  constructor
  · rintro ⟨counted, owned⟩
    simp only [same.currentIn, same.libraries] at owned
    exact ⟨same.counted_iff.mp counted, owned⟩
  · rintro ⟨counted, owned⟩
    refine ⟨same.counted_iff.mpr counted, ?_⟩
    simpa only [same.currentIn, same.libraries]

/-- The numbering stays sound. -/
theorem SameLibraries.numbering {before after : System} (same : SameLibraries before after)
    (numbers : before.Numbering) : after.Numbering where
  funcIds := by simpa only [same.held] using numbers.funcIds
  issued := by simpa only [same.held, same.nextFuncId] using numbers.issued
  compilations := by
    intro handle member
    rw [same.held] at member
    exact lt_of_lt_of_le (numbers.compilations handle member) same.compilations
  generations := by simpa only [same.held, same.generation] using numbers.generations
  libIds := by simpa only [same.currentIn, same.nextLibId] using numbers.libIds
  entries := by simpa only [same.libraries, same.nextLibId] using numbers.entries
  sameCompilation := by simpa only [same.held] using numbers.sameCompilation
  sameLibrary := by simpa only [same.held] using numbers.sameLibrary

/-- A compilation without an answer leaves the libraries alone. -/
theorem step_compile_error {rt : Runtime} {system : System} {type : SubsystemType} {code : Bytes}
    {fuel : Nat} {topLevel : ScriptRun}
    (failed : ∀ after functions, luajitEngineCompileCode rt system.ctx type code fuel topLevel ≠
      some (after, .ok functions)) :
    SameLibraries system (system.step rt (.compile type code fuel topLevel)) := by
  cases run : luajitEngineCompileCode rt system.ctx type code fuel topLevel with
  | none => constructor <;> simp [step, run]
  | some answer =>
      obtain ⟨after, message | functions⟩ := answer
      · obtain rfl := luajitEngineCompileCode_error run
        constructor <;> simp [step, run]
      · exact absurd run (failed after functions)

/-- A call leaves the libraries alone. -/
theorem step_call {rt : Runtime} {system : System} {username : Bytes} {handle : Held}
    {keys args : List Bytes} {load body : ScriptRun} :
    SameLibraries system (system.step rt (.call username handle keys args load body)) := by
  constructor <;> simp [step, ValkeyLuajit.callCtx]

/-- A reset of the EVAL subsystem leaves the libraries alone. -/
theorem step_reset_eval {rt : Runtime} {system : System} {async insecure : Bool} :
    SameLibraries system (system.step rt (.reset .eval async insecure)) := by
  constructor <;> simp [step, luajitEngineResetEnv, resetLibraries, dropsLibraries]

/-- The state after a compilation that succeeds. -/
def compiled (system : System) (after : EngineCtx) (code : Bytes)
    (functions : List CompiledFunction) : System :=
  { system with
    ctx := after
    held := system.held ++ system.newHandles code functions
    compilations := system.compilations + 1 }

/-- A compilation that succeeds adds its functions. -/
theorem step_compile_ok {rt : Runtime} {system : System} {type : SubsystemType} {code : Bytes}
    {fuel : Nat} {topLevel : ScriptRun} {after : EngineCtx} {functions : List CompiledFunction}
    (run : luajitEngineCompileCode rt system.ctx type code fuel topLevel =
      some (after, .ok functions)) :
    system.step rt (.compile type code fuel topLevel) = system.compiled after code functions := by
  simp [step, run, compiled, newHandles]

/-- A compilation adds the functions it answers with, or it leaves the libraries alone. -/
theorem step_compile_cases (rt : Runtime) (system : System) (type : SubsystemType) (code : Bytes)
    (fuel : Nat) (topLevel : ScriptRun) :
    (∃ after functions,
      luajitEngineCompileCode rt system.ctx type code fuel topLevel = some (after, .ok functions) ∧
        system.step rt (.compile type code fuel topLevel) = system.compiled after code functions) ∨
      (∀ after functions, luajitEngineCompileCode rt system.ctx type code fuel topLevel ≠
        some (after, .ok functions)) ∧
        SameLibraries system (system.step rt (.compile type code fuel topLevel)) := by
  by_cases succeeds : ∃ after functions,
      luajitEngineCompileCode rt system.ctx type code fuel topLevel = some (after, .ok functions)
  · obtain ⟨after, functions, run⟩ := succeeds
    exact .inl ⟨after, functions, run, step_compile_ok run⟩
  · have fails after functions run := succeeds ⟨after, functions, run⟩
    exact .inr ⟨fails, step_compile_error fails⟩

section Compiled

variable {system : System} {after : EngineCtx} {code : Bytes} {functions : List CompiledFunction}

/-- There is a new handle for each function. -/
theorem mem_newHandles {handle : Held} : handle ∈ system.newHandles code functions ↔
    ∃ function ∈ functions,
      handle = ⟨function, code, system.compilations, system.generation⟩ := by
  simp [newHandles, eq_comm]

/-- A handle from before has the siblings it had. -/
theorem siblings_compiled_old (numbers : system.Numbering) {handle : Held}
    (member : handle ∈ system.held) :
    (system.compiled after code functions).siblings handle = system.siblings handle := by
  have below := numbers.compilations handle member
  have none : (system.newHandles code functions).countP
      (fun other => other.compilation = handle.compilation) = 0 := by
    rw [List.countP_eq_zero]
    intro other new
    obtain ⟨function, -, rfl⟩ := mem_newHandles.mp new
    simp only [decide_eq_true_eq]
    omega
  simp only [siblings, compiled, List.countP_append, none, Nat.add_zero]

/-- The handles of a compilation are each other's siblings. -/
theorem siblings_compiled_new (numbers : system.Numbering) {handle : Held}
    (member : handle ∈ system.newHandles code functions) :
    (system.compiled after code functions).siblings handle = functions.length := by
  obtain ⟨function, -, rfl⟩ := mem_newHandles.mp member
  have none : system.held.countP
      (fun other => other.compilation = system.compilations) = 0 := by
    rw [List.countP_eq_zero]
    intro other old
    have below := numbers.compilations other old
    simp only [decide_eq_true_eq]
    omega
  have all : (system.newHandles code functions).countP
      (fun other => other.compilation = system.compilations) = functions.length := by
    rw [List.countP_eq_length.mpr]
    · simp [newHandles]
    · intro other new
      obtain ⟨function, -, rfl⟩ := mem_newHandles.mp new
      simp
  simp only [siblings, compiled, List.countP_append, none, all, Nat.zero_add]

/-- A handle of a current library is an old one, or a new one of the new library. -/
theorem currentIn_compiled {libId : Nat} {handle : Held} :
    (system.compiled after code functions).CurrentIn libId handle ↔
      system.CurrentIn libId handle ∨
        handle ∈ system.newHandles code functions ∧ handle.libId = some libId := by
  simp only [CurrentIn, compiled, List.mem_append]
  constructor
  · rintro ⟨old | new, library, current⟩
    · exact .inl ⟨old, library, current⟩
    · exact .inr ⟨new, library⟩
  · rintro (⟨old, library, current⟩ | ⟨new, library⟩)
    · exact ⟨.inl old, library, current⟩
    · obtain ⟨function, -, rfl⟩ := mem_newHandles.mp new
      exact ⟨.inr new, library, rfl⟩

/-- What the numbering needs to know of a compilation: the library of its functions,
if they have one, is newer than all others. -/
structure Fresh (system : System) (after : EngineCtx) (code : Bytes)
    (functions : List CompiledFunction) (library : Option Nat) : Prop where
  funcIds : functions.map (fun function => function.function.funcId) =
    List.range' (system.ctx.nextFuncId + 1) functions.length
  nextFuncId : after.nextFuncId = system.ctx.nextFuncId + functions.length
  nextLibId : system.ctx.nextLibId ≤ after.nextLibId
  entries : ∀ libId ∈ after.libraries, libId ∈ system.ctx.libraries ∨ library = some libId
  named : ∀ handle ∈ system.newHandles code functions, handle.libId = library
  newer : ∀ libId, library = some libId → libId = system.ctx.nextLibId + 1 ∧
    libId ≤ after.nextLibId

/-- The numbering survives a compilation. -/
theorem numbering_compiled {library : Option Nat} (numbers : system.Numbering)
    (fresh : Fresh system after code functions library) :
    (system.compiled after code functions).Numbering where
  funcIds := by
    have ids : (system.newHandles code functions).map
        (fun handle => handle.compiled.function.funcId) =
          List.range' (system.ctx.nextFuncId + 1) functions.length := by
      rw [← fresh.funcIds, newHandles, List.map_map]
      rfl
    simp only [compiled, List.map_append, ids]
    refine List.nodup_append'.mpr ⟨numbers.funcIds, List.nodup_range', ?_⟩
    intro funcId old new
    obtain ⟨handle, member, rfl⟩ := List.mem_map.mp old
    have issued := numbers.issued handle member
    have above := (List.mem_range'_1.mp new).1
    omega
  issued := by
    intro handle member
    simp only [compiled, fresh.nextFuncId] at member ⊢
    rcases List.mem_append.mp member with old | new
    · exact le_trans (numbers.issued handle old) (Nat.le_add_right _ _)
    · obtain ⟨function, inFunctions, rfl⟩ := mem_newHandles.mp new
      have inIds : function.function.funcId ∈
          functions.map fun function => function.function.funcId :=
        List.mem_map_of_mem inFunctions
      rw [fresh.funcIds, List.mem_range'_1] at inIds
      simp only
      omega
  compilations := by
    intro handle member
    simp only [compiled] at member ⊢
    rcases List.mem_append.mp member with old | new
    · exact Nat.lt_succ_of_lt (numbers.compilations handle old)
    · obtain ⟨function, -, rfl⟩ := mem_newHandles.mp new
      exact Nat.lt_succ_self _
  generations := by
    intro handle member
    simp only [compiled] at member ⊢
    rcases List.mem_append.mp member with old | new
    · exact numbers.generations handle old
    · obtain ⟨function, -, rfl⟩ := mem_newHandles.mp new
      exact le_rfl
  libIds := by
    intro libId handle current
    rcases currentIn_compiled.mp current with old | ⟨new, named⟩
    · exact le_trans (numbers.libIds libId handle old) fresh.nextLibId
    · rw [fresh.named handle new] at named
      exact (fresh.newer libId named).2
  entries := by
    intro libId member
    rcases fresh.entries libId member with old | new
    · exact le_trans (numbers.entries libId old) fresh.nextLibId
    · exact (fresh.newer libId new).2
  sameCompilation := by
    intro first firstMember second secondMember same
    simp only [compiled] at firstMember secondMember
    rcases List.mem_append.mp firstMember with firstOld | firstNew <;>
      rcases List.mem_append.mp secondMember with secondOld | secondNew
    · exact numbers.sameCompilation first firstOld second secondOld same
    · have below := numbers.compilations first firstOld
      obtain ⟨function, -, rfl⟩ := mem_newHandles.mp secondNew
      simp only at same
      omega
    · have below := numbers.compilations second secondOld
      obtain ⟨function, -, rfl⟩ := mem_newHandles.mp firstNew
      simp only at same
      omega
    · refine ⟨by rw [fresh.named first firstNew, fresh.named second secondNew], ?_⟩
      obtain ⟨left, -, rfl⟩ := mem_newHandles.mp firstNew
      obtain ⟨right, -, rfl⟩ := mem_newHandles.mp secondNew
      exact ⟨rfl, rfl⟩
  sameLibrary := by
    intro first firstMember second secondMember libId firstNamed secondNamed same
    simp only [compiled] at firstMember secondMember
    -- A new library's id is above those of its generation, so no old function has it.
    have apart {old new : Held} (inOld : old ∈ system.held)
        (inNew : new ∈ system.newHandles code functions) (oldNamed : old.libId = some libId)
        (newNamed : new.libId = some libId) (generation : old.generation = new.generation) :
        False := by
      rw [fresh.named new inNew] at newNamed
      obtain ⟨function, -, rfl⟩ := mem_newHandles.mp inNew
      have below := numbers.libIds libId old ⟨inOld, oldNamed, generation⟩
      have newer := (fresh.newer libId newNamed).1
      omega
    rcases List.mem_append.mp firstMember with firstOld | firstNew <;>
      rcases List.mem_append.mp secondMember with secondOld | secondNew
    · exact numbers.sameLibrary first firstOld second secondOld libId firstNamed secondNamed same
    · exact (apart firstOld secondNew firstNamed secondNamed same).elim
    · exact (apart secondOld firstNew secondNamed firstNamed same.symm).elim
    · obtain ⟨left, -, rfl⟩ := mem_newHandles.mp firstNew
      obtain ⟨right, -, rfl⟩ := mem_newHandles.mp secondNew
      rfl

/-- The handles of an EVAL script are of no library. -/
theorem fresh_eval
    (funcIds : functions.map (fun function => function.function.funcId) =
      List.range' (system.ctx.nextFuncId + 1) functions.length)
    (data : functions.map (fun function => function.function.data) = [.source code])
    (ctx : after = { system.ctx with
      nextFuncId := system.ctx.nextFuncId + functions.length }) :
    Fresh system after code functions none where
  funcIds := funcIds
  nextFuncId := by rw [ctx]
  nextLibId := by rw [ctx]
  entries := by
    intro libId member
    rw [ctx] at member
    exact .inl member
  named := by
    intro handle new
    obtain ⟨function, inFunctions, rfl⟩ := mem_newHandles.mp new
    have text := List.mem_map_of_mem
      (f := fun function : CompiledFunction => function.function.data) inFunctions
    rw [data, List.mem_singleton] at text
    simp [Held.libId, text]
  newer := by simp

/-- The handles of a library are of one that is newer than all others. -/
theorem fresh_library
    (funcIds : functions.map (fun function => function.function.funcId) =
      List.range' (system.ctx.nextFuncId + 1) functions.length)
    (refs : ∀ function ∈ functions, ∃ name,
      function.function.data = .functionRef name (system.ctx.nextLibId + 1))
    (ctx : after = { addLibrary system.ctx code functions.length with
      nextFuncId := system.ctx.nextFuncId + functions.length }) :
    Fresh system after code functions (some (system.ctx.nextLibId + 1)) where
  funcIds := funcIds
  nextFuncId := by rw [ctx]
  nextLibId := by simp [ctx, addLibrary]
  entries := by
    intro libId member
    by_cases new : libId = system.ctx.nextLibId + 1
    · exact .inr (by rw [new])
    · refine .inl (AList.lookup_isSome.mp ?_)
      have found := AList.lookup_isSome.mpr member
      simpa only [ctx, addLibrary, AList.lookup_insertNew_of_ne _ new] using found
  named := by
    intro handle new
    obtain ⟨function, inFunctions, rfl⟩ := mem_newHandles.mp new
    obtain ⟨name, reference⟩ := refs function inFunctions
    simp [Held.libId, reference]
  newer := by
    rintro libId ⟨⟩
    exact ⟨rfl, by simp [ctx, addLibrary]⟩

/-- A compilation of EVAL code adds no function of a library. -/
theorem currentIn_compiled_eval (fresh : Fresh system after code functions none) {libId : Nat}
    {handle : Held} : (system.compiled after code functions).CurrentIn libId handle ↔
      system.CurrentIn libId handle := by
  rw [currentIn_compiled]
  constructor
  · rintro (old | ⟨new, named⟩)
    · exact old
    · simp [fresh.named handle new] at named
  · exact .inl

/-- An EVAL script changes no count. -/
theorem counted_compiled_eval (numbers : system.Numbering) (counted : system.Counted)
    (fresh : Fresh system after code functions none)
    (libraries : after.libraries = system.ctx.libraries) :
    (system.compiled after code functions).Counted := by
  intro libId handle inNew
  have old := (currentIn_compiled_eval fresh).mp inNew
  rw [siblings_compiled_old numbers old.1]
  simpa only [compiled, libraries] using counted libId handle old

/-- A compilation of EVAL code keeps the law. -/
theorem libraryLaw_compiled_eval (numbers : system.Numbering) (law : system.LibraryLaw)
    (fresh : Fresh system after code functions none)
    (libraries : after.libraries = system.ctx.libraries) :
    (system.compiled after code functions).LibraryLaw := by
  refine ⟨counted_compiled_eval numbers law.counted fresh libraries, ?_⟩
  intro libId member
  simp only [compiled, libraries] at member
  obtain ⟨handle, old⟩ := law.owned libId member
  exact ⟨handle, (currentIn_compiled_eval fresh).mpr old⟩

/-- The count of a new entry is the number of functions when this fits an `int`. -/
theorem sizeToInt_eq_iff {size : Nat} : sizeToInt size = size ↔ size < 2 ^ 31 := by
  unfold sizeToInt
  constructor
  · intro same
    have below : Int.bmod size (2 ^ 32) < 2 ^ 31 := by
      have bound := Int.bmod_lt (x := (size : Int)) (m := 2 ^ 32) (by decide)
      omega
    omega
  · intro fits
    exact Int.bmod_eq_of_le (by omega) (by omega)

/-- The entry of a new library, beside those there were. -/
theorem lookup_compiled_library (numbers : system.Numbering)
    (ctx : after = { addLibrary system.ctx code functions.length with
      nextFuncId := system.ctx.nextFuncId + functions.length }) (libId : Nat) :
    after.libraries.lookup libId =
      if libId = system.ctx.nextLibId + 1 then
        some ⟨code, libId, bytes "lib_" ++ decimal libId, sizeToInt functions.length⟩
      else system.ctx.libraries.lookup libId := by
  rw [ctx]
  split
  · subst libId
    refine AList.lookup_insertNew_self _ fun member => ?_
    have := numbers.entries _ member
    omega
  · exact AList.lookup_insertNew_of_ne _ ‹_›

/-- A library that loads is counted right when its number of functions fits the count. -/
theorem counted_compiled_library (numbers : system.Numbering) (counted : system.Counted)
    (fresh : Fresh system after code functions (some (system.ctx.nextLibId + 1)))
    (ctx : after = { addLibrary system.ctx code functions.length with
      nextFuncId := system.ctx.nextFuncId + functions.length })
    (fits : functions.length < 2 ^ 31) : (system.compiled after code functions).Counted := by
  have lookup := lookup_compiled_library numbers ctx
  intro libId handle current
  rcases currentIn_compiled.mp current with old | ⟨new, named⟩
  · have below := numbers.libIds libId handle old
    rw [siblings_compiled_old numbers old.1]
    simp only [compiled]
    rw [lookup, if_neg (by omega)]
    exact counted libId handle old
  · rw [fresh.named handle new, Option.some.injEq] at named
    refine ⟨_, (lookup libId).trans (if_pos named.symm), ?_, ?_⟩
    · obtain ⟨function, -, rfl⟩ := mem_newHandles.mp new
      rfl
    · simp only [siblings_compiled_new numbers new]
      exact sizeToInt_eq_iff.mpr fits

/-- A library that loads keeps the law exactly when its number of functions is
positive and fits the count. -/
theorem libraryLaw_compiled_library (numbers : system.Numbering) (law : system.LibraryLaw)
    (fresh : Fresh system after code functions (some (system.ctx.nextLibId + 1)))
    (ctx : after = { addLibrary system.ctx code functions.length with
      nextFuncId := system.ctx.nextFuncId + functions.length }) :
    (system.compiled after code functions).LibraryLaw ↔
      0 < functions.length ∧ functions.length < 2 ^ 31 := by
  have own := (lookup_compiled_library numbers ctx (system.ctx.nextLibId + 1)).trans (if_pos rfl)
  constructor
  · intro keeps
    obtain ⟨handle, current⟩ := keeps.owned (system.ctx.nextLibId + 1)
      (AList.lookup_isSome.mp (by simp [compiled, own]))
    rcases currentIn_compiled.mp current with old | ⟨new, -⟩
    · have below := numbers.libIds _ handle old
      omega
    · obtain ⟨lib, found, -, count⟩ := keeps.counted _ handle current
      have entry := found.symm.trans own
      rw [Option.some.injEq] at entry
      simp only [siblings_compiled_new numbers new, entry] at count
      refine ⟨?_, sizeToInt_eq_iff.mp count⟩
      obtain ⟨function, inFunctions, -⟩ := mem_newHandles.mp new
      exact List.length_pos_of_mem inFunctions
  · rintro ⟨positive, fits⟩
    refine ⟨counted_compiled_library numbers law.counted fresh ctx fits, ?_⟩
    intro libId member
    rcases fresh.entries libId member with old | new
    · obtain ⟨handle, current⟩ := law.owned libId old
      exact ⟨handle, currentIn_compiled.mpr (.inl current)⟩
    · obtain ⟨function, inFunctions⟩ := List.exists_mem_of_length_pos positive
      have inNew : ⟨function, code, system.compilations, system.generation⟩ ∈
          system.newHandles code functions := mem_newHandles.mpr ⟨function, inFunctions, rfl⟩
      exact ⟨_, currentIn_compiled.mpr (.inr ⟨inNew, (fresh.named _ inNew).trans new⟩)⟩

end Compiled

section Freed

variable {rt : Runtime} {system : System} {handle : Held}

/-- The handle is gone. -/
theorem step_free_held : (system.step rt (.free handle)).held = system.held.erase handle := rfl

/-- What freeing does to the dictionary. -/
theorem step_free_libraries : (system.step rt (.free handle)).ctx.libraries =
    match handle.libId with
    | none => system.ctx.libraries
    | some libId => releaseLibrary system.ctx.libraries libId := by
  simp only [step, luajitEngineFreeFunction, Held.libId]
  cases handle.compiled.function.data <;> rfl

/-- No number is given back. -/
theorem step_free_nextIds :
    (system.step rt (.free handle)).ctx.nextFuncId = system.ctx.nextFuncId ∧
      (system.step rt (.free handle)).ctx.nextLibId = system.ctx.nextLibId := by
  simp only [step, luajitEngineFreeFunction]
  cases handle.compiled.function.data <;> exact ⟨rfl, rfl⟩

/-- The handles the server holds are distinct. -/
theorem Numbering.held_nodup (numbers : system.Numbering) : system.held.Nodup :=
  List.Nodup.of_map _ numbers.funcIds

/-- A handle that is still held is another one than the one freed. -/
theorem mem_step_free (numbers : system.Numbering) {other : Held} :
    other ∈ (system.step rt (.free handle)).held ↔ other ≠ handle ∧ other ∈ system.held := by
  rw [step_free_held, numbers.held_nodup.mem_erase_iff]

/-- The other handles of current libraries are the same. -/
theorem currentIn_free (numbers : system.Numbering) {libId : Nat} {other : Held} :
    (system.step rt (.free handle)).CurrentIn libId other ↔
      other ≠ handle ∧ system.CurrentIn libId other := by
  simp only [CurrentIn, mem_step_free numbers, and_assoc]
  rfl

/-- Freeing a function takes one from the number of its siblings. -/
theorem siblings_free (member : handle ∈ system.held) (other : Held) :
    (system.step rt (.free handle)).siblings other =
      system.siblings other - if handle.compilation = other.compilation then 1 else 0 := by
  have split := (List.perm_cons_erase member).countP_eq
    fun another => decide (another.compilation = other.compilation)
  rw [List.countP_cons] at split
  rw [siblings, siblings, step_free_held, split]
  by_cases same : handle.compilation = other.compilation <;> simp [same]

/-- Freeing keeps the numbering sound. -/
theorem numbering_free (numbers : system.Numbering) :
    (system.step rt (.free handle)).Numbering where
  funcIds := (List.erase_sublist.map _).nodup numbers.funcIds
  issued := by
    intro other inNew
    rw [step_free_nextIds.1]
    exact numbers.issued other ((mem_step_free numbers).mp inNew).2
  compilations := fun other inNew =>
    numbers.compilations other ((mem_step_free numbers).mp inNew).2
  generations := fun other inNew =>
    numbers.generations other ((mem_step_free numbers).mp inNew).2
  libIds := by
    intro libId other current
    rw [step_free_nextIds.2]
    exact numbers.libIds libId other ((currentIn_free numbers).mp current).2
  entries := by
    intro libId inNew
    rw [step_free_nextIds.2]
    rw [step_free_libraries] at inNew
    split at inNew
    · exact numbers.entries libId inNew
    · exact numbers.entries libId (mem_of_mem_releaseLibrary inNew)
  sameCompilation := fun first firstNew second secondNew =>
    numbers.sameCompilation first ((mem_step_free numbers).mp firstNew).2
      second ((mem_step_free numbers).mp secondNew).2
  sameLibrary := fun first firstNew second secondNew =>
    numbers.sameLibrary first ((mem_step_free numbers).mp firstNew).2
      second ((mem_step_free numbers).mp secondNew).2

section Apart

variable (numbers : system.Numbering) (member : handle ∈ system.held)
  (libraries : (system.step rt (.free handle)).ctx.libraries = system.ctx.libraries)
  (apart : ∀ libId, ¬ system.CurrentIn libId handle)
include numbers member libraries apart

/-- A function whose library is not in the dictionary, or an EVAL script, is freed
without a change to the count of any current library. -/
theorem counted_free_apart (counted : system.Counted) :
    (system.step rt (.free handle)).Counted := by
  intro libId other current
  obtain ⟨-, old⟩ := (currentIn_free numbers).mp current
  have differ : handle.compilation ≠ other.compilation := by
    intro same
    obtain ⟨library, generation, -⟩ := numbers.sameCompilation handle member other old.1 same
    exact apart libId ⟨member, library.trans old.2.1, generation.trans old.2.2⟩
  rw [libraries, siblings_free member, if_neg differ]
  exact counted libId other old

/-- Freeing such a function keeps the law. -/
theorem libraryLaw_free_apart (law : system.LibraryLaw) :
    (system.step rt (.free handle)).LibraryLaw := by
  refine ⟨counted_free_apart numbers member libraries apart law.counted, ?_⟩
  intro libId inNew
  rw [libraries] at inNew
  obtain ⟨other, old⟩ := law.owned libId inNew
  refine ⟨other, (currentIn_free numbers).mpr ⟨?_, old⟩⟩
  rintro rfl
  exact apart libId old

end Apart

section Current

variable {libId : Nat} (numbers : system.Numbering) (current : system.CurrentIn libId handle)
include numbers current

/-- Functions of other libraries come from other compilations. -/
theorem compilation_ne {otherLib : Nat} {other : Held} (ne : otherLib ≠ libId)
    (old : system.CurrentIn otherLib other) : handle.compilation ≠ other.compilation := by
  intro same
  have library := (numbers.sameCompilation handle current.1 other old.1 same).1
  rw [current.2.1, old.2.1, Option.some.injEq] at library
  exact ne library.symm

variable (rt) in
omit numbers in
/-- One function of the compilation fewer is held. -/
theorem siblings_free_current {other : Held} (same : handle.compilation = other.compilation) :
    (system.step rt (.free handle)).siblings other = system.siblings handle - 1 := by
  rw [siblings_free current.1, if_pos same, siblings, siblings, same]

omit numbers in
/-- A function that is held is one of its siblings. -/
theorem siblings_pos : 0 < system.siblings handle :=
  List.countP_pos_iff.mpr ⟨handle, current.1, by simp⟩

/-- A function of a current library is freed with its count. -/
theorem counted_free_current (counted : system.Counted) :
    (system.step rt (.free handle)).Counted := by
  obtain ⟨lib, found, source, count⟩ := counted libId handle current
  have held := siblings_pos current
  intro otherLib other inNew
  obtain ⟨ne, old⟩ := (currentIn_free numbers).mp inNew
  rw [step_free_libraries, current.2.1]
  by_cases same : otherLib = libId
  · subst same
    have together : handle.compilation = other.compilation :=
      numbers.sameLibrary handle current.1 other old.1 otherLib current.2.1 old.2.1
        (current.2.2.trans old.2.2.symm)
    have left := siblings_free_current rt current together
    have positive : 0 < (system.step rt (.free handle)).siblings other :=
      List.countP_pos_iff.mpr ⟨other, inNew.1, by simp⟩
    simp only [lookup_releaseLibrary_self found]
    rw [if_neg (by omega)]
    have origin := (numbers.sameCompilation handle current.1 other old.1 together).2.2
    refine ⟨_, rfl, source.trans origin, ?_⟩
    simp only
    omega
  · simp only [lookup_releaseLibrary_of_ne same]
    rw [siblings_free current.1, if_neg (compilation_ne numbers current same old)]
    exact counted otherLib other old

/-- Freeing a function of a current library keeps the law: its last function takes the library
with it. -/
theorem libraryLaw_free_current (law : system.LibraryLaw) :
    (system.step rt (.free handle)).LibraryLaw := by
  refine ⟨counted_free_current numbers current law.counted, ?_⟩
  obtain ⟨lib, found, -, count⟩ := law.counted libId handle current
  have held := siblings_pos current
  intro otherLib inNew
  simp only [step_free_libraries, current.2.1] at inNew
  by_cases same : otherLib = libId
  · subst same
    rw [← AList.lookup_isSome, lookup_releaseLibrary_self found] at inNew
    have more : lib.refCount - 1 ≠ 0 := by
      intro last
      simp [last] at inNew
    have positive : 0 < (system.step rt (.free handle)).siblings handle := by
      rw [siblings_free_current rt current rfl]
      omega
    obtain ⟨other, still, twin⟩ := List.countP_pos_iff.mp positive
    have old := (mem_step_free numbers).mp still
    have twin : other.compilation = handle.compilation := by simpa using twin
    obtain ⟨library, generation, -⟩ := numbers.sameCompilation other old.2 handle current.1 twin
    exact ⟨other, still, library.trans current.2.1, generation.trans current.2.2⟩
  · obtain ⟨other, old⟩ := law.owned otherLib (mem_of_mem_releaseLibrary inNew)
    refine ⟨other, (currentIn_free numbers).mpr ⟨?_, old⟩⟩
    rintro rfl
    exact compilation_ne numbers current same old rfl

end Current

/-- A late free under an id that is taken again breaks the count. -/
theorem libraryLaw_free_late (numbers : system.Numbering) (law : system.LibraryLaw)
    (member : handle ∈ system.held) {libId : Nat} (library : handle.libId = some libId)
    (late : handle.generation ≠ system.generation) (taken : libId ∈ system.ctx.libraries) :
    ¬ (system.step rt (.free handle)).LibraryLaw := by
  intro keeps
  obtain ⟨other, old⟩ := law.owned libId taken
  obtain ⟨lib, found, -, count⟩ := law.counted libId other old
  have differ : handle.compilation ≠ other.compilation := by
    intro same
    have generation := (numbers.sameCompilation handle member other old.1 same).2.1
    exact late (generation.trans old.2.2)
  have inNew : (system.step rt (.free handle)).CurrentIn libId other := by
    refine (currentIn_free numbers).mpr ⟨?_, old⟩
    rintro rfl
    exact differ rfl
  obtain ⟨after, foundAfter, -, countAfter⟩ := keeps.counted libId other inNew
  rw [siblings_free member, if_neg differ, Nat.sub_zero] at countAfter
  rw [step_free_libraries, library] at foundAfter
  simp only [lookup_releaseLibrary_self found] at foundAfter
  split at foundAfter
  · simp at foundAfter
  · rw [Option.some.injEq] at foundAfter
    subst foundAfter
    simp only at countAfter
    omega

end Freed

/-- A reset of the libraries leaves nothing to count. -/
theorem reset_drops {rt : Runtime} {system : System} {type : SubsystemType}
    {async insecure : Bool} (drops : dropsLibraries type = true) (numbers : system.Numbering) :
    (system.step rt (.reset type async insecure)).LibraryLaw ∧
      (system.step rt (.reset type async insecure)).Numbering := by
  have both : type = .function ∨ type = .all := by simpa [dropsLibraries] using drops
  have libraries : (system.step rt (.reset type async insecure)).ctx.libraries = ∅ := by
    simp [step, luajitEngineResetEnv, resetLibraries, both]
  have held : (system.step rt (.reset type async insecure)).held = system.held := rfl
  have funcIds : (system.step rt (.reset type async insecure)).ctx.nextFuncId =
      system.ctx.nextFuncId := by
    simp [step, luajitEngineResetEnv, resetLibraries, both]
  have generation : (system.step rt (.reset type async insecure)).generation =
      system.generation + 1 := by simp [step, drops]
  have stale (libId : Nat) (handle : Held) :
      ¬ (system.step rt (.reset type async insecure)).CurrentIn libId handle := by
    rintro ⟨member, -, current⟩
    have old := numbers.generations handle member
    rw [generation] at current
    omega
  refine ⟨⟨fun libId handle current => absurd current (stale libId handle), ?_⟩, ?_⟩
  · intro libId member
    simp [libraries] at member
  · exact
      { funcIds := numbers.funcIds
        issued := by simpa only [held, funcIds] using numbers.issued
        compilations := numbers.compilations
        generations := fun handle member => by
          rw [generation]
          exact Nat.le_succ_of_le (numbers.generations handle member)
        libIds := fun libId handle current => absurd current (stale libId handle)
        entries := fun libId member => by simp [libraries] at member
        sameCompilation := numbers.sameCompilation
        sameLibrary := numbers.sameLibrary }

/-- The numbering survives every request. -/
theorem numbering_step {rt : Runtime} {system : System} (request : Request)
    (numbers : system.Numbering) : (system.step rt request).Numbering := by
  cases request with
  | compile type code fuel topLevel =>
      obtain ⟨after, functions, run, made⟩ | ⟨-, same⟩ :=
        step_compile_cases rt system type code fuel topLevel
      · rw [made]
        obtain ⟨funcIds, ⟨-, data, ctx⟩ | ⟨-, -, refs, ctx⟩⟩ := luajitEngineCompileCode_ok run
        · exact numbering_compiled numbers (fresh_eval funcIds data ctx)
        · exact numbering_compiled numbers (fresh_library funcIds refs ctx)
      · exact same.numbering numbers
  | call username handle keys args load body => exact step_call.numbering numbers
  | free handle => exact numbering_free numbers
  | reset type async insecure =>
      cases type with
      | eval => exact step_reset_eval.numbering numbers
      | function => exact (reset_drops rfl numbers).2
      | all => exact (reset_drops rfl numbers).2

/-- A request keeps the law exactly when it keeps the dictionary in line. -/
theorem libraryLaw_step_iff {rt : Runtime} {system : System} (request : Request)
    (numbers : system.Numbering) (law : system.LibraryLaw) (admitted : system.Admits request) :
    (system.step rt request).LibraryLaw ↔ system.KeepsLibraries rt request := by
  cases request with
  | compile type code fuel topLevel =>
      obtain ⟨after, functions, run, made⟩ | ⟨fails, same⟩ :=
        step_compile_cases rt system type code fuel topLevel
      · rw [made]
        obtain ⟨funcIds, ⟨eval, data, ctx⟩ | ⟨library, registered, refs, ctx⟩⟩ :=
          luajitEngineCompileCode_ok run
        · have keeps := libraryLaw_compiled_eval numbers law (fresh_eval funcIds data ctx)
            (by rw [ctx])
          exact iff_of_true keeps fun library => absurd eval library
        · rw [libraryLaw_compiled_library numbers law (fresh_library funcIds refs ctx) ctx]
          simp only [KeepsLibraries, registered, Option.some.injEq, forall_eq', library,
            ne_eq, not_false_eq_true, forall_const]
      · refine iff_of_true (same.law_iff.mpr law) ?_
        intro library count registered
        obtain ⟨after, functions, run⟩ :=
          luajitEngineCompileCode_registered system.ctx library registered
        exact absurd run (fails after functions)
  | call username handle keys args load body =>
      exact iff_of_true (step_call.law_iff.mpr law) trivial
  | free handle =>
      have member : handle ∈ system.held := admitted.2
      cases library : handle.libId with
      | none =>
          refine iff_of_true (libraryLaw_free_apart numbers member ?_ ?_ law) ?_
          · rw [step_free_libraries, library]
          · rintro libId ⟨-, named, -⟩
            simp [library] at named
          · simp [KeepsLibraries, library]
      | some libId =>
          simp only [KeepsLibraries, library, Option.some.injEq, forall_eq']
          by_cases current : handle.generation = system.generation
          · exact iff_of_true (libraryLaw_free_current numbers ⟨member, library, current⟩ law)
              (.inl current)
          · by_cases taken : libId ∈ system.ctx.libraries
            · exact iff_of_false (libraryLaw_free_late numbers law member library current taken)
                (by simp [current, taken])
            · refine iff_of_true (libraryLaw_free_apart numbers member ?_ ?_ law) (.inr taken)
              · rw [step_free_libraries, library]
                exact releaseLibrary_absent taken
              · rintro other ⟨-, -, still⟩
                exact current still
  | reset type async insecure =>
      refine iff_of_true ?_ trivial
      cases type with
      | eval => exact step_reset_eval.law_iff.mpr law
      | function => exact (reset_drops rfl numbers).1
      | all => exact (reset_drops rfl numbers).1

/-- In every run of the engine the dictionary of libraries is right in every state
visited exactly when every step keeps it in line. -/
theorem libraryLaw_throughout_iff (rt : Runtime) (enableFfiApi : Bool) (requests : List Request)
    (run : (machine rt).Run (initial enableFfiApi) requests) :
    (machine rt).Visits LibraryLaw (initial enableFfiApi) requests ↔
      (machine rt).Along (KeepsLibraries rt) (initial enableFfiApi) requests :=
  run.visits_iff_along
    (fun _ request numbers law admitted => libraryLaw_step_iff request numbers law admitted)
    (fun _ request numbers _ _ _ => numbering_step request numbers)
    (initial_libraryLaw enableFfiApi) (initial_numbering enableFfiApi)

/-- The function of a library that is compiled after a reset. -/
def secondHandle : Held :=
  ⟨⟨some ⟨1, bytes "f"⟩, none, ⟨.functionRef (bytes "f") 1, 2⟩, 0⟩, [2], 1, 1⟩

/-- A library is loaded, the libraries are reset, another library is loaded, and only
then the function of the first is freed. -/
def lateFree : List Request :=
  [.compile .function [1] 1 registersOne, .reset .function false false,
    .compile .function [2] 1 registersOne, .free firstHandle]

/-- The late free deletes the second library while the server holds its function. -/
theorem late_free_deletes_newer_library :
    (machine .plain).Run (initial false) lateFree ∧
      ¬ (machine .plain).Visits LibraryLaw (initial false) lateFree := by
  refine ⟨⟨rfl, rfl, rfl, ⟨rfl, by decide⟩, trivial⟩, ?_⟩
  intro visits
  have current : ((machine .plain).after (initial false) lateFree).CurrentIn 1 secondHandle :=
    ⟨by decide, rfl, rfl⟩
  obtain ⟨lib, found, -⟩ := visits.last.counted 1 secondHandle current
  have gone : ((machine .plain).after (initial false) lateFree).ctx.libraries.lookup 1 = none := rfl
  simp [gone] at found

/-- A library that is loaded and freed again is counted right throughout. -/
theorem load_and_free_keeps_law : (machine .plain).Visits LibraryLaw (initial false)
    [.compile .function [1] 1 registersOne, .free firstHandle] := by
  have registers : registeredCount .plain 1 [1] registersOne = some 1 := rfl
  have run : (machine .plain).Run (initial false)
      [.compile .function [1] 1 registersOne, .free firstHandle] := ⟨rfl, ⟨rfl, by decide⟩, trivial⟩
  refine (libraryLaw_throughout_iff .plain false _ run).mpr ⟨?_, ?_, trivial⟩
  · rintro - count registered
    rw [registers, Option.some.injEq] at registered
    omega
  · rintro libId -
    exact .inl rfl

end System

end ValkeyLuajit
