import ValkeyLuajit.Engine.Entry
import ValkeyLuajit.Sandbox.Confinement

/-!
# Binary chunks

Code that users offer is loaded in five places. Only the closure that stands for
`load` in a user's states asks for text; the places where the engine itself loads
code take what LuaJIT takes.
-/

namespace ValkeyLuajit

open Lua Sandbox

/-- The code is text, or LuaJIT rejects it. -/
def TextOrRejected (rt : Runtime) (code : Bytes) : Prop :=
  isBinary code = true → rt.syntaxError code ≠ none

/-- An error of the compiler reads differently from one of the code. -/
theorem compiling_ne_registering (message other : Bytes) :
    bytes "Error compiling function: " ++ message ≠
      bytes "Error registering functions: " ++ other := by
  intro same
  have seventh := congrArg (fun text => text[6]?) same
  revert seventh
  rw [List.getElem?_append_left (by decide), List.getElem?_append_left (by decide)]
  decide

/-- Loading a library answers with an error of the compiler exactly when LuaJIT
rejects the text. -/
theorem luajitFunctionLibraryCreate_rejected_iff {rt : Runtime} {fuel : Nat} {code : Bytes}
    {topLevel : ScriptRun} :
    (∃ message, luajitFunctionLibraryCreate rt fuel code topLevel scratchState =
      .done (.error (bytes "Error compiling function: " ++ message)) scratchState) ↔
      rt.syntaxError code ≠ none := by
  cases rejected : rt.syntaxError code with
  | some message =>
      simp [luajitFunctionLibraryCreate, luaLLoadbuffer, rejected, scratchState]
  | none =>
      refine iff_of_false ?_ (by simp)
      rintro ⟨message, created⟩
      simp only [luajitFunctionLibraryCreate, luaLLoadbuffer, rejected, LuaM.bind_apply,
        Outcome.andThen_done, Bool.false_eq_true, if_false, Outcome.andThen_eq_done] at created
      obtain ⟨_, _, -, _, _, -, raised, _, -, result, _, collected, created⟩ := created
      obtain ⟨_, _, -, _, _, -, created⟩ := created
      cases created
      cases raised with
      | false => simp [collectFunctions, loadedFunctions] at collected
      | true =>
          simp only [collectFunctions, LuaM.bind_apply, if_true, Outcome.andThen_eq_done] at collected
          obtain ⟨_, _, -, info, _, -, _, _, -, _, _, -, collected⟩ := collected
          simp only [LuaM.pure_apply, Outcome.done.injEq, Except.error.injEq] at collected
          exact compiling_ne_registering _ _ collected.1.symm

/-- EVAL code is answered with an error exactly when LuaJIT rejects it. -/
theorem compileEval_rejected_iff {rt : Runtime} {ctx : EngineCtx} {code : Bytes} {fuel : Nat}
    {topLevel : ScriptRun} :
    (∃ message, luajitEngineCompileCode rt ctx .eval code fuel topLevel =
      some (ctx, .error message)) ↔ rt.syntaxError code ≠ none := by
  cases rejected : rt.syntaxError code <;>
    simp [luajitEngineCompileCode, compileEval, rejected, nameFunctions]

namespace System

/-- A binary chunk that the request offers is rejected, and no code that it enters is one. -/
def TextOnly (rt : Runtime) (system : System) : Request → Prop
  | .compile type code fuel topLevel => isBinary code = true →
      if type = .eval then
        ∃ message, luajitEngineCompileCode rt system.ctx type code fuel topLevel =
          some (system.ctx, .error message)
      else
        ∃ message, luajitFunctionLibraryCreate rt fuel code topLevel scratchState =
          .done (.error (bytes "Error compiling function: " ++ message)) scratchState
  | .call username handle keys args load body => ∀ kind code,
      (callOutcome rt system.ctx username handle keys args load body).world.core.Entered kind
          (.chunk code) →
        kind = .library ∨ handle.type = .eval → isBinary code = false
  | _ => True

/-- A binary chunk that is offered to be compiled is none that LuaJIT accepts. -/
def OffersText (rt : Runtime) (_ : System) : Request → Prop
  | .compile _ code _ _ => TextOrRejected rt code
  | _ => True

/-- No binary chunk that LuaJIT accepts waits to be loaded, and none was. -/
structure HoldsText (rt : Runtime) (system : System) : Prop where
  sources : ∀ handle ∈ system.held, ∀ text, handle.compiled.function.data = .source text →
    TextOrRejected rt text
  libraries : ∀ libId lib, system.ctx.libraries.lookup libId = some lib →
    TextOrRejected rt lib.code
  cached : ∀ username user, system.ctx.userStates.lookup username = some user →
    ∀ funcId callback, user.evalLua.lua.cached funcId = .function callback →
      ∃ text, callback = .chunk text ∧ isBinary text = false

section Steps

variable {rt : Runtime} {system : System}

theorem initial_holdsText (enableFfiApi : Bool) : (initial enableFfiApi).HoldsText rt where
  sources := by simp [initial]
  libraries := by simp [initial, createEngineContext]
  cached := by simp [initial, createEngineContext]

/-- Text that LuaJIT accepts is no binary chunk. -/
theorem text_of_accepted {code : Bytes} (offered : TextOrRejected rt code)
    (accepted : rt.syntaxError code = none) : isBinary code = false := by
  by_contra binary
  exact offered (by simpa using binary) accepted

/-- The closure cache of a user's eval state holds text. -/
theorem HoldsText.cachedIn (holds : system.HoldsText rt) {username : Bytes} {funcId : Nat}
    {callback : FuncRef}
    (found : (userState system.ctx username).evalLua.lua.cached funcId = .function callback) :
    ∃ text, callback = .chunk text ∧ isBinary text = false := by
  unfold userState at found
  cases present : system.ctx.userStates.lookup (cString username) with
  | some user =>
      rw [present] at found
      exact holds.cached _ user present _ _ found
  | none =>
      rw [present] at found
      simp [createPerUserState, createUserLuaState, luaLNewstate, State.cached] at found

/-- The callback of an EVAL script is its text. -/
theorem HoldsText.callback (holds : system.HoldsText rt) {username : Bytes} {handle : Held}
    {load : ScriptRun} {callback : FuncRef} {after : Core CallHost} (member : handle ∈ system.held)
    (eval : handle.type = .eval)
    (fetched : Fetched rt system.ctx handle.compiled.function load
      ⟨(userState system.ctx username).evalLua.lua, ⟨none, []⟩, []⟩ (.ok (some callback)) after) :
    ∃ text, callback = .chunk text ∧ isBinary text = false := by
  cases fetched with
  | hit found => exact holds.cachedIn found
  | compiled _ data accepted =>
      exact ⟨_, rfl, text_of_accepted (holds.sources handle member _ data) accepted⟩
  | bound _ data => exact absurd eval (handle.refs _ _ data)

/-- A call enters no binary chunk. -/
theorem HoldsText.call (holds : system.HoldsText rt) (prepared : system.UsersPrepared)
    {username : Bytes} {handle : Held} {keys args : List Bytes} {load body : ScriptRun}
    (member : handle ∈ system.held) :
    system.TextOnly rt (.call username handle keys args load body) := by
  intro kind code entered place
  obtain ⟨returns, called⟩ : ∃ returns, Called rt _ _ _ load body _ returns
      (callOutcome rt system.ctx username handle keys args load body).world.core :=
    ⟨_, callOutcome_called rt prepared username handle keys args load body⟩
  have library {result : Except String (Option FuncRef)} {found : Core CallHost}
      (fetched : Fetched rt system.ctx handle.compiled.function load
        ⟨((userState system.ctx username).of handle.type).lua, ⟨none, []⟩, []⟩ result found)
      (here : found.Entered kind (.chunk code)) : isBinary code = false := by
    rcases fetched.entered here with ⟨event, old, -⟩ | ⟨-, libId, lib, lookup, accepted, same⟩
    · cases old
    · cases same
      exact text_of_accepted (holds.libraries libId lib lookup) accepted
  cases called with
  | crashed fetched => exact library fetched entered
  | refused fetched => exact library fetched entered
  | invoked fetched invoked =>
      rcases invoked.entered entered with old | ⟨isBody, same⟩
      · exact library fetched old
      · have eval : handle.type = .eval := place.resolve_left fun isLibrary => by
          rw [isLibrary] at isBody
          cases isBody
        simp only [PerUserState.of, if_pos eval] at fetched
        obtain ⟨text, isText, plain⟩ := holds.callback member eval fetched
        rw [isText] at same
        cases same
        exact plain

/-- A call leaves text in the closure cache. -/
theorem HoldsText.cachedAfter (holds : system.HoldsText rt) (prepared : system.UsersPrepared)
    {username : Bytes} {handle : Held} {keys args : List Bytes} {load body : ScriptRun}
    (member : handle ∈ system.held) (eval : handle.type = .eval) {funcId : Nat}
    {callback : FuncRef}
    (found : (callOutcome rt system.ctx username handle keys args load body).world.lua.cached
      funcId = .function callback) :
    ∃ text, callback = .chunk text ∧ isBinary text = false := by
  obtain ⟨returns, called⟩ : ∃ returns, Called rt _ _ _ load body _ returns
      (callOutcome rt system.ctx username handle keys args load body).world.core :=
    ⟨_, callOutcome_called rt prepared username handle keys args load body⟩
  have lua : ((userState system.ctx username).of handle.type).lua =
      (userState system.ctx username).evalLua.lua := by simp [PerUserState.of, eval]
  rw [lua] at called
  have finding {result : Except String (Option FuncRef)} {after : Core CallHost}
      (fetched : Fetched rt system.ctx handle.compiled.function load
        ⟨(userState system.ctx username).evalLua.lua, ⟨none, []⟩, []⟩ result after)
      (here : after.lua.cached funcId = .function callback) :
      ∃ text, callback = .chunk text ∧ isBinary text = false := by
    cases fetched with
    | hit => exact holds.cachedIn here
    | rejected => exact holds.cachedIn here
    | @compiled text _ data accepted =>
        by_cases same : funcId = handle.compiled.function.funcId
        · subst same
          rw [Core.map, State.cached_remember, if_pos rfl, Value.function.injEq] at here
          exact ⟨text, here.symm, text_of_accepted (holds.sources handle member _ data) accepted⟩
        · rw [Core.map, State.cached_remember, if_neg same] at here
          exact holds.cachedIn here
    | missing _ data => exact absurd eval (handle.refs _ _ data)
    | unready _ data => exact absurd eval (handle.refs _ _ data)
    | crashed _ data => exact absurd eval (handle.refs _ _ data)
    | unbound _ data => exact absurd eval (handle.refs _ _ data)
    | bound _ data => exact absurd eval (handle.refs _ _ data)
  cases called with
  | crashed fetched => exact finding fetched found
  | refused fetched => exact finding fetched found
  | invoked fetched invoked =>
      refine finding fetched ?_
      rw [State.cached, ← invoked.hidden (by decide)]
      exact found

/-- Entering a library whose text was offered. -/
theorem libraries_added {ctx : EngineCtx} {code : Bytes} {count : Nat}
    (held : ∀ libId lib, ctx.libraries.lookup libId = some lib → TextOrRejected rt lib.code)
    (offered : TextOrRejected rt code) : ∀ libId lib,
      (addLibrary ctx code count).libraries.lookup libId = some lib →
        TextOrRejected rt lib.code := by
  intro libId lib found
  simp only [addLibrary, AList.insertNew] at found
  split at found
  · exact held libId lib found
  · by_cases same : libId = ctx.nextLibId + 1
    · subst same
      rw [AList.lookup_insert] at found
      cases found
      exact offered
    · rw [AList.lookup_insert_ne same] at found
      exact held libId lib found

/-- Compiling adds what was offered. -/
theorem HoldsText.compile (holds : system.HoldsText rt) {type : SubsystemType} {code : Bytes}
    {fuel : Nat} {topLevel : ScriptRun} (offered : TextOrRejected rt code) :
    (system.step rt (.compile type code fuel topLevel)).HoldsText rt := by
  cases run : luajitEngineCompileCode rt system.ctx type code fuel topLevel with
  | none =>
      simp only [System.step, run]
      exact ⟨holds.sources, holds.libraries, holds.cached⟩
  | some answer =>
      obtain ⟨after, message | functions⟩ := answer
      · obtain rfl := luajitEngineCompileCode_error run
        simp only [System.step, run]
        exact ⟨holds.sources, holds.libraries, holds.cached⟩
      · simp only [System.step, run]
        obtain ⟨-, ⟨-, data, rfl⟩ | ⟨-, -, refs, rfl⟩⟩ := luajitEngineCompileCode_ok run
        · refine ⟨?_, holds.libraries, holds.cached⟩
          intro handle member text isText
          rcases List.mem_append.mp member with old | new
          · exact holds.sources handle old text isText
          · obtain ⟨compiled, listed, rfl⟩ := List.mem_map.mp new
            have here := List.mem_map_of_mem
              (f := fun compiled : CompiledFunction => compiled.function.data) listed
            rw [data, List.mem_singleton, isText, FunctionData.source.injEq] at here
            rwa [here]
        · refine ⟨?_, libraries_added holds.libraries offered, holds.cached⟩
          intro handle member text isText
          rcases List.mem_append.mp member with old | new
          · exact holds.sources handle old text isText
          · obtain ⟨compiled, listed, rfl⟩ := List.mem_map.mp new
            obtain ⟨name, isRef⟩ := refs compiled listed
            simp [isRef] at isText

/-- Freeing adds nothing. -/
theorem HoldsText.free (holds : system.HoldsText rt) {handle : Held} :
    (system.step rt (.free handle)).HoldsText rt where
  sources := fun other member => holds.sources other (List.mem_of_mem_erase member)
  libraries := by
    intro libId lib found
    simp only [System.step, luajitEngineFreeFunction] at found
    split at found
    · exact holds.libraries libId lib found
    · rename_i name freed _
      by_cases same : libId = freed
      · subst same
        cases present : system.ctx.libraries.lookup libId with
        | none =>
            rw [releaseLibrary, present] at found
            simp [present] at found
        | some before =>
            rw [lookup_releaseLibrary_self present] at found
            split at found
            · simp at found
            · cases found
              exact holds.libraries libId before present
      · rw [lookup_releaseLibrary_of_ne same] at found
        exact holds.libraries libId lib found
  cached := by
    intro username user found
    rw [step_free_lookup] at found
    split at found
    · exact holds.cached username user found
    · obtain ⟨before, present, rfl⟩ := Option.map_eq_some_iff.mp found
      exact holds.cached username before present

/-- Neither does a reset. -/
theorem HoldsText.reset (holds : system.HoldsText rt) {type : SubsystemType}
    {async insecure : Bool} : (system.step rt (.reset type async insecure)).HoldsText rt where
  sources := holds.sources
  libraries := by
    intro libId lib found
    simp only [System.step, luajitEngineResetEnv, resetLibraries] at found
    split at found
    · simp at found
    · exact holds.libraries libId lib found
  cached := by
    intro username user found funcId callback isCached
    rw [step_reset_lookup] at found
    split at found
    · simp at found
    · obtain ⟨before, present, rfl⟩ := Option.map_eq_some_iff.mp found
      unfold renewedState at isCached
      split at isCached
      · simp [createUserLuaState, luaLNewstate, State.cached] at isCached
      · exact holds.cached username before present funcId callback isCached

/-- Every request that offers text keeps it so. -/
theorem HoldsText.step (holds : system.HoldsText rt) (sound : system.Sound) (request : Request)
    (admitted : system.Admits request) (offers : OffersText rt system request) :
    (system.step rt request).HoldsText rt := by
  cases request with
  | compile type code fuel topLevel => exact holds.compile offers
  | free handle => exact holds.free
  | reset type async insecure => exact holds.reset
  | call username handle keys args load body =>
      refine ⟨holds.sources, holds.libraries, ?_⟩
      intro other user found funcId callback isCached
      rw [step_call_lookup] at found
      split at found
      · cases found
        unfold PerUserState.put at isCached
        split at isCached
        · rename_i eval
          exact holds.cachedAfter (sound admitted.1) admitted.2 eval isCached
        · exact holds.cachedIn isCached
      · exact holds.cached other user found funcId callback isCached

/-- What the engine loads is text exactly when what it is offered is. -/
theorem textOnly_iff (holds : system.HoldsText rt) (sound : system.Sound) (request : Request)
    (admitted : system.Admits request) :
    system.TextOnly rt request ↔ OffersText rt system request := by
  cases request with
  | compile type code fuel topLevel =>
      refine imp_congr_right fun _ => ?_
      split
      · rename_i eval
        subst eval
        exact compileEval_rejected_iff
      · exact luajitFunctionLibraryCreate_rejected_iff
  | call username handle keys args load body =>
      exact iff_of_true (holds.call (sound admitted.1) admitted.2) trivial
  | _ => exact Iff.rfl

end Steps

end System

/-- All code that scripts have loaded is text. -/
def Sandbox.Holdings.OnlyText (holdings : Holdings) : Prop :=
  ∀ code ∈ holdings.loaded, isBinary code = false

section Scripts

variable {libs : LuaLibraries} {rt : Runtime}

/-- The mode of the wrapper keeps binary chunks out. -/
theorem text_of_accepts {code : Bytes} (accepted : accepts rt (some (bytes "t")) code = true) :
    isBinary code = false := by
  by_contra binary
  have isTrue : isBinary code = true := by simpa using binary
  have allowed : modeAllows (some (bytes "t")) code = true := by
    simp only [accepts, Bool.and_eq_true] at accepted
    exact accepted.1
  revert allowed
  rw [modeAllows, isTrue]
  decide

/-- The wrapper is the only loader that is not guarded. -/
theorem loader_of_unguarded {loader : Item} {mode : Option Bytes} {used : Option Bytes}
    (free : ¬ Guarded loader) (loads : loadMode mode loader = some used) :
    used = some (bytes "t") := by
  unfold loadMode at loads
  split at loads
  · exact absurd (.inl ⟨rfl, by decide⟩) free
  · exact absurd (.inl ⟨rfl, by decide⟩) free
  · cases loads
    rfl
  · cases loads

/-- Confined scripts have text loaded. -/
theorem Sandbox.Holdings.OnlyText.step {holdings : Holdings} (text : holdings.OnlyText)
    (confined : holdings.Confined) (deed : Deed) (admitted : holdings.Admits libs deed) :
    (holdings.step rt deed).OnlyText := by
  cases deed with
  | load loader pieces mode =>
      simp only [Holdings.step]
      split
      · rename_i used loads
        split
        · rename_i accepted
          cases loader_of_unguarded (confined.known loader admitted.1) loads
          intro code member
          rcases List.mem_cons.mp member with rfl | old
          · exact text_of_accepts accepted
          · exact text code old
        · exact text
      · exact text
  | _ => exact text

/-- Scripts of a state of this kind have nothing but text loaded exactly when the state
is one of a user's. -/
theorem onlyText_throughout_iff (keeps : libs.Confined) (opens : "load" ∈ libs.members "")
    (binary : ∃ code, isBinary code = true ∧ rt.syntaxError code = none) (enableFfiApi : Bool)
    (kind : StateKind) :
    (∀ deeds, (Sandbox.machine libs rt).Run (.initial libs enableFfiApi kind) deeds →
      (Sandbox.machine libs rt).Visits Holdings.OnlyText (.initial libs enableFfiApi kind)
        deeds) ↔ kind ≠ .scratch := by
  constructor
  · rintro text rfl
    obtain ⟨code, isBinary, accepted⟩ := binary
    have held := scratch_holds libs enableFfiApi (by decide) opens
    let reads : Holdings := ⟨initialTables libs enableFfiApi .scratch,
      [.builtin "" "load", globals, .plain], []⟩
    have first : (Holdings.initial libs enableFfiApi .scratch).step rt (.read globals "load") =
        reads := by
      simp [Holdings.step, Holdings.initial, held, reads]
    have second : reads.step rt (.load (.builtin "" "load") [code] none) =
        ⟨reads.tables, .made 0 :: reads.known, [code]⟩ := by
      simp [Holdings.step, loadMode, accepts, modeAllows, accepted, reads]
    have visits := (text [.read globals "load", .load (.builtin "" "load") [code] none]
      ⟨by simp [Sandbox.machine, Holdings.Admits, Holdings.initial], by
        simp only [Sandbox.machine, first]
        exact ⟨List.mem_cons_self, rfl⟩, trivial⟩).last
    simp only [InputMachine.after, Sandbox.machine, first, second] at visits
    have plain := visits code List.mem_cons_self
    rw [isBinary] at plain
    cases plain
  · intro user deeds run
    have both : (Sandbox.machine libs rt).Visits
        (fun holdings => holdings.Confined ∧ holdings.OnlyText) (.initial libs enableFfiApi kind)
        deeds :=
      run.visits
        (fun holdings deed both admitted _ =>
          ⟨both.1.step keeps deed admitted, both.2.step both.1 deed admitted⟩)
        ⟨Holdings.initial_confined enableFfiApi user, by simp [Holdings.OnlyText, Holdings.initial]⟩
        (run.mono fun _ _ _ => trivial)
    exact both.mono fun _ both => both.2

end Scripts

namespace System

/-- What the engine loads is text exactly in those runs in which what it is offered is,
and what scripts have loaded is text exactly in a user's states. -/
theorem text_only_iff (rt : Runtime) (libs : LuaLibraries) (keeps : libs.Confined)
    (opens : "load" ∈ libs.members "")
    (binary : ∃ code, isBinary code = true ∧ rt.syntaxError code = none) (enableFfiApi : Bool) :
    (∀ requests, (machine rt).Run (initial enableFfiApi) requests →
      ((machine rt).Along (TextOnly rt) (initial enableFfiApi) requests ↔
        (machine rt).Along (OffersText rt) (initial enableFfiApi) requests)) ∧
    ∀ kind, (∀ deeds, (Sandbox.machine libs rt).Run (.initial libs enableFfiApi kind) deeds →
      (Sandbox.machine libs rt).Visits Holdings.OnlyText (.initial libs enableFfiApi kind)
        deeds) ↔ kind ≠ .scratch := by
  refine ⟨fun requests run => ?_, onlyText_throughout_iff keeps opens binary enableFfiApi⟩
  have agree (system : System) (request : Request) (both : system.HoldsText rt ∧ system.Sound)
      (admitted : system.Admits request) :
      system.TextOnly rt request ↔ OffersText rt system request :=
    textOnly_iff both.1 both.2 request admitted
  have kept (system : System) (request : Request) (both : system.HoldsText rt ∧ system.Sound)
      (admitted : system.Admits request) (offers : OffersText rt system request) :
      (system.step rt request).HoldsText rt ∧ (system.step rt request).Sound :=
    ⟨both.1.step both.2 request admitted offers, sound_step request both.2 admitted⟩
  exact InputMachine.Run.along_iff_guard agree kept
    ⟨initial_holdsText enableFfiApi, initial_sound enableFfiApi⟩ run

/-- A binary chunk is offered as an EVAL script. -/
theorem bytecode_compiled : (machine .plain).Run (initial false) [.compile .eval [27] 0 idleBody] ∧
    ¬ (machine .plain).Along (TextOnly .plain) (initial false)
      [.compile .eval [27] 0 idleBody] := by
  refine ⟨⟨rfl, trivial⟩, ?_⟩
  rintro ⟨text, -⟩
  exact compileEval_rejected_iff.mp (text rfl) rfl

/-- The runtime that rejects one binary chunk, which is cut short. -/
def cutShortRejected : Runtime :=
  { Runtime.plain with
    syntaxError := fun code => if code = [27, 76] then some (bytes "truncated chunk") else none }

/-- The script that is compiled after the binary chunk was refused. -/
def textHandle : Held := ⟨⟨none, none, ⟨.source [1], 1⟩, 0⟩, [1], 1, 0⟩

/-- A binary chunk is refused, and a text compiled and called. -/
def refusedThenCalled : List Request :=
  [.compile .eval [27, 76] 0 idleBody, .compile .eval [1] 0 idleBody,
    .call (bytes "alice") textHandle [] [] idleBody idleBody]

theorem text_loaded :
    (machine cutShortRejected).Along (TextOnly cutShortRejected) (initial false)
      refusedThenCalled := by
  have run : (machine cutShortRejected).Run (initial false) refusedThenCalled := by decide +kernel
  refine ((text_only_iff cutShortRejected fewLibraries fewLibraries_confined
    (by simp [fewLibraries]) ⟨[27], rfl, rfl⟩ false).1 _ run).mpr ⟨?_, ?_, trivial, trivial⟩
  · intro binary accepted
    cases accepted
  · intro binary
    cases binary

end System

end ValkeyLuajit
