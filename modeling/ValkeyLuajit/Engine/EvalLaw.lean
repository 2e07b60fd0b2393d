import ValkeyLuajit.Engine.Arguments
import ValkeyLuajit.Engine.Cache

/-!
# What an EVAL script executes

A user's eval state caches the chunk of a script under the script's function id. A
record beside the engine remembers which ids were handed out, how often the users'
eval states were replaced, and in which of them a script was last compiled from
which bytes.
-/

namespace ValkeyLuajit

open Lua

/-- What is remembered of a run. Between two replacements a user has one eval state,
so the number of replacements so far tells which one it is. -/
structure EvalRecord where
  generation : Nat
  issued : List Nat
  origin : Bytes → Nat → Option (Nat × Bytes)

/-- Nothing has happened yet. -/
def EvalRecord.start : EvalRecord := ⟨0, [], fun _ _ => none⟩

/-- A script is compiled in a user's eval state. -/
def EvalRecord.compile (record : EvalRecord) (user : Bytes) (funcId : Nat) (text : Bytes) :
    EvalRecord :=
  { record with
    origin := fun other id =>
      if other = user ∧ id = funcId then some (record.generation, text) else record.origin other id }

/-- A call has to compile the text of a script, and the text is accepted. -/
def compilesText (rt : Runtime) (lua : State) (funcId : Nat) (text : Bytes) : Bool :=
  !(lua.cached funcId).isFunction && (rt.syntaxError text).isNone

/-- An EVAL call puts the chunk of the text into the cache when it compiles the text. -/
theorem Called.closures_eval {rt : Runtime} {ctx : EngineCtx} {function : LuajitFunction}
    {type : SubsystemType} {load body : ScriptRun} {before after : Core CallHost} {returns : Bool}
    {text : Bytes} (called : Called rt ctx function type load body before returns after)
    (data : function.data = .source text) :
    after.lua.closures = if compilesText rt before.lua function.funcId text then
        before.lua.closures.rawSet (.lightuserdata function.funcId) (.function (.chunk text))
      else before.lua.closures := by
  have found {result : Except String (Option FuncRef)} {core : Core CallHost}
      (fetched : Fetched rt ctx function load before result core) :
      core.lua.closures = if compilesText rt before.lua function.funcId text then
          before.lua.closures.rawSet (.lightuserdata function.funcId) (.function (.chunk text))
        else before.lua.closures := by
    cases fetched with
    | hit hit => rw [if_neg (by simp [compilesText, hit, Value.isFunction, Value.type])]
    | rejected _ source rejected =>
        obtain rfl : text = _ := by simpa using data.symm.trans source
        rw [if_neg (by simp [compilesText, rejected])]
        rfl
    | compiled uncached source accepted =>
        obtain rfl : text = _ := by simpa using data.symm.trans source
        rw [if_pos (by simp [compilesText, uncached, accepted])]
        exact State.closures_remember _ _
    | missing _ reference => simp [data] at reference
    | unready _ reference => simp [data] at reference
    | crashed _ reference => simp [data] at reference
    | unbound _ reference => simp [data] at reference
    | bound _ reference => simp [data] at reference
  cases called with
  | crashed fetched => exact found fetched
  | refused fetched => exact found fetched
  | invoked fetched invoked => exact (invoked.hidden (by decide)).trans (found fetched)

namespace System

/-- The ids a compilation hands out. -/
def newIds (rt : Runtime) (system : System) (type : SubsystemType) (code : Bytes) (fuel : Nat)
    (topLevel : ScriptRun) : List Nat :=
  match luajitEngineCompileCode rt system.ctx type code fuel topLevel with
  | some (_, .ok functions) => functions.map fun compiled => compiled.function.funcId
  | _ => []

/-- What is remembered of a request. -/
def noteEval (rt : Runtime) (system : System) : Request → EvalRecord → EvalRecord
  | .compile type code fuel topLevel, record =>
      { record with issued := record.issued ++ system.newIds rt type code fuel topLevel }
  | .call username handle _ _ _ _, record =>
      match handle.compiled.function.data with
      | .source text =>
          if compilesText rt (userLua system.ctx (cString username) .eval)
              handle.compiled.function.funcId text then
            record.compile (cString username) handle.compiled.function.funcId text
          else record
      | .functionRef _ _ => record
  | .free _, record => record
  | .reset type _ _, record =>
      if renews type .eval then { record with generation := record.generation + 1 } else record

/-- What a user's eval state has cached for a script was compiled from the script's bytes
in that very state, the bytes are those the script was compiled from at first, and no
function id was handed out twice. -/
structure EvalLaw (system : System) (record : EvalRecord) : Prop where
  cached : ∀ user, ∀ handle ∈ system.held, ∀ text,
    handle.compiled.function.data = .source text →
      (userLua system.ctx user .eval).cached handle.compiled.function.funcId ≠ .nil →
        (userLua system.ctx user .eval).cached handle.compiled.function.funcId =
            .function (.chunk text) ∧
          record.origin user handle.compiled.function.funcId = some (record.generation, text)
  sources : ∀ handle ∈ system.held, ∀ text,
    handle.compiled.function.data = .source text → handle.source = text
  issued : record.issued.Nodup

/-- What the law rests on. -/
structure EvalSound (rt : Runtime) (system : System) (record : EvalRecord) : Prop where
  steady : system.Steady
  law : system.EvalLaw record
  old : ∀ user funcId, (userLua system.ctx user .eval).cached funcId ≠ .nil →
    funcId ≤ system.ctx.nextFuncId
  known : ∀ funcId ∈ record.issued, funcId ≤ system.ctx.nextFuncId
  accepted : ∀ handle ∈ system.held, ∀ text,
    handle.compiled.function.data = .source text → rt.syntaxError text = none

/-- A call of an EVAL script executes the chunk of its own text. -/
def Executes (rt : Runtime) (system : System) : Request → Prop
  | .call username handle keys args load body =>
      ∀ text, handle.compiled.function.data = .source text → ∀ callee,
        (callOutcome rt system.ctx username handle keys args load body).world.core.Entered .body
          callee ↔ callee = .chunk text
  | _ => True

/-- At a call of an EVAL script the globals of the user's eval state take the keys and the
arguments without an error. -/
def AcceptsArguments (rt : Runtime) (system : System) : Request → Prop
  | .call username handle keys args _ _ =>
      ∀ text, handle.compiled.function.data = .source text →
        (userLua system.ctx (cString username) .eval).acceptsArguments rt keys args = true
  | _ => True

section Steps

variable {rt : Runtime} {system : System} {record : EvalRecord}

theorem cached_closures (lua : State) (funcId : Nat) :
    lua.cached funcId = lua.closures.rawGet (.lightuserdata funcId) := rfl

/-- Equal closure caches have the same callbacks. -/
theorem cached_congr {first second : State} (same : first.closures = second.closures)
    (funcId : Nat) : first.cached funcId = second.cached funcId := by
  rw [cached_closures, same, cached_closures]

theorem initial_evalSound (enableFfiApi : Bool) :
    (initial enableFfiApi).EvalSound rt EvalRecord.start where
  steady := initial_steady enableFfiApi
  law := ⟨by simp [initial], by simp [initial], List.nodup_nil⟩
  old := fun user funcId present => by
    have blank : (userLua (initial enableFfiApi).ctx user .eval).closures = .empty :=
      closures_createPerUserState _
    rw [cached_closures, blank, Table.rawGet_empty] at present
    exact absurd rfl present
  known := by simp [EvalRecord.start]
  accepted := by simp [initial]

variable (rt system) in
/-- Compiling hands out ids that are new. -/
theorem newIds_fresh (type : SubsystemType) (code : Bytes) (fuel : Nat) (topLevel : ScriptRun) :
    (system.newIds rt type code fuel topLevel).Nodup ∧
      ∀ funcId ∈ system.newIds rt type code fuel topLevel, system.ctx.nextFuncId < funcId ∧
        funcId ≤ (system.step rt (.compile type code fuel topLevel)).ctx.nextFuncId := by
  unfold newIds
  split
  · rename_i after functions run
    obtain ⟨ids, rest⟩ := luajitEngineCompileCode_ok run
    have next : after.nextFuncId = system.ctx.nextFuncId + functions.length := by
      rcases rest with ⟨-, -, rfl⟩ | ⟨-, -, -, rfl⟩ <;> rfl
    rw [ids, step_compile_ok run]
    refine ⟨List.nodup_range', fun funcId member => ?_⟩
    have range := List.mem_range'_1.mp member
    simp only [compiled, next]
    omega
  · exact ⟨List.nodup_nil, by simp⟩

/-- Compiling never takes an id back. -/
theorem nextFuncId_compile {type : SubsystemType} {code : Bytes} {fuel : Nat}
    {topLevel : ScriptRun} : system.ctx.nextFuncId ≤
      (system.step rt (.compile type code fuel topLevel)).ctx.nextFuncId := by
  obtain ⟨after, functions, run, made⟩ | ⟨-, same⟩ :=
    step_compile_cases rt system type code fuel topLevel
  · rw [made]
    rcases (luajitEngineCompileCode_ok run).2 with ⟨-, -, rfl⟩ | ⟨-, -, -, rfl⟩ <;>
      exact Nat.le_add_right _ _
  · exact same.nextFuncId.ge

/-- What compiling adds has a new id, and if it is a script, its accepted text. -/
theorem held_compile {type : SubsystemType} {code : Bytes} {fuel : Nat} {topLevel : ScriptRun}
    {handle : Held}
    (member : handle ∈ (system.step rt (.compile type code fuel topLevel)).held) :
    handle ∈ system.held ∨
      handle.compiled.function.funcId ∈ system.newIds rt type code fuel topLevel ∧
        ∀ text, handle.compiled.function.data = .source text →
          handle.source = text ∧ rt.syntaxError text = none := by
  obtain ⟨after, functions, run, made⟩ | ⟨-, same⟩ :=
    step_compile_cases rt system type code fuel topLevel
  · rw [made] at member
    rcases List.mem_append.mp member with old | new
    · exact .inl old
    · obtain ⟨function, listed, rfl⟩ := mem_newHandles.mp new
      have id : function.function.funcId ∈ system.newIds rt type code fuel topLevel := by
        simp only [newIds, run]
        exact List.mem_map_of_mem listed
      refine .inr ⟨id, fun text source => ?_⟩
      obtain ⟨-, ⟨eval, data, -⟩ | ⟨-, -, refs, -⟩⟩ := luajitEngineCompileCode_ok run
      · have here := List.mem_map_of_mem
          (f := fun compiled : CompiledFunction => compiled.function.data) listed
        rw [data, List.mem_singleton, source, FunctionData.source.injEq] at here
        subst here
        refine ⟨rfl, ?_⟩
        cases rejected : rt.syntaxError text with
        | none => rfl
        | some message => simp [luajitEngineCompileCode, eval, compileEval, rejected] at run
      · obtain ⟨name, reference⟩ := refs function listed
        simp [reference] at source
  · exact .inl (same.held ▸ member)

/-- Compiling keeps what the law rests on. -/
theorem evalSound_compile {type : SubsystemType} {code : Bytes} {fuel : Nat}
    {topLevel : ScriptRun} (sound : system.EvalSound rt record) (admitted : system.crashed = false) :
    (system.step rt (.compile type code fuel topLevel)).EvalSound rt
      (system.noteEval rt (.compile type code fuel topLevel) record) := by
  have steady : (system.step rt (.compile type code fuel topLevel)).Steady :=
    steady_step _ sound.steady admitted
  have cached (user : Bytes) (funcId : Nat) :
      (userLua (system.step rt (.compile type code fuel topLevel)).ctx user .eval).cached funcId =
        (userLua system.ctx user .eval).cached funcId := cached_congr closures_compile funcId
  obtain ⟨distinct, fresh⟩ := newIds_fresh rt system type code fuel topLevel
  have grows : system.ctx.nextFuncId ≤
      (system.step rt (.compile type code fuel topLevel)).ctx.nextFuncId := nextFuncId_compile
  exact
    { steady := steady
      law :=
        { cached := by
            intro user handle member text source present
            rw [cached] at present ⊢
            rcases held_compile member with old | ⟨new, -⟩
            · exact sound.law.cached user handle old text source present
            · have below := sound.old user _ present
              have above := (fresh _ new).1
              omega
          sources := by
            intro handle member text source
            rcases held_compile member with old | ⟨-, new⟩
            · exact sound.law.sources handle old text source
            · exact (new text source).1
          issued := by
            refine List.nodup_append'.mpr ⟨sound.law.issued, distinct, fun funcId old new => ?_⟩
            have below := sound.known funcId old
            have above := (fresh funcId new).1
            omega }
      old := by
        intro user funcId present
        rw [cached] at present
        exact (sound.old user funcId present).trans grows
      known := by
        intro funcId member
        rcases List.mem_append.mp member with old | new
        · exact (sound.known funcId old).trans grows
        · exact (fresh funcId new).2
      accepted := by
        intro handle member text source
        rcases held_compile member with old | ⟨-, new⟩
        · exact sound.accepted handle old text source
        · exact (new text source).2 }

/-- Requests that leave the functions held, the ids and every eval state's cache alone. -/
theorem EvalSound.of_same {after : System} (sound : system.EvalSound rt record)
    (steady : after.Steady) (held : ∀ handle ∈ after.held, handle ∈ system.held)
    (nextFuncId : after.ctx.nextFuncId = system.ctx.nextFuncId)
    (closures : ∀ user, (userLua after.ctx user .eval).closures =
      (userLua system.ctx user .eval).closures) : after.EvalSound rt record where
  steady := steady
  law :=
    { cached := fun user handle member text source => by
        rw [cached_congr (closures user)]
        exact sound.law.cached user handle (held handle member) text source
      sources := fun handle member => sound.law.sources handle (held handle member)
      issued := sound.law.issued }
  old := fun user funcId => by
    rw [cached_congr (closures user), nextFuncId]
    exact sound.old user funcId
  known := by rw [nextFuncId]; exact sound.known
  accepted := fun handle member => sound.accepted handle (held handle member)

/-- Freeing keeps what the law rests on. -/
theorem evalSound_free {handle : Held} (sound : system.EvalSound rt record)
    (admitted : system.Admits (.free handle)) :
    (system.step rt (.free handle)).EvalSound rt record :=
  sound.of_same (steady_step _ sound.steady admitted)
    (fun _ member => List.mem_of_mem_erase member) step_free_nextIds.1
    fun _ => closures_free (sound.steady.sound admitted.1)

/-- So does a reset: the states it makes have cached nothing. -/
theorem evalSound_reset {type : SubsystemType} {async insecure : Bool}
    (sound : system.EvalSound rt record) (admitted : system.Admits (.reset type async insecure)) :
    (system.step rt (.reset type async insecure)).EvalSound rt
      (system.noteEval rt (.reset type async insecure) record) := by
  have steady : (system.step rt (.reset type async insecure)).Steady :=
    steady_step _ sound.steady admitted
  have ids : (system.step rt (.reset type async insecure)).ctx.nextFuncId =
      system.ctx.nextFuncId := by
    cases type <;> simp [step, luajitEngineResetEnv, resetLibraries]
  have closures (user : Bytes) :
      (userLua (system.step rt (.reset type async insecure)).ctx user .eval).closures =
        if renews type .eval then .empty else (userLua system.ctx user .eval).closures :=
    closures_reset
  cases renewed : renews type .eval with
  | false =>
      simp only [renewed, Bool.false_eq_true, if_false] at closures
      simp only [noteEval, renewed, Bool.false_eq_true, if_false]
      exact sound.of_same steady (fun _ member => member) ids closures
  | true =>
      simp only [renewed, if_true] at closures
      simp only [noteEval, renewed, if_true]
      have uncached (user : Bytes) (funcId : Nat) :
          (userLua (system.step rt (.reset type async insecure)).ctx user .eval).cached funcId =
            .nil := by
        rw [cached_closures, closures, Table.rawGet_empty]
      exact
        { steady := steady
          law :=
            { cached := fun user handle _ text _ present => absurd (uncached user _) present
              sources := sound.law.sources
              issued := sound.law.issued }
          old := fun user funcId present => absurd (uncached user funcId) present
          known := by rw [ids]; exact sound.known
          accepted := sound.accepted }

/-- A call of an EVAL script caches what it notes. -/
theorem evalSound_call {username : Bytes} {handle : Held} {keys args : List Bytes}
    {load body : ScriptRun} (sound : system.EvalSound rt record)
    (admitted : system.Admits (.call username handle keys args load body)) :
    (system.step rt (.call username handle keys args load body)).EvalSound rt
      (system.noteEval rt (.call username handle keys args load body) record) := by
  have steady : (system.step rt (.call username handle keys args load body)).Steady :=
    steady_step _ sound.steady admitted
  cases data : handle.compiled.function.data with
  | functionRef name libId =>
      simp only [noteEval, data]
      refine sound.of_same steady (fun _ member => member) rfl fun user => ?_
      have library : handle.type ≠ .eval := handle.refs name libId data
      rw [closures_call, if_neg fun both => library (both.2.mp rfl)]
  | source text =>
      have eval : handle.type = .eval := by simp [Held.type, data]
      have called := callOutcome_called rt (sound.steady.sound admitted.1) username handle keys args
        load body
      rw [eval] at called
      have closures (user : Bytes) :
          (userLua (system.step rt (.call username handle keys args load body)).ctx user
              .eval).closures =
            if user = cString username ∧ compilesText rt
                (userLua system.ctx (cString username) .eval) handle.compiled.function.funcId text then
              (userLua system.ctx user .eval).closures.rawSet
                (.lightuserdata handle.compiled.function.funcId) (.function (.chunk text))
            else (userLua system.ctx user .eval).closures := by
        rw [closures_call]
        by_cases own : user = cString username
        · subst own
          simp only [eval, and_self, if_true, true_and]
          exact called.closures_eval data
        · rw [if_neg fun both => own both.1, if_neg fun both => own both.1]
      simp only [noteEval, data]
      cases compiles : compilesText rt (userLua system.ctx (cString username) .eval)
          handle.compiled.function.funcId text with
      | false =>
          simp only [compiles, Bool.false_eq_true, and_false, if_false] at closures ⊢
          exact sound.of_same steady (fun _ member => member) rfl closures
      | true =>
          simp only [compiles, and_true, if_true] at closures ⊢
          have cached (user : Bytes) (funcId : Nat) :
              (userLua (system.step rt (.call username handle keys args load body)).ctx user
                  .eval).cached funcId =
                if user = cString username ∧ funcId = handle.compiled.function.funcId then
                  .function (.chunk text)
                else (userLua system.ctx user .eval).cached funcId := by
            rw [cached_closures, closures]
            by_cases own : user = cString username
            · rw [if_pos own, Table.rawGet_rawSet _ _ _ (by simp)]
              simp [own, cached_closures]
            · simp [own, cached_closures]
          exact
            { steady := steady
              law :=
                { cached := by
                    intro user other member otherText source present
                    rw [cached] at present ⊢
                    simp only [EvalRecord.compile]
                    split at present
                    · rename_i own
                      obtain rfl : other = handle :=
                        List.inj_on_of_nodup_map sound.steady.numbers.funcIds member admitted.2 own.2
                      obtain rfl : text = otherText := by simpa using data.symm.trans source
                      simp [own]
                    · rename_i apart
                      rw [if_neg apart, if_neg apart]
                      exact sound.law.cached user other member otherText source present
                  sources := sound.law.sources
                  issued := sound.law.issued }
              old := by
                intro user funcId present
                rw [cached] at present
                split at present
                · rename_i own
                  rw [own.2]
                  exact sound.steady.numbers.issued handle admitted.2
                · exact sound.old user funcId present
              known := sound.known
              accepted := sound.accepted }

/-- Every request keeps what the law rests on. -/
theorem evalSound_step (request : Request) (sound : system.EvalSound rt record)
    (admitted : system.Admits request) :
    (system.step rt request).EvalSound rt (system.noteEval rt request record) := by
  cases request with
  | compile type code fuel topLevel => exact evalSound_compile sound admitted
  | call username handle keys args load body => exact evalSound_call sound admitted
  | free handle => exact evalSound_free sound admitted
  | reset type async insecure => exact evalSound_reset sound admitted

/-- A call of an EVAL script executes its text exactly when the globals take the keys and
the arguments. -/
theorem executes_iff (request : Request) (sound : system.EvalSound rt record)
    (admitted : system.Admits request) :
    system.Executes rt request ↔ system.AcceptsArguments rt request := by
  cases request with
  | call username handle keys args load body =>
      refine forall_congr' fun text => imp_congr_right fun data => ?_
      have eval : handle.type = .eval := by simp [Held.type, data]
      have prepared := (sound.steady.sound admitted.1).of username handle
      have chunk (callback : FuncRef)
          (found : (userLua system.ctx (cString username) .eval).cached
            handle.compiled.function.funcId = .function callback) : callback = .chunk text := by
        have cached := (sound.law.cached (cString username) handle admitted.2 text data
          (by simp [found])).1
        simpa [found] using cached
      have entered (callee : FuncRef) :
          (callOutcome rt system.ctx username handle keys args load body).world.core.Entered .body
              callee ↔
            callee = .chunk text ∧
              (userLua system.ctx (cString username) .eval).acceptsArguments rt keys args = true := by
        rw [callOutcome]
        rw [eval] at prepared ⊢
        have start : Prepared .eval (⟨((userState system.ctx username).of .eval).lua, ⟨none, []⟩,
            []⟩ : Core CallHost).lua := prepared
        exact evalCall_entered_iff start data (sound.accepted handle admitted.2 text data) chunk rfl
          rfl callee
      simp only [entered]
      constructor
      · intro executes
        exact ((executes (.chunk text)).mpr rfl).2
      · intro accepts callee
        exact and_iff_left accepts
  | _ => exact Iff.rfl

end Steps

/-- What the law rests on holds in every state of a run. -/
theorem evalSound_throughout {rt : Runtime} {enableFfiApi : Bool} {requests : List Request}
    (run : (machine rt).Run (initial enableFfiApi) requests) :
    ((machine rt).recorded (noteEval rt)).Visits (fun both => both.1.EvalSound rt both.2)
      (initial enableFfiApi, EvalRecord.start) requests := by
  have recordedRun : ((machine rt).recorded (noteEval rt)).Run
      (initial enableFfiApi, EvalRecord.start) requests := InputMachine.along_recorded.mpr run
  have kept (both : System × EvalRecord) (request : Request)
      (sound : both.1.EvalSound rt both.2)
      (admitted : ((machine rt).recorded (noteEval rt)).Admits both request) (_ : True) :
      (((machine rt).recorded (noteEval rt)).step both request).1.EvalSound rt
        (((machine rt).recorded (noteEval rt)).step both request).2 :=
    evalSound_step request sound admitted
  exact recordedRun.visits kept (initial_evalSound enableFfiApi)
    (recordedRun.mono fun _ _ _ => trivial)

/-- In every run, what eval states have cached for scripts was compiled there from the
scripts' own bytes, under ids that are never handed out again, and every call of a script
executes its text, exactly when at every such call the globals take the keys and the
arguments without an error. -/
theorem eval_executes_throughout_iff (rt : Runtime) (enableFfiApi : Bool)
    (requests : List Request) (run : (machine rt).Run (initial enableFfiApi) requests) :
    (((machine rt).recorded (noteEval rt)).Visits (fun both => both.1.EvalLaw both.2)
        (initial enableFfiApi, EvalRecord.start) requests ∧
      (machine rt).Along (Executes rt) (initial enableFfiApi) requests) ↔
      (machine rt).Along (AcceptsArguments rt) (initial enableFfiApi) requests := by
  have sound := evalSound_throughout run
  have recordedRun : ((machine rt).recorded (noteEval rt)).Run
      (initial enableFfiApi, EvalRecord.start) requests := InputMachine.along_recorded.mpr run
  have law : ((machine rt).recorded (noteEval rt)).Visits (fun both => both.1.EvalLaw both.2)
      (initial enableFfiApi, EvalRecord.start) requests := sound.mono fun _ here => here.law
  have exact : (machine rt).Along (Executes rt) (initial enableFfiApi) requests ↔
      (machine rt).Along (AcceptsArguments rt) (initial enableFfiApi) requests := by
    have agree (both : System × EvalRecord) (request : Request)
        (sound : both.1.EvalSound rt both.2)
        (admitted : ((machine rt).recorded (noteEval rt)).Admits both request) :
        both.1.Executes rt request ↔ both.1.AcceptsArguments rt request :=
      executes_iff request sound admitted
    exact InputMachine.along_recorded.symm.trans
      ((recordedRun.along_iff agree sound).trans InputMachine.along_recorded)
  exact ⟨fun both => exact.mp both.2, fun accepts => ⟨law, exact.mpr accepts⟩⟩

/-- The globals have a metatable that catches new names, and no `KEYS` and `ARGV`. -/
def guardedGlobals : Heap where
  next := 2
  cells := fun addr =>
    if addr = 0 then Table.ofFields [] (some 1)
    else if addr = 1 then
      Table.ofFields [(.string (bytes "__newindex"), .function (.closure 0))]
    else .empty
  stringMeta := none
  userdataMeta := fun _ => none

/-- A script that leaves such globals behind. -/
def guardsGlobals : ScriptRun := ⟨[.step guardedGlobals], .ok .nil⟩

/-- The script is called twice. -/
def evaluateTwice : List Request :=
  [.compile .eval [1] 1 idleBody, .call [] scriptHandle [] [] idleBody guardsGlobals,
    .call [] scriptHandle [] [] idleBody idleBody]

/-- The engine before the second call. -/
def afterGuarding : System := (machine .plain).after (initial false) (evaluateTwice.take 2)

/-- The second call aborts before it comes to the script. -/
theorem guarded_globals_stop_script :
    (machine .plain).Run (initial false) evaluateTwice ∧
      ¬ (((machine .plain).recorded (noteEval .plain)).Visits (fun both => both.1.EvalLaw both.2)
          (initial false, EvalRecord.start) evaluateTwice ∧
        (machine .plain).Along (Executes .plain) (initial false) evaluateTwice) := by
  refine ⟨by decide +kernel, ?_⟩
  rintro ⟨-, -, -, executes, -⟩
  have silent : (callOutcome .plain afterGuarding.ctx [] scriptHandle [] [] idleBody
      idleBody).world.core.host.trace = [] := by decide +kernel
  have executes : afterGuarding.Executes .plain (.call [] scriptHandle [] [] idleBody idleBody) :=
    executes
  obtain ⟨event, member, -⟩ := (executes [1] rfl (.chunk [1])).mpr rfl
  rw [silent] at member
  cases member

/-- A script that is called once is executed. -/
theorem first_call_executes :
    ((machine .plain).recorded (noteEval .plain)).Visits (fun both => both.1.EvalLaw both.2)
        (initial false, EvalRecord.start) (evaluateOnce.take 2) ∧
      (machine .plain).Along (Executes .plain) (initial false) (evaluateOnce.take 2) := by
  have run : (machine .plain).Run (initial false) (evaluateOnce.take 2) := by decide +kernel
  refine (eval_executes_throughout_iff .plain false _ run).mpr ⟨trivial, ?_, trivial⟩
  intro text source
  decide +kernel

end System

end ValkeyLuajit
